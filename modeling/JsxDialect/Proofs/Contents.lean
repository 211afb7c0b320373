import JsxDialect.Proofs.Site

/-!
# The functions, the classes and the texts of a module

A listing of a tree goes through all of it, at any depth: through functions, classes and what stands
in elements. It takes what it wants of each function, of each class and of each text in markup. A
class comes before what is inside it and a function after. The parts of a tree are taken in the
order in which they are walked.
-/

namespace JsxDialect

/-- The decorators of a class. -/
def Class.decorators : Class → List Expr
  | .mk _ decorators _ _ => decorators

/-- What a function is. -/
inductive FunctionRole where
  | arrow
  /-- A function, or a method of an object literal. -/
  | plain
  /-- A method of a class. -/
  | method (isStatic : Bool) (kind : MethodKind)
deriving DecidableEq

/-- Whether a function is a constructor. -/
def FunctionRole.isConstructor : FunctionRole → Bool
  | .method _ kind => kind == .constructor
  | .arrow | .plain => false

/-- `super(…);`, a call of the base constructor that stands as a statement. -/
def Stmt.isBaseCall : Stmt → Bool
  | .expr (.call _ (.super _) _ _) => true
  | _ => false

/-- What is taken of functions, of classes and of texts in markup, and whether the listing goes
through the calls of the base constructor among the statements of a constructor. -/
structure Listing (α : Type) where
  function : FunctionRole → Func → List α
  cls : Class → List α
  text : String → List α
  baseCalls : Bool

namespace Listing

variable {α : Type} (l : Listing α)

mutual

/-- What is listed in an expression. -/
def ofExpr : Expr → List α
  | .ident .. | .alias .. | .number .. | .string .. | .bigint .. | .regex .. | .bool .. | .null _
  | .this _ | .super _ | .metaProperty .. | .hole => []
  | .template _ _ exprs => ofExprs exprs
  | .tagged _ tag _ exprs => ofExpr tag ++ ofExprs exprs
  | .spread e => ofExpr e
  | .array _ elements => ofExprs elements
  | .object _ properties => ofProperties properties
  | .function _ f => ofFunc .plain f
  | .arrow _ f => ofFunc .arrow f
  | .classExpr _ c => ofClass c
  | .unary _ _ e => ofExpr e
  | .update _ _ _ e => ofExpr e
  | .binary _ _ l r => ofExpr l ++ ofExpr r
  | .privateIn _ _ r => ofExpr r
  | .logical _ _ l r => ofExpr l ++ ofExpr r
  | .assign _ _ left right => ofPattern left ++ ofExpr right
  | .conditional _ test consequent alternate =>
    ofExpr test ++ (ofExpr consequent ++ ofExpr alternate)
  | .call _ callee args _ => ofExpr callee ++ ofExprs args
  | .new _ callee args => ofExpr callee ++ ofExprs args
  | .member _ o _ _ => ofExpr o
  | .privateMember _ o _ _ => ofExpr o
  | .index _ o k _ => ofExpr o ++ ofExpr k
  | .chain _ e => ofExpr e
  | .sequence _ exprs => ofExprs exprs
  | .paren _ e => ofExpr e
  | .yield _ _ e => ofOption e
  | .await _ e => ofExpr e
  | .importCall _ args => ofExprs args
  | .typed _ _ e _ => ofExpr e
  | .nonNull _ e => ofExpr e
  | .element e => ofElement e
  | .fragment _ children => ofChildren children

/-- What is listed in several expressions. -/
def ofExprs : List Expr → List α
  | [] => []
  | e :: es => ofExpr e ++ ofExprs es

/-- What is listed in an expression that may be missing. -/
def ofOption : Option Expr → List α
  | none => []
  | some e => ofExpr e

/-- What is listed in the key of a member. -/
def ofKey : Key → List α
  | .computed e => ofExpr e
  | .ident _ | .string _ | .number _ | .bigint _ | .privateName _ => []

/-- What is listed in a member of an object literal. -/
def ofProperty : Property → List α
  | .field k value _ => ofKey k ++ ofExpr value
  | .method _ k f => ofKey k ++ ofFunc .plain f
  | .spread e => ofExpr e

/-- What is listed in the members of an object literal. -/
def ofProperties : List Property → List α
  | [] => []
  | p :: ps => ofProperty p ++ ofProperties ps

/-- What is listed in a function, and of it. -/
def ofFunc (role : FunctionRole) : Func → List α
  | .mk name isAsync isGenerator thisParam span params rest type body =>
    (ofParams params ++ (ofRest rest ++ ofBody (!l.baseCalls && role.isConstructor) body))
      ++ l.function role (.mk name isAsync isGenerator thisParam span params rest type body)

/-- What is listed in the body of a function, with or without calls of the base constructor. -/
def ofBody (skipsCalls : Bool) : Body → List α
  | .absent => []
  | .expr e => ofExpr e
  | .block _ stmts => if skipsCalls then ofOtherStmts stmts else ofStmts stmts

/-- What is listed in statements that are no calls of the base constructor. -/
def ofOtherStmts : List Stmt → List α
  | [] => []
  | s :: ss => (if s.isBaseCall then [] else ofStmt s) ++ ofOtherStmts ss

/-- What is listed in parameters. -/
def ofParams : List Param → List α
  | [] => []
  | .mk decorators pattern :: ps => (ofExprs decorators ++ ofPattern pattern) ++ ofParams ps

/-- What is listed in a pattern. -/
def ofPattern : Pattern → List α
  | .bind _ | .hole => []
  | .target e => ofExpr e
  | .object properties rest => ofPatternProperties properties ++ ofRest rest
  | .array elements rest => ofPatterns elements ++ ofRest rest
  | .withDefault p value => ofPattern p ++ ofExpr value
  | .typed p _ _ => ofPattern p

/-- What is listed in several patterns. -/
def ofPatterns : List Pattern → List α
  | [] => []
  | p :: ps => ofPattern p ++ ofPatterns ps

/-- What is listed in a pattern that may be missing. -/
def ofRest : Option Pattern → List α
  | none => []
  | some p => ofPattern p

/-- What is listed in the members of an object pattern. -/
def ofPatternProperties : List PatternProperty → List α
  | [] => []
  | .mk k value _ :: ps => ofKey k ++ (ofPattern value ++ ofPatternProperties ps)

/-- What is listed in a statement. -/
def ofStmt : Stmt → List α
  | .expr e => ofExpr e
  | .varDecl _ ds => ofDeclarators ds
  | .function f => ofFunc .plain f
  | .classDecl c => ofClass c
  | .return e => ofOption e
  | .throw e => ofExpr e
  | .if test consequent alternate => ofExpr test ++ (ofStmt consequent ++ ofAlternate alternate)
  | .for init test update body =>
    ofHead init ++ (ofOption test ++ (ofOption update ++ ofStmt body))
  | .forIn left right body => ofHead left ++ (ofExpr right ++ ofStmt body)
  | .forOf _ left right body => ofHead left ++ (ofExpr right ++ ofStmt body)
  | .while test body => ofExpr test ++ ofStmt body
  | .doWhile body test => ofStmt body ++ ofExpr test
  | .block stmts => ofStmts stmts
  | .switch discriminant cases => ofExpr discriminant ++ ofCases cases
  | .try block handler finalizer =>
    ofStmts block ++ (ofHandler handler ++ ofFinalizer finalizer)
  | .break _ | .continue _ | .empty | .debugger | .import .. | .exportNamed .. | .exportAll .. => []
  | .labeled _ body => ofStmt body
  | .exportDecl d => ofStmt d
  | .exportDefaultFunction f => ofFunc .plain f
  | .exportDefaultClass c => ofClass c
  | .exportDefault e => ofExpr e

/-- What is listed in several statements. -/
def ofStmts : List Stmt → List α
  | [] => []
  | s :: ss => ofStmt s ++ ofStmts ss

/-- What is listed in an `else` part. -/
def ofAlternate : Option Stmt → List α
  | none => []
  | some s => ofStmt s

/-- What is listed in declared variables. -/
def ofDeclarators : List Declarator → List α
  | [] => []
  | .mk p init :: ds => ofPattern p ++ (ofOption init ++ ofDeclarators ds)

/-- What is listed in the head of a loop. -/
def ofHead : ForHead → List α
  | .absent => []
  | .decl _ ds => ofDeclarators ds
  | .expr e => ofExpr e
  | .target p => ofPattern p

/-- What is listed in the cases of a `switch`. -/
def ofCases : List SwitchCase → List α
  | [] => []
  | .mk test body :: cases => ofOption test ++ (ofStmts body ++ ofCases cases)

/-- What is listed in a handler. -/
def ofHandler : Option Catch → List α
  | none => []
  | some (.mk param body) => ofRest param ++ ofStmts body

/-- What is listed in a finalizer. -/
def ofFinalizer : Option (List Stmt) → List α
  | none => []
  | some body => ofStmts body

/-- What is listed of a class, and in it. -/
def ofClass : Class → List α
  | .mk name decorators superClass members =>
    l.cls (.mk name decorators superClass members)
      ++ (ofExprs decorators ++ (ofOption superClass ++ ofMembers members))

/-- What is listed in the members of a class. -/
def ofMembers : List Member → List α
  | [] => []
  | .method decorators isStatic kind k f :: ms =>
    ofExprs decorators ++ (ofKey k ++ (ofFunc (.method isStatic kind) f ++ ofMembers ms))
  | .field decorators _ k _ _ value :: ms =>
    ofExprs decorators ++ (ofKey k ++ (ofOption value ++ ofMembers ms))
  | .staticBlock stmts :: ms => ofStmts stmts ++ ofMembers ms

/-- What is listed in an element. -/
def ofElement : Element → List α
  | .mk _ _ _ attrs children _ => ofAttrs attrs ++ ofChildren children

/-- What is listed in attributes. -/
def ofAttrs : List Attr → List α
  | [] => []
  | .named _ _ value :: as => ofAttrValue value ++ ofAttrs as
  | .spread _ e :: as => ofExpr e ++ ofAttrs as

/-- What is listed in the value of an attribute. -/
def ofAttrValue : AttrValue → List α
  | .absent | .string _ => []
  | .container _ e => ofOption e
  | .element e => ofElement e
  | .fragment _ children => ofChildren children

/-- What is listed in children. -/
def ofChildren : List Child → List α
  | [] => []
  | c :: cs => ofChild c ++ ofChildren cs

/-- What is listed in a child. -/
def ofChild : Child → List α
  | .text value => l.text value
  | .element e => ofElement e
  | .fragment _ children => ofChildren children
  | .container e => ofOption e
  | .spread e => ofExpr e

end

/-- The classes. -/
def classes : Listing Class where
  function _ _ := []
  cls k := [k]
  text _ := []
  baseCalls := true

/-- The functions, with or without those in calls of the base constructor. -/
def functions (baseCalls : Bool) : Listing (FunctionRole × Func) where
  function role f := [(role, f)]
  cls _ := []
  text _ := []
  baseCalls := baseCalls

/-- The texts in markup. -/
def texts : Listing String where
  function _ _ := []
  cls _ := []
  text value := [value]
  baseCalls := true

end Listing

/-- All classes in a module, at any depth. -/
def Module.classes (m : Module) : List Class :=
  Listing.classes.ofStmts m.stmts

/-- All functions in a module, at any depth, with or without those in calls of the base constructor
that are statements of a constructor. -/
def Module.functions (m : Module) (baseCalls : Bool) : List (FunctionRole × Func) :=
  (Listing.functions baseCalls).ofStmts m.stmts

end JsxDialect
