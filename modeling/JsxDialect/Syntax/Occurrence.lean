import JsxDialect.Scope
import JsxDialect.Syntax.Basic

/-!
# Occurrences of names

What happens to names in a piece of code, read from its start to its end: scopes open and close,
names are bound and referred to. The names that an expression refers to but does not bind,
`Expr.freeNames`, and the names that occur in a module, `Module.usedNames`, are read off it.

A binding counts for the scope in which it stands, and a reference is resolved only when all
bindings are known, so that a declaration also serves the references before it.
-/

namespace JsxDialect

/-- What happens to names at a point of the code. -/
inductive NameEvent where
  | enter
  | leave
  | bind (name : String)
  | refer (name : String)
deriving Repr, DecidableEq

namespace NameEvent

/-- What happens in a scope of its own. -/
def inScope (events : List NameEvent) : List NameEvent :=
  .enter :: events ++ [.leave]

mutual

/-- The names in a type. -/
def ofType : TypeExpr → List NameEvent
  | .keyword _ | .string _ | .number _ => []
  | .reference name _ args => .refer name :: ofTypes args
  | .array item => ofType item
  | .union members => ofTypes members
  | .intersection members => ofTypes members

/-- The names in several types. -/
def ofTypes : List TypeExpr → List NameEvent
  | [] => []
  | t :: ts => ofType t ++ ofTypes ts

end

/-- The names in an annotation. -/
def ofOptType : Option TypeExpr → List NameEvent
  | none => []
  | some t => ofType t

/-- The names in a declared `this` parameter. -/
def ofThisParam : Option ThisParam → List NameEvent
  | none => []
  | some p => ofOptType p.type

/-- The name that the name of an element refers to. -/
def ofElementName : ElementName → List NameEvent
  | .reference name => [.refer name]
  | .member root _ => if root == "this" then [] else [.refer root]
  | _ => []

/-- The name that a function or class binds. -/
def ofName : Option String → List NameEvent
  | none => []
  | some name => [.bind name]

mutual

/-- The names in an expression. -/
def ofExpr : Expr → List NameEvent
  | .ident _ name => [.refer name]
  | .alias _ name _ => [.refer name]
  | .number .. | .string .. | .bigint .. | .regex .. | .bool .. | .null _ | .this _ | .super _
  | .metaProperty .. | .hole => []
  | .template _ _ exprs => ofExprs exprs
  | .tagged _ tag _ exprs => ofExpr tag ++ ofExprs exprs
  | .spread e => ofExpr e
  | .array _ elements => ofExprs elements
  | .object _ properties => ofProperties properties
  | .function _ f => ofFunction false f
  | .arrow _ f => ofFunction false f
  | .classExpr _ c => ofClass c
  | .unary _ _ e => ofExpr e
  | .update _ _ _ e => ofExpr e
  | .binary _ _ l r => ofExpr l ++ ofExpr r
  | .privateIn _ _ r => ofExpr r
  | .logical _ _ l r => ofExpr l ++ ofExpr r
  | .assign _ _ left right => ofPattern left ++ ofExpr right
  | .conditional _ test consequent alternate =>
    ofExpr test ++ ofExpr consequent ++ ofExpr alternate
  | .call _ callee args _ => ofExpr callee ++ ofExprs args
  | .new _ callee args => ofExpr callee ++ ofExprs args
  | .member _ o _ _ => ofExpr o
  | .privateMember _ o _ _ => ofExpr o
  | .index _ o k _ => ofExpr o ++ ofExpr k
  | .chain _ e => ofExpr e
  | .sequence _ exprs => ofExprs exprs
  | .paren _ e => ofExpr e
  | .yield _ _ e => ofOption e
  | .await _ e => ofExpr e
  | .importCall _ args => ofExprs args
  | .typed _ _ e type => ofExpr e ++ ofType type
  | .nonNull _ e => ofExpr e
  | .element e => ofElement e
  | .fragment _ children => ofChildren children

/-- The names in several expressions. -/
def ofExprs : List Expr → List NameEvent
  | [] => []
  | e :: es => ofExpr e ++ ofExprs es

/-- The names in an expression that may be absent. -/
def ofOption : Option Expr → List NameEvent
  | none => []
  | some e => ofExpr e

/-- The names in the name of a member. -/
def ofKey : Key → List NameEvent
  | .computed e => ofExpr e
  | _ => []

/-- The names in the members of an object. -/
def ofProperties : List Property → List NameEvent
  | [] => []
  | .field k value _ :: ps => ofKey k ++ ofExpr value ++ ofProperties ps
  | .method _ k f :: ps => ofKey k ++ ofFunction false f ++ ofProperties ps
  | .spread e :: ps => ofExpr e ++ ofProperties ps

/-- The names in a function. Its own name is bound inside it, and that of a declaration also
around it. -/
def ofFunction (isDeclaration : Bool) : Func → List NameEvent
  | .mk name _ _ thisParam _ params rest type body =>
    (if isDeclaration then ofName name else [])
      ++ inScope (ofName name ++ ofThisParam thisParam ++ ofParams params ++ ofRest rest
        ++ ofOptType type ++ ofBody body)

/-- The names in the body of a function. -/
def ofBody : Body → List NameEvent
  | .absent => []
  | .expr e => ofExpr e
  | .block _ stmts => ofStmts stmts

/-- The names in parameters. -/
def ofParams : List Param → List NameEvent
  | [] => []
  | .mk decorators pattern :: ps => ofExprs decorators ++ ofPattern pattern ++ ofParams ps

/-- The names in a pattern. -/
def ofPattern : Pattern → List NameEvent
  | .bind name => [.bind name]
  | .target e => ofExpr e
  | .hole => []
  | .object properties rest => ofPatternProperties properties ++ ofRest rest
  | .array elements rest => ofPatterns elements ++ ofRest rest
  | .withDefault p value => ofPattern p ++ ofExpr value
  | .typed p _ type => ofPattern p ++ ofOptType type

/-- The names in several patterns. -/
def ofPatterns : List Pattern → List NameEvent
  | [] => []
  | p :: ps => ofPattern p ++ ofPatterns ps

/-- The names in the rest of a pattern. -/
def ofRest : Option Pattern → List NameEvent
  | none => []
  | some p => ofPattern p

/-- The names in the members of an object pattern. -/
def ofPatternProperties : List PatternProperty → List NameEvent
  | [] => []
  | .mk k value _ :: ps => ofKey k ++ ofPattern value ++ ofPatternProperties ps

/-- The names in a statement. -/
def ofStmt : Stmt → List NameEvent
  | .expr e => ofExpr e
  | .varDecl _ ds => ofDeclarators ds
  | .function f => ofFunction true f
  | .classDecl c => ofClass c
  | .return e => ofOption e
  | .throw e => ofExpr e
  | .if test consequent alternate => ofExpr test ++ ofStmt consequent ++ ofAlternate alternate
  | .for init test update body =>
    inScope (ofHead init ++ ofOption test ++ ofOption update ++ ofStmt body)
  | .forIn left right body => inScope (ofHead left ++ ofExpr right ++ ofStmt body)
  | .forOf _ left right body => inScope (ofHead left ++ ofExpr right ++ ofStmt body)
  | .while test body => ofExpr test ++ ofStmt body
  | .doWhile body test => ofStmt body ++ ofExpr test
  | .block stmts => inScope (ofStmts stmts)
  | .switch discriminant cases => ofExpr discriminant ++ inScope (ofCases cases)
  | .try block handler finalizer =>
    inScope (ofStmts block) ++ ofHandler handler ++ ofFinalizer finalizer
  | .break _ | .continue _ | .empty | .debugger | .exportAll .. => []
  | .labeled _ body => ofStmt body
  | .import items _ => (items.getD []).map fun item => .bind item.localName
  | .exportNamed items source =>
    if source.isNone then items.map fun item => .refer item.1.name else []
  | .exportDecl d => ofStmt d
  | .exportDefaultFunction f => ofFunction true f
  | .exportDefaultClass c => ofClass c
  | .exportDefault e => ofExpr e

/-- The names in several statements. -/
def ofStmts : List Stmt → List NameEvent
  | [] => []
  | s :: ss => ofStmt s ++ ofStmts ss

/-- The names in an `else` part. -/
def ofAlternate : Option Stmt → List NameEvent
  | none => []
  | some s => ofStmt s

/-- The names in declared variables. -/
def ofDeclarators : List Declarator → List NameEvent
  | [] => []
  | .mk p init :: ds => ofPattern p ++ ofOption init ++ ofDeclarators ds

/-- The names in the head of a loop. -/
def ofHead : ForHead → List NameEvent
  | .absent => []
  | .decl _ ds => ofDeclarators ds
  | .expr e => ofExpr e
  | .target p => ofPattern p

/-- The names in the cases of a `switch`. -/
def ofCases : List SwitchCase → List NameEvent
  | [] => []
  | .mk test body :: cases => ofOption test ++ ofStmts body ++ ofCases cases

/-- The names in a handler. Its body is a block inside the scope of its parameter. -/
def ofHandler : Option Catch → List NameEvent
  | none => []
  | some (.mk param body) => inScope (ofRest param ++ inScope (ofStmts body))

/-- The names in a finalizer. -/
def ofFinalizer : Option (List Stmt) → List NameEvent
  | none => []
  | some body => inScope (ofStmts body)

/-- The names in a class. Its name is bound around it. -/
def ofClass : Class → List NameEvent
  | .mk name decorators superClass members =>
    ofExprs decorators ++ ofName name ++ inScope (ofOption superClass ++ ofMembers members)

/-- The names in the members of a class. -/
def ofMembers : List Member → List NameEvent
  | [] => []
  | .method decorators _ _ k f :: ms =>
    ofExprs decorators ++ ofKey k ++ ofFunction false f ++ ofMembers ms
  | .field decorators _ k _ type value :: ms =>
    ofExprs decorators ++ ofKey k ++ ofOptType type ++ ofOption value ++ ofMembers ms
  | .staticBlock stmts :: ms => inScope (ofStmts stmts) ++ ofMembers ms

/-- The names in an element. -/
def ofElement : Element → List NameEvent
  | .mk _ _ name attrs children _ => ofElementName name ++ ofAttrs attrs ++ ofChildren children

/-- The names in attributes. -/
def ofAttrs : List Attr → List NameEvent
  | [] => []
  | .named _ _ value :: as => ofAttrValue value ++ ofAttrs as
  | .spread _ e :: as => ofExpr e ++ ofAttrs as

/-- The names in the value of an attribute. -/
def ofAttrValue : AttrValue → List NameEvent
  | .absent | .string _ => []
  | .container _ e => ofOption e
  | .element e => ofElement e
  | .fragment _ children => ofChildren children

/-- The names in children. -/
def ofChildren : List Child → List NameEvent
  | [] => []
  | .text _ :: cs => ofChildren cs
  | .element e :: cs => ofElement e ++ ofChildren cs
  | .fragment _ children :: cs => ofChildren children ++ ofChildren cs
  | .container e :: cs => ofOption e ++ ofChildren cs
  | .spread e :: cs => ofExpr e ++ ofChildren cs

end

/-- The name that occurs in an event. -/
def name? : NameEvent → Option String
  | .bind name | .refer name => some name
  | _ => none

end NameEvent

/-- The scopes of a piece of code, and the references in it with the scopes they stand in. -/
structure Captures where
  scopes : Scopes Unit
  references : List (String × Option Nat)

namespace Captures

/-- Takes one more event into account. -/
def step (c : Captures) : NameEvent → Captures
  | .enter => { c with scopes := (c.scopes.push .block []).2 }
  | .leave => { c with scopes := (c.scopes.pop?.map (·.2)).getD c.scopes }
  | .bind name =>
    match c.scopes.current with
    | some i => { c with scopes := c.scopes.bind i name }
    | none => c
  | .refer name => { c with references := c.references ++ [(name, c.scopes.current)] }

/-- The scopes and references of code that stands in a scope of its own. -/
def ofEvents (events : List NameEvent) : Captures :=
  (NameEvent.inScope events).foldl step ⟨.empty, []⟩

/-- The names of the references that no scope binds, in the order of their first references. -/
def freeNames (c : Captures) : List String :=
  (c.references.filterMap fun (name, scope) =>
    if (c.scopes.resolve scope name).isNone then some name else none).eraseDups

end Captures

/-- The names that an expression refers to but does not bind, in the order of their first
references. -/
def Expr.freeNames (e : Expr) : List String :=
  (Captures.ofEvents (NameEvent.ofExpr e)).freeNames

/-- The names that are bound or referred to somewhere in a module. -/
def Module.usedNames (m : Module) : List String :=
  ((NameEvent.ofStmts m.stmts).filterMap NameEvent.name?).eraseDups

end JsxDialect
