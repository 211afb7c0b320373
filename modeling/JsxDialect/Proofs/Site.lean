import JsxDialect.Check.Declaration

/-!
# Places and the scopes around them

What stands where in a tree: every reference to a name, every binding of one and every element, each
with the layers of scopes around it, innermost first. The layers are those of the language, not
those that the walk records. A layer tells what it declares, and apart from that the part of it that
a scope record lists; the two differ at the rests of patterns, at the own name of a class and in
static blocks.

The body of a function that is no arrow function tells more: whether it is a method of an instance,
the statements before the one that the place is in, and that one itself. So the statements that
have run when the place is reached can be read off the layers.
-/

namespace JsxDialect

/-- What a layer around a place is. -/
inductive LayerKind where
  /-- A scope with the `this` of the layer around it: an arrow function, a block, a loop, a handler
  or the inside of a class. -/
  | plain
  /-- The value of a field, or a static block, where `this` is another one. -/
  | value
  /-- The parameters of a function that is no arrow function. -/
  | params (isMethod : Bool)
  /-- The body of such a function, in the statement `current` after the statements `before`. -/
  | body (isMethod : Bool) (before : List Stmt) (current : Stmt)

/-- Whether a layer belongs to a function that is no arrow function. -/
def LayerKind.isFunction : LayerKind → Bool
  | .params _ | .body .. => true
  | .plain | .value => false

/-- A layer: the names it declares, and those of them that a scope record would list. -/
structure Layer where
  kind : LayerKind
  declared : List String
  listed : List String

/-- What stands at a place. -/
inductive Part where
  | reference (name : String)
  | binding (name : String)
  | element (element : Element)

/-- A place: what stands there, and the layers around it, innermost first. -/
structure Site where
  layers : List Layer
  part : Part

namespace Site

/-- A reference with no layers around it. -/
def reference (name : String) : Site :=
  ⟨[], .reference name⟩

/-- A binding with no layers around it. -/
def binding (name : String) : Site :=
  ⟨[], .binding name⟩

/-- The place inside further layers. -/
def around (outer : List Layer) (p : Site) : Site :=
  ⟨p.layers ++ outer, p.part⟩

/-- Places inside one more layer. -/
def under (l : Layer) (ps : List Site) : List Site :=
  ps.map (around [l])

/-- The layer of parameters. -/
def paramLayer (kind : LayerKind) (params : List Param) (rest : Option Pattern) : Layer :=
  ⟨kind, params.flatMap (·.pattern.allNames) ++ restAllNames rest,
    params.flatMap (·.pattern.names) ++ (rest.map Pattern.names).getD []⟩

/-- The layer of the statements of a function body. -/
def bodyLayer (kind : LayerKind) (stmts : List Stmt) : Layer :=
  ⟨kind, Check.varAllNames stmts ++ stmts.flatMap Check.blockNames,
    varNames stmts ++ lexicalNames stmts⟩

/-- The layer of a block. -/
def blockLayer (stmts : List Stmt) : Layer :=
  ⟨.plain, stmts.flatMap Check.blockNames, lexicalNames stmts⟩

/-- The layer of a loop. -/
def headLayer (head : ForHead) : Layer :=
  ⟨.plain, Check.headNames head, head.lexicalNames⟩

/-- The layer of the parameter of a handler. -/
def handlerLayer (param : Option Pattern) : Layer :=
  ⟨.plain, restAllNames param, (param.map Pattern.names).getD []⟩

/-- The layer of the cases of a `switch`. -/
def casesLayer (cases : List SwitchCase) : Layer :=
  ⟨.plain, cases.flatMap (fun | .mk _ body => body.flatMap Check.blockNames),
    cases.flatMap fun | .mk _ body => lexicalNames body⟩

/-- The layer of a name that no scope record lists: the own name of a class. -/
def ownLayer (name : Option String) : Layer :=
  ⟨.plain, name.toList, []⟩

/-- The layer of the value of a field. -/
def valueLayer : Layer :=
  ⟨.value, [], []⟩

/-- The layer of a static block. -/
def staticLayer (stmts : List Stmt) : Layer :=
  ⟨.value, Check.varAllNames stmts ++ stmts.flatMap Check.blockNames, []⟩

/-- Whether a method of a class runs on an instance that has been made. -/
def isInstanceMethod (isStatic : Bool) (kind : MethodKind) : Bool :=
  !isStatic && kind != .constructor

/-- The place that the name of an element refers from. -/
def ofElementName : ElementName → List Site
  | .reference name => [reference name]
  | .member root _ => if root == "this" then [] else [reference root]
  | _ => []

/-- The place that binds the name of a function or class. -/
def ofName : Option String → List Site
  | none => []
  | some name => [binding name]

mutual

/-- The places in a type. -/
def ofType : TypeExpr → List Site
  | .keyword _ | .string _ | .number _ => []
  | .reference name _ args => reference name :: ofTypes args
  | .array item => ofType item
  | .union members => ofTypes members
  | .intersection members => ofTypes members

/-- The places in several types. -/
def ofTypes : List TypeExpr → List Site
  | [] => []
  | t :: ts => ofType t ++ ofTypes ts

end

/-- The places in an annotation. -/
def ofOptType : Option TypeExpr → List Site
  | none => []
  | some t => ofType t

/-- The places in a declared `this` parameter. -/
def ofThisParam : Option ThisParam → List Site
  | none => []
  | some p => ofOptType p.type

mutual

/-- The places in an expression. -/
def ofExpr : Expr → List Site
  | .ident _ name => [reference name]
  | .alias _ name _ => [reference name]
  | .number .. | .string .. | .bigint .. | .regex .. | .bool .. | .null _ | .this _ | .super _
  | .metaProperty .. | .hole => []
  | .template _ _ exprs => ofExprs exprs
  | .tagged _ tag _ exprs => ofExpr tag ++ ofExprs exprs
  | .spread e => ofExpr e
  | .array _ elements => ofExprs elements
  | .object _ properties => ofProperties properties
  | .function _ f => under ⟨.plain, f.name.toList, f.name.toList⟩ (ofFunction false f)
  | .arrow _ f => ofArrow f
  | .classExpr _ c => ofClass c
  | .unary _ _ e => ofExpr e
  | .update _ _ _ e => ofExpr e
  | .binary _ _ l r => ofExpr l ++ ofExpr r
  | .privateIn _ _ r => ofExpr r
  | .logical _ _ l r => ofExpr l ++ ofExpr r
  | .assign _ _ left right => ofPattern left ++ ofExpr right
  | .conditional _ test consequent alternate =>
    ofExpr test ++ (ofExpr consequent ++ ofExpr alternate)
  | .call _ callee args _ => ofExpr callee ++ ofExprs args
  | .new _ callee args => ofExpr callee ++ ofExprs args
  | .member _ o _ _ => ofExpr o
  | .privateMember _ o _ _ => ofExpr o
  | .index _ o k _ => ofExpr o ++ ofExpr k
  | .chain _ e => ofExpr e
  | .sequence _ exprs => ofExprs exprs
  | .paren _ e => ofExpr e
  | .yield _ _ e => ofOption e
  | .await _ e => ofExpr e
  | .importCall _ args => ofExprs args
  | .typed _ _ e type => ofExpr e ++ ofType type
  | .nonNull _ e => ofExpr e
  | .element e => ofElement e
  | .fragment _ children => ofChildren children

/-- The places in several expressions. -/
def ofExprs : List Expr → List Site
  | [] => []
  | e :: es => ofExpr e ++ ofExprs es

/-- The places in an expression that may be missing. -/
def ofOption : Option Expr → List Site
  | none => []
  | some e => ofExpr e

/-- The places in the key of a member. -/
def ofKey : Key → List Site
  | .computed e => ofExpr e
  | .ident _ | .string _ | .number _ | .bigint _ | .privateName _ => []

/-- The places in a member of an object literal. -/
def ofProperty : Property → List Site
  | .field k value _ => ofKey k ++ ofExpr value
  | .method _ k f => ofKey k ++ ofFunction false f
  | .spread e => ofExpr e

/-- The places in the members of an object literal. -/
def ofProperties : List Property → List Site
  | [] => []
  | p :: ps => ofProperty p ++ ofProperties ps

/-- The places in an arrow function, which keeps `this`. The decorators of parameters run before
there are any parameters. -/
def ofArrow : Func → List Site
  | .mk name _ _ thisParam _ params rest type body =>
    ofName name
      ++ (under ⟨.plain, [], []⟩ (ofDecorators params)
        ++ under (paramLayer .plain params rest)
          (ofThisParam thisParam ++ (ofParams params ++ (ofRest rest
            ++ (ofOptType type ++ ofArrowBody body)))))

/-- The places in the body of an arrow function. -/
def ofArrowBody : Body → List Site
  | .absent => []
  | .expr e => ofExpr e
  | .block _ stmts => under (bodyLayer .plain stmts) (ofStmts stmts)

/-- The places in a function that is no arrow function. -/
def ofFunction (isMethod : Bool) : Func → List Site
  | .mk name _ _ thisParam _ params rest type body =>
    ofName name
      ++ (under ⟨.params isMethod, [], []⟩ (ofDecorators params)
        ++ under (paramLayer (.params isMethod) params rest)
          (ofThisParam thisParam ++ (ofParams params ++ (ofRest rest
            ++ (ofOptType type ++ ofBody isMethod body)))))

/-- The places in the body of such a function. -/
def ofBody (isMethod : Bool) : Body → List Site
  | .absent => []
  | .expr e => ofExpr e
  | .block _ stmts => ofBodyStmts isMethod stmts [] stmts

/-- The places in the statements of a body, given all of them and those before. -/
def ofBodyStmts (isMethod : Bool) (all before : List Stmt) : List Stmt → List Site
  | [] => []
  | s :: ss =>
    under (bodyLayer (.body isMethod before s) all) (ofStmt s)
      ++ ofBodyStmts isMethod all (before ++ [s]) ss

/-- The places in the decorators of parameters. -/
def ofDecorators : List Param → List Site
  | [] => []
  | .mk decorators _ :: ps => ofExprs decorators ++ ofDecorators ps

/-- The places in parameters, their decorators apart. -/
def ofParams : List Param → List Site
  | [] => []
  | .mk _ pattern :: ps => ofPattern pattern ++ ofParams ps

/-- The places in a pattern. -/
def ofPattern : Pattern → List Site
  | .bind name => [binding name]
  | .target e => ofExpr e
  | .hole => []
  | .object properties rest => ofPatternProperties properties ++ ofRest rest
  | .array elements rest => ofPatterns elements ++ ofRest rest
  | .withDefault p value => ofPattern p ++ ofExpr value
  | .typed p _ type => ofPattern p ++ ofOptType type

/-- The places in several patterns. -/
def ofPatterns : List Pattern → List Site
  | [] => []
  | p :: ps => ofPattern p ++ ofPatterns ps

/-- The places in a pattern that may be missing. -/
def ofRest : Option Pattern → List Site
  | none => []
  | some p => ofPattern p

/-- The places in the members of an object pattern. -/
def ofPatternProperties : List PatternProperty → List Site
  | [] => []
  | .mk k value _ :: ps => ofKey k ++ (ofPattern value ++ ofPatternProperties ps)

/-- The places in a statement. -/
def ofStmt : Stmt → List Site
  | .expr e => ofExpr e
  | .varDecl _ ds => ofDeclarators ds
  | .function f => ofFunction false f
  | .classDecl c => ofClass c
  | .return e => ofOption e
  | .throw e => ofExpr e
  | .if test consequent alternate => ofExpr test ++ (ofStmt consequent ++ ofAlternate alternate)
  | .for init test update body =>
    under (headLayer init) (ofHead init ++ (ofOption test ++ (ofOption update ++ ofStmt body)))
  | .forIn left right body => under (headLayer left) (ofHead left ++ (ofExpr right ++ ofStmt body))
  | .forOf _ left right body =>
    under (headLayer left) (ofHead left ++ (ofExpr right ++ ofStmt body))
  | .while test body => ofExpr test ++ ofStmt body
  | .doWhile body test => ofStmt body ++ ofExpr test
  | .block stmts => under (blockLayer stmts) (ofStmts stmts)
  | .switch discriminant cases => ofExpr discriminant ++ under (casesLayer cases) (ofCases cases)
  | .try block handler finalizer =>
    under (blockLayer block) (ofStmts block) ++ (ofHandler handler ++ ofFinalizer finalizer)
  | .break _ | .continue _ | .empty | .debugger | .exportAll .. => []
  | .import items _ => (items.getD []).map fun item => binding item.localName
  | .exportNamed items source =>
    if source.isNone then items.map fun item => reference item.1.name else []
  | .labeled _ body => ofStmt body
  | .exportDecl d => ofStmt d
  | .exportDefaultFunction f => ofFunction false f
  | .exportDefaultClass c => ofClass c
  | .exportDefault e => ofExpr e

/-- The places in several statements. -/
def ofStmts : List Stmt → List Site
  | [] => []
  | s :: ss => ofStmt s ++ ofStmts ss

/-- The places in an `else` part. -/
def ofAlternate : Option Stmt → List Site
  | none => []
  | some s => ofStmt s

/-- The places in declared variables. -/
def ofDeclarators : List Declarator → List Site
  | [] => []
  | .mk p init :: ds => ofPattern p ++ (ofOption init ++ ofDeclarators ds)

/-- The places in the head of a loop. -/
def ofHead : ForHead → List Site
  | .absent => []
  | .decl _ ds => ofDeclarators ds
  | .expr e => ofExpr e
  | .target p => ofPattern p

/-- The places in the cases of a `switch`. -/
def ofCases : List SwitchCase → List Site
  | [] => []
  | .mk test body :: cases => ofOption test ++ (ofStmts body ++ ofCases cases)

/-- The places in a handler. -/
def ofHandler : Option Catch → List Site
  | none => []
  | some (.mk param body) =>
    under (handlerLayer param) (ofRest param ++ under (blockLayer body) (ofStmts body))

/-- The places in a finalizer. -/
def ofFinalizer : Option (List Stmt) → List Site
  | none => []
  | some body => under (blockLayer body) (ofStmts body)

/-- The places in a class. Its decorators are outside of it. -/
def ofClass : Class → List Site
  | .mk name decorators superClass members =>
    ofExprs decorators
      ++ (ofName name ++ under (ownLayer name) (ofOption superClass ++ ofMembers members))

/-- The places in the members of a class. -/
def ofMembers : List Member → List Site
  | [] => []
  | .method decorators isStatic kind k f :: ms =>
    ofExprs decorators
      ++ (ofKey k ++ (ofFunction (isInstanceMethod isStatic kind) f ++ ofMembers ms))
  | .field decorators _ k _ type value :: ms =>
    ofExprs decorators
      ++ (ofKey k ++ (ofOptType type ++ (under valueLayer (ofOption value) ++ ofMembers ms)))
  | .staticBlock stmts :: ms => under (staticLayer stmts) (ofStmts stmts) ++ ofMembers ms

/-- The places in an element, the element itself first. -/
def ofElement : Element → List Site
  | .mk span openSpan name attrs children closed =>
    ⟨[], .element (.mk span openSpan name attrs children closed)⟩
      :: (ofElementName name ++ (ofAttrs attrs ++ ofChildren children))

/-- The places in an attribute. -/
def ofAttr : Attr → List Site
  | .named _ _ value => ofAttrValue value
  | .spread _ e => ofExpr e

/-- The places in attributes. -/
def ofAttrs : List Attr → List Site
  | [] => []
  | a :: as => ofAttr a ++ ofAttrs as

/-- The places in the value of an attribute. -/
def ofAttrValue : AttrValue → List Site
  | .absent | .string _ => []
  | .container _ e => ofOption e
  | .element e => ofElement e
  | .fragment _ children => ofChildren children

/-- The places in children. -/
def ofChildren : List Child → List Site
  | [] => []
  | c :: cs => ofChild c ++ ofChildren cs

/-- The places in a child. -/
def ofChild : Child → List Site
  | .text _ => []
  | .element e => ofElement e
  | .fragment _ children => ofChildren children
  | .container e => ofOption e
  | .spread e => ofExpr e

end

/-- The element at a place. -/
def element? (p : Site) : Option Element :=
  match p.part with
  | .element e => some e
  | _ => none

/-- The name that is bound or referred to at a place. -/
def name? (p : Site) : Option String :=
  match p.part with
  | .reference name | .binding name => some name
  | _ => none

/-- The name that is referred to at a place, if no layer around the place declares it. -/
def free? (p : Site) : Option String :=
  match p.part with
  | .reference name => if p.layers.any (·.declared.contains name) then none else some name
  | _ => none

end Site

/-- All elements in a module, at any depth. -/
def Module.elements (m : Module) : List Element :=
  (Site.ofStmts m.stmts).filterMap Site.element?

/-- All names that are bound or referred to in a module. -/
def Module.names (m : Module) : List String :=
  (Site.ofStmts m.stmts).filterMap Site.name?

/-- The names that are free in an expression, by the scopes of the language. -/
def Expr.openNames (e : Expr) : List String :=
  (Site.ofExpr e).filterMap Site.free?

end JsxDialect
