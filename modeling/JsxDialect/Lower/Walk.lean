import JsxDialect.Lower.ComponentClass
import JsxDialect.Lower.Element

/-!
# The walk over a module

Every part of a module is visited once, in the order of the source, inner parts before the element
around them. On the way in, scopes are opened and classes are entered; on the way out, elements are
lowered and functions take over the statements queued on them.
-/

namespace JsxDialect

/-- The body with statements before its own. -/
def Body.prepend (stmts : List Stmt) : Body → Body
  | .block directives own => .block directives (stmts ++ own)
  | b => b

/-- The names that the cases of a `switch` declare. -/
def caseNames (cases : List SwitchCase) : List String :=
  cases.flatMap fun | .mk _ body => lexicalNames body

namespace Walk

open ComponentClass (ClassPlan)

/-- The kind of scope that a method of a class opens. -/
def methodScope (isStatic : Bool) (kind : MethodKind) : ScopeKind :=
  .function (!isStatic && kind != .constructor)

/-- A statement of a constructor that gets parameters: calls of the base constructor pass them
on. -/
def forward? : Stmt → Option Stmt
  | .expr (.call span (.super inside) _ optional) =>
    some (ComponentClass.forwardedCall span inside optional)
  | _ => none

mutual

/-- An expression. -/
def expr : Expr → Lower Expr
  | .ident s n => return .ident s n
  | .alias s n shown => return .alias s n shown
  | .number s v => return .number s v
  | .string s v => return .string s v
  | .bigint s v => return .bigint s v
  | .regex s v => return .regex s v
  | .bool s v => return .bool s v
  | .null s => return .null s
  | .this s => return .this s
  | .super s => return .super s
  | .metaProperty s o p => return .metaProperty s o p
  | .template s qs es => return .template s qs (← exprs es)
  | .tagged s t qs es => return .tagged s (← expr t) qs (← exprs es)
  | .hole => return .hole
  | .spread e => return .spread (← expr e)
  | .array s es => return .array s (← exprs es)
  | .object s ps => return .object s (← properties ps)
  | .function s f => return .function s (← func (.function false) true false f)
  | .arrow s f => return .arrow s (← func .arrow false false f)
  | .classExpr s c => return .classExpr s (← cls true c)
  | .unary s op e => return .unary s op (← expr e)
  | .update s op before e => return .update s op before (← expr e)
  | .binary s op l r => return .binary s op (← expr l) (← expr r)
  | .privateIn s n r => return .privateIn s n (← expr r)
  | .logical s op l r => return .logical s op (← expr l) (← expr r)
  | .assign s op l r => return .assign s op (← pattern l) (← expr r)
  | .conditional s t c a => return .conditional s (← expr t) (← expr c) (← expr a)
  | .call s c as optional => return .call s (← expr c) (← exprs as) optional
  | .new s c as => return .new s (← expr c) (← exprs as)
  | .member s o n optional => return .member s (← expr o) n optional
  | .privateMember s o n optional => return .privateMember s (← expr o) n optional
  | .index s o k optional => return .index s (← expr o) (← expr k) optional
  | .chain s e => return .chain s (← expr e)
  | .sequence s es => return .sequence s (← exprs es)
  | .paren s e => return .paren s (← expr e)
  | .yield s delegate e => return .yield s delegate (← optExpr e)
  | .await s e => return .await s (← expr e)
  | .importCall s as => return .importCall s (← exprs as)
  | .typed s test e t => return .typed s test (← expr e) t
  | .nonNull s e => return .nonNull s (← expr e)
  | .element e => do ControlFlow.lowerExpr (← element e)
  | .fragment s cs => return .fragment s (← ControlFlow.lowerChildren (← children cs))

/-- Expressions. -/
def exprs : List Expr → Lower (List Expr)
  | [] => return []
  | e :: es => return (← expr e) :: (← exprs es)

/-- An expression that may be missing. -/
def optExpr : Option Expr → Lower (Option Expr)
  | none => return none
  | some e => return some (← expr e)

/-- The key of a member. -/
def key : Key → Lower Key
  | .computed e => return .computed (← expr e)
  | .ident n => return .ident n
  | .string v => return .string v
  | .number v => return .number v
  | .bigint v => return .bigint v
  | .privateName n => return .privateName n

/-- A member of an object literal. -/
def property : Property → Lower Property
  | .field k v shorthand => return .field (← key k) (← expr v) shorthand
  | .method kind k f => return .method kind (← key k) (← func (.function false) true false f)
  | .spread e => return .spread (← expr e)

/-- Members of an object literal. -/
def properties : List Property → Lower (List Property)
  | [] => return []
  | p :: ps => return (← property p) :: (← properties ps)

/-- A callable, which opens a scope. Only the body of a function expression sees its name. -/
def func (scope : ScopeKind) (seesName givesParams : Bool) : Func → Lower Func
  | .mk name isAsync isGenerator thisParam span ps rest returnType b => do
    let own := if seesName then name.toList else []
    let given := if givesParams then ComponentClass.canonicalParams else []
    let names := ps.flatMap (·.pattern.names) ++ (rest.map Pattern.names).getD []
    Lower.openScope scope (given ++ names ++ own ++ b.names)
    let ps ← params ps
    let rest ← optPattern rest
    let b ← body givesParams b
    let queued ← Lower.closeFunction
    return .mk name isAsync isGenerator thisParam span (given.map Build.param ++ ps) rest returnType
      (b.prepend queued)

/-- The body of a callable. -/
def body (givesParams : Bool) : Body → Lower Body
  | .absent => return .absent
  | .expr e => return .expr (← expr e)
  | .block directives ss =>
    if givesParams then return .block directives (← forwarding ss)
    else return .block directives (← stmts ss)

/-- The statements of a constructor that gets parameters. -/
def forwarding : List Stmt → Lower (List Stmt)
  | [] => return []
  | s :: ss => do
    match forward? s with
    | some call => return call :: (← forwarding ss)
    | none => return (← stmt s) :: (← forwarding ss)

/-- A parameter. -/
def param : Param → Lower Param
  | .mk decorators p => return .mk (← exprs decorators) (← pattern p)

/-- Parameters. -/
def params : List Param → Lower (List Param)
  | [] => return []
  | p :: ps => return (← param p) :: (← params ps)

/-- A pattern. -/
def pattern : Pattern → Lower Pattern
  | .bind n => return .bind n
  | .target e => return .target (← expr e)
  | .hole => return .hole
  | .object ps rest => return .object (← patternProperties ps) (← optPattern rest)
  | .array ps rest => return .array (← patterns ps) (← optPattern rest)
  | .withDefault p e => return .withDefault (← pattern p) (← expr e)
  | .typed p optional t => return .typed (← pattern p) optional t

/-- Patterns. -/
def patterns : List Pattern → Lower (List Pattern)
  | [] => return []
  | p :: ps => return (← pattern p) :: (← patterns ps)

/-- A pattern that may be missing. -/
def optPattern : Option Pattern → Lower (Option Pattern)
  | none => return none
  | some p => return some (← pattern p)

/-- Members of an object pattern. -/
def patternProperties : List PatternProperty → Lower (List PatternProperty)
  | [] => return []
  | .mk k p shorthand :: ps =>
    return .mk (← key k) (← pattern p) shorthand :: (← patternProperties ps)

/-- A statement. -/
def stmt : Stmt → Lower Stmt
  | .expr e => return .expr (← expr e)
  | .varDecl kind ds => return .varDecl kind (← declarators ds)
  | .function f => return .function (← func (.function false) false false f)
  | .classDecl c => return .classDecl (← cls false c)
  | .return e => return .return (← optExpr e)
  | .throw e => return .throw (← expr e)
  | .if t c a => return .if (← expr t) (← stmt c) (← optStmt a)
  | .for init t u b => Lower.inside .block init.lexicalNames do
    return .for (← forHead init) (← optExpr t) (← optExpr u) (← stmt b)
  | .forIn left r b => Lower.inside .block left.lexicalNames do
    return .forIn (← forHead left) (← expr r) (← stmt b)
  | .forOf isAwait left r b => Lower.inside .block left.lexicalNames do
    return .forOf isAwait (← forHead left) (← expr r) (← stmt b)
  | .while t b => return .while (← expr t) (← stmt b)
  | .doWhile b t => return .doWhile (← stmt b) (← expr t)
  | .block ss => return .block (← Lower.inside .block (lexicalNames ss) (stmts ss))
  | .switch d cases => Lower.inside .block (caseNames cases) do
    return .switch (← expr d) (← switchCases cases)
  | .try b handler finalizer => do
    let b ← Lower.inside .block (lexicalNames b) (stmts b)
    return .try b (← optCatch handler) (← optBlock finalizer)
  | .break label => return .break label
  | .continue label => return .continue label
  | .labeled label b => return .labeled label (← stmt b)
  | .empty => return .empty
  | .debugger => return .debugger
  | .import items source => return .import items source
  | .exportNamed items source => return .exportNamed items source
  | .exportAll name source => return .exportAll name source
  | .exportDecl d => return .exportDecl (← stmt d)
  | .exportDefaultFunction f =>
    return .exportDefaultFunction (← func (.function false) false false f)
  | .exportDefaultClass c => return .exportDefaultClass (← cls false c)
  | .exportDefault e => return .exportDefault (← expr e)

/-- Statements. -/
def stmts : List Stmt → Lower (List Stmt)
  | [] => return []
  | s :: ss => return (← stmt s) :: (← stmts ss)

/-- A statement that may be missing. -/
def optStmt : Option Stmt → Lower (Option Stmt)
  | none => return none
  | some s => return some (← stmt s)

/-- A block that may be missing. -/
def optBlock : Option (List Stmt) → Lower (Option (List Stmt))
  | none => return none
  | some ss => return some (← Lower.inside .block (lexicalNames ss) (stmts ss))

/-- A handler, whose parameter has a scope of its own. -/
def optCatch : Option Catch → Lower (Option Catch)
  | none => return none
  | some (.mk param b) => Lower.inside .block ((param.map Pattern.names).getD []) do
    let param ← optPattern param
    return some (.mk param (← Lower.inside .block (lexicalNames b) (stmts b)))

/-- The variables of a declaration. -/
def declarators : List Declarator → Lower (List Declarator)
  | [] => return []
  | .mk p e :: ds => return .mk (← pattern p) (← optExpr e) :: (← declarators ds)

/-- The start of the head of a loop. -/
def forHead : ForHead → Lower ForHead
  | .absent => return .absent
  | .decl kind ds => return .decl kind (← declarators ds)
  | .expr e => return .expr (← expr e)
  | .target p => return .target (← pattern p)

/-- The cases of a `switch`. -/
def switchCases : List SwitchCase → Lower (List SwitchCase)
  | [] => return []
  | .mk t ss :: cases => return .mk (← optExpr t) (← stmts ss) :: (← switchCases cases)

/-- A class. -/
def cls (isExpr : Bool) : Class → Lower Class
  | .mk name decorators superClass ms => do
    let plan ← ComponentClass.enter isExpr (.mk name decorators superClass ms)
    let decorators ← exprs decorators
    let superClass ← optExpr superClass
    let ms ← members plan.givesParams ms
    ComponentClass.leave
    return .mk name (ComponentClass.renameDecorators plan.renamings decorators)
      (superClass.orElse fun _ => plan.newSuper) ms

/-- Members of a class, of which the first constructor may get parameters. -/
def members (givesParams : Bool) : List Member → Lower (List Member)
  | [] => return []
  | .method decorators isStatic kind k f :: ms => do
    let isFirst := kind == .constructor
    let decorators ← exprs decorators
    let k ← key k
    let f ← func (methodScope isStatic kind) true (givesParams && isFirst) f
    return .method decorators isStatic kind k f :: (← members (givesParams && !isFirst) ms)
  | .field decorators isStatic k optional t value :: ms => do
    let m := Member.field (← exprs decorators) isStatic (← key k) optional t (← optExpr value)
    return m :: (← members givesParams ms)
  | .staticBlock ss :: ms => return .staticBlock (← stmts ss) :: (← members givesParams ms)

/-- An element. What its attributes bind is visible in the attributes and children. -/
def element : Element → Lower Element
  | .mk span openSpan name as cs closed => do
    let e ← Lower.inside .binder (ElementRule.boundNames name as) do
      return .mk span openSpan name (← attrs as) (← children cs) closed
    ElementRule.lower e

/-- Attributes. -/
def attrs : List Attr → Lower (List Attr)
  | [] => return []
  | .named span name value :: as =>
    return .named span name (← attrValue value) :: (← attrs as)
  | .spread span e :: as => return .spread span (← expr e) :: (← attrs as)

/-- The value of an attribute. -/
def attrValue : AttrValue → Lower AttrValue
  | .absent => return .absent
  | .string v => return .string v
  | .container span e => return .container span (← optExpr e)
  | .element e => do ControlFlow.lowerValue (← element e)
  | .fragment span cs => return .fragment span (← ControlFlow.lowerChildren (← children cs))

/-- Children, before the rules of the element or fragment around them. -/
def children : List Child → Lower (List Child)
  | [] => return []
  | c :: cs => return (← child c) :: (← children cs)

/-- A child. -/
def child : Child → Lower Child
  | .text v => return .text v
  | .element e => return .element (← element e)
  | .fragment span cs => return .fragment span (← ControlFlow.lowerChildren (← children cs))
  | .container e => return .container (← optExpr e)
  | .spread e => return .spread (← expr e)

end

end Walk

end JsxDialect
