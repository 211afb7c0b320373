import JsxDialect.Check.Class
import JsxDialect.Syntax.Inner
import JsxDialect.Text.Identifier

/-!
# Valid modules

`Module.isValid` tells whether a module that could be read also keeps the rules that are not about
the order of tokens: names are declared once and are no reserved words, jumps have a target, `super`
stands in methods, private names are declared, and so on. The rules are those of strict code.
-/

namespace JsxDialect.Check

/-- What is around a place: the targets of jumps, labels with whether they are on loops, and what
may be used there. -/
structure Around where
  inLoop : Bool := false
  inSwitch : Bool := false
  labels : List (String × Bool) := []
  superCall : Bool := false
  superMember : Bool := false
  newTarget : Bool := false
  argumentList : Bool := true
  privates : List String := []

namespace Around

/-- In a loop. -/
def loop (a : Around) : Around :=
  { a with inLoop := true }

/-- In the body of an arrow function, out of which no jump leads. -/
def arrow (a : Around) : Around :=
  { a with inLoop := false, inSwitch := false, labels := [] }

/-- In a function. -/
def function (a : Around) : Around :=
  { newTarget := true, privates := a.privates }

/-- In a method. -/
def method (a : Around) (superCall : Bool) : Around :=
  { a.function with superCall, superMember := true }

/-- In the initializer of a field or in a static block. -/
def field (a : Around) : Around :=
  { a.method false with argumentList := false }

/-- Under a label. -/
def labeled (a : Around) (label : String) (onLoop : Bool) : Around :=
  { a with labels := (label, onLoop) :: a.labels }

end Around

/-- Whether a name can be used as an identifier. -/
def isUsable (name : String) : Bool :=
  name != "await" && !Text.strictReservedWords.contains name

/-- Whether a name can be declared or assigned to. -/
def isAssignable (name : String) : Bool :=
  isUsable name && name != "eval" && name != "arguments"

/-- Whether a name that may be missing can be declared. -/
def optAssignable (name : Option String) : Bool :=
  name.all isAssignable

/-- Whether an expression is `super`, which stands for no value by itself. -/
def isSuper : Expr → Bool
  | .super _ => true
  | _ => false

/-- Whether an operand can stand beside `??` without parentheses. -/
def besideCoalesce : Expr → Bool
  | .logical _ op _ _ => op == .coalesce
  | _ => true

/-- Whether an operand can stand on the left of `**`. -/
def beforePower : Expr → Bool
  | .unary .. => false
  | _ => true

/-- Whether an operand can be deleted. -/
def isDeletable (e : Expr) : Bool :=
  match e.inner with
  | .ident .. | .privateMember .. => false
  | _ => true

/-- Whether an operand can be assigned to, as far as its name goes. -/
def isTarget : Expr → Bool
  | .ident _ n => isAssignable n
  | _ => true

/-- Whether a member sets the prototype of an object. -/
def setsPrototype : Property → Bool
  | .field key _ shorthand => !shorthand && keyName? key == some "__proto__"
  | _ => false

/-- Whether an object literal sets its prototype once at most. -/
def onePrototype (ps : List Property) : Bool :=
  (ps.filter setsPrototype).length ≤ 1

/-- Whether a parameter list is one of names alone. -/
def isSimple (params : List Param) (rest : Option Pattern) : Bool :=
  rest.isNone && params.all fun
    | .mk _ (.bind _) => true
    | .mk _ (.typed (.bind _) ..) => true
    | _ => false

/-- Whether the body of a callable fits its parameters. -/
def bodyFits (params : List Param) (rest : Option Pattern) : Body → Bool
  | .block directives stmts =>
    (isSimple params rest || !directives.contains "use strict")
      && bodyDistinct (params.flatMap (·.pattern.allNames) ++ restAllNames rest) stmts
  | _ => distinct (params.flatMap (·.pattern.allNames) ++ restAllNames rest)

/-- Whether a statement is a loop, through labels. -/
def isLoop : Stmt → Bool
  | .for .. | .forIn .. | .forOf .. | .while .. | .doWhile .. => true
  | .labeled _ s => isLoop s
  | _ => false

/-- Whether a statement can be the body of another one: functions stand in lists only. -/
def isBody : Stmt → Bool
  | .function _ => false
  | _ => true

/-- Whether a `switch` has one default at most. -/
def oneDefault (cases : List SwitchCase) : Bool :=
  (cases.filter fun | .mk test _ => test.isNone).length ≤ 1

mutual

/-- An expression. -/
def expr (a : Around) : Expr → Bool
  | .ident _ n => isUsable n && (a.argumentList || n != "arguments")
  | .super _ => false
  | .metaProperty _ object _ => a.newTarget || object != "new"
  | .template _ _ es => exprs a es
  | .tagged _ t _ es => expr a t && exprs a es
  | .spread e => expr a e
  | .array _ es => exprs a es
  | .object _ ps => onePrototype ps && properties a ps
  | .function _ f => func a.function f
  | .arrow _ f => func a.arrow f
  | .classExpr _ c => cls a c
  | .unary _ op e => (op != .delete || isDeletable e) && expr a e
  | .update _ _ _ e => isTarget e && expr a e
  | .binary _ op l r => (op != .power || beforePower l) && expr a l && expr a r
  | .privateIn _ n r => a.privates.contains n && expr a r
  | .logical _ op l r =>
    (op != .coalesce || (besideCoalesce l && besideCoalesce r)) && expr a l && expr a r
  | .assign _ _ l r => pattern a l && expr a r
  | .conditional _ t c e => expr a t && expr a c && expr a e
  | .call _ c as _ => ((a.superCall && isSuper c) || expr a c) && exprs a as
  | .new _ c as => expr a c && exprs a as
  | .member _ o _ _ => (a.superMember && isSuper o) || expr a o
  | .privateMember _ o n _ => expr a o && a.privates.contains n
  | .index _ o k _ => ((a.superMember && isSuper o) || expr a o) && expr a k
  | .chain _ e => expr a e
  | .sequence _ es => exprs a es
  | .paren _ e => expr a e
  | .yield _ _ e => optExpr a e
  | .await _ e => expr a e
  | .importCall _ as => exprs a as
  | .typed _ _ e _ => expr a e
  | .nonNull _ e => expr a e
  | .element e => element a e
  | .fragment _ cs => children a cs
  | .alias .. | .number .. | .string .. | .bigint .. | .regex .. | .bool .. | .null _ | .this _
  | .hole => true

/-- Expressions. -/
def exprs (a : Around) : List Expr → Bool
  | [] => true
  | e :: es => expr a e && exprs a es

/-- An expression that may be missing. -/
def optExpr (a : Around) : Option Expr → Bool
  | none => true
  | some e => expr a e

/-- The key of a member. -/
def key (a : Around) : Key → Bool
  | .computed e => expr a e
  | _ => true

/-- Members of an object literal. -/
def properties (a : Around) : List Property → Bool
  | [] => true
  | .field k v _ :: ps => key a k && expr a v && properties a ps
  | .method kind k f :: ps =>
    key a k && accessorValid kind f && func (a.method false) f && properties a ps
  | .spread e :: ps => expr a e && properties a ps

/-- A callable, with what is around its body. -/
def func (a : Around) : Func → Bool
  | .mk name _ _ _ _ ps rest _ b =>
    optAssignable name && bodyFits ps rest b && params a ps && optPattern a rest && body a b

/-- The body of a callable. -/
def body (a : Around) : Body → Bool
  | .absent => true
  | .expr e => expr a e
  | .block _ ss => stmts a ss

/-- Parameters. -/
def params (a : Around) : List Param → Bool
  | [] => true
  | .mk ds p :: ps => exprs a ds && pattern a p && params a ps

/-- A pattern. -/
def pattern (a : Around) : Pattern → Bool
  | .bind n => isAssignable n
  | .target e => isTarget e && expr a e
  | .hole => true
  | .object ps rest => patternProperties a ps && optPattern a rest
  | .array ps rest => patterns a ps && optPattern a rest
  | .withDefault p e => pattern a p && expr a e
  | .typed p _ _ => pattern a p

/-- Patterns. -/
def patterns (a : Around) : List Pattern → Bool
  | [] => true
  | p :: ps => pattern a p && patterns a ps

/-- A pattern that may be missing. -/
def optPattern (a : Around) : Option Pattern → Bool
  | none => true
  | some p => pattern a p

/-- Members of an object pattern. -/
def patternProperties (a : Around) : List PatternProperty → Bool
  | [] => true
  | .mk k p _ :: ps => key a k && pattern a p && patternProperties a ps

/-- A statement. -/
def stmt (a : Around) : Stmt → Bool
  | .expr e => expr a e
  | .varDecl _ ds => declarators a ds
  | .function f => func a.function f
  | .classDecl c => cls a c
  | .return e => optExpr a e
  | .throw e => expr a e
  | .if t c e => expr a t && isBody c && stmt a c && optStmt a e
  | .for init t u b =>
    headDistinct init b && forHead a init && optExpr a t && optExpr a u && isBody b && stmt a.loop b
  | .forIn left r b =>
    headDistinct left b && forHead a left && expr a r && isBody b && stmt a.loop b
  | .forOf _ left r b =>
    headDistinct left b && forHead a left && expr a r && isBody b && stmt a.loop b
  | .while t b => expr a t && isBody b && stmt a.loop b
  | .doWhile b t => isBody b && stmt a.loop b && expr a t
  | .block ss => blockDistinct [] ss && stmts a ss
  | .switch d cases =>
    oneDefault cases && casesDistinct cases && expr a d
      && switchCases { a with inSwitch := true } cases
  | .try b handler finalizer =>
    blockDistinct [] b && stmts a b && optCatch a handler && optBlock a finalizer
  | .break none => a.inLoop || a.inSwitch
  | .break (some l) => (a.labels.lookup l).isSome
  | .continue none => a.inLoop
  | .continue (some l) => a.labels.lookup l == some true
  | .labeled l b =>
    isUsable l && (a.labels.lookup l).isNone && isBody b && stmt (a.labeled l (isLoop b)) b
  | .import (some items) _ => items.all (isAssignable ·.localName)
  | .exportDecl d => stmt a d
  | .exportDefaultFunction f => func a.function f
  | .exportDefaultClass c => cls a c
  | .exportDefault e => expr a e
  | .empty | .debugger | .import none _ | .exportNamed .. | .exportAll .. => true

/-- Statements. -/
def stmts (a : Around) : List Stmt → Bool
  | [] => true
  | s :: ss => stmt a s && stmts a ss

/-- A statement that may be missing. -/
def optStmt (a : Around) : Option Stmt → Bool
  | none => true
  | some s => isBody s && stmt a s

/-- A block that may be missing. -/
def optBlock (a : Around) : Option (List Stmt) → Bool
  | none => true
  | some ss => blockDistinct [] ss && stmts a ss

/-- A handler. -/
def optCatch (a : Around) : Option Catch → Bool
  | none => true
  | some (.mk param ss) =>
    handlerDistinct param ss && optPattern a param && blockDistinct [] ss && stmts a ss

/-- The variables of a declaration. -/
def declarators (a : Around) : List Declarator → Bool
  | [] => true
  | .mk p e :: ds => pattern a p && optExpr a e && declarators a ds

/-- The start of the head of a loop. -/
def forHead (a : Around) : ForHead → Bool
  | .absent => true
  | .decl _ ds => declarators a ds
  | .expr e => expr a e
  | .target p => pattern a p

/-- The cases of a `switch`. -/
def switchCases (a : Around) : List SwitchCase → Bool
  | [] => true
  | .mk t ss :: cases => optExpr a t && stmts a ss && switchCases a cases

/-- A class. -/
def cls (a : Around) : Class → Bool
  | .mk name ds superClass ms =>
    let within := { a with privates := privateNames ms ++ a.privates }
    optAssignable name && membersValid ms && exprs a ds && optExpr a superClass
      && members within superClass.isSome ms

/-- Members of a class. -/
def members (a : Around) (isDerived : Bool) : List Member → Bool
  | [] => true
  | .method ds _ kind k f :: ms =>
    exprs a ds && key a k && accessorValid kind f
      && func (a.method (isDerived && kind == .constructor)) f && members a isDerived ms
  | .field ds _ k _ _ value :: ms =>
    exprs a ds && key a k && optExpr a.field value && members a isDerived ms
  | .staticBlock ss :: ms => blockDistinct [] ss && stmts a.field ss && members a isDerived ms

/-- An element. -/
def element (a : Around) : Element → Bool
  | .mk _ _ _ as cs _ => attrs a as && children a cs

/-- Attributes. -/
def attrs (a : Around) : List Attr → Bool
  | [] => true
  | .named _ _ value :: as => attrValue a value && attrs a as
  | .spread _ e :: as => expr a e && attrs a as

/-- The value of an attribute, which is not an empty container. -/
def attrValue (a : Around) : AttrValue → Bool
  | .absent => true
  | .string _ => true
  | .container _ none => false
  | .container _ (some e) => expr a e
  | .element e => element a e
  | .fragment _ cs => children a cs

/-- Children. -/
def children (a : Around) : List Child → Bool
  | [] => true
  | .text _ :: cs => children a cs
  | .element e :: cs => element a e && children a cs
  | .fragment _ inner :: cs => children a inner && children a cs
  | .container e :: cs => optExpr a e && children a cs
  | .spread e :: cs => expr a e && children a cs

end

end JsxDialect.Check

namespace JsxDialect

/-- Whether a module keeps the rules that are not about the order of tokens. -/
def Module.isValid (m : Module) : Bool :=
  Check.topDistinct m.stmts && Check.exportsValid m.stmts && Check.stmts {} m.stmts

end JsxDialect
