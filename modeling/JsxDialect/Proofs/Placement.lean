import JsxDialect.Proofs.MarkupText
import Mathlib.Logic.Basic

/-!
# Places do not matter for the text

A tree carries the places that its parts were read from. Two trees that differ in nothing else are
the same program, and `unplaced` is what they have in common: printing does not look at places
(`Module.text_unplaced`), and neither does the listing of texts in markup.

So a module in normal form that is read back from its text as the same program is printed again as
that text. With one pass enough (`MarkupText`), bringing a text to normal form twice is the same as
once.
-/

namespace JsxDialect

/-! ## Trees without places -/

namespace Unplaced

mutual

/-- An expression. -/
def expr : Expr → Expr
  | .template _ qs es => .template .none qs (exprs es)
  | .tagged _ t qs es => .tagged .none (expr t) qs (exprs es)
  | .spread e => .spread (expr e)
  | .array _ es => .array .none (exprs es)
  | .object _ ps => .object .none (properties ps)
  | .function _ f => .function .none (func f)
  | .arrow _ f => .arrow .none (func f)
  | .classExpr _ c => .classExpr .none (cls c)
  | .unary _ op e => .unary .none op (expr e)
  | .update _ op before e => .update .none op before (expr e)
  | .binary _ op l r => .binary .none op (expr l) (expr r)
  | .privateIn _ n r => .privateIn .none n (expr r)
  | .logical _ op l r => .logical .none op (expr l) (expr r)
  | .assign _ op l r => .assign .none op (pattern l) (expr r)
  | .conditional _ t c e => .conditional .none (expr t) (expr c) (expr e)
  | .call _ c as optional => .call .none (expr c) (exprs as) optional
  | .new _ c as => .new .none (expr c) (exprs as)
  | .member _ o n optional => .member .none (expr o) n optional
  | .privateMember _ o n optional => .privateMember .none (expr o) n optional
  | .index _ o k optional => .index .none (expr o) (expr k) optional
  | .chain _ e => .chain .none (expr e)
  | .sequence _ es => .sequence .none (exprs es)
  | .paren _ e => .paren .none (expr e)
  | .yield _ delegate e => .yield .none delegate (optExpr e)
  | .await _ e => .await .none (expr e)
  | .importCall _ as => .importCall .none (exprs as)
  | .typed _ test e t => .typed .none test (expr e) t
  | .nonNull _ e => .nonNull .none (expr e)
  | .element e => .element (element e)
  | .fragment _ cs => .fragment .none (children cs)
  | .ident _ n => .ident .none n
  | .alias _ n shown => .alias .none n shown
  | .number _ v => .number .none v
  | .string _ v => .string .none v
  | .bigint _ v => .bigint .none v
  | .regex _ v => .regex .none v
  | .bool _ v => .bool .none v
  | .null _ => .null .none
  | .this _ => .this .none
  | .super _ => .super .none
  | .metaProperty _ o p => .metaProperty .none o p
  | .hole => .hole

/-- Expressions. -/
def exprs : List Expr → List Expr
  | [] => []
  | e :: es => expr e :: exprs es

/-- An expression that may be missing. -/
def optExpr : Option Expr → Option Expr
  | none => none
  | some e => some (expr e)

/-- The key of a member. -/
def key : Key → Key
  | .computed e => .computed (expr e)
  | .ident n => .ident n
  | .string v => .string v
  | .number v => .number v
  | .bigint v => .bigint v
  | .privateName n => .privateName n

/-- Members of an object literal. -/
def properties : List Property → List Property
  | [] => []
  | .field k v shorthand :: ps => .field (key k) (expr v) shorthand :: properties ps
  | .method kind k f :: ps => .method kind (key k) (func f) :: properties ps
  | .spread e :: ps => .spread (expr e) :: properties ps

/-- A callable. -/
def func : Func → Func
  | .mk name isAsync isGenerator thisParam _ ps rest returnType b =>
    .mk name isAsync isGenerator thisParam .none (params ps) (optPattern rest) returnType (body b)

/-- The body of a callable. -/
def body : Body → Body
  | .absent => .absent
  | .expr e => .expr (expr e)
  | .block directives ss => .block directives (stmts ss)

/-- Parameters. -/
def params : List Param → List Param
  | [] => []
  | .mk ds p :: ps => .mk (exprs ds) (pattern p) :: params ps

/-- A pattern. -/
def pattern : Pattern → Pattern
  | .bind n => .bind n
  | .target e => .target (expr e)
  | .hole => .hole
  | .object ps rest => .object (patternProperties ps) (optPattern rest)
  | .array ps rest => .array (patterns ps) (optPattern rest)
  | .withDefault p e => .withDefault (pattern p) (expr e)
  | .typed p optional t => .typed (pattern p) optional t

/-- Patterns. -/
def patterns : List Pattern → List Pattern
  | [] => []
  | p :: ps => pattern p :: patterns ps

/-- A pattern that may be missing. -/
def optPattern : Option Pattern → Option Pattern
  | none => none
  | some p => some (pattern p)

/-- Members of an object pattern. -/
def patternProperties : List PatternProperty → List PatternProperty
  | [] => []
  | .mk k p shorthand :: ps => .mk (key k) (pattern p) shorthand :: patternProperties ps

/-- A statement. -/
def stmt : Stmt → Stmt
  | .expr e => .expr (expr e)
  | .varDecl kind ds => .varDecl kind (declarators ds)
  | .function f => .function (func f)
  | .classDecl c => .classDecl (cls c)
  | .return e => .return (optExpr e)
  | .throw e => .throw (expr e)
  | .if t c e => .if (expr t) (stmt c) (optStmt e)
  | .for init t u b => .for (forHead init) (optExpr t) (optExpr u) (stmt b)
  | .forIn left r b => .forIn (forHead left) (expr r) (stmt b)
  | .forOf isAwait left r b => .forOf isAwait (forHead left) (expr r) (stmt b)
  | .while t b => .while (expr t) (stmt b)
  | .doWhile b t => .doWhile (stmt b) (expr t)
  | .block ss => .block (stmts ss)
  | .switch d cases => .switch (expr d) (switchCases cases)
  | .try b handler finalizer => .try (stmts b) (optCatch handler) (optStmts finalizer)
  | .break label => .break label
  | .continue label => .continue label
  | .labeled label b => .labeled label (stmt b)
  | .empty => .empty
  | .debugger => .debugger
  | .import items source => .import items source
  | .exportNamed items source => .exportNamed items source
  | .exportAll name source => .exportAll name source
  | .exportDecl d => .exportDecl (stmt d)
  | .exportDefaultFunction f => .exportDefaultFunction (func f)
  | .exportDefaultClass c => .exportDefaultClass (cls c)
  | .exportDefault e => .exportDefault (expr e)

/-- Statements. -/
def stmts : List Stmt → List Stmt
  | [] => []
  | s :: ss => stmt s :: stmts ss

/-- A statement that may be missing. -/
def optStmt : Option Stmt → Option Stmt
  | none => none
  | some s => some (stmt s)

/-- Statements that may be missing. -/
def optStmts : Option (List Stmt) → Option (List Stmt)
  | none => none
  | some ss => some (stmts ss)

/-- A handler. -/
def optCatch : Option Catch → Option Catch
  | none => none
  | some (.mk param ss) => some (.mk (optPattern param) (stmts ss))

/-- The variables of a declaration. -/
def declarators : List Declarator → List Declarator
  | [] => []
  | .mk p e :: ds => .mk (pattern p) (optExpr e) :: declarators ds

/-- The start of the head of a loop. -/
def forHead : ForHead → ForHead
  | .absent => .absent
  | .decl kind ds => .decl kind (declarators ds)
  | .expr e => .expr (expr e)
  | .target p => .target (pattern p)

/-- The cases of a `switch`. -/
def switchCases : List SwitchCase → List SwitchCase
  | [] => []
  | .mk t ss :: cases => .mk (optExpr t) (stmts ss) :: switchCases cases

/-- A class. -/
def cls : Class → Class
  | .mk name ds superClass ms => .mk name (exprs ds) (optExpr superClass) (members ms)

/-- Members of a class. -/
def members : List Member → List Member
  | [] => []
  | .method ds isStatic kind k f :: ms =>
    .method (exprs ds) isStatic kind (key k) (func f) :: members ms
  | .field ds isStatic k optional t value :: ms =>
    .field (exprs ds) isStatic (key k) optional t (optExpr value) :: members ms
  | .staticBlock ss :: ms => .staticBlock (stmts ss) :: members ms

/-- An element. -/
def element : Element → Element
  | .mk _ _ name as cs closed => .mk .none .none name (attrs as) (children cs) closed

/-- Attributes. -/
def attrs : List Attr → List Attr
  | [] => []
  | .named _ name value :: as => .named .none name (attrValue value) :: attrs as
  | .spread _ e :: as => .spread .none (expr e) :: attrs as

/-- The value of an attribute. -/
def attrValue : AttrValue → AttrValue
  | .absent => .absent
  | .string v => .string v
  | .container _ e => .container .none (optExpr e)
  | .element e => .element (element e)
  | .fragment _ cs => .fragment .none (children cs)

/-- Children. -/
def children : List Child → List Child
  | [] => []
  | .text value :: cs => .text value :: children cs
  | .element e :: cs => .element (element e) :: children cs
  | .fragment _ inner :: cs => .fragment .none (children inner) :: children cs
  | .container e :: cs => .container (optExpr e) :: children cs
  | .spread e :: cs => .spread (expr e) :: children cs

end

/-- Several expressions lose their places one by one. -/
theorem exprs_eq_map (es : List Expr) : exprs es = es.map expr := by
  induction es with
  | nil => rfl
  | cons e es ih => exact congrArg (expr e :: ·) ih

/-- So do several patterns. -/
theorem patterns_eq_map (ps : List Pattern) : patterns ps = ps.map pattern := by
  induction ps with
  | nil => rfl
  | cons p ps ih => exact congrArg (pattern p :: ·) ih

/-- As many expressions are left as there were. -/
theorem length_exprs (es : List Expr) : (exprs es).length = es.length := by
  rw [exprs_eq_map, List.length_map]

/-- As many members are left as there were. -/
theorem length_properties (ps : List Property) : (properties ps).length = ps.length := by
  induction ps with
  | nil => rfl
  | cons p ps ih => cases p <;> exact congrArg (· + 1) ih

/-- An object pattern stays empty, or not. -/
theorem isEmpty_patternProperties (ps : List PatternProperty) :
    (patternProperties ps).isEmpty = ps.isEmpty := by
  cases ps with
  | nil => rfl
  | cons p _ =>
    cases p
    rfl

/-- A pattern that is there stays there. -/
theorem isSome_optPattern (p : Option Pattern) : (optPattern p).isSome = p.isSome := by
  cases p <;> rfl

/-- One that is missing stays so. -/
theorem isNone_optPattern (p : Option Pattern) : (optPattern p).isNone = p.isNone := by
  cases p <;> rfl

end Unplaced

/-- The module without places. -/
def Module.unplaced (m : Module) : Module :=
  { m with stmts := Unplaced.stmts m.stmts }

/-! ## Texts in markup -/

namespace MarkupText

open Listing (texts)

mutual

/-- **The texts in markup do not depend on places**: those of an expression are the same without
them. -/
theorem ofExpr_unplaced (e : Expr) : texts.ofExpr (Unplaced.expr e) = texts.ofExpr e := by
  cases e with
  | ident _ _ | «alias» _ _ _ | number _ _ | string _ _ | bigint _ _ | regex _ _ | bool _ _ | null _
  | this _ | super _ | metaProperty _ _ _ | hole => rfl
  | template _ _ es | array _ es | sequence _ es | importCall _ es => exact ofExprs_unplaced es
  | spread e | unary _ _ e | update _ _ _ e | privateIn _ _ e | member _ e _ _
  | privateMember _ e _ _ | chain _ e | paren _ e | await _ e | typed _ _ e _ | nonNull _ e =>
    exact ofExpr_unplaced e
  | tagged _ e _ es | call _ e es _ | new _ e es =>
    exact congrArg₂ (· ++ ·) (ofExpr_unplaced e) (ofExprs_unplaced es)
  | object _ ps => exact ofProperties_unplaced ps
  | function _ f | arrow _ f => exact ofFunc_unplaced _ f
  | classExpr _ c => exact ofClass_unplaced c
  | binary _ _ l r | logical _ _ l r | index _ l r _ =>
    exact congrArg₂ (· ++ ·) (ofExpr_unplaced l) (ofExpr_unplaced r)
  | assign _ _ l r => exact congrArg₂ (· ++ ·) (ofPattern_unplaced l) (ofExpr_unplaced r)
  | conditional _ t c e =>
    change _ ++ _ = _ ++ _
    rw [ofExpr_unplaced t, ofExpr_unplaced c, ofExpr_unplaced e]
  | yield _ _ e => exact ofOption_unplaced e
  | element e => exact ofElement_unplaced e
  | fragment _ cs => exact ofChildren_unplaced cs

/-- The texts in several expressions. -/
theorem ofExprs_unplaced (es : List Expr) :
    texts.ofExprs (Unplaced.exprs es) = texts.ofExprs es := by
  cases es with
  | nil => rfl
  | cons e es => exact congrArg₂ (· ++ ·) (ofExpr_unplaced e) (ofExprs_unplaced es)

/-- The texts in an expression that may be missing. -/
theorem ofOption_unplaced (e : Option Expr) :
    texts.ofOption (Unplaced.optExpr e) = texts.ofOption e := by
  cases e with
  | none => rfl
  | some e => exact ofExpr_unplaced e

/-- The texts in the key of a member. -/
theorem ofKey_unplaced (k : Key) : texts.ofKey (Unplaced.key k) = texts.ofKey k := by
  cases k with
  | ident _ | string _ | number _ | bigint _ | privateName _ => rfl
  | computed e => exact ofExpr_unplaced e

/-- The texts in the members of an object literal. -/
theorem ofProperties_unplaced (ps : List Property) :
    texts.ofProperties (Unplaced.properties ps) = texts.ofProperties ps := by
  match ps with
  | [] => rfl
  | .field k v _ :: ps =>
    exact congrArg₂ (· ++ ·) (congrArg₂ (· ++ ·) (ofKey_unplaced k) (ofExpr_unplaced v))
      (ofProperties_unplaced ps)
  | .method _ k f :: ps =>
    exact congrArg₂ (· ++ ·) (congrArg₂ (· ++ ·) (ofKey_unplaced k) (ofFunc_unplaced _ f))
      (ofProperties_unplaced ps)
  | .spread e :: ps => exact congrArg₂ (· ++ ·) (ofExpr_unplaced e) (ofProperties_unplaced ps)

/-- The texts in a function, whatever its role: nothing is listed of the function itself. -/
theorem ofFunc_unplaced (role : FunctionRole) (f : Func) :
    texts.ofFunc role (Unplaced.func f) = texts.ofFunc role f := by
  cases f with
  | mk _ _ _ _ _ ps rest _ b =>
    change (_ ++ (_ ++ texts.ofBody false _)) ++ [] = (_ ++ (_ ++ texts.ofBody false _)) ++ []
    rw [ofParams_unplaced ps, ofRest_unplaced rest, ofBody_unplaced b]

/-- The texts in the body of a function. -/
theorem ofBody_unplaced (b : Body) :
    texts.ofBody false (Unplaced.body b) = texts.ofBody false b := by
  cases b with
  | absent => rfl
  | expr e => exact ofExpr_unplaced e
  | block _ ss => exact ofStmts_unplaced ss

/-- The texts in parameters, with their decorators. -/
theorem ofParams_unplaced (ps : List Param) :
    texts.ofParams (Unplaced.params ps) = texts.ofParams ps := by
  match ps with
  | [] => rfl
  | .mk ds p :: ps =>
    change _ ++ _ = _ ++ _
    rw [ofExprs_unplaced ds, ofPattern_unplaced p, ofParams_unplaced ps]

/-- The texts in a pattern. -/
theorem ofPattern_unplaced (p : Pattern) :
    texts.ofPattern (Unplaced.pattern p) = texts.ofPattern p := by
  cases p with
  | bind _ | hole => rfl
  | target e => exact ofExpr_unplaced e
  | object ps rest =>
    exact congrArg₂ (· ++ ·) (ofPatternProperties_unplaced ps) (ofRest_unplaced rest)
  | array ps rest => exact congrArg₂ (· ++ ·) (ofPatterns_unplaced ps) (ofRest_unplaced rest)
  | withDefault p e => exact congrArg₂ (· ++ ·) (ofPattern_unplaced p) (ofExpr_unplaced e)
  | typed p _ _ => exact ofPattern_unplaced p

/-- The texts in several patterns. -/
theorem ofPatterns_unplaced (ps : List Pattern) :
    texts.ofPatterns (Unplaced.patterns ps) = texts.ofPatterns ps := by
  cases ps with
  | nil => rfl
  | cons p ps => exact congrArg₂ (· ++ ·) (ofPattern_unplaced p) (ofPatterns_unplaced ps)

/-- The texts in a pattern that may be missing. -/
theorem ofRest_unplaced (p : Option Pattern) :
    texts.ofRest (Unplaced.optPattern p) = texts.ofRest p := by
  cases p with
  | none => rfl
  | some p => exact ofPattern_unplaced p

/-- The texts in the members of an object pattern. -/
theorem ofPatternProperties_unplaced (ps : List PatternProperty) :
    texts.ofPatternProperties (Unplaced.patternProperties ps) = texts.ofPatternProperties ps := by
  match ps with
  | [] => rfl
  | .mk k p _ :: ps =>
    change _ ++ _ = _ ++ _
    rw [ofKey_unplaced k, ofPattern_unplaced p, ofPatternProperties_unplaced ps]

/-- The texts in a statement. -/
theorem ofStmt_unplaced (s : Stmt) : texts.ofStmt (Unplaced.stmt s) = texts.ofStmt s := by
  cases s with
  | «break» _ | «continue» _ | empty | debugger | «import» _ _ | exportNamed _ _ | exportAll _ _ =>
    rfl
  | expr e | throw e | exportDefault e => exact ofExpr_unplaced e
  | varDecl _ ds => exact ofDeclarators_unplaced ds
  | function f | exportDefaultFunction f => exact ofFunc_unplaced _ f
  | classDecl c | exportDefaultClass c => exact ofClass_unplaced c
  | «return» e => exact ofOption_unplaced e
  | «if» t c e =>
    change _ ++ _ = _ ++ _
    rw [ofExpr_unplaced t, ofStmt_unplaced c, ofAlternate_unplaced e]
  | «for» init t u b =>
    change _ ++ _ = _ ++ _
    rw [ofHead_unplaced init, ofOption_unplaced t, ofOption_unplaced u, ofStmt_unplaced b]
  | forIn left r b | forOf _ left r b =>
    change _ ++ _ = _ ++ _
    rw [ofHead_unplaced left, ofExpr_unplaced r, ofStmt_unplaced b]
  | «while» t b => exact congrArg₂ (· ++ ·) (ofExpr_unplaced t) (ofStmt_unplaced b)
  | doWhile b t => exact congrArg₂ (· ++ ·) (ofStmt_unplaced b) (ofExpr_unplaced t)
  | block ss => exact ofStmts_unplaced ss
  | switch d cases => exact congrArg₂ (· ++ ·) (ofExpr_unplaced d) (ofCases_unplaced cases)
  | «try» b handler finalizer =>
    change _ ++ _ = _ ++ _
    rw [ofStmts_unplaced b, ofHandler_unplaced handler, ofFinalizer_unplaced finalizer]
  | labeled _ b | exportDecl b => exact ofStmt_unplaced b

/-- The texts in several statements. -/
theorem ofStmts_unplaced (ss : List Stmt) :
    texts.ofStmts (Unplaced.stmts ss) = texts.ofStmts ss := by
  cases ss with
  | nil => rfl
  | cons s ss => exact congrArg₂ (· ++ ·) (ofStmt_unplaced s) (ofStmts_unplaced ss)

/-- The texts in an `else` part. -/
theorem ofAlternate_unplaced (s : Option Stmt) :
    texts.ofAlternate (Unplaced.optStmt s) = texts.ofAlternate s := by
  cases s with
  | none => rfl
  | some s => exact ofStmt_unplaced s

/-- The texts in a finalizer. -/
theorem ofFinalizer_unplaced (ss : Option (List Stmt)) :
    texts.ofFinalizer (Unplaced.optStmts ss) = texts.ofFinalizer ss := by
  cases ss with
  | none => rfl
  | some ss => exact ofStmts_unplaced ss

/-- The texts in a handler. -/
theorem ofHandler_unplaced (h : Option Catch) :
    texts.ofHandler (Unplaced.optCatch h) = texts.ofHandler h := by
  match h with
  | none => rfl
  | some (.mk param ss) => exact congrArg₂ (· ++ ·) (ofRest_unplaced param) (ofStmts_unplaced ss)

/-- The texts in declared variables. -/
theorem ofDeclarators_unplaced (ds : List Declarator) :
    texts.ofDeclarators (Unplaced.declarators ds) = texts.ofDeclarators ds := by
  match ds with
  | [] => rfl
  | .mk p e :: ds =>
    change _ ++ _ = _ ++ _
    rw [ofPattern_unplaced p, ofOption_unplaced e, ofDeclarators_unplaced ds]

/-- The texts in the head of a loop. -/
theorem ofHead_unplaced (h : ForHead) : texts.ofHead (Unplaced.forHead h) = texts.ofHead h := by
  cases h with
  | absent => rfl
  | decl _ ds => exact ofDeclarators_unplaced ds
  | expr e => exact ofExpr_unplaced e
  | target p => exact ofPattern_unplaced p

/-- The texts in the cases of a `switch`. -/
theorem ofCases_unplaced (cases : List SwitchCase) :
    texts.ofCases (Unplaced.switchCases cases) = texts.ofCases cases := by
  match cases with
  | [] => rfl
  | .mk t ss :: cases =>
    change _ ++ _ = _ ++ _
    rw [ofOption_unplaced t, ofStmts_unplaced ss, ofCases_unplaced cases]

/-- The texts in a class. -/
theorem ofClass_unplaced (c : Class) : texts.ofClass (Unplaced.cls c) = texts.ofClass c := by
  cases c with
  | mk _ ds superClass ms =>
    change [] ++ _ = [] ++ _
    rw [ofExprs_unplaced ds, ofOption_unplaced superClass, ofMembers_unplaced ms]

/-- The texts in the members of a class. -/
theorem ofMembers_unplaced (ms : List Member) :
    texts.ofMembers (Unplaced.members ms) = texts.ofMembers ms := by
  match ms with
  | [] => rfl
  | .method ds _ _ k f :: ms =>
    change _ ++ _ = _ ++ _
    rw [ofExprs_unplaced ds, ofKey_unplaced k, ofFunc_unplaced _ f, ofMembers_unplaced ms]
  | .field ds _ k _ _ value :: ms =>
    change _ ++ _ = _ ++ _
    rw [ofExprs_unplaced ds, ofKey_unplaced k, ofOption_unplaced value, ofMembers_unplaced ms]
  | .staticBlock ss :: ms => exact congrArg₂ (· ++ ·) (ofStmts_unplaced ss) (ofMembers_unplaced ms)

/-- The texts in an element. -/
theorem ofElement_unplaced (e : Element) :
    texts.ofElement (Unplaced.element e) = texts.ofElement e := by
  cases e with
  | mk _ _ _ as cs _ => exact congrArg₂ (· ++ ·) (ofAttrs_unplaced as) (ofChildren_unplaced cs)

/-- The texts in attributes. -/
theorem ofAttrs_unplaced (as : List Attr) :
    texts.ofAttrs (Unplaced.attrs as) = texts.ofAttrs as := by
  match as with
  | [] => rfl
  | .named _ _ value :: as =>
    exact congrArg₂ (· ++ ·) (ofAttrValue_unplaced value) (ofAttrs_unplaced as)
  | .spread _ e :: as => exact congrArg₂ (· ++ ·) (ofExpr_unplaced e) (ofAttrs_unplaced as)

/-- The texts in the value of an attribute. -/
theorem ofAttrValue_unplaced (v : AttrValue) :
    texts.ofAttrValue (Unplaced.attrValue v) = texts.ofAttrValue v := by
  cases v with
  | absent | string _ => rfl
  | container _ e => exact ofOption_unplaced e
  | element e => exact ofElement_unplaced e
  | fragment _ cs => exact ofChildren_unplaced cs

/-- The texts among children and in them, where they are taken from. -/
theorem ofChildren_unplaced (cs : List Child) :
    texts.ofChildren (Unplaced.children cs) = texts.ofChildren cs := by
  match cs with
  | [] => rfl
  | .text value :: cs => exact congrArg (value :: ·) (ofChildren_unplaced cs)
  | .element e :: cs => exact congrArg₂ (· ++ ·) (ofElement_unplaced e) (ofChildren_unplaced cs)
  | .fragment _ inner :: cs =>
    exact congrArg₂ (· ++ ·) (ofChildren_unplaced inner) (ofChildren_unplaced cs)
  | .container e :: cs => exact congrArg₂ (· ++ ·) (ofOption_unplaced e) (ofChildren_unplaced cs)
  | .spread e :: cs => exact congrArg₂ (· ++ ·) (ofExpr_unplaced e) (ofChildren_unplaced cs)

end

end MarkupText

/-! ## What is written depends on the shape of a part, and not on its place -/

namespace Print

/-- Taking off parentheses and taking off places can be done in either order. -/
theorem bare_unplaced (e : Expr) : bare (Unplaced.expr e) = Unplaced.expr (bare e) := by
  cases e with
  | paren _ e => exact bare_unplaced e
  | _ => rfl

/-- Whether the text of a number would take in the point after it is a matter of the number. -/
theorem swallowsPoint_unplaced (e : Expr) : swallowsPoint (Unplaced.expr e) = swallowsPoint e := by
  unfold swallowsPoint
  rw [bare_unplaced]
  cases bare e <;> rfl

theorem isOrAnd_unplaced (e : Expr) : isOrAnd (Unplaced.expr e) = isOrAnd e := by
  unfold isOrAnd
  rw [bare_unplaced]
  cases bare e with
  | logical _ op _ _ => cases op <;> rfl
  | _ => rfl

theorem isUnaryOrNumber_unplaced (e : Expr) :
    isUnaryOrNumber (Unplaced.expr e) = isUnaryOrNumber e := by
  unfold isUnaryOrNumber
  rw [bare_unplaced]
  cases bare e <;> rfl

theorem isParen_unplaced (e : Expr) : isParen (Unplaced.expr e) = isParen e := by
  cases e <;> rfl

theorem isPlainDecorator_unplaced (e : Expr) :
    isPlainDecorator (Unplaced.expr e) = isPlainDecorator e := by
  cases e with
  | call _ callee _ _ => exact isPlainDecorator_unplaced callee
  | _ => rfl

/-- A member with another name than `__proto__` is written as a name alone if that is its value. -/
theorem isShorthand_iff {n : String} {value : Expr} {written : Bool} (hn : n ≠ "__proto__") :
    isShorthand (.ident n) value written = true ↔ ∃ s, bare value = .ident s n := by
  unfold isShorthand
  split
  · rename_i hkey
    exact absurd (Key.ident.inj hkey) hn
  · rename_i m s x _ hkey hvalue
    obtain rfl := Key.ident.inj hkey
    rw [hvalue]
    constructor
    · intro h
      exact ⟨s, congrArg (Expr.ident s) (eq_of_beq h).symm⟩
    · rintro ⟨_, h⟩
      cases h
      exact beq_self_eq_true _
  · rename_i hother
    exact iff_of_false Bool.false_ne_true fun ⟨s, hvalue⟩ => hother n s n rfl hvalue

/-- Only a name becomes a name. -/
theorem exists_ident_of_unplaced {e : Expr} {s : Span} {n : String}
    (h : Unplaced.expr e = .ident s n) : ∃ s', e = .ident s' n := by
  cases e with
  | ident s' m =>
    cases h
    exact ⟨s', rfl⟩
  | _ => cases h

/-- Whether a member of an object literal is written by its name alone does not depend on places. -/
theorem isShorthand_unplaced (k : Key) (value : Expr) (written : Bool) :
    isShorthand (Unplaced.key k) (Unplaced.expr value) written = isShorthand k value written := by
  cases k with
  | ident n =>
    by_cases hn : n = "__proto__"
    · subst hn
      rfl
    · change isShorthand (.ident n) _ _ = _
      rw [Bool.eq_iff_iff, isShorthand_iff hn, isShorthand_iff hn, bare_unplaced]
      exact ⟨fun ⟨s, h⟩ => exists_ident_of_unplaced h,
        fun ⟨s, h⟩ => ⟨.none, congrArg Unplaced.expr h⟩⟩
  | _ => rfl

/-- Nor does it for a member of an object pattern. -/
theorem isBindingShorthand_unplaced (k : Key) (value : Pattern) :
    isBindingShorthand (Unplaced.key k) (Unplaced.pattern value) = isBindingShorthand k value := by
  cases k with
  | ident n =>
    cases value with
    | withDefault p e => cases p <;> rfl
    | _ => rfl
  | _ => rfl

theorem isObjectPattern_unplaced (p : Pattern) :
    isObjectPattern (Unplaced.pattern p) = isObjectPattern p := by
  cases p <;> rfl

theorem isInfinite_unplaced (k : Key) : isInfinite (Unplaced.key k) = isInfinite k := by
  cases k <;> rfl

/-- An `if` without `else` at the end of a statement is there whatever its place. -/
theorem endsInIf_unplaced (s : Stmt) : endsInIf (Unplaced.stmt s) = endsInIf s := by
  cases s with
  | «if» _ _ alternate =>
    cases alternate with
    | none => rfl
    | some s => exact endsInIf_unplaced s
  | «for» _ _ _ body | forIn _ _ body | forOf _ _ _ body | «while» _ body | labeled _ body =>
    exact endsInIf_unplaced body
  | _ => rfl

/-- The comma after a last hole is written in both cases. -/
theorem afterHole_unplaced (es : List Expr) : afterHole (Unplaced.exprs es) = afterHole es := by
  match es with
  | [] => rfl
  | [e] => cases e <;> rfl
  | e :: e' :: es =>
    have ih := afterHole_unplaced (e' :: es)
    cases e <;> exact ih

/-- So is the one after the elements of an array pattern. -/
theorem afterElements_unplaced (ps : List Pattern) (hasRest : Bool) :
    afterElements (Unplaced.patterns ps) hasRest = afterElements ps hasRest := by
  unfold afterElements
  rw [Unplaced.patterns_eq_map, List.getLast?_map]
  cases ps.getLast? with
  | none => rfl
  | some p => cases p <;> rfl

/-- Whether a statement is a block. -/
def isBlock : Stmt → Bool
  | .block _ => true
  | _ => false

/-- An `if` whose first branch is no block is written from its parts. -/
theorem stmtText_if_congr {t t' : Expr} {b b' : Stmt} {a a' : Option Stmt}
    (hb : isBlock b = false) (hb' : isBlock b' = false) (hends : endsInIf b' = endsInIf b)
    (ht : ∀ p, exprText p t' = exprText p t)
    (hstmt : ∀ indent start, stmtText indent start b' = stmtText indent start b)
    (ha : ∀ indent, alternateText indent a' = alternateText indent a) (indent : Nat)
    (start : Begin) : stmtText indent start (.if t' b' a') = stmtText indent start (.if t b a) := by
  have hwritten : ∀ {t : Expr} {b : Stmt} {a : Option Stmt}, isBlock b = false →
      stmtText indent start (.if t b a) = (
        let head := start.text indent ++ "if (" ++ exprText (.plain indent .lowest) t ++ ")"
        let other := alternateText indent a
        if endsInIf b then
          head ++ " " ++ braces indent [stmtText (indent + 1) .line b]
            ++ (if other.isEmpty then "\n" else " " ++ other)
        else
          head ++ stmtText indent .sameLine b
            ++ (if other.isEmpty then "" else tabs indent ++ other)) := by
    intro t b a hb
    cases b with
    | block _ => cases hb
    | _ => rfl
  rw [hwritten hb, hwritten hb', hends, ht, hstmt, hstmt, ha]

/-- A loop whose body is no block is written from its parts. -/
theorem stmtText_doWhile_congr {t t' : Expr} {b b' : Stmt} (hb : isBlock b = false)
    (hb' : isBlock b' = false) (ht : ∀ p, exprText p t' = exprText p t)
    (hstmt : ∀ indent start, stmtText indent start b' = stmtText indent start b) (indent : Nat)
    (start : Begin) :
    stmtText indent start (.doWhile b' t') = stmtText indent start (.doWhile b t) := by
  have hwritten : ∀ {t : Expr} {b : Stmt}, isBlock b = false →
      stmtText indent start (.doWhile b t) = start.text indent ++ "do\n"
        ++ stmtText (indent + 1) .line b ++ tabs indent
        ++ ("while (" ++ exprText (.plain indent .lowest) t ++ ");\n") := by
    intro t b hb
    cases b with
    | block _ => cases hb
    | _ => rfl
  rw [hwritten hb, hwritten hb', ht, hstmt]

/-! ## Printing

Each case opens the text of a part as far as its parentheses or its first concatenation. The texts
inside are those of smaller parts, and what else the text depends on is the shape. -/

mutual

/-- **An expression is written from its shape.** Places are read in no case; the parentheses around
a part follow from what it is and where it is put. -/
theorem exprText_unplaced (e : Expr) (p : Place) :
    exprText p (Unplaced.expr e) = exprText p e := by
  cases e with
  | ident _ _ | «alias» _ _ _ | number _ _ | string _ _ | bigint _ _ | regex _ _ | bool _ _ | null _
  | this _ | super _ | metaProperty _ _ _ | hole => rfl
  | template _ _ es =>
    change _ ++ _ = _ ++ _
    rw [exprTexts_unplaced es]
  | tagged _ t _ es =>
    change _ ++ _ = _ ++ _
    rw [exprText_unplaced t, exprTexts_unplaced es]
  | spread e =>
    change _ ++ _ = _ ++ _
    rw [exprText_unplaced e]
  | array _ es =>
    change bracketed _ _ _ _ _ _ = bracketed _ _ _ _ _ _
    rw [Unplaced.length_exprs, exprTexts_unplaced es, afterHole_unplaced]
  | object _ ps =>
    change parens _ _ = parens _ _
    rw [Unplaced.length_properties, propertyTexts_unplaced ps]
  | function _ f =>
    change parens _ _ = parens _ _
    rw [functionText_unplaced f]
  | arrow _ f =>
    change parens _ _ = parens _ _
    rw [arrowText_unplaced f]
  | classExpr _ c =>
    change parens _ _ = parens _ _
    rw [classText_unplaced c]
  | update _ _ before e =>
    cases before <;>
    · change parens _ _ = parens _ _
      rw [exprText_unplaced e]
  | binary _ _ l r =>
    change parens _ _ = parens _ _
    rw [isUnaryOrNumber_unplaced, exprText_unplaced l, exprText_unplaced r]
  | logical _ _ l r =>
    change parens _ _ = parens _ _
    simp only [isOrAnd_unplaced]
    rw [exprText_unplaced l, exprText_unplaced r]
  | assign _ _ l r =>
    change parens _ _ = parens _ _
    rw [isObjectPattern_unplaced, targetText_unplaced l, exprText_unplaced r]
  | conditional _ t c e =>
    change parens _ _ = parens _ _
    rw [exprText_unplaced t, exprText_unplaced c, exprText_unplaced e]
  | call _ c as _ | new _ c as =>
    change parens _ _ = parens _ _
    rw [exprText_unplaced c, exprTexts_unplaced as]
  | unary _ _ e | privateIn _ _ e | chain _ e | await _ e =>
    change parens _ _ = parens _ _
    rw [exprText_unplaced e]
  | member _ o _ _ =>
    change _ ++ _ = _ ++ _
    rw [exprText_unplaced o, swallowsPoint_unplaced]
  | privateMember _ o _ _ =>
    change _ ++ _ = _ ++ _
    rw [exprText_unplaced o]
  | index _ o k _ =>
    change _ ++ _ = _ ++ _
    rw [exprText_unplaced o, exprText_unplaced k]
  | sequence _ es =>
    change parens _ _ = parens _ _
    rw [sequenceTexts_unplaced es]
  | paren _ e => exact exprText_unplaced e p
  | yield _ _ e =>
    cases e with
    | none => rfl
    | some e =>
      change parens _ _ = parens _ _
      rw [exprText_unplaced e]
  | importCall _ as =>
    change parens _ _ = parens _ _
    rw [exprTexts_unplaced as]
  | typed _ test e _ =>
    cases test with
    | asType =>
      change parens _ _ = parens _ _
      rw [exprText_unplaced e]
    | satisfies =>
      change _ ++ _ = _ ++ _
      rw [exprText_unplaced e]
  | nonNull _ e =>
    change _ ++ _ = _ ++ _
    rw [isParen_unplaced, exprText_unplaced e]
  | element e => exact elementText_unplaced e p.indent
  | fragment _ cs =>
    change _ ++ _ = _ ++ _
    rw [childTexts_unplaced cs]

/-- The texts of arguments and elements. -/
theorem exprTexts_unplaced (es : List Expr) (p : Place) :
    exprTexts p (Unplaced.exprs es) = exprTexts p es := by
  cases es with
  | nil => rfl
  | cons e es => exact congrArg₂ List.cons (exprText_unplaced e _) (exprTexts_unplaced es _)

/-- The texts of the parts of a sequence, of which only the first one starts a statement. -/
theorem sequenceTexts_unplaced (es : List Expr) (p : Place) :
    sequenceTexts p (Unplaced.exprs es) = sequenceTexts p es := by
  cases es with
  | nil => rfl
  | cons e es => exact congrArg₂ List.cons (exprText_unplaced e _) (exprTexts_unplaced es _)

/-- The text of a key. -/
theorem keyText_unplaced (k : Key) (indent : Nat) :
    keyText indent (Unplaced.key k) = keyText indent k := by
  cases k with
  | ident _ | string _ | number _ | bigint _ | privateName _ => rfl
  | computed e =>
    change _ ++ _ = _ ++ _
    rw [exprText_unplaced e]

/-- The texts of the members of an object literal, by name alone or in full. -/
theorem propertyTexts_unplaced (ps : List Property) (indent : Nat) :
    propertyTexts indent (Unplaced.properties ps) = propertyTexts indent ps := by
  match ps with
  | [] => rfl
  | .field k v _ :: ps =>
    refine congrArg₂ List.cons ?_ (propertyTexts_unplaced ps _)
    change @ite _ _ _ _ _ = @ite _ _ _ _ _
    rw [isShorthand_unplaced, isInfinite_unplaced, keyText_unplaced k, exprText_unplaced v]
  | .method _ k f :: ps =>
    refine congrArg₂ List.cons ?_ (propertyTexts_unplaced ps _)
    change _ ++ _ = _ ++ _
    rw [keyText_unplaced k, methodText_unplaced f]
  | .spread e :: ps =>
    refine congrArg₂ List.cons ?_ (propertyTexts_unplaced ps _)
    change _ ++ _ = _ ++ _
    rw [exprText_unplaced e]

/-- The text of a function. -/
theorem functionText_unplaced (f : Func) (indent : Nat) :
    functionText indent (Unplaced.func f) = functionText indent f := by
  cases f with
  | mk _ _ _ _ _ ps rest _ b =>
    change _ ++ _ = _ ++ _
    rw [paramTexts_unplaced ps, restText_unplaced rest, bodyText_unplaced b]

/-- The text of a method, after its name. -/
theorem methodText_unplaced (f : Func) (indent : Nat) (name : String) :
    methodText indent name (Unplaced.func f) = methodText indent name f := by
  cases f with
  | mk _ _ _ _ _ ps rest _ b =>
    change _ ++ _ = _ ++ _
    rw [paramTexts_unplaced ps, restText_unplaced rest, bodyText_unplaced b]

/-- The text of an arrow function. -/
theorem arrowText_unplaced (f : Func) (indent : Nat) :
    arrowText indent (Unplaced.func f) = arrowText indent f := by
  cases f with
  | mk _ _ _ _ _ ps rest _ b =>
    change _ ++ _ = _ ++ _
    rw [paramTexts_unplaced ps, restText_unplaced rest, bodyText_unplaced b]

/-- The text of a body. -/
theorem bodyText_unplaced (b : Body) (indent : Nat) :
    bodyText indent (Unplaced.body b) = bodyText indent b := by
  cases b with
  | absent => rfl
  | expr e =>
    change _ ++ _ = _ ++ _
    rw [exprText_unplaced e]
  | block _ ss =>
    change _ ++ _ = _ ++ _
    rw [stmtTexts_unplaced ss]

/-- The texts of parameters. -/
theorem paramTexts_unplaced (ps : List Param) (indent : Nat) :
    paramTexts indent (Unplaced.params ps) = paramTexts indent ps := by
  match ps with
  | [] => rfl
  | .mk ds p :: ps =>
    refine congrArg₂ List.cons ?_ (paramTexts_unplaced ps _)
    rw [decoratorTexts_unplaced ds, bindingText_unplaced p]

/-- The text of a rest parameter, or of a rest element. -/
theorem restText_unplaced (p : Option Pattern) (indent : Nat) :
    restText indent (Unplaced.optPattern p) = restText indent p := by
  cases p with
  | none => rfl
  | some p =>
    change [_] = [_]
    rw [bindingText_unplaced p]

/-- The texts of decorators. -/
theorem decoratorTexts_unplaced (ds : List Expr) (indent : Nat) :
    decoratorTexts indent (Unplaced.exprs ds) = decoratorTexts indent ds := by
  cases ds with
  | nil => rfl
  | cons d ds =>
    refine congrArg₂ List.cons ?_ (decoratorTexts_unplaced ds _)
    rw [isPlainDecorator_unplaced, exprText_unplaced d]

/-- The text of a binding pattern. -/
theorem bindingText_unplaced (p : Pattern) (indent : Nat) :
    bindingText indent (Unplaced.pattern p) = bindingText indent p := by
  cases p with
  | bind _ | hole => rfl
  | target e => exact exprText_unplaced e _
  | object ps rest =>
    change @ite _ _ _ _ _ = @ite _ _ _ _ _
    rw [Unplaced.isEmpty_patternProperties, Unplaced.isNone_optPattern,
      Unplaced.isSome_optPattern, bindingPropertyTexts_unplaced ps, restText_unplaced rest]
  | array ps rest =>
    change _ ++ _ = _ ++ _
    rw [Unplaced.isSome_optPattern, bindingTexts_unplaced ps, afterElements_unplaced,
      restText_unplaced rest]
  | withDefault p e =>
    change _ ++ _ = _ ++ _
    rw [bindingText_unplaced p, exprText_unplaced e]
  | typed p _ _ =>
    change _ ++ _ = _ ++ _
    rw [bindingText_unplaced p]

/-- The texts of the elements of an array pattern that binds. -/
theorem bindingTexts_unplaced (ps : List Pattern) (indent : Nat) :
    bindingTexts indent (Unplaced.patterns ps) = bindingTexts indent ps := by
  cases ps with
  | nil => rfl
  | cons p ps => exact congrArg₂ List.cons (bindingText_unplaced p _) (bindingTexts_unplaced ps _)

/-- The texts of the members of an object pattern that binds. -/
theorem bindingPropertyTexts_unplaced (ps : List PatternProperty) (indent : Nat) :
    bindingPropertyTexts indent (Unplaced.patternProperties ps)
      = bindingPropertyTexts indent ps := by
  match ps with
  | [] => rfl
  | .mk k value _ :: ps =>
    refine congrArg₂ List.cons ?_ (bindingPropertyTexts_unplaced ps _)
    rw [isBindingShorthand_unplaced, keyText_unplaced k, bindingText_unplaced value]

/-- The text of an assignment target. -/
theorem targetText_unplaced (q : Pattern) (p : Place) :
    targetText p (Unplaced.pattern q) = targetText p q := by
  cases q with
  | bind _ | hole => rfl
  | target e => exact exprText_unplaced e p
  | object ps rest =>
    change _ ++ _ = _ ++ _
    rw [Unplaced.isEmpty_patternProperties, Unplaced.isSome_optPattern,
      targetPropertyTexts_unplaced ps, targetRestText_unplaced rest]
  | array ps rest =>
    change _ ++ _ = _ ++ _
    rw [Unplaced.isSome_optPattern, targetTexts_unplaced ps, afterElements_unplaced,
      targetRestText_unplaced rest]
  | withDefault q e =>
    change _ ++ _ = _ ++ _
    rw [targetText_unplaced q, exprText_unplaced e]
  | typed q _ _ => exact targetText_unplaced q p

/-- The texts of the elements of an array pattern that is assigned to. -/
theorem targetTexts_unplaced (ps : List Pattern) (indent : Nat) :
    targetTexts indent (Unplaced.patterns ps) = targetTexts indent ps := by
  cases ps with
  | nil => rfl
  | cons p ps => exact congrArg₂ List.cons (targetText_unplaced p _) (targetTexts_unplaced ps _)

/-- The text of its rest element. -/
theorem targetRestText_unplaced (p : Option Pattern) (indent : Nat) :
    targetRestText indent (Unplaced.optPattern p) = targetRestText indent p := by
  cases p with
  | none => rfl
  | some p =>
    change [_] = [_]
    rw [targetText_unplaced p]

/-- The texts of the members of an object pattern that is assigned to. -/
theorem targetPropertyTexts_unplaced (ps : List PatternProperty) (indent : Nat) :
    targetPropertyTexts indent (Unplaced.patternProperties ps)
      = targetPropertyTexts indent ps := by
  match ps with
  | [] => rfl
  | .mk k value _ :: ps =>
    have hvalue := targetText_unplaced value
    have hkey := keyText_unplaced k indent
    refine congrArg₂ List.cons ?_ (targetPropertyTexts_unplaced ps _)
    -- Whether the name stands in brackets depends on the kind of key.
    cases k with
    | ident _ | string _ | privateName _ | number _ | bigint _ => rw [hvalue]; rfl
    | computed e => rw [hvalue, hkey]; rfl

/-- **A statement is written from its shape**, with the indent and the start of its line. -/
theorem stmtText_unplaced (s : Stmt) (indent : Nat) (start : Begin) :
    stmtText indent start (Unplaced.stmt s) = stmtText indent start s := by
  cases s with
  | «break» _ | «continue» _ | empty | debugger | «import» _ _ | exportNamed _ _ | exportAll _ _ =>
    rfl
  | expr e | throw e | exportDefault e =>
    change _ ++ _ = _ ++ _
    rw [exprText_unplaced e]
  | varDecl _ ds =>
    change _ ++ _ = _ ++ _
    rw [declaratorTexts_unplaced ds]
  | function f | exportDefaultFunction f =>
    change _ ++ _ = _ ++ _
    rw [functionText_unplaced f]
  | classDecl c | exportDefaultClass c =>
    change _ ++ _ = _ ++ _
    rw [classText_unplaced c]
  | «return» e =>
    cases e with
    | none => rfl
    | some e =>
      change _ ++ _ = _ ++ _
      rw [exprText_unplaced e]
  | «if» t b a =>
    have hstmt := stmtText_unplaced b
    have hends := endsInIf_unplaced b
    cases b with
    | block ss =>
      change _ ++ _ = _ ++ _
      rw [exprText_unplaced t, stmtTexts_unplaced ss, alternateText_unplaced a]
    | _ =>
      exact stmtText_if_congr rfl rfl hends (exprText_unplaced t) hstmt (alternateText_unplaced a)
        indent start
  | «for» init t u b =>
    change _ ++ _ = _ ++ _
    rw [headText_unplaced init, partText_unplaced t, partText_unplaced u, stmtText_unplaced b]
  | forIn left r b | forOf _ left r b =>
    change _ ++ _ = _ ++ _
    rw [headText_unplaced left, exprText_unplaced r, stmtText_unplaced b]
  | «while» t b =>
    change _ ++ _ = _ ++ _
    rw [exprText_unplaced t, stmtText_unplaced b]
  | doWhile b t =>
    have hstmt := stmtText_unplaced b
    cases b with
    | block ss =>
      change _ ++ _ = _ ++ _
      rw [exprText_unplaced t, stmtTexts_unplaced ss]
    | _ => exact stmtText_doWhile_congr rfl rfl (exprText_unplaced t) hstmt indent start
  | block ss =>
    change _ ++ _ = _ ++ _
    rw [stmtTexts_unplaced ss]
  | switch d cases =>
    change _ ++ _ = _ ++ _
    rw [exprText_unplaced d, caseTexts_unplaced cases]
  | «try» b handler finalizer =>
    change _ ++ _ = _ ++ _
    rw [stmtTexts_unplaced b, catchText_unplaced handler, finallyText_unplaced finalizer]
  | labeled _ b | exportDecl b =>
    change _ ++ _ = _ ++ _
    rw [stmtText_unplaced b]

/-- The texts of several statements. -/
theorem stmtTexts_unplaced (ss : List Stmt) (indent : Nat) :
    stmtTexts indent (Unplaced.stmts ss) = stmtTexts indent ss := by
  cases ss with
  | nil => rfl
  | cons s ss => exact congrArg₂ List.cons (stmtText_unplaced s _ _) (stmtTexts_unplaced ss _)

/-- The text of an `else` part. -/
theorem alternateText_unplaced (s : Option Stmt) (indent : Nat) :
    alternateText indent (Unplaced.optStmt s) = alternateText indent s := by
  cases s with
  | none => rfl
  | some s =>
    change _ ++ _ = _ ++ _
    rw [stmtText_unplaced s]

/-- The text of a part of the head of a `for`. -/
theorem partText_unplaced (e : Option Expr) (indent : Nat) :
    partText indent (Unplaced.optExpr e) = partText indent e := by
  cases e with
  | none => rfl
  | some e =>
    change _ ++ _ = _ ++ _
    rw [exprText_unplaced e]

/-- The texts of declared variables. -/
theorem declaratorTexts_unplaced (ds : List Declarator) (p : Place) :
    declaratorTexts p (Unplaced.declarators ds) = declaratorTexts p ds := by
  match ds with
  | [] => rfl
  | .mk q e :: ds =>
    refine congrArg₂ List.cons ?_ (declaratorTexts_unplaced ds _)
    rw [bindingText_unplaced q, initText_unplaced e]

/-- The text of the value of a variable. -/
theorem initText_unplaced (e : Option Expr) (p : Place) :
    initText p (Unplaced.optExpr e) = initText p e := by
  cases e with
  | none => rfl
  | some e =>
    change _ ++ _ = _ ++ _
    rw [exprText_unplaced e]

/-- The text of the first part of the head of a loop. -/
theorem headText_unplaced (h : ForHead) (indent : Nat) :
    headText indent (Unplaced.forHead h) = headText indent h := by
  cases h with
  | absent => rfl
  | decl _ ds =>
    change _ ++ _ = _ ++ _
    rw [declaratorTexts_unplaced ds]
  | expr e => exact exprText_unplaced e _
  | target p => exact targetText_unplaced p _

/-- The texts of the cases of a `switch`. -/
theorem caseTexts_unplaced (cases : List SwitchCase) (indent : Nat) :
    caseTexts indent (Unplaced.switchCases cases) = caseTexts indent cases := by
  match cases with
  | [] => rfl
  | .mk t [] :: cases =>
    refine congrArg₂ List.cons ?_ (caseTexts_unplaced cases _)
    rw [caseHead_unplaced t]
    rfl
  | .mk t [s] :: cases =>
    refine congrArg₂ List.cons ?_ (caseTexts_unplaced cases _)
    rw [caseHead_unplaced t]
    exact congrArg _ (stmtText_unplaced s _ _)
  | .mk t (s :: s' :: ss) :: cases =>
    refine congrArg₂ List.cons ?_ (caseTexts_unplaced cases _)
    have hbody : stmtTexts (indent + 1) (Unplaced.stmts (s :: s' :: ss))
        = stmtTexts (indent + 1) (s :: s' :: ss) :=
      congrArg₂ List.cons (stmtText_unplaced s _ _)
        (congrArg₂ List.cons (stmtText_unplaced s' _ _) (stmtTexts_unplaced ss _))
    rw [caseHead_unplaced t]
    exact congrArg (fun lines => _ ++ ("\n" ++ String.join lines)) hbody

/-- The text in front of the statements of a case. -/
theorem caseHead_unplaced (e : Option Expr) (indent : Nat) :
    caseHead indent (Unplaced.optExpr e) = caseHead indent e := by
  cases e with
  | none => rfl
  | some e =>
    change _ ++ _ = _ ++ _
    rw [exprText_unplaced e]

/-- The text of a handler. -/
theorem catchText_unplaced (h : Option Catch) (indent : Nat) :
    catchText indent (Unplaced.optCatch h) = catchText indent h := by
  match h with
  | none => rfl
  | some (.mk param ss) =>
    change _ ++ _ = _ ++ _
    rw [catchParam_unplaced param, stmtTexts_unplaced ss]

/-- The text of the parameter of a handler. -/
theorem catchParam_unplaced (p : Option Pattern) (indent : Nat) :
    catchParam indent (Unplaced.optPattern p) = catchParam indent p := by
  cases p with
  | none => rfl
  | some p =>
    change _ ++ _ = _ ++ _
    rw [bindingText_unplaced p]

/-- The text of a finalizer. -/
theorem finallyText_unplaced (ss : Option (List Stmt)) (indent : Nat) :
    finallyText indent (Unplaced.optStmts ss) = finallyText indent ss := by
  cases ss with
  | none => rfl
  | some ss =>
    change _ ++ _ = _ ++ _
    rw [stmtTexts_unplaced ss]

/-- The text of a class. -/
theorem classText_unplaced (c : Class) (indent : Nat) :
    classText indent (Unplaced.cls c) = classText indent c := by
  cases c with
  | mk _ ds superClass ms =>
    change _ ++ _ = _ ++ _
    rw [decoratorTexts_unplaced ds, extendsText_unplaced superClass, memberTexts_unplaced ms]

/-- The text of what a class extends. -/
theorem extendsText_unplaced (e : Option Expr) (indent : Nat) :
    extendsText indent (Unplaced.optExpr e) = extendsText indent e := by
  cases e with
  | none => rfl
  | some e =>
    change _ ++ _ = _ ++ _
    rw [exprText_unplaced e]

/-- The texts of the members of a class. -/
theorem memberTexts_unplaced (ms : List Member) (indent : Nat) :
    memberTexts indent (Unplaced.members ms) = memberTexts indent ms := by
  match ms with
  | [] => rfl
  | .method ds _ _ k f :: ms =>
    refine congrArg₂ List.cons ?_ (memberTexts_unplaced ms _)
    rw [decoratorTexts_unplaced ds, keyText_unplaced k, methodText_unplaced f]
  | .field ds _ k _ _ value :: ms =>
    refine congrArg₂ List.cons ?_ (memberTexts_unplaced ms _)
    rw [decoratorTexts_unplaced ds, keyText_unplaced k, initText_unplaced value]
  | .staticBlock ss :: ms =>
    refine congrArg₂ List.cons ?_ (memberTexts_unplaced ms _)
    rw [stmtTexts_unplaced ss]

/-- **An element is written from its shape.** -/
theorem elementText_unplaced (e : Element) (indent : Nat) :
    elementText indent (Unplaced.element e) = elementText indent e := by
  cases e with
  | mk _ _ _ as cs _ =>
    change _ ++ _ = _ ++ _
    rw [attrTexts_unplaced as, childTexts_unplaced cs]

/-- The texts of attributes. -/
theorem attrTexts_unplaced (as : List Attr) (indent : Nat) :
    attrTexts indent (Unplaced.attrs as) = attrTexts indent as := by
  match as with
  | [] => rfl
  | .named _ _ value :: as =>
    refine congrArg₂ List.cons ?_ (attrTexts_unplaced as _)
    rw [attrValueText_unplaced value]
  | .spread _ e :: as =>
    refine congrArg₂ List.cons ?_ (attrTexts_unplaced as _)
    rw [exprText_unplaced e]

/-- The text of the value of an attribute. -/
theorem attrValueText_unplaced (v : AttrValue) (indent : Nat) :
    attrValueText indent (Unplaced.attrValue v) = attrValueText indent v := by
  match v with
  | .absent | .string _ | .container _ none => rfl
  | .container _ (some e) =>
    change _ ++ _ = _ ++ _
    rw [exprText_unplaced e]
  | .element e =>
    change _ ++ _ = _ ++ _
    rw [elementText_unplaced e]
  | .fragment _ cs =>
    change _ ++ _ = _ ++ _
    rw [childTexts_unplaced cs]

/-- The texts of children; a text in markup is written as it is. -/
theorem childTexts_unplaced (cs : List Child) (indent : Nat) :
    childTexts indent (Unplaced.children cs) = childTexts indent cs := by
  match cs with
  | [] => rfl
  | .text s :: cs => exact congrArg (s :: ·) (childTexts_unplaced cs _)
  | .element e :: cs =>
    exact congrArg₂ List.cons (elementText_unplaced e _) (childTexts_unplaced cs _)
  | .fragment _ inner :: cs =>
    refine congrArg₂ List.cons ?_ (childTexts_unplaced cs _)
    rw [childTexts_unplaced inner]
  | .container none :: cs => exact congrArg (_ :: ·) (childTexts_unplaced cs _)
  | .container (some e) :: cs =>
    refine congrArg₂ List.cons ?_ (childTexts_unplaced cs _)
    rw [exprText_unplaced e]
  | .spread e :: cs =>
    refine congrArg₂ List.cons ?_ (childTexts_unplaced cs _)
    rw [exprText_unplaced e]

end

end Print

/-- **Printing does not look at places.** -/
theorem Module.text_unplaced (m : Module) : m.unplaced.text = m.text := by
  unfold Module.text
  rw [show m.unplaced.stmts = Unplaced.stmts m.stmts from rfl, Print.stmtTexts_unplaced]
  rfl

/-- Neither does the listing of texts in markup. -/
theorem Module.markupTexts_unplaced (m : Module) : m.unplaced.markupTexts = m.markupTexts :=
  MarkupText.ofStmts_unplaced m.stmts

/-! ## Reading back -/

/-- Whether a module is read back from its text as the same program: without the parentheses of the
source, and perhaps at other places. -/
def Module.ReadsBack (m : Module) : Prop :=
  ∃ m', readModule? { keepParens := false } m.text.toList = some m' ∧ m'.unplaced = m.unplaced

/-- The normal form of a text is the text of the module that it is read as, after one pass. -/
theorem normalize?_of_read {s : String} {m : Module}
    (h : readModule? { keepParens := false } s.toList = some m) :
    normalize? s = some m.normal.text := by
  rw [normalize?, h]
  rfl

/-- The same program has the same texts in its markup. -/
theorem Module.markupTexts_congr {m m' : Module} (h : m'.unplaced = m.unplaced) :
    m'.markupTexts = m.markupTexts := by
  rw [← markupTexts_unplaced, h, markupTexts_unplaced]

/-- The text of a module without text in its markup is its own normal form, if it is read back. -/
theorem Module.normalize?_text {m : Module} (htexts : m.markupTexts = []) (hback : m.ReadsBack) :
    normalize? m.text = some m.text := by
  obtain ⟨m', hread, hsame⟩ := hback
  have htexts' : m'.markupTexts = [] := (markupTexts_congr hsame).trans htexts
  rw [normalize?_of_read hread, normal_of_markupTexts htexts', ← text_unplaced, hsame,
    text_unplaced]

/-- **Bringing a text to normal form twice is the same as once.** One pass leaves no text in the
markup of any module, so that a second one changes nothing. The normal form of a text that is a
module is the text of the module after one pass. If that is read back as the same program, what is
read has no text in its markup, and the normal form is its own normal form. -/
theorem normalize?_idempotent :
    (∀ m : Module, m.normal.markupTexts = [] ∧ m.normal.normal = m.normal)
      ∧ ∀ (s : String) (m : Module), readModule? { keepParens := false } s.toList = some m →
        normalize? s = some m.normal.text
          ∧ (m.normal.ReadsBack →
            (∃ m', readModule? { keepParens := false } m.normal.text.toList = some m'
              ∧ m'.markupTexts = [])
            ∧ normalize? m.normal.text = some m.normal.text) := by
  refine ⟨fun m => ⟨m.markupTexts_normal, Module.normal_of_markupTexts m.markupTexts_normal⟩, ?_⟩
  intro s m hread
  refine ⟨normalize?_of_read hread, fun hback => ⟨?_, ?_⟩⟩
  · obtain ⟨m', hread', hsame⟩ := hback
    exact ⟨m', hread', (Module.markupTexts_congr hsame).trans m.markupTexts_normal⟩
  · exact Module.normalize?_text m.markupTexts_normal hback

/-- `<p>…{<b>…</b>}</p>;`, with the places of its elements and of their opening tags. -/
def nestedElements (outer outerOpen inner innerOpen : Span) (first second : Child) : Module :=
  ⟨[], [.expr (.element (.mk outer outerOpen (.plain "p") []
    [first, .container (some (.element (.mk inner innerOpen (.plain "b") [] [second] true)))]
    true))]⟩

/-- A string as a child. -/
def stringChild (span : Span) (value : String) : Child :=
  .container (some (.string span value))

set_option maxRecDepth 2000 in
theorem normalize?_idempotent_nested :
    let m := nestedElements ⟨0, 20⟩ ⟨0, 3⟩ ⟨7, 15⟩ ⟨7, 10⟩ (.text " a ") (.text "c")
    let n := "<p>\x7b\"a\"\x7d\x7b<b>\x7b\"c\"\x7d</b>\x7d</p>;\n"
    readModule? { keepParens := false } "<p> a \x7b<b>c</b>\x7d</p>;".toList = some m
      ∧ m.normal.ReadsBack
      ∧ normalize? "<p> a \x7b<b>c</b>\x7d</p>;" = some n
      ∧ (∃ m', readModule? { keepParens := false } n.toList = some m' ∧ m'.markupTexts = [])
      ∧ normalize? n = some n := by
  intro m
  have hread : readModule? { keepParens := false } "<p> a \x7b<b>c</b>\x7d</p>;".toList = some m :=
    rfl
  have htext : m.normal.text = "<p>\x7b\"a\"\x7d\x7b<b>\x7b\"c\"\x7d</b>\x7d</p>;\n" := by
    decide +kernel
  have hback : m.normal.ReadsBack := by
    refine ⟨nestedElements ⟨0, 26⟩ ⟨0, 3⟩ ⟨9, 21⟩ ⟨9, 12⟩ (stringChild ⟨4, 7⟩ "a")
      (stringChild ⟨13, 16⟩ "c"), ?_, rfl⟩
    rw [htext]
    rfl
  obtain ⟨hnormal, hfixed⟩ := normalize?_idempotent.2 _ m hread
  rw [htext] at hnormal hfixed
  exact ⟨hread, hback, hnormal, hfixed hback⟩

end JsxDialect
