import JsxDialect.Proofs.Contents
import JsxDialect.Proofs.FunctionNames

/-!
# The functions of a valid module

A module that keeps the rules of the language is checked function by function on the way down. So
the body of each of its functions fits the parameters, at any depth.
-/

namespace JsxDialect

/-- Functions whose bodies fit. -/
def AllFit (fs : List (FunctionRole × Func)) : Prop :=
  ∀ p ∈ fs, p.2.declared.fits = true

namespace AllFit

variable {fs gs : List (FunctionRole × Func)}

/-- Of no functions all fit. -/
theorem nil : AllFit [] :=
  fun _ hp => absurd hp List.not_mem_nil

/-- Functions that fit before others. -/
theorem append (h : AllFit fs) (h' : AllFit gs) : AllFit (fs ++ gs) :=
  List.forall_mem_append.mpr ⟨h, h'⟩

/-- Two checks are made, each of which makes its own functions fit. -/
theorem both {p q : Bool} (h : (p && q) = true) (hfs : p = true → AllFit fs)
    (hgs : q = true → AllFit gs) : AllFit (fs ++ gs) :=
  (hfs (Bool.and_eq_true_iff.mp h).1).append (hgs (Bool.and_eq_true_iff.mp h).2)

/-- Of two checks the second makes them fit. -/
theorem second {p q : Bool} (h : (p && q) = true) (hfs : q = true → AllFit fs) : AllFit fs :=
  hfs (Bool.and_eq_true_iff.mp h).2

end AllFit

open Listing (functions)

/-- `super` has no functions in it. -/
theorem ofExpr_of_isSuper {e : Expr} (h : Check.isSuper e = true) :
    (functions true).ofExpr e = [] := by
  cases e with
  | super _ => rfl
  | _ => cases h

/-- What stands before a `.` or a `[` or is called is `super`, where it may be, or is checked. -/
theorem AllFit.of_super_or {e : Expr} {p q : Bool} (h : (p && Check.isSuper e || q) = true)
    (he : q = true → AllFit ((functions true).ofExpr e)) : AllFit ((functions true).ofExpr e) := by
  rcases Bool.or_eq_true_iff.mp h with hsuper | hq
  · rw [ofExpr_of_isSuper (Bool.and_eq_true_iff.mp hsuper).2]
    exact .nil
  · exact he hq

mutual

/-- **The functions of an expression fit if the expression is valid.** The check goes through all of
it, as the listing does; there is one lemma for each part of the syntax. -/
theorem allFit_expr (e : Expr) {a : Check.Around} (h : Check.expr a e = true) :
    AllFit ((functions true).ofExpr e) := by
  cases e with
  | ident _ _ | «alias» _ _ _ | number _ _ | string _ _ | bigint _ _ | regex _ _ | bool _ _ | null _
  | this _ | super _ | metaProperty _ _ _ | hole => exact .nil
  | template _ _ es | array _ es | sequence _ es | importCall _ es => exact allFit_exprs es h
  | tagged _ tag _ es => exact .both h (allFit_expr tag) (allFit_exprs es)
  | spread e | chain _ e | paren _ e | await _ e | typed _ _ e _ | nonNull _ e =>
    exact allFit_expr e h
  | object _ ps => exact .second h (allFit_properties ps)
  | function _ f | arrow _ f => exact allFit_func f h
  | classExpr _ k => exact allFit_cls k h
  | unary _ _ e | update _ _ _ e => exact .second h (allFit_expr e)
  | binary _ _ l r => exact .both h (.second · (allFit_expr l)) (allFit_expr r)
  | privateIn _ _ r => exact .second h (allFit_expr r)
  | logical _ _ l r => exact .both h (.second · (allFit_expr l)) (allFit_expr r)
  | assign _ _ l r => exact .both h (allFit_pattern l) (allFit_expr r)
  | conditional _ t e x =>
    replace h := Bool.and_eq_true_iff.mp h
    simp only [Bool.and_eq_true] at h
    exact (allFit_expr t h.1.1).append ((allFit_expr e h.1.2).append (allFit_expr x h.2))
  | call _ e es _ => exact .both h (.of_super_or · (allFit_expr e)) (allFit_exprs es)
  | new _ e es => exact .both h (allFit_expr e) (allFit_exprs es)
  | member _ o _ _ => exact .of_super_or (e := o) h (allFit_expr o)
  | privateMember _ o _ _ =>
    replace h := Bool.and_eq_true_iff.mp h
    exact allFit_expr o h.1
  | index _ o k _ => exact .both h (.of_super_or · (allFit_expr o)) (allFit_expr k)
  | yield _ _ e => exact allFit_optExpr e h
  | element e => exact allFit_element e h
  | fragment _ cs => exact allFit_children cs h

/-- Several expressions. -/
theorem allFit_exprs (es : List Expr) {a : Check.Around} (h : Check.exprs a es = true) :
    AllFit ((functions true).ofExprs es) := by
  cases es with
  | nil => exact .nil
  | cons e es => exact .both h (allFit_expr e) (allFit_exprs es)

theorem allFit_optExpr (e : Option Expr) {a : Check.Around} (h : Check.optExpr a e = true) :
    AllFit ((functions true).ofOption e) := by
  cases e with
  | none => exact .nil
  | some e => exact allFit_expr e h

/-- The key of a member. -/
theorem allFit_key (k : Key) {a : Check.Around} (h : Check.key a k = true) :
    AllFit ((functions true).ofKey k) := by
  cases k with
  | computed e => exact allFit_expr e h
  | ident _ | string _ | number _ | bigint _ | privateName _ => exact .nil

/-- The members of an object literal, with its methods. -/
theorem allFit_properties (ps : List Property) {a : Check.Around}
    (h : Check.properties a ps = true) : AllFit ((functions true).ofProperties ps) := by
  match ps with
  | [] => exact .nil
  | .field k e _ :: ps =>
    exact .both h (.both · (allFit_key k) (allFit_expr e)) (allFit_properties ps)
  | .method _ k f :: ps =>
    replace h := Bool.and_eq_true_iff.mp h
    simp only [Bool.and_eq_true] at h
    exact ((allFit_key k h.1.1.1).append (allFit_func f h.1.2)).append (allFit_properties ps h.2)
  | .spread e :: ps => exact .both h (allFit_expr e) (allFit_properties ps)

/-- **A function**: its own body fits, and so do those inside. -/
theorem allFit_func (f : Func) {a : Check.Around} {role : FunctionRole}
    (h : Check.func a f = true) : AllFit ((functions true).ofFunc role f) := by
  cases f with
  | mk name isAsync isGenerator thisParam span ps rest type b =>
    replace h := Bool.and_eq_true_iff.mp h
    simp only [Bool.and_eq_true] at h
    obtain ⟨⟨⟨⟨-, hfits⟩, hps⟩, hrest⟩, hb⟩ := h
    refine AllFit.append ?_ ?_
    · exact (allFit_params ps hps).append ((allFit_optPattern rest hrest).append (allFit_body b hb))
    · intro p hp
      obtain rfl := List.mem_singleton.mp hp
      rw [← Check.bodyFits_eq]
      exact hfits

/-- The body of a function, where `return` and `super` may be valid that were not before. -/
theorem allFit_body (b : Body) {a : Check.Around} (h : Check.body a b = true) :
    AllFit ((functions true).ofBody false b) := by
  cases b with
  | absent => exact .nil
  | expr e => exact allFit_expr e h
  | block _ xs => exact allFit_stmts xs h

/-- Parameters, with their decorators. -/
theorem allFit_params (ps : List Param) {a : Check.Around} (h : Check.params a ps = true) :
    AllFit ((functions true).ofParams ps) := by
  match ps with
  | [] => exact .nil
  | .mk ds p :: ps =>
    exact .both h (.both · (allFit_exprs ds) (allFit_pattern p)) (allFit_params ps)

/-- A pattern, with its defaults. -/
theorem allFit_pattern (p : Pattern) {a : Check.Around} (h : Check.pattern a p = true) :
    AllFit ((functions true).ofPattern p) := by
  cases p with
  | bind _ | hole => exact .nil
  | target e => exact .second h (allFit_expr e)
  | object ps rest => exact .both h (allFit_patternProperties ps) (allFit_optPattern rest)
  | array ps rest => exact .both h (allFit_patterns ps) (allFit_optPattern rest)
  | withDefault p e => exact .both h (allFit_pattern p) (allFit_expr e)
  | typed p _ _ => exact allFit_pattern p h

theorem allFit_patterns (ps : List Pattern) {a : Check.Around} (h : Check.patterns a ps = true) :
    AllFit ((functions true).ofPatterns ps) := by
  cases ps with
  | nil => exact .nil
  | cons p ps => exact .both h (allFit_pattern p) (allFit_patterns ps)

theorem allFit_optPattern (p : Option Pattern) {a : Check.Around}
    (h : Check.optPattern a p = true) : AllFit ((functions true).ofRest p) := by
  cases p with
  | none => exact .nil
  | some p => exact allFit_pattern p h

theorem allFit_patternProperties (ps : List PatternProperty) {a : Check.Around}
    (h : Check.patternProperties a ps = true) :
    AllFit ((functions true).ofPatternProperties ps) := by
  match ps with
  | [] => exact .nil
  | .mk k p _ :: ps =>
    replace h := Bool.and_eq_true_iff.mp h
    simp only [Bool.and_eq_true] at h
    exact (allFit_key k h.1.1).append
      ((allFit_pattern p h.1.2).append (allFit_patternProperties ps h.2))

/-- **The functions of a valid statement fit.** -/
theorem allFit_stmt (x : Stmt) {a : Check.Around} (h : Check.stmt a x = true) :
    AllFit ((functions true).ofStmt x) := by
  cases x with
  | expr e => exact allFit_expr e h
  | varDecl _ ds => exact allFit_declarators ds h
  | function f => exact allFit_func f h
  | classDecl k => exact allFit_cls k h
  | «return» e => exact allFit_optExpr e h
  | throw e => exact allFit_expr e h
  | «if» t x y =>
    replace h := Bool.and_eq_true_iff.mp h
    simp only [Bool.and_eq_true] at h
    exact (allFit_expr t h.1.1.1).append ((allFit_stmt x h.1.2).append (allFit_optStmt y h.2))
  | «for» init t u x =>
    replace h := Bool.and_eq_true_iff.mp h
    simp only [Bool.and_eq_true] at h
    obtain ⟨⟨⟨⟨⟨-, hinit⟩, ht⟩, hu⟩, -⟩, hx⟩ := h
    exact (allFit_forHead init hinit).append
      ((allFit_optExpr t ht).append ((allFit_optExpr u hu).append (allFit_stmt x hx)))
  | forIn left r x | forOf _ left r x =>
    replace h := Bool.and_eq_true_iff.mp h
    simp only [Bool.and_eq_true] at h
    obtain ⟨⟨⟨⟨-, hleft⟩, hr⟩, -⟩, hx⟩ := h
    exact (allFit_forHead left hleft).append ((allFit_expr r hr).append (allFit_stmt x hx))
  | «while» t x =>
    replace h := Bool.and_eq_true_iff.mp h
    simp only [Bool.and_eq_true] at h
    exact (allFit_expr t h.1.1).append (allFit_stmt x h.2)
  | doWhile x t => exact .both h (.second · (allFit_stmt x)) (allFit_expr t)
  | block xs => exact .second h (allFit_stmts xs)
  | switch d cases => exact .both h (.second · (allFit_expr d)) (allFit_switchCases cases)
  | «try» xs handler finalizer =>
    replace h := Bool.and_eq_true_iff.mp h
    simp only [Bool.and_eq_true] at h
    exact (allFit_stmts xs h.1.1.2).append
      ((allFit_optCatch handler h.1.2).append (allFit_optBlock finalizer h.2))
  | «break» _ | «continue» _ | empty | debugger | «import» _ _ | exportNamed _ _
  | exportAll _ _ => exact .nil
  | labeled _ x => exact .second h (allFit_stmt x)
  | exportDecl x => exact allFit_stmt x h
  | exportDefaultFunction f => exact allFit_func f h
  | exportDefaultClass k => exact allFit_cls k h
  | exportDefault e => exact allFit_expr e h

/-- Several statements. -/
theorem allFit_stmts (xs : List Stmt) {a : Check.Around} (h : Check.stmts a xs = true) :
    AllFit ((functions true).ofStmts xs) := by
  cases xs with
  | nil => exact .nil
  | cons x xs => exact .both h (allFit_stmt x) (allFit_stmts xs)

theorem allFit_optStmt (x : Option Stmt) {a : Check.Around} (h : Check.optStmt a x = true) :
    AllFit ((functions true).ofAlternate x) := by
  cases x with
  | none => exact .nil
  | some x => exact .second h (allFit_stmt x)

theorem allFit_optBlock (xs : Option (List Stmt)) {a : Check.Around}
    (h : Check.optBlock a xs = true) : AllFit ((functions true).ofFinalizer xs) := by
  cases xs with
  | none => exact .nil
  | some xs => exact .second h (allFit_stmts xs)

/-- A handler. -/
theorem allFit_optCatch (handler : Option Catch) {a : Check.Around}
    (h : Check.optCatch a handler = true) : AllFit ((functions true).ofHandler handler) := by
  match handler with
  | none => exact .nil
  | some (.mk param xs) =>
    replace h := Bool.and_eq_true_iff.mp h
    simp only [Bool.and_eq_true] at h
    exact (allFit_optPattern param h.1.1.2).append (allFit_stmts xs h.2)

theorem allFit_declarators (ds : List Declarator) {a : Check.Around}
    (h : Check.declarators a ds = true) : AllFit ((functions true).ofDeclarators ds) := by
  match ds with
  | [] => exact .nil
  | .mk p e :: ds =>
    replace h := Bool.and_eq_true_iff.mp h
    simp only [Bool.and_eq_true] at h
    exact (allFit_pattern p h.1.1).append
      ((allFit_optExpr e h.1.2).append (allFit_declarators ds h.2))

/-- The head of a loop. -/
theorem allFit_forHead (head : ForHead) {a : Check.Around} (h : Check.forHead a head = true) :
    AllFit ((functions true).ofHead head) := by
  cases head with
  | absent => exact .nil
  | decl _ ds => exact allFit_declarators ds h
  | expr e => exact allFit_expr e h
  | target p => exact allFit_pattern p h

theorem allFit_switchCases (cases : List SwitchCase) {a : Check.Around}
    (h : Check.switchCases a cases = true) : AllFit ((functions true).ofCases cases) := by
  match cases with
  | [] => exact .nil
  | .mk t xs :: cases =>
    replace h := Bool.and_eq_true_iff.mp h
    simp only [Bool.and_eq_true] at h
    exact (allFit_optExpr t h.1.1).append
      ((allFit_stmts xs h.1.2).append (allFit_switchCases cases h.2))

/-- A class, valid with or without a base. -/
theorem allFit_cls (k : Class) {a : Check.Around} (h : Check.cls a k = true) :
    AllFit ((functions true).ofClass k) := by
  cases k with
  | mk name ds base ms =>
    replace h := Bool.and_eq_true_iff.mp h
    simp only [Bool.and_eq_true] at h
    obtain ⟨⟨⟨-, hds⟩, hbase⟩, hms⟩ := h
    exact (allFit_exprs ds hds).append ((allFit_optExpr base hbase).append (allFit_members ms hms))

/-- The members of a class: whether there is a base decides about calls in its constructor only. -/
theorem allFit_members (ms : List Member) {a : Check.Around} {isDerived : Bool}
    (h : Check.members a isDerived ms = true) : AllFit ((functions true).ofMembers ms) := by
  match ms with
  | [] => exact .nil
  | .method ds _ _ k f :: ms =>
    replace h := Bool.and_eq_true_iff.mp h
    simp only [Bool.and_eq_true] at h
    obtain ⟨⟨⟨⟨hds, hk⟩, -⟩, hf⟩, hms⟩ := h
    exact (allFit_exprs ds hds).append
      ((allFit_key k hk).append ((allFit_func f hf).append (allFit_members ms hms)))
  | .field ds _ k _ _ value :: ms =>
    replace h := Bool.and_eq_true_iff.mp h
    simp only [Bool.and_eq_true] at h
    obtain ⟨⟨⟨hds, hk⟩, hvalue⟩, hms⟩ := h
    exact (allFit_exprs ds hds).append
      ((allFit_key k hk).append ((allFit_optExpr value hvalue).append (allFit_members ms hms)))
  | .staticBlock xs :: ms => exact .both h (.second · (allFit_stmts xs)) (allFit_members ms)

/-- An element. -/
theorem allFit_element (e : Element) {a : Check.Around} (h : Check.element a e = true) :
    AllFit ((functions true).ofElement e) := by
  cases e with
  | mk _ _ _ as cs _ => exact .both h (allFit_attrs as) (allFit_children cs)

/-- Attributes. -/
theorem allFit_attrs (as : List Attr) {a : Check.Around} (h : Check.attrs a as = true) :
    AllFit ((functions true).ofAttrs as) := by
  match as with
  | [] => exact .nil
  | .named _ _ value :: as => exact .both h (allFit_attrValue value) (allFit_attrs as)
  | .spread _ e :: as => exact .both h (allFit_expr e) (allFit_attrs as)

theorem allFit_attrValue (value : AttrValue) {a : Check.Around}
    (h : Check.attrValue a value = true) : AllFit ((functions true).ofAttrValue value) := by
  match value with
  | .absent | .string _ | .container _ none => exact .nil
  | .container _ (some e) => exact allFit_expr e h
  | .element e => exact allFit_element e h
  | .fragment _ cs => exact allFit_children cs h

/-- Children. -/
theorem allFit_children (cs : List Child) {a : Check.Around} (h : Check.children a cs = true) :
    AllFit ((functions true).ofChildren cs) := by
  match cs with
  | [] => exact .nil
  | .text _ :: cs => exact allFit_children cs h
  | .element e :: cs => exact .both h (allFit_element e) (allFit_children cs)
  | .fragment _ inner :: cs => exact .both h (allFit_children inner) (allFit_children cs)
  | .container e :: cs => exact .both h (allFit_optExpr e) (allFit_children cs)
  | .spread e :: cs => exact .both h (allFit_expr e) (allFit_children cs)

end

/-- **Every function of a valid module fits.** -/
theorem Module.fits_of_isValid {m : Module} (h : m.isValid = true) :
    ∀ p ∈ m.functions true, p.2.declared.fits = true := by
  simp only [isValid, Bool.and_eq_true] at h
  exact allFit_stmts m.stmts h.2

end JsxDialect
