import JsxDialect.Check.Tree
import JsxDialect.Proofs.Declared

/-!
# What functions declare

Whether the body of a function fits its parameters depends on a few lists of names, which are
gathered here as `Declared`. The walk keeps them: a function declares after it what it declared
before, but for the parameters that a constructor is given (`declared_walked`). What is queued on
the function goes before its statements and declares nothing.
-/

namespace JsxDialect

/-- The directives of a body. -/
def Body.directives : Body → List String
  | .block directives _ => directives
  | _ => []

/-- What a function declares: whether its parameters are names alone, whether it has the directive
for strict code, its parameters, what its statements declare by `let`, `const` or as a class, the
functions among its statements, and its variables. -/
structure Declared where
  isSimple : Bool
  isStrict : Bool
  params : List String
  own : List String
  functions : List String
  vars : List String
deriving Repr, DecidableEq

/-- What a function declares. -/
def Func.declared (f : Func) : Declared where
  isSimple := Check.isSimple f.params f.rest
  isStrict := f.body.directives.contains "use strict"
  params := f.params.flatMap (·.pattern.allNames) ++ restAllNames f.rest
  own := f.body.stmts.flatMap Check.ownNames
  functions := f.body.stmts.flatMap Check.functionNames
  vars := Check.varAllNames f.body.stmts

namespace Declared

/-- Whether nothing is declared twice that may not be. -/
def fits (d : Declared) : Bool :=
  (d.isSimple || !d.isStrict)
    && (Check.distinct d.own && Check.distinct d.params && Check.disjoint d.own d.params
      && Check.disjoint d.own d.functions && Check.disjoint d.own d.vars)

/-- Whether something is declared twice that may not be, or a function has the name of a
parameter. -/
def clashes (d : Declared) : Bool :=
  !d.fits || !Check.disjoint d.params d.functions

/-- The same with further parameters in front. -/
def give (names : List String) (d : Declared) : Declared :=
  { d with params := names ++ d.params }

end Declared

namespace Check

theorem distinct_iff {ns : List String} : distinct ns = true ↔ ns.Nodup := by
  induction ns with
  | nil => simp [distinct]
  | cons n ns ih => simp [distinct, ih]

theorem disjoint_iff {xs ys : List String} : disjoint xs ys = true ↔ ∀ x ∈ xs, x ∉ ys := by
  simp [disjoint]

/-- **Whether the body of a function fits** depends on what the function declares. -/
theorem bodyFits_eq (f : Func) : bodyFits f.params f.rest f.body = f.declared.fits := by
  cases hbody : f.body with
  | absent | expr _ =>
    simp [bodyFits, Declared.fits, Func.declared, hbody, Body.directives, Body.stmts, distinct,
      disjoint]
  | block directives stmts =>
    simp [bodyFits, bodyDistinct, Declared.fits, Func.declared, hbody, Body.directives, Body.stmts]

end Check

/-! ## The walk -/

namespace Walk

variable (c : LoweringSetting)

mutual

theorem pattern_allNames (p : Pattern) (s : Lowering) :
    (pattern p c s).1.allNames = p.allNames := by
  cases p with
  | bind _ | target _ | hole => rfl
  | object ps rest =>
    exact congrArg₂ (· ++ ·) (patternProperties_allNames ps s) (optPattern_allNames rest _)
  | array ps rest => exact congrArg₂ (· ++ ·) (patterns_allNames ps s) (optPattern_allNames rest _)
  | withDefault p e | typed p optional t => exact pattern_allNames p s

theorem patterns_allNames (ps : List Pattern) (s : Lowering) :
    patternsAllNames (patterns ps c s).1 = patternsAllNames ps := by
  cases ps with
  | nil => rfl
  | cons p ps => exact congrArg₂ (· ++ ·) (pattern_allNames p s) (patterns_allNames ps _)

theorem optPattern_allNames (p : Option Pattern) (s : Lowering) :
    restAllNames (optPattern p c s).1 = restAllNames p := by
  cases p with
  | none => rfl
  | some p => exact pattern_allNames p s

theorem patternProperties_allNames (ps : List PatternProperty) (s : Lowering) :
    propertyAllNames (patternProperties ps c s).1 = propertyAllNames ps := by
  match ps with
  | [] => rfl
  | .mk k p shorthand :: ps =>
    exact congrArg₂ (· ++ ·) (pattern_allNames p _) (patternProperties_allNames ps _)

end

theorem params_allNames (ps : List Param) (s : Lowering) :
    (params ps c s).1.flatMap (·.pattern.allNames) = ps.flatMap (·.pattern.allNames) := by
  induction ps generalizing s with
  | nil => rfl
  | cons p ps ih =>
    cases p with
    | mk decorators p => exact congrArg₂ (· ++ ·) (pattern_allNames c p _) (ih _)

/-- Parameters that are names alone stay so, and no others become such. -/
theorem isSimple_walked (ps : List Param) (rest : Option Pattern) (s t : Lowering) :
    Check.isSimple (params ps c s).1 (optPattern rest c t).1 = Check.isSimple ps rest := by
  have hrest : (optPattern rest c t).1.isNone = rest.isNone := by
    cases rest <;> rfl
  unfold Check.isSimple
  rw [hrest]
  congr 1
  induction ps generalizing s with
  | nil => rfl
  | cons p ps ih =>
    cases p with
    | mk decorators p =>
      refine congrArg₂ (· && ·) ?_ (ih _)
      cases p with
      | typed p optional t => cases p <;> rfl
      | _ => rfl

theorem stmt_ownNames (x : Stmt) (s : Lowering) :
    Check.ownNames (stmt x c s).1 = Check.ownNames x := by
  cases x with
  | varDecl kind ds =>
    change (if kind == .var then [] else Check.allDeclared (declarators ds c s).1)
      = if kind == .var then [] else Check.allDeclared ds
    rw [Check.allDeclared, declarators_patterns (pattern_allNames c), Check.allDeclared]
  | classDecl k => exact congrArg Option.toList (cls_name c _ k s)
  | _ => rfl

theorem stmt_functionNames (x : Stmt) (s : Lowering) :
    Check.functionNames (stmt x c s).1 = Check.functionNames x := by
  cases x with
  | function f => exact congrArg Option.toList (func_name c _ _ _ f s)
  | _ => rfl

theorem flatMap_stmts {g : Stmt → List String} (hg : ∀ x s, g (stmt x c s).1 = g x)
    (xs : List Stmt) (s : Lowering) : (stmts xs c s).1.flatMap g = xs.flatMap g := by
  induction xs generalizing s with
  | nil => rfl
  | cons x xs ih => exact congrArg₂ (· ++ ·) (hg x s) (ih _)

/-- The statements of a constructor that is given parameters: a call of the base constructor, which
is put in place of another one, declares nothing. -/
theorem flatMap_forwarding {g : Stmt → List String} (hg : ∀ x s, g (stmt x c s).1 = g x)
    (hexpr : ∀ e, g (.expr e) = []) (xs : List Stmt) (s : Lowering) :
    (forwarding xs c s).1.flatMap g = xs.flatMap g := by
  induction xs generalizing s with
  | nil => rfl
  | cons x xs ih =>
    rw [forwarding]
    cases hcall : forward? x with
    | none => exact congrArg₂ (· ++ ·) (hg x s) (ih _)
    | some call =>
      have hx : g x = g call := by
        unfold forward? at hcall
        split at hcall
        · obtain rfl := Option.some.inj hcall
          rw [hexpr, ComponentClass.forwardedCall, hexpr]
        · cases hcall
      exact congrArg₂ (· ++ ·) hx.symm (ih s)

/-- The statements that the body of a function has after the walk. -/
theorem body_stmts (givesParams : Bool) {b : Body} {g : Stmt → List String}
    (hg : ∀ x s, g (stmt x c s).1 = g x) (hexpr : ∀ e, g (.expr e) = []) (s : Lowering) :
    (body givesParams b c s).1.stmts.flatMap g = b.stmts.flatMap g := by
  cases b with
  | absent | expr _ => rfl
  | block directives xs =>
    cases givesParams with
    | true => exact flatMap_forwarding c hg hexpr xs s
    | false => exact flatMap_stmts c hg xs s

theorem body_directives (givesParams : Bool) (b : Body) (s : Lowering) :
    (body givesParams b c s).1.directives = b.directives := by
  cases b with
  | absent | expr _ => rfl
  | block directives xs => cases givesParams <;> rfl

end Walk

theorem varPatterns_eq_flatMap (xs : List Stmt) : varPatterns xs = xs.flatMap Stmt.varPatterns := by
  induction xs with
  | nil => rfl
  | cons x xs ih => rw [varPatterns, ih, List.flatMap_cons]

theorem Check.varAllNames_eq (xs : List Stmt) :
    varAllNames xs = xs.flatMap fun x => x.varPatterns.flatMap Pattern.allNames := by
  rw [varAllNames, varPatterns_eq_flatMap, List.flatMap_assoc]

/-- Statements put before those of a body add nothing, if nothing is read off them. -/
theorem Body.flatMap_prepend {g : Stmt → List String} {queued : List Stmt} {b : Body}
    (h : ∀ x ∈ queued, g x = []) : (b.prepend queued).stmts.flatMap g = b.stmts.flatMap g := by
  cases b with
  | absent | expr _ => rfl
  | block directives own =>
    have hqueued : queued.flatMap g = [] := List.flatMap_eq_nil_iff.mpr h
    rw [prepend, stmts, List.flatMap_append, hqueued, List.nil_append, stmts]

theorem Body.directives_prepend (queued : List Stmt) (b : Body) :
    (b.prepend queued).directives = b.directives := by
  cases b <;> rfl

theorem allNames_given (names : List String) :
    (names.map Build.param).flatMap (·.pattern.allNames) = names := by
  induction names with
  | nil => rfl
  | cons n ns ih => exact congrArg (n :: ·) ih

theorem isSimple_given (names : List String) (ps : List Param) (rest : Option Pattern) :
    Check.isSimple (names.map Build.param ++ ps) rest = Check.isSimple ps rest := by
  induction names with
  | nil => rfl
  | cons n ns ih => exact ih

/-- **What a function declares after the walk**, if it is given parameters and statements that are
expressions. -/
theorem Walk.declared_walked (c : LoweringSetting) (f : Func) (givesParams : Bool)
    (given : List String) {queued : List Stmt} (hqueued : ∀ x ∈ queued, ∃ e, x = .expr e)
    (s t u : Lowering) {name : Option String} {isAsync isGenerator : Bool}
    {thisParam : Option ThisParam} {span : Span} {type : Option TypeExpr} :
    (Func.mk name isAsync isGenerator thisParam span
      (given.map Build.param ++ (params f.params c s).1) (optPattern f.rest c t).1 type
      ((body givesParams f.body c u).1.prepend queued)).declared
      = f.declared.give given := by
  have hnothing : ∀ {g : Stmt → List String}, (∀ e, g (.expr e) = []) → ∀ x ∈ queued, g x = [] := by
    intro g hexpr x hx
    obtain ⟨e, rfl⟩ := hqueued x hx
    exact hexpr e
  -- Whatever a statement declares is kept by the walk, and queued expressions declare nothing.
  have hstmts : ∀ {g : Stmt → List String}, (∀ x s, g (stmt x c s).1 = g x) →
      (∀ e, g (.expr e) = []) →
      ((body givesParams f.body c u).1.prepend queued).stmts.flatMap g = f.body.stmts.flatMap g :=
    fun hg hexpr => (Body.flatMap_prepend (hnothing hexpr)).trans (body_stmts c _ hg hexpr u)
  rw [Func.declared, Func.declared, Declared.give, Declared.mk.injEq]
  refine ⟨?_, ?_, ?_, ?_, ?_, ?_⟩
  · exact (isSimple_given _ _ _).trans (isSimple_walked c _ _ s t)
  · exact congrArg (List.contains · "use strict")
      ((Body.directives_prepend _ _).trans (body_directives c _ _ u))
  · change (given.map Build.param ++ (params f.params c s).1).flatMap _
      ++ restAllNames (optPattern f.rest c t).1 = _
    rw [List.flatMap_append, allNames_given, params_allNames, optPattern_allNames,
      List.append_assoc]
  · exact hstmts (stmt_ownNames c) fun _ => rfl
  · exact hstmts (stmt_functionNames c) fun _ => rfl
  · rw [Check.varAllNames_eq, Check.varAllNames_eq]
    exact hstmts (stmt_varPatterns (pattern_allNames c)) fun _ => rfl

end JsxDialect
