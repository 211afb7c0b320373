import JsxDialect.Compile
import JsxDialect.Proofs.Walk

/-!
# Places of a compiled module

A compiled module has, from top to bottom, the imports that were asked for, the declarations of the
header, and what the walk has made of the module. `Discipline.compile` says what a discipline gives
for the last part; the first two have nothing in them but names. What is queued on a method becomes
the first statements of its body.
-/

namespace JsxDialect

namespace Site

theorem ofStmts_append (xs ys : List Stmt) : ofStmts (xs ++ ys) = ofStmts xs ++ ofStmts ys := by
  induction xs with
  | nil => rfl
  | cons x xs ih => exact (congrArg (ofStmt x ++ ·) ih).trans (List.append_assoc _ _ _).symm

theorem mem_ofStmts {xs : List Stmt} {p : Site} : p ∈ ofStmts xs ↔ ∃ x ∈ xs, p ∈ ofStmt x := by
  induction xs with
  | nil =>
    exact ⟨fun hp => absurd hp List.not_mem_nil, fun ⟨_, hx, _⟩ => absurd hx List.not_mem_nil⟩
  | cons x xs ih =>
    have hcons : p ∈ ofStmts (x :: xs) ↔ p ∈ ofStmt x ∨ p ∈ ofStmts xs := List.mem_append
    rw [hcons, ih]
    simp only [List.mem_cons, exists_eq_or_imp]

/-- A place of a compiled module is the binding of an import, or in a declaration of the header, or
in what the walk has made of the module. -/
theorem mem_ofStmts_finish {h : Header} {m : Module} {p : Site}
    (hp : p ∈ ofStmts (h.finish m).stmts) :
    (∃ x, p = binding x) ∨ (∃ d ∈ h.declarations, p ∈ ofStmt d) ∨ p ∈ ofStmts m.stmts := by
  simp only [Header.finish, ofStmts_append, List.mem_append] at hp
  rcases hp with (hp | hp) | hp
  · obtain ⟨d, hd, hp⟩ := mem_ofStmts.mp hp
    obtain ⟨r, -, rfl⟩ := List.mem_map.mp hd
    obtain ⟨item, -, rfl⟩ := List.mem_map.mp hp
    exact .inl ⟨_, rfl⟩
  · exact .inr (.inl (mem_ofStmts.mp hp))
  · exact .inr (.inr hp)

/-- A place in the body of a function is in one of its statements, under a layer that tells the
statements before it. -/
theorem mem_ofBodyStmts {isMethod : Bool} {all before xs : List Stmt} {p : Site}
    (hp : p ∈ ofBodyStmts isMethod all before xs) :
    ∃ pre x post q, xs = pre ++ x :: post ∧ q ∈ ofStmt x
      ∧ p = q.around [bodyLayer (.body isMethod (before ++ pre) x) all] := by
  induction xs generalizing before with
  | nil => exact absurd hp List.not_mem_nil
  | cons x xs ih =>
    rcases List.mem_append.mp hp with hp | hp
    · obtain ⟨q, hq, rfl⟩ := List.mem_map.mp hp
      exact ⟨[], x, xs, q, rfl, hq, by rw [List.append_nil]⟩
    · obtain ⟨pre, y, post, q, rfl, hq, rfl⟩ := ih hp
      refine ⟨x :: pre, y, post, q, rfl, hq, ?_⟩
      rw [List.append_assoc, List.singleton_append]

end Site

/-! ## What is queued -/

namespace Lift

theorem mem_initializer {span : Span} {slot : String} {kind : Kind} {e : Expr} {p : Site}
    (hp : p ∈ Site.ofStmt (initializer span slot kind e)) :
    p = Site.reference slot ∨ p ∈ Site.ofExpr e := by
  have hp : p ∈ [Site.reference slot] ++ ([Site.reference slot]
      ++ Site.ofExpr (initial span kind e)) := hp
  simp only [List.mem_append, List.mem_singleton] at hp
  rcases hp with hp | hp | hp
  · exact .inl hp
  · exact .inl hp
  · cases kind with
    | handler => exact .inr hp
    | object => exact absurd hp List.not_mem_nil

theorem mem_replacement {span : Span} {slot : String} {kind : Kind} {e : Expr} {p : Site}
    (hp : p ∈ Site.ofExpr (replacement span slot kind e)) :
    p = Site.reference slot ∨ p = Site.reference "Object" ∨ p ∈ Site.ofExpr e := by
  cases kind with
  | handler => exact .inl (List.mem_singleton.mp hp)
  | object =>
    have hp : p ∈ [Site.reference "Object"]
        ++ ([Site.reference slot] ++ (Site.ofExpr e ++ [])) := hp
    simp only [List.mem_append, List.mem_singleton, List.append_nil] at hp
    rcases hp with hp | hp | hp
    · exact .inr (.inl hp)
    · exact .inl hp
    · exact .inr (.inr hp)

end Lift

/-! ## Declarations of the header -/

/-- Whether a place binds a name, or refers to one that does not look like the names that are
made. -/
def Site.isPlainName (p : Site) : Bool :=
  match p.part with
  | .binding _ => true
  | .reference name => !decide (Header.IsMarked name)
  | .element _ => false

/-- Whether the declarations of a header have nothing in them but such names. -/
def Header.DeclaresNames (h : Header) : Prop :=
  ∀ d ∈ h.declarations, ∀ p ∈ Site.ofStmt d, p.isPlainName = true

theorem Helper.isPlainName_function (f : Helper) (name : String) :
    ∀ p ∈ Site.ofStmt (f.function name), p.isPlainName = true := by
  have hall : (Site.ofStmt (f.function name)).all Site.isPlainName = true := by
    cases f <;> rfl
  exact List.all_eq_true.mp hall

namespace Header.DeclaresNames

variable {h : Header}

theorem once (hd : h.DeclaresNames) (key hint : String) {declare : String → Option Stmt}
    (hdeclare : ∀ name d, declare name = some d → ∀ p ∈ Site.ofStmt d, p.isPlainName = true) :
    (h.once key hint declare).2.DeclaresNames := by
  unfold Header.once
  split
  · exact hd
  · intro d hd'
    rcases List.mem_append.mp hd' with hd' | hd'
    · exact hd d hd'
    · exact hdeclare _ d (Option.mem_toList.mp hd')

theorem addImport (hd : h.DeclaresNames) (module : String) (exported : Option String)
    (hint : String) : (h.addImport module exported hint).2.DeclaresNames := by
  unfold Header.addImport
  split
  · exact hd
  · exact hd

theorem paramName (hd : h.DeclaresNames) (hint : String) : (h.paramName hint).2.DeclaresNames :=
  hd.once _ _ fun _ _ hnone => by cases hnone

theorem slot (hd : h.DeclaresNames) (hint : String) : (h.slot hint).2.DeclaresNames := by
  intro d hd'
  rcases List.mem_append.mp hd' with hd' | hd'
  · exact hd d hd'
  · obtain rfl := List.mem_singleton.mp hd'
    intro p hp
    rcases List.mem_cons.mp hp with rfl | hp
    · rfl
    · obtain rfl := List.mem_singleton.mp hp
      rfl

/-- Requests for names that can be referred to everywhere keep it so. -/
theorem global (hd : h.DeclaresNames) {r : Request} (hr : r.IsGlobal) :
    (r.ask h).2.DeclaresNames := by
  cases r with
  | fresh _ | param _ | «import» _ _ _ | once _ _ _ | slot _ => exact hr.elim
  | descriptor d => exact hd.addImport _ _ _
  | helper package f =>
    cases package with
    | none =>
      refine hd.once _ _ fun name d hsome => ?_
      obtain rfl := Option.some.inj hsome
      exact f.isPlainName_function name
    | some _ => exact hd.addImport _ _ _
  | throttle =>
    refine hd.once _ _ fun name d hsome => ?_
    obtain rfl := Option.some.inj hsome
    intro p hp
    obtain rfl := List.mem_singleton.mp hp
    rfl

end Header.DeclaresNames

/-- The header that compiling a module ends with. -/
def Module.header (options : Options) (m : Module) : Header :=
  (Walk.stmts m.stmts ⟨options, m.stmts.filterMap Stmt.defaultName⟩ (Lowering.initial m)).2.header

/-- **Compiling keeps to the discipline**, if the discipline holds at the start. -/
theorem Discipline.compile {m : Module} {o : Options} (D : Discipline o)
    (hinv : D.Inv (Header.ofModule m) []) (hsource : D.FromSource (Site.ofStmts m.stmts)) :
    ∃ stmts, (m.compile o).module = (m.header o).finish { m with stmts }
      ∧ D.Inv (m.header o) [] ∧ ∀ p ∈ Site.ofStmts stmts, D.Ok (m.header o) [] [] p := by
  have hstart : Discipline.At (c := ⟨o, m.stmts.filterMap Stmt.defaultName⟩) D
      (Lowering.initial m) := ⟨Scopes.ordered_empty, fun f hf => absurd hf List.not_mem_nil, hinv⟩
  obtain ⟨hat, hleads, hall⟩ := Discipline.walks_stmts m.stmts hsource _ hstart
  have hframes := List.forall₂_nil_left_iff.mp hleads.frames
  have hinv' := hat.inv
  rw [Discipline.All, hframes] at hall
  rw [hframes] at hinv'
  exact ⟨_, rfl, hinv', hall⟩

end JsxDialect
