import JsxDialect.Lower.Element
import JsxDialect.Proofs.Frames
import JsxDialect.Proofs.Names
import JsxDialect.Proofs.Site

/-!
# Disciplines of the walk

What holds at every place of a compiled module is proved by one walk. A `Discipline` says what is to
hold: an invariant of the header and of the open scopes, and what makes a place right. A place is
judged while it is still being built, under the scopes that are open, and under names that it will
be put under later (the names that `as` and `for` bind reach the tree only when the element around
them is lowered). Its fields are what the single steps of the walk need; that every step keeps to
the discipline is derived from them here, and for the rules of elements and for the walk itself in
the modules that follow.

`Run` is the judgement about steps: from a state that keeps to the discipline, the step leads to
another one, and its result is as stated.
-/

namespace JsxDialect

/-- The requests for names that can be referred to everywhere. -/
def Request.IsGlobal : Request → Prop
  | .descriptor _ | .helper .. | .throttle => True
  | _ => False

/-- What is to hold of a compilation under the given options. -/
structure Discipline (o : Options) where
  /-- The invariant of the header and the open scopes. -/
  Inv : Header → List (Frame Stmt) → Prop
  /-- How the header develops. -/
  Extends : Header → Header → Prop
  /-- What makes a place right, under the open scopes and the names it is still to be put under. -/
  Ok : Header → List (Frame Stmt) → List String → Site → Prop
  /-- The names that can be referred to everywhere. -/
  Global : Header → String → Prop
  /-- The names of parameters of generated functions. -/
  Param : Header → String → Prop
  /-- The names of the module. -/
  Source : String → Prop
  /-- Whether the names that a place is put under do not matter. -/
  Loose : Prop
  extends_refl : ∀ h, Extends h h
  extends_trans : ∀ {h₁ h₂ h₃}, Extends h₁ h₂ → Extends h₂ h₃ → Extends h₁ h₃
  global_mono : ∀ {h h' x}, Extends h h' → Global h x → Global h' x
  param_mono : ∀ {h h' x}, Extends h h' → Param h x → Param h' x
  ok_mono : ∀ {h h' fs fs' N p}, Extends h h' → GrowsAll fs fs' →
    Ok h fs N p → Ok h' fs' N p
  ok_subset : ∀ {h fs N N' p}, N' ⊆ N → Ok h fs N p → Ok h fs N' p
  ok_loose : ∀ {h fs N N' p}, Loose → Ok h fs N p → Ok h fs N' p
  /-- Global names can stand everywhere. -/
  ok_global : ∀ {h fs N L x}, Global h x → Ok h fs N ⟨L, .reference x⟩
  /-- A parameter can stand where it is declared. -/
  ok_param : ∀ {h fs N L l x}, Param h x → l ∈ L → x ∈ l.declared → Ok h fs N ⟨L, .reference x⟩
  ok_binding : ∀ {h fs N L x}, Ok h fs N ⟨L, .binding x⟩
  /-- An element is right if there is no control flow left to lower in it. -/
  ok_element : ∀ {h fs N e}, Ok h fs N ⟨[], .element e⟩
    ↔ (o.controlFlow = true → e.control? = none)
  /-- A place can be put under a layer, if it was to be put under its names. -/
  ok_layer : ∀ {h fs N p l}, l.kind.isFunction = false →
    (Loose ∨ ∀ x ∈ l.listed, x ∈ N ∨ Param h x) → Ok h fs N p → Ok h fs N (p.around [l])
  /-- A place in a function can be put under any layers. -/
  ok_outer : ∀ {h fs N N' p L}, (∃ l ∈ p.layers, l.kind.isFunction = true) → Ok h fs N p →
    Ok h fs N' (p.around L)
  source_global : ∀ {h fs x}, Inv h fs → Source x → Global h x
  unmarked_global : ∀ {h fs x}, Inv h fs → ¬Header.IsMarked x → Global h x
  inv_open : ∀ {h fs kind names}, Inv h fs → Inv h (⟨kind, names, []⟩ :: fs)
  inv_close : ∀ {h f fs}, Inv h (f :: fs) → Inv h fs
  /-- What was right in a scope is right outside of it, and still to be put under its names. -/
  ok_close : ∀ {h f fs N p}, f.kind.isFunction = false → Ok h (f :: fs) N p →
    Ok h fs (f.names ++ N) p
  /-- What was right in a function can stand among its parameters. -/
  ok_params : ∀ {h f fs N N' p l isMethod}, f.kind = .function isMethod →
    l.kind = .params isMethod → Inv h (f :: fs) → Ok h (f :: fs) N p → Ok h fs N' (p.around [l])
  /-- What was right in a function can stand in its body, after what was queued on it. -/
  ok_body : ∀ {h f fs isMethod all stmts}, f.kind = .function isMethod → Inv h (f :: fs) →
    (isMethod = false → f.queued = []) → (∀ p ∈ Site.ofStmts stmts, Ok h (f :: fs) [] p) →
    ∀ p ∈ Site.ofBodyStmts isMethod all [] (f.queued ++ stmts), Ok h fs [] p
  ask_global : ∀ {h fs} {r : Request}, r.IsGlobal → Inv h fs →
    Inv (r.ask h).2 fs ∧ Extends h (r.ask h).2 ∧ Global (r.ask h).2 (r.ask h).1
      ∧ (Loose ∨ isDialectTag (r.ask h).1 = false)
  ask_param : ∀ {h fs hint}, Inv h fs →
    Inv (h.paramName hint).2 fs ∧ Extends h (h.paramName hint).2
      ∧ Param (h.paramName hint).2 (h.paramName hint).1
  /-- A value whose free names are bound by no scope up to the method can be kept. -/
  lift : ∀ {h inner f outer e} (span kind), Lift.kind? o e = some kind →
    Inv h (inner ++ f :: outer) →
    (∀ g ∈ inner, g.kind.isFunction = false) → f.kind = .function true →
    (∀ p ∈ Site.ofExpr e, Ok h (inner ++ f :: outer) [] p) →
    (∀ x ∈ e.freeNames, ∀ g ∈ inner, x ∉ g.names) →
    Inv (h.slot (Lift.Kind.hint kind)).2
        (inner ++ { f with queued := f.queued
          ++ [Lift.initializer span (h.slot kind.hint).1 kind e] } :: outer)
      ∧ Extends h (h.slot kind.hint).2
      ∧ ∀ p ∈ Site.ofExpr (Lift.replacement span (h.slot kind.hint).1 kind e),
        Ok (h.slot kind.hint).2
          (inner ++ { f with queued := f.queued
            ++ [Lift.initializer span (h.slot kind.hint).1 kind e] } :: outer) [] p

namespace Discipline

variable {c : LoweringSetting} (D : Discipline c.options)

/-- A state that keeps to the discipline. Nothing is queued but on methods. -/
structure At (s : Lowering) : Prop where
  ordered : s.scopes.Ordered
  idle : ∀ f ∈ s.scopes.frames, f.kind ≠ .function true → f.queued = []
  inv : D.Inv s.header s.scopes.frames

/-- The state `t` comes after `s`, with the same scopes open. -/
structure Leads (s t : Lowering) : Prop where
  header : D.Extends s.header t.header
  frames : GrowsAll s.scopes.frames t.scopes.frames

/-- Places that are right in a state. -/
def All (s : Lowering) (N : List String) (ps : List Site) : Prop :=
  ∀ p ∈ ps, D.Ok s.header s.scopes.frames N p

/-- **A step that keeps to the discipline**, with what holds of its result. -/
def Run {α : Type} (s : Lowering) (act : Lower α) (Q : Lowering → α → Prop) : Prop :=
  D.At (act c s).2 ∧ D.Leads s (act c s).2 ∧ Q (act c s).2 (act c s).1

variable {D} {s t u : Lowering} {N N' : List String} {ps qs : List Site}

/-- A state comes after itself. -/
theorem Leads.refl (s : Lowering) : D.Leads s s :=
  ⟨D.extends_refl _, .refl _⟩

/-- What comes after comes after. -/
theorem Leads.trans (hst : D.Leads s t) (htu : D.Leads t u) : D.Leads s u :=
  ⟨D.extends_trans hst.header htu.header, hst.frames.trans htu.frames⟩

/-! ## Right places -/

/-- No places are wrong. -/
theorem All.nil : D.All s N [] :=
  fun _ hp => absurd hp List.not_mem_nil

/-- Right places before others. -/
theorem All.append (hp : D.All s N ps) (hq : D.All s N qs) : D.All s N (ps ++ qs) := by
  intro p h
  rcases List.mem_append.mp h with h | h
  · exact hp p h
  · exact hq p h

/-- The first of right places. -/
theorem All.left (h : D.All s N (ps ++ qs)) : D.All s N ps :=
  fun p hp => h p (List.mem_append_left _ hp)

theorem All.right (h : D.All s N (ps ++ qs)) : D.All s N qs :=
  fun p hp => h p (List.mem_append_right _ hp)

/-- Places stay right as the compilation goes on. -/
theorem All.mono (hl : D.Leads s t) (h : D.All s N ps) : D.All t N ps :=
  fun p hp => D.ok_mono hl.header hl.frames (h p hp)

/-- Places that are right under names are so under fewer. -/
theorem All.subset (hN : N' ⊆ N) (h : D.All s N ps) : D.All s N' ps :=
  fun p hp => D.ok_subset hN (h p hp)

/-- Places can always be put under no names. -/
theorem All.bare (h : D.All s N ps) : D.All s [] ps :=
  h.subset (List.nil_subset N)

/-- Where names do not matter, places are right under any. -/
theorem All.loose (hloose : D.Loose) (h : D.All s N ps) : D.All s N' ps :=
  fun p hp => D.ok_loose hloose (h p hp)

/-- Places under a layer with names that they were to be put under. -/
theorem All.under {l : Layer} (hkind : l.kind.isFunction = false)
    (hl : D.Loose ∨ ∀ x ∈ l.listed, x ∈ N ∨ D.Param s.header x) (h : D.All s N ps) :
    D.All s N (Site.under l ps) := by
  intro p hp
  obtain ⟨q, hq, rfl⟩ := List.mem_map.mp hp
  exact D.ok_layer hkind hl (h q hq)

/-- A name that can be referred to everywhere. -/
theorem All.global {x : String} (hx : D.Global s.header x) : D.All s N [Site.reference x] := by
  intro p hp
  obtain rfl := List.mem_singleton.mp hp
  exact D.ok_global hx

/-- A name that is bound is right anywhere. -/
theorem All.binding (x : String) : D.All s N [Site.binding x] := by
  intro p hp
  obtain rfl := List.mem_singleton.mp hp
  exact D.ok_binding

/-- The name of a function or class is right anywhere. -/
theorem All.ofName (name : Option String) : D.All s N (Site.ofName name) := by
  cases name with
  | none => exact .nil
  | some x => exact .binding x

/-! ## Steps -/

section Steps

variable {α β : Type} {act : Lower α} {Q : Lowering → α → Prop} {R : Lowering → β → Prop}

/-- A value is given without a step. -/
theorem Run.pure {a : α} (hs : D.At s) (h : Q s a) : D.Run s (pure a) Q :=
  ⟨hs, .refl s, h⟩

/-- **One step after another**: the second one starts from a state that comes after. -/
theorem Run.bind {f : α → Lower β} (h : D.Run s act Q)
    (k : ∀ t a, D.At t → D.Leads s t → Q t a → D.Run t (f a) R) : D.Run s (act >>= f) R := by
  obtain ⟨hat, hleads, hq⟩ := h
  obtain ⟨hat', hleads', hr⟩ := k _ _ hat hleads hq
  exact ⟨hat', hleads.trans hleads', hr⟩

theorem Run.map {f : α → β} (h : D.Run s act Q)
    (k : ∀ t a, D.At t → D.Leads s t → Q t a → R t (f a)) :
    D.Run s (act >>= fun a => Pure.pure (f a)) R :=
  h.bind fun t a ht hl hq => .pure ht (k t a ht hl hq)

/-- A weaker result. -/
theorem Run.imp {Q' : Lowering → α → Prop} (h : D.Run s act Q)
    (k : ∀ t a, D.At t → D.Leads s t → Q t a → Q' t a) : D.Run s act Q' :=
  ⟨h.1, h.2.1, k _ _ h.1 h.2.1 h.2.2⟩

theorem Run.options {f : Options → Lower β} (h : D.Run s (f c.options) R) :
    D.Run s (Lower.options >>= f) R :=
  h

theorem Run.get {f : Lowering → Lower β} (h : D.Run s (f s) R) :
    D.Run s (MonadState.get >>= f) R :=
  h

/-- A step that leaves the header and the scopes as they are. -/
theorem Run.aside {act : Lower Unit} (hs : D.At s) (hheader : (act c s).2.header = s.header)
    (hscopes : (act c s).2.scopes = s.scopes) : D.Run s act fun _ _ => True := by
  refine ⟨⟨?_, ?_, ?_⟩, ⟨?_, ?_⟩, trivial⟩
  · rw [hscopes]
    exact hs.ordered
  · rw [hscopes]
    exact hs.idle
  · rw [hscopes, hheader]
    exact hs.inv
  · rw [hheader]
    exact D.extends_refl _
  · rw [hscopes]
    exact .refl _

theorem Run.report (hs : D.At s) (span : Span) (cause : Cause) :
    D.Run s (Lower.report span cause) fun _ _ => True :=
  .aside hs rfl rfl

theorem Run.reportAll (hs : D.At s) (cause : Cause) (spans : List Span) :
    D.Run s (Lower.reportAll cause spans) fun _ _ => True := by
  induction spans generalizing s with
  | nil => exact .pure hs trivial
  | cons span spans ih => exact (Run.report hs span cause).bind fun t _ ht _ _ => ih ht

/-- A request that leaves the scopes as they are. -/
theorem Run.ask {request : Header → String × Header} {P : Header → String → Prop} (hs : D.At s)
    (h : D.Inv (request s.header).2 s.scopes.frames
      ∧ D.Extends s.header (request s.header).2 ∧ P (request s.header).2 (request s.header).1) :
    D.Run s (Lower.ask request) fun t name => P t.header name := by
  obtain ⟨hinv, hextends, hname⟩ := h
  exact ⟨⟨hs.ordered, hs.idle, hinv⟩, ⟨hextends, .refl _⟩, hname⟩

/-- The name of a parameter is given out as one. -/
theorem Run.askParam (hs : D.At s) (hint : String) :
    D.Run s (Lower.ask (·.paramName hint)) fun t name => D.Param t.header name :=
  .ask (P := D.Param) hs (D.ask_param hs.inv)

/-- A global name is given out as one, and is no tag of the dialect. -/
theorem Run.askGlobal (hs : D.At s) {r : Request} (hr : r.IsGlobal) :
    D.Run s (Lower.ask r.ask) fun t name =>
      D.Global t.header name ∧ (D.Loose ∨ isDialectTag name = false) :=
  .ask (P := fun h name => D.Global h name ∧ (D.Loose ∨ isDialectTag name = false)) hs
    (D.ask_global hr hs.inv)

/-- An automatic import is a global name. -/
theorem Run.askDescriptor (hs : D.At s) (d : ImportDescriptor) :
    D.Run s (Lower.ask (·.addDescriptor d)) fun t name =>
      D.Global t.header name ∧ (D.Loose ∨ isDialectTag name = false) :=
  .askGlobal (r := .descriptor d) hs trivial

/-- A helper is one. -/
theorem Run.helper (hs : D.At s) (f : Helper) :
    D.Run s (Lower.helper f) fun t name => D.Global t.header name :=
  .options ((Run.askGlobal (r := .helper c.options.moduleName f) hs trivial).imp
    fun _ _ _ _ h => h.1)

end Steps

/-! ## Scopes -/

section Scopes

variable {kind : ScopeKind} {names : List String}

/-- The state after opening a scope. -/
def opened (s : Lowering) (kind : ScopeKind) (names : List String) : Lowering :=
  { s with scopes := (s.scopes.push kind names).2 }

/-- A scope that is opened leaves the discipline kept. -/
theorem At.opened (hs : D.At s) (kind : ScopeKind) (names : List String) :
    D.At (opened s kind names) := by
  have hframes := Scopes.frames_push hs.ordered kind names
  refine ⟨hs.ordered.push kind names, fun f hf hkind => ?_, ?_⟩
  · rw [Discipline.opened, hframes, List.mem_cons] at hf
    rcases hf with rfl | hf
    · rfl
    · exact hs.idle f hf hkind
  · rw [Discipline.opened, hframes]
    exact D.inv_open hs.inv

/-- The scope opened in the state `s` is the first one in `t`, and `u` is `t` with it closed. -/
structure Closes (D : Discipline c.options) (s t u : Lowering) (f : Frame Stmt)
    (kind : ScopeKind) (names : List String) : Prop where
  frames : t.scopes.frames = f :: u.scopes.frames
  kind_eq : f.kind = kind
  names_eq : f.names = names
  header : u.header = t.header
  before : D.At t
  after : D.At u
  leads : D.Leads s u

/-- **Closing a scope**, from what holds of the scopes without it. -/
theorem closes_of_frames (hs : D.At s) (ht : D.At t) (hl : D.Leads (opened s kind names) t)
    (hheader : u.header = t.header) (hordered : u.scopes.Ordered)
    (hframes : u.scopes.frames = t.scopes.frames.tail) :
    ∃ f, D.Closes s t u f kind names := by
  have hgrows := hl.frames
  rw [opened, Scopes.frames_push hs.ordered kind names] at hgrows
  obtain ⟨f, fs, hfs, hf, hrest⟩ := hgrows.cons_inv
  rw [hfs, List.tail_cons] at hframes
  refine ⟨f, by rw [hfs, hframes], hf.kind, hf.names, hheader, ht, ⟨hordered, ?_, ?_⟩, ?_, ?_⟩
  · intro g hg
    refine ht.idle g ?_
    rw [hfs, ← hframes]
    exact List.mem_cons_of_mem _ hg
  · have hinv := ht.inv
    rw [hfs] at hinv
    rw [hheader, hframes]
    exact D.inv_close hinv
  · rw [hheader]
    exact hl.header
  · rw [hframes]
    exact hrest

/-- The scope that was opened is the first one. -/
theorem exists_frame (hs : D.At s) (hl : D.Leads (opened s kind names) t) :
    ∃ f fs, t.scopes.frames = f :: fs := by
  have hgrows := hl.frames
  rw [opened, Scopes.frames_push hs.ordered kind names] at hgrows
  obtain ⟨f, fs, hfs, -⟩ := hgrows.cons_inv
  exact ⟨f, fs, hfs⟩

/-- **Closing a scope** gives back the scopes that were open before it. -/
theorem closes_closeScope (hs : D.At s) (ht : D.At t) (hl : D.Leads (opened s kind names) t) :
    ∃ f, D.Closes s t (Lower.closeScope c t).2 f kind names := by
  obtain ⟨f, fs, hfs⟩ := exists_frame hs hl
  obtain ⟨v, hclose, hordered, hframes⟩ := Lower.closeScope_eq (c := c) ht.ordered hfs
  rw [hclose]
  exact closes_of_frames hs ht hl rfl hordered (by rw [hfs, List.tail_cons]; exact hframes)

/-- Closing that of a function gives what was queued on it as well. -/
theorem closes_closeFunction (hs : D.At s) (ht : D.At t) (hl : D.Leads (opened s kind names) t) :
    ∃ f, D.Closes s t (Lower.closeFunction c t).2 f kind names
      ∧ (Lower.closeFunction c t).1 = f.queued := by
  obtain ⟨g, fs, hfs⟩ := exists_frame hs hl
  obtain ⟨v, hclose, hordered, hframes⟩ := Lower.closeFunction_eq (c := c) ht.ordered hfs
  rw [hclose]
  obtain ⟨f, hf⟩ := closes_of_frames (u := { t with scopes := v }) hs ht hl rfl hordered
    (by rw [hfs, List.tail_cons]; exact hframes)
  obtain rfl : f = g := (List.cons.inj (hf.frames.symm.trans hfs)).1
  exact ⟨f, hf, rfl⟩

/-- What was right in a scope is right outside of it, to be put under its names. -/
theorem Closes.all {f : Frame Stmt} (h : D.Closes s t u f kind names)
    (hkind : kind.isFunction = false) (hall : D.All t N ps) : D.All u (names ++ N) ps := by
  intro p hp
  have hok := hall p hp
  rw [h.frames] at hok
  rw [h.header, ← h.names_eq]
  exact D.ok_close (h.kind_eq ▸ hkind) hok

/-- **Doing something inside a scope.** -/
theorem Run.inside {α : Type} {act : Lower α} {Q R : Lowering → α → Prop}
    (hs : D.At s) (hkind : kind.isFunction = false) (h : ∀ t, D.At t → D.Run t act Q)
    (k : ∀ t u a, D.At u → D.Leads s u →
      (∀ N ps, D.All t N ps → D.All u (names ++ N) ps) → Q t a → R u a) :
    D.Run s (Lower.inside kind names act) R := by
  obtain ⟨ht, hl, hq⟩ := h _ (hs.opened kind names)
  obtain ⟨f, hf⟩ := closes_closeScope hs ht hl
  exact ⟨hf.after, hf.leads, k _ _ _ hf.after hf.leads (fun _ _ => hf.all hkind) hq⟩

end Scopes

end Discipline

end JsxDialect
