import JsxDialect.Proofs.Slots

/-!
# Reading slots

Where a slot that holds a handler can be read. A place is judged while it is built. `Ready` says
what has to hold of the open scopes for a slot to be read at a place that is in no function yet, and
`Reached` what has to hold of the layers once the method is closed: the slot has been filled in the
body of the method, before the statement that the place is in, and no name that the handler refers
to is listed in the layers in between. What is queued on a method has to be right by the same
measure, each statement after those before it.
-/

namespace JsxDialect

/-! ## Statements that fill slots -/

section Fill

variable {h h' : Header} {x : String} {P P' : String → Prop} {stmts stmts' : List Stmt}

/-- **Statements that fill a slot with a handler.** What the handler refers to is no parameter of a
generated function, and what the search for free names finds of it is as stated. -/
def Fills (h : Header) (x : String) (P : String → Prop) (stmts : List Stmt) : Prop :=
  ∃ span v, Lift.initializer span x .handler v ∈ stmts ∧ (∃ inside f, v.inner = .arrow inside f)
    ∧ ∀ y ∈ v.openNames, h.Knows y ∧ ¬h.IsParam y ∧ (y ∈ v.freeNames → P y)

theorem Fills.imp (hf : Fills h x P stmts) (hext : h.Extends h') (hsub : stmts ⊆ stmts')
    (hP : ∀ y, ¬h.IsParam y → P y → P' y) : Fills h' x P' stmts' := by
  obtain ⟨span, v, hmem, harrow, hnames⟩ := hf
  refine ⟨span, v, hsub hmem, harrow, fun y hy => ?_⟩
  obtain ⟨hknows, hparam, hy'⟩ := hnames y hy
  refine ⟨hext.knows hknows, fun hp => hparam ((hext.param hknows).mp hp), fun hfree => ?_⟩
  exact hP y hparam (hy' hfree)

end Fill

/-! ## Places that read slots -/

section Reached

variable {o : Options} {h h' : Header} {x : String} {inner L L' : List Layer} {l : Layer}
variable {R R' : String → List Layer → Prop} {p : Site}

/-- **The layer of a method lets a slot be read** in the layers `inner` in it: in the statement that
fills the slot, or after it if what the handler refers to is not listed in between. Among the
parameters nothing has been filled, but slots are read there nevertheless. -/
def Layer.Lets (h : Header) (x : String) (inner : List Layer) (l : Layer) : Prop :=
  l.kind = .params true ∨ ∃ before current, l.kind = .body true before current
    ∧ ((inner = [] ∧ ∃ span v, current = Lift.initializer span x .handler v)
      ∨ Fills h x (fun y => ∀ k ∈ inner, y ∉ k.listed) before)

theorem Layer.Lets.mono (hl : l.Lets h x inner) (hext : h.Extends h') : l.Lets h' x inner := by
  rcases hl with hparams | ⟨before, current, hkind, hfill⟩
  · exact .inl hparams
  · refine .inr ⟨before, current, hkind, hfill.imp id fun hf => ?_⟩
    exact hf.imp hext (List.Subset.refl _) fun _ _ => id

/-- A slot can be read under layers: the innermost function is a method that lets it be read, or
there is no function yet and `R` holds. -/
def Reached (h : Header) (R : String → List Layer → Prop) (x : String) (L : List Layer) : Prop :=
  (∃ inner l outer, L = inner ++ l :: outer ∧ (∀ k ∈ inner, k.kind.isFunction = false)
    ∧ l.Lets h x inner)
  ∨ ((∀ k ∈ L, k.kind.isFunction = false) ∧ R x L)

/-- Under more layers. Only a place that is in no function yet sees them. -/
theorem Reached.append (hr : Reached h R x L)
    (hopen : (∀ k ∈ L, k.kind.isFunction = false) → R x L → Reached h R' x (L ++ L')) :
    Reached h R' x (L ++ L') := by
  rcases hr with ⟨inner, l, outer, rfl, hinner, hl⟩ | ⟨hL, hR⟩
  · exact .inl ⟨inner, l, outer ++ L', by simp, hinner, hl⟩
  · exact hopen hL hR

theorem Reached.mono (hr : Reached h R x L) (hext : h.Extends h') (hR : R x L → R' x L) :
    Reached h' R' x L := by
  rcases hr with ⟨inner, l, outer, hL, hinner, hl⟩ | ⟨hL, hopen⟩
  · exact .inl ⟨inner, l, outer, hL, hinner, hl.mono hext⟩
  · exact .inr ⟨hL, hR hopen⟩

/-- **A right place**: no control flow is left to lower; parameters of generated functions are bound
where they are referred to; and slots are read where they can be. -/
structure Site.IsRight (o : Options) (h : Header) (R : String → List Layer → Prop) (p : Site) :
    Prop where
  element : ∀ e, p.part = .element e → o.controlFlow = true → e.control? = none
  knows : ∀ x, p.part = .reference x → h.Knows x
  param : ∀ x, p.part = .reference x → h.IsParam x → ∃ l ∈ p.layers, x ∈ l.declared
  handler : ∀ x, p.part = .reference x → h.IsHandler x → Reached h R x p.layers

namespace Site

theorem isRight_reference (hknows : h.Knows x)
    (hparam : h.IsParam x → ∃ l ∈ L, x ∈ l.declared) (hhandler : h.IsHandler x → Reached h R x L) :
    IsRight o h R ⟨L, .reference x⟩ := by
  refine ⟨fun e he => ?_, fun y hy => ?_, fun y hy => ?_, fun y hy => ?_⟩
  · cases he
  · cases hy
    exact hknows
  · cases hy
    exact hparam
  · cases hy
    exact hhandler

theorem IsRight.around (hp : p.IsRight o h R)
    (hopen : ∀ x, (∀ k ∈ p.layers, k.kind.isFunction = false) → R x p.layers →
      Reached h R' x (p.layers ++ L')) : (p.around L').IsRight o h R' := by
  refine ⟨hp.element, hp.knows, fun x hx hparam => ?_, fun x hx hhandler => ?_⟩
  · obtain ⟨l, hl, hdeclared⟩ := hp.param x hx hparam
    exact ⟨l, List.mem_append_left _ hl, hdeclared⟩
  · exact (hp.handler x hx hhandler).append (hopen x)

theorem IsRight.mono (hp : p.IsRight o h R) (hext : h.Extends h')
    (hR : ∀ x, R x p.layers → R' x p.layers) : p.IsRight o h' R' := by
  refine ⟨hp.element, fun x hx => hext.knows (hp.knows x hx), fun x hx hparam => ?_,
    fun x hx hhandler => ?_⟩
  · exact hp.param x hx ((hext.param (hp.knows x hx)).mp hparam)
  · exact (hp.handler x hx ((hext.handler (hp.knows x hx)).mp hhandler)).mono hext (hR x)

end Site

end Reached

/-! ## Open scopes -/

section Ready

/-- **The open scopes let a slot be read**: the innermost one of a function is that of a method,
what is queued there fills the slot, and what the handler refers to is bound by no scope up to it,
nor listed in the layers that the place has, nor among the names it is still to be put under. -/
inductive Ready (h : Header) (x : String) (L : List Layer) :
    List (Frame Stmt) → List String → Prop where
  | here {f : Frame Stmt} {fs : List (Frame Stmt)} {N : List String} : f.kind = .function true →
    Fills h x (fun y => y ∉ N ∧ ∀ k ∈ L, y ∉ k.listed) f.queued → Ready h x L (f :: fs) N
  | there {f : Frame Stmt} {fs : List (Frame Stmt)} {N : List String} :
    f.kind.isFunction = false → Ready h x L fs (f.names ++ N) → Ready h x L (f :: fs) N

variable {h h' : Header} {x : String} {L : List Layer} {l : Layer}
variable {f : Frame Stmt} {inner outer fs fs' : List (Frame Stmt)} {N N' : List String}

theorem Ready.mono (hr : Ready h x L fs N) (hext : h.Extends h') (hgrows : GrowsAll fs fs') :
    Ready h' x L fs' N := by
  induction hr generalizing fs' with
  | here hkind hfills =>
    obtain ⟨g, gs, rfl, hg, -⟩ := hgrows.cons_inv
    exact .here (hg.kind.trans hkind) (hfills.imp hext hg.queued.subset fun _ _ => id)
  | there hkind _ ih =>
    obtain ⟨g, gs, rfl, hg, hgs⟩ := hgrows.cons_inv
    refine .there (by rw [hg.kind, hkind]) ?_
    rw [hg.names]
    exact ih hgs

theorem Ready.subset (hr : Ready h x L fs N) (hN : N' ⊆ N) : Ready h x L fs N' := by
  induction hr generalizing N' with
  | here hkind hfills =>
    refine .here hkind (hfills.imp (.refl h) (List.Subset.refl _) fun y _ hy => ?_)
    exact ⟨fun hmem => hy.1 (hN hmem), hy.2⟩
  | there hkind _ ih =>
    refine .there hkind (ih ?_)
    exact List.append_subset.mpr
      ⟨List.subset_append_left _ _, List.Subset.trans hN (List.subset_append_right _ _)⟩

/-- Under a layer that lists only names that the place was to be put under, and parameters. -/
theorem Ready.layer (hr : Ready h x L fs N) (hl : ∀ y ∈ l.listed, y ∈ N ∨ h.IsParam y) :
    Ready h x (L ++ [l]) fs N := by
  induction hr with
  | here hkind hfills =>
    refine .here hkind (hfills.imp (.refl h) (List.Subset.refl _) fun y hparam hy => ?_)
    refine ⟨hy.1, fun k hk => ?_⟩
    rcases List.mem_append.mp hk with hk | hk
    · exact hy.2 k hk
    · obtain rfl := List.mem_singleton.mp hk
      intro hlisted
      rcases hl y hlisted with hmem | hmem
      · exact hy.1 hmem
      · exact hparam hmem
  | there hkind _ ih =>
    exact .there hkind (ih fun y hy => (hl y hy).imp (List.mem_append_right _) id)

/-- Where a function is the innermost scope, it is a method that fills the slot. -/
theorem Ready.head {isMethod : Bool} (hr : Ready h x L (f :: fs) N)
    (hkind : f.kind = .function isMethod) :
    isMethod = true ∧ Fills h x (fun y => ∀ k ∈ L, y ∉ k.listed) f.queued := by
  cases hr with
  | here hmethod hfills =>
    rw [hkind, ScopeKind.function.injEq] at hmethod
    exact ⟨hmethod, hfills.imp (.refl h) (List.Subset.refl _) fun _ _ hy => hy.2⟩
  | there hplain _ =>
    rw [hkind] at hplain
    cases hplain

theorem Ready.close (hr : Ready h x L (f :: fs) N) (hkind : f.kind.isFunction = false) :
    Ready h x L fs (f.names ++ N) := by
  cases hr with
  | here hmethod _ =>
    rw [hmethod] at hkind
    cases hkind
  | there _ hrest => exact hrest

/-- The same with more scopes in the function. -/
theorem Ready.owner (hr : Ready h x L (inner ++ f :: outer) N)
    (hinner : ∀ g ∈ inner, g.kind.isFunction = false) (hkind : f.kind = .function true) :
    Fills h x (fun y => ∀ k ∈ L, y ∉ k.listed) f.queued := by
  induction inner generalizing N with
  | nil => exact (hr.head hkind).2
  | cons g inner ih =>
    have hg := hinner g List.mem_cons_self
    exact ih (hr.close hg) fun k hk => hinner k (List.mem_cons_of_mem _ hk)

/-- A slot that a method fills can be read in the scopes in it. -/
theorem ready_of_fills (hinner : ∀ g ∈ inner, g.kind.isFunction = false)
    (hkind : f.kind = .function true)
    (hfills : Fills h x (fun y => y ∉ N ∧ ∀ g ∈ inner, y ∉ g.names) f.queued) :
    Ready h x [] (inner ++ f :: outer) N := by
  induction inner generalizing N with
  | nil =>
    refine .here hkind (hfills.imp (.refl h) (List.Subset.refl _) fun y _ hy => ?_)
    exact ⟨hy.1, fun k hk => absurd hk List.not_mem_nil⟩
  | cons g inner ih =>
    refine .there (hinner g List.mem_cons_self)
      (ih (fun k hk => hinner k (List.mem_cons_of_mem _ hk)) ?_)
    refine hfills.imp (.refl h) (List.Subset.refl _) fun y _ hy => ⟨fun hmem => ?_, fun k hk => ?_⟩
    · rcases List.mem_append.mp hmem with hmem | hmem
      · exact hy.2 g List.mem_cons_self hmem
      · exact hy.1 hmem
    · exact hy.2 k (List.mem_cons_of_mem _ hk)

end Ready

/-! ## Queues -/

section Queue

variable {o : Options} {h h' : Header} {queue : List Stmt} {s : Stmt}

/-- **A right queue**: every statement of it has right places after those before it. -/
def QueueOk (o : Options) (h : Header) (queue : List Stmt) : Prop :=
  ∀ before s after, queue = before ++ s :: after → ∀ all, ∀ p ∈ Site.ofStmt s,
    (p.around [Site.bodyLayer (.body true before s) all]).IsRight o h fun _ _ => False

theorem QueueOk.mono (hq : QueueOk o h queue) (hext : h.Extends h') : QueueOk o h' queue := by
  intro before s after heq all p hp
  exact (hq before s after heq all p hp).mono hext fun _ => id

theorem QueueOk.snoc (hq : QueueOk o h queue) (hs : ∀ all, ∀ p ∈ Site.ofStmt s,
      (p.around [Site.bodyLayer (.body true queue s) all]).IsRight o h fun _ _ => False) :
    QueueOk o h (queue ++ [s]) := by
  intro before s' after heq
  rcases List.eq_nil_or_concat after with rfl | ⟨after, last, rfl⟩
  · obtain ⟨rfl, hlast⟩ := List.append_inj' heq rfl
    obtain rfl := List.singleton_inj.mp hlast
    exact hs
  · rw [List.concat_eq_append, ← List.cons_append, ← List.append_assoc] at heq
    obtain ⟨rfl, -⟩ := List.append_inj' heq rfl
    exact hq before s' after rfl

end Queue

end JsxDialect
