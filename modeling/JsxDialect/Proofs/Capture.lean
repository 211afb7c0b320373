import JsxDialect.Proofs.Lists
import JsxDialect.Proofs.Reading

/-!
# What kept handlers refer to

A handler that is kept on the instance is made at the top of the body of a method and read where it
stood in the source. That changes nothing as long as its names and `this` mean the same at both
places and it is made before it is read. `Module.compile_handler_meansSame_iff` says for every place
that reads a kept handler when that is so: exactly where the scope records and the search for free
names agree with the scopes of the language, `this` is not that of a field or a static block, and
the place is not among the parameters of the method.

The records do disagree with the language: the rest of a pattern, the own name of a class and what a
static block declares are in no record, and the search for free names misses some. So a handler may
be kept that refers to something else at the top of the method; `restCapture` is such a module.
-/

namespace JsxDialect

/-! ## The discipline -/

section Discipline

variable {o : Options} {used : List String} {h : Header} {fs : List (Frame Stmt)} {x : String}
variable {p : Site} {l : Layer} {R R' : String → List Layer → Prop}

/-- A place that is in no function yet is put into one. -/
theorem Site.IsRight.enter (hp : p.IsRight o h R) (hl : ∀ x, R x p.layers → l.Lets h x p.layers) :
    (p.around [l]).IsRight o h R' :=
  hp.around fun x hlayers hR => .inl ⟨p.layers, l, [], rfl, hlayers, hl x hR⟩

/-- The header and the queues are as they should be. -/
structure SlotsOk (o : Options) (used : List String) (h : Header) (fs : List (Frame Stmt)) :
    Prop where
  records : ∃ log, Header.Records used log h
  declares : h.DeclaresNames
  queues : ∀ f ∈ fs, QueueOk o h f.queued

theorem SlotsOk.ask (hs : SlotsOk o used h fs) {r : Request}
    (hdeclares : (r.ask h).2.DeclaresNames)
    (hslots : ∀ x, (r.ask h).2.IsHandler x
      ↔ h.IsHandler x ∨ (r = .slot "handler" ∧ x = (r.ask h).1)) :
    SlotsOk o used (r.ask h).2 fs ∧ h.Extends (r.ask h).2
      ∧ ∃ log, Header.Records used log (r.ask h).2 ∧ (r, (r.ask h).1) ∈ log := by
  obtain ⟨log, hlog⟩ := hs.records
  obtain ⟨hlog', hext⟩ := hlog.ask hslots
  refine ⟨⟨⟨_, hlog'⟩, hdeclares, fun f hf => (hs.queues f hf).mono hext⟩, hext, _, hlog', ?_⟩
  exact List.mem_append_right _ (List.mem_singleton.mpr rfl)

/-- The keys of helpers are not those of parameters. -/
theorem Request.IsGlobal.memo? {r : Request} (hr : r.IsGlobal) :
    ∃ k, r.memo? = some k ∧ ∀ hint, k ≠ .key ("param:" ++ hint) := by
  have hkey : ∀ (key : String), key.toList.take 6 ≠ "param:".toList → ∀ hint,
      Memo.key key ≠ .key ("param:" ++ hint) := by
    intro key hne hint heq
    rw [Memo.key.injEq] at heq
    rw [heq, String.toList_append] at hne
    exact hne (List.take_left' rfl)
  cases r with
  | fresh _ | param _ | «import» _ _ _ | once _ _ _ | slot _ => exact hr.elim
  | descriptor d => exact ⟨_, rfl, fun _ heq => by cases heq⟩
  | helper package f =>
    cases package with
    | none => exact ⟨_, rfl, hkey _ (by cases f <;> decide)⟩
    | some _ => exact ⟨_, rfl, fun _ heq => by cases heq⟩
  | throttle => exact ⟨_, rfl, hkey _ (by decide)⟩

theorem SlotsOk.askGlobal (hs : SlotsOk o used h fs) {r : Request} (hr : r.IsGlobal) :
    SlotsOk o used (r.ask h).2 fs ∧ h.Extends (r.ask h).2
      ∧ ((r.ask h).2.Knows (r.ask h).1 ∧ ¬(r.ask h).2.IsParam (r.ask h).1
        ∧ ¬(r.ask h).2.IsHandler (r.ask h).1)
      ∧ isDialectTag (r.ask h).1 = false := by
  obtain ⟨k, hk, hparam⟩ := hr.memo?
  obtain ⟨hs', hext, log, hlog, hmem⟩ := hs.ask (hs.declares.global hr) fun x => by
    rw [Header.isHandler_global hr, iff_self_or]
    rintro ⟨rfl, -⟩
    exact hr.elim
  refine ⟨hs', hext, ⟨hlog.knows hmem, hlog.not_isParam hmem fun hint hk' => ?_,
    hlog.not_isHandler hmem hk⟩, isDialectTag_of_isMarked (hlog.marked _ hmem)⟩
  exact hparam hint (Option.some.inj (hk.symm.trans hk'))

theorem SlotsOk.askParam (hs : SlotsOk o used h fs) (hint : String) :
    SlotsOk o used (h.paramName hint).2 fs ∧ h.Extends (h.paramName hint).2
      ∧ (h.paramName hint).2.Knows (h.paramName hint).1
      ∧ (h.paramName hint).2.IsParam (h.paramName hint).1
      ∧ ¬(h.paramName hint).2.IsHandler (h.paramName hint).1 := by
  obtain ⟨hs', hext, log, hlog, hmem⟩ := hs.ask (r := .param hint) (hs.declares.paramName hint)
    fun x => by
      rw [Request.ask, Header.isHandler_paramName, iff_self_or]
      rintro ⟨hr, -⟩
      cases hr
  refine ⟨hs', hext, hlog.knows hmem, ⟨hint, ?_⟩, hlog.not_isHandler hmem rfl⟩
  exact (hlog.lookup _ _).mpr ⟨_, hmem, rfl⟩

theorem SlotsOk.askSlot (hs : SlotsOk o used h fs) (kind : Lift.Kind) :
    SlotsOk o used (h.slot kind.hint).2 fs ∧ h.Extends (h.slot kind.hint).2
      ∧ (h.slot kind.hint).2.Knows (h.slot kind.hint).1
      ∧ ¬(h.slot kind.hint).2.IsParam (h.slot kind.hint).1
      ∧ ((h.slot kind.hint).2.IsHandler (h.slot kind.hint).1 → kind = .handler) := by
  obtain ⟨log₀, hlog₀⟩ := hs.records
  obtain ⟨hs', hext, log, hlog, hmem⟩ := hs.ask (r := .slot kind.hint) (hs.declares.slot kind.hint)
    fun x => by
      rw [Request.ask, Header.isHandler_slot, Request.slot.injEq]
  refine ⟨hs', hext, hlog.knows hmem, hlog.not_isParam hmem fun hint hk => ?_, fun hhandler => ?_⟩
  · cases hk
  · rcases (Header.isHandler_slot kind.hint).mp hhandler with hold | ⟨hhint, -⟩
    · exact absurd (hlog₀.knows (hlog₀.handler _ hold)) (Header.not_knows_freshName h kind.hint)
    · cases kind with
      | handler => rfl
      | object => exact absurd hhint (by decide)

theorem Lift.exists_arrow {e : Expr} (hkind : Lift.kind? o e = some .handler) :
    ∃ inside f, e.inner = .arrow inside f := by
  unfold Lift.kind? at hkind
  split at hkind
  · rename_i inside f hinner
    exact ⟨inside, f, hinner⟩
  · split at hkind <;> cases hkind
  · cases hkind

theorem Site.reference_of_free? {y : String} (hfree : p.free? = some y) :
    p.part = .reference y ∧ ∀ l ∈ p.layers, y ∉ l.declared := by
  unfold Site.free? at hfree
  split at hfree
  · rename_i name hpart
    split at hfree
    · cases hfree
    · rename_i hnone
      obtain rfl := Option.some.inj hfree
      simp only [List.any_eq_true, List.contains_iff_mem, not_exists, not_and] at hnone
      exact ⟨hpart, hnone⟩
  · cases hfree

/-- The names that are free in an expression with right places. -/
theorem knows_of_mem_openNames {e : Expr} (he : ∀ p ∈ Site.ofExpr e, p.IsRight o h R) {y : String}
    (hy : y ∈ e.openNames) : h.Knows y ∧ ¬h.IsParam y := by
  obtain ⟨p, hp, hfree⟩ := List.mem_filterMap.mp hy
  obtain ⟨hpart, hlayers⟩ := Site.reference_of_free? hfree
  refine ⟨(he p hp).knows y hpart, fun hparam => ?_⟩
  obtain ⟨l, hl, hdeclared⟩ := (he p hp).param y hpart hparam
  exact hlayers l hl hdeclared

section Lift

variable {inner outer : List (Frame Stmt)} {f : Frame Stmt} {e : Expr} {kind : Lift.Kind}

/-- The statement that fills a slot has right places after what has been queued before. -/
theorem isRight_initializer (span : Span) (hs : SlotsOk o used h (inner ++ f :: outer))
    (hinner : ∀ g ∈ inner, g.kind.isFunction = false) (hf : f.kind = .function true)
    (he : ∀ p ∈ Site.ofExpr e, p.IsRight o h fun x L => Ready h x L (inner ++ f :: outer) [])
    (all : List Stmt) :
    ∀ p ∈ Site.ofStmt (Lift.initializer span (h.slot kind.hint).1 kind e),
      (p.around [Site.bodyLayer (.body true f.queued
        (Lift.initializer span (h.slot kind.hint).1 kind e)) all]).IsRight o (h.slot kind.hint).2
          fun _ _ => False := by
  obtain ⟨-, hext, hknows, hparam, hhandler⟩ := hs.askSlot kind
  intro p hp
  rcases Lift.mem_initializer hp with rfl | hp
  · -- The slot itself, in the statement that fills it.
    refine Site.isRight_reference hknows (fun hp => absurd hp hparam) fun hh => ?_
    obtain rfl := hhandler hh
    exact .inl ⟨[], _, [], rfl, fun k hk => absurd hk List.not_mem_nil,
      .inr ⟨_, _, rfl, .inl ⟨rfl, span, e, rfl⟩⟩⟩
  · have hentered : (p.around [Site.bodyLayer (.body true f.queued
        (Lift.initializer span (h.slot kind.hint).1 kind e)) all]).IsRight o h fun _ _ => False :=
      (he p hp).enter fun x hready => .inr ⟨_, _, rfl, .inr (hready.owner hinner hf)⟩
    exact hentered.mono hext fun _ => id

/-- **Keeping a value.** -/
theorem SlotsOk.lift (span : Span) (hkind : Lift.kind? o e = some kind)
    (hs : SlotsOk o used h (inner ++ f :: outer))
    (hinner : ∀ g ∈ inner, g.kind.isFunction = false) (hf : f.kind = .function true)
    (he : ∀ p ∈ Site.ofExpr e, p.IsRight o h fun x L => Ready h x L (inner ++ f :: outer) [])
    (hfree : ∀ x ∈ e.freeNames, ∀ g ∈ inner, x ∉ g.names) :
    SlotsOk o used (h.slot kind.hint).2 (inner ++ { f with queued := f.queued
        ++ [Lift.initializer span (h.slot kind.hint).1 kind e] } :: outer)
      ∧ h.Extends (h.slot kind.hint).2
      ∧ ∀ p ∈ Site.ofExpr (Lift.replacement span (h.slot kind.hint).1 kind e),
        p.IsRight o (h.slot kind.hint).2 fun x L => Ready (h.slot kind.hint).2 x L
          (inner ++ { f with queued := f.queued
            ++ [Lift.initializer span (h.slot kind.hint).1 kind e] } :: outer) [] := by
  obtain ⟨hs', hext, hknows, hparam, hhandler⟩ := hs.askSlot kind
  have hgrows := GrowsAll.queue inner outer f
    (Lift.initializer span (h.slot kind.hint).1 kind e)
  refine ⟨⟨hs'.records, hs'.declares, fun g hg => ?_⟩, hext, fun p hp => ?_⟩
  · rcases List.mem_append.mp hg with hg | hg
    · exact hs'.queues g (List.mem_append_left _ hg)
    · rcases List.mem_cons.mp hg with rfl | hg
      · have hqueue := hs'.queues f (List.mem_append_right _ List.mem_cons_self)
        exact hqueue.snoc (isRight_initializer span hs hinner hf he)
      · exact hs'.queues g (List.mem_append_right _ (List.mem_cons_of_mem _ hg))
  · rcases Lift.mem_replacement hp with rfl | rfl | hp
    · -- The slot is read after the statement that fills it has been queued.
      refine Site.isRight_reference hknows (fun hp => absurd hp hparam) fun hh => ?_
      obtain rfl := hhandler hh
      refine .inr ⟨fun k hk => absurd hk List.not_mem_nil, ready_of_fills hinner hf ?_⟩
      refine ⟨span, e, List.mem_append_right _ (List.mem_singleton.mpr rfl),
        Lift.exists_arrow hkind, fun y hy => ?_⟩
      obtain ⟨hknown, hnot⟩ := knows_of_mem_openNames he hy
      refine ⟨hext.knows hknown, fun hp => hnot ((hext.param hknown).mp hp), fun hy' => ?_⟩
      exact ⟨List.not_mem_nil, hfree y hy'⟩
    · obtain ⟨log, hlog⟩ := hs'.records
      obtain ⟨hknown, hnot, hplain⟩ := hlog.plain (x := "Object") (.inr (by decide))
      exact Site.isRight_reference hknown (fun hp => absurd hp hnot) fun hh => absurd hh hplain
    · exact (he p hp).mono hext fun _ hready => hready.mono hext hgrows

end Lift

/-- Statements of a body after what was queued on its function. -/
theorem isRight_body {f : Frame Stmt} {isMethod : Bool} {all stmts : List Stmt}
    (hkind : f.kind = .function isMethod) (hqueue : QueueOk o h f.queued)
    (hidle : isMethod = false → f.queued = [])
    (hstmts : ∀ p ∈ Site.ofStmts stmts, p.IsRight o h fun x L => Ready h x L (f :: fs) []) :
    ∀ p ∈ Site.ofBodyStmts isMethod all [] (f.queued ++ stmts), p.IsRight o h R := by
  intro p hp
  obtain ⟨before, s, after, q, hsplit, hq, rfl⟩ := Site.mem_ofBodyStmts hp
  rw [List.nil_append]
  rcases split_append hsplit with ⟨pre, rfl, hs⟩ | ⟨rest, hqueued⟩
  · -- A statement of the body itself stands after everything that was queued.
    refine (hstmts q (Site.mem_ofStmts.mpr ⟨s, hs, hq⟩)).enter fun x hready => ?_
    obtain ⟨rfl, hfills⟩ := hready.head hkind
    refine .inr ⟨_, _, rfl, .inr (hfills.imp (.refl h) ?_ fun _ _ => id)⟩
    exact List.subset_append_left _ _
  · -- A statement that was queued has been judged when it was.
    obtain rfl : isMethod = true := by
      cases isMethod with
      | true => rfl
      | false => simp [hidle rfl] at hqueued
    exact (hqueue before s rest hqueued all q hq).mono (.refl h) fun _ => False.elim

/-- **The discipline of keeping handlers**: every place is right, and so is what is queued. -/
def captureSafe (o : Options) (used : List String) : Discipline o where
  Inv h fs := SlotsOk o used h fs
  Extends h h' := h.Extends h'
  Ok h fs N p := p.IsRight o h fun x L => Ready h x L fs N
  Global h x := h.Knows x ∧ ¬h.IsParam x ∧ ¬h.IsHandler x
  Param h x := h.Knows x ∧ h.IsParam x ∧ ¬h.IsHandler x
  Source x := x ∈ used
  Loose := False
  extends_refl := .refl
  extends_trans := .trans
  global_mono hext hx := ⟨hext.knows hx.1, fun hp => hx.2.1 ((hext.param hx.1).mp hp),
    fun hh => hx.2.2 ((hext.handler hx.1).mp hh)⟩
  param_mono hext hx := ⟨hext.knows hx.1, (hext.param hx.1).mpr hx.2.1,
    fun hh => hx.2.2 ((hext.handler hx.1).mp hh)⟩
  ok_mono hext hgrows hp := hp.mono hext fun _ hready => hready.mono hext hgrows
  ok_subset hN hp := hp.mono (.refl _) fun _ hready => hready.subset hN
  ok_loose hloose _ := hloose.elim
  ok_global hx := Site.isRight_reference hx.1 (fun hp => absurd hp hx.2.1)
    fun hh => absurd hh hx.2.2
  ok_param hx hl hdeclared := Site.isRight_reference hx.1 (fun _ => ⟨_, hl, hdeclared⟩)
    fun hh => absurd hh hx.2.2
  ok_binding := by
    refine ⟨fun e he => ?_, fun x hx => ?_, fun x hx => ?_, fun x hx => ?_⟩
    · cases he
    all_goals cases hx
  ok_element := by
    intro h fs N e
    refine ⟨fun hp => hp.element e rfl, fun hplain => ?_⟩
    refine ⟨fun e' he' => ?_, fun x hx => ?_, fun x hx => ?_, fun x hx => ?_⟩
    · cases he'
      exact hplain
    all_goals cases hx
  ok_layer := by
    intro h fs N p l hkind hlisted hp
    refine hp.around fun x hlayers hready => .inr ⟨fun k hk => ?_, ?_⟩
    · rcases List.mem_append.mp hk with hk | hk
      · exact hlayers k hk
      · obtain rfl := List.mem_singleton.mp hk
        exact hkind
    · rcases hlisted with hloose | hlisted
      · exact hloose.elim
      · exact hready.layer fun y hy => (hlisted y hy).imp id fun hparam => hparam.2.1
  ok_outer := by
    rintro h fs N N' p L ⟨l, hl, hfunction⟩ hp
    refine hp.around fun x hlayers _ => ?_
    rw [hlayers l hl] at hfunction
    cases hfunction
  source_global hs hx := by
    obtain ⟨log, hlog⟩ := hs.records
    exact hlog.plain (.inl hx)
  unmarked_global hs hx := by
    obtain ⟨log, hlog⟩ := hs.records
    exact hlog.plain (.inr hx)
  inv_open hs := by
    refine ⟨hs.records, hs.declares, fun f hf => ?_⟩
    rcases List.mem_cons.mp hf with rfl | hf
    · intro before s after hnil
      exact absurd hnil.symm (List.append_ne_nil_of_right_ne_nil _ (List.cons_ne_nil _ _))
    · exact hs.queues f hf
  inv_close hs := ⟨hs.records, hs.declares, fun f hf => hs.queues f (List.mem_cons_of_mem _ hf)⟩
  ok_close hkind hp := hp.mono (.refl _) fun _ hready => hready.close hkind
  ok_params := by
    intro h f fs N N' p l isMethod hkind hl _ hp
    refine hp.enter fun x hready => .inl ?_
    obtain ⟨rfl, -⟩ := hready.head hkind
    exact hl
  ok_body hkind hs hidle hstmts := isRight_body hkind (hs.queues _ List.mem_cons_self) hidle hstmts
  ask_global hr hs := by
    obtain ⟨hs', hext, hname, htag⟩ := hs.askGlobal hr
    exact ⟨hs', hext, hname, .inr htag⟩
  ask_param hs := hs.askParam _
  lift span _ hkind hs hinner hf he hfree := hs.lift span hkind hinner hf he hfree

end Discipline

/-! ## Names and `this` under layers -/

/-- Whether a layer has the `this` of the layer around it. -/
def LayerKind.isPlain : LayerKind → Bool
  | .plain => true
  | _ => false

namespace Layer

/-- The layers from the one on that declares a name. -/
def resolve (x : String) (L : List Layer) : List Layer :=
  L.dropWhile fun l => !l.declared.contains x

/-- The layers from the one on that `this` belongs to. -/
def ofThis (L : List Layer) : List Layer :=
  L.dropWhile fun l => l.kind.isPlain

end Layer

theorem Layer.resolve_append_iff (x : String) (inner outer : List Layer) :
    resolve x (inner ++ outer) = resolve x outer ↔ ∀ l ∈ inner, x ∉ l.declared := by
  rw [resolve, resolve, dropWhile_append_eq_iff]
  simp only [Bool.not_eq_true', List.contains_eq_mem, decide_eq_false_iff_not]

theorem Layer.ofThis_append_iff (inner outer : List Layer) :
    ofThis (inner ++ outer) = ofThis outer ↔ ∀ l ∈ inner, l.kind.isPlain = true :=
  dropWhile_append_eq_iff _ inner outer

/-! ## Compiled modules -/

/-- **A handler means the same** under the layers `inner` in a body as at the top of the body: its
free names are those of the same declarations, and `this` is the same. -/
structure MeansSame (v : Expr) (inner body : List Layer) : Prop where
  names : ∀ x ∈ v.openNames, Layer.resolve x (inner ++ body) = Layer.resolve x body
  this : Layer.ofThis (inner ++ body) = Layer.ofThis body

/-- **The scope records tell all that matters to a handler**: what it refers to and is declared in
the layers `inner` is listed there and found by the search for free names; and no layer has a `this`
of its own. -/
structure Recorded (v : Expr) (inner : List Layer) : Prop where
  names : ∀ x ∈ v.openNames, ∀ l ∈ inner, x ∈ l.declared → x ∈ l.listed ∧ x ∈ v.freeNames
  this : ∀ l ∈ inner, l.kind ≠ .value

/-- For a handler none of whose names is listed in between, the two are the same. -/
theorem meansSame_iff_recorded {v : Expr} {inner body : List Layer}
    (hinner : ∀ l ∈ inner, l.kind.isFunction = false)
    (hlisted : ∀ x ∈ v.openNames, x ∈ v.freeNames → ∀ l ∈ inner, x ∉ l.listed) :
    MeansSame v inner body ↔ Recorded v inner := by
  -- Without functions in between, only values of fields and static blocks have a `this` of their
  -- own.
  have hplain : ∀ l ∈ inner, (l.kind.isPlain = true ↔ l.kind ≠ .value) := by
    intro l hl
    have hfunction := hinner l hl
    cases hkind : l.kind with
    | plain => exact iff_of_true rfl (fun heq => by cases heq)
    | value => exact iff_of_false (fun heq => by cases heq) (fun hne => hne rfl)
    | params _ | body _ _ _ =>
      rw [hkind] at hfunction
      cases hfunction
  constructor
  · intro hsame
    have hnames := fun x hx => (Layer.resolve_append_iff x inner body).mp (hsame.names x hx)
    have hthis := (Layer.ofThis_append_iff inner body).mp hsame.this
    exact ⟨fun x hx l hl hdeclared => absurd hdeclared (hnames x hx l hl),
      fun l hl => (hplain l hl).mp (hthis l hl)⟩
  · intro hrecorded
    refine ⟨fun x hx => ?_, ?_⟩
    · refine (Layer.resolve_append_iff x inner body).mpr fun l hl hdeclared => ?_
      obtain ⟨hmem, hfree⟩ := hrecorded.names x hx l hl hdeclared
      exact hlisted x hx hfree l hl hmem
    · refine (Layer.ofThis_append_iff inner body).mpr fun l hl => ?_
      exact (hplain l hl).mpr (hrecorded.this l hl)

/-- The slots of a compiled module are read where they can be. -/
theorem Module.reached_handler {m : Module} {o : Options}
    (hplain : ∀ e ∈ m.elements, e.bindsPlainly = true) {slot : String}
    (hslot : slot ∈ (m.header o).handlers) {p : Site}
    (hp : p ∈ Site.ofStmts (m.compile o).module.stmts) (hread : p.part = .reference slot) :
    Reached (m.header o) (fun _ _ => False) slot p.layers := by
  -- The names of the module are taken from the start, so no name that is made is one of them.
  have hsource : (captureSafe o m.usedNames).FromSource (Site.ofStmts m.stmts) := by
    intro q hq
    unfold Discipline.Sourced
    split
    · rename_i x hx
      refine m.mem_usedNames.mpr (List.mem_filterMap.mpr ⟨q, hq, ?_⟩)
      rw [Site.name?, hx]
    · rename_i e he
      refine .inr (hplain e (List.mem_filterMap.mpr ⟨q, hq, ?_⟩))
      rw [Site.element?, he]
    · trivial
  obtain ⟨stmts, hmodule, hinv, hall⟩ := (captureSafe o m.usedNames).compile
    ⟨⟨[], Header.records_ofModule m⟩, fun d hd => absurd hd List.not_mem_nil,
      fun f hf => absurd hf List.not_mem_nil⟩ hsource
  rw [hmodule] at hp
  rcases Site.mem_ofStmts_finish hp with ⟨x, rfl⟩ | ⟨d, hd, hp⟩ | hp
  · cases hread
  · -- Slots look like made names; what the header declares refers to no such name.
    obtain ⟨log, hlog⟩ := hinv.records
    have hmarked := hlog.marked _ (hlog.handler slot hslot)
    have hname := hinv.declares d hd p hp
    rw [Site.isPlainName, hread] at hname
    simp [hmarked] at hname
  · refine ((hall p hp).handler slot hread hslot).mono (.refl _) fun hready => ?_
    cases hready

/-- **When a kept handler means what it meant where it stood.** A slot for a handler is read in a
method: among the parameters, or in the body, and there either in the statement that fills the slot
or after it. In the last case the slot holds a handler that means the same at the place as at the
top of the body, exactly if the scope records tell all that matters to it. -/
theorem Module.compile_handler_meansSame_iff (m : Module) (o : Options)
    (hplain : ∀ e ∈ m.elements, e.bindsPlainly = true) {slot : String}
    (hslot : slot ∈ (m.header o).handlers) {p : Site}
    (hp : p ∈ Site.ofStmts (m.compile o).module.stmts) (hread : p.part = .reference slot) :
    ∃ inner owner outer, p.layers = inner ++ owner :: outer
      ∧ (∀ l ∈ inner, l.kind.isFunction = false)
      ∧ (owner.kind = .params true
        ∨ ∃ before current, owner.kind = .body true before current
          ∧ ((inner = [] ∧ ∃ span v, current = Lift.initializer span slot .handler v)
            ∨ ∃ span v, Lift.initializer span slot .handler v ∈ before
              ∧ (∃ inside f, v.inner = .arrow inside f)
              ∧ (MeansSame v inner (owner :: outer) ↔ Recorded v inner))) := by
  rcases Module.reached_handler hplain hslot hp hread with
    ⟨inner, owner, outer, hlayers, hinner, hlets⟩ | ⟨-, hnever⟩
  · refine ⟨inner, owner, outer, hlayers, hinner, hlets.imp id ?_⟩
    rintro ⟨before, current, hkind, hown | ⟨span, v, hmem, harrow, hnames⟩⟩
    · exact ⟨before, current, hkind, .inl hown⟩
    · refine ⟨before, current, hkind, .inr ⟨span, v, hmem, harrow, ?_⟩⟩
      exact meansSame_iff_recorded hinner fun x hx => (hnames x hx).2.2
  · exact hnever.elim

/-! ## Two modules -/

/-- A class with a method that returns a list, mapped, after some statements. -/
def mappingMethod (before : List Stmt) (item : Pattern) (e : Expr) : Module :=
  let mapper : Func := .mk none false false none .none [.mk [] item] none none (.expr e)
  let list := Build.call .none (Build.member .none (.ident .none "q") "map") [.arrow .none mapper]
  let method : Func := .mk none false false none .none [] none none
    (.block [] (before ++ [.return (some list)]))
  ⟨[], [.classDecl (.mk (some "A") [] none [.method [] false .method (.ident "m") method])]⟩

/-- An element whose attributes are handlers. -/
def handled (tag : String) (handlers : List (String × Expr)) : Expr :=
  .element (.mk .none .none (.reference tag)
    (handlers.map fun (name, e) => Build.attr .none name (Build.arrow .none [] e)) [] false)

/-- `q.map((x) => <I a={() => <J b={() => this} />} c={() => x} />)`: the handlers `b` and `a` are
kept, and `c` is not. -/
def keptHandlers : Module :=
  mappingMethod [] (.bind "x") (handled "I" [("a", handled "J" [("b", .this .none)]),
    ("c", .ident .none "x")])

/-- The slot of `a` is read in the mapper, under the parameter of which `c` is not kept. -/
theorem compile_handler_meansSame_iff_mapper :
    (∀ e ∈ keptHandlers.elements, e.bindsPlainly = true)
      ∧ "_handler2" ∈ (keptHandlers.header {}).handlers
      ∧ ∃ p ∈ Site.ofStmts (keptHandlers.compile {}).module.stmts,
        p.part = .reference "_handler2" ∧ p.layers.map (·.declared) = [["x"], [], [], ["A"]]
          ∧ ∃ inner owner outer, p.layers = inner ++ owner :: outer
            ∧ (∀ l ∈ inner, l.kind.isFunction = false)
            ∧ (owner.kind = .params true
              ∨ ∃ before current, owner.kind = .body true before current
                ∧ ((inner = [] ∧ ∃ span v, current = Lift.initializer span "_handler2" .handler v)
                  ∨ ∃ span v, Lift.initializer span "_handler2" .handler v ∈ before
                    ∧ (∃ inside f, v.inner = .arrow inside f)
                    ∧ (MeansSame v inner (owner :: outer) ↔ Recorded v inner))) := by
  have hplain : ∀ e ∈ keptHandlers.elements, e.bindsPlainly = true := by decide +kernel
  have hslot : "_handler2" ∈ (keptHandlers.header {}).handlers := by decide +kernel
  have hsome : ∃ p ∈ Site.ofStmts (keptHandlers.compile {}).module.stmts,
      p.free? = some "_handler2" ∧ p.layers.map (·.declared) = [["x"], [], [], ["A"]] := by
    decide +kernel
  obtain ⟨p, hp, hfree, hlayers⟩ := hsome
  have hread := (Site.reference_of_free? hfree).1
  exact ⟨hplain, hslot, p, hp, hread, hlayers,
    Module.compile_handler_meansSame_iff keptHandlers {} hplain hslot hp hread⟩

/-- The pattern `{ ...x }`. -/
def restItem : Pattern :=
  .object [] (some (.bind "x"))

/-- `q.map(({ ...x }) => <I a={() => x} />)`: the rest of the pattern is in no scope record. -/
def restCapture : Module :=
  mappingMethod [] restItem (handled "I" [("a", .ident .none "x")])

/-- The statement that fills the slot for `() => x`. -/
def restFilling : Stmt :=
  Lift.initializer .none "_handler" .handler (Build.arrow .none [] (.ident .none "x"))

/-- The class that `restCapture` is compiled to. -/
def restCaptured : Module :=
  mappingMethod [restFilling] restItem (.element (.mk .none .none (.reference "I")
    [Build.attr .none "a" (Build.thisSlot .none "_handler")] [] false))

theorem compile_restCapture : (restCapture.compile {}).module.stmts
    = Build.declare .const "_handler" (Build.call .none (.ident .none "Symbol")
        [.string .none "handler"]) :: restCaptured.stmts :=
  rfl

/-- **A handler that is kept though it must not be**: `x` is bound by the mapper where the handler
stood, and is something else at the top of the method. -/
theorem not_meansSame_restCapture :
    ∃ p ∈ Site.ofStmts (restCapture.compile {}).module.stmts, p.part = .reference "_handler"
      ∧ ∃ inner owner outer before current span v, p.layers = inner ++ owner :: outer
        ∧ owner.kind = .body true before current
        ∧ Lift.initializer span "_handler" .handler v ∈ before
        ∧ ¬MeansSame v inner (owner :: outer) := by
  have hp : (⟨[Site.paramLayer .plain [.mk [] restItem] none,
      Site.bodyLayer (.body true [restFilling] _) _, Site.paramLayer (.params true) [] none,
      Site.ownLayer (some "A")], .reference "_handler"⟩ : Site) ∈ Site.ofStmts restCaptured.stmts :=
    List.mem_of_getElem? (i := 8) rfl
  rw [compile_restCapture]
  refine ⟨_, List.mem_append_right _ hp, rfl, [Site.paramLayer .plain [.mk [] restItem] none], _, _,
    _, _, .none, Build.arrow .none [] (.ident .none "x"), rfl, rfl, List.mem_cons_self, ?_⟩
  intro hsame
  have hx := (Layer.resolve_append_iff "x" _ _).mp (hsame.names "x" (by decide))
  exact hx _ List.mem_cons_self (by decide)

end JsxDialect
