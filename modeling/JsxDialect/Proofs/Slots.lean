import JsxDialect.Proofs.Compiled

/-!
# Parameters and slots among the names of a header

The names that a header gives out are of three kinds: parameters of generated functions, which are
bound where they are used; slots, which hold values that are kept on the instance; and names that
are declared at the top of the module. A header tells them apart. Once a name cannot be made any
more, be it that it is taken or that it does not look like a made name, it keeps its kind.
-/

namespace JsxDialect

/-- The tags of the dialect do not look like names that are made. -/
theorem isDialectTag_of_isMarked {name : String} (h : Header.IsMarked name) :
    isDialectTag name = false := by
  have hcontrol : ControlTag.ofText? name = none := by
    unfold ControlTag.ofText?
    split
    all_goals first | rfl | exact absurd h (by decide)
  have harm : ArmTag.ofText? name = none := by
    unfold ArmTag.ofText?
    split
    all_goals first | rfl | exact absurd h (by decide)
  rw [isDialectTag, hcontrol, harm]
  rfl

namespace Header

/-! ## Kinds of names -/

/-- Whether a name is that of a parameter of generated functions. -/
def IsParam (h : Header) (x : String) : Prop :=
  ∃ hint, h.lookup (.key ("param:" ++ hint)) = some x

/-- The slot for a handler that a statement declares: `const slot = Symbol("handler");`. -/
def handler? : Stmt → Option String
  | .varDecl .const [.mk (.bind x) (some (.call _ (.ident _ callee) [.string _ hint] _))] =>
    if callee = "Symbol" ∧ hint = "handler" then some x else none
  | _ => none

/-- The slots that were made for handlers. -/
def handlers (h : Header) : List String :=
  h.declarations.filterMap handler?

/-- Whether a name is a slot that was made for a handler. -/
def IsHandler (h : Header) (x : String) : Prop :=
  x ∈ h.handlers

/-- Whether a name cannot be made any more. -/
def Knows (h : Header) (x : String) : Prop :=
  x ∈ h.taken ∨ ¬IsMarked x

/-- The header `h'` knows all names that `h` knows, and they are of the same kinds. -/
structure Extends (h h' : Header) : Prop where
  knows : ∀ {x}, h.Knows x → h'.Knows x
  param : ∀ {x}, h.Knows x → (h'.IsParam x ↔ h.IsParam x)
  handler : ∀ {x}, h.Knows x → (h'.IsHandler x ↔ h.IsHandler x)

theorem Extends.refl (h : Header) : h.Extends h :=
  ⟨id, fun _ => .rfl, fun _ => .rfl⟩

theorem Extends.trans {h₁ h₂ h₃ : Header} (h₁₂ : h₁.Extends h₂) (h₂₃ : h₂.Extends h₃) :
    h₁.Extends h₃ := by
  refine ⟨fun hx => h₂₃.knows (h₁₂.knows hx), fun hx => ?_, fun hx => ?_⟩
  · exact (h₂₃.param (h₁₂.knows hx)).trans (h₁₂.param hx)
  · exact (h₂₃.handler (h₁₂.knows hx)).trans (h₁₂.handler hx)

variable {h : Header} {x : String}

/-- The name that is made next is not known. -/
theorem not_knows_freshName (h : Header) (hint : String) : ¬h.Knows (h.freshName hint) := by
  rintro (htaken | hunmarked)
  · exact freshName_notMem h hint htaken
  · exact hunmarked (isMarked_freshName h hint)

/-! ## Slots that requests make -/

theorem isHandler_once (key hint : String) {declare : String → Option Stmt}
    (hdeclare : ∀ name d, declare name = some d → handler? d = none) :
    (h.once key hint declare).2.IsHandler x ↔ h.IsHandler x := by
  unfold once
  split
  · exact .rfl
  · dsimp only
    unfold IsHandler handlers
    rw [List.filterMap_append, List.mem_append]
    refine or_iff_left fun hnew => ?_
    obtain ⟨d, hd, hx⟩ := List.mem_filterMap.mp hnew
    rw [hdeclare _ d (Option.mem_toList.mp hd)] at hx
    cases hx

theorem isHandler_addImport (module : String) (exported : Option String) (hint : String) :
    (h.addImport module exported hint).2.IsHandler x ↔ h.IsHandler x := by
  unfold addImport
  split
  · exact .rfl
  · exact .rfl

theorem isHandler_paramName (hint : String) : (h.paramName hint).2.IsHandler x ↔ h.IsHandler x :=
  isHandler_once _ _ fun _ _ hnone => by cases hnone

/-- Requests for names that can be referred to everywhere make no slots. -/
theorem isHandler_global {r : Request} (hr : r.IsGlobal) :
    (r.ask h).2.IsHandler x ↔ h.IsHandler x := by
  cases r with
  | fresh _ | param _ | «import» _ _ _ | once _ _ _ | slot _ => exact hr.elim
  | descriptor d => exact isHandler_addImport _ _ _
  | helper package f =>
    cases package with
    | none =>
      refine isHandler_once _ _ fun name d hsome => ?_
      obtain rfl := Option.some.inj hsome
      cases f <;> rfl
    | some _ => exact isHandler_addImport _ _ _
  | throttle =>
    refine isHandler_once _ _ fun name d hsome => ?_
    obtain rfl := Option.some.inj hsome
    rfl

theorem isHandler_slot (hint : String) :
    (h.slot hint).2.IsHandler x ↔ h.IsHandler x ∨ (hint = "handler" ∧ x = (h.slot hint).1) := by
  -- The hint alone tells whether a slot is one for a handler.
  have hslot : handler? (Build.declare .const (h.slot hint).1
      (Build.call .none (.ident .none "Symbol") [.string .none hint]))
        = if hint = "handler" then some (h.slot hint).1 else none := by
    simp [handler?, Build.declare, Build.call]
  have hall : (h.slot hint).2.handlers
      = h.handlers ++ (if hint = "handler" then some (h.slot hint).1 else none).toList := by
    rw [← hslot]
    exact List.filterMap_append
  unfold IsHandler
  rw [hall, List.mem_append, Option.mem_toList]
  split
  · rename_i hhint
    simp [hhint, eq_comm]
  · rename_i hhint
    simp [hhint]

/-! ## Whole runs -/

/-- The requests of a run, with the slots for handlers among them. -/
structure Records (used : List String) (log : List (Request × String)) (h : Header) : Prop
    extends Tracks used log h where
  handler : ∀ x, h.IsHandler x → (.slot "handler", x) ∈ log

theorem records_ofModule (m : Module) : Records m.usedNames [] (ofModule m) :=
  ⟨tracks_ofModule m, fun _ hx => absurd hx List.not_mem_nil⟩

variable {used : List String} {log : List (Request × String)} {r : Request}

/-- A name that is shared is no slot. -/
theorem Records.not_isHandler (hr : Records used log h) {k : Memo} (hlog : (r, x) ∈ log)
    (hk : r.memo? = some k) : ¬h.IsHandler x := by
  intro hx
  have hnone := hr.memo?_eq hlog (hr.handler x hx) hk
  cases hnone

/-- A name that shares no name with a parameter is no parameter. -/
theorem Records.not_isParam (hr : Records used log h) (hlog : (r, x) ∈ log)
    (hk : ∀ hint, r.memo? ≠ some (.key ("param:" ++ hint))) : ¬h.IsParam x := by
  rintro ⟨hint, hx⟩
  obtain ⟨r', hlog', hr'⟩ := (hr.lookup _ x).mp hx
  exact hk hint (hr.memo?_eq hlog' hlog hr')

/-- Names of the module, and names that do not look like made names, are of neither kind. -/
theorem Records.plain (hr : Records used log h) (hx : x ∈ used ∨ ¬IsMarked x) :
    h.Knows x ∧ ¬h.IsParam x ∧ ¬h.IsHandler x := by
  have hlog : ∀ r, (r, x) ∉ log := by
    intro r hmem
    rcases hx with hused | hunmarked
    · exact hr.unused _ hmem hused
    · exact hunmarked (hr.marked _ hmem)
  refine ⟨?_, ?_, fun hh => hlog _ (hr.handler x hh)⟩
  · exact hx.imp (fun hused => (hr.taken x).mpr (.inl hused)) id
  · rintro ⟨hint, hname⟩
    obtain ⟨r, hmem, -⟩ := (hr.lookup _ x).mp hname
    exact hlog r hmem

theorem Records.knows (hr : Records used log h) (hlog : (r, x) ∈ log) : h.Knows x :=
  .inl ((hr.taken x).mpr (.inr (List.mem_map.mpr ⟨_, hlog, rfl⟩)))

/-- **One request**: it is recorded, and what is known keeps its kind. -/
theorem Records.ask (hr : Records used log h)
    (hslots : ∀ x, (r.ask h).2.IsHandler x
      ↔ h.IsHandler x ∨ (r = .slot "handler" ∧ x = (r.ask h).1)) :
    Records used (log ++ [(r, (r.ask h).1)]) (r.ask h).2 ∧ h.Extends (r.ask h).2 := by
  refine ⟨⟨(hr.toTracks.ask r).1, fun x hx => ?_⟩, ?_⟩
  · rcases (hslots x).mp hx with hx | ⟨rfl, rfl⟩
    · exact List.mem_append_left _ (hr.handler x hx)
    · exact List.mem_append_right _ (List.mem_singleton.mpr rfl)
  · rcases ask_cases r h with ⟨k, name, -, -, hask⟩ | ⟨hmiss, hname, hmakes⟩
    · rw [hask]
      exact .refl h
    · -- A name that is known is not the one that is made.
      have hne : ∀ {x}, h.Knows x → x ≠ h.freshName r.hint := by
        rintro x hx rfl
        exact not_knows_freshName h r.hint hx
      refine ⟨fun hx => ?_, fun {x} hx => ⟨?_, ?_⟩, fun {x} hx => ?_⟩
      · refine hx.imp (fun htaken => ?_) id
        rw [hmakes.taken]
        exact List.mem_cons_of_mem _ htaken
      · rintro ⟨hint, hlookup⟩
        by_cases hk : r.memo? = some (.key ("param:" ++ hint))
        · rw [hmakes.lookup_self _ hk] at hlookup
          exact absurd (Option.some.inj hlookup).symm (hne hx)
        · rw [hmakes.lookup_other _ hk] at hlookup
          exact ⟨hint, hlookup⟩
      · rintro ⟨hint, hlookup⟩
        refine ⟨hint, ?_⟩
        rw [hmakes.lookup_other _ fun hk => ?_]
        · exact hlookup
        · rw [hmiss _ hk] at hlookup
          cases hlookup
      · rw [hslots, hname]
        exact or_iff_left fun hnew => hne hx hnew.2

end Header

end JsxDialect
