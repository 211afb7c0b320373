import JsxDialect.Proofs.Composed
import JsxDialect.Proofs.Names

/-!
# Rules that keep nothing

Of all rules only the one for functions and objects in attributes makes slots and queues statements.
The others report, ask for names and put syntax together: they leave the scopes and the slots of the
header as they are, from every state. `Quiet` says so of a step, and `Quiet.composable` says that it
holds of every rule.
-/

namespace JsxDialect

/-! ## Slots of a header -/

namespace Header

/-- Whether a statement declares a slot: `const slot = Symbol(hint);`. -/
def isSlot : Stmt → Bool
  | .varDecl .const [.mk (.bind _) (some (.call _ (.ident _ callee) [.string _ _] _))] =>
    callee == "Symbol"
  | _ => false

/-- The declarations of slots. -/
def slots (h : Header) : List Stmt :=
  h.declarations.filter isSlot

/-- The header `h'` has the same slots as `h`, and no name that was taken is free in it. -/
structure KeepsSlots (h h' : Header) : Prop where
  slots : h'.slots = h.slots
  taken : h.taken ⊆ h'.taken

variable {h h' h'' : Header}

/-- A header has its own slots. -/
theorem KeepsSlots.refl (h : Header) : h.KeepsSlots h :=
  ⟨rfl, List.Subset.refl _⟩

/-- Slots that are kept twice are kept. -/
theorem KeepsSlots.trans (hh' : h.KeepsSlots h') (hh'' : h'.KeepsSlots h'') : h.KeepsSlots h'' :=
  ⟨hh''.slots.trans hh'.slots, List.Subset.trans hh'.taken hh''.taken⟩

/-- What is asked for once declares no slot, unless its statement is one. -/
theorem keepsSlots_once (key hint : String) {declare : String → Option Stmt}
    (hdeclare : ∀ name d, declare name = some d → isSlot d = false) :
    h.KeepsSlots (h.once key hint declare).2 := by
  unfold once
  split
  · exact .refl h
  · refine ⟨?_, List.subset_cons_self _ _⟩
    have hnone : (declare (h.fresh hint).1).toList.filter isSlot = [] := by
      refine List.filter_eq_nil_iff.mpr fun d hd hslot => ?_
      rw [hdeclare _ d (Option.mem_toList.mp hd)] at hslot
      cases hslot
    exact (List.filter_append _ _).trans (by rw [hnone, List.append_nil]; rfl)

/-- An import declares no slot. -/
theorem keepsSlots_addImport (module : String) (exported : Option String) (hint : String) :
    h.KeepsSlots (h.addImport module exported hint).2 := by
  unfold addImport
  split
  · exact .refl h
  · exact ⟨rfl, List.subset_cons_self _ _⟩

/-- The name of a parameter is taken, and nothing is declared. -/
theorem keepsSlots_paramName (hint : String) : h.KeepsSlots (h.paramName hint).2 :=
  keepsSlots_once _ _ fun _ _ hnone => by cases hnone

/-- A helper is imported or written out, and is no slot. -/
theorem keepsSlots_helper (package : Option String) (f : Helper) :
    h.KeepsSlots (h.helper package f).2 := by
  cases package with
  | none =>
    refine keepsSlots_once _ _ fun name d hsome => ?_
    obtain rfl := Option.some.inj hsome
    cases f <;> rfl
  | some _ => exact keepsSlots_addImport _ _ _

/-- The key of controlled inputs is a variable with a string, and no slot. -/
theorem keepsSlots_throttleKey : h.KeepsSlots h.throttleKey.2 := by
  refine keepsSlots_once _ _ fun name d hsome => ?_
  obtain rfl := Option.some.inj hsome
  rfl

end Header

/-! ## Steps -/

variable {c : LoweringSetting} {α β : Type}

/-- **A step that keeps nothing**: it leaves the scopes and the slots as they are. -/
def Quiet (c : LoweringSetting) (act : Lower α) : Prop :=
  ∀ s, (act c s).2.scopes = s.scopes ∧ s.header.KeepsSlots (act c s).2.header

namespace Quiet

variable {act : Lower α}

/-- A value is given without a step. -/
protected theorem pure (a : α) : Quiet c (Pure.pure a) :=
  fun s => ⟨rfl, .refl s.header⟩

/-- Two quiet steps one after the other. -/
protected theorem bind {next : α → Lower β} (h : Quiet c act) (hnext : ∀ a, Quiet c (next a)) :
    Quiet c (act >>= next) := by
  intro s
  obtain ⟨hscopes, hheader⟩ := h s
  obtain ⟨hscopes', hheader'⟩ := hnext (act c s).1 (act c s).2
  exact ⟨hscopes'.trans hscopes, hheader.trans hheader'⟩

/-- What is made of the result. -/
protected theorem map {k : α → β} (h : Quiet c act) :
    Quiet c (act >>= fun a => Pure.pure (k a)) :=
  h.bind fun _ => .pure _

/-- The options are read. -/
theorem options {next : Options → Lower α} (h : Quiet c (next c.options)) :
    Quiet c (Lower.options >>= next) :=
  h

/-- The state is read. -/
protected theorem get {next : Lowering → Lower α} (h : ∀ s, Quiet c (next s)) :
    Quiet c (MonadState.get >>= next) :=
  fun s => h s s

/-- A report leaves scopes and header alone. -/
theorem report (span : Span) (cause : Cause) : Quiet c (Lower.report span cause) :=
  fun s => ⟨rfl, .refl s.header⟩

/-- A request leaves the scopes alone. -/
theorem ask {request : Header → String × Header} (h : ∀ h, Header.KeepsSlots h (request h).2) :
    Quiet c (Lower.ask request) :=
  fun s => ⟨rfl, h s.header⟩

/-- The name of a parameter is asked for. -/
theorem askParam (hint : String) : Quiet c (Lower.ask (·.paramName hint)) :=
  ask fun _ => Header.keepsSlots_paramName hint

/-- An automatic import is asked for. -/
theorem askDescriptor (d : ImportDescriptor) : Quiet c (Lower.ask (·.addDescriptor d)) :=
  ask fun _ => Header.keepsSlots_addImport _ _ _

/-- A helper is asked for. -/
theorem helper (f : Helper) : Quiet c (Lower.helper f) :=
  options (ask fun _ => Header.keepsSlots_helper _ f)

/-- Whether the place is in a component is read off the state. -/
theorem inComponent : Quiet c Lower.inComponent := by
  refine .get fun s => ?_
  split <;> exact .pure _

/-- The name of an element is imported if the table has it. -/
theorem importName (name : ElementName) : Quiet c (ElementRule.importName name) := by
  refine .get fun s => ?_
  split
  · exact .pure name
  · refine options ?_
    split
    · exact (askDescriptor _).map
    · exact .pure name

/-- Decorators are looked at, and imported if the table has them. -/
theorem planDecorators (inherited : ComponentClass.Inherited) (ds : List Expr) :
    Quiet c (ComponentClass.planDecorators inherited ds) := by
  induction ds generalizing inherited with
  | nil => exact .pure _
  | cons d ds ih =>
    unfold ComponentClass.planDecorators
    refine Quiet.bind ?_ fun found => ?_
    · split
      · exact .pure none
      · refine .get fun s => ?_
        split
        · exact .pure none
        · exact options (.pure _)
    · split
      · exact (ih inherited).map
      · have hbound : ∀ name, Quiet c (ComponentClass.isBoundAround name) :=
          fun name s => ⟨rfl, .refl s.header⟩
        exact (hbound _).bind fun _ => (askDescriptor _).bind fun _ => (ih _).map

/-- Steps that keep nothing can be put together, so no rule but the one for functions and objects
keeps anything. -/
theorem composable (c : LoweringSetting) : Composable fun _ act => Quiet c act where
  pure := .pure
  bind := .bind
  option _ hyes hno := options (by split <;> assumption)
  report := report
  param := askParam
  helper := helper
  throttleKey := ask fun _ => Header.keepsSlots_throttleKey
  descriptor := askDescriptor
  inComponent := inComponent
  classes _ s := ⟨rfl, .refl s.header⟩
  importName := importName
  planDecorators := planDecorators

end Quiet

end JsxDialect
