import JsxDialect.Proofs.ControlFlow

/-!
# The rules for elements keep to a discipline

An element is lowered after everything inside it. Its children are then either right where they
stand, or lowered elements that the element itself decides about: they may become attributes, or
expressions of control flow. So children are judged as they come (`RawChild`), and become right when
the element around them is lowered.
-/

namespace JsxDialect

namespace Discipline

variable {c : LoweringSetting} (D : Discipline c.options)

/-- A child before the rules of what is around it. -/
def RawChild (s : Lowering) (M : List String) : Child → Prop
  | .element e => ∃ N, D.Lowered s M N e
  | child => D.All s M (Site.ofChild child)

/-- What is to become of a child is known to be right. -/
def SlotOk (s : Lowering) (M : List String) : ControlFlow.Slot → Prop
  | .keep child => D.All s M (Site.ofChild child)
  | .branch _ e => D.Parts s M e
  | .chain head rest => D.Parts s M head ∧ ∀ e ∈ rest, D.Parts s M e
  | .single tag e => e.control? = some tag ∧ ∃ N, D.Lowered s M N e

variable {D} {s t : Lowering} {M N : List String} {e : Element}

theorem RawChild.mono {child : Child} (hl : D.Leads s t) (h : D.RawChild s M child) :
    D.RawChild t M child := by
  cases child with
  | element e =>
    obtain ⟨N, hN⟩ := h
    exact ⟨N, hN.mono hl⟩
  | text _ | fragment _ _ | container _ | spread _ => exact All.mono hl h

theorem SlotOk.mono {slot : ControlFlow.Slot} (hl : D.Leads s t) (h : D.SlotOk s M slot) :
    D.SlotOk t M slot := by
  cases slot with
  | keep child => exact All.mono hl h
  | branch _ e => exact Parts.mono hl h
  | chain head rest => exact ⟨h.1.mono hl, fun e he => (h.2 e he).mono hl⟩
  | single tag e =>
    obtain ⟨htag, N, hN⟩ := h
    exact ⟨htag, N, hN.mono hl⟩

/-- A lowered element stays as it is, if there is no control flow left to lower in it. -/
theorem Lowered.all (h : D.Lowered s M N e)
    (hcontrol : c.options.controlFlow = true → e.control? = none) :
    D.All s M (Site.ofElement e) := by
  have hname := h.name
  have hparts := h.parts
  cases e with
  | mk span openSpan name attrs children closed =>
    intro p hp
    rcases List.mem_cons.mp hp with rfl | hp
    · exact D.ok_element.mpr hcontrol
    · exact (hname.append (hparts.attrs.append hparts.children)) p hp

/-! ## Slots of children -/

theorem slotOk_takeBranches {slots : List ControlFlow.Slot}
    (h : ∀ slot ∈ slots, D.SlotOk s M slot) :
    (∀ e ∈ (ControlFlow.takeBranches slots).1, D.Parts s M e)
      ∧ ∀ slot ∈ (ControlFlow.takeBranches slots).2, D.SlotOk s M slot := by
  have hnone : ∀ e ∈ ([] : List Element), D.Parts s M e := fun _ he => absurd he List.not_mem_nil
  have htail : ∀ {slot slots}, (∀ slot' ∈ slot :: slots, D.SlotOk s M slot') →
      ∀ slot' ∈ slots, D.SlotOk s M slot' :=
    fun h slot' hslot' => h slot' (List.mem_cons_of_mem _ hslot')
  fun_induction ControlFlow.takeBranches slots with
  | case1 => exact ⟨hnone, h⟩
  | case2 e slots =>
    refine ⟨fun e' he' => ?_, htail h⟩
    obtain rfl := List.mem_singleton.mp he'
    exact h _ List.mem_cons_self
  -- A branch that is not the last one: it is taken, and so are those after it.
  | case3 isLast e slots hlast es rest hrest ih =>
    rw [hrest] at ih
    obtain ⟨hes, hslots⟩ := ih (htail h)
    refine ⟨fun e' he' => ?_, hslots⟩
    rcases List.mem_cons.mp he' with rfl | he'
    · exact h _ List.mem_cons_self
    · exact hes e' he'
  | case4 => exact ⟨hnone, h⟩
  | case5 slots child hchild es rest hrest ih =>
    rw [hrest] at ih
    obtain ⟨hes, hslots⟩ := ih (htail h)
    refine ⟨hes, fun slot hslot => ?_⟩
    rcases List.mem_cons.mp hslot with rfl | hslot
    · exact h _ List.mem_cons_self
    · exact hslots slot hslot
  | case6 => exact ⟨hnone, h⟩
  | case7 => exact ⟨hnone, h⟩

theorem slotOk_slots {cs : List Child} (h : ∀ child ∈ cs, D.RawChild s M child) :
    ∀ slot ∈ ControlFlow.slots cs, D.SlotOk s M slot := by
  induction cs with
  | nil => exact fun _ hslot => absurd hslot List.not_mem_nil
  | cons child cs ih =>
    have hchild := h child List.mem_cons_self
    have hrest := ih fun child' hchild' => h child' (List.mem_cons_of_mem _ hchild')
    have hcons : ∀ {slot}, D.SlotOk s M slot →
        ∀ slot' ∈ slot :: ControlFlow.slots cs, D.SlotOk s M slot' := by
      intro slot hslot slot' hmem
      rcases List.mem_cons.mp hmem with rfl | hmem
      · exact hslot
      · exact hrest slot' hmem
    cases child with
    | text _ | fragment _ _ | container _ | spread _ => exact hcons hchild
    | element e =>
      obtain ⟨N, hN⟩ := hchild
      -- Whatever an `if` takes from the slots after it was right there.
      have hchain : ∀ slot ∈ (ControlFlow.Slot.chain e
          (ControlFlow.takeBranches (ControlFlow.slots cs)).1)
            :: (ControlFlow.takeBranches (ControlFlow.slots cs)).2, D.SlotOk s M slot := by
        obtain ⟨hbranches, hothers⟩ := slotOk_takeBranches hrest
        intro slot hslot
        rcases List.mem_cons.mp hslot with rfl | hslot
        · exact ⟨hN.parts, hbranches⟩
        · exact hothers slot hslot
      unfold ControlFlow.slots
      split
      · rename_i hcontrol
        exact hcons (hN.all fun _ => hcontrol)
      · exact hchain
      · exact hchain
      · exact hcons hN.parts
      · exact hcons hN.parts
      · rename_i tag _ _ _ _ hcontrol
        exact hcons ⟨hcontrol, N, hN⟩

theorem Run.lowerSlots (hs : D.At s) {slots : List ControlFlow.Slot}
    (h : ∀ slot ∈ slots, D.SlotOk s M slot) :
    D.Run s (ControlFlow.lowerSlots slots) fun t cs => D.All t M (Site.ofChildren cs) := by
  induction slots generalizing s with
  | nil => exact .pure hs .nil
  | cons slot slots ih =>
    have hslot := h slot List.mem_cons_self
    have hrest : ∀ slot' ∈ slots, D.SlotOk s M slot' :=
      fun slot' hslot' => h slot' (List.mem_cons_of_mem _ hslot')
    cases slot with
    | keep child => exact (ih hs hrest).map fun t cs _ hl hcs => (All.mono hl hslot).append hcs
    | branch _ _ => exact ih hs hrest
    | chain head rest =>
      refine (Run.lowerIf hs hslot.1 hslot.2).bind fun t e ht hl he => ?_
      exact (ih ht fun slot' hslot' => (hrest slot' hslot').mono hl).map fun u cs _ hl' hcs =>
        (he.mono hl').append hcs
    | single tag e =>
      obtain ⟨htag, N, hN⟩ := hslot
      refine (Run.lowerAlone hs hN htag).bind fun t e ht hl he => ?_
      exact (ih ht fun slot' hslot' => (hrest slot' hslot').mono hl).map fun u cs _ hl' hcs =>
        (he.mono hl').append hcs

/-- **Children become right**, whatever is around them. -/
theorem Run.lowerChildren (hs : D.At s) {cs : List Child}
    (h : ∀ child ∈ cs, D.RawChild s M child) :
    D.Run s (ControlFlow.lowerChildren cs) fun t cs' => D.All t M (Site.ofChildren cs') := by
  refine .options ?_
  split
  · exact .lowerSlots hs (slotOk_slots h)
  · rename_i hoff
    refine .pure hs fun p hp => ?_
    rw [Site.ofChildren_eq] at hp
    obtain ⟨child, hchild, hp⟩ := List.mem_flatMap.mp hp
    have hraw := h child hchild
    cases child with
    | text _ | fragment _ _ | container _ | spread _ => exact hraw p hp
    | element e =>
      obtain ⟨N, hN⟩ := hraw
      exact hN.all (fun hon => absurd hon hoff) p hp

theorem Run.lowerExpr (hs : D.At s) (h : D.Lowered s M N e) :
    D.Run s (ControlFlow.lowerExpr e) fun t r => D.All t M (Site.ofExpr r) := by
  unfold ControlFlow.lowerExpr
  split
  · rename_i tag htag
    refine .options ?_
    split
    · exact .lowerAlone hs h htag
    · rename_i hoff
      exact .pure hs (h.all fun hon => absurd hon hoff)
  · rename_i hnone
    exact .pure hs (h.all fun _ => hnone)

theorem Run.lowerValue (hs : D.At s) (h : D.Lowered s M N e) :
    D.Run s (ControlFlow.lowerValue e) fun t v => D.All t M (Site.ofAttrValue v) := by
  unfold ControlFlow.lowerValue
  split
  · rename_i tag htag
    refine .options ?_
    split
    · exact (Run.lowerAlone hs h htag).map fun t r _ _ hr => hr
    · rename_i hoff
      exact .pure hs (h.all fun hon => absurd hon hoff)
  · rename_i hnone
    exact .pure hs (h.all fun _ => hnone)

/-! ## Named children -/

theorem Run.namedValue (hs : D.At s) (h : D.Lowered s M N e) :
    D.Run s (NamedChild.value e) fun t r => D.All t M (Site.ofExpr r) := by
  have hchildren : D.All s N (Site.ofExpr e.childrenExpr) :=
    fun p hp => h.children p (Site.ofExpr_childrenExpr_subset _ _ hp)
  unfold NamedChild.value
  split
  · rename_i span list hget
    refine (Run.binderParams hs span list).map fun t params _ hl hparams => ?_
    subst hparams
    refine All.subset h.subset (All.arrow _ ?_ (hchildren.mono hl).but)
    exact (h.attrs.binds hget).imp id fun hb x hx => .inl (hb x hx)
  · exact .pure hs (hchildren.subset h.subset)

theorem all_collect {span : Span} {previous value : Expr}
    (hprevious : D.All s M (Site.ofExpr previous)) (hvalue : D.All s M (Site.ofExpr value)) :
    D.All s M (Site.ofExpr (NamedChild.collect span previous value)) := by
  unfold NamedChild.collect
  split
  · rename_i inside es
    intro p hp
    change p ∈ Site.ofExprs (es ++ [value]) at hp
    rw [Site.ofExprs_eq, List.flatMap_append, ← Site.ofExprs_eq, List.flatMap_singleton] at hp
    exact (All.append hprevious hvalue) p hp
  · exact hprevious.append (hvalue.append .nil)

/-- The name of the attribute for a slot has an underscore in it. -/
theorem attrName_ne {parent slot name : String} (h : '_' ∉ name.toList) :
    NamedChild.attrName parent slot ≠ name := by
  rintro rfl
  refine h ?_
  simp [NamedChild.attrName]

theorem FitsAll.addSlot {as : List Attr} {parent slot : String} {span : Span} {value : Expr}
    (h : D.FitsAll s M N as) (hvalue : D.All s M (Site.ofExpr value)) :
    D.FitsAll s M N (NamedChild.add (NamedChild.attrName parent slot) span value as) := by
  have hname : NamedChild.attrName parent slot ≠ "as" := attrName_ne (by decide)
  unfold NamedChild.add
  split
  · rename_i attrSpan previous hget
    exact h.setExpr attrSpan (all_collect ((h.value hget).toExpr attrSpan) hvalue) hname
  · exact h.append (.singleton (.attr hvalue (.inr hname)))

end Discipline

namespace Attrs

theorem get?_set_of_ne {as : List Attr} {name other : String} {value : AttrValue}
    (h : name ≠ other) : get? (set as name value) other = get? as other := by
  induction as with
  | nil => rfl
  | cons a as ih =>
    cases a with
    | spread span e => exact ih
    | named span n old =>
      simp only [set]
      split
      · rename_i hn
        have hother : (n.text == other) = false := beq_false_of_ne (beq_iff_eq.mp hn ▸ h)
        simp only [get?, hother, Bool.false_eq_true, if_false]
      · simp only [get?, ih]

theorem get?_append_of_ne {as : List Attr} {span : Span} {name other : String} {value : Expr}
    (h : name ≠ other) : get? (as ++ [Build.attr span name value]) other = get? as other := by
  induction as with
  | nil =>
    have hother : (name == other) = false := beq_false_of_ne h
    simp only [List.nil_append, Build.attr, get?, AttrName.text, hother, Bool.false_eq_true,
      if_false]
  | cons a as ih =>
    cases a with
    | spread span e => exact ih
    | named span n old => simp only [List.cons_append, get?, ih]

end Attrs

namespace Discipline

variable {c : LoweringSetting} {D : Discipline c.options} {s t : Lowering} {M N : List String}
variable {e : Element}

theorem FitsAll.subset {as : List Attr} (hM : M ⊆ N) {K : List String} (h : D.FitsAll s N K as) :
    D.FitsAll s M K as :=
  fun a ha => ⟨(h a ha).places.subset hM, (h a ha).binds⟩

theorem lowered_of_slot? {parent slot : String} {child : Child}
    (hchild : D.RawChild s N child) (hslot : NamedChild.slot? parent child = some (slot, e)) :
    ∃ K, D.Lowered s N K e := by
  unfold NamedChild.slot? at hslot
  split at hslot
  · split at hslot
    · split at hslot
      · obtain ⟨-, rfl⟩ := Prod.mk.inj (Option.some.inj hslot)
        exact hchild
      · cases hslot
    · cases hslot
  · cases hslot

/-- **Named children moved into the attributes.** No attribute is added under a name that binds. -/
theorem Run.hoist (hs : D.At s) (hM : M ⊆ N) (parent : String) {as : List Attr} {cs : List Child}
    (has : D.FitsAll s M N as) (hcs : ∀ child ∈ cs, D.RawChild s N child) :
    D.Run s (NamedChild.hoist parent as cs) fun t r => D.FitsAll t M N r.1
      ∧ (∀ child ∈ r.2, D.RawChild t N child) ∧ Attrs.get? r.1 "for" = Attrs.get? as "for" := by
  induction cs generalizing s as with
  | nil => exact .pure hs ⟨has, hcs, rfl⟩
  | cons child cs ih =>
    have hchild := hcs child List.mem_cons_self
    have hrest : ∀ child' ∈ cs, D.RawChild s N child' :=
      fun child' hchild' => hcs child' (List.mem_cons_of_mem _ hchild')
    unfold NamedChild.hoist
    split
    · rename_i slot e hslot
      obtain ⟨K, hK⟩ := lowered_of_slot? hchild hslot
      refine (Run.namedValue hs hK).bind fun t value ht hl hvalue => ?_
      refine (ih ht ((has.mono hl).addSlot (hvalue.subset hM))
        fun child' hchild' => (hrest child' hchild').mono hl).imp fun u r _ _ hr => ?_
      -- The attribute for a slot is never the `for` of a `repeat`.
      refine ⟨hr.1, hr.2.1, hr.2.2.trans ?_⟩
      have hname : NamedChild.attrName parent slot ≠ "for" := attrName_ne (by decide)
      unfold NamedChild.add
      split
      · exact Attrs.get?_set_of_ne hname
      · exact Attrs.get?_append_of_ne hname
    · refine (ih hs has hrest).map fun t r _ hl hr => ⟨hr.1, fun child' hchild' => ?_, hr.2.2⟩
      rcases List.mem_cons.mp hchild' with rfl | hchild'
      · exact hchild.mono hl
      · exact hr.2.1 child' hchild'

theorem Run.hoistNamed (hs : D.At s) (hM : M ⊆ N) (tag : String) {as : List Attr}
    {cs : List Child} (has : D.FitsAll s M N as) (hcs : ∀ child ∈ cs, D.RawChild s N child) :
    D.Run s (ElementRule.hoistNamed tag as cs) fun t r => D.FitsAll t M N r.1
      ∧ (∀ child ∈ r.2, D.RawChild t N child) ∧ Attrs.get? r.1 "for" = Attrs.get? as "for" := by
  refine .options ?_
  split
  · exact .hoist hs hM tag has hcs
  · exact .pure hs ⟨has, hcs, rfl⟩

/-! ## Elements -/

theorem Run.importName (hs : D.At s) {name : ElementName}
    (hname : D.All s [] (Site.ofElementName name)) (htag : isDialectTag name.text = false) :
    D.Run s (ElementRule.importName name) fun t name' => D.All t [] (Site.ofElementName name')
      ∧ (D.Loose ∨ isDialectTag name'.text = false) := by
  refine Run.get ?_
  split
  · exact .pure hs ⟨hname, .inr htag⟩
  · refine .options ?_
    split
    · rename_i descriptor _
      exact (Run.askDescriptor hs descriptor).map fun t x _ _ hx => ⟨.global hx.1, hx.2⟩
    · exact .pure hs ⟨hname, .inr htag⟩

/-- An element with no tag of the dialect is lowered, once its parts are. -/
theorem lowered_ordinary (hM : M ⊆ N) (hname : D.All s M (Site.ofElementName e.name))
    (htag : D.Loose ∨ isDialectTag e.name.text = false) (hattrs : D.FitsAll s M N e.attrs)
    (hchildren : D.All s N (Site.ofChildren e.children)) : D.Lowered s M N e where
  subset := hM
  name := hname
  attrs := hattrs
  dialect hdialect := by
    rcases htag with hloose | htag
    · exact hattrs.places.loose hloose
    · rw [htag] at hdialect
      cases hdialect
  children := hchildren
  repeats := htag.imp id fun htag hrepeat => by
    have hsome : (ControlTag.ofText? e.name.text).isSome = true := Option.isSome_of_eq_some hrepeat
    rw [isDialectTag, hsome, Bool.true_or] at htag
    cases htag

theorem Run.lowerAs (hs : D.At s) (h : D.Lowered s M N e)
    (htag : D.Loose ∨ isDialectTag e.name.text = false) :
    D.Run s (ElementRule.lowerAs e) fun t e' => D.Lowered t M N e' := by
  unfold ElementRule.lowerAs
  split
  · exact .pure hs h
  · rename_i span list hget
    refine (Run.binderParams hs span list).map fun t params _ hl hparams => ?_
    subst hparams
    have hrender : D.All t N (Site.ofExpr (Build.arrow e.span
        ((list.expr?.map binderNames).getD []) e.childrenExpr)) := by
      refine All.arrow _ ((h.attrs.binds hget).imp id fun hb x hx => .inl (hb x hx)) (All.but ?_)
      exact fun p hp => (h.children.mono hl) p (Site.ofExpr_childrenExpr_subset _ _ hp)
    exact lowered_ordinary h.subset (h.name.mono hl) htag ((h.attrs.mono hl).erase "as")
      (hrender.append .nil)

/-- An element whose attributes and children have been walked, to be put under the names in `M`; the
names in `N` are those that it is to bind. -/
structure Walked (D : Discipline c.options) (s : Lowering) (M N : List String) (e : Element) :
    Prop where
  attrs : D.All s M (Site.ofAttrs e.attrs)
  binds : D.Loose ∨ ∀ a ∈ e.attrs, a.BindsIn N
  repeats : D.Loose ∨ (e.control? = some .repeat → e.BindsFor N)
  children : ∀ child ∈ e.children, D.RawChild s M child

theorem Walked.fits (h : D.Walked s M N e) : D.FitsAll s M N e.attrs := by
  refine fun a ha => ⟨fun p hp => h.attrs p ?_, h.binds.imp id fun hb => hb a ha⟩
  rw [Site.ofAttrs_eq]
  exact List.mem_flatMap.mpr ⟨a, ha, hp⟩

/-- **Elements keep to the discipline.** What an element binds is put around its children, and
around the attributes of tags of the dialect. -/
theorem Run.lowerElement (hs : D.At s) (hname : D.All s [] (Site.ofElementName e.name))
    (h : D.Walked s N N e) : D.Run s (ElementRule.lower e) fun t e' => D.Lowered t [] N e' := by
  have hnil : [] ⊆ N := List.nil_subset N
  have hfits := h.fits
  have hchildren := h.children
  have hrepeats := h.repeats
  cases e with
  | mk span openSpan name as cs closed =>
    unfold ElementRule.lower
    cases htag : isDialectTag name.text with
    | false =>
      -- The attributes are put outside of what the element binds, the children inside.
      simp only [htag, Bool.not_false, if_true]
      refine (Run.attrs hs span name.text (hfits.subset hnil)).bind fun t as₁ ht hl has₁ => ?_
      refine (Run.importName ht (hname.mono hl) htag).bind fun u name₁ hu hl' hname₁ => ?_
      refine (Run.hoistNamed hu hnil name.text (has₁.mono hl') fun child hchild =>
        (hchildren child hchild).mono (hl.trans hl')).bind fun v r hv hl₂ hr => ?_
      refine (Run.lowerChildren hv hr.2.1).bind fun w cs₁ hw hl₃ hcs₁ => ?_
      have hlowered : D.Lowered w [] N (.mk span openSpan name₁ r.1 cs₁ closed) :=
        lowered_ordinary hnil (hname₁.1.mono (hl₂.trans hl₃)) hname₁.2 (hr.1.mono hl₃) hcs₁
      refine .options ?_
      split
      · exact .lowerAs hw hlowered hname₁.2
      · exact .pure hw hlowered
    | true =>
      -- No rule for attributes applies; they are read when the tag is lowered.
      simp only [htag, Bool.not_true, Bool.false_eq_true, if_false, pure_bind, Bool.false_and]
      refine (Run.hoistNamed hs (List.Subset.refl N) name.text hfits hchildren).bind
        fun t r ht hl hr => ?_
      refine (Run.lowerChildren ht hr.2.1).bind fun u cs₁ hu hl' hcs₁ => ?_
      refine .options (.pure hu ?_)
      refine ⟨hnil, hname.mono (hl.trans hl'), (hr.1.mono hl').subset hnil,
        fun _ => (hr.1.mono hl').places, hcs₁, hrepeats.imp id fun hfor hrepeat => ?_⟩
      intro sp value hget
      exact hfor hrepeat sp value (hr.2.2 ▸ hget)

end Discipline

end JsxDialect
