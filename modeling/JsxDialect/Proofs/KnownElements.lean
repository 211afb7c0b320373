import JsxDialect.Proofs.Elements
import JsxDialect.Proofs.KnownAttributes

/-!
# Functions in elements

What a tag of control flow becomes is made of the values of its attributes and of its children. The
functions that are made on the way have no parameters, or the names that the element binds. Those of
a `repeat` are binders of the module, since tags of the dialect keep their attributes; this is why
the index that is added to them differs from them. An expression that control flow becomes binds
nothing itself, so the lists of binders stay as they are (`Expr.BindsNothing`).
-/

namespace JsxDialect

open Listing (whole)

variable {m : Module} {c : LoweringSetting}

/-! ## Control flow -/

namespace Listing

variable {α : Type} (l : Listing α)

/-- An element lists what its attributes and its children list. -/
theorem ofElement_eq (e : Element) :
    l.ofElement e = l.ofAttrs e.attrs ++ l.ofChildren e.children := by
  cases e
  rfl

/-- Fewer attributes list less. -/
theorem ofAttrs_erase_subset (as : List Attr) (name : String) :
    l.ofAttrs (Attrs.erase as name) ⊆ l.ofAttrs as := by
  intro p hp
  rw [ofAttrs_eq] at hp ⊢
  obtain ⟨a, ha, hp⟩ := List.mem_flatMap.mp hp
  exact List.mem_flatMap.mpr ⟨a, Attrs.mem_of_mem_erase ha, hp⟩

end Listing

/-- The functions of children as one expression. -/
theorem Known.childrenExpr {e : Element} (h : Known m (whole.ofElement e)) :
    Known m (whole.ofExpr e.childrenExpr) := by
  rw [Listing.ofElement_eq] at h
  exact h.right.subset (Listing.ofExpr_childrenExpr_subset _ _ _)

/-- The functions of the value of an attribute. -/
theorem Known.value {e : Element} {name : String} {span : Span} {v : AttrValue}
    (h : Known m (whole.ofElement e)) (hget : Attrs.get? e.attrs name = some (span, v)) :
    Known m (whole.ofExpr (v.toExpr span)) := by
  obtain ⟨n, hn, -⟩ := Attrs.mem_of_get? hget
  rw [Listing.ofElement_eq, Listing.ofAttrs_eq] at h
  exact Known.toExpr (fun p hp => h.left p (List.mem_flatMap.mpr ⟨_, hn, hp⟩)) span

/-- The functions of an element with an attribute less. -/
theorem Known.withoutAttr {e : Element} (h : Known m (whole.ofElement e)) (name : String) :
    Known m (whole.ofElement (e.withAttrs (Attrs.erase e.attrs name))) := by
  cases e with
  | mk span openSpan tag as cs closed =>
    exact (h.left.subset (Listing.ofAttrs_erase_subset _ as name)).append h.right

namespace Yields

/-- The value of an attribute that must be there, and the element without it. -/
theorem required (tag name : String) (e : Element) :
    Yields m c (Known m (whole.ofElement e)) (ControlFlow.required tag name e)
      fun r => Known m (whole.ofExpr r.1) ∧ Known m (whole.ofElement r.2) := by
  unfold ControlFlow.required
  split
  · rename_i span value hget
    exact .pure fun h => ⟨h.value hget, h.withoutAttr name⟩
  · exact (report _ _).map fun _ h _ => ⟨.nil, h⟩

/-- The names that a value binds are read off it. -/
theorem binderParams {P : Prop} (span : Span) (value : AttrValue) :
    Yields m c P (ControlFlow.binderParams span value)
      fun names => names = (value.expr?.map binderNames).getD [] := by
  unfold ControlFlow.binderParams
  split
  · rename_i hvalue
    exact (report _ _).map fun _ _ _ => by rw [hvalue]; rfl
  · rename_i e hvalue
    exact (reportAll _ _).map fun _ _ _ => by rw [hvalue]; rfl

end Yields

/-! ### Conditions -/

/-- Branches whose functions are known. -/
structure KnownBranches (m : Module) (branches : List (Expr × Expr)) (fallback : Option Expr) :
    Prop where
  branches : ∀ b ∈ branches, Known m (whole.ofExpr b.1) ∧ Known m (whole.ofExpr b.2)
  fallback : Known m (whole.ofOption fallback)

/-- One of two expressions, if there is one. -/
theorem Known.orElse {first second : Option Expr} (h : Known m (whole.ofOption first))
    (h' : Known m (whole.ofOption second)) :
    Known m (whole.ofOption (first.orElse fun _ => second)) := by
  cases first with
  | none => exact h'
  | some e => exact h

/-- What is shown if no branch is: the `else`, or `null`. -/
theorem Known.getD {fallback : Option Expr} (h : Known m (whole.ofOption fallback)) (span : Span) :
    Known m (whole.ofExpr (fallback.getD (.null span))) := by
  cases fallback with
  | none => exact .nil
  | some e => exact h

/-- Branches become conditional expressions, one in the other. -/
theorem KnownBranches.conditionals {branches : List (Expr × Expr)} {fallback : Option Expr}
    (h : KnownBranches m branches fallback) (span : Span) {last : Expr}
    (hlast : Known m (whole.ofExpr last)) :
    Known m (whole.ofExpr (ControlFlow.conditionals span branches last)) := by
  induction branches with
  | nil => exact hlast
  | cons b branches ih =>
    obtain ⟨hb, hbranches⟩ := List.forall_mem_cons.mp h.branches
    exact hb.1.append (hb.2.append (ih ⟨hbranches, h.fallback⟩))

namespace Yields

/-- The branches of a chain have known functions. -/
theorem lowerBranches (es : List Element) :
    Yields m c (∀ e ∈ es, Known m (whole.ofElement e)) (ControlFlow.lowerBranches es)
      fun r => KnownBranches m r.1 r.2 := by
  induction es with
  | nil => exact .pure fun _ => ⟨fun _ hb => absurd hb List.not_mem_nil, .nil⟩
  | cons e es ih =>
    have hrest := ih.weaken (S := ∀ e' ∈ e :: es, Known m (whole.ofElement e'))
      fun h => (List.forall_mem_cons.mp h).2
    unfold ControlFlow.lowerBranches
    split
    · refine hrest.map fun r h hr => ⟨hr.branches, hr.fallback.orElse ?_⟩
      exact (h e List.mem_cons_self).childrenExpr
    · refine ((required _ _ e).weaken fun h => h e List.mem_cons_self).bind fun r => ?_
      refine (hrest.weaken And.left).map fun rest h hrest =>
        ⟨List.forall_mem_cons.mpr ⟨⟨?_, h.2.2.childrenExpr⟩, hrest.branches⟩, hrest.fallback⟩
      dsimp only
      split
      · exact h.2.1
      · exact h.2.1

/-- **An `if` with its branches** makes no functions. -/
theorem lowerIf (head : Element) (rest : List Element) :
    Yields m c (∀ e ∈ head :: rest, Known m (whole.ofElement e))
      (ControlFlow.lowerIf head rest) fun r => Known m (whole.ofExpr r) :=
  (lowerBranches (head :: rest)).map fun _ _ hr => hr.conditionals _ (hr.fallback.getD _)

end Yields

/-! ### Choices -/

/-- Cases whose functions are known and that declare no variables. -/
structure KnownCases (m : Module) (cases : List SwitchCase) (fallback : Option Expr) : Prop where
  functions : Known m (whole.ofCases cases)
  vars : caseVarPatterns cases = []
  fallback : Known m (whole.ofOption fallback)

namespace Yields

/-- The arms of a `switch` become cases that declare nothing. -/
theorem lowerArms (cs : List Child) :
    Yields m c (Known m (whole.ofChildren cs)) (ControlFlow.lowerArms cs)
      fun r => KnownCases m r.1 r.2 := by
  induction cs with
  | nil => exact .pure fun _ => ⟨.nil, rfl, .nil⟩
  | cons child cs ih =>
    have hrest := ih.weaken (S := Known m (whole.ofChildren (child :: cs))) Known.right
    cases child with
    | text _ | fragment _ _ | container _ | spread _ => exact hrest
    | element arm =>
      unfold ControlFlow.lowerArms
      split
      · refine ((required _ _ arm).weaken Known.left).bind fun r => ?_
        refine (hrest.weaken And.left).map fun rest h hrest => ⟨?_, hrest.vars, hrest.fallback⟩
        exact h.2.1.append ((h.2.2.childrenExpr.append .nil).append hrest.functions)
      · refine hrest.map fun r h hr => ⟨hr.functions, hr.vars, hr.fallback.orElse ?_⟩
        exact h.left.childrenExpr
      · exact .pure fun _ => ⟨.nil, rfl, .nil⟩

/-- **A `switch`** makes one function, which declares nothing. -/
theorem lowerSwitch (e : Element) :
    Yields m c (Known m (whole.ofElement e)) (ControlFlow.lowerSwitch e)
      fun r => Known m (whole.ofExpr r) := by
  refine (required _ _ e).bind fun r => ?_
  have harms := (lowerArms (m := m) (c := c) r.2.children).weaken
    (S := Known m (whole.ofElement e)
      ∧ Known m (whole.ofExpr r.1) ∧ Known m (whole.ofElement r.2)) fun h => by
        have hr := h.2.2
        rw [Listing.ofElement_eq] at hr
        exact hr.right
  refine harms.map fun arms h harms => .invoked ?_ ?_
  · exact (h.2.1.append harms.functions).append ((harms.fallback.getD _).append .nil)
  · -- The only statement that could declare something is the `switch`.
    change Declared.clashes ⟨true, false, [], [], [],
      (caseVarPatterns arms.1 ++ []).flatMap Pattern.allNames⟩ = false
    rw [harms.vars]
    rfl

end Yields

/-! ### Repetitions -/

/-- Names that an element of the module binds, all of which are names of the module. -/
def Own (m : Module) (names : List String) : Prop :=
  names = [] ∨ Listed m names ∧ names ⊆ m.usedNames

/-- Names of an element can be parameters. -/
theorem Own.binds {names : List String} (h : Own m names) : Binds m names := by
  rcases h with rfl | hlisted
  · exact .inl List.nodup_nil
  · exact .inr hlisted.1

/-- The names that a `repeat` with the attributes binds are those of an element of the module. -/
structure KnownLoop (m : Module) (as : List Attr) : Prop where
  byFor : ∀ span value e, Attrs.get? as "for" = some (span, value) → value.expr? = some e →
    Own m (forNames e)
  byAs : ∀ span value e, Attrs.get? as "as" = some (span, value) → value.expr? = some e →
    Own m (binderNames e)

/-- **An element whose functions are known**, after it was lowered. -/
structure KnownElement (m : Module) (e : Element) : Prop where
  attrs : KnownAttrs m e.attrs
  children : Known m (whole.ofChildren e.children)
  loop : e.control? = some .repeat → KnownLoop m e.attrs

/-- The functions of a known element are known. -/
theorem KnownElement.functions {e : Element} (h : KnownElement m e) :
    Known m (whole.ofElement e) := by
  rw [Listing.ofElement_eq]
  exact h.attrs.functions.append h.children

/-- Only an expression in a container is a list of binders with a collection. -/
theorem expr?_of_splitFor? {v : AttrValue} {span : Span} {found : List Expr × Expr}
    (h : splitFor? (v.toExpr span) = some found) : v.expr? = some (v.toExpr span) := by
  cases v with
  | absent | string _ | element _ | fragment _ _ => cases h
  | container _ e =>
    cases e with
    | none => cases h
    | some e => rfl

namespace Yields

/-- The names in a list of binders are read off it. -/
theorem repeatParams {P : Prop} (es : List Expr) :
    Yields m c P (ControlFlow.repeatParams es)
      fun names => names = es.filterMap binderName? := by
  induction es with
  | nil => exact .pure fun _ => rfl
  | cons e es ih =>
    unfold ControlFlow.repeatParams
    split
    · rename_i name hname
      exact ih.map fun _ _ hrest => by rw [List.filterMap_cons_some hname, hrest]
    · rename_i hname
      refine (report _ _).bind fun _ => (ih.weaken And.left).imp id fun _ _ hrest => ?_
      rw [List.filterMap_cons_none hname, hrest]

/-- The parameters of a `repeat` are those of an element of the module. -/
theorem repeatHead (e : Element) :
    Yields m c (KnownElement m e ∧ KnownLoop m e.attrs) (ControlFlow.repeatHead e)
      fun r => Own m r.1 ∧ Known m (whole.ofExpr r.2) := by
  unfold ControlFlow.repeatHead
  split
  · rename_i span value hget
    split
    · rename_i binders collection hsplit
      refine (repeatParams binders).map fun params h hparams => ⟨?_, ?_⟩
      · rw [hparams, filterMap_splitFor hsplit]
        exact h.2.byFor span value _ hget (expr?_of_splitFor? hsplit)
      · exact ((h.1.attrs.value hget).toExpr span).subset (whole.ofExpr_splitFor_subset _ hsplit)
    · exact (report _ _).map fun _ _ _ => ⟨.inl rfl, .nil⟩
  · -- Without `for`, the parameters are those of `as`.
    refine Yields.bind (Q := Own m) ?_ fun params => ?_
    · split
      · rename_i span value hget
        refine (binderParams span value).imp id fun params h hparams => ?_
        rw [hparams]
        cases hvalue : value.expr? with
        | none => exact .inl rfl
        | some x => exact h.2.byAs span value x hget hvalue
      · exact (report _ _).map fun _ _ _ => .inl rfl
    · refine ((required _ _ e).weaken fun h => h.1.1.functions).map fun r h hr => ?_
      exact ⟨h.2, hr.1⟩

/-- **An index differs from the item**: the one is made, the other is a name of the module. -/
theorem withIndex (params : List String) :
    Yields m c (Own m params) (ControlFlow.withIndex params)
      fun r => Binds m r.1 := by
  unfold ControlFlow.withIndex
  split
  · exact .pure Own.binds
  · rename_i item
    refine (askParam "index").map fun index h hindex => .inl ?_
    have hitem := (h.resolve_left (List.cons_ne_nil _ _)).2 List.mem_cons_self
    have hne : item ≠ index := fun heq => hindex (heq ▸ hitem)
    simpa using hne
  · exact askParams (by decide) fun item index => .pure fun h => .inl (by simpa using h.2)

end Yields

/-- The functions of what is mapped over a collection. -/
theorem Known.mapped {span : Span} {collection mapper : Expr}
    (hcollection : Known m (whole.ofExpr collection)) (hmapper : Known m (whole.ofExpr mapper)) :
    Known m (whole.ofExpr (ControlFlow.mapped span collection mapper)) := by
  refine hcollection.append (Known.append (.call ?_ ?_) .nil)
  · exact hcollection.append hcollection
  · exact hcollection.append (hmapper.append .nil)

/-- The functions of an element with an attribute more. -/
theorem Known.withAttr {e : Element} {a : Attr} (h : Known m (whole.ofElement e))
    (ha : Known m (whole.ofAttr a)) :
    Known m (whole.ofElement (e.withAttrs (e.attrs ++ [a]))) := by
  cases e with
  | mk span openSpan tag as cs closed =>
    refine Known.append ?_ h.right
    rw [Listing.ofAttrs_eq, List.flatMap_append, ← Listing.ofAttrs_eq, List.flatMap_singleton]
    exact h.left.append ha

/-- The functions of children with an attribute on each element. -/
theorem Known.addAttr {a : Attr} {cs : List Child} (h : Known m (whole.ofChildren cs))
    (ha : Known m (whole.ofAttr a)) : Known m (whole.ofChildren (ControlFlow.addAttr a cs)) := by
  induction cs with
  | nil => exact .nil
  | cons child cs ih =>
    refine Known.append ?_ (ih h.right)
    cases child with
    | element e => exact Known.withAttr h.left ha
    | text _ | fragment _ _ | container _ | spread _ => exact h.left

/-- The functions of children with keys. -/
theorem Known.keyed {cs : List Child} (h : Known m (whole.ofChildren cs)) (position : Nat) :
    Known m (whole.ofChildren (ControlFlow.keyed position cs)) := by
  induction cs generalizing position with
  | nil => exact .nil
  | cons child cs ih =>
    cases child with
    | element e =>
      unfold ControlFlow.keyed
      dsimp only
      split
      · exact h.left.append (ih h.right (position + 1))
      · exact (Known.withAttr h.left .nil).append (ih h.right (position + 1))
    | text _ | fragment _ _ | container _ | spread _ => exact h.left.append (ih h.right position)

/-- The functions of a group. -/
theorem Known.lowerGroup {e : Element} (h : KnownElement m e) :
    Known m (whole.ofExpr (ControlFlow.lowerGroup e)) :=
  (h.children.keyed 0).subset (Listing.ofExprs_childExprs_subset _ _)

namespace Yields

/-- **A `repeat`** makes one function, whose parameters are names that the element binds or new
ones. -/
theorem lowerRepeat (e : Element) :
    Yields m c (KnownElement m e ∧ KnownLoop m e.attrs) (ControlFlow.lowerRepeat e)
      fun r => Known m (whole.ofExpr r) := by
  refine (repeatHead e).bind fun head => ?_
  dsimp only
  split
  · refine ((withIndex head.1).weaken fun h => h.2.1).bind fun r => (report _ _).map fun _ h _ => ?_
    obtain ⟨⟨⟨he, -⟩, hhead⟩, hr⟩ := h
    have hchildren := he.children.addAttr
      (a := Build.attr e.span "key" (.ident e.span r.2)) Known.nil
    exact hhead.2.mapped (.arrow hr (hchildren.subset (Listing.ofExpr_childrenExpr_subset _ _ _)))
  · refine .pure fun h => h.2.2.mapped (.arrow ?_ h.1.1.functions.childrenExpr)
    exact h.2.1.binds

end Yields

/-! ### Names for values -/

/-- Whether an expression binds no name, be it as a binder, as a list of binders or in `for`. -/
structure Expr.BindsNothing (e : Expr) : Prop where
  name : binderName? e = none
  names : binderNames e = []
  loop : forNames e = []

/-- An `if` or `unless` becomes a conditional expression. -/
theorem ControlFlow.bindsNothing_lowerIf {e : Element} {rest : List Element}
    (h : e.control? = some .if ∨ e.control? = some .unless) (s : Lowering) :
    (lowerIf e rest c s).1.BindsNothing := by
  have hcons : ∃ b bs, (lowerBranches (e :: rest) c s).1.1 = b :: bs := by
    unfold lowerBranches
    rcases h with h | h <;> rw [h] <;> exact ⟨_, _, rfl⟩
  obtain ⟨b, bs, hbs⟩ := hcons
  change (conditionals e.span (lowerBranches (e :: rest) c s).1.1 _).BindsNothing
  rw [hbs]
  exact ⟨rfl, rfl, rfl⟩

namespace Yields

/-- What holds of every result holds besides. -/
theorem also {α : Type} {P : Prop} {act : Lower α} {Q Q' : α → Prop} (h : Yields m c P act Q)
    (h' : P → ∀ s, Q' (act c s).1) : Yields m c P act fun a => Q a ∧ Q' a :=
  ⟨h.errors, fun hp s hs hnone =>
    let ⟨htidy, hres⟩ := h.result hp s hs hnone
    ⟨htidy, hres, h' hp s⟩⟩

/-- **A value that gets a name.** If there is none, an error is reported. -/
theorem lowerUsing (e : Element) :
    Yields m c (Known m (whole.ofElement e)) (ControlFlow.lowerUsing e)
      fun r => Known m (whole.ofExpr r) ∧ r.BindsNothing := by
  refine (required _ _ e).bind fun r => ?_
  refine Yields.bind (Q := fun _ => True) ?_ fun names => ?_
  · split
    · exact (binderParams _ _).imp id fun _ _ _ => trivial
    · exact .pure fun _ => trivial
  split
  · exact (report _ _).map fun _ _ hsev => absurd rfl hsev
  · rename_i name others
    refine .pure fun h => ⟨.invoked ?_ ?_, rfl, rfl, rfl⟩
    · exact (h.1.2.1.append .nil).append ((h.1.2.2.childrenExpr.append .nil).append .nil)
    · change Declared.clashes ⟨true, false, [], [name], [], []⟩ = false
      rfl

/-- **Control flow that stands alone** binds nothing. -/
theorem lowerAlone (tag : ControlTag) (e : Element) :
    Yields m c (e.control? = some tag ∧ KnownElement m e) (ControlFlow.lowerAlone tag e)
      fun r => Known m (whole.ofExpr r) ∧ r.BindsNothing := by
  have hbranch : Yields m c (KnownElement m e) (ControlFlow.lowerIf e [])
      fun r => Known m (whole.ofExpr r) :=
    (lowerIf e []).weaken fun h => List.forall_mem_singleton.mpr h.functions
  cases tag with
  | «if» =>
    exact (hbranch.weaken And.right).also fun h => ControlFlow.bindsNothing_lowerIf (.inl h.1)
  | «unless» =>
    exact (hbranch.weaken And.right).also fun h => ControlFlow.bindsNothing_lowerIf (.inr h.1)
  | elseIf | «else» => exact .pure fun _ => ⟨.nil, rfl, rfl, rfl⟩
  | switch => exact ((lowerSwitch e).weaken fun h => h.2.functions).also fun _ _ => ⟨rfl, rfl, rfl⟩
  | «repeat» =>
    refine ((lowerRepeat e).weaken fun h => ⟨h.2, h.2.loop h.1⟩).also fun _ s => ?_
    refine ControlFlow.result_bind c (P := Expr.BindsNothing) (fun head t => ?_) s
    dsimp only
    split <;> exact ⟨rfl, rfl, rfl⟩
  | «using» => exact (lowerUsing e).weaken fun h => h.2.functions
  | group => exact .pure fun h => ⟨.lowerGroup h.2, rfl, rfl, rfl⟩

end Yields

/-! ## Children -/

/-- A child before the rules of what is around it. -/
def KnownChild (m : Module) : Child → Prop
  | .element e => KnownElement m e
  | child => Known m (whole.ofChild child)

/-- What is to become of a child has known functions. -/
def KnownSlot (m : Module) : ControlFlow.Slot → Prop
  | .keep child => Known m (whole.ofChild child)
  | .branch _ e => Known m (whole.ofElement e)
  | .chain head rest => ∀ e ∈ head :: rest, Known m (whole.ofElement e)
  | .single tag e => e.control? = some tag ∧ KnownElement m e

/-- The functions of a known child are known. -/
theorem KnownChild.functions {child : Child} (h : KnownChild m child) :
    Known m (whole.ofChild child) := by
  cases child with
  | element e => exact KnownElement.functions h
  | text _ | fragment _ _ | container _ | spread _ => exact h

/-- What an `if` takes from the slots after it is known, and so is what it leaves. -/
theorem KnownSlot.takeBranches {slots : List ControlFlow.Slot}
    (h : ∀ slot ∈ slots, KnownSlot m slot) :
    (∀ e ∈ (ControlFlow.takeBranches slots).1, Known m (whole.ofElement e))
      ∧ ∀ slot ∈ (ControlFlow.takeBranches slots).2, KnownSlot m slot := by
  have hnone : ∀ e ∈ ([] : List Element), Known m (whole.ofElement e) :=
    fun _ he => absurd he List.not_mem_nil
  fun_induction ControlFlow.takeBranches slots with
  | case1 => exact ⟨hnone, h⟩
  | case2 e slots =>
    obtain ⟨hfirst, hrest⟩ := List.forall_mem_cons.mp h
    exact ⟨List.forall_mem_singleton.mpr hfirst, hrest⟩
  | case3 isLast e slots hlast es rest htake ih =>
    obtain ⟨hfirst, hrest⟩ := List.forall_mem_cons.mp h
    rw [htake] at ih
    exact ⟨List.forall_mem_cons.mpr ⟨hfirst, (ih hrest).1⟩, (ih hrest).2⟩
  | case4 => exact ⟨hnone, h⟩
  | case5 slots child hchild es rest htake ih =>
    obtain ⟨hfirst, hrest⟩ := List.forall_mem_cons.mp h
    rw [htake] at ih
    exact ⟨(ih hrest).1, List.forall_mem_cons.mpr ⟨hfirst, (ih hrest).2⟩⟩
  | case6 => exact ⟨hnone, h⟩
  | case7 => exact ⟨hnone, h⟩

/-- The slots of known children are known. -/
theorem KnownSlot.slots {cs : List Child} (h : ∀ child ∈ cs, KnownChild m child) :
    ∀ slot ∈ ControlFlow.slots cs, KnownSlot m slot := by
  induction cs with
  | nil => exact fun _ hslot => absurd hslot List.not_mem_nil
  | cons child cs ih =>
    obtain ⟨hchild, hcs⟩ := List.forall_mem_cons.mp h
    have hrest := ih hcs
    cases child with
    | text _ | fragment _ _ | container _ | spread _ =>
      exact List.forall_mem_cons.mpr ⟨hchild, hrest⟩
    | element e =>
      have he : KnownElement m e := hchild
      -- Whatever an `if` takes from the slots after it was known there.
      have hchain : ∀ slot ∈ (ControlFlow.Slot.chain e
          (ControlFlow.takeBranches (ControlFlow.slots cs)).1)
            :: (ControlFlow.takeBranches (ControlFlow.slots cs)).2, KnownSlot m slot := by
        obtain ⟨hbranches, hothers⟩ := KnownSlot.takeBranches hrest
        exact List.forall_mem_cons.mpr
          ⟨List.forall_mem_cons.mpr ⟨he.functions, hbranches⟩, hothers⟩
      unfold ControlFlow.slots
      split
      · exact List.forall_mem_cons.mpr ⟨he.functions, hrest⟩
      · exact hchain
      · exact hchain
      · exact List.forall_mem_cons.mpr ⟨he.functions, hrest⟩
      · exact List.forall_mem_cons.mpr ⟨he.functions, hrest⟩
      · rename_i tag _ _ _ _ hcontrol
        exact List.forall_mem_cons.mpr ⟨⟨hcontrol, he⟩, hrest⟩

namespace Yields

/-- Children in slots, one after the other. -/
theorem lowerSlots (slots : List ControlFlow.Slot) :
    Yields m c (∀ slot ∈ slots, KnownSlot m slot) (ControlFlow.lowerSlots slots)
      fun cs => Known m (whole.ofChildren cs) := by
  induction slots with
  | nil => exact .pure fun _ => .nil
  | cons slot slots ih =>
    have hrest := ih.weaken (S := ∀ slot' ∈ slot :: slots, KnownSlot m slot')
      fun h => (List.forall_mem_cons.mp h).2
    cases slot with
    | keep child => exact hrest.map fun cs h hcs => (h _ List.mem_cons_self).append hcs
    | branch _ _ => exact hrest
    | chain head rest =>
      exact ((lowerIf head rest).weaken fun h => h _ List.mem_cons_self).map₂ hrest
        fun _ _ he hcs => he.append hcs
    | single tag e =>
      exact ((lowerAlone tag e).weaken fun h => h _ List.mem_cons_self).map₂ hrest
        fun _ _ he hcs => he.1.append hcs

/-- **Children of an element or fragment.** -/
theorem lowerChildren (cs : List Child) :
    Yields m c (∀ child ∈ cs, KnownChild m child) (ControlFlow.lowerChildren cs)
      fun cs' => Known m (whole.ofChildren cs') := by
  refine .options ?_
  split
  · exact (lowerSlots _).weaken KnownSlot.slots
  · refine .pure fun h => ?_
    rw [Listing.ofChildren_eq]
    exact .flatMap fun child hchild => (h child hchild).functions

/-- An element as an expression binds nothing, whatever it becomes. -/
theorem lowerExpr (e : Element) :
    Yields m c (KnownElement m e) (ControlFlow.lowerExpr e)
      fun r => Known m (whole.ofExpr r) ∧ r.BindsNothing := by
  unfold ControlFlow.lowerExpr
  split
  · rename_i tag htag
    refine .options ?_
    split
    · exact (lowerAlone tag e).weaken fun h => ⟨htag, h⟩
    · exact .pure fun h => ⟨h.functions, rfl, rfl, rfl⟩
  · exact .pure fun h => ⟨h.functions, rfl, rfl, rfl⟩

/-- An element that is the value of an attribute becomes no list of binders. -/
theorem lowerValue (e : Element) :
    Yields m c (KnownElement m e) (ControlFlow.lowerValue e) fun v =>
      Known m (whole.ofAttrValue v) ∧ ∀ x, v.expr? = some x → x.BindsNothing := by
  have hnone : ∀ x, (AttrValue.element e).expr? = some x → x.BindsNothing :=
    fun x hx => by cases hx
  unfold ControlFlow.lowerValue
  split
  · rename_i tag htag
    refine .options ?_
    split
    · refine ((lowerAlone tag e).weaken fun h => ⟨htag, h⟩).map fun r _ hr => ⟨hr.1, ?_⟩
      rintro x hx
      obtain rfl := Option.some.inj hx
      exact hr.2
    · exact .pure fun h => ⟨h.functions, hnone⟩
  · exact .pure fun h => ⟨h.functions, hnone⟩

/-! ### Named children -/

/-- What a child that becomes an attribute is given as: its children, or a function of them. -/
theorem namedValue (e : Element) :
    Yields m c (KnownElement m e) (NamedChild.value e) fun r => Known m (whole.ofExpr r) := by
  unfold NamedChild.value
  split
  · rename_i span list hget
    refine (binderParams span list).map fun params h hparams => .arrow ?_ h.functions.childrenExpr
    rw [hparams]
    exact h.attrs.binds hget
  · exact .pure fun h => h.functions.childrenExpr

end Yields

/-- Several children for the same attribute are put into an array. -/
theorem Known.collect {span : Span} {previous value : Expr} (h : Known m (whole.ofExpr previous))
    (hvalue : Known m (whole.ofExpr value)) :
    Known m (whole.ofExpr (NamedChild.collect span previous value)) := by
  unfold NamedChild.collect
  split
  · rename_i inside es
    change Known m (whole.ofExprs (es ++ [value]))
    rw [Listing.ofExprs_eq, List.flatMap_append, ← Listing.ofExprs_eq, List.flatMap_singleton]
    exact Known.append h hvalue
  · exact h.append (hvalue.append .nil)

/-- A child is added to the attributes of its parent. -/
theorem KnownAttrs.addSlot {as : List Attr} {parent slot : String} {span : Span} {value : Expr}
    (h : KnownAttrs m as) (hvalue : Known m (whole.ofExpr value)) :
    KnownAttrs m (NamedChild.add (NamedChild.attrName parent slot) span value as) := by
  have hname : NamedChild.attrName parent slot ≠ "as" := Discipline.attrName_ne (by decide)
  unfold NamedChild.add
  split
  · rename_i attrSpan previous hget
    exact h.set attrSpan (((h.value hget).toExpr attrSpan).collect hvalue) hname
  · exact h.append (.singleton (.attr hvalue hname))

/-- The attribute for a slot is no other one that has no underscore in its name. -/
theorem NamedChild.get?_add {as : List Attr} {parent slot name : String} (h : '_' ∉ name.toList)
    (span : Span) (value : Expr) :
    Attrs.get? (add (attrName parent slot) span value as) name = Attrs.get? as name := by
  have hname : attrName parent slot ≠ name := Discipline.attrName_ne h
  unfold add
  split
  · exact Attrs.get?_set_of_ne hname
  · exact Attrs.get?_append_of_ne hname

/-- A child that becomes an attribute is an element. -/
theorem KnownChild.of_slot? {parent slot : String} {child : Child} {e : Element}
    (hchild : KnownChild m child) (hslot : NamedChild.slot? parent child = some (slot, e)) :
    KnownElement m e := by
  unfold NamedChild.slot? at hslot
  split at hslot
  · split at hslot
    · split at hslot
      · obtain ⟨-, rfl⟩ := Prod.mk.inj (Option.some.inj hslot)
        exact hchild
      · cases hslot
    · cases hslot
  · cases hslot

namespace Yields

/-- **Named children moved into the attributes**, of which none is `as` or `for`. -/
theorem hoist (parent : String) (as : List Attr) (cs : List Child) :
    Yields m c (KnownAttrs m as ∧ ∀ child ∈ cs, KnownChild m child)
      (NamedChild.hoist parent as cs) fun r => KnownAttrs m r.1
        ∧ (∀ child ∈ r.2, KnownChild m child) ∧ (KnownLoop m as → KnownLoop m r.1) := by
  induction cs generalizing as with
  | nil => exact .pure fun h => ⟨h.1, h.2, id⟩
  | cons child cs ih =>
    unfold NamedChild.hoist
    split
    · rename_i slot e hslot
      have hvalue := (namedValue (m := m) (c := c) e).weaken
        (S := KnownAttrs m as ∧ ∀ child' ∈ child :: cs, KnownChild m child')
        fun h => (h.2 child List.mem_cons_self).of_slot? hslot
      refine hvalue.bind fun value => (ih _).imp ?_ fun r h hr => ⟨hr.1, hr.2.1, fun hloop => ?_⟩
      · rintro ⟨⟨has, hcs⟩, hvalue⟩
        exact ⟨has.addSlot hvalue, (List.forall_mem_cons.mp hcs).2⟩
      · refine hr.2.2 ⟨fun sp v x hget => ?_, fun sp v x hget => ?_⟩
        · rw [NamedChild.get?_add (by decide)] at hget
          exact hloop.byFor sp v x hget
        · rw [NamedChild.get?_add (by decide)] at hget
          exact hloop.byAs sp v x hget
    · refine ((ih as).weaken fun h => ⟨h.1, (List.forall_mem_cons.mp h.2).2⟩).map fun r h hr => ?_
      exact ⟨hr.1, List.forall_mem_cons.mpr ⟨h.2 child List.mem_cons_self, hr.2.1⟩, hr.2.2⟩

/-- **Children become attributes** of their parent, and the others stay. -/
theorem hoistNamed (tag : String) (as : List Attr) (cs : List Child) :
    Yields m c (KnownAttrs m as ∧ ∀ child ∈ cs, KnownChild m child)
      (ElementRule.hoistNamed tag as cs) fun r => KnownAttrs m r.1
        ∧ (∀ child ∈ r.2, KnownChild m child) ∧ (KnownLoop m as → KnownLoop m r.1) := by
  refine .options ?_
  split
  · exact hoist tag as cs
  · exact .pure fun h => ⟨h.1, h.2, id⟩

/-! ## Elements -/

/-- An element that is imported has a name that is made, so no tag of the dialect. -/
theorem importName {P : Prop} {name : ElementName} (h : isDialectTag name.text = false) :
    Yields m c P (ElementRule.importName name) fun name' => isDialectTag name'.text = false := by
  refine .get fun s => ?_
  split
  · exact .pure fun _ => h
  · refine .options ?_
    split
    · exact (askDescriptor _).map fun _ _ hmarked => isDialectTag_of_isMarked hmarked
    · exact .pure fun _ => h

end Yields

/-- An element with no tag of the dialect is no `repeat`. -/
theorem KnownElement.ordinary {e : Element} (htag : isDialectTag e.name.text = false)
    (hattrs : KnownAttrs m e.attrs) (hchildren : Known m (whole.ofChildren e.children)) :
    KnownElement m e where
  attrs := hattrs
  children := hchildren
  loop hrepeat := by
    have hsome : (ControlTag.ofText? e.name.text).isSome = true := Option.isSome_of_eq_some hrepeat
    rw [isDialectTag, hsome, Bool.true_or] at htag
    cases htag

/-- **An element whose attributes and children have been walked.** -/
structure WalkedElement (m : Module) (e : Element) : Prop where
  attrs : KnownAttrs m e.attrs
  children : ∀ child ∈ e.children, KnownChild m child
  loop : KnownLoop m e.attrs

namespace Yields

/-- **Children become a render function**, whose parameters the element binds. -/
theorem lowerAs (e : Element) :
    Yields m c (isDialectTag e.name.text = false ∧ KnownElement m e) (ElementRule.lowerAs e)
      (KnownElement m) := by
  unfold ElementRule.lowerAs
  split
  · exact .pure And.right
  · rename_i span list hget
    refine (binderParams span list).map fun params h hparams => ?_
    have hrender : Known m (whole.ofExpr (Build.arrow e.span params e.childrenExpr)) := by
      refine .arrow ?_ h.2.functions.childrenExpr
      rw [hparams]
      exact h.2.attrs.binds hget
    exact .ordinary h.1 (h.2.attrs.erase "as") (hrender.append .nil)

/-- **Elements.** -/
theorem lowerElement (e : Element) :
    Yields m c (WalkedElement m e) (ElementRule.lower e) (KnownElement m) := by
  cases e with
  | mk span openSpan name as cs closed =>
    unfold ElementRule.lower
    cases htag : isDialectTag name.text with
    | false =>
      simp only [htag, Bool.not_false, if_true]
      refine ((attrs span name.text as).weaken WalkedElement.attrs).bind fun as₁ => ?_
      refine (importName htag).bind fun name₁ => ?_
      refine ((hoistNamed name.text as₁ cs).weaken fun h => ⟨h.1.2, h.1.1.children⟩).bind
        fun r => ?_
      refine ((lowerChildren r.2).weaken fun h => h.2.2.1).bind fun cs₁ => ?_
      -- The tag is that of the element or of its import, neither of which is one of the dialect.
      have hready : ∀ h : (((WalkedElement m (.mk span openSpan name as cs closed)
            ∧ KnownAttrs m as₁) ∧ isDialectTag name₁.text = false)
            ∧ KnownAttrs m r.1 ∧ (∀ child ∈ r.2, KnownChild m child)
              ∧ (KnownLoop m as₁ → KnownLoop m r.1)) ∧ Known m (whole.ofChildren cs₁),
          KnownElement m (.mk span openSpan name₁ r.1 cs₁ closed) :=
        fun h => .ordinary h.1.1.2 h.1.2.1 h.2
      refine .options ?_
      split
      · exact (lowerAs _).weaken fun h => ⟨h.1.1.2, hready h⟩
      · exact .pure hready
    | true =>
      -- No rule for attributes applies; they are read when the tag is lowered.
      simp only [htag, Bool.not_true, Bool.false_eq_true, if_false, pure_bind, Bool.false_and]
      refine ((hoistNamed name.text as cs).weaken fun h => ⟨h.attrs, h.children⟩).bind fun r => ?_
      refine ((lowerChildren r.2).weaken fun h => h.2.2.1).bind fun cs₁ => ?_
      exact .options (.pure fun h => ⟨h.1.2.1, h.2, fun _ => h.1.2.2.2 h.1.1.loop⟩)

end Yields

end JsxDialect
