import JsxDialect.Lower.Children
import Mathlib.Data.List.Forall2
import Mathlib.Data.List.ReduceOption

/-!
# Children are rewritten without loss

What becomes of a child is decided by where it stands. An `elseif` or `else` continues the `if`
before it if nothing is in between but `elseif` elements and children that are no elements
(`Continues`); so it continues one `if` at most. `slots` finds the same chains from the right, each
`if` taking what it can from the slots after it. That both agree is `IsPlaced`, together with what
taking leaves behind; one lemma for each kind of child says that it is kept, and `isPlaced` is the
induction.
-/

namespace JsxDialect

namespace Child

/-- The element that a child is. -/
def element? : Child → Option Element
  | .element e => some e
  | _ => none

/-- The tag of control flow that a child has. -/
def control? (c : Child) : Option ControlTag :=
  c.element?.bind Element.control?

/-- Whether a child is an `if` or an `unless`. -/
def isHead (c : Child) : Bool :=
  c.control? == some .if || c.control? == some .unless

/-- Whether a child is an `elseif` or an `else`. -/
def isBranch (c : Child) : Bool :=
  c.control? == some .elseIf || c.control? == some .else

/-- Whether a chain goes on after a child: after an `elseif`, and after what is no element. -/
def isPassed (c : Child) : Bool :=
  c.element?.isNone || c.control? == some .elseIf

/-- The tag of an element is that of the child it is. -/
@[simp] theorem control?_element (e : Element) : (Child.element e).control? = e.control? := rfl

/-- A child that is an element is one. -/
@[simp] theorem isNone_element? (e : Element) : (Child.element e).element?.isNone = false := rfl

end Child

namespace ControlFlow

variable {c d : Child} {cs : List Child} {e : Element} {i j k : Nat}

/-- What there is for children by their positions, in order. -/
def byPosition {α : Type} (f : Nat → Child → Option α) (cs : List Child) : List α :=
  (cs.mapIdx f).reduceOption

/-- What there is for the first child, and for the others one position earlier. -/
theorem byPosition_cons {α : Type} (f : Nat → Child → Option α) :
    byPosition f (c :: cs) = (f 0 c).toList ++ byPosition (fun j => f (j + 1)) cs := by
  rw [byPosition, List.mapIdx_cons]
  cases f 0 c <;> rfl

/-- Nothing for every child is nothing. -/
@[simp] theorem byPosition_none {α : Type} (cs : List Child) :
    byPosition (fun _ _ => (none : Option α)) cs = [] := by
  induction cs with
  | nil => rfl
  | cons c cs ih => rw [byPosition_cons, ih]; rfl

/-- Only the positions that children have count. -/
theorem byPosition_congr {α : Type} {f g : Nat → Child → Option α}
    (h : ∀ j d, cs[j]? = some d → f j d = g j d) : byPosition f cs = byPosition g cs := by
  have hmap : cs.mapIdx f = cs.mapIdx g :=
    List.mapIdx_eq_mapIdx_iff.mpr fun j hj => h j _ (List.getElem?_eq_getElem hj)
  rw [byPosition, byPosition, hmap]

/-! ## Chains by position -/

/-- Whether the child at a position continues an `if` right before the children. -/
def Follows (cs : List Child) (j : Nat) : Prop :=
  cs[j]?.any Child.isBranch = true ∧ (cs.take j).all Child.isPassed = true

/-- Whether the child at position `j` continues the `if` at position `i`. -/
def Continues (cs : List Child) (i j : Nat) : Prop :=
  cs[i]?.any Child.isHead = true ∧ i < j ∧ cs[j]?.any Child.isBranch = true
    ∧ (cs.extract (i + 1) j).all Child.isPassed = true

instance (cs : List Child) (j : Nat) : Decidable (Follows cs j) :=
  inferInstanceAs (Decidable (_ ∧ _))

instance (cs : List Child) (i j : Nat) : Decidable (Continues cs i j) :=
  inferInstanceAs (Decidable (_ ∧ _))

/-- The elements that continue an `if` right before the children. -/
def followers (cs : List Child) : List Element :=
  byPosition (fun j c => if Follows cs j then c.element? else none) cs

/-- The elements that continue the `if` at a position. -/
def chainAt (cs : List Child) (i : Nat) : List Element :=
  byPosition (fun j c => if Continues cs i j then c.element? else none) cs

/-- Whether the child at a position continues no `if`. -/
def IsOrphan (cs : List Child) (j : Nat) : Prop :=
  ∀ i < j, ¬ Continues cs i j

instance (cs : List Child) (j : Nat) : Decidable (IsOrphan cs j) :=
  inferInstanceAs (Decidable (∀ i < j, _))

/-- The slot of the child at a position. An `elseif` or `else` only has one if it continues no
`if`. -/
def slotAt (cs : List Child) (i : Nat) : Child → Option Slot
  | .element e =>
    match e.control? with
    | none => some (.keep (.element e))
    | some .if | some .unless => some (.chain e (chainAt cs i))
    | some .elseIf => if IsOrphan cs i then some (.branch false e) else none
    | some .else => if IsOrphan cs i then some (.branch true e) else none
    | some tag => some (.single tag e)
  | c => some (.keep c)

/-! ## One child more -/

/-- The first child continues an `if` before it if it is a branch. -/
theorem follows_zero : Follows (c :: cs) 0 ↔ c.isBranch = true := by
  simp [Follows]

/-- A later one does if the first child lets a chain pass. -/
theorem follows_succ : Follows (c :: cs) (j + 1) ↔ c.isPassed = true ∧ Follows cs j := by
  simp only [Follows, List.getElem?_cons_succ, List.take_succ_cons, List.all_cons, Bool.and_eq_true]
  tauto

/-- A child in front changes nothing between two others. -/
theorem continues_succ : Continues (c :: cs) (i + 1) (j + 1) ↔ Continues cs i j := by
  simp [Continues]

/-- The first child is continued if it is an `if`, by what follows it. -/
theorem continues_zero : Continues (c :: cs) 0 (j + 1) ↔ c.isHead = true ∧ Follows cs j := by
  simp [Continues, Follows]

/-- The first child has no `if` before it. -/
theorem isOrphan_zero : IsOrphan (c :: cs) 0 :=
  fun _ hi => absurd hi (Nat.not_lt_zero _)

/-- A later one has none if it does not follow the first child and has none after that. -/
theorem isOrphan_succ :
    IsOrphan (c :: cs) (j + 1) ↔ (c.isHead = true → ¬ Follows cs j) ∧ IsOrphan cs j := by
  constructor
  · intro h
    refine ⟨fun hhead hfollows => ?_, fun i hi hcont => ?_⟩
    · exact h 0 (Nat.succ_pos j) (continues_zero.mpr ⟨hhead, hfollows⟩)
    · exact h (i + 1) (Nat.succ_lt_succ hi) (continues_succ.mpr hcont)
  · rintro ⟨hfirst, hrest⟩ i hi hcont
    cases i with
    | zero => exact hfirst (continues_zero.mp hcont).1 (continues_zero.mp hcont).2
    | succ i => exact hrest i (Nat.lt_of_succ_lt_succ hi) (continues_succ.mp hcont)

/-- A child in front changes no chain after it. -/
theorem chainAt_succ : chainAt (c :: cs) (i + 1) = chainAt cs i := by
  have hfirst : ¬ Continues (c :: cs) (i + 1) 0 := fun h => absurd h.2.1 (Nat.not_lt_zero _)
  simp only [chainAt, byPosition_cons, if_neg hfirst, continues_succ, Option.toList_none,
    List.nil_append]

/-- The chain of the first child is what follows it. -/
theorem chainAt_zero (h : c.isHead = true) : chainAt (c :: cs) 0 = followers cs := by
  have hfirst : ¬ Continues (c :: cs) 0 0 := fun hcont => absurd hcont.2.1 (Nat.lt_irrefl 0)
  simp only [chainAt, followers, byPosition_cons, if_neg hfirst, continues_zero, h, true_and,
    Option.toList_none, List.nil_append]

/-- The slot of a child depends on its chain and on whether it continues one. -/
theorem slotAt_congr {ds : List Child} (hchain : chainAt cs i = chainAt ds j)
    (horphan : IsOrphan cs i ↔ IsOrphan ds j) (d : Child) : slotAt cs i d = slotAt ds j d := by
  cases d with
  | element e => simp only [slotAt, hchain, horphan]
  | text _ | fragment _ _ | container _ | spread _ => rfl

/-- A branch that continues an `if` has no slot of its own. -/
theorem slotAt_of_isBranch (hbranch : c.isBranch = true) (h : ¬ IsOrphan cs i) :
    slotAt cs i c = none := by
  cases c with
  | element e =>
    have hcontrol : e.control? = some .elseIf ∨ e.control? = some .else := by
      simpa [Child.isBranch] using hbranch
    rcases hcontrol with hcontrol | hcontrol <;> simp only [slotAt, hcontrol, if_neg h]
  | text _ | fragment _ _ | container _ | spread _ => cases hbranch

/-- A child in front that is no `if` changes no slot. -/
theorem slotAt_succ (hc : c.isHead = false) (d : Child) :
    slotAt (c :: cs) (j + 1) d = slotAt cs j d :=
  slotAt_congr chainAt_succ (by simp [isOrphan_succ, hc]) d

/-- After an `if`, the children that continue it have no slots of their own. -/
theorem slotAt_succ_of_isHead (hc : c.isHead = true) (hd : cs[j]? = some d) :
    slotAt (c :: cs) (j + 1) d = if Follows cs j then none else slotAt cs j d := by
  split
  · rename_i hfollows
    refine slotAt_of_isBranch ?_ fun horphan => (isOrphan_succ.mp horphan).1 hc hfollows
    simpa [hd] using hfollows.1
  · rename_i hfollows
    exact slotAt_congr chainAt_succ (by simp [isOrphan_succ, hfollows]) d

/-! ## All slots -/

/-- The slots of children by their positions. -/
def placed (cs : List Child) : List Slot :=
  byPosition (slotAt cs) cs

/-- The slots of children without those that continue an `if` right before them. -/
def remaining (cs : List Child) : List Slot :=
  byPosition (fun j d => if Follows cs j then none else slotAt cs j d) cs

/-- Such a child has a slot before those of the others. -/
theorem placed_cons (cs : List Child) (hc : c.isHead = false) :
    placed (c :: cs) = (slotAt (c :: cs) 0 c).toList ++ placed cs := by
  rw [placed, byPosition_cons, placed]
  exact congrArg _ (byPosition_congr fun j d _ => slotAt_succ hc d)

/-- An `if` has one before those that it leaves. -/
theorem placed_cons_of_isHead (cs : List Child) (hc : c.isHead = true) :
    placed (c :: cs) = (slotAt (c :: cs) 0 c).toList ++ remaining cs := by
  rw [placed, byPosition_cons, remaining]
  exact congrArg _ (byPosition_congr fun j d hd => slotAt_succ_of_isHead hc hd)

/-- An `if` ends what continues the one before it. -/
theorem isHead_of_isPassed (h : c.isPassed = true) : c.isHead = false := by
  cases c with
  | element e =>
    have hcontrol : e.control? = some .elseIf := by
      simpa [Child.isPassed] using h
    simp [Child.isHead, hcontrol]
  | text _ | fragment _ _ | container _ | spread _ => rfl

/-- What an `if` before the children leaves, if the first of them lets the chain pass. -/
theorem remaining_cons (h : c.isPassed = true) :
    remaining (c :: cs)
      = (if c.isBranch then none else slotAt (c :: cs) 0 c).toList ++ remaining cs := by
  simp only [remaining, byPosition_cons, follows_zero, follows_succ, h, true_and,
    slotAt_succ (isHead_of_isPassed h)]

/-- If it does not and is no branch, everything is left. -/
theorem remaining_cons_of_not (h : c.isPassed = false) (hbranch : c.isBranch = false) :
    remaining (c :: cs) = placed (c :: cs) := by
  simp [remaining, placed, byPosition_cons, follows_zero, follows_succ, h, hbranch]

/-- An `else` ends the chain: everything after it is left. -/
theorem remaining_else (h : c.isPassed = false) (hbranch : c.isBranch = true)
    (hc : c.isHead = false) : remaining (c :: cs) = placed cs := by
  simp [remaining, placed, byPosition_cons, follows_zero, follows_succ, h, hbranch, slotAt_succ hc]

/-- What continues an `if` before the children, if the first of them lets the chain pass. -/
theorem followers_cons (h : c.isPassed = true) :
    followers (c :: cs) = (if c.isBranch then c.element? else none).toList ++ followers cs := by
  simp only [followers, byPosition_cons, follows_zero, follows_succ, h, true_and]

/-- If it does not, only the first of them can. -/
theorem followers_cons_of_not (h : c.isPassed = false) :
    followers (c :: cs) = (if c.isBranch then c.element? else none).toList := by
  simp [followers, byPosition_cons, follows_zero, follows_succ, h]

/-- The slots of children are those by position, and an `if` right before the children takes those
that follow it and leaves the others their slots. -/
structure IsPlaced (cs : List Child) : Prop where
  slots : slots cs = placed cs
  taken : takeBranches (placed cs) = (followers cs, remaining cs)

/-- What ends a chain is left where it is, with everything after it. -/
theorem taken_of_not_isPassed (hpassed : c.isPassed = false) (hbranch : c.isBranch = false)
    (h : takeBranches (placed (c :: cs)) = ([], placed (c :: cs))) :
    takeBranches (placed (c :: cs)) = (followers (c :: cs), remaining (c :: cs)) := by
  rw [h, followers_cons_of_not hpassed, remaining_cons_of_not hpassed hbranch, hbranch]
  rfl

/-- One more `if`, which takes what follows it. -/
theorem IsPlaced.head (h : IsPlaced cs)
    (hcontrol : e.control? = some .if ∨ e.control? = some .unless) :
    IsPlaced (.element e :: cs) := by
  have hhead : (Child.element e).isHead = true := by
    simpa [Child.isHead] using hcontrol
  have hplaced : placed (.element e :: cs) = .chain e (followers cs) :: remaining cs := by
    rw [placed_cons_of_isHead cs hhead]
    rcases hcontrol with hcontrol | hcontrol <;>
      simp only [slotAt, hcontrol, chainAt_zero hhead] <;> rfl
  refine ⟨?_, taken_of_not_isPassed ?_ ?_ ?_⟩
  · rcases hcontrol with hcontrol | hcontrol <;>
      simp only [ControlFlow.slots, hcontrol, hplaced, h.slots, h.taken]
  · rcases hcontrol with hcontrol | hcontrol <;> simp [Child.isPassed, hcontrol]
  · rcases hcontrol with hcontrol | hcontrol <;> simp [Child.isBranch, hcontrol]
  · rw [hplaced]
    rfl

/-- One more `elseif`, which an `if` before it takes, and then what follows. -/
theorem IsPlaced.elseIf (h : IsPlaced cs) (hcontrol : e.control? = some .elseIf) :
    IsPlaced (.element e :: cs) := by
  have hpassed : (Child.element e).isPassed = true := by
    simp [Child.isPassed, hcontrol]
  have hbranch : (Child.element e).isBranch = true := by
    simp [Child.isBranch, hcontrol]
  have hplaced : placed (.element e :: cs) = .branch false e :: placed cs := by
    simp only [placed_cons cs (isHead_of_isPassed hpassed), slotAt, hcontrol, if_pos isOrphan_zero]
    rfl
  refine ⟨by simp only [ControlFlow.slots, hcontrol, hplaced, h.slots], ?_⟩
  rw [hplaced, followers_cons hpassed, remaining_cons hpassed, if_pos hbranch, if_pos hbranch]
  simp only [takeBranches, h.taken]
  rfl

/-- One more `else`, which an `if` before it takes, and nothing after it. -/
theorem IsPlaced.else (h : IsPlaced cs) (hcontrol : e.control? = some .else) :
    IsPlaced (.element e :: cs) := by
  have hpassed : (Child.element e).isPassed = false := by
    simp [Child.isPassed, hcontrol]
  have hbranch : (Child.element e).isBranch = true := by
    simp [Child.isBranch, hcontrol]
  have hhead : (Child.element e).isHead = false := by
    simp [Child.isHead, hcontrol]
  have hplaced : placed (.element e :: cs) = .branch true e :: placed cs := by
    simp only [placed_cons cs hhead, slotAt, hcontrol, if_pos isOrphan_zero]
    rfl
  refine ⟨by simp only [ControlFlow.slots, hcontrol, hplaced, h.slots], ?_⟩
  rw [hplaced, followers_cons_of_not hpassed, remaining_else hpassed hbranch hhead, if_pos hbranch]
  rfl

/-- One more child that is no element, which an `if` before it passes. -/
theorem IsPlaced.passed (h : IsPlaced cs) (hc : c.element? = none) : IsPlaced (c :: cs) := by
  cases c with
  | element e => cases hc
  | text _ | fragment _ _ | container _ | spread _ =>
    refine ⟨?_, ?_⟩
    · rw [placed_cons cs rfl]
      exact congrArg (List.cons _) h.slots
    · rw [placed_cons cs rfl, remaining_cons rfl, followers_cons rfl]
      simp only [slotAt, Option.toList_some, List.singleton_append, takeBranches, h.taken]
      rfl

/-- **Chains by position**, for all children. -/
theorem isPlaced (cs : List Child) : IsPlaced cs := by
  induction cs with
  | nil => exact ⟨rfl, rfl⟩
  | cons c cs ih =>
    cases c with
    | text _ | fragment _ _ | container _ | spread _ => exact ih.passed rfl
    | element e =>
      match hcontrol : e.control? with
      | some .if => exact ih.head (.inl hcontrol)
      | some .unless => exact ih.head (.inr hcontrol)
      | some .elseIf => exact ih.elseIf hcontrol
      | some .else => exact ih.else hcontrol
      | none | some .switch | some .repeat | some .using | some .group =>
        have hplaced := placed_cons cs (c := .element e) (by simp [Child.isHead, hcontrol])
        simp only [slotAt, hcontrol, Option.toList_some, List.singleton_append] at hplaced
        refine ⟨by simp only [slots, hcontrol, hplaced, ih.slots], taken_of_not_isPassed ?_ ?_ ?_⟩
        · simp [Child.isPassed, hcontrol]
        · simp [Child.isBranch, hcontrol]
        · rw [hplaced]
          rfl

/-! ## Chains as runs -/

/-- The `elseif` elements that elements start with, and an `else` right after them. -/
def branchRun (es : List Element) : List Element :=
  es.takeWhile (·.control? == some .elseIf)
    ++ ((es.dropWhile (·.control? == some .elseIf)).take 1).filter (·.control? == some .else)

/-- **What continues an `if` is a run of branches** among the elements. -/
theorem followers_eq (cs : List Child) : followers cs = branchRun (elementsOf cs) := by
  induction cs with
  | nil => rfl
  | cons c cs ih =>
    cases c with
    | text _ | fragment _ _ | container _ | spread _ =>
      rw [followers_cons rfl, ih]
      rfl
    | element e =>
      have helements : elementsOf (.element e :: cs) = e :: elementsOf cs := rfl
      rw [helements]
      by_cases helseIf : e.control? = some .elseIf
      · rw [followers_cons (by simp [Child.isPassed, helseIf]), ih]
        simp [branchRun, Child.isBranch, Child.element?, helseIf]
      · rw [followers_cons_of_not (by simp [Child.isPassed, helseIf])]
        by_cases helse : e.control? = some .else <;>
          simp [branchRun, Child.isBranch, Child.element?, helseIf, helse]

/-- The chain of an `if` is the run of branches among the elements after it. -/
theorem chainAt_eq (h : cs[i]?.any Child.isHead = true) :
    chainAt cs i = branchRun (elementsOf (cs.drop (i + 1))) := by
  induction cs generalizing i with
  | nil => simp at h
  | cons c cs ih =>
    cases i with
    | zero => rw [chainAt_zero (by simpa using h), followers_eq]; rfl
    | succ i => rw [chainAt_succ, ih (by simpa using h)]; rfl

/-- No `if` that a child continues comes after another one that it continues. -/
theorem Continues.le (h : Continues cs i j) (h' : Continues cs k j) : k ≤ i := by
  by_contra hlt
  obtain ⟨-, -, -, hall⟩ := h
  obtain ⟨hhead, hkj, -, -⟩ := h'
  obtain ⟨c, hc, hhead⟩ := (Option.any_eq_true _ _).mp hhead
  -- The later `if` would be one of the children that the chain of the first one passes.
  have hmem : c ∈ cs.extract (i + 1) j := by
    refine List.mem_iff_getElem?.mpr ⟨k - (i + 1), ?_⟩
    rw [List.extract_eq_take_drop, List.getElem?_take_of_lt (by omega), List.getElem?_drop,
      Nat.add_sub_of_le (by omega), hc]
  have hpassed := List.all_eq_true.mp hall c hmem
  rw [isHead_of_isPassed hpassed] at hhead
  cases hhead

/-- A child continues one `if` at most. -/
theorem Continues.unique (h : Continues cs i j) (h' : Continues cs k j) : i = k :=
  Nat.le_antisymm (h'.le h) (h.le h')

/-! ## Orphans -/

/-- The element of a slot that shows nothing. -/
def Slot.dropped? : Slot → Option Element
  | .branch _ e => some e
  | _ => none

/-- The `elseif` and `else` elements that continue no `if`. -/
def orphans (cs : List Child) : List Element :=
  byPosition (fun j c => if c.isBranch ∧ IsOrphan cs j then c.element? else none) cs

/-- What is taken of what there is by position is there by position. -/
theorem filterMap_byPosition {α β : Type} (f : Nat → Child → Option α) (g : α → Option β)
    (cs : List Child) :
    (byPosition f cs).filterMap g = byPosition (fun j c => (f j c).bind g) cs := by
  induction cs generalizing f with
  | nil => rfl
  | cons c cs ih =>
    rw [byPosition_cons, byPosition_cons, List.filterMap_append, ih]
    cases f 0 c with
    | none => rfl
    | some a => cases hg : g a <;> simp [hg]

/-- The slots that show nothing are those of branches without an `if`. -/
theorem dropped?_slotAt (cs : List Child) (j : Nat) (c : Child) :
    (slotAt cs j c).bind Slot.dropped?
      = if c.isBranch ∧ IsOrphan cs j then c.element? else none := by
  cases c with
  | text _ | fragment _ _ | container _ | spread _ => rfl
  | element e =>
    by_cases horphan : IsOrphan cs j
    · match hcontrol : e.control? with
      | none | some .if | some .unless | some .elseIf | some .else | some .switch | some .repeat
      | some .using | some .group =>
        simp [slotAt, hcontrol, horphan, Child.isBranch, Slot.dropped?, Child.element?]
    · match hcontrol : e.control? with
      | none | some .if | some .unless | some .elseIf | some .else | some .switch | some .repeat
      | some .using | some .group =>
        simp [slotAt, hcontrol, horphan, Slot.dropped?]

/-- What is dropped are the orphans. -/
theorem filterMap_dropped? (cs : List Child) : (slots cs).filterMap Slot.dropped? = orphans cs := by
  rw [(isPlaced cs).slots, placed, filterMap_byPosition]
  exact byPosition_congr fun j c _ => dropped?_slotAt cs j c

/-! ## Rewriting -/

/-- What becomes of the child at a position. -/
def rewriteAt (cs : List Child) (i : Nat) : Child → Lower (Option Child)
  | .element e =>
    match e.control? with
    | none => return some (.element e)
    | some .if | some .unless => return some (.container (some (← lowerIf e (chainAt cs i))))
    | some .elseIf | some .else => return none
    | some tag => return some (.container (some (← lowerAlone tag e)))
  | c => return some c

/-- What becomes of a slot. -/
def lowerSlot : Option Slot → Lower (Option Child)
  | none | some (.branch ..) => return none
  | some (.keep c) => return some c
  | some (.chain head rest) => return some (.container (some (← lowerIf head rest)))
  | some (.single tag e) => return some (.container (some (← lowerAlone tag e)))

/-- What becomes of a slot is what becomes of its child. -/
theorem lowerSlot_slotAt (cs : List Child) (i : Nat) (c : Child) :
    lowerSlot (slotAt cs i c) = rewriteAt cs i c := by
  cases c with
  | text _ | fragment _ _ | container _ | spread _ => rfl
  | element e =>
    match hcontrol : e.control? with
    | none | some .if | some .unless | some .switch | some .repeat | some .using | some .group =>
      simp only [slotAt, rewriteAt, hcontrol, lowerSlot]
    | some .elseIf | some .else =>
      simp only [slotAt, rewriteAt, hcontrol]
      split <;> rfl

/-- Slots are lowered one by one; those that are missing give nothing. -/
theorem lowerSlots_reduceOption (ss : List (Option Slot)) :
    lowerSlots ss.reduceOption
      = do let outs ← (ss.map lowerSlot).mapM id; return outs.reduceOption := by
  induction ss with
  | nil => simp [lowerSlots]
  | cons slot ss ih =>
    match slot with
    | none | some (.branch ..) => simp [lowerSlots, lowerSlot, ih]
    | some (.keep _) | some (.chain ..) | some (.single ..) => simp [lowerSlots, lowerSlot, ih]

/-- What may become of a child: it is kept, or replaced by a container, or removed. -/
inductive Outcome : Child → Option Child → Prop
  | kept {c : Child} : c.control? = none → Outcome c (some c)
  | replaced {c : Child} {tag : ControlTag} (e : Expr) :
      c.control? = some tag → c.isBranch = false → Outcome c (some (.container (some e)))
  | removed {c : Child} : c.isBranch = true → Outcome c none

/-- Every child is kept, removed or put into a container. -/
theorem outcome_rewriteAt (cs : List Child) (i : Nat) (child : Child) (c : LoweringSetting)
    (s : Lowering) : Outcome child ((rewriteAt cs i child).run c s).1 := by
  cases child with
  | text _ | fragment _ _ | container _ | spread _ => exact .kept rfl
  | element e =>
    match hcontrol : e.control? with
    | none =>
      simp only [rewriteAt, hcontrol]
      exact .kept hcontrol
    | some .elseIf | some .else =>
      simp only [rewriteAt, hcontrol]
      exact .removed (by simp [Child.isBranch, hcontrol])
    | some .if | some .unless | some .switch | some .repeat | some .using | some .group =>
      simp only [rewriteAt, hcontrol]
      exact .replaced _ hcontrol (by simp [Child.isBranch, hcontrol])

/-- Steps that are made for children one after the other give one result each. -/
theorem forall₂_mapM {α : Type} {R : Child → α → Prop} {f : Nat → Child → Lower α}
    {c : LoweringSetting} (h : ∀ i child s, R child ((f i child).run c s).1) (cs : List Child)
    (s : Lowering) : List.Forall₂ R cs (((cs.mapIdx f).mapM id).run c s).1 := by
  induction cs generalizing f s with
  | nil => exact .nil
  | cons child cs ih =>
    rw [List.mapIdx_cons, List.mapM_cons]
    exact .cons (h 0 child s) (ih (fun i => h (i + 1)) _)

/-- **Children are rewritten one by one**, in order. -/
theorem lowerChildren_run {c : LoweringSetting} (hon : c.options.controlFlow = true)
    (cs : List Child) :
    (lowerChildren cs).run c
      = ((cs.mapIdx (rewriteAt cs)).mapM id >>= fun outs => pure outs.reduceOption).run c := by
  have hslots : (lowerChildren cs).run c = (lowerSlots (slots cs)).run c := by
    funext s
    change ((if c.options.controlFlow then lowerSlots (slots cs) else pure cs : Lower _).run c) s
      = _
    rw [if_pos hon]
  have hmap : (cs.mapIdx (slotAt cs)).map lowerSlot = cs.mapIdx (rewriteAt cs) := by
    refine List.ext_getElem? fun i => ?_
    rw [List.getElem?_map, List.getElem?_mapIdx, List.getElem?_mapIdx, Option.map_map]
    exact congrArg (fun f => Option.map f cs[i]?) (funext (lowerSlot_slotAt cs i))
  rw [hslots, (isPlaced cs).slots, placed, byPosition, lowerSlots_reduceOption, hmap]

/-- **Children are rewritten without loss.** With control flow on, every child is rewritten where it
stands, in their order: it is kept if it has no tag of control flow, an `elseif` or `else` is
removed, and any other is replaced by one container, which holds the whole chain of an `if` or
`unless`. Such a chain is the run of `elseif` elements after it, with an `else` that ends them,
whatever is in between and no element; no child is in two chains; and the children that are dropped
because nothing has taken them are those in no chain. -/
theorem lowerChildren_by_position (cs : List Child) (c : LoweringSetting)
    (hon : c.options.controlFlow = true) :
    (lowerChildren cs).run c
        = ((cs.mapIdx (rewriteAt cs)).mapM id >>= fun outs => pure outs.reduceOption).run c
      ∧ (∀ s, ∃ outs, ((lowerChildren cs).run c s).1 = outs.reduceOption
          ∧ List.Forall₂ Outcome cs outs)
      ∧ (∀ i, cs[i]?.any Child.isHead = true →
          chainAt cs i = branchRun (elementsOf (cs.drop (i + 1))))
      ∧ (∀ i k j, Continues cs i j → Continues cs k j → i = k)
      ∧ (slots cs).filterMap Slot.dropped? = orphans cs := by
  have hrun := lowerChildren_run hon cs
  refine ⟨hrun, fun s => ?_, fun i hi => chainAt_eq hi, fun i k j h h' => h.unique h',
    filterMap_dropped? cs⟩
  refine ⟨(((cs.mapIdx (rewriteAt cs)).mapM id).run c s).1, by rw [hrun]; rfl, ?_⟩
  exact forall₂_mapM (fun i child t => outcome_rewriteAt cs i child c t) cs s

/-- `<else /><if /> text <elseif /><else /><elseif /><b /><unless /><else />`. -/
def mixedChildren : List Child :=
  let tag (name : String) : Child := .element (.mk .none .none (.plain name) [] [] false)
  [tag "else", tag "if", .text "text", tag "elseif", tag "else", tag "elseif", tag "b",
    tag "unless", tag "else"]

theorem lowerChildren_by_position_mixed :
    ({} : Options).controlFlow = true
      ∧ (chainAt mixedChildren 1).map (·.name.text) = ["elseif", "else"]
      ∧ (chainAt mixedChildren 7).map (·.name.text) = ["else"]
      ∧ (orphans mixedChildren).map (·.name.text) = ["else", "elseif"]
      ∧ (∀ s, ∃ outs, ((lowerChildren mixedChildren).run ⟨{}, []⟩ s).1 = outs.reduceOption
          ∧ List.Forall₂ Outcome mixedChildren outs)
      ∧ (slots mixedChildren).filterMap Slot.dropped? = orphans mixedChildren :=
  have h := lowerChildren_by_position mixedChildren ⟨{}, []⟩ rfl
  ⟨rfl, by decide, by decide, by decide, h.2.1, h.2.2.2.2⟩

end ControlFlow

end JsxDialect
