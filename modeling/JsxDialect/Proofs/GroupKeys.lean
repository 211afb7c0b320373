import JsxDialect.Lower.ControlFlow
import JsxDialect.Proofs.Directives
import JsxDialect.Proofs.Names

/-!
# The keys of a group

Every element of a group gets a key, so that the entries of the array can be told apart: the one it
was written with, or else its position among the elements. Positions differ from each other, but
nothing keeps them apart from written keys. `keyAt_keyed_iff` says which keys an element ends up
with, and `lowerGroup_keys` when two elements share one.
-/

namespace JsxDialect

/-! ## Written keys -/

/-- The text of a value that is a string, with or without braces around it. -/
def AttrValue.literal? : AttrValue → Option String
  | .string text => some text
  | .container _ (some e) =>
    match e.inner with
    | .string _ text => some text
    | _ => none
  | _ => none

/-- The key that an attribute gives, if it is a string. -/
def Attr.keyText? : Attr → Option String
  | .named _ name value => if name.text = "key" then value.literal? else none
  | .spread .. => none

/-- The strings that an element has as keys. -/
def Element.keyTexts (e : Element) : List String :=
  e.attrs.filterMap Attr.keyText?

namespace ControlFlow

/-- Whether the element at a position has a string as its key. -/
def KeyAt (es : List Element) (i : Nat) (key : String) : Prop :=
  ∃ e ∈ es[i]?, key ∈ e.keyTexts

/-- Whether the element at a position has no key. -/
def KeylessAt (es : List Element) (i : Nat) : Prop :=
  ∃ e ∈ es[i]?, Attrs.has e.attrs "key" = false

/-- A child of a group and the entry it is shown as. -/
inductive Entered : Child → Child → Prop
  | same (c : Child) : Entered c c
  /-- An element without a key gets one. -/
  | keyed {e : Element} (key : String) : Attrs.has e.attrs "key" = false →
      Entered (.element e) (.element (e.withAttrs (e.attrs ++ [Build.stringAttr e.span "key" key])))

/-! ## Keys that are added -/

/-- An element with a position as its key, unless it has one. -/
def withKey (position : Nat) (e : Element) : Element :=
  if Attrs.has e.attrs "key" then e
  else e.withAttrs (e.attrs ++ [Build.stringAttr e.span "key" (toString position)])

theorem attrs_withAttrs (e : Element) (as : List Attr) : (e.withAttrs as).attrs = as := by
  cases e
  rfl

theorem keyTexts_of_keyless {e : Element} (h : Attrs.has e.attrs "key" = false) :
    e.keyTexts = [] := by
  refine List.filterMap_eq_nil_iff.mpr fun a ha => ?_
  have hnot := Attrs.has_eq_false_iff.mp h a ha
  cases a with
  | spread => rfl
  | named span name value =>
    rw [Attrs.isNamed_named] at hnot
    exact if_neg (beq_eq_false_iff_ne.mp hnot)

theorem has_withKey (position : Nat) (e : Element) :
    Attrs.has (withKey position e).attrs "key" = true := by
  unfold withKey
  split
  · assumption
  · rw [attrs_withAttrs, Attrs.has_append]
    exact Bool.or_true _

theorem mem_keyTexts_withKey_iff {position : Nat} {e : Element} {key : String} :
    key ∈ (withKey position e).keyTexts
      ↔ key ∈ e.keyTexts ∨ Attrs.has e.attrs "key" = false ∧ key = toString position := by
  unfold withKey
  cases hkey : Attrs.has e.attrs "key" with
  | true => simp
  | false =>
    have hown : e.attrs.filterMap Attr.keyText? = [] := keyTexts_of_keyless hkey
    have hadded : (Build.stringAttr e.span "key" (toString position)).keyText?
        = some (toString position) := rfl
    rw [if_neg Bool.false_ne_true, Element.keyTexts, Element.keyTexts, attrs_withAttrs,
      List.filterMap_append, hown, List.filterMap_cons_some hadded]
    simp

/-- Keys are added to the elements by their positions. -/
theorem elementsOf_keyed (position : Nat) (cs : List Child) :
    elementsOf (keyed position cs)
      = (elementsOf cs).mapIdx fun i e => withKey (position + i) e := by
  induction cs generalizing position with
  | nil => rfl
  | cons c cs ih =>
    cases c with
    | text _ | fragment _ _ | container _ | spread _ => exact ih position
    | element e =>
      have hkeyed : elementsOf (keyed position (.element e :: cs))
          = withKey position e :: elementsOf (keyed (position + 1) cs) := rfl
      have helements : elementsOf (.element e :: cs) = e :: elementsOf cs := rfl
      rw [hkeyed, ih, helements, List.mapIdx_cons]
      simp only [Nat.add_assoc, Nat.add_comm 1, Nat.add_zero]

/-- Nothing else is changed. -/
theorem forall₂_keyed (position : Nat) (cs : List Child) :
    List.Forall₂ Entered cs (keyed position cs) := by
  induction cs generalizing position with
  | nil => exact .nil
  | cons c cs ih =>
    cases c with
    | text _ | fragment _ _ | container _ | spread _ => exact .cons (.same _) (ih position)
    | element e =>
      refine .cons ?_ (ih (position + 1))
      split
      · exact .same _
      · rename_i hkey
        exact .keyed _ (Bool.eq_false_iff.mpr hkey)

/-- **The keys of an element** are those it was written with, or its position if there is none. -/
theorem keyAt_keyed_iff {cs : List Child} {i : Nat} {key : String} :
    KeyAt (elementsOf (keyed 0 cs)) i key
      ↔ KeyAt (elementsOf cs) i key ∨ KeylessAt (elementsOf cs) i ∧ key = toString i := by
  unfold KeyAt KeylessAt
  rw [elementsOf_keyed, List.getElem?_mapIdx, Nat.zero_add]
  cases (elementsOf cs)[i]? with
  | none => simp
  | some e => simp [mem_keyTexts_withKey_iff]

/-- **Keys in a group.** A group is the array of its children, in which every element has a key. Two
elements share a string as their key exactly if both were written with it, or if one was and the
other, written without a key, stands at the position that the string denotes. -/
theorem lowerGroup_keys (g : Element) :
    ∃ children, lowerGroup g = .array g.span (childExprs children)
      ∧ List.Forall₂ Entered g.children children
      ∧ (∀ e ∈ elementsOf children, Attrs.has e.attrs "key" = true)
      ∧ ∀ i j key, i ≠ j →
        (KeyAt (elementsOf children) i key ∧ KeyAt (elementsOf children) j key
          ↔ KeyAt (elementsOf g.children) i key ∧ KeyAt (elementsOf g.children) j key
            ∨ KeyAt (elementsOf g.children) i key
              ∧ KeylessAt (elementsOf g.children) j ∧ key = toString j
            ∨ KeyAt (elementsOf g.children) j key
              ∧ KeylessAt (elementsOf g.children) i ∧ key = toString i) := by
  refine ⟨keyed 0 g.children, rfl, forall₂_keyed 0 _, fun e he => ?_, fun i j key hij => ?_⟩
  · rw [elementsOf_keyed] at he
    obtain ⟨i, hi, rfl⟩ := List.mem_mapIdx.mp he
    exact has_withKey _ _
  · -- Two positions are never the same string.
    have hne : ¬(key = toString i ∧ key = toString j) := fun h =>
      hij (toString_nat_injective (h.1.symm.trans h.2))
    rw [keyAt_keyed_iff, keyAt_keyed_iff]
    tauto

/-- `<name key="…" />`, or `<name />` without a key. -/
def keyedTag (name : String) (key : Option String) : Element :=
  .mk .none .none (.plain name) (key.toList.map (Build.stringAttr .none "key")) [] false

/-- `<g>…</g>`. -/
def groupOf (children : List Child) : Element :=
  .mk .none .none (.plain "g") [] children true

/-- In `<g><a key="x" /><b /><c key="x" /></g>` the first and the last element share their key, and
no other element does. -/
theorem lowerGroup_keys_shared :
    let es := [keyedTag "a" (some "x"), keyedTag "b" none, keyedTag "c" (some "x")]
    ∃ children, lowerGroup (groupOf (es.map Child.element)) = .array .none (childExprs children)
      ∧ (KeyAt (elementsOf children) 0 "x" ∧ KeyAt (elementsOf children) 2 "x")
      ∧ ∀ key, ¬(KeyAt (elementsOf children) 0 key ∧ KeyAt (elementsOf children) 1 key) := by
  intro es
  obtain ⟨children, hgroup, -, -, hshared⟩ := lowerGroup_keys (groupOf (es.map Child.element))
  have hes : elementsOf (groupOf (es.map Child.element)).children = es := rfl
  rw [hes] at hshared
  refine ⟨children, hgroup, (hshared 0 2 "x" (by decide)).mpr (.inl ?_), fun key hkey => ?_⟩
  · exact ⟨⟨_, rfl, List.mem_singleton_self _⟩, ⟨_, rfl, List.mem_singleton_self _⟩⟩
  · rcases (hshared 0 1 key (by decide)).mp hkey with
      ⟨-, e, he, hmem⟩ | ⟨⟨e, he, hmem⟩, -, rfl⟩ | ⟨-, ⟨e, he, hless⟩, -⟩
    · obtain rfl := Option.some.inj he
      cases hmem
    · obtain rfl := Option.some.inj he
      exact absurd (List.mem_singleton.mp hmem) (by decide)
    · obtain rfl := Option.some.inj he
      cases hless

/-- **Keys that are not told apart.** In `<g><a key="1" /><b />{<c />}</g>` the position of the
second element is the key of the first one, and the element in braces has no key. -/
theorem lowerGroup_repeats_key :
    lowerGroup (groupOf [.element (keyedTag "a" (some "1")), .element (keyedTag "b" none),
        .container (some (.element (keyedTag "c" none)))])
      = .array .none [.element (keyedTag "a" (some "1")), .element (keyedTag "b" (some "1")),
        .element (keyedTag "c" none)] :=
  rfl

end ControlFlow

end JsxDialect
