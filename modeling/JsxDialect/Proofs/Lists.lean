import Mathlib.Data.List.Forall2
import Mathlib.Data.List.TakeWhile

/-!
# Facts about lists

What the proofs need of lists and is in no library: relations between lists of equal length, where
an element of two lists put together stands, when a search does not end among the first elements,
and classes of elements within others.
-/

namespace JsxDialect

variable {α : Type}

/-- Lists related element by element, in two steps. -/
theorem forall₂_trans {r : α → α → Prop} (hr : ∀ {a b c}, r a b → r b c → r a c) {as bs cs : List α}
    (hab : List.Forall₂ r as bs) (hbc : List.Forall₂ r bs cs) : List.Forall₂ r as cs := by
  induction hab generalizing cs with
  | nil => exact hbc
  | cons hhead _ ih =>
    cases hbc with
    | cons hhead' htail' => exact .cons (hr hhead hhead') (ih htail')

/-- What is related to an element of the second list is in the first one. -/
theorem exists_of_forall₂ {β : Type} {r : α → β → Prop} {as : List α} {bs : List β}
    (h : List.Forall₂ r as bs) {b : β} (hb : b ∈ bs) : ∃ a ∈ as, r a b := by
  induction h with
  | nil => cases hb
  | cons hhead _ ih =>
    rcases List.mem_cons.mp hb with rfl | hb
    · exact ⟨_, List.mem_cons_self, hhead⟩
    · obtain ⟨a, ha, hab⟩ := ih hb
      exact ⟨a, List.mem_cons_of_mem _ ha, hab⟩

/-- A search among pairs that are related, for what only the second of each pair decides. -/
theorem any_zip_iff {β : Type} {r : α → β → Prop} {f : α × β → Bool} {p : β → Prop}
    (hf : ∀ {a b}, r a b → (f (a, b) = true ↔ p b)) {as : List α} {bs : List β}
    (h : List.Forall₂ r as bs) : (as.zip bs).any f = true ↔ ∃ b ∈ bs, p b := by
  induction h with
  | nil => simp
  | cons hhead _ ih =>
    rw [List.zip_cons_cons, List.any_cons, Bool.or_eq_true, ih, hf hhead]
    simp

/-- An element of two lists put together is after the first list, or in it. -/
theorem split_append {first second before after : List α} {a : α}
    (h : first ++ second = before ++ a :: after) :
    (∃ pre, before = first ++ pre ∧ a ∈ second) ∨ ∃ rest, first = before ++ a :: rest := by
  rcases List.append_eq_append_iff.mp h with ⟨pre, hbefore, hsecond⟩ | ⟨rest, hfirst, hrest⟩
  · exact .inl ⟨pre, hbefore, hsecond ▸ List.mem_append_right _ List.mem_cons_self⟩
  · cases rest with
    | nil =>
      rw [List.append_nil] at hfirst
      rw [List.nil_append] at hrest
      exact .inl ⟨[], by rw [hfirst, List.append_nil], hrest ▸ List.mem_cons_self⟩
    | cons b rest =>
      obtain ⟨rfl, -⟩ := List.cons.inj hrest
      exact .inr ⟨rest, hfirst⟩

/-- A search among more elements ends where the search among the last ones does exactly if it passes
over all the others. -/
theorem dropWhile_append_eq_iff (q : α → Bool) (inner outer : List α) :
    (inner ++ outer).dropWhile q = outer.dropWhile q ↔ ∀ a ∈ inner, q a = true := by
  rw [List.dropWhile_append, ← List.dropWhile_eq_nil_iff]
  split
  · rename_i hempty
    exact iff_of_true rfl (List.isEmpty_iff.mp hempty)
  · rename_i hfound
    have hfound : inner.dropWhile q ≠ [] := fun hnil => hfound (by rw [hnil]; rfl)
    refine iff_of_false (fun heq => ?_) hfound
    have hlen := congrArg List.length heq
    have hle := (List.dropWhile_suffix q (l := outer)).length_le
    have hpos := List.length_pos_iff.mpr hfound
    rw [List.length_append] at hlen
    omega

/-- The elements of a class, taken from those of a larger class. -/
theorem filter_filter_of_imp {p q : α → Bool} {l : List α} (h : ∀ a, p a = true → q a = true) :
    (l.filter q).filter p = l.filter p := by
  rw [List.filter_filter]
  refine List.filter_congr fun a _ => ?_
  cases hp : p a with
  | false => rfl
  | true => rw [h a hp]; rfl

/-- The last element of a class is the last one of a smaller class too, if it is in it. -/
theorem getLast?_filter_of_imp {p q : α → Bool} {l : List α} {a : α}
    (h : (l.filter p).getLast? = some a) (hpq : ∀ b, q b = true → p b = true) (ha : q a = true) :
    (l.filter q).getLast? = some a := by
  obtain ⟨front, hfront⟩ := List.getLast?_eq_some_iff.mp h
  rw [← filter_filter_of_imp hpq, hfront, List.filter_append, List.filter_cons_of_pos ha,
    List.filter_nil, List.getLast?_concat]

end JsxDialect
