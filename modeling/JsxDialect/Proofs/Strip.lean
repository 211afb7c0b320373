import Mathlib.Data.List.TakeWhile

/-!
# Stripping

Taking the elements of a class off both ends of a list: white space off a text, for one. What is
left is the part between elements of the class whose own ends are outside of it (`strip_eq_iff`).
Two classes that differ in one element each leave the same exactly if what their common part leaves
neither starts nor ends with one of the two (`strip_or_eq_strip_or_iff`): an element that is taken
off under one class is still there, and counted, under the other.
-/

namespace JsxDialect

variable {α : Type} {p : α → Bool} {x y : α} {l w : List α}

/-- The list without the elements of a class at its ends. -/
def strip (p : α → Bool) (l : List α) : List α :=
  ((l.dropWhile p).reverse.dropWhile p).reverse

/-- The first and the last element of a list. -/
def ends (w : List α) : List α :=
  w.head?.toList ++ w.getLast?.toList

theorem mem_ends_iff {c : α} : c ∈ ends w ↔ w.head? = some c ∨ w.getLast? = some c := by
  simp [ends]

/-- What is left at the front. -/
theorem dropWhile_eq_iff : l.dropWhile p = w ↔ ∃ before, l = before ++ w
    ∧ (∀ c ∈ before, p c = true) ∧ ∀ c, w.head? = some c → p c = false := by
  constructor
  · rintro rfl
    refine ⟨l.takeWhile p, List.takeWhile_append_dropWhile.symm,
      fun c hc => List.mem_takeWhile_imp hc, fun c hc => ?_⟩
    have hhead := List.head?_dropWhile_not p l
    rw [hc] at hhead
    exact hhead
  · rintro ⟨before, rfl, hbefore, hhead⟩
    rw [List.dropWhile_append_of_pos hbefore]
    cases w with
    | nil => rfl
    | cons c w => exact List.dropWhile_cons_of_neg (by simp [hhead c rfl])

/-- What is left at the end. -/
theorem dropEndWhile_eq_iff : (l.reverse.dropWhile p).reverse = w ↔ ∃ after, l = w ++ after
    ∧ (∀ c ∈ after, p c = true) ∧ ∀ c, w.getLast? = some c → p c = false := by
  rw [List.reverse_eq_iff, dropWhile_eq_iff]
  constructor
  · rintro ⟨after, heq, hafter, hlast⟩
    refine ⟨after.reverse, ?_, by simpa using hafter, by simpa using hlast⟩
    rw [List.reverse_eq_iff.mp heq, List.reverse_append, List.reverse_reverse]
  · rintro ⟨after, rfl, hafter, hlast⟩
    exact ⟨after.reverse, List.reverse_append, by simpa using hafter, by simpa using hlast⟩

/-- **What stripping leaves** stands between elements of the class and has none at its ends. -/
theorem strip_eq_iff : strip p l = w ↔ ∃ before after, l = before ++ (w ++ after)
    ∧ (∀ c ∈ before, p c = true) ∧ (∀ c ∈ after, p c = true) ∧ ∀ c ∈ ends w, p c = false := by
  simp only [strip, dropEndWhile_eq_iff, dropWhile_eq_iff, mem_ends_iff]
  constructor
  · rintro ⟨after, ⟨before, heq, hbefore, hhead⟩, hafter, hlast⟩
    refine ⟨before, after, heq, hbefore, hafter, fun c hc => hc.elim (fun hc => ?_) (hlast c)⟩
    exact hhead c (by rw [List.head?_append, hc]; rfl)
  · rintro ⟨before, after, rfl, hbefore, hafter, hends⟩
    cases w with
    | nil =>
      -- Nothing is left: the front takes all of it.
      refine ⟨[], ⟨before ++ after, by simp, ?_, by simp⟩, by simp, by simp⟩
      exact fun c hc => (List.mem_append.mp hc).elim (hbefore c) (hafter c)
    | cons d w =>
      exact ⟨after, ⟨before, rfl, hbefore, fun c hc => hends c (.inl hc)⟩, hafter,
        fun c hc => hends c (.inr hc)⟩

/-- Nothing is taken off the front but what `takeWhile` takes. -/
theorem takeWhile_append_strip (p : α → Bool) (l : List α) :
    ∃ after, l = l.takeWhile p ++ (strip p l ++ after) ∧ ∀ c ∈ after, p c = true := by
  obtain ⟨after, heq, hafter, -⟩ := dropEndWhile_eq_iff.mp (rfl : _ = strip p l)
  exact ⟨after, by rw [← heq, List.takeWhile_append_dropWhile], hafter⟩

variable [DecidableEq α]

/-- An element outside of the class is there as often as before. -/
theorem count_strip (hx : p x = false) : (strip p l).count x = l.count x := by
  obtain ⟨before, after, heq, hbefore, hafter, -⟩ := strip_eq_iff.mp (rfl : strip p l = _)
  have hzero : ∀ part : List α, (∀ c ∈ part, p c = true) → part.count x = 0 := by
    intro part hpart
    refine List.count_eq_zero.mpr fun hmem => ?_
    rw [hpart x hmem] at hx
    cases hx
  calc (strip p l).count x = (before ++ (strip p l ++ after)).count x := by
        rw [List.count_append, List.count_append, hzero before hbefore, hzero after hafter]
        omega
    _ = l.count x := by rw [← heq]

/-- A class with one element more leaves the same if that element is at neither end. -/
theorem strip_or_eq (hends : x ∉ ends (strip p l)) :
    strip (fun c => p c || c == x) l = strip p l := by
  obtain ⟨before, after, heq, hbefore, hafter, hstrip⟩ := strip_eq_iff.mp (rfl : strip p l = _)
  refine strip_eq_iff.mpr ⟨before, after, heq, fun c hc => ?_, fun c hc => ?_, fun c hc => ?_⟩
  · rw [hbefore c hc, Bool.true_or]
  · rw [hafter c hc, Bool.true_or]
  · rw [hstrip c hc, Bool.false_or, beq_eq_false_iff_ne]
    rintro rfl
    exact hends hc

/-- A class with one element more that takes none of these off leaves the same, and the element is
at neither end. -/
theorem strip_or_eq_of_count
    (hcount : (strip (fun c => p c || c == x) l).count x = l.count x) :
    strip (fun c => p c || c == x) l = strip p l ∧ x ∉ ends (strip p l) := by
  obtain ⟨before, after, heq, hbefore, hafter, hstrip⟩ :=
    strip_eq_iff.mp (rfl : strip (fun c => p c || c == x) l = _)
  set w := strip (fun c => p c || c == x) l
  have hnone : before.count x = 0 ∧ after.count x = 0 := by
    rw [heq, List.count_append, List.count_append] at hcount
    omega
  have hclass : ∀ part : List α, (∀ c ∈ part, (p c || c == x) = true) → part.count x = 0 →
      ∀ c ∈ part, p c = true := by
    intro part hpart hzero c hc
    have hne : (c == x) = false :=
      beq_false_of_ne fun hcx => List.count_eq_zero.mp hzero (hcx ▸ hc)
    have hor := hpart c hc
    rwa [hne, Bool.or_false] at hor
  have hw : strip p l = w := strip_eq_iff.mpr ⟨before, after, heq,
    hclass before hbefore hnone.1, hclass after hafter hnone.2,
    fun c hc => (Bool.or_eq_false_iff.mp (hstrip c hc)).1⟩
  refine ⟨hw.symm, fun hx => ?_⟩
  have hself := hstrip x (hw ▸ hx)
  rw [beq_self_eq_true, Bool.or_true] at hself
  cases hself

/-- **Two classes** that differ in one element each leave the same, also after maps that keep these
elements, exactly if what their common part leaves has neither of them at its ends. -/
theorem strip_or_eq_strip_or_iff {f g : List α → List α} (hxy : x ≠ y) (hx : p x = false)
    (hy : p y = false) (hf : ∀ ds, (f ds).count x = ds.count x ∧ (f ds).count y = ds.count y)
    (hg : ∀ ds, (g ds).count x = ds.count x ∧ (g ds).count y = ds.count y) :
    f (strip (fun c => p c || c == x) l) = g (strip (fun c => p c || c == y) l)
      ↔ (x ∉ ends (strip p l) ∧ y ∉ ends (strip p l)) ∧ f (strip p l) = g (strip p l) := by
  constructor
  · intro heq
    obtain ⟨hleft, hxends⟩ : strip (fun c => p c || c == x) l = strip p l
        ∧ x ∉ ends (strip p l) := by
      refine strip_or_eq_of_count ?_
      rw [← (hf _).1, heq, (hg _).1, count_strip (by simp [hx, hxy])]
    obtain ⟨hright, hyends⟩ : strip (fun c => p c || c == y) l = strip p l
        ∧ y ∉ ends (strip p l) := by
      refine strip_or_eq_of_count ?_
      rw [← (hg _).2, ← heq, (hf _).2, count_strip (by simp [hy, Ne.symm hxy])]
    rw [hleft, hright] at heq
    exact ⟨⟨hxends, hyends⟩, heq⟩
  · rintro ⟨⟨hxends, hyends⟩, heq⟩
    rw [strip_or_eq hxends, strip_or_eq hyends, heq]

end JsxDialect
