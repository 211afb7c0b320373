import JsxDialect.Proofs.Insertion
import Mathlib.Data.List.Forall2

/-!
# Places in a prepared text map back exactly

The place that an offset has in the source is the number of bytes before it that were not inserted
(`length_kept`). So the map is monotone and never counts below zero, it takes the bytes of the
source, one after the other, to where they stand in it, and whatever is between two offsets of the
prepared text is, less the insertions, what is between their places in the source.
-/

namespace JsxDialect

theorem Text.length_without (ps : List Nat) (n : Nat) (bs : List UInt8) :
    (Text.without ps n bs).length = ((List.range' n bs.length).filter (· ∉ ps)).length := by
  rw [Text.without, List.length_map, ← List.zipIdx_map_snd n bs, List.filter_map, List.length_map]
  rfl

namespace Prepared

open Text (bytes without)

variable {p : Prepared} {source : List UInt8} {a b : Nat}

/-- The positions before an offset at which nothing was inserted. -/
def kept (p : Prepared) (n : Nat) : List Nat :=
  (List.range n).filter (· ∉ p.inserted)

theorem kept_succ_of_mem {n : Nat} (h : n ∈ p.inserted) : p.kept (n + 1) = p.kept n := by
  simp [kept, List.range_succ, h]

theorem kept_succ_of_notMem {n : Nat} (h : n ∉ p.inserted) : p.kept (n + 1) = p.kept n ++ [n] := by
  simp [kept, List.range_succ, h]

/-- The insertions before an offset and the other positions before it are all of them. -/
theorem length_filter_add_length_kept (h : p.inserted.Pairwise (· < ·)) (n : Nat) :
    (p.inserted.filter (· < n)).length + (p.kept n).length = n := by
  have hnodup : p.inserted.Nodup := h.imp fun hlt => Nat.ne_of_lt hlt
  have hperm : (p.inserted.filter (· < n)).Perm ((List.range n).filter (· ∈ p.inserted)) := by
    refine (List.perm_ext_iff_of_nodup (hnodup.filter _) (List.nodup_range.filter _)).mpr ?_
    intro i
    simp [and_comm]
  have hsum := List.length_eq_length_filter_add (l := List.range n) (· ∈ p.inserted)
  rw [List.length_range] at hsum
  rw [hperm.length_eq]
  simpa [kept] using hsum.symm

/-- **The place of an offset is a count**, of the bytes before it that were not inserted. -/
theorem length_kept (h : p.inserted.Pairwise (· < ·)) (n : Nat) :
    (p.kept n).length = p.offset n := by
  have hall := length_filter_add_length_kept h n
  rw [offset, takeWhile_eq_filter h]
  omega

theorem offset_add_length_filter (h : p.inserted.Pairwise (· < ·)) (n : Nat) :
    p.offset n + (p.inserted.filter (· < n)).length = n := by
  have hall := length_filter_add_length_kept h n
  rw [← length_kept h]
  omega

theorem offset_mono (h : p.inserted.Pairwise (· < ·)) (hab : a ≤ b) : p.offset a ≤ p.offset b := by
  rw [← length_kept h, ← length_kept h]
  exact ((List.range_sublist.mpr hab).filter _).length_le

/-- The positions at which nothing was inserted map to the numbers from zero on. -/
theorem map_offset_kept (h : p.inserted.Pairwise (· < ·)) (n : Nat) :
    (p.kept n).map p.offset = List.range (p.offset n) := by
  rw [← length_kept h n]
  induction n with
  | zero => rfl
  | succ n ih =>
    by_cases hn : n ∈ p.inserted
    · rw [kept_succ_of_mem hn, ih]
    · rw [kept_succ_of_notMem hn, List.map_append, ih, List.length_append, List.length_singleton,
        List.range_succ, length_kept h]
      rfl

/-! ## Bytes between two offsets -/

theorem length_without_take (h : p.inserted.Pairwise (· < ·)) {bs : List UInt8}
    (ha : a ≤ bs.length) : (without p.inserted 0 (bs.take a)).length = p.offset a := by
  rw [Text.length_without, List.length_take, Nat.min_eq_left ha, ← List.range_eq_range',
    ← length_kept h, kept]

theorem Adds.offset_length (h : Adds source p) :
    p.offset (bytes p.text).length = source.length := by
  rw [← length_without_take h.ascending (Nat.le_refl _), List.take_length, h.rest]

/-- **What is between two offsets**, less the insertions, is what is between their places. -/
theorem Adds.extract_eq (h : Adds source p) (hab : a ≤ b) (hb : b ≤ (bytes p.text).length) :
    source.extract (p.offset a) (p.offset b)
      = without p.inserted a ((bytes p.text).extract a b) := by
  have ha : a ≤ (bytes p.text).length := Nat.le_trans hab hb
  -- The bytes up to `b` are those up to `a` and those in between.
  have htake : (bytes p.text).take b = (bytes p.text).take a ++ (bytes p.text).extract a b := by
    rw [List.extract_eq_take_drop, ← List.take_append_drop a ((bytes p.text).take b),
      List.take_take, Nat.min_eq_left hab, List.drop_take]
  have hupTo : without p.inserted 0 ((bytes p.text).take b)
      = without p.inserted 0 ((bytes p.text).take a)
        ++ without p.inserted a ((bytes p.text).extract a b) := by
    rw [htake, Text.without_append, List.length_take, Nat.min_eq_left ha, Nat.zero_add]
  have hsource : source = without p.inserted 0 ((bytes p.text).take b)
      ++ without p.inserted b ((bytes p.text).drop b) := by
    conv_lhs => rw [← h.rest, ← List.take_append_drop b (bytes p.text)]
    rw [Text.without_append, List.length_take, Nat.min_eq_left hb, Nat.zero_add]
  have hlenA := length_without_take h.ascending ha
  have hlenB := length_without_take h.ascending hb
  rw [List.extract_eq_take_drop, ← List.drop_take, hsource, ← hlenA, ← hlenB, List.take_left,
    hupTo, List.drop_left]

/-- A byte that was not inserted is the byte at its place in the source. -/
theorem Adds.getElem?_offset (h : Adds source p) (ha : a < (bytes p.text).length)
    (hnot : a ∉ p.inserted) : source[p.offset a]? = (bytes p.text)[a]? := by
  have hnext : p.offset (a + 1) = p.offset a + 1 := by
    rw [← length_kept h.ascending, kept_succ_of_notMem hnot, List.length_append,
      length_kept h.ascending, List.length_singleton]
  have hone := h.extract_eq (Nat.le_add_right a 1) ha
  rw [hnext, List.extract_eq_take_drop, List.extract_eq_take_drop, Nat.add_sub_cancel_left,
    Nat.add_sub_cancel_left, List.take_one, List.take_one, List.head?_drop, List.head?_drop,
    List.getElem?_eq_getElem ha, Option.toList_some, Text.without_cons_of_notMem hnot,
    Text.without_nil] at hone
  rw [List.getElem?_eq_getElem ha]
  cases hget : source[p.offset a]? with
  | none => rw [hget] at hone; cases hone
  | some byte => rw [hget] at hone; exact congrArg some (List.cons.inj hone).1

/-! ## Labels -/

/-- Without insertions, every offset is its own place. -/
theorem offset_of_not_isChanged (h : p.isChanged = false) (n : Nat) : p.offset n = n := by
  have hnil : p.inserted = [] := by simpa [isChanged] using h
  rw [offset, hnil, List.takeWhile_nil, List.length_nil, Nat.sub_zero]

/-- How a label and the label it is mapped to belong together. -/
structure Label.MapsTo (p : Prepared) (l m : Label) : Prop where
  name : m.name = l.name
  start : m.start = p.offset l.start
  stop : m.start + m.length = p.offset (l.start + l.length)

theorem mapsTo_label (h : p.inserted.Pairwise (· < ·)) (l : Label) :
    Label.MapsTo p l (p.label l) where
  name := rfl
  start := rfl
  stop := Nat.add_sub_of_le (offset_mono h (Nat.le_add_right l.start l.length))

/-- Labels are mapped one by one, each to the places where it starts and stops. -/
theorem forall₂_remap (h : p.inserted.Pairwise (· < ·)) (labels : List Label) :
    List.Forall₂ (Label.MapsTo p) labels (p.remap labels) := by
  unfold remap
  split
  · exact List.forall₂_map_right_iff.mpr (List.forall₂_same.mpr fun l _ => mapsTo_label h l)
  · rename_i hchanged
    have hsame := offset_of_not_isChanged (p := p) (by simpa using hchanged)
    exact List.forall₂_same.mpr fun l _ => ⟨rfl, (hsame _).symm, (hsame _).symm⟩

/-- **Places map back exactly.** For whatever a reader refuses, and two offsets of the prepared
text: the map is monotone and stays in the source, and between their places in the source is what is
between the offsets, less the insertions. No subtraction of a place cuts off. The positions of the
bytes that were not inserted map, in their order, to all the offsets of the source, each to where
its byte is. Labels keep their names and their order, and each goes from the place where it starts
to the place where it stops, inside of the source if it was inside of the prepared text. -/
theorem ofReader_offset_exact (refused : List Char → List Span) (source : List Char) :
    let p := ofReader refused source
    (∀ a b, a ≤ b → b ≤ (bytes p.text).length →
        p.offset a ≤ p.offset b ∧ p.offset b ≤ (bytes source).length
          ∧ (bytes source).extract (p.offset a) (p.offset b)
              = without p.inserted a ((bytes p.text).extract a b))
      ∧ (∀ n, p.offset n + (p.inserted.filter (· < n)).length = n)
      ∧ (p.kept (bytes p.text).length).map p.offset = List.range (bytes source).length
      ∧ (∀ n ∈ p.kept (bytes p.text).length, (bytes source)[p.offset n]? = (bytes p.text)[n]?)
      ∧ ∀ labels : List Label, List.Forall₂ (fun l m => m.name = l.name ∧ m.start = p.offset l.start
          ∧ m.start + m.length = p.offset (l.start + l.length)
          ∧ (l.start + l.length ≤ (bytes p.text).length →
              m.start + m.length ≤ (bytes source).length))
        labels (p.remap labels) := by
  intro p
  -- All of it follows from one fact: the prepared text is the source with insertions.
  have hadds : Adds (bytes source) p := adds_ofReader refused source
  have hwithin : ∀ n ≤ (bytes p.text).length, p.offset n ≤ (bytes source).length := by
    intro n hn
    rw [← hadds.offset_length]
    exact offset_mono hadds.ascending hn
  refine ⟨fun a b hab hb => ?_, offset_add_length_filter hadds.ascending, ?_, fun n hn => ?_,
    fun labels => ?_⟩
  · exact ⟨offset_mono hadds.ascending hab, hwithin b hb, hadds.extract_eq hab hb⟩
  · rw [map_offset_kept hadds.ascending, hadds.offset_length]
  · obtain ⟨hrange, hnot⟩ := List.mem_filter.mp hn
    exact hadds.getElem?_offset (List.mem_range.mp hrange) (of_decide_eq_true hnot)
  · refine (forall₂_remap hadds.ascending labels).imp fun l m hmaps => ?_
    exact ⟨hmaps.name, hmaps.start, hmaps.stop, fun hl => hmaps.stop ▸ hwithin _ hl⟩

/-- Between the outer opening parenthesis of `nestedSource` and its inner closing one. -/
theorem ofReader_offset_exact_nested :
    let p := ofReader nestedLists nestedSource
    7 ≤ 24 ∧ 24 ≤ (bytes p.text).length ∧ p.offset 7 = 7 ∧ p.offset 24 = 22
      ∧ (bytes nestedSource).extract (p.offset 7) (p.offset 24)
          = without p.inserted 7 ((bytes p.text).extract 7 24) :=
  ⟨by decide, by decide +kernel, by decide +kernel, by decide +kernel,
    ((ofReader_offset_exact nestedLists nestedSource).1 7 24 (by decide) (by decide +kernel)).2.2⟩

end Prepared

end JsxDialect
