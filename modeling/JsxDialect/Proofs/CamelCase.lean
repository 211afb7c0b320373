import JsxDialect.Style.Declaration
import Mathlib.Data.List.Basic

/-!
# Camel case

Camel case drops hyphens and raises the character after them. It has the pieces of a text between
its hyphens, all but the first with their first character in upper case
(`camelChars_eq_joinPieces`). No upper-case form has a hyphen in it, so camel case has none
(`hyphen_notMem_camelWith`), and a text without hyphens stays as it is (`camelWith_of_notMem`).

`camelWith` has the way of raising as a parameter, so that two ways can be compared: they give the
same text exactly if they agree on the characters that are raised (`camelWith_eq_iff`). Whatever
else a text holds is still there, as often as before (`count_camelWith`).
-/

namespace JsxDialect

/-! ## Upper-case forms -/

namespace Text

/-- Whether a code point neither has an upper-case form nor is part of one. -/
def isUncased (n : Nat) : Bool :=
  upperExpansions.all (fun e => e.1 != n && !e.2.contains n)
    && upperRuns.all fun r =>
      (n < r.first || r.last < n) && (n < r.image || r.image + (r.last - r.first) < n)

/-- A mapping gives the images of an expansion, the image of a run, or the character itself. -/
theorem mapCase_cases (runs : List CaseRun) (expansions : List (Nat × List Nat)) (c : Char) :
    (∃ images, (c.toNat, images) ∈ expansions ∧ mapCase runs expansions c = images.map Char.ofNat)
      ∨ (∃ r ∈ runs, r.first ≤ c.toNat ∧ c.toNat ≤ r.last
        ∧ mapCase runs expansions c = [Char.ofNat (r.image + (c.toNat - r.first))])
      ∨ mapCase runs expansions c = [c] := by
  rw [mapCase]
  split
  case h_1 images hlookup =>
    obtain ⟨before, after, heq, -⟩ := List.lookup_eq_some_iff.mp hlookup
    exact .inl ⟨images, heq ▸ List.mem_append_right _ List.mem_cons_self, rfl⟩
  case h_2 =>
    split
    case h_1 n himage =>
      obtain ⟨r, hr, hn⟩ := List.exists_of_findSome?_eq_some himage
      rw [CaseRun.image?] at hn
      split at hn
      case isTrue hrange =>
        simp only [Bool.and_eq_true, decide_eq_true_eq] at hrange
        refine .inr (.inl ⟨r, hr, hrange.1.1, hrange.1.2, ?_⟩)
        rw [Option.some.inj hn]
      case isFalse => cases hn
    case h_2 => exact .inr (.inr rfl)

theorem ofNat_ne {x : Char} (hx : x.toNat ≠ 0) {n : Nat} (hn : n ≠ x.toNat) : Char.ofNat n ≠ x := by
  rintro rfl
  by_cases hvalid : n.isValidChar
  · have heq : Char.ofNat n = Char.ofNatAux n hvalid := dif_pos hvalid
    exact hn (congrArg Char.toNat heq).symm
  · have heq : Char.ofNat n = ⟨0, by decide⟩ := dif_neg hvalid
    exact hx (congrArg Char.toNat heq)

theorem isAlpha_iff {c : Char} :
    c.isAlpha = true ↔ (65 ≤ c.toNat ∧ c.toNat ≤ 90) ∨ (97 ≤ c.toNat ∧ c.toNat ≤ 122) := by
  delta Char.isAlpha Char.isUpper Char.isLower
  simp only [Bool.or_eq_true, Bool.and_eq_true, decide_eq_true_eq, ge_iff_le,
    UInt32.le_iff_toNat_le]
  rfl

/-- The mapping below U+0080 changes letters only, and it gives letters. -/
theorem toUpper_eq_or_isAlpha (c : Char) :
    c.toUpper = c ∨ c.isAlpha = true ∧ c.toUpper.isAlpha = true := by
  rw [isAlpha_iff, isAlpha_iff]
  delta Char.toUpper
  split
  case isTrue h =>
    have hlow : 97 ≤ c.toNat := UInt32.le_iff_toNat_le.mp h.1
    have hhigh : c.toNat ≤ 122 := UInt32.le_iff_toNat_le.mp h.2
    have himage : (c.val + ('A'.val - 'a'.val)).toNat = c.toNat - 32 := by
      rw [UInt32.toNat_add, show ('A'.val - 'a'.val).toNat = 2 ^ 32 - 32 from rfl]
      change (c.toNat + _) % _ = _
      omega
    refine .inr ⟨.inr ⟨hlow, hhigh⟩, .inl ?_⟩
    change 65 ≤ (c.val + ('A'.val - 'a'.val)).toNat ∧ (c.val + ('A'.val - 'a'.val)).toNat ≤ 90
    omega
  case isFalse => exact .inl rfl

/-- A character without upper-case forms is in a raised text as often as in the text. -/
theorem count_toUpper {x : Char} (hx : x.toNat ≠ 0) (hletter : x.isAlpha = false)
    (huncased : isUncased x.toNat = true) (c : Char) : (toUpper c).count x = [c].count x := by
  simp only [isUncased, Bool.and_eq_true, List.all_eq_true, bne_iff_ne, Bool.not_eq_true',
    Bool.or_eq_true, decide_eq_true_eq] at huncased
  obtain ⟨hexpansions, hruns⟩ := huncased
  have hzero : ∀ {d : Char}, d ≠ x → [d].count x = 0 := fun hd =>
    List.count_eq_zero.mpr fun hmem => hd (List.mem_singleton.mp hmem).symm
  have hne : ∀ {d : Char}, d.isAlpha = true → d ≠ x := by
    rintro d hd rfl
    exact Bool.false_ne_true (hletter.symm.trans hd)
  rw [toUpper]
  by_cases hc : c.toNat < 0x80
  · rw [if_pos hc]
    rcases toUpper_eq_or_isAlpha c with heq | ⟨hlower, hupper⟩
    · rw [heq]
    · rw [hzero (hne hupper), hzero (hne hlower)]
  · rw [if_neg hc]
    -- The tables were searched for `x` by `isUncased`: it is neither raised nor an image.
    rcases mapCase_cases upperRuns upperExpansions c with
      ⟨images, hmem, heq⟩ | ⟨r, hr, hfirst, hlast, heq⟩ | heq
    · obtain ⟨hne, himages⟩ := hexpansions _ hmem
      rw [heq, hzero fun hcx => hne (hcx ▸ rfl), List.count_eq_zero, List.mem_map]
      rintro ⟨n, hn, hnx⟩
      refine ofNat_ne hx ?_ hnx
      rintro rfl
      simp [hn] at himages
    · obtain ⟨hrange, himage⟩ := hruns r hr
      rw [heq, hzero (ofNat_ne hx (by omega)), hzero]
      rintro rfl
      omega
    · rw [heq]

/-- Only the hyphen itself has a hyphen in its upper-case form. -/
theorem hyphen_notMem_toUpper {c : Char} (hc : c ≠ '-') : '-' ∉ toUpper c := by
  -- The hyphen is no letter, and no entry of the tables has it on either side.
  rw [← List.count_eq_zero, count_toUpper (by decide) (by decide) (by decide), List.count_eq_zero]
  simpa using hc.symm

/-- The upper-case form of a character beyond the sixteen bits is a single character. -/
theorem length_toUpper_of_large {c : Char} (hc : 0x10000 ≤ c.toNat) : (toUpper c).length = 1 := by
  have hexpansions : ∀ e ∈ upperExpansions, e.1 < 0x10000 := by decide
  rw [toUpper, if_neg (by omega)]
  rcases mapCase_cases upperRuns upperExpansions c with
    ⟨images, hmem, -⟩ | ⟨r, -, -, -, heq⟩ | heq
  · have := hexpansions _ hmem
    omega
  · rw [heq, List.length_singleton]
  · rw [heq, List.length_singleton]

end Text

namespace Style

variable {upper upper' : Char → List Char}

/-- The text in camel case under a way to raise characters, after a hyphen or not. -/
def camelWith (upper : Char → List Char) : Bool → List Char → List Char
  | _, [] => []
  | pending, c :: cs =>
    if c == '-' then camelWith upper true cs
    else (if pending then upper c else [c]) ++ camelWith upper false cs

/-- The characters of a text that are raised, after a hyphen or not. -/
def raised : Bool → List Char → List Char
  | _, [] => []
  | pending, c :: cs =>
    if c == '-' then raised true cs else (if pending then [c] else []) ++ raised false cs

theorem camelWith_toUpper (cs : List Char) :
    camelWith Text.toUpper false cs = camelChars cs
      ∧ camelWith Text.toUpper true cs = camelAfter cs := by
  induction cs with
  | nil => exact ⟨rfl, rfl⟩
  | cons c cs ih =>
    obtain ⟨hchars, hafter⟩ := ih
    simp only [camelWith, camelChars, camelAfter, hchars, hafter]
    exact ⟨rfl, rfl⟩

/-- **Two ways to raise characters** that give texts of the same length agree on a text exactly if
they agree on the characters that are raised. -/
theorem camelWith_eq_iff (hlen : ∀ c, (upper c).length = (upper' c).length) (pending : Bool)
    (cs : List Char) :
    camelWith upper pending cs = camelWith upper' pending cs
      ↔ ∀ c ∈ raised pending cs, upper c = upper' c := by
  induction cs generalizing pending with
  | nil => simp [camelWith, raised]
  | cons c cs ih =>
    simp only [camelWith, raised]
    by_cases hc : (c == '-') = true
    · simp only [if_pos hc, ih]
    · simp only [if_neg hc]
      cases pending with
      | false => simp [ih]
      | true =>
        simp only [if_true, List.singleton_append, List.forall_mem_cons, ← ih]
        exact ⟨fun h => List.append_inj h (hlen c), fun h => by rw [h.1, h.2]⟩

/-- A character right after a hyphen comes first or further on. -/
theorem exists_hyphen_cons {cs : List Char} {c d : Char} :
    (∃ before after, d :: cs = before ++ '-' :: c :: after)
      ↔ (d = '-' ∧ cs.head? = some c) ∨ ∃ before after, cs = before ++ '-' :: c :: after := by
  constructor
  · rintro ⟨before, after, heq⟩
    cases before with
    | nil =>
      obtain ⟨rfl, rfl⟩ := List.cons.inj heq
      exact .inl ⟨rfl, rfl⟩
    | cons x before =>
      obtain ⟨-, rfl⟩ := List.cons.inj heq
      exact .inr ⟨before, after, rfl⟩
  · rintro (⟨rfl, hhead⟩ | ⟨before, after, rfl⟩)
    · obtain ⟨after, rfl⟩ := List.head?_eq_some_iff.mp hhead
      exact ⟨[], after, rfl⟩
    · exact ⟨d :: before, after, rfl⟩

/-- The characters that are raised are those right after hyphens. -/
theorem mem_raised_iff {cs : List Char} {c : Char} {pending : Bool} :
    c ∈ raised pending cs ↔ c ≠ '-' ∧ ((pending = true ∧ cs.head? = some c)
      ∨ ∃ before after, cs = before ++ '-' :: c :: after) := by
  induction cs generalizing pending with
  | nil => simp [raised]
  | cons d cs ih =>
    rw [exists_hyphen_cons, raised]
    by_cases hd : d = '-'
    · subst hd
      simp only [beq_self_eq_true, if_true, ih, List.head?_cons, Option.some.injEq, true_and]
      refine and_congr_right fun hc => ?_
      rw [or_iff_right (a := _ ∧ _) fun h => hc h.2.symm]
    · rw [if_neg (by simpa using hd), List.mem_append, ih]
      cases pending with
      | false => simp [hd]
      | true =>
        simp only [if_true, List.mem_singleton, List.head?_cons, Option.some.injEq, true_and, hd,
          false_and, false_or, Bool.false_eq_true]
        constructor
        · rintro (rfl | ⟨hc, hrest⟩)
          · exact ⟨hd, .inl rfl⟩
          · exact ⟨hc, .inr hrest⟩
        · rintro ⟨hc, rfl | hrest⟩
          · exact .inl rfl
          · exact .inr ⟨hc, hrest⟩

/-- A character that raising does not touch is there as often as before. -/
theorem count_camelWith {x : Char} (hx : x ≠ '-') (hupper : ∀ c, (upper c).count x = [c].count x)
    (pending : Bool) (cs : List Char) : (camelWith upper pending cs).count x = cs.count x := by
  induction cs generalizing pending with
  | nil => rfl
  | cons c cs ih =>
    simp only [camelWith]
    by_cases hc : (c == '-') = true
    · rw [if_pos hc, ih, beq_iff_eq.mp hc, List.count_cons_of_ne (Ne.symm hx)]
    · have hhead : (if pending then upper c else [c]).count x = [c].count x := by
        split
        · exact hupper c
        · rfl
      rw [if_neg hc, List.count_append, hhead, ih, ← List.count_append, List.singleton_append]

/-! ## Hyphens -/

theorem hyphen_notMem_camelWith (pending : Bool) (cs : List Char) :
    '-' ∉ camelWith Text.toUpper pending cs := by
  induction cs generalizing pending with
  | nil => exact List.not_mem_nil
  | cons c cs ih =>
    rw [camelWith]
    split
    · exact ih true
    · rename_i hc
      have hc : c ≠ '-' := by simpa using hc
      rw [List.mem_append, not_or]
      refine ⟨?_, ih false⟩
      split
      · exact Text.hyphen_notMem_toUpper hc
      · simpa using hc.symm

theorem camelWith_of_notMem {cs : List Char} (h : '-' ∉ cs) : camelWith upper false cs = cs := by
  induction cs with
  | nil => rfl
  | cons c cs ih =>
    simp only [List.mem_cons, not_or] at h
    rw [camelWith, if_neg (by simpa using Ne.symm h.1), ih h.2]
    rfl

/-! ## Pieces -/

/-- A name put together from pieces: all but the first have their first character in upper case. -/
def joinPieces : List (List Char) → List Char
  | [] => []
  | first :: later => first ++ later.flatMap Text.capitalize

/-- **Camel case by pieces.** After a hyphen the first piece is raised as well. -/
theorem camelChars_eq_joinPieces (cs : List Char) :
    camelChars cs = joinPieces (cs.splitOn '-')
      ∧ camelAfter cs = (cs.splitOn '-').flatMap Text.capitalize := by
  induction cs with
  | nil => exact ⟨rfl, rfl⟩
  | cons c cs ih =>
    obtain ⟨hchars, hafter⟩ := ih
    rw [camelChars, camelAfter, List.splitOn_cons_eq_if_modifyHead]
    by_cases hc : (c == '-') = true
    · -- The hyphen ends an empty piece, which adds nothing whether it is the first or not.
      rw [if_pos hc, if_pos hc, if_pos hc, hafter]
      exact ⟨rfl, rfl⟩
    · obtain ⟨first, later, hpieces⟩ := List.exists_cons_of_ne_nil (List.splitOn_ne_nil '-' cs)
      rw [hpieces, joinPieces] at hchars
      rw [if_neg hc, if_neg hc, if_neg hc, hpieces, hchars, List.modifyHead_cons, joinPieces,
        List.flatMap_cons, Text.capitalize, List.append_assoc]
      exact ⟨rfl, rfl⟩

end Style

end JsxDialect
