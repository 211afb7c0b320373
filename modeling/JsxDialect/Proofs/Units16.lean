import JsxDialect.Proofs.CamelCase
import JsxDialect.Proofs.Strip

/-!
# Texts at run time

When a compiled module runs, its texts are sequences of 16-bit units: a character is one unit, or
two surrogates if it is beyond the sixteen bits. What is done with units there looks at single
units. For the operations that styles need, this file says what they do in terms of characters: a
text as units can be read back in one way only (`ofChar_append_inj`), skipping units is skipping
characters, and raising a unit is raising its character, except that surrogates stay as they are.
-/

namespace JsxDialect

/-- A text at run time. -/
abbrev Units16 := List UInt16

namespace Units16

/-- The units of a character: one, or two surrogates. -/
def ofChar (c : Char) : Units16 :=
  if c.toNat < 0x10000 then [UInt16.ofNat c.toNat]
  else
    [UInt16.ofNat (0xd800 + (c.toNat - 0x10000) / 0x400),
      UInt16.ofNat (0xdc00 + (c.toNat - 0x10000) % 0x400)]

/-- The units of a text. -/
def ofText (cs : List Char) : Units16 :=
  cs.flatMap ofChar

/-- Whether a unit is half of a character. -/
def isSurrogate (u : UInt16) : Bool :=
  0xd800 ≤ u.toNat && u.toNat ≤ 0xdfff

@[simp] theorem ofText_nil : ofText [] = [] := rfl

@[simp] theorem ofText_cons (c : Char) (cs : List Char) :
    ofText (c :: cs) = ofChar c ++ ofText cs :=
  List.flatMap_cons

@[simp] theorem ofText_append (cs ds : List Char) :
    ofText (cs ++ ds) = ofText cs ++ ofText ds :=
  List.flatMap_append

/-- **A character is one unit or two surrogates.** -/
theorem ofChar_cases (c : Char) :
    (c.toNat < 0x10000 ∧ ∃ u, ofChar c = [u] ∧ u.toNat = c.toNat ∧ isSurrogate u = false)
      ∨ (0x10000 ≤ c.toNat ∧ ∃ high low, ofChar c = [high, low]
        ∧ isSurrogate high = true ∧ isSurrogate low = true
        ∧ c.toNat = 0x10000 + (high.toNat - 0xd800) * 0x400 + (low.toNat - 0xdc00)) := by
  have hvalid : c.toNat < 0xd800 ∨ 0xdfff < c.toNat ∧ c.toNat < 0x110000 := c.valid
  by_cases hc : c.toNat < 0x10000
  · have hunit : (UInt16.ofNat c.toNat).toNat = c.toNat := UInt16.toNat_ofNat_of_lt' hc
    refine .inl ⟨hc, _, by rw [ofChar, if_pos hc], hunit, ?_⟩
    simp only [isSurrogate, hunit, Bool.and_eq_false_iff, decide_eq_false_iff_not]
    omega
  · have hhigh : (UInt16.ofNat (0xd800 + (c.toNat - 0x10000) / 0x400)).toNat
        = 0xd800 + (c.toNat - 0x10000) / 0x400 :=
      UInt16.toNat_ofNat_of_lt' (by change _ < 65536; omega)
    have hlow : (UInt16.ofNat (0xdc00 + (c.toNat - 0x10000) % 0x400)).toNat
        = 0xdc00 + (c.toNat - 0x10000) % 0x400 :=
      UInt16.toNat_ofNat_of_lt' (by change _ < 65536; omega)
    refine .inr ⟨by omega, _, _, by rw [ofChar, if_neg hc], ?_, ?_, ?_⟩
    · simp only [isSurrogate, hhigh, Bool.and_eq_true, decide_eq_true_eq]
      omega
    · simp only [isSurrogate, hlow, Bool.and_eq_true, decide_eq_true_eq]
      omega
    · rw [hhigh, hlow]
      omega

/-- **The first character can be read back** from the units of a text. -/
theorem ofChar_append_inj {c d : Char} {us vs : Units16} (h : ofChar c ++ us = ofChar d ++ vs) :
    c = d ∧ us = vs := by
  rcases ofChar_cases c with ⟨-, u, hc, hu, hunit⟩ | ⟨-, high, low, hc, hhigh, -, hvalue⟩ <;>
    rcases ofChar_cases d with ⟨-, v, hd, hv, hunit'⟩ | ⟨-, high', low', hd, hhigh', -, hvalue'⟩ <;>
    simp only [hc, hd, List.cons_append, List.nil_append, List.cons.injEq] at h
  · obtain ⟨rfl, rfl⟩ := h
    exact ⟨Char.toNat_inj.mp (hu.symm.trans hv), rfl⟩
  · obtain ⟨rfl, -⟩ := h
    rw [hunit] at hhigh'
    cases hhigh'
  · obtain ⟨rfl, -⟩ := h
    rw [hunit'] at hhigh
    cases hhigh
  · obtain ⟨rfl, rfl, rfl⟩ := h
    exact ⟨Char.toNat_inj.mp (hvalue.trans hvalue'.symm), rfl⟩

theorem ofChar_ne_nil (c : Char) : ofChar c ≠ [] := by
  rcases ofChar_cases c with ⟨-, u, hc, -⟩ | ⟨-, high, low, hc, -⟩ <;> simp [hc]

/-- A unit that is a character by itself is only found in that character. -/
theorem mem_ofChar_iff {c d : Char} {u : UInt16} (hc : ofChar c = [u]) : u ∈ ofChar d ↔ c = d := by
  constructor
  · intro hu
    rcases ofChar_cases c with ⟨-, v, hc', hv, hunit⟩ | ⟨-, high, low, hc', -⟩
    · obtain rfl : u = v := List.singleton_inj.mp (hc.symm.trans hc')
      rcases ofChar_cases d with ⟨-, w, hd, hw, -⟩ | ⟨-, high, low, hd, hhigh, hlow, -⟩
      · obtain rfl : u = w := List.mem_singleton.mp (hd ▸ hu)
        exact Char.toNat_inj.mp (hv.symm.trans hw)
      · rcases List.mem_pair.mp (hd ▸ hu) with rfl | rfl
        · rw [hunit] at hhigh
          cases hhigh
        · rw [hunit] at hlow
          cases hlow
    · simp [hc] at hc'
  · rintro rfl
    rw [hc]
    exact List.mem_singleton_self u

theorem mem_ofText_iff {c : Char} {u : UInt16} (hc : ofChar c = [u]) {cs : List Char} :
    u ∈ ofText cs ↔ c ∈ cs := by
  simp only [ofText, List.mem_flatMap, mem_ofChar_iff hc, exists_eq_right']

/-- A text starts with another one exactly if its units start with those of the other. -/
theorem ofText_prefix_iff {cs ds : List Char} : ofText cs <+: ofText ds ↔ cs <+: ds := by
  induction cs generalizing ds with
  | nil => simp
  | cons c cs ih =>
    cases ds with
    | nil => simp [ofChar_ne_nil]
    | cons d ds =>
      rw [List.cons_prefix_cons, ← ih, ofText_cons, ofText_cons]
      constructor
      · rintro ⟨rest, heq⟩
        rw [List.append_assoc] at heq
        obtain ⟨rfl, hrest⟩ := ofChar_append_inj heq
        exact ⟨rfl, rest, hrest⟩
      · rintro ⟨rfl, hrest⟩
        exact (List.prefix_append_right_inj _).mpr hrest

theorem ofText_injective : Function.Injective ofText := by
  intro cs ds h
  have hcd : cs <+: ds := ofText_prefix_iff.mp (h ▸ List.prefix_refl _)
  have hdc : ds <+: cs := ofText_prefix_iff.mp (h ▸ List.prefix_refl _)
  exact hcd.eq_of_length_le hdc.length_le

/-! ## Skipping -/

/-- Skipping units is skipping characters, if the first unit of a character decides. -/
theorem dropWhile_flatMap {f : Char → Units16} {p : Char → Bool} {q : UInt16 → Bool}
    (hskip : ∀ c, p c = true → ∀ u ∈ f c, q u = true)
    (hstop : ∀ c, p c = false → ∃ u us, f c = u :: us ∧ q u = false) (cs : List Char) :
    (cs.flatMap f).dropWhile q = (cs.dropWhile p).flatMap f := by
  induction cs with
  | nil => rfl
  | cons c cs ih =>
    rw [List.flatMap_cons]
    cases hp : p c with
    | true =>
      have hnil : (f c).dropWhile q = [] := List.dropWhile_eq_nil_iff.mpr (hskip c hp)
      rw [List.dropWhile_append, hnil, List.dropWhile_cons_of_pos hp, ← ih]
      rfl
    | false =>
      obtain ⟨u, us, hf, hq⟩ := hstop c hp
      rw [List.dropWhile_cons_of_neg (by simp [hp]), List.flatMap_cons, hf, List.cons_append,
        List.dropWhile_cons_of_neg (by simp [hq])]

/-- The white space that is trimmed at run time: white space and line ends of the language. -/
def isSpace (u : UInt16) : Bool :=
  let n := u.toNat
  (0x9 ≤ n && n ≤ 0xd) || n == 0x20 || n == 0xa0 || n == 0x1680 || (0x2000 ≤ n && n ≤ 0x200a)
    || n == 0x2028 || n == 0x2029 || n == 0x202f || n == 0x205f || n == 0x3000 || n == 0xfeff

/-- The text without the white space at its ends. -/
def trim (us : Units16) : Units16 :=
  ((us.dropWhile isSpace).reverse.dropWhile isSpace).reverse

end Units16

namespace Text

/-- The control character that ends a line: white space here, but not at run time. -/
def nextLine : Char := Char.ofNat 0x85

/-- The mark of the order of bytes: white space at run time, but not here. -/
def byteOrderMark : Char := Char.ofNat 0xfeff

/-- The white space of both. -/
def isCommonBlank (c : Char) : Bool :=
  isBlank c && c != nextLine

/-- The white space of the run time, as characters. -/
def isSpace (c : Char) : Bool :=
  isCommonBlank c || c == byteOrderMark

theorem eq_nextLine_iff {c : Char} : c = nextLine ↔ c.toNat = 0x85 :=
  Char.toNat_inj.symm

theorem eq_byteOrderMark_iff {c : Char} : c = byteOrderMark ↔ c.toNat = 0xfeff :=
  Char.toNat_inj.symm

/-- The two kinds of white space differ in one character each. -/
theorem isBlank_eq (c : Char) : isBlank c = (isCommonBlank c || c == nextLine) := by
  by_cases hc : c = nextLine
  · subst hc
    decide
  · simp only [isCommonBlank, beq_eq_false_iff_ne.mpr hc, bne, Bool.not_false, Bool.and_true,
      Bool.or_false]

end Text

namespace Units16

theorem isSpace_eq {u : UInt16} {c : Char} (h : u.toNat = c.toNat) :
    isSpace u = Text.isSpace c := by
  rw [Bool.eq_iff_iff]
  simp only [isSpace, h, Text.isSpace, Text.isCommonBlank, Text.isBlank, Bool.or_eq_true,
    Bool.and_eq_true, decide_eq_true_eq, beq_iff_eq, bne_iff_ne, ne_eq, Text.eq_nextLine_iff,
    Text.eq_byteOrderMark_iff]
  omega

theorem isSpace_of_isSurrogate {u : UInt16} (h : isSurrogate u = true) : isSpace u = false := by
  simp only [isSurrogate, Bool.and_eq_true, decide_eq_true_eq] at h
  rw [Bool.eq_false_iff]
  simp only [isSpace, ne_eq, Bool.or_eq_true, Bool.and_eq_true, decide_eq_true_eq, beq_iff_eq]
  omega

theorem isSpace_of_large {c : Char} (h : 0x10000 ≤ c.toNat) : Text.isSpace c = false := by
  rw [Bool.eq_false_iff]
  simp only [Text.isSpace, Text.isCommonBlank, Text.isBlank, ne_eq, Bool.or_eq_true,
    Bool.and_eq_true, decide_eq_true_eq, beq_iff_eq, Text.eq_byteOrderMark_iff]
  omega

/-- All units of a character decide alike whether it is white space. -/
theorem isSpace_of_mem_ofChar {c : Char} {u : UInt16} (hu : u ∈ ofChar c) :
    isSpace u = Text.isSpace c := by
  rcases ofChar_cases c with ⟨-, v, hc, hv, -⟩ | ⟨hlarge, high, low, hc, hhigh, hlow, -⟩
  · rw [hc, List.mem_singleton] at hu
    exact isSpace_eq (hu ▸ hv)
  · rw [isSpace_of_large hlarge]
    rw [hc, List.mem_pair] at hu
    rcases hu with rfl | rfl
    · exact isSpace_of_isSurrogate hhigh
    · exact isSpace_of_isSurrogate hlow

/-- **Trimming** units is trimming characters. -/
theorem trim_ofText (cs : List Char) : trim (ofText cs) = ofText (strip Text.isSpace cs) := by
  have hskip : ∀ c, Text.isSpace c = true → ∀ u ∈ ofChar c, isSpace u = true :=
    fun c hc u hu => (isSpace_of_mem_ofChar hu).trans hc
  have hstop : ∀ c, Text.isSpace c = false → ∀ u ∈ ofChar c, isSpace u = false :=
    fun c hc u hu => (isSpace_of_mem_ofChar hu).trans hc
  have hfront : (ofText cs).dropWhile isSpace = ofText (cs.dropWhile Text.isSpace) := by
    refine dropWhile_flatMap hskip (fun c hc => ?_) cs
    obtain ⟨u, us, hu⟩ := List.exists_cons_of_ne_nil (ofChar_ne_nil c)
    exact ⟨u, us, hu, hstop c hc u (hu ▸ List.mem_cons_self)⟩
  -- From the other end, the units of a character come in reverse.
  have hback : ∀ ds : List Char, ((ofText ds).reverse.dropWhile isSpace).reverse
      = ofText (ds.reverse.dropWhile Text.isSpace).reverse := by
    intro ds
    have hne : ∀ c, (List.reverse ∘ ofChar) c ≠ [] := by simp [ofChar_ne_nil]
    rw [ofText, List.reverse_flatMap, dropWhile_flatMap (p := Text.isSpace), List.reverse_flatMap,
      ofText]
    · congr 1
      funext c
      simp
    · exact fun c hc u hu => hskip c hc u (List.mem_reverse.mp hu)
    · intro c hc
      obtain ⟨u, us, hu⟩ := List.exists_cons_of_ne_nil (hne c)
      refine ⟨u, us, hu, hstop c hc u (List.mem_reverse.mp ?_)⟩
      change u ∈ (List.reverse ∘ ofChar) c
      rw [hu]
      exact List.mem_cons_self
  rw [trim, hfront, hback, strip]

/-! ## Raising -/

/-- The hyphen. -/
def hyphen : UInt16 := 0x2d

/-- The upper-case form of a single unit. A surrogate has none of its own. -/
def raise (u : UInt16) : Units16 :=
  if isSurrogate u then [u] else ofText (Text.toUpper (Char.ofNat u.toNat))

/-- The name with every run of hyphens and the unit after it, if there is one, replaced by the
upper-case form of that unit. -/
def camel : Units16 → Units16
  | [] => []
  | u :: us =>
    if u = hyphen then
      match _h : us.dropWhile (· == hyphen) with
      | [] => []
      | v :: rest => raise v ++ camel rest
    else u :: camel us
termination_by us => us.length
decreasing_by
  · have hle := (List.dropWhile_suffix (· == hyphen) (l := us)).length_le
    rw [_h] at hle
    simp only [List.length_cons] at hle ⊢
    omega
  · exact Nat.lt_succ_self _

end Units16

/-- The upper-case form of a character that is a single unit; others stay as they are. -/
def Text.toUpperUnit (c : Char) : List Char :=
  if c.toNat < 0x10000 then toUpper c else [c]

namespace Units16

/-- What `camel` makes of the units after a hyphen. -/
def camelRest (us : Units16) : Units16 :=
  match us.dropWhile (· == hyphen) with
  | [] => []
  | v :: rest => raise v ++ camel rest

theorem camel_hyphen (us : Units16) : camel (hyphen :: us) = camelRest us := by
  rw [camel, if_pos rfl, camelRest]
  split
  case h_1 hdrop => rw [hdrop]
  case h_2 hdrop => rw [hdrop]

theorem camel_cons {u : UInt16} (hu : u ≠ hyphen) (us : Units16) :
    camel (u :: us) = u :: camel us := by
  rw [camel, if_neg hu]

theorem camelRest_hyphen (us : Units16) : camelRest (hyphen :: us) = camelRest us := by
  rw [camelRest, List.dropWhile_cons_of_pos (by simp), camelRest]

theorem camelRest_cons {u : UInt16} (hu : u ≠ hyphen) (us : Units16) :
    camelRest (u :: us) = raise u ++ camel us := by
  rw [camelRest, List.dropWhile_cons_of_neg (by simpa using hu)]

theorem raise_eq {u : UInt16} {c : Char} (hu : u.toNat = c.toNat) (hunit : isSurrogate u = false) :
    raise u = ofText (Text.toUpper c) := by
  rw [raise, if_neg (by simp [hunit]), hu, Char.ofNat_toNat]

/-- **Camel case** of units is camel case of characters, with only single units raised. -/
theorem camel_ofText (cs : List Char) :
    camel (ofText cs) = ofText (Style.camelWith Text.toUpperUnit false cs)
      ∧ camelRest (ofText cs) = ofText (Style.camelWith Text.toUpperUnit true cs) := by
  induction cs with
  | nil => exact ⟨by rw [ofText_nil, camel]; rfl, rfl⟩
  | cons c cs ih =>
    obtain ⟨hcamel, hrest⟩ := ih
    rw [ofText_cons]
    simp only [Style.camelWith, beq_iff_eq, Bool.false_eq_true, if_false, if_true]
    have hunitOf : ofChar '-' = [hyphen] := rfl
    by_cases hhyphen : c = '-'
    · rw [if_pos hhyphen, if_pos hhyphen, hhyphen, hunitOf, List.singleton_append, camel_hyphen,
        camelRest_hyphen]
      exact ⟨hrest, hrest⟩
    · have hne : hyphen ∉ ofChar c := fun h => hhyphen ((mem_ofChar_iff hunitOf).mp h).symm
      rw [if_neg hhyphen, if_neg hhyphen]
      rcases ofChar_cases c with ⟨hsmall, u, hc, hu, hunit⟩ | ⟨hlarge, high, low, hc, hhigh, -⟩
      · simp only [hc, List.mem_singleton] at hne
        rw [hc, List.singleton_append, camel_cons (Ne.symm hne), camelRest_cons (Ne.symm hne),
          hcamel, raise_eq hu hunit, Text.toUpperUnit, if_pos hsmall, ofText_append, ofText_append,
          ofText_cons, hc]
        exact ⟨rfl, rfl⟩
      · -- Neither surrogate is a hyphen, and the first of them has no upper-case form.
        simp only [hc, List.mem_pair, not_or] at hne
        rw [hc, List.cons_append, List.singleton_append, camel_cons (Ne.symm hne.1),
          camelRest_cons (Ne.symm hne.1), camel_cons (Ne.symm hne.2), hcamel, raise, if_pos hhigh,
          Text.toUpperUnit, if_neg (by omega), ofText_append, ofText_cons, hc]
        exact ⟨rfl, rfl⟩

end Units16

end JsxDialect
