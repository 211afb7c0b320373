import JsxDialect.Proofs.Fold
import JsxDialect.Proofs.Units16
import JsxDialect.Style.Declaration
import Mathlib.Logic.Function.Basic

/-!
# Styles at run time

A style that is not known before the module runs is read by a helper at run time: it splits the text
into declarations and assigns their values to the properties of an object. Where the style is known,
`Style.parse` reads it instead, and the two should agree. They do on every declaration that is plain
(`property?_ofText_eq_iff`), and then on the whole text except for the property that no object
takes, its prototype (`collects_merged`).
-/

namespace JsxDialect

namespace Runtime

open Units16

/-! ## The helper -/

/-- The semicolon, the colon, and what follows a semicolon that belongs to a declaration. -/
def semicolon : UInt16 := 0x3b

@[inherit_doc semicolon]
def colon : UInt16 := 0x3a

@[inherit_doc semicolon]
def base64 : Units16 := ofText "base64".toList

/-- The declarations of a text, given the part of the first one that was read. -/
def splitFrom (piece : Units16) : Units16 → List Units16
  | [] => [piece]
  | u :: us =>
    if u = semicolon ∧ ¬ base64 <+: us then piece :: splitFrom [] us
    else splitFrom (piece ++ [u]) us

/-- The property and the value of a declaration, if it has a colon. -/
def property? (declaration : Units16) : Option (Units16 × Units16) :=
  (declaration.findIdx? (· == colon)).map fun i =>
    (camel (trim (declaration.take i)), trim (declaration.drop (i + 1)))

/-- The own properties of an object. -/
abbrev Properties := Units16 → Option Units16

/-- The property that every object inherits and that takes no text. -/
def proto : Units16 := ofText "__proto__".toList

/-- The object after a text is assigned to a property. -/
def assign (o : Properties) (p : Units16 × Units16) : Properties :=
  if p.1 = proto then o else Function.update o p.1 (some p.2)

/-- The object that collects the declarations of a text. -/
def merged (value : Units16) : Properties :=
  ((splitFrom [] value).filterMap property?).foldl assign fun _ => none

/-- What the helper gives. -/
inductive Value where
  | text (value : Units16)
  | object (properties : Properties)

/-- The helper on a single text: a text without declarations is given back. -/
def styles (value : Units16) : Value :=
  if colon ∈ value then .object (merged value) else .text value

/-! ## Declarations -/

theorem ofChar_semicolon : ofChar ';' = [semicolon] := rfl

theorem ofChar_colon : ofChar ':' = [colon] := rfl

/-- Units other than the semicolon go into the current declaration. -/
theorem splitFrom_append {us : Units16} (h : semicolon ∉ us) (piece rest : Units16) :
    splitFrom piece (us ++ rest) = splitFrom (piece ++ us) rest := by
  induction us generalizing piece with
  | nil => simp
  | cons u us ih =>
    simp only [List.mem_cons, not_or] at h
    rw [List.cons_append, splitFrom, if_neg fun hu => h.1 hu.1.symm, ih h.2, List.append_assoc,
      List.singleton_append]

/-- **Splitting** units is splitting characters. -/
theorem splitFrom_ofText (cs : List Char) :
    ∃ first others, Style.splitDeclarations cs = first :: others
      ∧ ∀ piece, splitFrom piece (ofText cs) = (piece ++ ofText first) :: others.map ofText := by
  induction cs with
  | nil => exact ⟨[], [], rfl, fun piece => by simp [splitFrom]⟩
  | cons c cs ih =>
    obtain ⟨first, others, hpieces, hfrom⟩ := ih
    have hbase : base64 <+: ofText cs ↔ "base64".toList.isPrefixOf cs = true := by
      rw [base64, ofText_prefix_iff, List.isPrefixOf_iff_prefix]
    simp only [Style.splitDeclarations, ofText_cons, hpieces]
    by_cases hc : c = ';'
    · subst hc
      rw [ofChar_semicolon]
      by_cases hjoined : "base64".toList.isPrefixOf cs = true
      · refine ⟨';' :: first, others, by rw [hjoined]; rfl, fun piece => ?_⟩
        rw [List.singleton_append, splitFrom, if_neg fun h => h.2 (hbase.mpr hjoined), hfrom,
          List.append_assoc, ofText_cons, ofChar_semicolon]
      · refine ⟨[], first :: others, by rw [Bool.eq_false_iff.mpr hjoined]; rfl, fun piece => ?_⟩
        rw [List.singleton_append, splitFrom, if_pos ⟨rfl, mt hbase.mp hjoined⟩, hfrom]
        simp
    · have hnot : semicolon ∉ ofChar c := fun h => hc ((mem_ofChar_iff ofChar_semicolon).mp h).symm
      refine ⟨c :: first, others, by rw [beq_false_of_ne hc]; rfl, fun piece => ?_⟩
      rw [splitFrom_append hnot, hfrom, List.append_assoc, ofText_cons]

theorem split_ofText (cs : List Char) :
    splitFrom [] (ofText cs) = (Style.splitDeclarations cs).map ofText := by
  obtain ⟨first, others, hpieces, hfrom⟩ := splitFrom_ofText cs
  rw [hfrom, hpieces, List.nil_append, List.map_cons]

/-- The texts before and after the first colon. -/
def atColon? (d : List Char) : Option (List Char × List Char) :=
  match d.dropWhile (· != ':') with
  | [] => none
  | _ :: value => some (d.takeWhile (· != ':'), value)

theorem atColon?_cases (d : List Char) :
    (atColon? d = none ∧ ':' ∉ d)
      ∨ ∃ key value, atColon? d = some (key, value) ∧ d = key ++ ':' :: value ∧ ':' ∉ key := by
  rw [atColon?]
  cases hdrop : d.dropWhile (· != ':') with
  | nil =>
    refine .inl ⟨rfl, fun hmem => ?_⟩
    have hnone := List.dropWhile_eq_nil_iff.mp hdrop ':' hmem
    simp at hnone
  | cons x value =>
    obtain ⟨-, -, -, hhead⟩ := dropWhile_eq_iff.mp hdrop
    obtain rfl : x = ':' := by simpa using hhead x rfl
    have hd := List.takeWhile_append_dropWhile (p := (· != ':')) (l := d)
    rw [hdrop] at hd
    refine .inr ⟨_, value, rfl, hd.symm, fun hmem => ?_⟩
    have hclass := List.mem_takeWhile_imp hmem
    simp at hclass

theorem declaration?_eq (d : List Char) :
    Style.declaration? d = (atColon? d).map fun p =>
      (String.ofList (Style.camelWith Text.toUpper false (strip Text.isBlank p.1)),
        String.ofList (strip Text.isBlank p.2)) := by
  rw [Style.declaration?, atColon?]
  cases d.dropWhile (· != ':') with
  | nil => rfl
  | cons x value =>
    simp only [Option.map_some, (Style.camelWith_toUpper _).1]
    rfl

theorem findIdx?_colon {us : Units16} (h : colon ∉ us) : us.findIdx? (· == colon) = none :=
  List.findIdx?_eq_none_iff.mpr fun _ hu => beq_false_of_ne fun hcolon => h (hcolon ▸ hu)

theorem property?_ofText (d : List Char) :
    property? (ofText d) = (atColon? d).map fun p =>
      (ofText (Style.camelWith Text.toUpperUnit false (strip Text.isSpace p.1)),
        ofText (strip Text.isSpace p.2)) := by
  rcases atColon?_cases d with ⟨hnone, hd⟩ | ⟨key, value, hsome, rfl, hkey⟩
  · have hcolon : colon ∉ ofText d := mt (mem_ofText_iff ofChar_colon).mp hd
    rw [hnone, property?, findIdx?_colon hcolon]
    rfl
  · have hcolon : colon ∉ ofText key := mt (mem_ofText_iff ofChar_colon).mp hkey
    have htext : ofText (key ++ ':' :: value) = ofText key ++ colon :: ofText value := by
      rw [ofText_append, ofText_cons, ofChar_colon, List.singleton_append]
    have hidx : (ofText key ++ colon :: ofText value).findIdx? (· == colon)
        = some (ofText key).length := by
      rw [List.findIdx?_append, findIdx?_colon hcolon, List.findIdx?_cons, beq_self_eq_true]
      simp
    have hdrop : (ofText key ++ colon :: ofText value).drop ((ofText key).length + 1)
        = ofText value := by
      rw [List.drop_length_add_append, List.drop_succ_cons, List.drop_zero]
    rw [hsome, property?, htext, hidx, Option.map_some, Option.map_some, List.take_left, hdrop,
      trim_ofText, trim_ofText, (camel_ofText _).1]

/-! ## Plain declarations -/

/-- Whether the ends of a text, less the white space of both, are white space for neither. -/
def HasPlainEnds (cs : List Char) : Prop :=
  Text.nextLine ∉ ends (strip Text.isCommonBlank cs)
    ∧ Text.byteOrderMark ∉ ends (strip Text.isCommonBlank cs)

instance (cs : List Char) : Decidable (HasPlainEnds cs) :=
  inferInstanceAs (Decidable (_ ∧ _))

/-- Whether the helper finds the upper-case forms of the characters of a text that come right after
hyphens: it does not look beyond single units. -/
def IsRaised (cs : List Char) : Prop :=
  ∀ c ∈ cs, ['-', c] <:+: cs → 0x10000 ≤ c.toNat → Text.toUpper c = [c]

/-- Whether a declaration, if it is one, is read alike on both sides. -/
def IsPlain (d : List Char) : Prop :=
  ∀ p ∈ atColon? d, (HasPlainEnds p.1 ∧ IsRaised (strip Text.isCommonBlank p.1))
    ∧ HasPlainEnds p.2

theorem isRaised_iff {cs : List Char} :
    IsRaised cs
      ↔ Style.camelWith Text.toUpper false cs = Style.camelWith Text.toUpperUnit false cs := by
  have hinfix : ∀ c, ['-', c] <:+: cs ↔ ∃ before after, cs = before ++ '-' :: c :: after := by
    simp only [List.IsInfix, List.append_assoc, List.cons_append, List.nil_append, eq_comm,
      implies_true]
  have hlength : ∀ c, (Text.toUpper c).length = (Text.toUpperUnit c).length := by
    intro c
    rw [Text.toUpperUnit]
    split
    · rfl
    · exact Text.length_toUpper_of_large (by omega)
  rw [Style.camelWith_eq_iff hlength]
  simp only [Style.mem_raised_iff, Bool.false_eq_true, false_and, false_or, ← hinfix]
  constructor
  · rintro h c ⟨-, hc⟩
    rw [Text.toUpperUnit]
    split
    · rfl
    · exact h c (hc.subset (by simp)) hc (by omega)
  · intro h c _ hc hlarge
    have hne : c ≠ '-' := by
      rintro rfl
      exact absurd hlarge (by decide)
    rw [h c ⟨hne, hc⟩, Text.toUpperUnit, if_neg (by omega)]

instance (cs : List Char) : Decidable (IsRaised cs) :=
  decidable_of_iff _ isRaised_iff.symm

instance (d : List Char) : Decidable (IsPlain d) :=
  inferInstanceAs (Decidable (∀ p ∈ atColon? d, _))

/-- **Stripped and mapped alike.** Under maps that keep white space as it is, the white space of the
language and of the run time make no difference exactly if the ends are plain. -/
theorem strip_eq_strip_iff {f g : List Char → List Char}
    (hf : ∀ x ∈ [Text.nextLine, Text.byteOrderMark], ∀ cs, (f cs).count x = cs.count x)
    (hg : ∀ x ∈ [Text.nextLine, Text.byteOrderMark], ∀ cs, (g cs).count x = cs.count x)
    (cs : List Char) :
    f (strip Text.isBlank cs) = g (strip Text.isSpace cs)
      ↔ HasPlainEnds cs ∧ f (strip Text.isCommonBlank cs) = g (strip Text.isCommonBlank cs) := by
  have hblank : Text.isBlank = fun c => Text.isCommonBlank c || c == Text.nextLine :=
    funext Text.isBlank_eq
  rw [hblank]
  refine strip_or_eq_strip_or_iff (by decide) (by decide) (by decide) ?_ ?_
  · exact fun ds => ⟨hf _ (by simp) ds, hf _ (by simp) ds⟩
  · exact fun ds => ⟨hg _ (by simp) ds, hg _ (by simp) ds⟩

/-- The units of a property and its value. -/
def units (p : String × String) : Units16 × Units16 :=
  (ofText p.1.toList, ofText p.2.toList)

/-- **A declaration is read alike** by the helper exactly if it is plain. -/
theorem property?_ofText_eq_iff (d : List Char) :
    property? (ofText d) = (Style.declaration? d).map units ↔ IsPlain d := by
  rw [property?_ofText, declaration?_eq, IsPlain]
  cases atColon? d with
  | none => simp
  | some p =>
    -- Two characters are blank for one of the readers only. As neither has cases, raising letters
    -- neither makes one nor loses one.
    have hcount : ∀ x ∈ [Text.nextLine, Text.byteOrderMark],
        (x.toNat ≠ 0 ∧ x.isAlpha = false ∧ Text.isUncased x.toNat = true) ∧ x ≠ '-' := by
      intro x hx
      rcases List.mem_pair.mp hx with rfl | rfl <;> decide
    have hupper : ∀ x ∈ [Text.nextLine, Text.byteOrderMark], ∀ cs,
        (Style.camelWith Text.toUpper false cs).count x = cs.count x := by
      intro x hx cs
      obtain ⟨⟨hnull, hletter, huncased⟩, hhyphen⟩ := hcount x hx
      exact Style.count_camelWith hhyphen (Text.count_toUpper hnull hletter huncased) false cs
    have hunit : ∀ x ∈ [Text.nextLine, Text.byteOrderMark], ∀ cs,
        (Style.camelWith Text.toUpperUnit false cs).count x = cs.count x := by
      intro x hx cs
      obtain ⟨⟨hnull, hletter, huncased⟩, hhyphen⟩ := hcount x hx
      refine Style.count_camelWith hhyphen (fun c => ?_) false cs
      rw [Text.toUpperUnit]
      split
      · exact Text.count_toUpper hnull hletter huncased c
      · rfl
    simp only [Option.map_some, Option.some.injEq, units, String.toList_ofList, Prod.mk.injEq,
      ofText_injective.eq_iff, Option.mem_some, forall_eq']
    have hvalue : strip Text.isBlank p.2 = strip Text.isSpace p.2 ↔ HasPlainEnds p.2 := by
      simpa using strip_eq_strip_iff (f := id) (g := id) (by simp) (by simp) p.2
    rw [eq_comm (a := Style.camelWith Text.toUpperUnit _ _), strip_eq_strip_iff hupper hunit,
      eq_comm (a := strip Text.isSpace _), hvalue, isRaised_iff]

/-! ## Objects -/

/-- Whether the own properties of an object are the entries of a table, except for those that no
object takes. -/
def Collects (t : List (String × String)) (o : Properties) : Prop :=
  ∀ k v, o k = some v ↔ k ≠ proto ∧ ∃ p ∈ t, units p = (k, v)

/-- One assignment is one entry. -/
theorem collects_assign {t : List (String × String)} {o : Properties} (ht : (t.map (·.1)).Nodup)
    (h : Collects t o) (p : String × String) :
    Collects (Table.put p.1 p.2 t) (assign o (units p)) := by
  intro k v
  have hkey : ∀ q : String × String, units q = (k, v) → (q.1 ≠ p.1 ↔ k ≠ (units p).1) := by
    intro q hq
    have hk : k = ofText q.1.toList := (Prod.ext_iff.mp hq).1.symm
    rw [hk, units, ne_eq, ne_eq, ofText_injective.eq_iff, String.toList_inj]
  have hentries : (∃ q ∈ Table.put p.1 p.2 t, units q = (k, v))
      ↔ units p = (k, v) ∨ (k ≠ (units p).1 ∧ ∃ q ∈ t, units q = (k, v)) := by
    simp only [Table.mem_put_iff ht]
    constructor
    · rintro ⟨q, rfl | ⟨hq, hne⟩, hunits⟩
      · exact .inl hunits
      · exact .inr ⟨(hkey q hunits).mp hne, q, hq, hunits⟩
    · rintro (hunits | ⟨hne, q, hq, hunits⟩)
      · exact ⟨p, .inl rfl, hunits⟩
      · exact ⟨q, .inr ⟨hq, (hkey q hunits).mpr hne⟩, hunits⟩
  rw [hentries, assign]
  by_cases hk : k = (units p).1
  · subst hk
    split
    case isTrue hproto =>
      -- The assignment does nothing, and the object had no such property before.
      simp [h _ v, hproto]
    case isFalse hproto =>
      simp [hproto, Prod.ext_iff]
  · have hsame : (if (units p).1 = proto then o
        else Function.update o (units p).1 (some (units p).2)) k = o k := by
      split
      · rfl
      · exact Function.update_of_ne hk _ _
    rw [hsame, h k v]
    have hne : units p ≠ (k, v) := fun hunits => hk (Prod.ext_iff.mp hunits).1.symm
    simp [hne, hk]

theorem collects_foldl {t : List (String × String)} {o : Properties} (ht : (t.map (·.1)).Nodup)
    (h : Collects t o) (ps : List (String × String)) :
    Collects (Table.putAll t ps) ((ps.map units).foldl assign o) := by
  induction ps generalizing t o with
  | nil => exact h
  | cons p ps ih => exact ih (Table.nodup_put ht) (collects_assign ht h p)

/-- The object collects the parsed declarations of a text whose declarations are plain. -/
theorem collects_merged {source : String}
    (h : ∀ d ∈ Style.splitDeclarations source.toList, IsPlain d) :
    Collects (Style.parse source) (merged (ofText source.toList)) := by
  have hproperties : (splitFrom [] (ofText source.toList)).filterMap property?
      = ((Style.splitDeclarations source.toList).filterMap Style.declaration?).map units := by
    rw [split_ofText, List.filterMap_map, List.map_filterMap]
    exact List.filterMap_congr fun d hd => (property?_ofText_eq_iff d).mpr (h d hd)
  rw [merged, hproperties, Style.parse]
  refine collects_foldl (t := []) List.nodup_nil (fun k v => ?_) _
  simp

/-- **Folded and collected styles.** The helper makes an object of every text with a colon. It reads
a declaration as it is read before exactly if the declaration is plain. If all of them are, the own
properties of the object are the parsed declarations exactly if none of these names the prototype.
-/
theorem styles_agrees_iff {source : String} (h : Style.looksLikeCss source = true) :
    ∃ o, styles (ofText source.toList) = .object o
      ∧ (∀ d ∈ Style.splitDeclarations source.toList,
        property? (ofText d) = (Style.declaration? d).map units ↔ IsPlain d)
      ∧ ((∀ d ∈ Style.splitDeclarations source.toList, IsPlain d) →
        ((∀ k v, o k = some v ↔ ∃ p ∈ Style.parse source, units p = (k, v))
          ↔ ∀ p ∈ Style.parse source, p.1 ≠ "__proto__")) := by
  have hcolon : colon ∈ ofText source.toList := by
    rw [mem_ofText_iff ofChar_colon]
    simpa [Style.looksLikeCss] using h
  refine ⟨merged (ofText source.toList), by rw [styles, if_pos hcolon],
    fun d _ => property?_ofText_eq_iff d, fun hplain => ?_⟩
  have hproto : ∀ p : String × String, (units p).1 = proto ↔ p.1 = "__proto__" := by
    intro p
    rw [units, proto, ofText_injective.eq_iff, String.toList_inj]
  have hcollects := collects_merged hplain
  constructor
  · intro hagrees p hp hname
    have hsome := (hagrees _ _).mpr ⟨p, hp, rfl⟩
    exact ((hcollects _ _).mp hsome).1 ((hproto p).mpr hname)
  · intro hnames k v
    rw [hcollects]
    refine ⟨And.right, fun ⟨p, hp, hunits⟩ => ⟨fun hk => hnames p hp ?_, p, hp, hunits⟩⟩
    exact (hproto p).mp (by rw [hunits, hk])

theorem styles_agrees_fonts :
    Style.looksLikeCss "-font-face: url(data:font;base64,AA); color : red" = true
      ∧ ∃ o, styles (ofText "-font-face: url(data:font;base64,AA); color : red".toList) = .object o
        ∧ ∀ k v, o k = some v ↔ ∃ p ∈ [("FontFace", "url(data:font;base64,AA)"), ("color", "red")],
          units p = (k, v) := by
  have hcss : Style.looksLikeCss "-font-face: url(data:font;base64,AA); color : red" = true := by
    decide
  have hparse : Style.parse "-font-face: url(data:font;base64,AA); color : red"
      = [("FontFace", "url(data:font;base64,AA)"), ("color", "red")] := by decide +kernel
  obtain ⟨o, ho, -, hagrees⟩ := styles_agrees_iff hcss
  refine ⟨hcss, o, ho, ?_⟩
  have hplain := hagrees (by decide +kernel)
  rw [hparse] at hplain
  exact hplain.mpr (by decide)

/-- A next-line character at the end of a value is kept at run time only. -/
theorem styles_keeps_nextLine :
    Style.parse "color: red\u0085" = [("color", "red")]
      ∧ ∃ o, styles (ofText "color: red\u0085".toList) = .object o
        ∧ o (ofText "color".toList) = some (ofText "red\u0085".toList) := by
  refine ⟨by decide +kernel, merged (ofText "color: red\u0085".toList), ?_, ?_⟩
  · rw [styles, if_pos (by decide)]
  · decide +kernel

end Runtime

end JsxDialect
