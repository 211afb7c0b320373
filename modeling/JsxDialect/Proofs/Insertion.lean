import JsxDialect.Source.Prepared
import Mathlib.Algebra.Group.Even

/-!
# Preparing a text only adds parentheses

A prepared text records where characters were inserted, and every insertion moves the offsets that
are recorded already. `Adds` is what a run keeps: the recorded offsets ascend, a parenthesis stands
at each of them, and the bytes at all the others are the bytes of the source. One insertion keeps it
(`Adds.insert`), hence a round does, and hence a whole run.

An insertion at an offset inside of a character would be a fault, and so would be reading the text
up to such an offset. `ofReader?` is the run with these accesses checked; it never fails.
-/

namespace JsxDialect

namespace Text

/-! ## Bytes and the offsets between characters -/

/-- The bytes of a text in UTF-8. -/
def bytes (cs : List Char) : List UInt8 :=
  cs.flatMap String.utf8EncodeChar

/-- The bytes of texts one after the other. -/
@[simp] theorem bytes_append (cs ds : List Char) : bytes (cs ++ ds) = bytes cs ++ bytes ds :=
  List.flatMap_append

/-- Their number. -/
@[simp] theorem byteLength_append (cs ds : List Char) :
    byteLength (cs ++ ds) = byteLength cs + byteLength ds := by
  induction cs with
  | nil => simp [byteLength]
  | cons c cs ih => simp only [List.cons_append, byteLength, ih]; omega

theorem length_bytes (cs : List Char) : (bytes cs).length = byteLength cs := by
  induction cs with
  | nil => rfl
  | cons c cs ih =>
    have hcons : bytes (c :: cs) = String.utf8EncodeChar c ++ bytes cs := rfl
    rw [hcons, List.length_append, ih, String.length_utf8EncodeChar, byteLength]

/-- An offset between two characters of a text, or at one of its ends. -/
def IsBoundary (n : Nat) (cs : List Char) : Prop :=
  ∃ before after, cs = before ++ after ∧ byteLength before = n

/-- A text that is split is the whole text. -/
theorem splitAtByte_fst_append_snd (n : Nat) (cs : List Char) :
    (splitAtByte n cs).1 ++ (splitAtByte n cs).2 = cs := by
  fun_induction splitAtByte n cs with
  | case1 => rfl
  | case2 => rfl
  | case3 n c cs before after h ih => rw [h] at ih; rw [← ih]; rfl

/-- Splitting between two texts gives both. -/
theorem splitAtByte_byteLength (before after : List Char) :
    splitAtByte (byteLength before) (before ++ after) = (before, after) := by
  induction before with
  | nil => cases after <;> rfl
  | cons c cs ih =>
    have hpos := c.utf8Size_pos
    obtain ⟨k, hk⟩ : ∃ k, byteLength (c :: cs) = k + 1 := ⟨byteLength (c :: cs) - 1, by
      simp only [byteLength]; omega⟩
    have hrest : k + 1 - c.utf8Size = byteLength cs := by
      rw [← hk, byteLength]; omega
    rw [hk, List.cons_append, splitAtByte, hrest, ih]

/-- An offset is between two characters if splitting stops right there. -/
theorem isBoundary_iff {n : Nat} {cs : List Char} :
    IsBoundary n cs ↔ byteLength (splitAtByte n cs).1 = n := by
  constructor
  · rintro ⟨before, after, rfl, rfl⟩
    rw [splitAtByte_byteLength]
  · intro h
    exact ⟨_, _, (splitAtByte_fst_append_snd n cs).symm, h⟩

instance (n : Nat) (cs : List Char) : Decidable (IsBoundary n cs) :=
  decidable_of_iff _ isBoundary_iff.symm

/-- The text before an offset; reading up to an offset inside of a character is a fault. -/
def upTo? (n : Nat) (cs : List Char) : Option (List Char) :=
  if IsBoundary n cs then some (splitAtByte n cs).1 else none

theorem upTo?_byteLength (before after : List Char) :
    upTo? (byteLength before) (before ++ after) = some before := by
  rw [upTo?, if_pos ⟨before, after, rfl, rfl⟩, splitAtByte_byteLength]

/-- A character is inserted between two texts. -/
theorem insertAt_byteLength (before after : List Char) (c : Char) :
    insertAt (byteLength before) c (before ++ after) = before ++ c :: after := by
  rw [insertAt, splitAtByte_byteLength]

/-! ## Bytes left out -/

/-- Bytes that are counted from `start` on, without those at the given positions. -/
def without (positions : List Nat) (start : Nat) (bs : List UInt8) : List UInt8 :=
  ((bs.zipIdx start).filter fun b => b.2 ∉ positions).map (·.1)

variable {ps qs : List Nat} {n : Nat} {b : UInt8} {bs : List UInt8}

@[simp] theorem without_nil : without ps n [] = [] := rfl

theorem without_cons_of_mem (h : n ∈ ps) : without ps n (b :: bs) = without ps (n + 1) bs := by
  simp [without, List.zipIdx_cons, h]

theorem without_cons_of_notMem (h : n ∉ ps) :
    without ps n (b :: bs) = b :: without ps (n + 1) bs := by
  simp [without, List.zipIdx_cons, h]

/-- Taking bytes out of two parts, of which the second has its own offset. -/
theorem without_append (as bs : List UInt8) :
    without ps n (as ++ bs) = without ps n as ++ without ps (n + as.length) bs := by
  simp [without, List.zipIdx_append]

theorem without_empty (n : Nat) (bs : List UInt8) : without [] n bs = bs := by
  induction bs generalizing n with
  | nil => rfl
  | cons b bs ih => rw [without_cons_of_notMem List.not_mem_nil, ih]

/-- Bytes may be counted from elsewhere, if the positions move along. -/
theorem without_congr {k : Nat} (h : ∀ i < bs.length, n + i ∈ ps ↔ k + i ∈ qs) :
    without ps n bs = without qs k bs := by
  induction bs generalizing n k with
  | nil => rfl
  | cons b bs ih =>
    have hrest : without ps (n + 1) bs = without qs (k + 1) bs := by
      refine ih fun i hi => ?_
      have := h (i + 1) (by simpa using hi)
      rwa [Nat.add_right_comm n 1 i, Nat.add_right_comm k 1 i]
    have hfirst : n ∈ ps ↔ k ∈ qs := h 0 (by simp)
    by_cases hn : n ∈ ps
    · rw [without_cons_of_mem hn, without_cons_of_mem (hfirst.mp hn), hrest]
    · rw [without_cons_of_notMem hn, without_cons_of_notMem (mt hfirst.mpr hn), hrest]

end Text

namespace Prepared

open Text (bytes byteLength IsBoundary without)

/-! ## One insertion -/

/-- In ascending numbers, those below a bound come first. -/
theorem takeWhile_eq_filter {ns : List Nat} (h : ns.Pairwise (· < ·)) (n : Nat) :
    ns.takeWhile (· < n) = ns.filter (· < n) := by
  induction ns with
  | nil => rfl
  | cons m ns ih =>
    obtain ⟨hm, hns⟩ := List.pairwise_cons.mp h
    by_cases hlt : m < n
    · simp [hlt, ih hns]
    · have hnone : ∀ k ∈ ns, ¬ k < n := fun k hk hkn => hlt (Nat.lt_trans (hm k hk) hkn)
      simpa [hlt] using hnone

theorem dropWhile_eq_filter {ns : List Nat} (h : ns.Pairwise (· < ·)) (n : Nat) :
    ns.dropWhile (· < n) = ns.filter (n ≤ ·) := by
  induction ns with
  | nil => rfl
  | cons m ns ih =>
    obtain ⟨hm, hns⟩ := List.pairwise_cons.mp h
    by_cases hlt : m < n
    · simp [hlt, ih hns]
    · have hall : ∀ k ∈ m :: ns, decide (n ≤ k) = true := by
        intro k hk
        rcases List.mem_cons.mp hk with rfl | hk
        · exact decide_eq_true (by omega)
        · have := hm k hk
          exact decide_eq_true (by omega)
      rw [List.filter_eq_self.mpr hall, List.dropWhile_cons_of_neg (by simpa using hlt)]

variable {p : Prepared} {source : List UInt8} {n : Nat} {c : Char}

/-- The offsets after an insertion: the new one, and the others moved. -/
theorem mem_inserted_insert {i : Nat} :
    i ∈ (p.insert n c).inserted
      ↔ i = n ∨ ∃ m ∈ p.inserted, (if m < n then m else m + 1) = i := by
  simp only [insert, List.mem_append, List.mem_cons]
  rw [or_left_comm, ← List.mem_append, List.takeWhile_append_dropWhile, List.mem_map]

/-- Before an insertion, nothing changes. -/
theorem mem_inserted_insert_of_lt {i : Nat} (hi : i < n) :
    i ∈ (p.insert n c).inserted ↔ i ∈ p.inserted := by
  rw [mem_inserted_insert]
  constructor
  · rintro (heq | ⟨m, hm, heq⟩)
    · omega
    · split at heq
      · exact heq ▸ hm
      · omega
  · exact fun hmem => .inr ⟨i, hmem, if_pos hi⟩

/-- From an insertion on, everything moves by one. -/
theorem mem_inserted_insert_succ {i : Nat} (hi : n ≤ i) :
    i + 1 ∈ (p.insert n c).inserted ↔ i ∈ p.inserted := by
  rw [mem_inserted_insert]
  constructor
  · rintro (heq | ⟨m, hm, heq⟩)
    · omega
    · split at heq
      · omega
      · exact Nat.succ.inj heq ▸ hm
  · exact fun hmem => .inr ⟨i, hmem, if_neg (by omega)⟩

theorem length_inserted_insert : (p.insert n c).inserted.length = p.inserted.length + 1 := by
  have hsum := congrArg List.length (List.takeWhile_append_dropWhile (p := (· < n))
    (l := p.inserted.map fun m => if m < n then m else m + 1))
  simp only [List.length_append, List.length_map] at hsum
  simp only [insert, List.length_append, List.length_cons]
  omega

/-- **Offsets stay in order.** -/
theorem pairwise_insert (h : p.inserted.Pairwise (· < ·)) :
    (p.insert n c).inserted.Pairwise (· < ·) := by
  -- No insertion moves to `n`: those before it stay there, and the others go beyond it.
  have hne : ∀ m ∈ p.inserted.map (fun m => if m < n then m else m + 1), m ≠ n := by
    intro m hm
    obtain ⟨k, -, rfl⟩ := List.mem_map.mp hm
    split <;> omega
  have hmoved : (p.inserted.map fun m => if m < n then m else m + 1).Pairwise (· < ·) := by
    refine List.pairwise_map.mpr (h.imp fun {a b} hab => ?_)
    split <;> split <;> omega
  simp only [insert]
  rw [takeWhile_eq_filter hmoved, dropWhile_eq_filter hmoved]
  refine List.pairwise_append.mpr
    ⟨hmoved.filter _, List.pairwise_cons.mpr ⟨?_, hmoved.filter _⟩, ?_⟩
  · intro m hm
    obtain ⟨hmem, hle⟩ := List.mem_filter.mp hm
    have := hne m hmem
    have := of_decide_eq_true hle
    omega
  · intro a ha b hb
    have hlt := of_decide_eq_true (List.mem_filter.mp ha).2
    rcases List.mem_cons.mp hb with rfl | hb
    · exact hlt
    · have := of_decide_eq_true (List.mem_filter.mp hb).2
      omega

/-- **A prepared text adds parentheses to a source**, and nothing else. -/
structure Adds (source : List UInt8) (p : Prepared) : Prop where
  ascending : p.inserted.Pairwise (· < ·)
  parens : ∀ n ∈ p.inserted, ∃ c, (c = '(' ∨ c = ')') ∧ (bytes p.text)[n]? = some c.toUInt8
  rest : without p.inserted 0 (bytes p.text) = source

theorem adds_ofText (text : List Char) : Adds (bytes text) (ofText text) where
  ascending := .nil
  parens _ hn := absurd hn List.not_mem_nil
  rest := Text.without_empty _ _

/-- A parenthesis takes one byte. -/
theorem bytes_paren (hc : c = '(' ∨ c = ')') (cs : List Char) :
    bytes (c :: cs) = c.toUInt8 :: bytes cs := by
  rcases hc with rfl | rfl <;> rfl

/-- What was there before an insertion is there after it, at the position it moved to. -/
theorem getElem?_moved (before after : List UInt8) (b : UInt8) (m : Nat) :
    (before ++ b :: after)[if m < before.length then m else m + 1]? = (before ++ after)[m]? := by
  split
  · rw [List.getElem?_append_left ‹_›, List.getElem?_append_left ‹_›]
  · rw [List.getElem?_append_right (by omega), List.getElem?_append_right (by omega),
      show m + 1 - before.length = m - before.length + 1 by omega, List.getElem?_cons_succ]

/-- **An insertion between two characters** only adds a parenthesis. -/
theorem Adds.insert (h : Adds source p) (hn : IsBoundary n p.text) (hc : c = '(' ∨ c = ')') :
    Adds source (p.insert n c) := by
  obtain ⟨before, after, htext, rfl⟩ := hn
  have hlen := Text.length_bytes before
  have hold : bytes p.text = bytes before ++ bytes after := by rw [htext, Text.bytes_append]
  have hnew : bytes (p.insert (byteLength before) c).text
      = bytes before ++ c.toUInt8 :: bytes after := by
    rw [Prepared.insert, htext, Text.insertAt_byteLength, Text.bytes_append, bytes_paren hc]
  refine ⟨pairwise_insert h.ascending, fun m hm => ?_, ?_⟩
  · rcases mem_inserted_insert.mp hm with rfl | ⟨k, hk, rfl⟩
    · refine ⟨c, hc, ?_⟩
      rw [hnew, List.getElem?_append_right (by omega), hlen, Nat.sub_self]
      rfl
    · obtain ⟨d, hd, hget⟩ := h.parens k hk
      exact ⟨d, hd, by rw [hnew, ← hlen, getElem?_moved, ← hold, hget]⟩
  · -- The bytes before the insertion keep their positions, those after it move by one.
    have hbefore : without (p.insert (byteLength before) c).inserted 0 (bytes before)
        = without p.inserted 0 (bytes before) :=
      Text.without_congr fun i hi => mem_inserted_insert_of_lt (by omega)
    have hafter : without (p.insert (byteLength before) c).inserted (byteLength before + 1)
          (bytes after) = without p.inserted (byteLength before) (bytes after) := by
      refine Text.without_congr fun i _ => ?_
      rw [Nat.add_right_comm]
      exact mem_inserted_insert_succ (Nat.le_add_right _ i)
    have hmem : byteLength before ∈ (p.insert (byteLength before) c).inserted :=
      mem_inserted_insert.mpr (.inl rfl)
    have hrest := h.rest
    rw [hold, Text.without_append, Nat.zero_add, hlen] at hrest
    rw [hnew, Text.without_append, Nat.zero_add, hlen, Text.without_cons_of_mem hmem, hbefore,
      hafter, hrest]

/-! ## One round -/

/-- A span cuts a text into three parts. -/
theorem cut?_eq_some_iff {text before inside : List Char} {span : Span} :
    cut? text span = some (before, inside)
      ↔ (∃ after, text = before ++ inside ++ after)
        ∧ span = ⟨byteLength before, byteLength (before ++ inside)⟩ := by
  obtain ⟨start, stop⟩ := span
  constructor
  · intro h
    simp only [cut?] at h
    split at h
    · rename_i hcond
      simp only [Bool.and_eq_true, decide_eq_true_eq, beq_iff_eq] at hcond
      obtain ⟨⟨hle, hstart⟩, hinside⟩ := hcond
      obtain ⟨rfl, rfl⟩ := Prod.mk.inj (Option.some.inj h)
      refine ⟨⟨(Text.splitAtByte (stop - start) (Text.splitAtByte start text).2).2, ?_⟩, ?_⟩
      · rw [List.append_assoc, Text.splitAtByte_fst_append_snd, Text.splitAtByte_fst_append_snd]
      · rw [Text.byteLength_append, hstart, hinside, Nat.add_sub_cancel' hle]
    · cases h
  · rintro ⟨⟨after, rfl⟩, hspan⟩
    obtain ⟨rfl, rfl⟩ := Span.mk.inj hspan
    have hsize : byteLength (before ++ inside) - byteLength before = byteLength inside := by
      rw [Text.byteLength_append]; omega
    simp only [cut?]
    rw [List.append_assoc, Text.splitAtByte_byteLength, hsize, Text.splitAtByte_byteLength]
    simp

/-- Braces around a text are its first and its last character. -/
theorem exists_of_inBraces {cs : List Char} (h : inBraces cs = true) :
    ∃ inside, cs = '{' :: inside ++ ['}'] := by
  simp only [inBraces, Bool.and_eq_true, beq_iff_eq] at h
  obtain ⟨hhead, hlast⟩ := h
  obtain ⟨rest, rfl⟩ := List.head?_eq_some_iff.mp hhead
  rcases List.eq_nil_or_concat rest with rfl | ⟨inside, c, rfl⟩
  · cases hlast
  · rw [List.concat_eq_append, ← List.cons_append, List.getLast?_concat] at hlast
    obtain rfl := Option.some.inj hlast
    exact ⟨inside, by rw [List.concat_eq_append, List.cons_append]⟩

/-- The span of the list between the braces, if a span has them, and the span itself otherwise. -/
def listSpan (inside : List Char) (span : Span) : Span :=
  if inBraces inside then ⟨span.start + 1, span.stop - 1⟩ else span

/-- The list that is refused at a span cuts the text into three parts, and only what is before it
decides whether it is one that binds. -/
theorem binderSpan?_of_cut? {text before inside : List Char} {span : Span}
    (h : cut? text span = some (before, inside)) :
    ∃ head list tail, text = head ++ list ++ tail
      ∧ listSpan inside span = ⟨byteLength head, byteLength (head ++ list)⟩
      ∧ binderSpan? text span
          = if endsWithBinder head.reverse then some (listSpan inside span) else none := by
  obtain ⟨⟨after, htext⟩, hspan⟩ := cut?_eq_some_iff.mp h
  by_cases hbraces : inBraces inside = true
  · obtain ⟨list, hlist⟩ := exists_of_inBraces hbraces
    have hsize : byteLength inside = byteLength list + 2 := by
      rw [hlist, Text.byteLength_append, byteLength]
      change 1 + byteLength list + 1 = byteLength list + 2
      omega
    refine ⟨before ++ ['{'], list, '}' :: after, by simp [htext, hlist], ?_, ?_⟩
    · have hopen : byteLength ['{'] = 1 := rfl
      rw [listSpan, if_pos hbraces, hspan]
      simp only [Text.byteLength_append, hopen, hsize, Span.mk.injEq, true_and]
      omega
    · simp [binderSpan?, h, hbraces, listSpan]
  · refine ⟨before, inside, after, htext, ?_, ?_⟩
    · rw [listSpan, if_neg hbraces, hspan]
    · simp [binderSpan?, h, hbraces, listSpan]

/-- `binderSpan?` with its accesses to the text checked. -/
def binderSpanSafe (text : List Char) (span : Span) : Option (Option Span) :=
  match cut? text span with
  | none => some none
  | some (_, inside) =>
    (Text.upTo? (listSpan inside span).start text).map fun head =>
      if endsWithBinder head.reverse then some (listSpan inside span) else none

/-- Looking for a list that binds never cuts a character. -/
theorem binderSpanSafe_eq (text : List Char) (span : Span) :
    binderSpanSafe text span = some (binderSpan? text span) := by
  cases hcut : cut? text span with
  | none => simp [binderSpanSafe, binderSpan?, hcut]
  | some parts =>
    obtain ⟨head, list, tail, htext, hspan, hbinder⟩ := binderSpan?_of_cut? hcut
    have hhead : Text.upTo? (listSpan parts.2 span).start text = some head := by
      rw [hspan, htext, List.append_assoc]
      exact Text.upTo?_byteLength head (list ++ tail)
    simp only [binderSpanSafe, hcut, hhead, hbinder, Option.map_some]

/-- A span to put parentheses around starts and ends between characters. -/
theorem exists_of_binderSpan? {text : List Char} {span binder : Span}
    (h : binderSpan? text span = some binder) :
    ∃ head list tail, text = head ++ list ++ tail
      ∧ binder = ⟨byteLength head, byteLength (head ++ list)⟩ := by
  cases hcut : cut? text span with
  | none => simp [binderSpan?, hcut] at h
  | some parts =>
    obtain ⟨head, list, tail, htext, hspan, hbinder⟩ := binderSpan?_of_cut? hcut
    rw [hbinder] at h
    split at h
    · exact ⟨head, list, tail, htext, by rw [← hspan, Option.some.inj h]⟩
    · cases h

/-- `insert` where the offset allows it. -/
def insert? (p : Prepared) (n : Nat) (c : Char) : Option Prepared :=
  if IsBoundary n p.text then some (p.insert n c) else none

/-- `parenthesize` where the offsets allow it. -/
def parenthesize? (p : Prepared) (span : Span) : Option Prepared := do
  let p ← p.insert? span.start '('
  p.insert? (span.stop + 1) ')'

/-- Both parentheses around a list of the text go between characters: the second one, one further
than the list ends, since the first one is there. -/
theorem isBoundary_of_list {head list tail : List Char} (h : p.text = head ++ list ++ tail) :
    IsBoundary (byteLength head) p.text
      ∧ IsBoundary (byteLength (head ++ list) + 1) (p.insert (byteLength head) '(').text := by
  refine ⟨⟨head, list ++ tail, by rw [h, List.append_assoc], rfl⟩,
    head ++ '(' :: list, tail, ?_, ?_⟩
  · simp only [Prepared.insert, h, List.append_assoc, Text.insertAt_byteLength, List.cons_append]
  · have hparen : byteLength ('(' :: list) = 1 + byteLength list := rfl
    rw [Text.byteLength_append, hparen, Text.byteLength_append]
    omega

/-- So the parentheses go between characters. -/
theorem parenthesize?_of_binderSpan? {span binder : Span}
    (h : binderSpan? p.text span = some binder) :
    p.parenthesize? binder = some (p.parenthesize binder) := by
  obtain ⟨head, list, tail, hsplit, rfl⟩ := exists_of_binderSpan? h
  obtain ⟨hopen, hclose⟩ := isBoundary_of_list hsplit
  simp only [parenthesize?, insert?, if_pos hopen, Option.bind_eq_bind, Option.bind_some,
    if_pos hclose]
  rfl

/-- A round only adds parentheses. -/
theorem Adds.parenthesize {span binder : Span} (hadds : Adds source p)
    (h : binderSpan? p.text span = some binder) : Adds source (p.parenthesize binder) := by
  obtain ⟨head, list, tail, hsplit, rfl⟩ := exists_of_binderSpan? h
  obtain ⟨hopen, hclose⟩ := isBoundary_of_list hsplit
  exact (hadds.insert hopen (.inl rfl)).insert hclose (.inr rfl)

/-- It adds two. -/
theorem length_inserted_parenthesize (span : Span) :
    (p.parenthesize span).inserted.length = p.inserted.length + 2 := by
  rw [parenthesize, length_inserted_insert, length_inserted_insert]

/-! ## A whole run -/

/-- `resolve` with all accesses to the text checked. -/
def resolve? (refused : List Char → List Span) : Nat → Prepared → Option Prepared
  | 0, p => some p
  | budget + 1, p => do
    match ← (refused p.text).findSomeM? (binderSpanSafe p.text) with
    | some span => resolve? refused budget (← p.parenthesize? span)
    | none => some p

/-- `ofReader` with all accesses to the text checked. -/
def ofReader? (refused : List Char → List Span) (text : List Char) : Option Prepared :=
  resolve? refused (text.count '{') (ofText text)

theorem findSomeM?_binderSpanSafe (text : List Char) (spans : List Span) :
    spans.findSomeM? (binderSpanSafe text) = some (spans.findSome? (binderSpan? text)) := by
  induction spans with
  | nil => rfl
  | cons span spans ih =>
    rw [List.findSomeM?, binderSpanSafe_eq, List.findSome?_cons, ih]
    cases binderSpan? text span <;> rfl

variable {refused : List Char → List Span}

/-- No access of a run is a fault. -/
theorem resolve?_eq (budget : Nat) (p : Prepared) :
    resolve? refused budget p = some (resolve refused budget p) := by
  induction budget generalizing p with
  | zero => rfl
  | succ budget ih =>
    rw [resolve?, findSomeM?_binderSpanSafe, resolve]
    cases hfind : (refused p.text).findSome? (binderSpan? p.text) with
    | none => rfl
    | some binder =>
      obtain ⟨span, -, hspan⟩ := List.exists_of_findSome?_eq_some hfind
      simp only [Option.bind_eq_bind, Option.bind_some, parenthesize?_of_binderSpan? hspan]
      exact ih _

/-- **A run of rounds** only adds parentheses. -/
theorem Adds.resolve (h : Adds source p) (budget : Nat) :
    Adds source (resolve refused budget p) := by
  induction budget generalizing p with
  | zero => exact h
  | succ budget ih =>
    rw [Prepared.resolve]
    split
    · rename_i binder hfind
      obtain ⟨span, -, hspan⟩ := List.exists_of_findSome?_eq_some hfind
      exact ih (h.parenthesize hspan)
    · exact h

/-- Every round of the budget inserts two characters, or is the last one. -/
theorem length_inserted_resolve (refused : List Char → List Span) (budget : Nat) (p : Prepared) :
    ∃ rounds ≤ budget,
      (resolve refused budget p).inserted.length = p.inserted.length + 2 * rounds := by
  induction budget generalizing p with
  | zero => exact ⟨0, Nat.le_refl 0, rfl⟩
  | succ budget ih =>
    rw [resolve]
    split
    · rename_i binder _
      obtain ⟨rounds, hle, hlen⟩ := ih (p.parenthesize binder)
      rw [length_inserted_parenthesize] at hlen
      exact ⟨rounds + 1, by omega, by omega⟩
    · exact ⟨0, Nat.zero_le _, rfl⟩

theorem adds_ofReader (refused : List Char → List Span) (source : List Char) :
    Adds (bytes source) (ofReader refused source) :=
  (adds_ofText source).resolve _

/-- **Preparing a text only adds parentheses**, whatever lists a reader refuses in each round (each
round has another text, so its lists can be any). It ends without a fault; the recorded offsets
ascend, and each is one of a parenthesis in the prepared text; there is an even number of them, and
at most two for each opening brace of the source; and without the bytes at these offsets, the
prepared text is the source. -/
theorem ofReader_only_adds (refused : List Char → List Span) (source : List Char) :
    ofReader? refused source = some (ofReader refused source)
      ∧ (ofReader refused source).inserted.Pairwise (· < ·)
      ∧ (∀ n ∈ (ofReader refused source).inserted, ∃ c, (c = '(' ∨ c = ')')
          ∧ (bytes (ofReader refused source).text)[n]? = some c.toUInt8)
      ∧ Even (ofReader refused source).inserted.length
      ∧ (ofReader refused source).inserted.length ≤ 2 * source.count '{'
      ∧ without (ofReader refused source).inserted 0 (bytes (ofReader refused source).text)
          = bytes source := by
  have hadds := adds_ofReader refused source
  obtain ⟨rounds, hle, hlen⟩ :=
    length_inserted_resolve refused (source.count '{') (ofText source)
  have hcount : (ofReader refused source).inserted.length = 2 * rounds := by
    rw [ofReader, hlen, ofText, List.length_nil, Nat.zero_add]
  refine ⟨resolve?_eq _ _, hadds.ascending, hadds.parens, ?_, ?_, hadds.rest⟩
  · exact ⟨rounds, by omega⟩
  · omega

/-- A list with an attribute in it whose list is refused first. -/
def nestedSource : List Char :=
  "<X as=\x7ba, <Y for=\x7bb, c\x7d />\x7d />".toList

/-- The lists that are refused in `nestedSource`, and after the first round. -/
def nestedLists (text : List Char) : List Span :=
  if '(' ∈ text then [⟨7, 28⟩] else [⟨18, 22⟩]

example : (ofReader nestedLists nestedSource).inserted = [7, 19, 24, 29] := by decide +kernel

end Prepared

end JsxDialect
