import JsxDialect.Element.Text
import JsxDialect.Proofs.Strip
import Mathlib.Data.List.DropRight
import Mathlib.Data.Nat.Find

/-!
# The text that is shown

Lines are trimmed where they meet other lines, lines that are empty then are dropped, and a space is
put after each of the others but one. `shown_keeps_words` says that this loses no word and makes no
two words one. What carries it is that only blanks are taken off, and that no line with text comes
after the one that gets no space.

`rendered` is the rule as it is published for markup. Where a text holds no tabs and no carriage
returns, both agree but for texts that are nothing but spaces: the rule has the first line go
without a space if no line holds text, and here no line does (`shown_eq_rendered_iff`).
-/

namespace JsxDialect.Text

/-! ## Words -/

theorem splitOn_eq_splitOnP (p : Char → Bool) (cs : List Char) : splitOn p cs = cs.splitOnP p := by
  induction cs with
  | nil => rfl
  | cons c cs ih =>
    rw [splitOn, List.splitOnP_cons_eq_if_modifyHead, ih]
    split
    · rfl
    · obtain ⟨piece, pieces, heq⟩ := List.exists_cons_of_ne_nil (List.splitOnP_ne_nil p cs)
      rw [heq, List.modifyHead_cons]

/-- **Words end at a blank.** -/
theorem words_append_cons {c : Char} (hc : isBlank c = true) (cs ds : List Char) :
    words (cs ++ c :: ds) = words cs ++ words ds := by
  simp only [words, splitOn_eq_splitOnP]
  rw [List.splitOnP_append_cons cs ds hc, List.filter_append]

theorem words_eq_nil {cs : List Char} (h : ∀ c ∈ cs, isBlank c = true) : words cs = [] := by
  induction cs with
  | nil => rfl
  | cons c cs ih =>
    have hc : isBlank c = true := h c List.mem_cons_self
    have hcs : words cs = [] := ih fun d hd => h d (List.mem_cons_of_mem c hd)
    calc words (c :: cs) = words [] ++ words cs := words_append_cons hc [] cs
      _ = [] := by rw [hcs]; rfl

/-- Blanks before a text are in no word. -/
theorem words_blanks_append {blanks : List Char} (h : ∀ c ∈ blanks, isBlank c = true)
    (cs : List Char) : words (blanks ++ cs) = words cs := by
  induction blanks with
  | nil => rfl
  | cons c blanks ih =>
    have hc : isBlank c = true := h c List.mem_cons_self
    calc words (c :: blanks ++ cs) = words [] ++ words (blanks ++ cs) := words_append_cons hc [] _
      _ = words cs := ih fun d hd => h d (List.mem_cons_of_mem c hd)

/-- Blanks after a text are in no word. -/
theorem words_append_blanks (cs : List Char) {blanks : List Char}
    (h : ∀ c ∈ blanks, isBlank c = true) : words (cs ++ blanks) = words cs := by
  cases blanks with
  | nil => rw [List.append_nil]
  | cons c blanks =>
    rw [words_append_cons (h c List.mem_cons_self),
      words_eq_nil fun d hd => h d (List.mem_cons_of_mem c hd), List.append_nil]

/-! ## Lines -/

theorem isBlank_of_isIndent {c : Char} (h : isIndent c = true) : isBlank c = true := by
  rw [isIndent, Bool.or_eq_true, beq_iff_eq, beq_iff_eq] at h
  rcases h with rfl | rfl <;> rfl

theorem words_dropReturn (line : List Char) : words (dropReturn line) = words line := by
  unfold dropReturn
  split
  · rename_i hlast
    obtain ⟨front, rfl⟩ := List.getLast?_eq_some_iff.mp (beq_iff_eq.mp hlast)
    rw [List.dropLast_concat, words_append_cons rfl]
    exact (List.append_nil _).symm
  · rfl

/-- The words of a text are those of its lines. -/
theorem flatMap_words_lines (cs : List Char) : (lines cs).flatMap words = words cs := by
  have hjoined : ∀ ls : List (List Char), words (['\n'].intercalate ls) = ls.flatMap words := by
    intro ls
    induction ls with
    | nil => rfl
    | cons line ls ih =>
      cases ls with
      | nil => simp [List.intercalate]
      | cons next ls =>
        rw [List.intercalate_cons_cons, List.append_assoc, List.flatMap_cons, ← ih]
        exact words_append_cons rfl line _
  have hsplit : splitOn (· == '\n') cs = cs.splitOn '\n' := splitOn_eq_splitOnP _ cs
  rw [lines, List.flatMap_map, hsplit]
  simp only [words_dropReturn]
  rw [← hjoined, List.intercalate_splitOn]

/-- The characters of a piece are characters of the text that do not end pieces. -/
theorem mem_of_mem_splitOn {p : Char → Bool} {cs piece : List Char} {d : Char}
    (hpiece : piece ∈ splitOn p cs) (hd : d ∈ piece) : d ∈ cs ∧ p d = false := by
  induction cs generalizing piece with
  | nil =>
    obtain rfl := List.mem_singleton.mp hpiece
    cases hd
  | cons c cs ih =>
    have hrest : ∀ {piece}, piece ∈ splitOn p cs → d ∈ piece → d ∈ c :: cs ∧ p d = false :=
      fun hpiece hd => ⟨List.mem_cons_of_mem c (ih hpiece hd).1, (ih hpiece hd).2⟩
    obtain ⟨first, others, hsplit⟩ : ∃ first others, splitOn p cs = first :: others := by
      rw [splitOn_eq_splitOnP]
      exact List.exists_cons_of_ne_nil (List.splitOnP_ne_nil p cs)
    rw [splitOn] at hpiece
    split at hpiece
    · rcases List.mem_cons.mp hpiece with rfl | hpiece
      · cases hd
      · exact hrest hpiece hd
    · rename_i hc
      rw [hsplit] at hpiece hrest
      rcases List.mem_cons.mp hpiece with rfl | hpiece
      · rcases List.mem_cons.mp hd with rfl | hd
        · exact ⟨List.mem_cons_self, Bool.eq_false_iff.mpr hc⟩
        · exact hrest List.mem_cons_self hd
      · exact hrest (List.mem_cons_of_mem _ hpiece) hd

theorem newline_notMem_of_mem_lines {cs line : List Char} (h : line ∈ lines cs) : '\n' ∉ line := by
  obtain ⟨whole, hwhole, rfl⟩ := List.mem_map.mp h
  have hnone : '\n' ∉ whole := fun hmem => absurd (mem_of_mem_splitOn hwhole hmem).2 (by decide)
  unfold dropReturn
  split
  · exact fun hmem => hnone ((List.dropLast_sublist whole).subset hmem)
  · exact hnone

/-- One more line is the last one with text, unless it holds none. -/
theorem lastWritten_concat (ls : List (List Char)) (line : List Char) :
    lastWritten (ls ++ [line])
      = if line.all isIndent then lastWritten ls else some ls.length := by
  simp only [lastWritten, List.zipIdx_append, List.foldl_append, List.zipIdx_cons, List.zipIdx_nil,
    List.foldl_cons, List.foldl_nil, Nat.zero_add]

theorem lastWritten_eq_none_iff {ls : List (List Char)} :
    lastWritten ls = none ↔ ∀ line ∈ ls, line.all isIndent = true := by
  induction ls using List.reverseRecOn with
  | nil => simp [lastWritten]
  | append_singleton ls line ih =>
    rw [lastWritten_concat, List.forall_mem_append, List.forall_mem_singleton]
    split
    · rename_i hline
      rw [ih]
      exact ⟨fun h => ⟨h, hline⟩, And.left⟩
    · rename_i hline
      exact iff_of_false (Option.some_ne_none _) fun h => hline h.2

/-- **The last line with text**: no line after it holds any. -/
theorem eq_append_of_lastWritten {ls : List (List Char)} {i : Nat} (h : lastWritten ls = some i) :
    ∃ before line after, ls = before ++ line :: after ∧ before.length = i
      ∧ line.all isIndent = false ∧ ∀ l ∈ after, l.all isIndent = true := by
  induction ls using List.reverseRecOn with
  | nil => cases h
  | append_singleton ls last ih =>
    rw [lastWritten_concat] at h
    split at h
    · rename_i hlast
      obtain ⟨before, line, after, rfl, hlength, hline, hafter⟩ := ih h
      refine ⟨before, line, after ++ [last], by simp, hlength, hline, ?_⟩
      rw [List.forall_mem_append, List.forall_mem_singleton]
      exact ⟨hafter, hlast⟩
    · rename_i hlast
      exact ⟨ls, last, [], rfl, Option.some.inj h, Bool.eq_false_iff.mpr hlast,
        fun l hl => absurd hl List.not_mem_nil⟩

/-! ## Trimming -/

/-- A line without text is trimmed to nothing where it meets another line. -/
theorem trimLine_eq_nil {count i : Nat} {line : List Char} (hmeets : i ≠ 0 ∨ i + 1 ≠ count)
    (hline : line.all isIndent = true) : trimLine count i line = [] := by
  rw [List.all_eq_true] at hline
  have hfront : line.dropWhile isIndent = [] := List.dropWhile_eq_nil_iff.mpr hline
  have hback : dropEndWhile isIndent line = [] := List.rdropWhile_eq_nil_iff.mpr hline
  unfold trimLine
  by_cases hfirst : i = 0
  · have hlast : i + 1 ≠ count := hmeets.resolve_left fun hne => hne hfirst
    simp [hfirst, hback, hfirst ▸ hlast]
  · simp [hfirst, hfront, dropEndWhile]

/-- Only blanks are taken off the ends of a line. -/
theorem trimLine_spec (count i : Nat) (line : List Char) :
    ∃ before after, line = before ++ (trimLine count i line ++ after)
      ∧ (∀ c ∈ before, isBlank c = true) ∧ ∀ c ∈ after, isBlank c = true := by
  generalize hfront : (if i == 0 then line else line.dropWhile isIndent) = front
  have htrim : trimLine count i line
      = if i + 1 == count then front else dropEndWhile isIndent front := by
    rw [← hfront]
    rfl
  obtain ⟨before, hline, hbefore⟩ : ∃ before, line = before ++ front
      ∧ ∀ c ∈ before, isBlank c = true := by
    rw [← hfront]
    split
    · exact ⟨[], rfl, fun c hc => absurd hc List.not_mem_nil⟩
    · exact ⟨line.takeWhile isIndent, List.takeWhile_append_dropWhile.symm,
        fun c hc => isBlank_of_isIndent (List.mem_takeWhile_imp hc)⟩
  obtain ⟨after, hback, hafter⟩ : ∃ after, front = trimLine count i line ++ after
      ∧ ∀ c ∈ after, isBlank c = true := by
    rw [htrim]
    split
    · exact ⟨[], (List.append_nil _).symm, fun c hc => absurd hc List.not_mem_nil⟩
    · obtain ⟨after, heq, hafter, -⟩ :=
        dropEndWhile_eq_iff.mp (rfl : dropEndWhile isIndent front = _)
      exact ⟨after, heq, fun c hc => isBlank_of_isIndent (hafter c hc)⟩
  exact ⟨before, after, hback ▸ hline, hbefore, hafter⟩

theorem words_trimLine (count i : Nat) (line : List Char) :
    words (trimLine count i line) = words line := by
  obtain ⟨before, after, heq, hbefore, hafter⟩ := trimLine_spec count i line
  calc words (trimLine count i line)
      = words (trimLine count i line ++ after) := (words_append_blanks _ hafter).symm
    _ = words (before ++ (trimLine count i line ++ after)) := (words_blanks_append hbefore _).symm
    _ = words line := by rw [← heq]

theorem mem_of_mem_trimLine {count i : Nat} {line : List Char} {c : Char}
    (h : c ∈ trimLine count i line) : c ∈ line := by
  obtain ⟨before, after, heq, -⟩ := trimLine_spec count i line
  rw [heq]
  exact List.mem_append_right _ (List.mem_append_left _ h)

/-! ## Lines put together -/

/-- What the lines of a text contribute, one after the other. -/
def joined (ls : List (List Char)) : List Char :=
  ls.zipIdx.flatMap fun x => lineText ls x.1 x.2

theorem shown?_eq_none_iff {cs : List Char} : shown? cs = none ↔ joined (lines cs) = [] := by
  unfold shown?
  dsimp only
  split
  · rename_i hnil
    exact iff_of_true rfl hnil
  · rename_i hne
    exact iff_of_false (Option.some_ne_none _) hne

theorem getD_shown? (cs : List Char) : (shown? cs).getD [] = joined (lines cs) := by
  unfold shown?
  dsimp only
  split
  · rename_i hnil
    exact hnil.symm
  · rfl

/-- **What a line contributes**: nothing, or what is left of it, or that and a space. -/
theorem lineText_cases (ls : List (List Char)) (line : List Char) (i : Nat) :
    (trimLine ls.length i line = [] ∧ lineText ls line i = [])
      ∨ (lastWritten ls = some i ∧ lineText ls line i = trimLine ls.length i line)
      ∨ (lastWritten ls ≠ some i
        ∧ lineText ls line i = trimLine ls.length i line ++ [' ']) := by
  unfold lineText
  split
  · rename_i hnil
    exact .inl ⟨hnil, rfl⟩
  · split
    · rename_i hlast
      exact .inr (.inl ⟨beq_iff_eq.mp hlast, rfl⟩)
    · rename_i hlast
      exact .inr (.inr ⟨fun heq => hlast (beq_iff_eq.mpr heq), rfl⟩)

/-- Lines without text that are not the first contribute nothing. -/
theorem flatMap_lineText_eq_nil {ls rest : List (List Char)} {k : Nat} (hk : k ≠ 0)
    (h : ∀ line ∈ rest, line.all isIndent = true) :
    ((rest.zipIdx k).flatMap fun x => lineText ls x.1 x.2) = [] := by
  rw [List.flatMap_eq_nil_iff]
  rintro ⟨line, i⟩ hmem
  obtain ⟨hi, -, hline⟩ := List.mem_zipIdx hmem
  have hblank : line.all isIndent = true := h line (hline ▸ List.getElem_mem _)
  rw [lineText, trimLine_eq_nil (.inl (by omega)) hblank]

/-- The words of the lines from one line on. -/
theorem words_joined_from (before rest : List (List Char)) :
    words ((rest.zipIdx before.length).flatMap fun x => lineText (before ++ rest) x.1 x.2)
      = rest.flatMap words := by
  induction rest generalizing before with
  | nil => rfl
  | cons line rest ih =>
    have hrest := ih (before ++ [line])
    rw [List.append_assoc, List.singleton_append, List.length_append, List.length_singleton]
      at hrest
    have hline := words_trimLine (before ++ line :: rest).length before.length line
    rw [List.zipIdx_cons, List.flatMap_cons, List.flatMap_cons, ← hline]
    rcases lineText_cases (before ++ line :: rest) line before.length with
      ⟨hnil, htext⟩ | ⟨hlast, htext⟩ | ⟨-, htext⟩
    · rw [htext, hnil]
      exact hrest
    · -- No line after this one holds text, so nothing follows and no word is missing.
      obtain ⟨before', line', after, heq, hlength, -, hafter⟩ := eq_append_of_lastWritten hlast
      obtain ⟨-, hcons⟩ := List.append_inj heq hlength.symm
      obtain ⟨-, rfl⟩ := List.cons.inj hcons
      have hwords : rest.flatMap words = [] := by
        rw [List.flatMap_eq_nil_iff]
        intro l hl
        exact words_eq_nil fun c hc => isBlank_of_isIndent (List.all_eq_true.mp (hafter l hl) c hc)
      rw [htext, flatMap_lineText_eq_nil (Nat.succ_ne_zero _) hafter, hwords, List.append_nil,
        List.append_nil]
    · rw [htext, List.append_assoc, List.singleton_append, words_append_cons rfl, hrest]

theorem newline_notMem_joined {ls : List (List Char)} (h : ∀ line ∈ ls, '\n' ∉ line) :
    '\n' ∉ joined ls := by
  intro hmem
  obtain ⟨⟨line, i⟩, hline, hmem⟩ := List.mem_flatMap.mp hmem
  have hnone : '\n' ∉ trimLine ls.length i line := fun hc =>
    h line (List.fst_mem_of_mem_zipIdx hline) (mem_of_mem_trimLine hc)
  rcases lineText_cases ls line i with ⟨-, htext⟩ | ⟨-, htext⟩ | ⟨-, htext⟩
  · rw [htext] at hmem
    cases hmem
  · rw [htext] at hmem
    exact hnone hmem
  · rw [htext, List.mem_append, List.mem_singleton] at hmem
    rcases hmem with hmem | hmem
    · exact hnone hmem
    · exact absurd hmem (by decide)

/-- **No word is lost.** The text that is shown has the words of the text as written, in their
order, and no line ends in it. -/
theorem shown_keeps_words (cs : List Char) :
    words ((shown? cs).getD []) = words cs ∧ '\n' ∉ (shown? cs).getD [] := by
  rw [getD_shown?]
  constructor
  · calc words (joined (lines cs)) = (lines cs).flatMap words := words_joined_from [] (lines cs)
      _ = words cs := flatMap_words_lines cs
  · exact newline_notMem_joined fun line hline => newline_notMem_of_mem_lines hline

/-! ## The published rule -/

/-- The position of the last line that holds a character other than a space, and `0` if there is
none. -/
def lastHolding (ls : List (List Char)) : Nat :=
  Nat.findGreatest (fun i => (ls.getD i []).any (· != ' ') = true) (ls.length - 1)

/-- A line without the spaces at its front unless it is the first one, and without those at its end
unless it is the last one. -/
def trimSpaces (ls : List (List Char)) (x : List Char × Nat) : List Char :=
  let front := if x.2 = 0 then x.1 else x.1.dropWhile (· == ' ')
  if x.2 + 1 = ls.length then front else front.rdropWhile (· == ' ')

/-- **The rule for text**: split it into lines and trim them, drop those that are empty, put a space
after each of the others but the last one that holds text, and join them. -/
def rendered (cs : List Char) : List Char :=
  let ls := cs.splitOn '\n'
  let trimmed := ls.zipIdx.map fun x => (trimSpaces ls x, x.2)
  let kept := trimmed.filter (! ·.1.isEmpty)
  (kept.map fun x => if x.2 = lastHolding ls then x.1 else x.1 ++ [' ']).flatten

/-- What a line contributes by the rule. -/
def lineByRule (ls : List (List Char)) (x : List Char × Nat) : List Char :=
  if (trimSpaces ls x).isEmpty then []
  else if x.2 = lastHolding ls then trimSpaces ls x else trimSpaces ls x ++ [' ']

theorem rendered_eq_flatMap (cs : List Char) :
    rendered cs = (cs.splitOn '\n').zipIdx.flatMap (lineByRule (cs.splitOn '\n')) := by
  unfold rendered
  dsimp only
  generalize cs.splitOn '\n' = ls
  induction ls.zipIdx with
  | nil => rfl
  | cons x xs ih =>
    rw [List.map_cons, List.flatMap_cons, ← ih, lineByRule]
    cases hempty : (trimSpaces ls x).isEmpty with
    | true => rw [List.filter_cons_of_neg (by simp [hempty]), if_pos rfl, List.nil_append]
    | false =>
      rw [List.filter_cons_of_pos (by simp [hempty]), List.map_cons, List.flatten_cons,
        if_neg Bool.false_ne_true]

/-! ### Where both agree -/

section

variable {cs line : List Char} {ls : List (List Char)} {i : Nat}

/-- Whether a text is a run of spaces. -/
def IsSpaces (cs : List Char) : Prop :=
  cs ≠ [] ∧ ∀ c ∈ cs, c = ' '

theorem isIndent_eq {c : Char} (h : c ≠ '\t') : isIndent c = (c == ' ') := by
  simp [isIndent, h]

theorem dropWhile_isIndent (h : '\t' ∉ line) :
    line.dropWhile isIndent = line.dropWhile (· == ' ') := by
  induction line with
  | nil => rfl
  | cons c line ih =>
    rw [List.mem_cons, not_or] at h
    rw [List.dropWhile_cons, List.dropWhile_cons, isIndent_eq (Ne.symm h.1), ih h.2]

theorem dropEndWhile_isIndent (h : '\t' ∉ line) :
    dropEndWhile isIndent line = line.rdropWhile (· == ' ') := by
  rw [dropEndWhile, List.rdropWhile, dropWhile_isIndent (by rwa [List.mem_reverse])]

theorem any_bne_eq (h : '\t' ∉ line) : line.any (· != ' ') = !line.all isIndent := by
  rw [List.not_all_eq_any_not, Bool.eq_iff_iff, List.any_eq_true, List.any_eq_true]
  refine exists_congr fun c => and_congr_right fun hc => ?_
  have htab : c ≠ '\t' := fun heq => h (heq ▸ hc)
  rw [isIndent_eq htab, bne]

theorem trimLine_eq_trimSpaces (ls : List (List Char)) (i : Nat) (h : '\t' ∉ line) :
    trimLine ls.length i line = trimSpaces ls (line, i) := by
  have hfront : '\t' ∉ line.dropWhile (· == ' ') := fun hmem =>
    h ((List.dropWhile_sublist _).subset hmem)
  simp only [trimLine, trimSpaces, beq_iff_eq, dropWhile_isIndent h]
  by_cases hi : i = 0
  · simp only [hi, if_true, dropEndWhile_isIndent h]
  · simp only [hi, if_false, dropEndWhile_isIndent hfront]

theorem lines_eq_splitOn (h : '\r' ∉ cs) : lines cs = cs.splitOn '\n' := by
  have hsplit : splitOn (· == '\n') cs = cs.splitOn '\n' := splitOn_eq_splitOnP _ cs
  rw [lines, ← hsplit]
  refine (List.map_congr_left fun line hline => ?_).trans (List.map_id _)
  rw [dropReturn, if_neg]
  · rfl
  · intro hlast
    exact h (mem_of_mem_splitOn hline (List.mem_of_getLast? (beq_iff_eq.mp hlast))).1

/-- If a line holds text, the last one that does is the last one by the rule. -/
theorem lastHolding_eq (htabs : ∀ line ∈ ls, '\t' ∉ line) (h : lastWritten ls = some i) :
    lastHolding ls = i := by
  obtain ⟨before, line, after, rfl, rfl, hline, hafter⟩ := eq_append_of_lastWritten h
  have hfrom : ∀ k, (before ++ line :: after).getD (before.length + k) []
      = (line :: after).getD k [] := by
    intro k
    rw [List.getD_eq_getElem?_getD, List.getD_eq_getElem?_getD,
      List.getElem?_append_right (Nat.le_add_right _ k), Nat.add_sub_cancel_left]
  rw [lastHolding, Nat.findGreatest_eq_iff]
  refine ⟨by simp, fun _ => ?_, fun n hn hle hany => ?_⟩
  · change ((before ++ line :: after).getD (before.length + 0) []).any (· != ' ') = true
    rw [hfrom, List.getD_cons_zero, any_bne_eq (htabs line (by simp)), hline]
    rfl
  · obtain ⟨k, rfl⟩ : ∃ k, n = before.length + (k + 1) := ⟨n - before.length - 1, by omega⟩
    rw [hfrom, List.getD_cons_succ, List.getD_eq_getElem?_getD] at hany
    cases hk : after[k]? with
    | none =>
      rw [hk] at hany
      cases hany
    | some l =>
      have hl : l ∈ after := List.mem_of_getElem? hk
      rw [hk, Option.getD_some, any_bne_eq (htabs l (by simp [hl])), hafter l hl] at hany
      cases hany

/-- If no line of a text holds any and still one is not trimmed to nothing, it is the only one. -/
theorem isSpaces_of_trimLine (htab : '\t' ∉ cs) (hnone : lastWritten (cs.splitOn '\n') = none)
    (hline : (line, i) ∈ (cs.splitOn '\n').zipIdx)
    (htrim : trimLine (cs.splitOn '\n').length i line ≠ []) : IsSpaces cs := by
  have hblank : line.all isIndent = true :=
    lastWritten_eq_none_iff.mp hnone line (List.fst_mem_of_mem_zipIdx hline)
  have halone : i = 0 ∧ i + 1 = (cs.splitOn '\n').length := by
    by_contra hmeets
    exact htrim (trimLine_eq_nil (by omega) hblank)
  obtain ⟨whole, hwhole⟩ : ∃ whole, cs.splitOn '\n' = [whole] :=
    List.length_eq_one_iff.mp (by omega)
  have hcs : whole = cs := by
    have hjoined : ['\n'].intercalate (cs.splitOn '\n') = cs := List.intercalate_splitOn '\n'
    rwa [hwhole, List.intercalate_singleton] at hjoined
  obtain rfl : line = cs := by
    rw [hwhole, hcs] at hline
    exact congrArg Prod.fst (List.mem_singleton.mp hline)
  constructor
  · rintro rfl
    exact htrim (List.eq_nil_iff_forall_not_mem.mpr fun c hc =>
      List.not_mem_nil (mem_of_mem_trimLine hc))
  · intro c hc
    have hindent := List.all_eq_true.mp hblank c hc
    rw [isIndent_eq fun heq => htab (heq ▸ hc)] at hindent
    exact beq_iff_eq.mp hindent

/-- **Line by line both agree** on a text that is no run of spaces. -/
theorem lineText_eq_lineByRule (htab : '\t' ∉ cs) (hspaces : ¬IsSpaces cs)
    (hline : (line, i) ∈ (cs.splitOn '\n').zipIdx) :
    lineText (cs.splitOn '\n') line i = lineByRule (cs.splitOn '\n') (line, i) := by
  have hsplit : splitOn (· == '\n') cs = cs.splitOn '\n' := splitOn_eq_splitOnP _ cs
  have htabs : ∀ l ∈ cs.splitOn '\n', '\t' ∉ l := fun l hl hmem =>
    htab (mem_of_mem_splitOn (hsplit ▸ hl) hmem).1
  have htrim := trimLine_eq_trimSpaces (cs.splitOn '\n') i
    (htabs line (List.fst_mem_of_mem_zipIdx hline))
  by_cases hnil : trimLine (cs.splitOn '\n').length i line = []
  · rw [lineText, lineByRule, ← htrim, hnil]
    rfl
  · have hlast : lastWritten (cs.splitOn '\n') = some (lastHolding (cs.splitOn '\n')) := by
      cases hlast : lastWritten (cs.splitOn '\n') with
      | none => exact absurd (isSpaces_of_trimLine htab hlast hline hnil) hspaces
      | some k => rw [lastHolding_eq htabs hlast]
    have hempty : (trimLine (cs.splitOn '\n').length i line).isEmpty = false := by
      rwa [List.isEmpty_eq_false_iff]
    rw [lineByRule, ← htrim, hempty, if_neg Bool.false_ne_true]
    rcases lineText_cases (cs.splitOn '\n') line i with ⟨htrim, -⟩ | ⟨hi, htext⟩ | ⟨hi, htext⟩
    · exact absurd htrim hnil
    · rw [htext, if_pos (Option.some.inj (hi.symm.trans hlast))]
    · rw [htext, if_neg fun heq => hi (hlast.trans (congrArg some heq.symm))]

theorem joined_eq_rendered (htab : '\t' ∉ cs) (hreturn : '\r' ∉ cs) (hspaces : ¬IsSpaces cs) :
    joined (lines cs) = rendered cs := by
  rw [lines_eq_splitOn hreturn, rendered_eq_flatMap, joined]
  exact List.flatMap_congr fun _ hline => lineText_eq_lineByRule htab hspaces hline

/-- **A run of spaces** gets one more, and stays as it is by the rule. -/
theorem shown_spaces (h : IsSpaces cs) : shown? cs = some (cs ++ [' ']) ∧ rendered cs = cs := by
  obtain ⟨hne, hall⟩ := h
  have hsplit : cs.splitOn '\n' = [cs] := by
    rw [List.splitOn_eq_splitOnP]
    refine List.splitOnP_eq_singleton fun c hc => ?_
    rw [hall c hc]
    rfl
  have hlines : lines cs = [cs] := by
    rw [← hsplit]
    exact lines_eq_splitOn fun hmem => absurd (hall _ hmem) (by decide)
  have hnone : lastWritten [cs] = none := by
    rw [lastWritten_eq_none_iff, List.forall_mem_singleton, List.all_eq_true]
    intro c hc
    rw [hall c hc]
    rfl
  -- The only line is both the first and the last one, so nothing is taken off it.
  have htrim : trimLine [cs].length 0 cs = cs := rfl
  constructor
  · have hjoined : joined (lines cs) = cs ++ [' '] := by
      have hone : joined [cs] = lineText [cs] cs 0 := List.append_nil _
      rw [hlines, hone]
      rcases lineText_cases [cs] cs 0 with ⟨hnil, -⟩ | ⟨hlast, -⟩ | ⟨-, htext⟩
      · exact absurd hnil hne
      · rw [hnone] at hlast
        cases hlast
      · rw [htext, htrim]
    have hsome : shown? cs ≠ none := by
      rw [Ne, shown?_eq_none_iff, hjoined]
      exact List.append_ne_nil_of_right_ne_nil _ (List.cons_ne_nil _ _)
    obtain ⟨out, hout⟩ := Option.ne_none_iff_exists'.mp hsome
    have hgiven := getD_shown? cs
    rw [hout, Option.getD_some, hjoined] at hgiven
    rw [hout, hgiven]
  · have hempty : cs.isEmpty = false := by rwa [List.isEmpty_eq_false_iff]
    have hfirst : lastHolding [cs] = 0 := rfl
    have hline : lineByRule [cs] (cs, 0) = cs := by
      change (if cs.isEmpty then [] else if 0 = lastHolding [cs] then cs else cs ++ [' ']) = cs
      rw [hempty, hfirst, if_neg Bool.false_ne_true, if_pos rfl]
    rw [rendered_eq_flatMap, hsplit]
    exact (List.append_nil _).trans hline

end

/-- **Where the text that is shown follows the rule.** Of the texts without tabs and carriage
returns these are all but the runs of spaces: there one space too many is shown. -/
theorem shown_eq_rendered_iff (cs : List Char) (htab : '\t' ∉ cs) (hreturn : '\r' ∉ cs) :
    (((shown? cs).getD [] = rendered cs ∧ (shown? cs = none ↔ rendered cs = [])) ↔ ¬IsSpaces cs)
      ∧ (IsSpaces cs → shown? cs = some (cs ++ [' ']) ∧ rendered cs = cs) := by
  refine ⟨⟨fun ⟨hshown, _⟩ hspaces => ?_, fun hspaces => ?_⟩, shown_spaces⟩
  · obtain ⟨hone, hrendered⟩ := shown_spaces hspaces
    rw [hone, hrendered, Option.getD_some] at hshown
    exact absurd hshown (by simp)
  · have hjoined := joined_eq_rendered htab hreturn hspaces
    rw [getD_shown?, shown?_eq_none_iff, hjoined]
    exact ⟨rfl, Iff.rfl⟩

/-- A text with lines that meet on both sides and with blank lines at its ends and in between. -/
theorem shown_eq_rendered_rose :
    let cs := "\n  a rose \n\n is  \n a rose\n ".toList
    ('\t' ∉ cs ∧ '\r' ∉ cs ∧ ¬IsSpaces cs) ∧ shown? cs = some "a rose is a rose".toList
      ∧ (shown? cs).getD [] = rendered cs ∧ (shown? cs = none ↔ rendered cs = []) := by
  intro cs
  have htab : '\t' ∉ cs := by decide
  have hreturn : '\r' ∉ cs := by decide
  have hspaces : ¬IsSpaces cs := fun h => absurd (h.2 '\n' (by decide)) (by decide)
  exact ⟨⟨htab, hreturn, hspaces⟩, by decide,
    (shown_eq_rendered_iff cs htab hreturn).1.mpr hspaces⟩

/-- **Three spaces become four**, where the rule has three. -/
theorem shown_ne_rendered_spaces :
    shown? "   ".toList = some "    ".toList ∧ rendered "   ".toList = "   ".toList := by
  decide

end JsxDialect.Text
