import JsxDialect.Proofs.Brackets
import JsxDialect.Proofs.Insertion

/-!
# Preparing a text settles

Every round of preparing a text puts one list in parentheses, and there are as many rounds as the
source has opening braces. That is enough. Call a brace live if it starts a container whose contents
are not in parentheses. The braces around a list that is refused are live, they are not afterwards,
and no other braces become live, wherever the later parentheses go (`live_round`). So a run ends
since no list is refused any more, and not since its budget is used up, and preparing the result
once more changes nothing.

A list that starts and ends with a brace may be taken for a container, and then the parentheses go
inside of its braces. If these are partners, they are the live ones (`live_round` again). If not,
the parentheses clash with them, and no container that has the clash in it is one any more
(`live_clash`).

This assumes of the reader that it refuses the contents of containers, and none that are a single
group in parentheses (`IsRefusal`), as no list with a comma outside of brackets is
(`IsRefusal.of_comma`). Which brackets make containers depends on how a text is read, and the
parentheses that are inserted are code.
-/

namespace JsxDialect

open Glyph

namespace Prepared

open Text (byteLength)

variable {refused : List Char → List Span} {w s s' u c q : List Glyph} {p : Prepared}

/-! ## Live braces -/

/-- Whether a text starts with a container whose contents are not in parentheses. -/
def IsOpen (s : List Glyph) : Prop :=
  ∃ c q, s = braced c ++ q ∧ Balanced c ∧ ¬ IsParenthesized c

open Classical in
/-- The number of braces that start such a container. -/
noncomputable def live : List Glyph → Nat
  | [] => 0
  | g :: w => (if IsOpen (g :: w) then 1 else 0) + live w

/-- A container starts with a brace. -/
theorem IsOpen.eq_code {g : Glyph} (h : IsOpen (g :: w)) : g = code '{' := by
  obtain ⟨c, q, heq, -⟩ := h
  exact (List.cons.inj heq).1

/-- A container that lies in a text is there whatever comes after the text. -/
theorem IsOpen.of_within {v : List Glyph} (hwithin : ∃ q, v = braced c ++ q) (hc : Balanced c)
    (hnot : ¬ IsParenthesized c) (s : List Glyph) : IsOpen (v ++ s) := by
  obtain ⟨q, rfl⟩ := hwithin
  exact ⟨c, q ++ s, List.append_assoc _ _ _, hc, hnot⟩

/-- What starts no container does not count. -/
theorem live_cons_of_not {g : Glyph} (h : ¬ IsOpen (g :: w)) : live (g :: w) = live w := by
  rw [live, if_neg h, Nat.zero_add]

/-- Only braces count. -/
theorem live_cons_of_ne {g : Glyph} (h : g ≠ code '{') (w : List Glyph) :
    live (g :: w) = live w :=
  live_cons_of_not fun hopen => h hopen.eq_code

/-- Not more braces are live than there are braces. -/
theorem live_le_count (w : List Glyph) : live w ≤ (chars w).count '{' := by
  induction w with
  | nil => exact Nat.le_refl 0
  | cons g w ih =>
    rw [live, chars_cons, List.count_cons]
    split
    case isTrue h =>
      rw [h.eq_code]
      change 1 + live w ≤ (chars w).count '{' + 1
      omega
    case isFalse => omega

/-- What is passed over has no braces. -/
theorem live_skipped_append (h : ∀ g ∈ u, g.isSkipped = true) (w : List Glyph) :
    live (u ++ w) = live w := by
  induction u with
  | nil => rfl
  | cons g u ih =>
    have hg : g ≠ code '{' := by
      rintro rfl
      cases h _ List.mem_cons_self
    rw [List.cons_append, live_cons_of_ne hg, ih fun g hg => h g (List.mem_cons_of_mem _ hg)]

/-- A change further on makes no brace live, if every container that is open after it was so before
it. -/
theorem live_append_le {n : Nat} (h : ∀ v, v <:+ u → v ≠ [] → IsOpen (v ++ s') → IsOpen (v ++ s))
    (hs : live s' + n ≤ live s) : live (u ++ s') + n ≤ live (u ++ s) := by
  induction u with
  | nil => exact hs
  | cons g u ih =>
    have hrest := ih fun v hv => h v (hv.trans (List.suffix_cons g u))
    have hopen := h (g :: u) List.suffix_rfl (List.cons_ne_nil g u)
    simp only [List.cons_append, live] at hopen ⊢
    by_cases hs' : IsOpen (g :: (u ++ s'))
    · rw [if_pos hs', if_pos (hopen hs')]
      omega
    · rw [if_neg hs']
      split <;> omega

/-- A container with another one in it, or before it, stays as it is if the other one changes. -/
theorem IsOpen.replace {v c' : List Glyph} (hc : Balanced c) (hc' : Balanced c') (hv : v ≠ [])
    (h : IsOpen (v ++ (braced c ++ q))) : IsOpen (v ++ (braced c' ++ q)) := by
  obtain ⟨outer, rest, heq, houter, hnot⟩ := h
  obtain ⟨g, v, rfl⟩ := List.exists_cons_of_ne_nil hv
  obtain ⟨rfl, hinside⟩ : g = code '{' ∧ v ++ (braced c ++ q) = outer ++ code '}' :: rest := by
    simpa only [List.cons_append, braced, List.cons.injEq, List.append_assoc,
      List.nil_append] using heq
  rcases houter.nested hc hinside with ⟨last, rfl, rfl⟩ | ⟨part, rfl, hpart⟩
  · refine ⟨v ++ (braced c' ++ last), rest, ?_, houter.replace hc.braced hc'.braced,
      fun hparen => hnot (hparen.replace hc' hc)⟩
    simp [braced]
  · cases part with
    | nil => cases hpart
    | cons g part =>
      obtain ⟨rfl, -⟩ := List.cons.inj hpart
      exact ⟨outer, part ++ (braced c' ++ q), by simp [braced], houter, hnot⟩

/-- A container within a balanced text stays as it is if what comes after the text changes. -/
theorem IsOpen.append {v : List Glyph} (hu : Balanced u) (hv : v <:+ u) (hne : v ≠ [])
    (h : IsOpen (v ++ s)) : IsOpen (v ++ s') := by
  obtain ⟨inner, rest, heq, hinner, hnot⟩ := h
  obtain ⟨first, rfl⟩ := hv
  obtain ⟨last, hlast, -⟩ := hu.exists_of_braced hne hinner heq
  exact .of_within ⟨last, hlast⟩ hinner hnot s'

/-- **A round closes braces**: those around its list, and it makes no other ones live. -/
theorem live_round {before list after : List Glyph} (hlist : Balanced list)
    (hbefore : ∀ g ∈ before, g.isSkipped = true) (hafter : ∀ g ∈ after, g.isSkipped = true)
    (hnot : ¬ IsParenthesized (before ++ (list ++ after))) :
    live (u ++ (braced (before ++ (paren list ++ after)) ++ q)) + 1
      ≤ live (u ++ (braced (before ++ (list ++ after)) ++ q)) := by
  have hskip : ∀ {part : List Glyph}, (∀ g ∈ part, g.isSkipped = true) → Balanced part :=
    fun hpart => run_skipped hpart []
  have hc : Balanced (before ++ (list ++ after)) :=
    (hskip hbefore).append (hlist.append (hskip hafter))
  have hwrapped : IsParenthesized (before ++ (paren list ++ after)) :=
    isParenthesized_iff.mpr ⟨before, list, after, hlist, rfl, hbefore, hafter⟩
  refine live_append_le (fun v _ hv => IsOpen.replace hwrapped.balanced hc hv) ?_
  -- The braces themselves are live before the round …
  have hopen : live (braced (before ++ (list ++ after)) ++ q)
      = 1 + live (list ++ (after ++ code '}' :: q)) := by
    have hhead : IsOpen (braced (before ++ (list ++ after)) ++ q) := ⟨_, _, rfl, hc, hnot⟩
    rw [← live_skipped_append hbefore (list ++ (after ++ code '}' :: q))]
    simp only [braced, List.cons_append, List.append_assoc, List.nil_append] at hhead ⊢
    rw [live, if_pos hhead]
  -- … and not after it.
  have hclosed : live (braced (before ++ (paren list ++ after)) ++ q)
      = live (list ++ code ')' :: (after ++ code '}' :: q)) := by
    have hhead : ¬ IsOpen (braced (before ++ (paren list ++ after)) ++ q) := by
      rintro ⟨c, rest, heq, hbalanced, hparen⟩
      exact hparen ((braced_inj hwrapped.balanced hbalanced heq).1 ▸ hwrapped)
    have hparen : code '(' ≠ code '{' := by decide
    rw [← live_cons_of_ne hparen (list ++ code ')' :: (after ++ code '}' :: q)),
      ← live_skipped_append hbefore (code '(' :: _)]
    simp only [braced, paren, List.cons_append, List.append_assoc, List.nil_append] at hhead ⊢
    rw [live_cons_of_not hhead]
  have hinside : live (list ++ code ')' :: (after ++ code '}' :: q)) + 0
      ≤ live (list ++ (after ++ code '}' :: q)) := by
    refine live_append_le (fun v hv hne => IsOpen.append hlist hv hne) ?_
    rw [live_cons_of_ne (by decide)]
    omega
  omega

/-- No container goes on where brackets clash. -/
theorem IsOpen.of_clash {v : List Glyph} {due : List Char} (hw : run w [] = some (')' :: due))
    (h : IsOpen (v ++ code '{' :: (w ++ code '}' :: q))) :
    ∃ c, (∃ q', v = braced c ++ q') ∧ Balanced c ∧ ¬ IsParenthesized c := by
  obtain ⟨c, rest, heq, hc, hnot⟩ := h
  exact ⟨c, exists_of_clash hw hc heq, hc, hnot⟩

/-- None starts there either. -/
theorem not_isOpen_of_clash {due : List Char} (hw : run w [] = some (')' :: due)) :
    ¬ IsOpen (code '{' :: (w ++ code '}' :: q)) := by
  intro h
  obtain ⟨c, ⟨rest, heq⟩, -⟩ := IsOpen.of_clash (v := []) hw h
  cases heq

/-- **A round whose parentheses clash** with the braces that they are put into: `{x}, {y}` becomes
`{(x}, {y)}`. The container around it is none any more, and nothing else becomes one. -/
theorem live_clash {before x y after : List Glyph} (hbefore : ∀ g ∈ before, g.isSkipped = true)
    (hx : Balanced x) (hy : Balanced (y ++ [code '}']))
    (hopen : IsOpen (braced (before ++ (braced (x ++ code '}' :: y) ++ after)) ++ q)) :
    live (u ++ (braced (before ++ (braced (paren (x ++ code '}' :: y)) ++ after)) ++ q)) + 1
      ≤ live (u ++ (braced (before ++ (braced (x ++ code '}' :: y) ++ after)) ++ q)) := by
  have hinner : run (code '(' :: x) [] = some [')'] := hx.run_eq [')']
  have houter : run (before ++ code '{' :: code '(' :: x) [] = some [')', '}'] := by
    rw [run_append, run_skipped hbefore, Option.bind_some]
    exact hx.run_eq [')', '}']
  have hnew : braced (before ++ (braced (paren (x ++ code '}' :: y)) ++ after)) ++ q
      = code '{' :: ((before ++ code '{' :: code '(' :: x)
        ++ code '}' :: (y ++ code ')' :: code '}' :: (after ++ code '}' :: q))) := by
    simp [braced, paren]
  have hold : braced (before ++ (braced (x ++ code '}' :: y) ++ after)) ++ q
      = code '{' :: (before ++ code '{' :: (x
        ++ code '}' :: (y ++ code '}' :: (after ++ code '}' :: q)))) := by
    simp [braced]
  rw [hnew]
  refine live_append_le (fun v _ _ h => ?_) ?_
  · obtain ⟨c, hwithin, hc, hnot⟩ := h.of_clash houter
    exact .of_within hwithin hc hnot _
  -- Two braces are not live after the round, and the first of them was before it.
  have hafter : live (code '{' :: ((before ++ code '{' :: code '(' :: x)
        ++ code '}' :: (y ++ code ')' :: code '}' :: (after ++ code '}' :: q))))
      = live (x ++ code '}' :: (y ++ code ')' :: code '}' :: (after ++ code '}' :: q))) := by
    rw [live_cons_of_not (not_isOpen_of_clash houter), List.append_assoc,
      live_skipped_append hbefore]
    exact (live_cons_of_not (not_isOpen_of_clash hinner)).trans (live_cons_of_ne (by decide) _)
  have hbefore : 1 + live (x ++ code '}' :: (y ++ code '}' :: (after ++ code '}' :: q)))
      ≤ live (braced (before ++ (braced (x ++ code '}' :: y) ++ after)) ++ q) := by
    rw [hold] at hopen ⊢
    rw [live, if_pos hopen, live_skipped_append hbefore, live]
    omega
  -- What is between the braces has the containers that it had.
  have hlast : live (y ++ code ')' :: code '}' :: (after ++ code '}' :: q)) + 0
      ≤ live (y ++ code '}' :: (after ++ code '}' :: q)) := by
    refine live_append_le (fun v hv _ h => ?_) ?_
    · obtain ⟨first, rfl⟩ := hv
      obtain ⟨c, rest, heq, hc, hnot⟩ := h
      exact .of_within (exists_of_paren hy hc heq) hc hnot _
    · rw [live_cons_of_ne (by decide)]
      omega
  have hinside : live (x ++ code '}' :: (y ++ code ')' :: code '}' :: (after ++ code '}' :: q))) + 0
      ≤ live (x ++ code '}' :: (y ++ code '}' :: (after ++ code '}' :: q))) := by
    refine live_append_le (fun v hv hne => IsOpen.append hx hv hne) ?_
    rw [live_cons_of_ne (by decide), live_cons_of_ne (by decide)]
    exact hlast
  omega

/-! ## Rounds -/

/-- A text as it is read after parentheses are put around a span: they are code. -/
def wrap (w : List Glyph) (span : Span) : List Glyph :=
  let head := (Text.splitAtByte span.start (chars w)).1.length
  let list := (Text.splitAtByte (span.stop - span.start) (chars (w.drop head))).1.length
  w.take head ++ (paren ((w.drop head).take list) ++ (w.drop head).drop list)

/-- A text as it is read after some rounds. -/
def rounds (refused : List Char → List Span) : Nat → List Glyph → List Glyph
  | 0, w => w
  | n + 1, w =>
    match (refused (chars w)).findSome? (binderSpan? (chars w)) with
    | some span => rounds refused n (wrap w span)
    | none => w

/-- Where nothing is found, no round changes anything. -/
theorem rounds_of_none (h : (refused (chars w)).findSome? (binderSpan? (chars w)) = none)
    (n : Nat) : rounds refused n w = w := by
  cases n with
  | zero => rfl
  | succ n => rw [rounds, h]

theorem rounds_succ {binder : Span}
    (h : (refused (chars w)).findSome? (binderSpan? (chars w)) = some binder) (n : Nat) :
    rounds refused (n + 1) w = rounds refused n (wrap w binder) := by
  rw [rounds, h]

theorem wrap_eq (head list tail : List Glyph) :
    wrap (head ++ (list ++ tail)) ⟨byteLength (chars head), byteLength (chars (head ++ list))⟩
      = head ++ (paren list ++ tail) := by
  have hsize : byteLength (chars head ++ chars list) - byteLength (chars head)
      = byteLength (chars list) := by
    rw [Text.byteLength_append]
    omega
  have hhead : (chars head).length = head.length := List.length_map _
  have hlist : (chars list).length = list.length := List.length_map _
  simp only [wrap, chars_append, hsize, Text.splitAtByte_byteLength, hhead, List.drop_left,
    List.take_left, hlist]

theorem text_parenthesize {head list tail : List Char} (h : p.text = head ++ list ++ tail) :
    (p.parenthesize ⟨byteLength head, byteLength (head ++ list)⟩).text
      = head ++ ('(' :: (list ++ ')' :: tail)) := by
  have hopen : (p.insert (byteLength head) '(').text = (head ++ '(' :: list) ++ tail := by
    simp only [insert, h, List.append_assoc, Text.insertAt_byteLength, List.cons_append]
  have hsize : byteLength (head ++ list) + 1 = byteLength (head ++ '(' :: list) := by
    have hparen : byteLength ('(' :: list) = 1 + byteLength list := rfl
    rw [Text.byteLength_append, Text.byteLength_append, hparen]
    omega
  rw [parenthesize, insert, hopen, hsize, Text.insertAt_byteLength]
  simp

/-- A round on a prepared text is a round on the text as it is read. -/
theorem text_parenthesize_eq_wrap {binder : Span} (h : p.text = chars w)
    (hfind : (refused (chars w)).findSome? (binderSpan? (chars w)) = some binder) :
    (p.parenthesize binder).text = chars (wrap w binder) := by
  obtain ⟨span, -, hspan⟩ := List.exists_of_findSome?_eq_some hfind
  obtain ⟨head, list, tail, htext, rfl⟩ := exists_of_binderSpan? hspan
  obtain ⟨wl, tail, rfl, hwl, rfl⟩ := List.map_eq_append_iff.mp htext
  obtain ⟨head, list, rfl, rfl, rfl⟩ := List.map_eq_append_iff.mp hwl
  have hsplit : p.text = chars head ++ chars list ++ chars tail := by
    rw [h, chars_append, chars_append]
  have hwrap := wrap_eq head list tail
  rw [← List.append_assoc, chars_append head list] at hwrap
  refine (text_parenthesize hsplit).trans (.trans ?_ (congrArg chars hwrap.symm))
  simp [paren, code, chars]

theorem text_resolve (n : Nat) (h : p.text = chars w) :
    (resolve refused n p).text = chars (rounds refused n w) := by
  induction n generalizing p w with
  | zero => exact h
  | succ n ih =>
    rw [resolve, rounds, h]
    cases hfind : (refused (chars w)).findSome? (binderSpan? (chars w)) with
    | none => exact h
    | some binder => exact ih (text_parenthesize_eq_wrap h hfind)

/-! ## Readers -/

/-- The span of the contents of a container after a text, less what is skipped around them. -/
def contentsSpan (u c : List Glyph) : Span :=
  let head := u ++ code '{' :: c.takeWhile isSkipped
  ⟨byteLength (chars head), byteLength (chars (head ++ strip isSkipped c))⟩

/-- Whether a text is a single group in parentheses, apart from what is passed over, or such a group
in braces. -/
def IsGrouped (c : List Glyph) : Prop :=
  IsParenthesized c ∨ ∃ d, strip isSkipped c = braced d ∧ IsParenthesized d

/-- What may be refused in a text: the contents of a container that are not a single group in
parentheses. Contents in braces may be taken for the container, so what is between these braces is
no such group either; `{(a)}` has no comma, so it is no list. -/
def IsRefusal (w : List Glyph) (span : Span) : Prop :=
  ∃ u c q, w = u ++ (braced c ++ q) ∧ Balanced c ∧ ¬ IsGrouped c ∧ span = contentsSpan u c

/-- A text with a comma outside of brackets is no group, in braces or not. -/
theorem not_isGrouped_of_comma (hu : Balanced u) : ¬ IsGrouped (u ++ code ',' :: w) := by
  rintro (⟨d, hd, hstrip⟩ | ⟨d, hstrip, hparen⟩)
  · obtain ⟨before, after, heq, hbefore, hafter, -⟩ := strip_eq_iff.mp hstrip
    exact not_balanced_of_group (by decide) (by decide) rfl hd hbefore hafter heq hu
  · obtain ⟨before, after, heq, hbefore, hafter, -⟩ := strip_eq_iff.mp hstrip
    exact not_balanced_of_group (by decide) (by decide) rfl hparen.balanced hbefore hafter heq hu

/-- **Every list may be refused** that is the contents of a container: it has a comma outside of
brackets. -/
theorem IsRefusal.of_comma {a b : List Glyph} {span : Span} (ha : Balanced a) (hb : Balanced b)
    (hw : w = u ++ (braced (a ++ code ',' :: b) ++ q))
    (hspan : span = contentsSpan u (a ++ code ',' :: b)) : IsRefusal w span := by
  have hcomma : Balanced (code ',' :: b) := hb
  exact ⟨u, a ++ code ',' :: b, q, hw, ha.append hcomma, not_isGrouped_of_comma ha, hspan⟩

/-- Contents whose first and last characters are braces are in braces, as these are code. -/
theorem exists_braced_of_inBraces (h : inBraces (chars (strip isSkipped c)) = true) :
    ∃ d, strip isSkipped c = braced d := by
  obtain ⟨inside, hinside⟩ := exists_of_inBraces h
  obtain ⟨-, -, -, -, -, hends⟩ := strip_eq_iff.mp (rfl : strip isSkipped c = _)
  generalize strip isSkipped c = list at hinside hends
  obtain ⟨first, last, rfl, hfirst, hlast⟩ := List.map_eq_append_iff.mp hinside
  obtain ⟨g, d, rfl, hg, -⟩ := List.map_eq_cons_iff.mp hfirst
  obtain ⟨g', rfl, hg'⟩ := List.map_eq_singleton_iff.mp hlast
  refine ⟨d, ?_⟩
  have hopen : g = code g.char := eq_code (hends g (mem_ends_iff.mpr (.inl rfl)))
  have hclose : g' = code g'.char :=
    eq_code (hends g' (mem_ends_iff.mpr (.inr List.getLast?_concat)))
  rw [hopen, hclose, hg, hg']
  rfl

/-- Parentheses go around the contents of a container or, if these are in braces, around what is
between the braces. -/
theorem wrap_of_binderSpan? {before list after : List Glyph} {binder : Span}
    (h : binderSpan? (chars (u ++ (braced (before ++ (list ++ after)) ++ q)))
      ⟨byteLength (chars (u ++ code '{' :: before)),
        byteLength (chars (u ++ code '{' :: before ++ list))⟩ = some binder) :
    (inBraces (chars list) = false
      ∧ wrap (u ++ (braced (before ++ (list ++ after)) ++ q)) binder
        = u ++ (braced (before ++ (paren list ++ after)) ++ q))
    ∨ inBraces (chars list) = true ∧ ∀ d, list = braced d →
      wrap (u ++ (braced (before ++ (list ++ after)) ++ q)) binder
        = u ++ (braced (before ++ (braced (paren d) ++ after)) ++ q) := by
  have hcut : cut? (chars (u ++ (braced (before ++ (list ++ after)) ++ q)))
      ⟨byteLength (chars (u ++ code '{' :: before)),
        byteLength (chars (u ++ code '{' :: before ++ list))⟩
      = some (chars (u ++ code '{' :: before), chars list) := by
    refine cut?_eq_some_iff.mpr ⟨⟨chars (after ++ code '}' :: q), ?_⟩, by rw [← chars_append]⟩
    simp [braced, chars]
  rw [binderSpan?, hcut] at h
  dsimp only at h
  cases hbraces : inBraces (chars list) with
  | false =>
    rw [hbraces, if_neg Bool.false_ne_true, Option.ite_none_right_eq_some] at h
    refine .inl ⟨rfl, ?_⟩
    have hsplit : u ++ (braced (before ++ (list ++ after)) ++ q)
        = (u ++ code '{' :: before) ++ (list ++ (after ++ code '}' :: q)) := by
      simp [braced]
    rw [← Option.some.inj h.2, hsplit, wrap_eq]
    simp [braced]
  | true =>
    rw [hbraces, if_pos rfl, Option.ite_none_right_eq_some] at h
    refine .inr ⟨rfl, ?_⟩
    rintro d rfl
    -- The parentheses go one character further in, at both ends.
    have hspan : binder = ⟨byteLength (chars (u ++ code '{' :: before ++ [code '{'])),
        byteLength (chars (u ++ code '{' :: before ++ [code '{'] ++ d))⟩ := by
      rw [← Option.some.inj h.2]
      have hopen : byteLength (chars [code '{']) = 1 := rfl
      have hclose : byteLength (chars [code '}']) = 1 := rfl
      have hbraced : braced d = [code '{'] ++ d ++ [code '}'] := rfl
      simp only [hbraced, chars_append, Text.byteLength_append, hopen, hclose, Span.mk.injEq,
        true_and]
      omega
    have hsplit : u ++ (braced (before ++ (braced d ++ after)) ++ q)
        = (u ++ code '{' :: before ++ [code '{'])
          ++ (d ++ (code '}' :: (after ++ code '}' :: q))) := by
      simp [braced]
    rw [hspan, hsplit, wrap_eq]
    simp [braced, paren]

/-- **One round** on a text in which a list is refused. -/
theorem live_wrap {binder : Span}
    (hrefused : ∀ span ∈ refused (chars w), IsRefusal w span)
    (hfind : (refused (chars w)).findSome? (binderSpan? (chars w)) = some binder) :
    live (wrap w binder) + 1 ≤ live w := by
  obtain ⟨span, hspan, hbinder⟩ := List.exists_of_findSome?_eq_some hfind
  obtain ⟨u, c, q, rfl, hc, hnone, rfl⟩ := hrefused span hspan
  have hnot : ¬ IsParenthesized c := fun h => hnone (.inl h)
  have hbraces : ∀ d, strip isSkipped c = braced d → ¬ IsParenthesized d :=
    fun d hd h => hnone (.inr ⟨d, hd, h⟩)
  obtain ⟨after, heq, hafter⟩ := takeWhile_append_strip isSkipped c
  have hbefore : ∀ g ∈ c.takeWhile isSkipped, g.isSkipped = true :=
    fun g hg => List.mem_takeWhile_imp hg
  have hinside := exists_braced_of_inBraces (c := c)
  simp only [contentsSpan] at hbinder
  clear hnone
  generalize c.takeWhile isSkipped = before at *
  generalize strip isSkipped c = list at *
  subst heq
  have hlist : Balanced list := hc.of_skipped hbefore hafter
  rcases wrap_of_binderSpan? hbinder with ⟨-, hwrap⟩ | ⟨hbrace, hwrap⟩
  · rw [hwrap]
    exact live_round hlist hbefore hafter hnot
  · obtain ⟨d, rfl⟩ := hinside hbrace
    rw [hwrap d rfl]
    rcases hlist.braced_cases with hd | ⟨x, y, rfl, hx, hy⟩
    · -- The braces are those of a container within the other one.
      have hnil : ∀ g ∈ ([] : List Glyph), g.isSkipped = true :=
        fun g hg => absurd hg List.not_mem_nil
      have hround := live_round (u := u ++ code '{' :: before) (q := after ++ code '}' :: q)
        hd hnil hnil (by simpa using hbraces d rfl)
      simpa [braced] using hround
    · exact live_clash hbefore hx hy ⟨_, _, rfl, hc, hnot⟩

/-- **A run** with a budget for every live brace ends when nothing is refused any more. -/
theorem resolve_settles {budget : Nat} (hlive : live w ≤ budget) (htext : p.text = chars w)
    (hrefused : ∀ n ≤ budget, ∀ span ∈ refused (chars (rounds refused n w)),
      IsRefusal (rounds refused n w) span) :
    (refused (resolve refused budget p).text).findSome?
      (binderSpan? (resolve refused budget p).text) = none := by
  induction budget generalizing w p with
  | zero =>
    rw [resolve, htext]
    cases hfind : (refused (chars w)).findSome? (binderSpan? (chars w)) with
    | none => rfl
    | some binder =>
      -- Without budget no brace is live, and a round would need one.
      have hround : live (wrap w binder) + 1 ≤ live w :=
        live_wrap (hrefused 0 (Nat.le_refl 0)) hfind
      omega
  | succ budget ih =>
    rw [resolve, htext]
    cases hfind : (refused (chars w)).findSome? (binderSpan? (chars w)) with
    | none => exact htext ▸ hfind
    | some binder =>
      have hround : live (wrap w binder) + 1 ≤ live w :=
        live_wrap (hrefused 0 (Nat.zero_le _)) hfind
      -- Each round uses up a live brace, so the budget lasts.
      refine ih (w := wrap w binder) (by omega) (text_parenthesize_eq_wrap htext hfind) ?_
      intro n hn
      exact rounds_succ hfind n ▸ hrefused (n + 1) (by omega)

/-- A text in which nothing is refused is left alone. -/
theorem ofReader_eq_ofText {text : List Char}
    (h : (refused text).findSome? (binderSpan? text) = none) :
    ofReader refused text = ofText text := by
  rw [ofReader]
  cases text.count '{' with
  | zero => rfl
  | succ budget =>
    have hnone : (refused (ofText text).text).findSome? (binderSpan? (ofText text).text) = none := h
    rw [resolve, hnone]

/-- **Preparing a text settles.** However a source is read, and whatever contents of its containers
a reader refuses in the texts of the run, other than single groups in parentheses: in the prepared
text no list that binds is refused, and preparing it again inserts nothing. A list with a comma
outside of brackets may always be refused (`IsRefusal.of_comma`). -/
theorem ofReader_settles (refused : List Char → List Span) (source : List Glyph)
    (hrefused : ∀ n ≤ (chars source).count '{', ∀ span ∈ refused (chars (rounds refused n source)),
      IsRefusal (rounds refused n source) span) :
    (∀ n, (resolve refused n (ofText (chars source))).text = chars (rounds refused n source))
      ∧ (refused (ofReader refused (chars source)).text).findSome?
          (binderSpan? (ofReader refused (chars source)).text) = none
      ∧ ofReader refused (ofReader refused (chars source)).text
        = ofText (ofReader refused (chars source)).text := by
  have htext : (ofText (chars source)).text = chars source := rfl
  have hsettled := resolve_settles (live_le_count source) htext hrefused
  exact ⟨fun n => text_resolve n htext, hsettled, ofReader_eq_ofText hsettled⟩

/-- A text without quotes and comments, as it is read. -/
def plainly (text : List Char) : List Glyph :=
  text.map fun c => ⟨c, !Text.isBlank c⟩

/-- A list that starts and ends with a brace, after a comment that reads like an attribute. -/
def commentedList : List Glyph :=
  plainly "<X as=\x7b".toList ++ "// as=\n".toList.map (⟨·, false⟩)
    ++ plainly "\x7ba\x7d, \x7bb\x7d\x7d />".toList

/-- A run from a text in which nothing is refused. -/
theorem isRefusal_rounds_of_nil (hlist : refused (chars w) = []) (n : Nat) (span : Span)
    (hspan : span ∈ refused (chars (rounds refused n w))) :
    IsRefusal (rounds refused n w) span := by
  have hnone : (refused (chars w)).findSome? (binderSpan? (chars w)) = none := by
    rw [hlist, List.findSome?_nil]
  rw [rounds_of_none hnone, hlist] at hspan
  cases hspan

/-- A run from a text in which one list is refused goes on from the text after a round. -/
theorem isRefusal_rounds_of_singleton (list binder : Span) (hlist : refused (chars w) = [list])
    (hrefusal : IsRefusal w list) (hbinder : binderSpan? (chars w) list = some binder)
    (hrest : ∀ n, ∀ span ∈ refused (chars (rounds refused n (wrap w binder))),
      IsRefusal (rounds refused n (wrap w binder)) span)
    (n : Nat) (span : Span) (hspan : span ∈ refused (chars (rounds refused n w))) :
    IsRefusal (rounds refused n w) span := by
  cases n with
  | zero =>
    rw [rounds, hlist, List.mem_singleton] at hspan
    exact hspan ▸ hrefusal
  | succ n =>
    have hfind : (refused (chars w)).findSome? (binderSpan? (chars w)) = some binder := by
      rw [hlist, List.findSome?_cons_of_isSome (by rw [hbinder]; rfl), hbinder]
    rw [rounds_succ hfind] at hspan ⊢
    exact hrest n span hspan

/-- The reader of modules refuses lists of `nestedSource`, the inner one first. -/
theorem isRefusal_nestedSource (n : Nat) (span : Span)
    (hspan : span ∈ refusedLists false
      (chars (rounds (refusedLists false) n (plainly nestedSource)))) :
    IsRefusal (rounds (refusedLists false) n (plainly nestedSource)) span := by
  have hinner : wrap (plainly nestedSource) ⟨18, 22⟩
      = plainly "<X as=\x7ba, <Y for=\x7b(b, c)\x7d />\x7d />".toList := by decide +kernel
  have houter : wrap (plainly "<X as=\x7ba, <Y for=\x7b(b, c)\x7d />\x7d />".toList) ⟨7, 28⟩
      = plainly "<X as=\x7b(a, <Y for=\x7b(b, c)\x7d />)\x7d />".toList := by decide +kernel
  refine isRefusal_rounds_of_singleton ⟨18, 22⟩ ⟨18, 22⟩ (by decide +kernel) ?_
    (by decide +kernel) ?_ n span hspan
  · let w := plainly nestedSource
    exact .of_comma (u := w.take 17) (a := (w.drop 18).take 1) (b := (w.drop 20).take 2)
      (q := w.drop 23) (by decide +kernel) (by decide +kernel) (by decide +kernel)
      (by decide +kernel)
  · rw [hinner]
    refine isRefusal_rounds_of_singleton ⟨7, 28⟩ ⟨7, 28⟩ (by decide +kernel) ?_
      (by decide +kernel) ?_
    · let w := plainly "<X as=\x7ba, <Y for=\x7b(b, c)\x7d />\x7d />".toList
      exact .of_comma (u := w.take 6) (a := (w.drop 7).take 1) (b := (w.drop 9).take 19)
        (q := w.drop 29) (by decide +kernel) (by decide +kernel) (by decide +kernel)
        (by decide +kernel)
    · rw [houter]
      exact isRefusal_rounds_of_nil (by decide +kernel)

/-- It refuses the list of `commentedList`, and reads no list after the round. -/
theorem isRefusal_commentedList (n : Nat) (span : Span)
    (hspan : span ∈ refusedLists false (chars (rounds (refusedLists false) n commentedList))) :
    IsRefusal (rounds (refusedLists false) n commentedList) span := by
  refine isRefusal_rounds_of_singleton ⟨14, 22⟩ ⟨15, 21⟩ (by decide +kernel) ?_
    (by decide +kernel) (isRefusal_rounds_of_nil (by decide +kernel)) n span hspan
  let w := commentedList
  exact .of_comma (u := w.take 6) (a := (w.drop 7).take 10) (b := (w.drop 18).take 4)
    (q := w.drop 23) (by decide +kernel) (by decide +kernel) (by decide +kernel)
    (by decide +kernel)

/-- Two lists that are put in parentheses one after the other, and one whose parentheses clash with
its braces, so that it is not read as a list any more. -/
theorem ofReader_settles_nested :
    ((∀ n ≤ (chars (plainly nestedSource)).count '{',
        ∀ span ∈ refusedLists false (chars (rounds (refusedLists false) n (plainly nestedSource))),
          IsRefusal (rounds (refusedLists false) n (plainly nestedSource)) span)
      ∧ (ofReader (refusedLists false) (chars (plainly nestedSource))).inserted = [7, 19, 24, 29]
      ∧ ofReader (refusedLists false)
          (ofReader (refusedLists false) (chars (plainly nestedSource))).text
        = ofText (ofReader (refusedLists false) (chars (plainly nestedSource))).text)
    ∧ (∀ n ≤ (chars commentedList).count '{',
        ∀ span ∈ refusedLists false (chars (rounds (refusedLists false) n commentedList)),
          IsRefusal (rounds (refusedLists false) n commentedList) span)
      ∧ (ofReader (refusedLists false) (chars commentedList)).text
        = "<X as=\x7b// as=\n\x7b(a\x7d, \x7bb)\x7d\x7d />".toList
      ∧ ofReader (refusedLists false) (ofReader (refusedLists false) (chars commentedList)).text
        = ofText (ofReader (refusedLists false) (chars commentedList)).text := by
  refine ⟨⟨fun n _ => isRefusal_nestedSource n, by decide +kernel, ?_⟩,
    fun n _ => isRefusal_commentedList n, by decide +kernel, ?_⟩
  · exact (ofReader_settles _ _ fun n _ => isRefusal_nestedSource n).2.2
  · exact (ofReader_settles _ _ fun n _ => isRefusal_commentedList n).2.2

end Prepared

end JsxDialect
