import JsxDialect.Proofs.Insertion
import JsxDialect.Proofs.Strip

/-!
# Which refused lists are put in parentheses

A list is put in parentheses if it is the value of an attribute that binds, and that is judged by
reading the text before the list backwards. Only white space is skipped on the way, although a
comment may stand between any two tokens; and a list that starts and ends with a brace is taken for
the container with its braces. `binderSpan?_eq_span_iff` says what follows from this for every way
in which such an attribute can be written.

The text that is read backwards is white space, a name, `=` and `{`, with white space in between
(`BinderHead`). A comment has a slash, which is in no such text, so that nothing before a comment is
ever read; what is read may then be the end of the comment itself.
-/

namespace JsxDialect

/-! ## Gaps between tokens -/

namespace Token

/-- A gap: the blanks and comments before the next token of a text, which starts with them. -/
def IsGap (gap rest : List Char) : Prop :=
  (trivia (gap ++ rest)).map (·.1) = some gap.length

instance (gap rest : List Char) : Decidable (IsGap gap rest) :=
  inferInstanceAs (Decidable (_ = _))

/-- A character that is neither white space nor in a name that binds, nor one of the signs after
it. -/
def isWall (c : Char) : Bool :=
  !Text.isBlank c && !"foras=\x7b".toList.contains c

theorem isWall_of_isSpace {c : Char} (hspace : isSpace c = true) (hblank : Text.isBlank c = false) :
    isWall c = true := by
  have hc : c = Char.ofNat 0xfeff ∨ c = Char.ofNat 0x200b := by
    simp only [isSpace, hblank, Bool.false_or, Bool.or_eq_true, beq_iff_eq] at hspace
    refine hspace.imp (fun h => ?_) (fun h => ?_) <;> rw [← h, Char.ofNat_toNat]
  rcases hc with rfl | rfl <;> decide

/-- Nothing stands before a token that is at the start of a text. -/
theorem isGap_nil {c : Char} (hspace : isSpace c = false) (hslash : c ≠ '/') (rest : List Char) :
    IsGap [] (c :: rest) := by
  cases rest <;> simp [IsGap, trivia, triviaFrom, hspace, hslash]

theorem exists_wall_of_triviaFrom (n : Nat) (newline : Bool) (gap rest : List Char)
    (h : (triviaFrom .code n newline (gap ++ rest)).map (·.1) = some (n + gap.length)) :
    (∀ c ∈ gap, Text.isBlank c = true) ∨ ∃ c ∈ gap, isWall c = true := by
  induction gap generalizing n newline with
  | nil => exact .inl fun c hc => absurd hc List.not_mem_nil
  | cons c gap ih =>
    cases hblank : Text.isBlank c with
    | true =>
      have hspace : isSpace c = true := by rw [isSpace, hblank]; rfl
      rcases htail : gap ++ rest with _ | ⟨d, ds⟩
      · obtain ⟨rfl, -⟩ := List.append_eq_nil_iff.mp htail
        exact .inl fun x hx => List.mem_singleton.mp hx ▸ hblank
      · rw [List.cons_append, htail, triviaFrom] at h
        simp only [hspace, if_true] at h
        rw [← htail, List.length_cons, Nat.add_comm gap.length, ← Nat.add_assoc] at h
        rcases ih _ _ h with hall | ⟨x, hx, hwall⟩
        · exact .inl fun x hx => (List.mem_cons.mp hx).elim (fun heq => heq ▸ hblank) (hall x)
        · exact .inr ⟨x, List.mem_cons_of_mem _ hx, hwall⟩
    | false =>
      refine .inr ⟨c, List.mem_cons_self, ?_⟩
      cases hspace : isSpace c with
      | true => exact isWall_of_isSpace hspace hblank
      | false =>
        -- The character is skipped, so it must be the slash that starts a comment.
        by_cases hslash : c = '/'
        · rw [hslash]
          decide
        · have hstop : triviaFrom .code n newline (c :: (gap ++ rest)) = some (n, newline) := by
            cases gap ++ rest <;> simp [triviaFrom, hspace, hslash]
          rw [List.cons_append, hstop] at h
          have hn : n = n + (c :: gap).length := Option.some.inj h
          rw [List.length_cons] at hn
          omega

/-- **A gap** is white space, or it has a character that no attribute that binds has before its
list. -/
theorem IsGap.blank_or_wall {gap rest : List Char} (h : IsGap gap rest) :
    (∀ c ∈ gap, Text.isBlank c = true) ∨ ∃ c ∈ gap, isWall c = true := by
  refine exists_wall_of_triviaFrom 0 false gap rest ?_
  rw [Nat.zero_add]
  exact h

end Token

namespace Prepared

open Text (byteLength)

/-! ## What is read backwards -/

/-- The names of attributes that bind. -/
def IsBinderName (name : List Char) : Prop :=
  name = "for".toList ∨ name = "as".toList

/-- What is looked for before a list: white space, the name of an attribute that binds, `=` and `{`,
with white space in between and after them. -/
inductive BinderHead : List Char → Prop
  | mk {c : Char} {name u v w : List Char} : Text.isBlank c = true → IsBinderName name →
      (∀ x ∈ u, Text.isBlank x = true) → (∀ x ∈ v, Text.isBlank x = true) →
      (∀ x ∈ w, Text.isBlank x = true) →
      BinderHead (c :: (name ++ (u ++ '=' :: (v ++ '{' :: w))))

theorem BinderHead.isWall_eq_false {s : List Char} (h : BinderHead s) {x : Char} (hx : x ∈ s) :
    Token.isWall x = false := by
  have hblank : ∀ y, Text.isBlank y = true → Token.isWall y = false := fun y hy => by
    rw [Token.isWall, hy]
    rfl
  obtain @⟨c, name, u, v, w, hc, hname, hu, hv, hw⟩ := h
  simp only [List.mem_cons, List.mem_append] at hx
  rcases hx with rfl | hx | hx | rfl | hx | rfl | hx
  · exact hblank _ hc
  · have hletters : name.all (!Token.isWall ·) = true := by
      rcases hname with rfl | rfl <;> decide
    simpa using List.all_eq_true.mp hletters x hx
  · exact hblank _ (hu x hx)
  · decide
  · exact hblank _ (hv x hx)
  · decide
  · exact hblank _ (hw x hx)

/-- Skipping white space from the end. -/
theorem dropWhile_reverse_append {w : List Char} (hw : ∀ x ∈ w, Text.isBlank x = true)
    {d : Char} (hd : Text.isBlank d = false) (rest : List Char) :
    (w.reverse ++ d :: rest).dropWhile Text.isBlank = d :: rest := by
  rw [List.dropWhile_append_of_pos fun x hx => hw x (List.mem_reverse.mp hx),
    List.dropWhile_cons_of_neg (by simp [hd])]

/-- **What the backward reading finds**: a text ends with the head of an attribute that binds. -/
theorem endsWithBinder_reverse_iff {text : List Char} :
    endsWithBinder text.reverse = true ↔ ∃ s, BinderHead s ∧ s <:+ text := by
  constructor
  · intro h
    -- Each step back is white space and one of the signs, or the name with white space before it.
    have hskip : ∀ {l w : List Char}, l.dropWhile Text.isBlank = w →
        ∃ blanks, l.reverse = w.reverse ++ blanks ∧ ∀ x ∈ blanks, Text.isBlank x = true := by
      intro l w hw
      obtain ⟨blanks, rfl, hblanks, -⟩ := dropWhile_eq_iff.mp hw
      exact ⟨blanks.reverse, List.reverse_append, by simpa using hblanks⟩
    unfold endsWithBinder at h
    split at h
    · rename_i r₁ h₁
      split at h
      · rename_i r₂ h₂
        obtain ⟨w, htext, hw⟩ := hskip h₁
        obtain ⟨v, hr₁, hv⟩ := hskip h₂
        split at h
        · rename_i c r₃ h₃
          obtain ⟨u, hr₂, hu⟩ := hskip h₃
          refine ⟨_, .mk h (.inl rfl) hu hv hw, r₃.reverse, ?_⟩
          rw [List.reverse_reverse] at htext
          simp [htext, hr₁, hr₂]
        · rename_i c r₃ h₃
          obtain ⟨u, hr₂, hu⟩ := hskip h₃
          refine ⟨_, .mk h (.inr rfl) hu hv hw, r₃.reverse, ?_⟩
          rw [List.reverse_reverse] at htext
          simp [htext, hr₁, hr₂]
        · cases h
      · cases h
    · cases h
  · rintro ⟨s, @⟨c, name, u, v, w, hc, hname, hu, hv, hw⟩, front, rfl⟩
    have hbrace := dropWhile_reverse_append hw (d := '{') (by decide)
    have hequals := dropWhile_reverse_append hv (d := '=') (by decide)
    have hr := dropWhile_reverse_append hu (d := 'r') (by decide)
    have hs := dropWhile_reverse_append hu (d := 's') (by decide)
    rcases hname with rfl | rfl <;>
      simp [endsWithBinder, hbrace, hequals, hr, hs, hc]

/-- A text before a wall is not read. -/
theorem suffix_of_wall {s front back : List Char} {x : Char} (hs : s <:+ front ++ x :: back)
    (hx : x ∉ s) : s <:+ back := by
  rcases List.suffix_or_suffix_of_suffix hs (List.suffix_append front (x :: back)) with h | h
  · rcases List.suffix_cons_iff.mp h with rfl | h
    · exact absurd List.mem_cons_self hx
    · exact h
  · exact absurd (h.subset List.mem_cons_self) hx

/-! ## Attributes that bind -/

/-- **An attribute that binds, as it is written**: after white space, with a list in its container.
Blanks and comments may stand before `=`, before the brace and before the list. -/
structure BindingAttr where
  before : List Char
  blank : Char
  name : List Char
  afterName : List Char
  afterEquals : List Char
  afterBrace : List Char
  list : List Char
  after : List Char
  isBlank_blank : Text.isBlank blank = true
  isBinderName_name : IsBinderName name
  isGap_afterName :
    Token.IsGap afterName ('=' :: (afterEquals ++ '{' :: (afterBrace ++ (list ++ after))))
  isGap_afterEquals : Token.IsGap afterEquals ('{' :: (afterBrace ++ (list ++ after)))
  isGap_afterBrace : Token.IsGap afterBrace (list ++ after)

namespace BindingAttr

variable (a : BindingAttr)

/-- What stands between the name and the list. -/
def between : List Char :=
  a.afterName ++ '=' :: (a.afterEquals ++ '{' :: a.afterBrace)

/-- The text before the list. -/
def head : List Char :=
  a.before ++ a.blank :: (a.name ++ a.between)

/-- The text that the attribute is in. -/
def text : List Char :=
  a.head ++ a.list ++ a.after

/-- The span of the list. -/
def span : Span :=
  ⟨byteLength a.head, byteLength (a.head ++ a.list)⟩

/-- Nothing but white space stands between the name and the list, the two signs apart. -/
structure IsPlain : Prop where
  afterName : ∀ c ∈ a.afterName, Text.isBlank c = true
  afterEquals : ∀ c ∈ a.afterEquals, Text.isBlank c = true
  afterBrace : ∀ c ∈ a.afterBrace, Text.isBlank c = true

variable {a}

/-- With white space alone, the attribute is what is looked for. -/
theorem IsPlain.binderHead (h : a.IsPlain) : BinderHead (a.blank :: (a.name ++ a.between)) :=
  .mk a.isBlank_blank a.isBinderName_name h.afterName h.afterEquals h.afterBrace

/-- Otherwise there is a wall between the name and the list. -/
theorem exists_wall (h : ¬a.IsPlain) : ∃ c ∈ a.between, Token.isWall c = true := by
  by_contra hnone
  have hblank : ∀ {gap rest}, Token.IsGap gap rest → gap ⊆ a.between →
      ∀ c ∈ gap, Text.isBlank c = true := by
    intro gap rest hgap hsub
    refine hgap.blank_or_wall.resolve_right ?_
    rintro ⟨c, hc, hwall⟩
    exact hnone ⟨c, hsub hc, hwall⟩
  refine h ⟨hblank a.isGap_afterName ?_, hblank a.isGap_afterEquals ?_,
    hblank a.isGap_afterBrace ?_⟩ <;> intro c hc <;> simp [between, hc]

/-- **What is found before the list**: the attribute itself if there is nothing but white space in
it, and otherwise only what a comment of it ends with. -/
theorem endsWithBinder_head_iff : endsWithBinder a.head.reverse = true
    ↔ a.IsPlain ∨ ∃ s, BinderHead s ∧ s <:+ a.between := by
  rw [endsWithBinder_reverse_iff]
  constructor
  · rintro ⟨s, hs, hsuffix⟩
    refine or_iff_not_imp_left.mpr fun hplain => ⟨s, hs, ?_⟩
    obtain ⟨x, hx, hwall⟩ := exists_wall hplain
    obtain ⟨front, back, hbetween⟩ := List.append_of_mem hx
    have hnot : x ∉ s := fun hmem => by simp [hs.isWall_eq_false hmem] at hwall
    have hhead : a.head = (a.before ++ a.blank :: (a.name ++ front)) ++ x :: back := by
      simp [head, hbetween]
    have hback := suffix_of_wall (hhead ▸ hsuffix) hnot
    rw [hbetween]
    exact hback.trans ((List.suffix_cons x back).trans (List.suffix_append front _))
  · rintro (hplain | ⟨s, hs, hsuffix⟩)
    · exact ⟨_, hplain.binderHead, List.suffix_append a.before _⟩
    · have hbetween : a.between <:+ a.head := ⟨a.before ++ a.blank :: a.name, by simp [head]⟩
      exact ⟨s, hs, hsuffix.trans hbetween⟩

/-- A list that is not in braces is taken as it is, and one that is in braces is not. -/
theorem binderSpan?_eq_span : binderSpan? a.text a.span = some a.span
    ↔ inBraces a.list = false ∧ endsWithBinder a.head.reverse = true := by
  have hcut : cut? a.text a.span = some (a.head, a.list) :=
    cut?_eq_some_iff.mpr ⟨⟨a.after, rfl⟩, rfl⟩
  rw [binderSpan?, hcut]
  dsimp only
  by_cases hbraces : inBraces a.list = true
  · -- The span that is given, if any, starts after the first brace of the list.
    rw [if_pos hbraces, Option.ite_none_right_eq_some]
    refine iff_of_false (fun h => ?_) fun h => Bool.false_ne_true (h.1.symm.trans hbraces)
    have hstart := congrArg Span.start (Option.some.inj h.2)
    exact Nat.succ_ne_self _ hstart
  · simp [hbraces]

end BindingAttr

/-- **Which lists are put in parentheses.** However an attribute that binds is written, its list is
given as the span to put parentheses around if and only if the list does not both start and end with
a brace, and nothing but white space stands in the attribute before it, or a comment there ends like
the head of such an attribute. -/
theorem binderSpan?_eq_span_iff (a : BindingAttr) : binderSpan? a.text a.span = some a.span
    ↔ inBraces a.list = false ∧ (a.IsPlain ∨ ∃ s, BinderHead s ∧ s <:+ a.between) := by
  rw [a.binderSpan?_eq_span, a.endsWithBinder_head_iff]

/-- `<X as={…} />;` with a gap before the list. -/
def writtenAs (gap list : String) (h : Token.IsGap gap.toList (list.toList ++ "\x7d />;".toList)) :
    BindingAttr where
  before := "<X".toList
  blank := ' '
  name := "as".toList
  afterName := []
  afterEquals := []
  afterBrace := gap.toList
  list := list.toList
  after := "\x7d />;".toList
  isBlank_blank := by decide
  isBinderName_name := .inr rfl
  isGap_afterName := Token.isGap_nil (by decide) (by decide) _
  isGap_afterEquals := Token.isGap_nil (by decide) (by decide) _
  isGap_afterBrace := h

/-- A list after white space is wrapped, and so is one after a comment that ends like the attribute
itself. -/
theorem binderSpan?_eq_span_iff_comment :
    let spaced := writtenAs " \n" "a, \x7bb\x7d" (by decide)
    let looksAlike := writtenAs "// for=\x7b\n" "a, b" (by decide)
    (refusedLists false spaced.text = [spaced.span]
        ∧ binderSpan? spaced.text spaced.span = some spaced.span)
      ∧ refusedLists false looksAlike.text = [looksAlike.span]
      ∧ binderSpan? looksAlike.text looksAlike.span = some looksAlike.span := by
  intro spaced looksAlike
  have hplain : spaced.IsPlain :=
    ⟨fun c hc => absurd hc List.not_mem_nil, fun c hc => absurd hc List.not_mem_nil,
      List.all_eq_true.mp (by decide : " \n".toList.all Text.isBlank = true)⟩
  have hhead : BinderHead (' ' :: ("for".toList ++ ([] ++ '=' :: ([] ++ '{' :: ['\n'])))) :=
    .mk (by decide) (.inl rfl) (fun c hc => absurd hc List.not_mem_nil)
      (fun c hc => absurd hc List.not_mem_nil)
      (List.all_eq_true.mp (by decide : ['\n'].all Text.isBlank = true))
  exact ⟨⟨by decide +kernel, (binderSpan?_eq_span_iff spaced).mpr ⟨by decide, .inl hplain⟩⟩,
    by decide +kernel,
    (binderSpan?_eq_span_iff looksAlike).mpr ⟨by decide, .inr ⟨_, hhead, "=\x7b//".toList, rfl⟩⟩⟩

/-- **Lists that are not wrapped**: one whose entries are in braces, and one after a comment. Both
are refused, and the attribute binds. -/
theorem binderSpan?_braces_comment :
    let braces := writtenAs "" "\x7ba\x7d, \x7bb\x7d" (by decide)
    let comment := writtenAs "/* c */ " "a, b" (by decide)
    (refusedLists false braces.text = [braces.span] ∧ binderSpan? braces.text braces.span = none)
      ∧ refusedLists false comment.text = [comment.span]
      ∧ binderSpan? comment.text comment.span = none := by
  decide +kernel

end Prepared

end JsxDialect
