import JsxDialect.Proofs.Strip

/-!
# Balanced brackets

A text together with the way it is read: which of its characters are code, and which are passed
over. Only brackets that are code count. A word is balanced if every bracket in it has its partner
in it (`Balanced`), and so groups in braces are nested in balanced words or apart from them
(`Balanced.nested`). What stands in a group can be replaced without moving the partners of other
brackets (`IsParenthesized.replace`). Where a brace closes while a parenthesis is open, no group
goes on (`exists_of_clash`).
-/

namespace JsxDialect

/-- A character of a text as it is read: as code, or not. White space, comments and what stands
between quotes are no code; the quotes are. -/
structure Glyph where
  char : Char
  isCode : Bool
deriving DecidableEq

namespace Glyph

/-- A character of code. -/
def code (c : Char) : Glyph :=
  ⟨c, true⟩

/-- The characters of a text. -/
def chars (w : List Glyph) : List Char :=
  w.map (·.char)

/-- Whether a character is passed over, as it is no code. -/
def isSkipped (g : Glyph) : Bool :=
  !g.isCode

/-- A character that is not passed over is code. -/
theorem eq_code {g : Glyph} (h : g.isSkipped = false) : g = code g.char := by
  rw [isSkipped, Bool.not_eq_false'] at h
  rw [code, ← h]

@[simp] theorem chars_append (u v : List Glyph) : chars (u ++ v) = chars u ++ chars v :=
  List.map_append

@[simp] theorem chars_cons (g : Glyph) (w : List Glyph) : chars (g :: w) = g.char :: chars w := rfl

/-! ## Reading brackets -/

/-- The brackets that are due to be closed after a character, if it closes no other one. -/
def step (g : Glyph) (due : List Char) : Option (List Char) :=
  if g = code '(' then some (')' :: due)
  else if g = code '{' then some ('}' :: due)
  else if g = code ')' ∨ g = code '}' then
    match due with
    | [] => none
    | c :: due => if c = g.char then some due else none
  else some due

/-- The brackets that are due to be closed after a text. -/
def run : List Glyph → List Char → Option (List Char)
  | [], due => some due
  | g :: w, due => (g.step due).bind (run w)

/-- Whether every bracket of a text has its partner in it. -/
def Balanced (w : List Glyph) : Prop :=
  run w [] = some []

instance (w : List Glyph) : Decidable (Balanced w) :=
  inferInstanceAs (Decidable (_ = _))

variable {g : Glyph} {u v w c d q r : List Glyph} {due due' : List Char}

theorem run_append (u v : List Glyph) (due : List Char) :
    run (u ++ v) due = (run u due).bind (run v) := by
  induction u generalizing due with
  | nil => rfl
  | cons g u ih =>
    rw [List.cons_append, run, run, Option.bind_assoc]
    exact congrArg _ (funext ih)

/-- What is due further on does not matter to a step. -/
theorem step_frame (h : g.step due = some due') (rest : List Char) :
    g.step (due ++ rest) = some (due' ++ rest) := by
  simp only [step] at h ⊢
  split_ifs at h ⊢ with hparen hbrace hclose
  · rw [← Option.some.inj h, List.cons_append]
  · rw [← Option.some.inj h, List.cons_append]
  · -- A closing bracket takes off what is due first.
    cases due with
    | nil => cases h
    | cons c due =>
      simp only [Option.ite_none_right_eq_some, Option.some.injEq] at h
      obtain ⟨hc, rfl⟩ := h
      simp [hc]
  · rw [← Option.some.inj h]

theorem run_frame (h : run w due = some due') (rest : List Char) :
    run w (due ++ rest) = some (due' ++ rest) := by
  induction w generalizing due with
  | nil =>
    obtain rfl := Option.some.inj h
    rfl
  | cons g w ih =>
    obtain ⟨mid, hstep, hrun⟩ := Option.bind_eq_some_iff.mp h
    rw [run, step_frame hstep rest, Option.bind_some, ih hrun]

/-- A balanced text leaves due what was due. -/
theorem Balanced.run_eq (h : Balanced w) (due : List Char) : run w due = some due := by
  have hframe := run_frame h due
  rwa [List.nil_append] at hframe

/-- The first part of a balanced text can be read. -/
theorem Balanced.exists_run (h : Balanced (u ++ v)) :
    ∃ due, run u [] = some due ∧ run v due = some [] := by
  rw [Balanced, run_append] at h
  exact Option.bind_eq_some_iff.mp h

theorem Balanced.append (hu : Balanced u) (hv : Balanced v) : Balanced (u ++ v) := by
  rw [Balanced, run_append, hu.run_eq]
  exact hv

/-- A balanced part can be replaced by another one. -/
theorem Balanced.replace (h : Balanced (u ++ (c ++ v))) (hc : Balanced c) (hd : Balanced d) :
    Balanced (u ++ (d ++ v)) := by
  obtain ⟨due, hu, hrest⟩ := h.exists_run
  rw [run_append, hc.run_eq] at hrest
  rw [Balanced, run_append, hu, Option.bind_some, run_append, hd.run_eq]
  exact hrest

/-- What a step takes off became due later than a bracket, or it is the bracket. -/
theorem step_append_cons {pre rest : List Char} {x : Char}
    (h : g.step (pre ++ x :: rest) = some due) :
    (∃ mid, g.step pre = some mid ∧ due = mid ++ x :: rest)
      ∨ pre = [] ∧ g = code x ∧ due = rest := by
  simp only [step] at h ⊢
  split_ifs at h ⊢ with hparen hbrace hclose
  · exact .inl ⟨_, rfl, (Option.some.inj h).symm⟩
  · exact .inl ⟨_, rfl, (Option.some.inj h).symm⟩
  · cases pre with
    | nil =>
      simp only [List.nil_append, Option.ite_none_right_eq_some, Option.some.injEq] at h
      obtain ⟨rfl, rfl⟩ := h
      refine .inr ⟨rfl, ?_, rfl⟩
      rcases hclose with rfl | rfl <;> rfl
    | cons y pre =>
      simp only [List.cons_append, Option.ite_none_right_eq_some, Option.some.injEq] at h
      obtain ⟨hy, rfl⟩ := h
      exact .inl ⟨pre, by simp [hy], rfl⟩
  · exact .inl ⟨_, rfl, (Option.some.inj h).symm⟩

/-- **A bracket that is due** stays so over a text, or the text has its partner. -/
theorem run_append_cons {pre rest : List Char} {x : Char}
    (h : run w (pre ++ x :: rest) = some due) :
    (∃ mid, run w pre = some mid ∧ due = mid ++ x :: rest)
      ∨ ∃ u v, w = u ++ code x :: v ∧ run u pre = some [] ∧ run v rest = some due := by
  induction w generalizing pre with
  | nil => exact .inl ⟨pre, rfl, (Option.some.inj h).symm⟩
  | cons g w ih =>
    obtain ⟨mid, hstep, hrun⟩ := Option.bind_eq_some_iff.mp h
    rcases step_append_cons hstep with ⟨pre', hpre, rfl⟩ | ⟨rfl, rfl, rfl⟩
    · rcases ih hrun with ⟨last, hlast, rfl⟩ | ⟨u, v, rfl, hu, hv⟩
      · exact .inl ⟨last, by rw [run, hpre, Option.bind_some, hlast], rfl⟩
      · exact .inr ⟨g :: u, v, rfl, by rw [run, hpre, Option.bind_some, hu], hv⟩
    · exact .inr ⟨[], w, rfl, rfl, hrun⟩

/-- What is passed over leaves due what was due. -/
theorem run_skipped (h : ∀ g ∈ w, g.isSkipped = true) (due : List Char) : run w due = some due := by
  induction w with
  | nil => rfl
  | cons g w ih =>
    have hcode : ∀ x, g ≠ code x := by
      rintro x rfl
      cases h _ List.mem_cons_self
    have hstep : g.step due = some due := by
      simp [step, hcode]
    rw [run, hstep, Option.bind_some, ih fun g hg => h g (List.mem_cons_of_mem _ hg)]

/-- What is skipped has no brackets. -/
theorem Balanced.of_skipped {before after : List Glyph} (h : Balanced (before ++ (w ++ after)))
    (hbefore : ∀ g ∈ before, g.isSkipped = true) (hafter : ∀ g ∈ after, g.isSkipped = true) :
    Balanced w := by
  rw [Balanced, run_append, run_skipped hbefore, Option.bind_some, run_append] at h
  obtain ⟨due, hrun, hdue⟩ := Option.bind_eq_some_iff.mp h
  rw [run_skipped hafter] at hdue
  rw [Balanced, hrun, hdue]

/-! ## Groups -/

/-- A text in parentheses. -/
def paren (w : List Glyph) : List Glyph :=
  code '(' :: (w ++ [code ')'])

/-- A text in braces. -/
def braced (w : List Glyph) : List Glyph :=
  code '{' :: (w ++ [code '}'])

theorem Balanced.paren (h : Balanced w) : Balanced (paren w) := by
  change run (w ++ [code ')']) [')'] = some []
  rw [run_append, h.run_eq]
  rfl

theorem Balanced.braced (h : Balanced w) : Balanced (braced w) := by
  change run (w ++ [code '}']) ['}'] = some []
  rw [run_append, h.run_eq]
  rfl

/-- Only a brace that is due is closed by one. -/
theorem run_brace_eq_nil (h : run [code '}'] due = some []) : due = ['}'] := by
  obtain ⟨mid, hstep, hmid⟩ := Option.bind_eq_some_iff.mp h
  obtain rfl := Option.some.inj hmid
  cases due with
  | nil => cases hstep
  | cons c due =>
    change (if c = '}' then some due else none) = some [] at hstep
    rw [Option.ite_none_right_eq_some] at hstep
    rw [hstep.1, Option.some.inj hstep.2]

/-- **Two braces around a balanced text** are partners, or each has its partner between them. -/
theorem Balanced.braced_cases (h : Balanced (Glyph.braced w)) :
    Balanced w ∨ ∃ u v, w = u ++ code '}' :: v ∧ Balanced u ∧ Balanced (v ++ [code '}']) := by
  change run (w ++ [code '}']) ['}'] = some [] at h
  rw [run_append] at h
  obtain ⟨due, hrun, hlast⟩ := Option.bind_eq_some_iff.mp h
  obtain rfl := run_brace_eq_nil hlast
  have hdue : run w ([] ++ '}' :: []) = some ['}'] := hrun
  rcases run_append_cons hdue with ⟨mid, hmid, heq⟩ | ⟨u, v, rfl, hu, hv⟩
  · obtain rfl : mid = [] := by simpa using heq
    exact .inl hmid
  · refine .inr ⟨u, v, rfl, hu, ?_⟩
    rw [Balanced, run_append, hv]
    rfl

/-- **A group that starts in a balanced text ends in it**: its brace is due until then. -/
theorem Balanced.exists_of_braced (h : Balanced (u ++ v)) (hv : v ≠ []) (hc : Balanced c)
    (heq : v ++ r = Glyph.braced c ++ q) : ∃ q', v = Glyph.braced c ++ q' ∧ q = q' ++ r := by
  rcases List.append_eq_append_iff.mp heq with ⟨rest, hgroup, hr⟩ | hends
  · rcases List.eq_nil_or_concat rest with rfl | ⟨rest, last, rfl⟩
    · exact ⟨[], by simpa using hgroup.symm, hr.symm⟩
    · -- The group would end after the text does, and its brace would still be due there.
      exfalso
      obtain ⟨g, v, rfl⟩ := List.exists_cons_of_ne_nil hv
      rw [Glyph.braced, List.cons_append, List.cons.injEq, List.concat_eq_append,
        ← List.append_assoc] at hgroup
      obtain ⟨rfl, hinside⟩ := hgroup
      obtain ⟨rfl, -⟩ := List.append_inj' hinside rfl
      obtain ⟨due, -, hrun⟩ := h.exists_run
      obtain ⟨due', hv', -⟩ := hc.exists_run
      have hopen : run (code '{' :: v) due = run v ('}' :: due) := rfl
      have hframe := run_frame hv' ('}' :: due)
      rw [List.nil_append, ← hopen, hrun] at hframe
      simp at hframe
  · exact hends

/-- **No group goes on where brackets clash**: one that starts before a brace in which a parenthesis
is open at the next closing brace ends before that brace. -/
theorem exists_of_clash (hw : run w [] = some (')' :: due)) (hc : Balanced c)
    (heq : v ++ code '{' :: (w ++ code '}' :: r) = Glyph.braced c ++ q) :
    ∃ q', v = Glyph.braced c ++ q' := by
  rcases List.append_eq_append_iff.mp heq with ⟨rest, hgroup, hrest⟩ | ⟨rest, hv, -⟩
  · cases rest with
    | nil => exact ⟨[], by simpa using hgroup.symm⟩
    | cons g rest =>
      exfalso
      obtain ⟨rfl, hinside⟩ := List.cons.inj hrest
      have hbalanced : Balanced (v ++ code '{' :: rest) := hgroup ▸ hc.braced
      obtain ⟨outer, -, hrun⟩ := hbalanced.exists_run
      change run rest ('}' :: outer) = some [] at hrun
      rcases List.append_eq_append_iff.mp hinside with ⟨part, rfl, hpart⟩ | ⟨part, rfl, -⟩
      · -- The group would go beyond the open parenthesis.
        rw [run_append, ← List.nil_append ('}' :: outer), run_frame hw, Option.bind_some] at hrun
        cases part with
        | nil => cases hrun
        | cons g part =>
          obtain ⟨rfl, -⟩ := List.cons.inj hpart
          cases hrun
      · -- It would end while its own brace is due.
        rw [run_append] at hw
        obtain ⟨mid, hmid, -⟩ := Option.bind_eq_some_iff.mp hw
        have hframe := run_frame hmid ('}' :: outer)
        rw [List.nil_append, hrun] at hframe
        simp at hframe
  · exact ⟨rest, hv⟩

/-- A group that starts where only a brace is due does not go on over a closing parenthesis. -/
theorem exists_of_paren (h : Balanced (u ++ v ++ [code '}'])) (hc : Balanced c)
    (heq : v ++ code ')' :: r = Glyph.braced c ++ q) : ∃ q', v = Glyph.braced c ++ q' := by
  rcases List.append_eq_append_iff.mp heq with ⟨rest, hgroup, hrest⟩ | ⟨rest, hv, -⟩
  · cases rest with
    | nil => exact ⟨[], by simpa using hgroup.symm⟩
    | cons g rest =>
      exfalso
      obtain ⟨rfl, -⟩ := List.cons.inj hrest
      have hbalanced : Balanced (v ++ code ')' :: rest) := hgroup ▸ hc.braced
      obtain ⟨due, hv, hclose⟩ := hbalanced.exists_run
      obtain ⟨outer, hrun, hlast⟩ := h.exists_run
      obtain rfl := run_brace_eq_nil hlast
      rw [run_append] at hrun
      obtain ⟨mid, -, hmid⟩ := Option.bind_eq_some_iff.mp hrun
      have hframe := run_frame hv mid
      rw [List.nil_append, hmid] at hframe
      cases due with
      | nil => cases hclose
      | cons x due =>
        obtain ⟨rfl, -⟩ := List.cons.inj (Option.some.inj hframe)
        cases hclose
  · exact ⟨rest, hv⟩

/-- Two groups that start at one place are the same. -/
theorem braced_inj (hc : Balanced c) (hd : Balanced d)
    (heq : braced c ++ q = braced d ++ r) : c = d ∧ q = r := by
  have hleft : Balanced ([] ++ braced c) := hc.braced
  have hright : Balanced ([] ++ braced d) := hd.braced
  obtain ⟨rest, hrest, rfl⟩ := hleft.exists_of_braced (List.cons_ne_nil _ _) hd heq
  have hback : braced d ++ rest = braced c ++ [] := by rw [← hrest, List.append_nil]
  obtain ⟨rest', -, hnil⟩ := hright.exists_of_braced (List.cons_ne_nil _ _) hc hback
  obtain ⟨-, rfl⟩ := List.append_eq_nil_iff.mp hnil.symm
  rw [List.append_nil, braced, braced, List.cons.injEq, List.append_cancel_right_eq] at hrest
  exact ⟨hrest.2, rfl⟩

/-- **Groups are nested or apart**: one that starts before the end of a balanced text is in it. -/
theorem Balanced.nested (h : Balanced w) (hc : Balanced c)
    (heq : u ++ (Glyph.braced c ++ q) = w ++ r) :
    (∃ v, w = u ++ (Glyph.braced c ++ v) ∧ q = v ++ r)
      ∨ ∃ v, u = w ++ v ∧ r = v ++ (Glyph.braced c ++ q) := by
  rcases List.append_eq_append_iff.mp heq with ⟨v, rfl, hv⟩ | ⟨v, hu, hr⟩
  · by_cases hnil : v = []
    · subst hnil
      exact .inr ⟨[], by simp, by simpa using hv.symm⟩
    · obtain ⟨v', rfl, hq⟩ := h.exists_of_braced hnil hc hv.symm
      exact .inl ⟨v', rfl, hq⟩
  · exact .inr ⟨v, hu, hr⟩

/-- **A comma outside of brackets** is not in a group that is the whole text, apart from what is
skipped: before the comma, the bracket of the group would still be due. -/
theorem not_balanced_of_group {o x : Char} {before after : List Glyph} (ho : o ≠ ',') (hx : x ≠ ',')
    (hopen : step (code o) [] = some [x]) (hd : Balanced d)
    (hbefore : ∀ g ∈ before, g.isSkipped = true) (hafter : ∀ g ∈ after, g.isSkipped = true)
    (heq : u ++ code ',' :: v = before ++ (code o :: (d ++ [code x]) ++ after)) :
    ¬ Balanced u := by
  have hcode : ∀ c, code c = code ',' → c = ',' := fun c h => congrArg Glyph.char h
  intro hu
  -- The comma comes after the first bracket …
  obtain ⟨first, rfl, hrest⟩ : ∃ first, u = before ++ code o :: first
      ∧ first ++ code ',' :: v = d ++ code x :: after := by
    rcases List.append_eq_append_iff.mp heq with ⟨part, rfl, hpart⟩ | ⟨part, rfl, hpart⟩
    · cases part with
      | nil => exact absurd (hcode o (List.cons.inj hpart).1.symm) ho
      | cons g part =>
        obtain ⟨rfl, -⟩ := List.cons.inj hpart
        cases hbefore _ (List.mem_append_right _ List.mem_cons_self)
    · cases part with
      | nil => exact absurd (hcode o (List.cons.inj hpart).1) ho
      | cons g first =>
        obtain ⟨rfl, hinside⟩ := List.cons.inj hpart
        exact ⟨first, rfl, by simpa using hinside.symm⟩
  -- … and before the second one.
  obtain ⟨last, rfl⟩ : ∃ last, d = first ++ last := by
    rcases List.append_eq_append_iff.mp hrest with ⟨part, hpart, -⟩ | ⟨part, rfl, hpart⟩
    · exact ⟨part, hpart⟩
    · cases part with
      | nil => exact absurd (hcode x (List.cons.inj hpart).1) hx
      | cons g part =>
        obtain ⟨-, rfl⟩ := List.cons.inj hpart
        cases hafter _ (List.mem_append_right _ List.mem_cons_self)
  obtain ⟨due, hfirst, -⟩ := hd.exists_run
  have hdue : run (before ++ code o :: first) [] = some (due ++ [x]) := by
    rw [run_append, run_skipped hbefore, Option.bind_some, run, hopen, Option.bind_some]
    exact run_frame hfirst [x]
  rw [Balanced, hdue] at hu
  simp at hu

/-- Whether a text is a single group in parentheses, apart from what is skipped. -/
def IsParenthesized (w : List Glyph) : Prop :=
  ∃ d, Balanced d ∧ strip isSkipped w = paren d

theorem isParenthesized_iff : IsParenthesized w ↔ ∃ before d after, Balanced d
    ∧ w = before ++ (paren d ++ after) ∧ (∀ g ∈ before, g.isSkipped = true)
    ∧ ∀ g ∈ after, g.isSkipped = true := by
  have hends : ∀ d, ∀ g ∈ ends (paren d), g.isSkipped = false := by
    intro d g hg
    rw [mem_ends_iff, paren, List.head?_cons, ← List.cons_append, List.getLast?_concat] at hg
    rcases hg with hg | hg <;> rw [← Option.some.inj hg] <;> rfl
  simp only [IsParenthesized, strip_eq_iff]
  constructor
  · rintro ⟨d, hd, before, after, hw, hbefore, hafter, -⟩
    exact ⟨before, d, after, hd, hw, hbefore, hafter⟩
  · rintro ⟨before, d, after, hd, hw, hbefore, hafter⟩
    exact ⟨d, hd, before, after, hw, hbefore, hafter, hends d⟩

theorem IsParenthesized.balanced (h : IsParenthesized w) : Balanced w := by
  obtain ⟨before, d, after, hd, rfl, hbefore, hafter⟩ := isParenthesized_iff.mp h
  have hb : Balanced before := run_skipped hbefore []
  have ha : Balanced after := run_skipped hafter []
  exact hb.append (hd.paren.append ha)

/-- **A group within** a parenthesized text can be replaced by another one. -/
theorem IsParenthesized.replace (h : IsParenthesized (u ++ (braced c ++ v))) (hc : Balanced c)
    (hd : Balanced d) : IsParenthesized (u ++ (braced d ++ v)) := by
  obtain ⟨before, inside, after, hinside, heq, hbefore, hafter⟩ := isParenthesized_iff.mp h
  -- The group starts after the first parenthesis …
  obtain ⟨first, rfl, hrest⟩ : ∃ first, u = before ++ code '(' :: first
      ∧ first ++ (braced c ++ v) = inside ++ code ')' :: after := by
    rcases List.append_eq_append_iff.mp heq with ⟨part, rfl, hpart⟩ | ⟨part, rfl, hpart⟩
    · cases part with
      | nil => cases hpart
      | cons g part =>
        obtain ⟨rfl, -⟩ := List.cons.inj hpart
        cases hbefore _ (List.mem_append_right _ List.mem_cons_self)
    · cases part with
      | nil => cases hpart
      | cons g first =>
        obtain ⟨rfl, hinside⟩ := List.cons.inj hpart
        exact ⟨first, rfl, by simpa using hinside.symm⟩
  -- … and ends before the second one.
  rcases hinside.nested hc hrest with ⟨last, rfl, rfl⟩ | ⟨part, rfl, hpart⟩
  · refine isParenthesized_iff.mpr ⟨before, first ++ (braced d ++ last), after,
      hinside.replace hc.braced hd.braced, ?_, hbefore, hafter⟩
    simp [paren]
  · cases part with
    | nil => cases hpart
    | cons g part =>
      obtain ⟨-, rfl⟩ := List.cons.inj hpart
      cases hafter _ (List.mem_append_right _ List.mem_cons_self)

end Glyph

end JsxDialect
