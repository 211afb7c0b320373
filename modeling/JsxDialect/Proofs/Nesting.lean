import JsxDialect.Proofs.Frames

/-!
# Scopes as a stack

Closed scopes keep their records, so the records form a forest that grows, with a cursor in it. This
module says what the forest is from outside. A `History` is the list of operations so far, the
latest first; which scopes are open and what the record of each scope is can be read off it alone.
`Follows` relates a history and the scopes after it, every operation keeps it (`Follows.perform`),
and what can be asked of scopes is derived from it.

An operation on a scope that has not been opened has no effect.
-/

namespace JsxDialect

variable {α : Type}

/-- An operation on scopes. -/
inductive ScopeOp (α : Type) where
  | push (kind : ScopeKind) (names : List String)
  | pop
  | bind (scope : Nat) (name : String)
  | queue (scope : Nat) (item : α)
  | take (scope : Nat)

/-- What an operation answers. -/
inductive ScopeAnswer (α : Type) where
  | opened (scope : Nat)
  | closed (scope : Nat)
  | underflow
  | done
  | taken (items : List α)

namespace ScopeOp

/-- Performs an operation. Closing a scope when none is open is an underflow. -/
def perform : ScopeOp α → Scopes α → ScopeAnswer α × Scopes α
  | .push kind names, s => (.opened (s.push kind names).1, (s.push kind names).2)
  | .pop, s =>
    match s.pop? with
    | some (i, t) => (.closed i, t)
    | none => (.underflow, s)
  | .bind i name, s => (.done, s.bind i name)
  | .queue i item, s => (.done, s.queue i item)
  | .take i, s => (.taken (s.take i).1, (s.take i).2)

/-- Performs operations one after the other, and notes the answers. -/
def performAll : List (ScopeOp α) → Scopes α → List (ScopeAnswer α) × Scopes α
  | [], s => ([], s)
  | op :: ops, s =>
    let (answer, s) := op.perform s
    let (answers, s) := performAll ops s
    (answer :: answers, s)

end ScopeOp

/-! ## What a history says -/

/-- The operations so far, the latest first. -/
abbrev History (α : Type) := List (ScopeOp α)

namespace History

/-- How many scopes have been opened. They are numbered in this order. -/
def pushes : History α → Nat
  | [] => 0
  | .push .. :: h => pushes h + 1
  | _ :: h => pushes h

/-- The scopes that have been opened and not yet closed, the latest first. -/
def stack : History α → List Nat
  | [] => []
  | .push .. :: h => pushes h :: stack h
  | .pop :: h => (stack h).tail
  | _ :: h => stack h

/-- How many scopes have been closed. -/
def pops : History α → Nat
  | [] => 0
  | .pop :: h => if (stack h).isEmpty then pops h else pops h + 1
  | _ :: h => pops h

/-- The record of a scope: around it is the scope that was the innermost one when it was opened, it
binds the names it was opened with and those bound in it since, and the items on it are those queued
since they were last taken. Closing a scope changes nothing of this. -/
def record? : History α → Nat → Option (ScopeRecord α)
  | [], _ => none
  | .push kind names :: h, i =>
    if i = pushes h then some ⟨(stack h).head?, kind, names, []⟩ else record? h i
  | .pop :: h, i => record? h i
  | .bind j name :: h, i =>
    if i = j then (record? h i).map fun r => { r with names := r.names ++ [name] }
    else record? h i
  | .queue j item :: h, i =>
    if i = j then (record? h i).map fun r => { r with queued := r.queued ++ [item] }
    else record? h i
  | .take j :: h, i =>
    if i = j then (record? h i).map fun r => { r with queued := [] } else record? h i

/-- What the next operation is to answer. -/
def answer (h : History α) : ScopeOp α → ScopeAnswer α
  | .push .. => .opened h.pushes
  | .pop =>
    match h.stack with
    | [] => .underflow
    | i :: _ => .closed i
  | .bind .. | .queue .. => .done
  | .take i => .taken (((h.record? i).map (·.queued)).getD [])

/-- What the next operations are to answer. -/
def answers (h : History α) : List (ScopeOp α) → List (ScopeAnswer α)
  | [] => []
  | op :: ops => h.answer op :: answers (op :: h) ops

/-- Whether a scope binds a name. -/
def Binds (h : History α) (name : String) (i : Nat) : Prop :=
  ∃ r, h.record? i = some r ∧ name ∈ r.names

/-- The scope `j` is the scope `i` or one around it. -/
inductive Within (h : History α) : Nat → Nat → Prop
  | self (i : Nat) : Within h i i
  | out {i j p : Nat} {r : ScopeRecord α} :
    h.record? i = some r → r.parent = some p → Within h p j → Within h i j

/-- The scope `j` is the nearest one that binds a name, from the scope `i` outwards. -/
def IsNearest (h : History α) (name : String) (i j : Nat) : Prop :=
  h.Within i j ∧ h.Binds name j ∧ ∀ k, h.Within i k → h.Within k j → k ≠ j → ¬h.Binds name k

end History

namespace Scopes

/-! ## Operations -/

/-- The scopes `s` are those after the history `h`. -/
structure Follows (s : Scopes α) (h : History α) : Prop where
  ordered : s.Ordered
  size : s.records.size = h.pushes
  stack : s.ancestors s.current = h.stack
  record : ∀ i : Nat, s.records[i]? = h.record? i
  balance : h.pushes = h.pops + h.stack.length

variable {s : Scopes α} {h : History α}

theorem ancestors_none (s : Scopes α) : s.ancestors none = [] := by
  simp only [ancestors, chain]

theorem follows_empty : (empty : Scopes α).Follows [] :=
  ⟨ordered_empty, rfl, rfl, fun _ => rfl, rfl⟩

/-- The innermost open scope is the current one. -/
theorem Follows.head?_stack (hs : s.Follows h) : h.stack.head? = s.current := by
  rw [← hs.stack]
  cases hc : s.current with
  | none => rw [ancestors_none, List.head?_nil]
  | some i => rw [ancestors_some hs.ordered (hs.ordered.current_lt hc), List.head?_cons]

theorem Follows.push (hs : s.Follows h) (kind : ScopeKind) (names : List String) :
    (s.push kind names).2.Follows (.push kind names :: h) := by
  have hsize := hs.size
  have hbalance := hs.balance
  refine ⟨hs.ordered.push kind names, ?_, ?_, fun i => ?_, ?_⟩
  · simp only [Scopes.push, Array.size_push, History.pushes]
    omega
  · have hparent : (s.push kind names).2.parent? s.records.size = s.current := by
      simp [parent?, Scopes.push]
    calc (s.push kind names).2.ancestors (s.push kind names).2.current
        = s.records.size :: (s.push kind names).2.ancestors s.current := by
          rw [← hparent]
          exact ancestors_some (hs.ordered.push kind names) (by simp [Scopes.push])
      _ = h.pushes :: h.stack := by rw [ancestors_push hs.ordered, hs.stack, hs.size]
  · simp only [Scopes.push, Array.getElem?_push, hs.size, History.record?, hs.head?_stack]
    rw [hs.record]
  · simp only [History.pushes, History.pops, History.stack, List.length_cons]
    omega

/-- Closing the current scope. -/
theorem Follows.pop (hs : s.Follows h) {i : Nat} (hc : s.current = some i) :
    (⟨s.records, s.parent? i⟩ : Scopes α).Follows (.pop :: h) := by
  have hi := hs.ordered.current_lt hc
  have hstack : h.stack = i :: s.ancestors (s.parent? i) := by
    rw [← hs.stack, hc, ancestors_some hs.ordered hi]
  have hbalance := hs.balance
  refine ⟨⟨hs.ordered.parent_lt, fun {j} hj => ?_⟩, hs.size, ?_, hs.record, ?_⟩
  · have hji := hs.ordered.parent_lt hj
    simp only
    omega
  · rw [History.stack, hstack, List.tail_cons]
    exact ancestors_moved hs.ordered _ _
  · rw [hstack, List.length_cons] at hbalance
    simp only [History.pushes, History.pops, History.stack, hstack, List.isEmpty_cons,
      List.tail_cons, Bool.false_eq_true, if_false]
    omega

/-- With no scope open there is nothing to close. -/
theorem Follows.underflow (hs : s.Follows h) (hstack : h.stack = []) : s.Follows (.pop :: h) := by
  refine ⟨hs.ordered, hs.size, ?_, hs.record, ?_⟩
  · rw [hs.stack, History.stack, hstack, List.tail_nil]
  · simpa [History.pushes, History.pops, History.stack, hstack] using hs.balance

/-- An operation that changes one record, and not the scope around it. -/
theorem Follows.update (hs : s.Follows h) (op : ScopeOp α) (i : Nat)
    (g : ScopeRecord α → ScopeRecord α) (hg : ∀ r, (g r).parent = r.parent)
    (hrecord : ∀ j, History.record? (op :: h) j
      = if j = i then (h.record? j).map g else h.record? j)
    (hpushes : History.pushes (op :: h) = h.pushes) (hpops : History.pops (op :: h) = h.pops)
    (hstack : History.stack (op :: h) = h.stack) : (s.update i g).Follows (op :: h) := by
  refine ⟨hs.ordered.update hg i, ?_, ?_, fun j => ?_, ?_⟩
  · rw [hpushes, ← hs.size]
    exact Array.size_modify
  · rw [hstack, ← hs.stack]
    exact ancestors_update hg hs.ordered i _
  · simp only [hrecord, Scopes.update, Array.getElem?_modify, eq_comm (a := j), hs.record]
  · rw [hpushes, hpops, hstack]
    exact hs.balance

/-- **One operation** answers what the history says, and leads to the scopes after it. -/
theorem Follows.perform (hs : s.Follows h) (op : ScopeOp α) :
    (op.perform s).2.Follows (op :: h) ∧ (op.perform s).1 = h.answer op := by
  cases op with
  | push kind names => exact ⟨hs.push kind names, congrArg ScopeAnswer.opened hs.size⟩
  | pop =>
    have hhead := hs.head?_stack
    cases hc : s.current with
    | none =>
      have hstack : h.stack = [] := List.head?_eq_none_iff.mp (hhead.trans hc)
      simp only [ScopeOp.perform, pop?, hc, Option.map_none, History.answer, hstack, and_true]
      exact hs.underflow hstack
    | some i =>
      obtain ⟨rest, hstack⟩ := List.head?_eq_some_iff.mp (hhead.trans hc)
      simp only [ScopeOp.perform, pop?, hc, Option.map_some, History.answer, hstack, and_true]
      exact hs.pop hc
  | bind i name =>
    refine ⟨hs.update _ i (fun r => { r with names := r.names ++ [name] }) ?_ ?_ ?_ ?_ ?_, rfl⟩
    all_goals intros; rfl
  | queue i item =>
    refine ⟨hs.update _ i (fun r => { r with queued := r.queued ++ [item] }) ?_ ?_ ?_ ?_ ?_, rfl⟩
    all_goals intros; rfl
  | take i =>
    refine ⟨hs.update _ i (fun r => { r with queued := [] }) ?_ ?_ ?_ ?_ ?_, ?_⟩
    case refine_6 =>
      simp only [ScopeOp.perform, Scopes.take, Scopes.queued, History.answer, hs.record]
    all_goals intros; rfl

/-- **A run of operations** answers what the histories on the way say. -/
theorem Follows.performAll (hs : s.Follows h) (ops : List (ScopeOp α)) :
    (ScopeOp.performAll ops s).2.Follows (ops.reverse ++ h)
      ∧ (ScopeOp.performAll ops s).1 = h.answers ops := by
  induction ops generalizing s h with
  | nil => exact ⟨hs, rfl⟩
  | cons op ops ih =>
    obtain ⟨hnext, hanswer⟩ := hs.perform op
    obtain ⟨hlast, hanswers⟩ := ih hnext
    rw [List.reverse_cons, List.append_assoc]
    refine ⟨hlast, ?_⟩
    rw [History.answers, ← hanswer, ← hanswers]
    rfl

/-! ## Questions -/

theorem Follows.parent (hs : s.Follows h) (i : Nat) :
    s.parent? i = (h.record? i).bind (·.parent) := by
  rw [parent?, hs.record]

theorem Follows.binds_iff (hs : s.Follows h) (name : String) (i : Nat) :
    s.binds name i = true ↔ h.Binds name i := by
  simp only [binds, hs.record, History.Binds]
  cases h.record? i with
  | none => simp
  | some r => simp

/-- The chain of a scope goes down. -/
theorem pairwise_ancestors (hs : s.Ordered) (start : Option Nat) :
    (s.ancestors start).Pairwise (· > ·) := by
  unfold ancestors
  generalize s.records.size = n
  induction n generalizing start with
  | zero => cases start <;> simp [chain]
  | succ n ih =>
    cases start with
    | none => simp [chain]
    | some i =>
      simp only [chain, List.pairwise_cons]
      refine ⟨fun j hj => ?_, ih _⟩
      cases hp : s.parent? i with
      | none => simp [hp, chain] at hj
      | some p =>
        have hle := le_of_mem_chain hs (hp ▸ hj)
        have hlt := hs.parent_lt hp
        omega

/-- The chain of a scope holds the scope and those around it. -/
theorem Follows.mem_ancestors_iff (hs : s.Follows h) {i j : Nat} (hi : i < h.pushes) :
    j ∈ s.ancestors (some i) ↔ h.Within i j := by
  have hsize := hs.size
  constructor
  · -- On the number of the scope, since the scope around it has a smaller one.
    intro hj
    induction i using Nat.strongRecOn with
    | ind i ih =>
      rw [ancestors_some hs.ordered (by omega), List.mem_cons] at hj
      rcases hj with rfl | hj
      · exact .self j
      · cases hp : s.parent? i with
        | none => simp [hp, ancestors_none] at hj
        | some p =>
          have hlt := hs.ordered.parent_lt hp
          have hwithin := ih p hlt (by omega) (hp ▸ hj)
          rw [hs.parent] at hp
          obtain ⟨r, hr, hrp⟩ := Option.bind_eq_some_iff.mp hp
          exact .out hr hrp hwithin
  · intro hwithin
    induction hwithin with
    | self i =>
      rw [ancestors_some hs.ordered (by omega)]
      exact List.mem_cons_self
    | out hr hrp _ ih =>
      have hp := (hs.parent _).trans (Option.bind_eq_some_iff.mpr ⟨_, hr, hrp⟩)
      have hlt := hs.ordered.parent_lt hp
      rw [ancestors_some hs.ordered (by omega), hp]
      exact List.mem_cons_of_mem _ (ih (by omega))

/-- A chain ends with the chain of each of its scopes. -/
theorem ancestors_suffix (hs : s.Ordered) {i k : Nat} (hi : i < s.records.size)
    (hk : k ∈ s.ancestors (some i)) : s.ancestors (some k) <:+ s.ancestors (some i) := by
  induction i using Nat.strongRecOn with
  | ind i ih =>
    have hfirst := ancestors_some hs hi
    rw [hfirst, List.mem_cons] at hk
    rcases hk with rfl | hk
    · exact List.suffix_refl _
    · rw [hfirst]
      cases hp : s.parent? i with
      | none => simp [hp, ancestors_none] at hk
      | some p =>
        have hlt := hs.parent_lt hp
        exact (ih p hlt (by omega) (hp ▸ hk)).trans (List.suffix_cons _ _)

/-- A scope around another has a smaller number. -/
theorem Follows.le_of_within (hs : s.Follows h) {i j : Nat} (hwithin : h.Within i j) : j ≤ i := by
  induction hwithin with
  | self i => exact Nat.le_refl i
  | out hr hrp _ ih =>
    have hp := (hs.parent _).trans (Option.bind_eq_some_iff.mpr ⟨_, hr, hrp⟩)
    have hlt := hs.ordered.parent_lt hp
    omega

/-- **A name is found in the nearest scope that binds it.** -/
theorem Follows.resolve_eq_some_iff (hs : s.Follows h) {i : Nat} (hi : i < h.pushes) (name : String)
    (j : Nat) : s.resolve (some i) name = some j ↔ h.IsNearest name i j := by
  have hsize := hs.size
  have hdown := pairwise_ancestors hs.ordered (some i)
  rw [resolve, List.find?_eq_some_iff_append]
  simp only [hs.binds_iff, Bool.not_eq_true', ← Bool.not_eq_true]
  constructor
  · rintro ⟨hj, before, after, hsplit, hbefore⟩
    rw [hsplit] at hdown
    have hmem : j ∈ s.ancestors (some i) := hsplit ▸ List.mem_append_right _ List.mem_cons_self
    refine ⟨(hs.mem_ancestors_iff hi).mp hmem, hj, fun k hik hkj hne => ?_⟩
    -- A scope on the way to `j` has a greater number, so it stands before `j` in the chain.
    have hle := hs.le_of_within hkj
    have hk := (hs.mem_ancestors_iff hi).mpr hik
    rw [hsplit, List.mem_append, List.mem_cons] at hk
    rcases hk with hk | rfl | hk
    · exact hbefore k hk
    · exact absurd rfl hne
    · have hlt := (List.pairwise_cons.mp (List.pairwise_append.mp hdown).2.1).1 k hk
      omega
  · rintro ⟨hij, hj, hnear⟩
    have hmem := (hs.mem_ancestors_iff hi).mpr hij
    obtain ⟨before, after, hsplit⟩ := List.append_of_mem hmem
    refine ⟨hj, before, after, hsplit, fun k hk => ?_⟩
    have hik : k ∈ s.ancestors (some i) := hsplit ▸ List.mem_append_left _ hk
    have hki := le_of_mem_chain hs.ordered hik
    have hjk : j < k := by
      rw [hsplit] at hdown
      exact (List.pairwise_append.mp hdown).2.2 k hk j List.mem_cons_self
    have hkj : j ∈ s.ancestors (some k) := by
      obtain ⟨first, hfirst⟩ := ancestors_suffix hs.ordered (by omega) hik
      rw [← hfirst, List.mem_append] at hmem
      rw [← hfirst] at hdown
      refine hmem.resolve_left fun hj => ?_
      have hself : k ∈ s.ancestors (some k) := by
        rw [ancestors_some hs.ordered (by omega)]
        exact List.mem_cons_self
      have hlt := (List.pairwise_append.mp hdown).2.2 j hj k hself
      omega
    exact hnear k ((hs.mem_ancestors_iff hi).mp hik) ((hs.mem_ancestors_iff (by omega)).mp hkj)
      (by omega)

/-- A name is found if a scope around binds it. -/
theorem Follows.resolve_isSome_iff (hs : s.Follows h) {i : Nat} (hi : i < h.pushes)
    (name : String) :
    (s.resolve (some i) name).isSome = true ↔ ∃ j, h.Within i j ∧ h.Binds name j := by
  simp only [resolve, List.find?_isSome, hs.mem_ancestors_iff hi, hs.binds_iff]

/-- Among scopes with falling numbers, the search up to `owner` is the search among all of them that
ends before `owner` is passed. -/
theorem boundUpTo_iff (owner : Nat) (name : String) {chain : List Nat}
    (hdown : chain.Pairwise (· > ·)) :
    s.boundUpTo owner name chain = true
      ↔ ∃ j, chain.find? (s.binds name) = some j ∧ (owner ∈ chain → owner ≤ j) := by
  induction chain with
  | nil => simp [boundUpTo]
  | cons i chain ih =>
    obtain ⟨hi, hrest⟩ := List.pairwise_cons.mp hdown
    cases hb : s.binds name i with
    | true =>
      simp only [boundUpTo, hb, Bool.true_or, List.find?_cons_of_pos, true_iff]
      refine ⟨i, rfl, fun howner => ?_⟩
      rcases List.mem_cons.mp howner with rfl | howner
      · exact Nat.le_refl owner
      · exact Nat.le_of_lt (hi owner howner)
    | false =>
      have hskip : (i :: chain).find? (s.binds name) = chain.find? (s.binds name) :=
        List.find?_cons_of_neg (by simp [hb])
      simp only [boundUpTo, hb, Bool.false_or, Bool.and_eq_true, bne_iff_ne, ne_eq, hskip,
        ih hrest, List.mem_cons]
      constructor
      · rintro ⟨hne, j, hfind, hle⟩
        refine ⟨j, hfind, fun howner => ?_⟩
        rcases howner with rfl | howner
        · exact absurd rfl hne
        · exact hle howner
      · rintro ⟨j, hfind, hle⟩
        -- The search went on past `i`, so `i` is not the owner.
        refine ⟨fun heq => ?_, j, hfind, fun howner => hle (.inr howner)⟩
        have hlt := hi j (List.mem_of_find?_eq_some hfind)
        have howner := hle (.inl heq.symm)
        omega

/-! ## The stack -/

/-- The scopes `s` are the stack that the history `h` describes. -/
structure IsStack (s : Scopes α) (h : History α) : Prop where
  /-- The scope around a scope has a smaller number. -/
  parent_lt : ∀ {i p : Nat} {r : ScopeRecord α},
    s.records[i]? = some r → r.parent = some p → p < i
  /-- The scopes around the current one are those that are open, innermost first. -/
  ancestors : s.ancestors s.current = h.stack
  /-- Closing takes the latest of the open scopes, and without one it changes nothing. -/
  pop : ScopeOp.perform .pop s = match h.stack with
    | [] => (.underflow, s)
    | i :: rest => (.closed i, { s with current := rest.head? })
  /-- All scopes are closed exactly if as many have been closed as were opened. -/
  balanced : s.isBalanced = true ↔ h.pushes = h.pops
  /-- Records are as the history says, those of closed scopes included. -/
  record : ∀ i : Nat, s.records[i]? = h.record? i
  /-- A name is found, from any scope, in the nearest scope that binds it. -/
  resolve : ∀ i < h.pushes, ∀ name j, s.resolve (some i) name = some j ↔ h.IsNearest name i j
  /-- A name is found, from any scope, if a scope around it binds it. -/
  found : ∀ i < h.pushes, ∀ name,
    (s.resolve (some i) name).isSome = true ↔ ∃ j, h.Within i j ∧ h.Binds name j
  /-- A name is bound within an open scope exactly if it is found there or further in, and within
  another scope exactly if it is found at all. -/
  boundWithin : ∀ owner name, s.isBoundWithin owner name = true
    ↔ ∃ j, s.resolve s.current name = some j ∧ (owner ∈ h.stack → owner ≤ j)

theorem Follows.isStack (hs : s.Follows h) : s.IsStack h where
  parent_lt hr hp := by
    refine hs.ordered.parent_lt ?_
    rw [parent?, hr, Option.bind_some, hp]
  ancestors := hs.stack
  pop := by
    have hhead := hs.head?_stack
    cases hc : s.current with
    | none =>
      have hstack : h.stack = [] := List.head?_eq_none_iff.mp (hhead.trans hc)
      simp only [ScopeOp.perform, pop?, hc, Option.map_none, hstack]
    | some i =>
      obtain ⟨rest, hstack⟩ := List.head?_eq_some_iff.mp (hhead.trans hc)
      have hnext := (hs.pop hc).head?_stack
      rw [History.stack, hstack, List.tail_cons] at hnext
      simp only [ScopeOp.perform, pop?, hc, Option.map_some, hstack, hnext]
  balanced := by
    have hbalance := hs.balance
    rw [isBalanced, ← hs.head?_stack, Option.isNone_iff_eq_none, List.head?_eq_none_iff,
      ← List.length_eq_zero_iff]
    omega
  record := hs.record
  resolve _ hi name j := hs.resolve_eq_some_iff hi name j
  found _ hi name := hs.resolve_isSome_iff hi name
  -- Ancestors are numbered downwards, so "further in" is "at least".
  boundWithin owner name := by
    rw [isBoundWithin, boundUpTo_iff owner name (pairwise_ancestors hs.ordered _), hs.stack,
      Scopes.resolve, hs.stack]

/-- **Scopes are a stack.** Whatever operations are performed from no scopes on, in whatever order
and on open and closed scopes alike, they answer what their history says, and leave the stack that
it describes. -/
theorem performAll_isStack (ops : List (ScopeOp α)) :
    (ScopeOp.performAll ops empty).1 = History.answers [] ops
      ∧ (ScopeOp.performAll ops empty).2.IsStack ops.reverse := by
  obtain ⟨hfollows, hanswers⟩ := (follows_empty (α := α)).performAll ops
  rw [List.append_nil] at hfollows
  exact ⟨hanswers, hfollows.isStack⟩

/-- A closed scope takes names and items, and gives the items back once. -/
example :
    (ScopeOp.performAll [.push (.function true) ["x"], .push .block [], .pop, .bind 1 "y",
      .queue 1 "a", .take 1, .take 1, .pop, .pop] (empty : Scopes String)).1
      = [.opened 0, .opened 1, .closed 1, .done, .done, .taken ["a"], .taken [], .closed 0,
        .underflow] :=
  rfl

end Scopes

end JsxDialect
