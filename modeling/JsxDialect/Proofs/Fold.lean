import JsxDialect.Proofs.Lists
import JsxDialect.Style.Merge
import JsxDialect.Table
import Mathlib.Data.List.Nodup

/-!
# Folding styles

Folding neighbouring sources of styles into one changes neither what runs nor which values win. What
runs, in order, are the expressions and the values with effects; which values win is said for every
run of properties between two expressions, by its keys in the order they first come and the last
value for each of them. That both are kept is shown for two neighbours (`filter_putAll`,
`sameRun_putAll`) and lifted to whole lists, since each of the two is read off a list piece by
piece.
-/

namespace JsxDialect

namespace Table

variable {α β : Type} {key : String} {value : α} {run next : List (String × α)}

/-- Tables keep the place of a key that is there. -/
theorem put_of_notMem (h : key ∉ run.map (·.1)) : put key value run = run ++ [(key, value)] := by
  induction run with
  | nil => rfl
  | cons p run ih =>
    simp only [List.map_cons, List.mem_cons, not_or] at h
    have hne : (p.1 == key) = false := beq_false_of_ne fun heq => h.1 heq.symm
    simp only [put, hne, Bool.false_eq_true, if_false, ih h.2, List.cons_append]

theorem map_fst_put_of_mem (h : key ∈ run.map (·.1)) :
    (put key value run).map (·.1) = run.map (·.1) := by
  induction run with
  | nil => simp at h
  | cons p run ih =>
    by_cases hp : p.1 = key
    · simp [put, hp]
    · have hrest : key ∈ run.map (·.1) := by
        simpa [Ne.symm hp] using h
      simp [put, hp, ih hrest]

/-- Keys stay different. -/
theorem nodup_put (h : (run.map (·.1)).Nodup) : ((put key value run).map (·.1)).Nodup := by
  by_cases hk : key ∈ run.map (·.1)
  · rw [map_fst_put_of_mem hk]
    exact h
  · rw [put_of_notMem hk, List.map_append, List.nodup_append]
    refine ⟨h, List.nodup_singleton _, fun a ha b hb hab => hk ?_⟩
    obtain rfl := List.mem_singleton.mp hb
    exact hab ▸ ha

/-- So they do after several entries. -/
theorem nodup_putAll (h : (run.map (·.1)).Nodup) : ((putAll run next).map (·.1)).Nodup := by
  induction next generalizing run with
  | nil => exact h
  | cons p next ih => exact ih (nodup_put h)

/-- What is in a table was in it before, or was put in. -/
theorem mem_of_mem_put {p : String × α} (h : p ∈ put key value run) :
    p ∈ run ∨ p = (key, value) := by
  induction run with
  | nil => exact .inr (by simpa [put] using h)
  | cons q run ih =>
    simp only [put] at h
    split at h
    · rename_i hq
      rcases List.mem_cons.mp h with rfl | h
      · exact .inr (by rw [beq_iff_eq.mp hq])
      · exact .inl (List.mem_cons_of_mem _ h)
    · rcases List.mem_cons.mp h with rfl | h
      · exact .inl List.mem_cons_self
      · exact (ih h).imp (List.mem_cons_of_mem _) id

/-- Every entry was there or is new. -/
theorem mem_of_mem_putAll {p : String × α} (h : p ∈ putAll run next) : p ∈ run ++ next := by
  induction next generalizing run with
  | nil => simpa [putAll] using h
  | cons q next ih =>
    rcases List.mem_append.mp (ih h) with h | h
    · rcases mem_of_mem_put h with h | rfl
      · exact List.mem_append_left _ h
      · exact List.mem_append_right _ List.mem_cons_self
    · exact List.mem_append_right _ (List.mem_cons_of_mem _ h)

theorem forall_mem_putAll {P : String × α → Prop} (hrun : ∀ p ∈ run, P p)
    (hnext : ∀ p ∈ next, P p) : ∀ p ∈ putAll run next, P p :=
  fun p hp => List.forall_mem_append.mpr ⟨hrun, hnext⟩ p (mem_of_mem_putAll hp)

theorem mem_put_self : (key, value) ∈ put key value run := by
  induction run with
  | nil => simp [put]
  | cons q run ih =>
    simp only [put]
    split
    · rename_i hq
      rw [beq_iff_eq.mp hq]
      exact List.mem_cons_self
    · exact List.mem_cons_of_mem _ ih

theorem mem_put_of_ne {p : String × α} (hp : p ∈ run) (hne : p.1 ≠ key) :
    p ∈ put key value run := by
  induction run with
  | nil => simp at hp
  | cons q run ih =>
    simp only [put]
    split
    · rename_i hq
      rcases List.mem_cons.mp hp with rfl | hp
      · exact absurd (beq_iff_eq.mp hq) hne
      · exact List.mem_cons_of_mem _ hp
    · rcases List.mem_cons.mp hp with rfl | hp
      · exact List.mem_cons_self
      · exact List.mem_cons_of_mem _ (ih hp)

/-- Looking up a key that is there once. -/
theorem lookup_of_mem (h : (run.map (·.1)).Nodup) (hp : (key, value) ∈ run) :
    run.lookup key = some value := by
  induction run with
  | nil => simp at hp
  | cons q run ih =>
    simp only [List.map_cons, List.nodup_cons] at h
    rcases List.mem_cons.mp hp with rfl | hp
    · simp
    · have hne : (key == q.1) = false := beq_false_of_ne fun heq =>
        h.1 (heq ▸ List.mem_map.mpr ⟨_, hp, rfl⟩)
      rw [List.lookup_cons, hne]
      exact ih h.2 hp

/-- What is in a table after one more entry. -/
theorem mem_put_iff (h : (run.map (·.1)).Nodup) {p : String × α} :
    p ∈ put key value run ↔ p = (key, value) ∨ (p ∈ run ∧ p.1 ≠ key) := by
  constructor
  · intro hp
    by_cases hkey : p.1 = key
    · have hself : (put key value run).lookup key = some value :=
        lookup_of_mem (nodup_put h) mem_put_self
      have hlookup : (put key value run).lookup key = some p.2 :=
        lookup_of_mem (nodup_put h) (hkey ▸ hp)
      exact .inl (Prod.ext hkey (Option.some.inj (hlookup.symm.trans hself)))
    · rcases mem_of_mem_put hp with hp | rfl
      · exact .inr ⟨hp, hkey⟩
      · exact absurd rfl hkey
  · rintro (rfl | ⟨hp, hne⟩)
    · exact mem_put_self
    · exact mem_put_of_ne hp hne

/-- Changing all values of a table. -/
theorem map_put (f : α → β) :
    (put key value run).map (Prod.map id f) = put key (f value) (run.map (Prod.map id f)) := by
  induction run with
  | nil => rfl
  | cons q run ih =>
    obtain ⟨k, v⟩ := q
    simp only [put, List.map_cons, Prod.map_apply, id_eq]
    split
    · rfl
    · rw [List.map_cons, ih]
      rfl

theorem map_putAll (f : α → β) :
    (putAll run next).map (Prod.map id f)
      = putAll (run.map (Prod.map id f)) (next.map (Prod.map id f)) := by
  induction next generalizing run with
  | nil => rfl
  | cons q next ih =>
    obtain ⟨k, v⟩ := q
    exact ih.trans (congrArg (putAll · _) (map_put f))

end Table

namespace Style

/-! ## Which values win -/

/-- The keys of properties, in the order they first come. -/
def firstKeys (run : List (String × Expr)) : List String :=
  (run.map (·.1)).eraseDups

/-- The last value for a key. -/
def winner (run : List (String × Expr)) (key : String) : Option Expr :=
  run.reverse.lookup key

/-- Two runs of properties with the same keys in the same order and the same values for them. -/
def SameRun (run run' : List (String × Expr)) : Prop :=
  firstKeys run = firstKeys run' ∧ ∀ key, winner run key = winner run' key

/-- Of two runs the second one wins. -/
theorem winner_append (run next : List (String × Expr)) (key : String) :
    winner (run ++ next) key = (winner next key).or (winner run key) := by
  simp only [winner, List.reverse_append, List.lookup_append]

theorem winner_eq_none {run : List (String × Expr)} {key : String} (h : key ∉ run.map (·.1)) :
    winner run key = none := by
  rw [winner, List.lookup_eq_none_iff]
  intro p hp
  exact bne_iff_ne.mpr fun heq => h (heq ▸ List.mem_map.mpr ⟨p, List.mem_reverse.mp hp, rfl⟩)

theorem winner_singleton (key : String) (value : Expr) (k : String) :
    winner [(key, value)] k = if k = key then some value else none := by
  simp only [winner, List.reverse_singleton, List.lookup_cons, List.lookup_nil]
  by_cases hk : k = key
  · simp [hk]
  · simp [hk, beq_false_of_ne hk]

/-- Putting a value makes it the last one for its key. -/
theorem winner_put {run : List (String × Expr)} (h : (run.map (·.1)).Nodup) (key : String)
    (value : Expr) (k : String) :
    winner (Table.put key value run) k = if k = key then some value else winner run k := by
  induction run with
  | nil => exact winner_singleton key value k
  | cons p run ih =>
    obtain ⟨key', value'⟩ := p
    simp only [List.map_cons, List.nodup_cons] at h
    have hcons : ∀ (v : Expr) (rest : List (String × Expr)), winner ((key', v) :: rest) k
        = (winner rest k).or (if k = key' then some v else none) := by
      intro v rest
      rw [← winner_singleton, ← winner_append, List.singleton_append]
    by_cases hkey : key' = key
    · subst hkey
      simp only [Table.put, beq_self_eq_true, if_true, hcons]
      by_cases hk : k = key'
      · -- Keys are distinct, so there is no later value for this one.
        rw [hk, winner_eq_none h.1]
        simp
      · simp [hk]
    · have hput : Table.put key value ((key', value') :: run)
          = (key', value') :: Table.put key value run := by
        simp [Table.put, hkey]
      rw [hput, hcons, hcons, ih h.2]
      by_cases hk : k = key
      · simp [hk]
      · simp [hk]

/-- **Putting entries into a run keeps the winners.** -/
theorem winner_putAll {run : List (String × Expr)} (h : (run.map (·.1)).Nodup)
    (next : List (String × Expr)) (k : String) :
    winner (Table.putAll run next) k = winner (run ++ next) k := by
  induction next generalizing run with
  | nil => simp [Table.putAll]
  | cons p next ih =>
    obtain ⟨key, value⟩ := p
    calc winner (Table.putAll run ((key, value) :: next)) k
        = winner (Table.put key value run ++ next) k := ih (Table.nodup_put h)
      _ = (winner next k).or (if k = key then some value else winner run k) := by
          rw [winner_append, winner_put h]
      _ = winner (run ++ (key, value) :: next) k := by
          rw [List.append_cons, winner_append, winner_append, winner_singleton]
          by_cases hk : k = key <;> simp [hk]

/-- A key that is there already comes first where it was. -/
theorem eraseDups_append_cons {keys next : List String} {key : String} (h : key ∈ keys) :
    (keys ++ key :: next).eraseDups = (keys ++ next).eraseDups := by
  rw [List.eraseDups_append, List.eraseDups_append, List.cons_removeAll]
  simp [h]

/-- **It keeps the order of first keys.** -/
theorem firstKeys_putAll (run next : List (String × Expr)) :
    firstKeys (Table.putAll run next) = firstKeys (run ++ next) := by
  induction next generalizing run with
  | nil => simp [Table.putAll]
  | cons p next ih =>
    obtain ⟨key, value⟩ := p
    refine (ih (Table.put key value run)).trans ?_
    simp only [firstKeys, List.map_append, List.map_cons]
    by_cases hk : key ∈ run.map (·.1)
    · rw [Table.map_fst_put_of_mem hk, eraseDups_append_cons hk]
    · rw [Table.put_of_notMem hk, List.map_append, List.append_assoc]
      rfl

/-- **Folding two runs keeps their keys and values.** -/
theorem sameRun_putAll {run : List (String × Expr)} (h : (run.map (·.1)).Nodup)
    (next : List (String × Expr)) : SameRun (Table.putAll run next) (run ++ next) :=
  ⟨firstKeys_putAll run next, winner_putAll h next⟩

/-! ## What runs -/

/-- Whether a property has a value with effects. -/
def hasEffect (p : String × Expr) : Bool :=
  !isEffectFree p.2

/-- Numbers that ascend step by step ascend. -/
theorem pairwise_of_isAscending {ns : List Nat} (h : isAscending ns = true) :
    ns.Pairwise (· ≤ ·) := by
  induction ns with
  | nil => exact .nil
  | cons a ns ih =>
    cases ns with
    | nil => exact List.pairwise_singleton _ _
    | cons b ns =>
      simp only [isAscending, Bool.and_eq_true, decide_eq_true_eq] at h
      have hrest := ih h.2
      refine List.pairwise_cons.mpr ⟨fun n hn => ?_, hrest⟩
      rcases List.mem_cons.mp hn with rfl | hn
      · exact h.1
      · exact Nat.le_trans h.1 ((List.pairwise_cons.mp hrest).1 n hn)

/-- The slots of a folded list are those of the table, and no value with effects is missing. -/
theorem slots_spec {effects : Nat → Bool} {folded next out : List (String × Nat)}
    (hkeys : (folded.map (·.1)).Nodup) (h : slots effects folded next = some out) :
    out = Table.putAll folded next ∧ ∀ p ∈ folded ++ next, effects p.2 = true → p ∈ out := by
  induction next generalizing folded with
  | nil =>
    obtain rfl : folded = out := Option.some.inj h
    exact ⟨rfl, fun p hp _ => by simpa using hp⟩
  | cons q next ih =>
    obtain ⟨key, origin⟩ := q
    -- What one entry overrides: nothing, or a value without effects.
    have hstep : slots effects (Table.put key origin folded) next = some out
        ∧ ∀ held, (key, held) ∈ folded → effects held = false := by
      simp only [slots] at h
      cases hlookup : folded.lookup key with
      | some held =>
        simp only [hlookup] at h
        by_cases heff : effects held = true
        · simp [heff] at h
        · simp only [heff, Bool.false_eq_true, if_false] at h
          refine ⟨h, fun held' hheld => ?_⟩
          have hsame := Table.lookup_of_mem hkeys hheld
          rw [hlookup, Option.some.injEq] at hsame
          simpa [← hsame] using heff
      | none =>
        simp only [hlookup] at h
        have hmissing : key ∉ folded.map (·.1) := by
          intro hkey
          obtain ⟨⟨_, held⟩, hheld, rfl⟩ := List.mem_map.mp hkey
          rw [Table.lookup_of_mem hkeys hheld] at hlookup
          cases hlookup
        refine ⟨by rw [Table.put_of_notMem hmissing]; exact h, fun held hheld => ?_⟩
        exact absurd (List.mem_map.mpr ⟨_, hheld, rfl⟩) hmissing
    obtain ⟨hout, hall⟩ := ih (Table.nodup_put hkeys) hstep.1
    refine ⟨hout, fun p hp heff => hall p ?_ heff⟩
    rcases List.mem_append.mp hp with hp | hp
    · -- The only entry that is overridden is the one under the key, which has no effects.
      refine List.mem_append_left _ (Table.mem_put_of_ne hp fun hkey => ?_)
      have hnone := hstep.2 p.2 (hkey ▸ hp)
      rw [heff] at hnone
      cases hnone
    · rcases List.mem_cons.mp hp with rfl | hp
      · exact List.mem_append_left _ Table.mem_put_self
      · exact List.mem_append_right _ hp

/-- The keys of properties with their positions, from a number on. -/
def positions (values : List (String × Expr)) (start : Nat) : List (String × Nat) :=
  values.zipIdx.map fun ((key, _), i) => (key, start + i)

/-- Whether the value at a position has effects. -/
def effectAt (values : List (String × Expr)) (i : Nat) : Bool :=
  match values[i]? with
  | some (_, e) => !isEffectFree e
  | none => false

/-- The positions of keys. -/
theorem mem_positions {values : List (String × Expr)} {p : String × Nat} :
    p ∈ positions values 0 ↔ ∃ e, values[p.2]? = some (p.1, e) := by
  simp only [positions, List.mem_map, List.mem_zipIdx_iff_getElem?, Nat.zero_add]
  constructor
  · rintro ⟨⟨⟨key, e⟩, i⟩, hi, rfl⟩
    exact ⟨e, hi⟩
  · rintro ⟨e, he⟩
    exact ⟨((p.1, e), p.2), he, rfl⟩

theorem map_fst_positions (values : List (String × Expr)) (start : Nat) :
    (positions values start).map (·.1) = values.map (·.1) := by
  conv_rhs => rw [← List.zipIdx_map_fst 0 values]
  rw [positions, List.map_map, List.map_map]
  rfl

theorem pairwise_positions (values : List (String × Expr)) :
    (positions values 0).Pairwise fun p q => p.2 < q.2 := by
  have hrange : (positions values 0).map (·.2) = List.range values.length := by
    rw [List.range_eq_range', ← List.zipIdx_map_snd, positions, List.map_map]
    simp only [Nat.zero_add]
    rfl
  have hsorted := List.pairwise_lt_range (n := values.length)
  rw [← hrange, List.pairwise_map] at hsorted
  exact hsorted

/-- The values at the positions are the values. -/
theorem map_positions (values : List (String × Expr)) :
    (positions values 0).map (Prod.map id fun i => values[i]?.map (·.2))
      = values.map (Prod.map id some) := by
  have hfst : values.map (Prod.map id some)
      = values.zipIdx.map fun p => (p.1.1, some p.1.2) := by
    conv_lhs => rw [← List.zipIdx_map_fst 0 values]
    rw [List.map_map]
    rfl
  rw [hfst, positions, List.map_map]
  refine List.map_congr_left fun p hp => ?_
  have hget := List.mem_zipIdx_iff_getElem?.mp hp
  simp [hget]

/-- The positions of two lists, one after the other. -/
theorem positions_append (run next : List (String × Expr)) :
    positions run 0 ++ positions next run.length = positions (run ++ next) 0 := by
  simp only [positions]
  rw [List.zipIdx_append, List.map_append, List.zipIdx_eq_map_add (i := 0 + run.length),
    List.map_map]
  simp only [Nat.zero_add]
  rfl

section Merge

variable {run next : List (String × Expr)}

/-- If two runs can be folded, the positions of the values that are left make a table, in which no
value with effects is missing and these stand in order. -/
theorem exists_slots (hkeys : (run.map (·.1)).Nodup) (h : canMerge run next = true) :
    (∀ p ∈ positions (run ++ next) 0, effectAt (run ++ next) p.2 = true →
        p ∈ Table.putAll (positions run 0) (positions next run.length))
      ∧ ((Table.putAll (positions run 0) (positions next run.length)).filter
          fun p => effectAt (run ++ next) p.2).Pairwise fun p q => p.2 ≤ q.2 := by
  unfold canMerge at h
  dsimp only at h
  split at h
  · rename_i out hfolded
    have hslots : slots (effectAt (run ++ next)) (positions run 0) (positions next run.length)
        = some out := hfolded
    obtain ⟨rfl, hall⟩ := slots_spec (by rw [map_fst_positions]; exact hkeys) hslots
    rw [positions_append] at hall
    have hsorted := pairwise_of_isAscending h
    rw [List.filter_map, List.pairwise_map] at hsorted
    exact ⟨hall, hsorted⟩
  · cases h

/-- The positions of the values with effects that are left are those of all values with effects. -/
theorem filter_slots (hkeys : (run.map (·.1)).Nodup) (h : canMerge run next = true) :
    (Table.putAll (positions run 0) (positions next run.length)).filter
        (fun p => effectAt (run ++ next) p.2)
      = (positions (run ++ next) 0).filter fun p => effectAt (run ++ next) p.2 := by
  obtain ⟨hall, hsorted⟩ := exists_slots hkeys h
  have hsub : ∀ p ∈ Table.putAll (positions run 0) (positions next run.length),
      p ∈ positions (run ++ next) 0 := by
    intro p hp
    rw [← positions_append]
    exact Table.mem_of_mem_putAll hp
  have hnodup : (Table.putAll (positions run 0) (positions next run.length)).Nodup :=
    .of_map (·.1) (Table.nodup_putAll (by rw [map_fst_positions]; exact hkeys))
  have hnodup' : (positions (run ++ next) 0).Nodup :=
    (pairwise_positions _).imp fun hlt heq => absurd (heq ▸ hlt) (Nat.lt_irrefl _)
  -- Both lists are in order and have the same members, each of them once.
  refine List.Perm.eq_of_pairwise (fun p q hp hq hpq hqp => ?_) hsorted
    (((pairwise_positions _).imp Nat.le_of_lt).filter _) ?_
  · -- A position has one key.
    obtain ⟨e, he⟩ := mem_positions.mp (hsub p (List.mem_filter.mp hp).1)
    obtain ⟨e', he'⟩ := mem_positions.mp (List.mem_filter.mp hq).1
    have hpos := Nat.le_antisymm hpq hqp
    rw [hpos, he', Option.some.injEq, Prod.mk.injEq] at he
    exact Prod.ext he.1.symm hpos
  · rw [List.perm_ext_iff_of_nodup (hnodup.filter _) (hnodup'.filter _)]
    intro p
    simp only [List.mem_filter]
    constructor
    · rintro ⟨hp, heff⟩
      exact ⟨hsub p hp, heff⟩
    · rintro ⟨hp, heff⟩
      exact ⟨hall p hp heff, heff⟩

/-- The folded properties are the values at the positions that are left. -/
theorem map_slots (run next : List (String × Expr)) :
    (Table.putAll run next).map (Prod.map id some)
      = (Table.putAll (positions run 0) (positions next run.length)).map
        (Prod.map id fun i => (run ++ next)[i]?.map (·.2)) := by
  have hmap := map_positions (run ++ next)
  rw [← positions_append, List.map_append, List.map_append] at hmap
  obtain ⟨hrun, hnext⟩ := List.append_inj hmap (by simp [positions])
  rw [Table.map_putAll, Table.map_putAll, hrun, hnext]

/-- **Folding two runs keeps what runs.** -/
theorem filter_putAll (hkeys : (run.map (·.1)).Nodup) (h : canMerge run next = true) :
    (Table.putAll run next).filter hasEffect = (run ++ next).filter hasEffect := by
  -- Compared through the positions, where the order can be seen.
  let effect (p : String × Option Expr) : Bool := (p.2.map fun e => !isEffectFree e).getD false
  have hvalues : effect ∘ Prod.map id some = hasEffect := rfl
  have hpositions : effect ∘ Prod.map id (fun i => (run ++ next)[i]?.map (·.2))
      = fun p : String × Nat => effectAt (run ++ next) p.2 := by
    funext p
    simp only [effect, Function.comp_apply, Prod.map_snd, effectAt]
    cases (run ++ next)[p.2]? <;> rfl
  have hinj : Function.Injective (Prod.map id some : String × Expr → String × Option Expr) := by
    intro p q hpq
    obtain ⟨hkey, hvalue⟩ := Prod.mk.inj hpq
    exact Prod.ext hkey (Option.some.inj hvalue)
  refine List.map_injective_iff.mpr hinj ?_
  calc ((Table.putAll run next).filter hasEffect).map (Prod.map id some)
      = ((Table.putAll run next).map (Prod.map id some)).filter effect := by
        rw [List.filter_map, hvalues]
    _ = ((positions (run ++ next) 0).map
          (Prod.map id fun i => (run ++ next)[i]?.map (·.2))).filter effect := by
        rw [map_slots, List.filter_map, List.filter_map, hpositions, filter_slots hkeys h]
    _ = ((run ++ next).filter hasEffect).map (Prod.map id some) := by
        rw [map_positions, List.filter_map, hvalues]

end Merge

/-! ## Whole lists -/

/-- What runs, in order: the expressions, and the values with effects with their keys. -/
def effects : List Item → List (Option String × Expr)
  | [] => []
  | .dynamic e :: items => (none, e) :: effects items
  | .properties entries :: items =>
    (entries.filter hasEffect).map (Prod.map some id) ++ effects items

/-- The runs of properties between expressions. -/
def runs : List Item → List (List (String × Expr))
  | [] => [[]]
  | .dynamic _ :: items => [] :: runs items
  | .properties entries :: items =>
    match runs items with
    | run :: rest => (entries ++ run) :: rest
    | [] => [entries]

/-- Runs one after the other, where the last one goes on with the first of the next. -/
def joinRuns : List (List (String × Expr)) → List (List (String × Expr)) →
    List (List (String × Expr))
  | [], next => next
  | [run], next :: rest => (run ++ next) :: rest
  | run :: rest, next => run :: joinRuns rest next

/-- Lists of styles that run the same and in which the same values win. -/
structure SameStyles (items items' : List Item) : Prop where
  effects : effects items = effects items'
  runs : List.Forall₂ SameRun (runs items) (runs items')

theorem SameRun.refl (run : List (String × Expr)) : SameRun run run :=
  ⟨rfl, fun _ => rfl⟩

theorem SameRun.trans {a b c : List (String × Expr)} (hab : SameRun a b) (hbc : SameRun b c) :
    SameRun a c :=
  ⟨hab.1.trans hbc.1, fun key => (hab.2 key).trans (hbc.2 key)⟩

/-- The keys that first come in a list without some keys. -/
theorem eraseDups_filter (p : String → Bool) (keys : List String) :
    (keys.filter p).eraseDups = keys.eraseDups.filter p := by
  induction hn : keys.length using Nat.strongRecOn generalizing keys with
  | ind n ih =>
    cases keys with
    | nil => rfl
    | cons key keys =>
      have hlen : (keys.filter fun k => !k == key).length < n := by
        have := List.length_filter_le (fun k => !k == key) keys
        rw [List.length_cons] at hn
        omega
      have hrest := ih _ hlen (keys.filter fun k => !k == key) rfl
      rw [List.eraseDups_cons]
      by_cases hp : p key = true
      · rw [List.filter_cons_of_pos hp, List.filter_cons_of_pos hp, List.eraseDups_cons, ← hrest,
          List.filter_filter, List.filter_filter]
        simp only [Bool.and_comm]
      · rw [List.filter_cons_of_neg hp, List.filter_cons_of_neg hp, ← hrest, List.filter_filter]
        congr 1
        refine (List.filter_congr fun k _ => ?_)
        by_cases hk : k = key
        · simp [hk, hp]
        · simp [hk]

theorem firstKeys_append (run next : List (String × Expr)) :
    firstKeys (run ++ next)
      = firstKeys run ++ (firstKeys next).filter fun key => !(firstKeys run).contains key := by
  simp only [firstKeys]
  rw [List.map_append, List.eraseDups_append, List.removeAll, eraseDups_filter]
  congr 2
  funext key
  simp [List.mem_eraseDups]

/-- Runs that show the same, one after the other. -/
theorem SameRun.append {a b c d : List (String × Expr)} (hab : SameRun a b) (hcd : SameRun c d) :
    SameRun (a ++ c) (b ++ d) := by
  refine ⟨?_, fun key => ?_⟩
  · rw [firstKeys_append, firstKeys_append, hab.1, hcd.1]
  · rw [winner_append, winner_append, hab.2, hcd.2]

theorem runs_ne_nil (items : List Item) : runs items ≠ [] := by
  cases items with
  | nil => simp [runs]
  | cons item items =>
    cases item with
    | dynamic e => simp [runs]
    | properties entries =>
      simp only [runs]
      split <;> simp

/-- The runs of items one after the other: the last of the first and the first of the others are one
run. -/
theorem runs_append (items items' : List Item) :
    runs (items ++ items') = joinRuns (runs items) (runs items') := by
  induction items with
  | nil =>
    obtain ⟨run, rest, hruns⟩ := List.exists_cons_of_ne_nil (runs_ne_nil items')
    simp [runs, hruns, joinRuns]
  | cons item items ih =>
    obtain ⟨run, rest, hruns⟩ := List.exists_cons_of_ne_nil (runs_ne_nil items)
    rw [hruns] at ih
    cases item with
    | dynamic e => simp [runs, ih, hruns, joinRuns]
    | properties entries =>
      obtain ⟨run', rest', hruns'⟩ := List.exists_cons_of_ne_nil (runs_ne_nil items')
      rw [hruns'] at ih ⊢
      cases rest with
      | nil => simp [runs, ih, hruns, joinRuns]
      | cons next rest => simp [runs, ih, hruns, joinRuns]

/-- The effects of items one after the other. -/
theorem effects_append (items items' : List Item) :
    effects (items ++ items') = effects items ++ effects items' := by
  induction items with
  | nil => rfl
  | cons item items ih =>
    cases item with
    | dynamic e => simp [effects, ih]
    | properties entries => simp [effects, ih]

theorem forall₂_joinRuns {as bs cs ds : List (List (String × Expr))}
    (hab : List.Forall₂ SameRun as bs) (hcd : List.Forall₂ SameRun cs ds) :
    List.Forall₂ SameRun (joinRuns as cs) (joinRuns bs ds) := by
  induction hab with
  | nil => simpa [joinRuns] using hcd
  | cons hhead htail ih =>
    cases htail with
    | nil =>
      cases hcd with
      | nil => exact .cons hhead (by simp [joinRuns])
      | cons hhead' htail' => exact .cons (hhead.append hhead') htail'
    | cons hnext hrest => exact .cons hhead ih

theorem SameStyles.refl (items : List Item) : SameStyles items items :=
  ⟨rfl, List.forall₂_same.mpr fun run _ => .refl run⟩

theorem SameStyles.trans {as bs cs : List Item} (hab : SameStyles as bs) (hbc : SameStyles bs cs) :
    SameStyles as cs :=
  ⟨hab.effects.trans hbc.effects, forall₂_trans .trans hab.runs hbc.runs⟩

/-- Items that show the same, one after the other. -/
theorem SameStyles.append {as bs cs ds : List Item} (hab : SameStyles as bs)
    (hcd : SameStyles cs ds) : SameStyles (as ++ cs) (bs ++ ds) := by
  refine ⟨?_, ?_⟩
  · rw [effects_append, effects_append, hab.effects, hcd.effects]
  · rw [runs_append, runs_append]
    exact forall₂_joinRuns hab.runs hcd.runs

/-- Two runs that are folded. -/
theorem sameStyles_putAll {run next : List (String × Expr)} (hkeys : (run.map (·.1)).Nodup)
    (h : canMerge run next = true) :
    SameStyles [.properties (Table.putAll run next)] [.properties run, .properties next] := by
  refine ⟨?_, ?_⟩
  · simp only [effects, List.append_nil, ← List.map_append, ← List.filter_append]
    rw [filter_putAll hkeys h]
  · refine .cons ?_ .nil
    simpa using sameRun_putAll hkeys next

/-- Lists of styles in which no run has a key twice. -/
def DistinctKeys (items : List Item) : Prop :=
  ∀ entries, .properties entries ∈ items → (entries.map (·.1)).Nodup

/-- **One more item.** -/
theorem sameStyles_addItem {merged : List Item} (hkeys : DistinctKeys merged) (item : Item) :
    SameStyles (addItem merged item) (merged ++ [item]) := by
  simp only [addItem]
  split
  · rename_i run next hlast
    obtain ⟨front, rfl⟩ := List.getLast?_eq_some_iff.mp hlast
    split
    · rename_i hmerge
      rw [List.dropLast_concat, List.append_assoc]
      exact (SameStyles.refl front).append (sameStyles_putAll (hkeys run (by simp)) hmerge)
    · exact .refl _
  · exact .refl _

/-- **One item more**: the keys of each run stay different. -/
theorem distinctKeys_addItem {merged : List Item} (hkeys : DistinctKeys merged) {item : Item}
    (hitem : DistinctKeys [item]) : DistinctKeys (addItem merged item) := by
  have hboth : DistinctKeys (merged ++ [item]) := by
    intro entries hmem
    rcases List.mem_append.mp hmem with hmem | hmem
    · exact hkeys entries hmem
    · exact hitem entries hmem
  simp only [addItem]
  split
  · rename_i run next hlast
    obtain ⟨front, rfl⟩ := List.getLast?_eq_some_iff.mp hlast
    split
    · intro entries hmem
      rw [List.dropLast_concat, List.mem_append] at hmem
      rcases hmem with hmem | hmem
      · exact hkeys entries (List.mem_append_left _ hmem)
      · obtain rfl := Item.properties.inj (List.mem_singleton.mp hmem)
        exact Table.nodup_putAll (hkeys run (by simp))
    · exact hboth
  · exact hboth

/-- All items, after those that have been folded. -/
theorem sameStyles_foldl {items merged : List Item} (hitems : DistinctKeys items)
    (hmerged : DistinctKeys merged) :
    SameStyles (items.foldl addItem merged) (merged ++ items) := by
  induction items generalizing merged with
  | nil =>
    rw [List.append_nil]
    exact .refl merged
  | cons item items ih =>
    have hitem : DistinctKeys [item] :=
      fun entries hmem => hitems entries (List.mem_cons.mpr (.inl (List.mem_singleton.mp hmem)))
    have hrest : DistinctKeys items :=
      fun entries hmem => hitems entries (List.mem_cons_of_mem _ hmem)
    have hnext := ih hrest (distinctKeys_addItem hmerged hitem)
    have hstep := (sameStyles_addItem hmerged item).append (.refl items)
    rw [List.append_assoc] at hstep
    exact hnext.trans hstep

/-- **Folding styles keeps what runs and what wins.** If no source has a key twice, the expressions
and the values with effects stay the same and in the same order, and between two expressions there
are the same keys, in the order they first come, with the same last values. -/
theorem mergeItems_same (items : List Item) (hkeys : DistinctKeys items) :
    effects (mergeItems items) = effects items
      ∧ List.Forall₂ SameRun (runs (mergeItems items)) (runs items) := by
  have hnone : DistinctKeys [] := fun entries hmem => absurd hmem List.not_mem_nil
  have hsame := sameStyles_foldl hkeys hnone
  exact ⟨hsame.effects, hsame.runs⟩

/-- Three sources: the second overrides a text of the first, and the third overrides both by a value
with effects that comes after another one. -/
def overriding : List Item :=
  [.properties [("color", .string .none "red"), ("width", .await .none (.ident .none "w"))],
    .properties [("color", .ident .none "c")],
    .properties [("color", .await .none (.ident .none "d"))]]

/-- The second source is folded into the first and the third is not, since its value would then run
before the one that it follows. -/
theorem mergeItems_same_overriding :
    DistinctKeys overriding ∧ (mergeItems overriding).length = 2
      ∧ effects (mergeItems overriding) = effects overriding
      ∧ List.Forall₂ SameRun (runs (mergeItems overriding)) (runs overriding) := by
  have hkeys : DistinctKeys overriding := by
    intro entries hmem
    simp only [overriding, List.mem_cons, List.not_mem_nil, or_false, Item.properties.injEq] at hmem
    rcases hmem with rfl | rfl | rfl <;> decide
  exact ⟨hkeys, rfl, mergeItems_same overriding hkeys⟩

/-! ## What holds of every item -/

section Items

variable {P : Item → Prop}

/-- One more item, if what `P` says of two runs it says of them folded. -/
theorem forall_mem_addItem
    (hfold : ∀ run next, P (.properties run) → P (.properties next) →
      P (.properties (Table.putAll run next)))
    {merged : List Item} {item : Item} (hmerged : ∀ i ∈ merged, P i) (hitem : P item) :
    ∀ i ∈ addItem merged item, P i := by
  have hboth : ∀ i ∈ merged ++ [item], P i :=
    List.forall_mem_append.mpr ⟨hmerged, List.forall_mem_singleton.mpr hitem⟩
  unfold addItem
  split
  · rename_i run next hlast
    obtain ⟨front, rfl⟩ := List.getLast?_eq_some_iff.mp hlast
    obtain ⟨hfront, hrun⟩ := List.forall_mem_append.mp hmerged
    split
    · rw [List.dropLast_concat]
      refine List.forall_mem_append.mpr ⟨hfront, List.forall_mem_singleton.mpr ?_⟩
      exact hfold run next (List.forall_mem_singleton.mp hrun) hitem
    · exact hboth
  · exact hboth

/-- All items. -/
theorem forall_mem_mergeItems
    (hfold : ∀ run next, P (.properties run) → P (.properties next) →
      P (.properties (Table.putAll run next)))
    {items : List Item} (hitems : ∀ i ∈ items, P i) : ∀ i ∈ mergeItems items, P i :=
  List.foldlRecOn (motive := fun merged => ∀ i ∈ merged, P i) items addItem
    (fun _ hi => absurd hi List.not_mem_nil)
    fun _ hmerged item hitem => forall_mem_addItem hfold hmerged (hitems item hitem)

end Items

end Style

end JsxDialect
