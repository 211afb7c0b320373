import JsxDialect.Header
import JsxDialect.Proofs.Occurrence
import Mathlib.Data.List.Nodup
import Mathlib.Data.List.Pairwise
import Mathlib.Data.List.Perm.Subperm

/-!
# The names that a header gives out

All requests for names go one of two ways. Either the request shares its name with earlier ones, and
one of them has been made: then the name is recalled and the header stays as it is. Or the name is
made: it is the first free candidate for the hint, it is taken from then on, and it is recalled for
every later request that shares it. `Header.ask_cases` says this of every request; what
holds of whole runs is derived from it.
-/

namespace JsxDialect

/-- Different numbers are written differently. -/
theorem toString_nat_injective : Function.Injective (toString : Nat → String) := by
  intro i j h
  rw [Nat.toString_eq_ofList_toDigits, Nat.toString_eq_ofList_toDigits, String.ofList_inj] at h
  have hi := Nat.ofDigitChars_toDigits (b := 10) (n := i) (by decide) (by decide)
  have hj := Nat.ofDigitChars_toDigits (b := 10) (n := j) (by decide) (by decide)
  rw [← hi, ← hj, h]

namespace Header

/-! ## Candidates -/

/-- Different numbers give different candidates. -/
theorem candidate_injective (base : String) : Function.Injective (candidate base) := by
  have hself : ∀ k : Nat, base ≠ base ++ toString k := by
    intro k h
    have hlen := congrArg (·.toList.length) h
    have hne : (toString k).toList ≠ [] := by
      rw [Nat.toString_eq_ofList_toDigits, String.toList_ofList]
      exact Nat.toDigits_ne_nil
    have hpos := List.length_pos_iff.mpr hne
    simp only [String.toList_append, List.length_append] at hlen
    omega
  -- The first candidate is the base itself, all others have a number after it.
  intro i j h
  simp only [candidate, beq_iff_eq] at h
  split at h <;> split at h
  · omega
  · exact absurd h (hself _)
  · exact absurd h.symm (hself _)
  · rw [← String.toList_inj, String.toList_append, String.toList_append, List.append_cancel_left_eq,
      String.toList_inj] at h
    have := toString_nat_injective h
    omega

/-- Among one more candidates than there are names, one is free. -/
theorem exists_free (taken : List String) (base : String) :
    ∃ k < taken.length + 1, candidate base k ∉ taken := by
  -- Otherwise all these candidates, which are different, are among the names that are taken.
  by_contra hnone
  have hsub : (List.range (taken.length + 1)).map (candidate base) ⊆ taken := by
    intro name hname
    obtain ⟨k, hk, rfl⟩ := List.mem_map.mp hname
    by_contra hfree
    exact hnone ⟨k, List.mem_range.mp hk, hfree⟩
  have hnodup : ((List.range (taken.length + 1)).map (candidate base)).Nodup :=
    List.nodup_range.map (candidate_injective base)
  have hlen := (List.subperm_of_subset hnodup hsub).length_le
  simp only [List.length_map, List.length_range] at hlen
  omega

/-- **The search for a free name ends**, at the first candidate that is free. -/
theorem firstFree_spec (taken : List String) (base : String) :
    ∃ k, firstFree taken base = candidate base k ∧ candidate base k ∉ taken
      ∧ ∀ j < k, candidate base j ∈ taken := by
  obtain ⟨n, hn, hfree⟩ := exists_free taken base
  cases hfind : (List.range (taken.length + 1)).find?
      ((fun name => !taken.contains name) ∘ candidate base) with
  | none =>
    have hmiss := List.find?_eq_none.mp hfind n (List.mem_range.mpr hn)
    simp [hfree] at hmiss
  | some k =>
    obtain ⟨hk, -, hbefore⟩ := List.find?_range_eq_some.mp hfind
    refine ⟨k, ?_, by simpa using hk, fun j hj => by simpa using hbefore j hj⟩
    rw [firstFree, List.find?_map, hfind, Option.map_some, Option.getD_some]

/-- Whether a name starts like the names that are made. -/
def IsMarked (name : String) : Prop :=
  name.toList.head? = some '_'

instance (name : String) : Decidable (IsMarked name) :=
  inferInstanceAs (Decidable (_ = _))

theorem isMarked_candidate (hint : String) (k : Nat) : IsMarked (candidate (base hint) k) := by
  have hbase : (base hint).toList = '_' :: hint.toList.dropWhile (· == '_') := String.toList_ofList
  unfold IsMarked candidate
  split
  · rw [hbase, List.head?_cons]
  · rw [String.toList_append, hbase, List.cons_append, List.head?_cons]

end Header

/-! ## Requests -/

/-- What a header can be asked for a name for. -/
inductive Request where
  /-- A name of its own. -/
  | fresh (hint : String)
  /-- The parameter of generated functions for a hint. -/
  | param (hint : String)
  /-- An import. -/
  | import (module : String) (exported : Option String) (hint : String)
  /-- The import that a descriptor describes. -/
  | descriptor (d : ImportDescriptor)
  /-- A declaration that is made once for its key. -/
  | once (key hint : String) (declare : String → Option Stmt)
  /-- A helper function. -/
  | helper (package : Option String) (f : Helper)
  /-- The property by which an instance skips updates. -/
  | throttle
  /-- A slot on instances. -/
  | slot (hint : String)

/-- What requests share a name under. -/
inductive Memo where
  | key (key : String)
  | export (module : String) (exported : Option String)
deriving DecidableEq

namespace Request

/-- The hint for a new name. -/
def hint : Request → String
  | .fresh hint | .param hint | .import _ _ hint | .once _ hint _ | .slot hint => hint
  | .descriptor d => d.exported
  | .helper _ f => f.name
  | .throttle => "t"

/-- What a request shares its name under; a fresh name and a slot are not shared. -/
def memo? : Request → Option Memo
  | .fresh _ | .slot _ => none
  | .param hint => some (.key ("param:" ++ hint))
  | .import module exported _ => some (.export module exported)
  | .descriptor d => some (.export d.module (some d.exported))
  | .once key _ _ => some (.key key)
  | .helper none f => some (.key f.name)
  | .helper (some package) f => some (.export (f.specifier package) none)
  | .throttle => some (.key "throttleUpdatesProperty")

/-- Asks the header. -/
def ask : Request → Header → String × Header
  | .fresh hint, h => h.fresh hint
  | .param hint, h => h.paramName hint
  | .import module exported hint, h => h.addImport module exported hint
  | .descriptor d, h => h.addDescriptor d
  | .once key hint declare, h => h.once key hint declare
  | .helper package f, h => h.helper package f
  | .throttle, h => h.throttleKey
  | .slot hint, h => h.slot hint

/-- Asks the header again and again, and notes the answers. -/
def serve : List Request → Header → List (Request × String) × Header
  | [], h => ([], h)
  | r :: rs, h =>
    let (name, h) := r.ask h
    let (log, h) := serve rs h
    ((r, name) :: log, h)

/-- Whether two requests share one name. -/
def Shares (r r' : Request) : Prop :=
  ∃ k, r.memo? = some k ∧ r'.memo? = some k

theorem Shares.symm {r r' : Request} (h : r.Shares r') : r'.Shares r := by
  obtain ⟨k, hr, hr'⟩ := h
  exact ⟨k, hr', hr⟩

end Request

namespace Header

/-- The name that has been given out under a memo. -/
def lookup (h : Header) : Memo → Option String
  | .key key => h.shared.lookup key
  | .export module exported =>
    (h.imports.find? fun r => r.module == module && r.exported == exported).map (·.name)

/-- The name that is made for a hint. -/
def freshName (h : Header) (hint : String) : String :=
  firstFree h.taken (base hint)

theorem freshName_notMem (h : Header) (hint : String) : h.freshName hint ∉ h.taken := by
  obtain ⟨k, hk, hfree, -⟩ := firstFree_spec h.taken (base hint)
  rw [freshName, hk]
  exact hfree

theorem isMarked_freshName (h : Header) (hint : String) : IsMarked (h.freshName hint) := by
  obtain ⟨k, hk, -⟩ := firstFree_spec h.taken (base hint)
  rw [freshName, hk]
  exact isMarked_candidate hint k

/-- The header `h'` comes from `h` by making a name for a hint, shared under a memo if there is
one. -/
structure Makes (h : Header) (hint : String) (memo : Option Memo) (h' : Header) : Prop where
  taken : h'.taken = h.freshName hint :: h.taken
  lookup_self : ∀ k, memo = some k → h'.lookup k = some (h.freshName hint)
  lookup_other : ∀ k, memo ≠ some k → h'.lookup k = h.lookup k

theorem makes_once (h : Header) (key hint : String) (declare : String → Option Stmt)
    (hmiss : h.lookup (.key key) = none) :
    (h.once key hint declare).1 = h.freshName hint
      ∧ h.Makes hint (some (.key key)) (h.once key hint declare).2 := by
  have hlookup : h.shared.lookup key = none := hmiss
  simp only [once, hlookup, fresh, freshName, true_and]
  refine ⟨rfl, ?_, ?_⟩
  · rintro k hk
    obtain rfl := Option.some.inj hk
    simp [lookup, freshName]
  · rintro (k | ⟨m, e⟩) hk
    · have hne : (k == key) = false := beq_false_of_ne fun hkey => hk (by rw [hkey])
      simp only [lookup, List.lookup_cons, hne]
    · rfl

theorem makes_import (h : Header) (module : String) (exported : Option String) (hint : String)
    (hmiss : h.lookup (.export module exported) = none) :
    (h.addImport module exported hint).1 = h.freshName hint
      ∧ h.Makes hint (some (.export module exported)) (h.addImport module exported hint).2 := by
  have hfind : h.imports.find? (fun r => r.module == module && r.exported == exported) = none := by
    simpa [lookup] using hmiss
  simp only [addImport, hfind, fresh, freshName, true_and]
  refine ⟨rfl, ?_, ?_⟩
  · rintro k hk
    obtain rfl := Option.some.inj hk
    simp [lookup, freshName, List.find?_append, hfind]
  · rintro (k | ⟨m, e⟩) hk
    · rfl
    · have hne : ¬(module = m ∧ exported = e) := fun ⟨hm, he⟩ => hk (by rw [hm, he])
      simp [lookup, List.find?_append, hne]

/-- **A shared name is recalled**, and the header stays as it is. -/
theorem ask_of_lookup {r : Request} {h : Header} {k : Memo} {name : String}
    (hk : r.memo? = some k) (hname : h.lookup k = some name) : r.ask h = (name, h) := by
  have honce : ∀ {key : String} (hint : String) (declare : String → Option Stmt), k = .key key →
      h.once key hint declare = (name, h) := by
    rintro key hint declare rfl
    have hlookup : h.shared.lookup key = some name := hname
    simp only [once, hlookup]
  have himport : ∀ {module : String} {exported : Option String} (hint : String),
      k = .export module exported → h.addImport module exported hint = (name, h) := by
    rintro module exported hint rfl
    obtain ⟨i, hi, rfl⟩ := Option.map_eq_some_iff.mp hname
    simp only [addImport, hi]
  -- The other requests are these two under keys of their own.
  cases r with
  | fresh _ | slot _ => simp [Request.memo?] at hk
  | param _ =>
    rw [Request.ask, paramName]
    exact honce _ _ (Option.some.inj hk).symm
  | once _ _ _ => exact honce _ _ (Option.some.inj hk).symm
  | throttle =>
    rw [Request.ask, throttleKey]
    exact honce _ _ (Option.some.inj hk).symm
  | «import» _ _ _ | descriptor _ => exact himport _ (Option.some.inj hk).symm
  | helper package f =>
    cases package with
    | none =>
      rw [Request.ask, helper]
      exact honce _ _ (Option.some.inj hk).symm
    | some _ => exact himport _ (Option.some.inj hk).symm

/-- **A name that has not been given out is made.** -/
theorem ask_of_miss {r : Request} {h : Header}
    (hmiss : ∀ k, r.memo? = some k → h.lookup k = none) :
    (r.ask h).1 = h.freshName r.hint ∧ h.Makes r.hint r.memo? (r.ask h).2 := by
  have hown : ∀ declarations : List Stmt, h.Makes r.hint none
      { h with taken := h.freshName r.hint :: h.taken, declarations } :=
    fun _ => ⟨rfl, fun k hk => by simp at hk, fun k _ => by cases k <;> rfl⟩
  cases r with
  | fresh _ => exact ⟨rfl, hown h.declarations⟩
  | slot _ => exact ⟨rfl, hown _⟩
  | param _ | once _ _ _ | throttle => exact makes_once h _ _ _ (hmiss _ rfl)
  | «import» _ _ _ | descriptor _ => exact makes_import h _ _ _ (hmiss _ rfl)
  | helper package f =>
    cases package with
    | none => exact makes_once h _ _ _ (hmiss _ rfl)
    | some _ => exact makes_import h _ _ _ (hmiss _ rfl)

/-- **A request goes one of two ways**: its name is recalled, or made. -/
theorem ask_cases (r : Request) (h : Header) :
    (∃ k name, r.memo? = some k ∧ h.lookup k = some name ∧ r.ask h = (name, h))
      ∨ ((∀ k, r.memo? = some k → h.lookup k = none) ∧ (r.ask h).1 = h.freshName r.hint
        ∧ h.Makes r.hint r.memo? (r.ask h).2) := by
  by_cases hknown : ∃ k name, r.memo? = some k ∧ h.lookup k = some name
  · obtain ⟨k, name, hk, hname⟩ := hknown
    exact .inl ⟨k, name, hk, hname, ask_of_lookup hk hname⟩
  · have hmiss : ∀ k, r.memo? = some k → h.lookup k = none := by
      intro k hk
      by_contra hne
      obtain ⟨name, hname⟩ := Option.ne_none_iff_exists'.mp hne
      exact hknown ⟨k, name, hk, hname⟩
    exact .inr ⟨hmiss, ask_of_miss hmiss⟩

/-! ## Whole runs -/

/-- What is known after some requests: which names are taken, which are recalled, that all of them
are new and look like names that are made, and that two requests have got one name if and only if
they share it. -/
structure Tracks (used : List String) (log : List (Request × String)) (h : Header) : Prop where
  taken : ∀ name, name ∈ h.taken ↔ name ∈ used ∨ name ∈ log.map (·.2)
  unused : ∀ p ∈ log, p.2 ∉ used
  marked : ∀ p ∈ log, IsMarked p.2
  lookup : ∀ k name, h.lookup k = some name ↔ ∃ r, (r, name) ∈ log ∧ r.memo? = some k
  apart : log.Pairwise fun p q => p.2 = q.2 ↔ p.1.Shares q.1

/-- Whether a name is the first of the candidates for a hint that is not used. -/
def IsFirstUnused (used : List String) (hint name : String) : Prop :=
  ∃ k, name = candidate (base hint) k ∧ name ∉ used ∧ ∀ j < k, candidate (base hint) j ∈ used

variable {used : List String} {log : List (Request × String)} {h : Header} {r : Request}

theorem tracks_ofModule (m : Module) : Tracks m.usedNames [] (ofModule m) := by
  refine ⟨fun name => by simp [ofModule], fun _ hp => absurd hp List.not_mem_nil,
    fun _ hp => absurd hp List.not_mem_nil, fun k name => ?_, .nil⟩
  cases k <;> simp [ofModule, lookup]

/-- Two requests that have got one name have it under one memo. -/
theorem Tracks.memo?_eq (ht : Tracks used log h) {r' : Request} {name : String} {k : Memo}
    (hr : (r, name) ∈ log) (hr' : (r', name) ∈ log) (hk : r.memo? = some k) :
    r'.memo? = some k := by
  have hall := List.Pairwise.forall_of_forall_of_flip
    (R := fun p q => p.2 = q.2 → p = q ∨ p.1.Shares q.1) (fun p _ _ => .inl rfl)
    (ht.apart.imp fun hpq heq => .inr (hpq.mp heq))
    (ht.apart.imp fun hpq heq => .inr (hpq.mp heq.symm).symm)
  rcases hall hr hr' rfl with heq | ⟨k', hrk, hrk'⟩
  · rw [← (Prod.mk.inj heq).1, hk]
  · rw [hrk', ← hrk, hk]

/-- A request whose name is recalled. -/
theorem Tracks.recalled (ht : Tracks used log h) {k : Memo} {name : String}
    (hk : r.memo? = some k) (hname : h.lookup k = some name) :
    Tracks used (log ++ [(r, name)]) h := by
  -- The name stands in the log for an earlier request, so nothing about the header is new.
  obtain ⟨r', hlog, hr'⟩ := (ht.lookup k name).mp hname
  have hmem : name ∈ log.map (·.2) := List.mem_map.mpr ⟨_, hlog, rfl⟩
  refine ⟨fun n => ?_, ?_, ?_, fun k' n => ?_, ?_⟩
  · rw [ht.taken]
    simp only [List.map_append, List.map_cons, List.map_nil, List.mem_append, List.mem_singleton]
    constructor
    · rintro (hn | hn)
      · exact .inl hn
      · exact .inr (.inl hn)
    · rintro (hn | hn | rfl)
      · exact .inl hn
      · exact .inr hn
      · exact .inr hmem
  · exact List.forall_mem_append.mpr
      ⟨ht.unused, List.forall_mem_singleton.mpr (ht.unused (r', name) hlog)⟩
  · exact List.forall_mem_append.mpr
      ⟨ht.marked, List.forall_mem_singleton.mpr (ht.marked (r', name) hlog)⟩
  · rw [ht.lookup]
    simp only [List.mem_append, List.mem_singleton, Prod.mk.injEq]
    constructor
    · rintro ⟨q, hq, hqk⟩
      exact ⟨q, .inl hq, hqk⟩
    · rintro ⟨q, hq | ⟨rfl, rfl⟩, hqk⟩
      · exact ⟨q, hq, hqk⟩
      · exact ⟨r', hlog, by rw [hr', ← hqk, hk]⟩
  · refine List.pairwise_append.mpr ⟨ht.apart, List.pairwise_singleton _ _, ?_⟩
    rintro ⟨q, n⟩ hq p hp
    obtain rfl := List.mem_singleton.mp hp
    constructor
    · rintro rfl
      exact ⟨k, ht.memo?_eq hlog hq hr', hk⟩
    · rintro ⟨k', hqk, hrk⟩
      obtain rfl : k = k' := Option.some.inj (hk.symm.trans hrk)
      exact Option.some.inj (((ht.lookup k n).mpr ⟨q, hq, hqk⟩).symm.trans hname)

/-- A request whose name is made. -/
theorem Tracks.made (ht : Tracks used log h) {h' : Header}
    (hmiss : ∀ k, r.memo? = some k → h.lookup k = none) (hm : h.Makes r.hint r.memo? h') :
    Tracks used (log ++ [(r, h.freshName r.hint)]) h' := by
  -- An earlier request under the same memo would have been found.
  have hunshared : ∀ q n k, (q, n) ∈ log → q.memo? = some k → r.memo? ≠ some k := by
    intro q n k hq hqk hk
    have hold := (ht.lookup k n).mpr ⟨q, hq, hqk⟩
    rw [hmiss k hk] at hold
    cases hold
  have hnew := freshName_notMem h r.hint
  refine ⟨fun n => ?_, ?_, ?_, fun k n => ?_, ?_⟩
  · rw [hm.taken, List.mem_cons, ht.taken]
    simp only [List.map_append, List.map_cons, List.map_nil, List.mem_append, List.mem_singleton]
    tauto
  · refine List.forall_mem_append.mpr ⟨ht.unused, List.forall_mem_singleton.mpr fun hused => ?_⟩
    exact hnew ((ht.taken _).mpr (.inl hused))
  · exact List.forall_mem_append.mpr
      ⟨ht.marked, List.forall_mem_singleton.mpr (isMarked_freshName h r.hint)⟩
  · simp only [List.mem_append, List.mem_singleton, Prod.mk.injEq]
    by_cases hk : r.memo? = some k
    · rw [hm.lookup_self k hk]
      constructor
      · intro hn
        exact ⟨r, .inr ⟨rfl, (Option.some.inj hn).symm⟩, hk⟩
      · rintro ⟨q, hq | ⟨rfl, rfl⟩, hqk⟩
        · exact absurd hk (hunshared q n k hq hqk)
        · rfl
    · rw [hm.lookup_other k hk, ht.lookup]
      constructor
      · rintro ⟨q, hq, hqk⟩
        exact ⟨q, .inl hq, hqk⟩
      · rintro ⟨q, hq | ⟨rfl, rfl⟩, hqk⟩
        · exact ⟨q, hq, hqk⟩
        · exact absurd hqk hk
  · refine List.pairwise_append.mpr ⟨ht.apart, List.pairwise_singleton _ _, ?_⟩
    rintro ⟨q, n⟩ hq p hp
    obtain rfl := List.mem_singleton.mp hp
    constructor
    · rintro rfl
      exact absurd ((ht.taken _).mpr (.inr (List.mem_map.mpr ⟨_, hq, rfl⟩))) hnew
    · rintro ⟨k, hqk, hrk⟩
      exact absurd hrk (hunshared q n k hq hqk)

/-- **One request.** Either it shares a name with an earlier one and gets that name, or it shares
none and gets the first unused name for its hint. -/
theorem Tracks.ask (ht : Tracks used log h) (r : Request) :
    Tracks used (log ++ [(r, (r.ask h).1)]) (r.ask h).2
      ∧ ((∀ p ∈ log, ¬r.Shares p.1) →
        IsFirstUnused (used ++ log.map (·.2)) r.hint (r.ask h).1) := by
  rcases ask_cases r h with ⟨k, name, hk, hname, hask⟩ | ⟨hmiss, hname, hmakes⟩
  · obtain ⟨r', hlog, hr'⟩ := (ht.lookup k name).mp hname
    rw [hask]
    exact ⟨ht.recalled hk hname, fun hnone => absurd ⟨k, hk, hr'⟩ (hnone _ hlog)⟩
  · rw [hname]
    refine ⟨ht.made hmiss hmakes, fun _ => ?_⟩
    obtain ⟨k, hk, hfree, hbefore⟩ := firstFree_spec h.taken (base r.hint)
    simp only [ht.taken, ← List.mem_append] at hfree hbefore
    refine ⟨k, hk, ?_, hbefore⟩
    rw [freshName, hk]
    exact hfree

theorem serve_cons (r : Request) (rs : List Request) (h : Header) :
    Request.serve (r :: rs) h
      = ((r, (r.ask h).1) :: (Request.serve rs (r.ask h).2).1, (Request.serve rs (r.ask h).2).2) :=
  rfl

/-- A whole run of requests, after those of the log. -/
theorem Tracks.serve (ht : Tracks used log h) (rs : List Request) :
    Tracks used (log ++ (Request.serve rs h).1) (Request.serve rs h).2
      ∧ ∀ before r name after, (Request.serve rs h).1 = before ++ (r, name) :: after →
        (∀ p ∈ log ++ before, ¬r.Shares p.1) →
        IsFirstUnused (used ++ (log ++ before).map (·.2)) r.hint name := by
  -- The log grows by one request at each step; a split of the new part is at its head or after it.
  induction rs generalizing log h with
  | nil =>
    refine ⟨?_, fun before _ _ _ heq =>
      absurd heq.symm (List.append_ne_nil_of_right_ne_nil _ nofun)⟩
    change Tracks used (log ++ []) h
    rwa [List.append_nil]
  | cons r rs ih =>
    obtain ⟨ht', hnew⟩ := ht.ask r
    obtain ⟨hlast, hrest⟩ := ih ht'
    rw [serve_cons]
    rw [List.append_assoc] at hlast
    refine ⟨hlast, fun before r' name after heq => ?_⟩
    cases before with
    | nil =>
      obtain ⟨hhead, -⟩ := List.cons.inj heq
      obtain ⟨rfl, rfl⟩ := Prod.mk.inj hhead
      rw [List.append_nil]
      exact hnew
    | cons p before =>
      obtain ⟨rfl, htail⟩ := List.cons.inj heq
      have htail := hrest before r' name after htail
      rwa [List.append_assoc] at htail

/-- The requests of a log are those that were made. -/
theorem map_fst_serve (rs : List Request) (h : Header) :
    (Request.serve rs h).1.map (·.1) = rs := by
  induction rs generalizing h with
  | nil => rfl
  | cons r rs ih => exact congrArg (r :: ·) (ih _)

/-- **Names are fresh over whole runs.** A request that shares its name with no earlier one gets the
first candidate for its hint that is neither a name of the module nor a name given out earlier; and
two requests get one name if and only if they share it. -/
theorem serve_fresh (m : Module) (rs : List Request) :
    (Request.serve rs (ofModule m)).1.map (·.1) = rs
      ∧ (∀ before r name after,
        (Request.serve rs (ofModule m)).1 = before ++ (r, name) :: after →
        (∀ p ∈ before, ¬r.Shares p.1) →
        IsFirstUnused (m.names ++ before.map (·.2)) r.hint name)
      ∧ (Request.serve rs (ofModule m)).1.Pairwise fun p q => p.2 = q.2 ↔ p.1.Shares q.1 := by
  obtain ⟨htracks, hmade⟩ := (tracks_ofModule m).serve rs
  refine ⟨map_fst_serve rs _, fun before r name after heq hnone => ?_, htracks.apart⟩
  obtain ⟨k, hname, hfree, hbefore⟩ := hmade before r name after heq hnone
  simp only [List.nil_append, List.mem_append, Module.mem_usedNames] at hfree hbefore
  exact ⟨k, hname, by simpa using hfree, by simpa using hbefore⟩

/-- In a module that refers to `_el`, the parameter for `el` is `_el2`, also when it is asked for
again, and a slot in between is `_el3`. -/
theorem serve_fresh_el :
    (Request.serve [.param "el", .slot "__el", .param "el"]
      (ofModule ⟨[], [.expr (.ident .none "_el")]⟩)).1
        = [(.param "el", "_el2"), (.slot "__el", "_el3"), (.param "el", "_el2")]
      ∧ IsFirstUnused
        ((⟨[], [.expr (.ident .none "_el")]⟩ : Module).names ++ ["_el2"]) "__el" "_el3" := by
  refine ⟨rfl, ?_⟩
  refine (serve_fresh ⟨[], [.expr (.ident .none "_el")]⟩
    [.param "el", .slot "__el", .param "el"]).2.1 [(.param "el", "_el2")] (.slot "__el") "_el3"
    [(.param "el", "_el2")] rfl ?_
  rintro p - ⟨k, hk, -⟩
  cases hk

end Header

end JsxDialect
