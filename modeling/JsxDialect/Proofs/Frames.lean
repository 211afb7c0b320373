import JsxDialect.Scope
import JsxDialect.Lower.Lift
import JsxDialect.Proofs.Lists

/-!
# The open scopes as a list

The records of scopes are numbered and never removed. What later proofs need of them is the list of
the open ones, innermost first: opening a scope puts a frame in front, closing takes the first frame
off, and queuing on the owner of a place changes the first frame of a function. The order of the
numbers carries this, since a scope is numbered after the one around it.
-/

namespace JsxDialect

variable {α : Type}

/-- An open scope, without its number. -/
structure Frame (α : Type) where
  kind : ScopeKind
  names : List String
  queued : List α

/-- Whether a scope is that of a function other than an arrow function. -/
def ScopeKind.isFunction : ScopeKind → Bool
  | .function _ => true
  | _ => false

/-- A record as a frame. -/
def ScopeRecord.frame (r : ScopeRecord α) : Frame α :=
  ⟨r.kind, r.names, r.queued⟩

namespace Scopes

/-- The frame of a scope. -/
def frame? (s : Scopes α) (i : Nat) : Option (Frame α) :=
  s.records[i]?.map ScopeRecord.frame

/-- The open scopes, innermost first. -/
def frames (s : Scopes α) : List (Frame α) :=
  (s.ancestors s.current).filterMap s.frame?

/-- A scope is numbered after the one around it, and the current scope has a record. -/
structure Ordered (s : Scopes α) : Prop where
  parent_lt : ∀ {i p}, s.parent? i = some p → p < i
  current_lt : ∀ {i}, s.current = some i → i < s.records.size

variable {s : Scopes α}

/-! ## Chains -/

/-- With enough fuel the chain of a scope does not depend on the fuel. -/
theorem chain_fuel (hs : s.Ordered) {n m i : Nat} (hn : i < n) (hm : i < m) :
    s.chain n (some i) = s.chain m (some i) := by
  -- On the number of the scope: the one around it has a smaller number, so it needs less fuel.
  induction i using Nat.strongRecOn generalizing n m with
  | ind i ih =>
    obtain ⟨n, rfl⟩ : ∃ k, n = k + 1 := ⟨n - 1, by omega⟩
    obtain ⟨m, rfl⟩ : ∃ k, m = k + 1 := ⟨m - 1, by omega⟩
    simp only [chain]
    cases hp : s.parent? i with
    | none => simp only [chain]
    | some p =>
      have hlt := hs.parent_lt hp
      exact congrArg (i :: ·) (ih p hlt (by omega) (by omega))

/-- The scopes around a scope come after it. -/
theorem ancestors_some (hs : s.Ordered) {i : Nat} (hi : i < s.records.size) :
    s.ancestors (some i) = i :: s.ancestors (s.parent? i) := by
  obtain ⟨n, hn⟩ : ∃ k, s.records.size = k + 1 := ⟨s.records.size - 1, by omega⟩
  have hfirst : s.ancestors (some i) = i :: s.chain n (s.parent? i) := by
    unfold ancestors
    rw [hn]
    simp only [chain]
  rw [hfirst]
  cases hp : s.parent? i with
  | none => simp only [ancestors, chain]
  | some p =>
    have hlt := hs.parent_lt hp
    rw [chain_fuel hs (by omega : p < n) (by omega : p < s.records.size), ancestors]

/-- A chain only goes down. -/
theorem le_of_mem_chain (hs : s.Ordered) {n i j : Nat} (h : j ∈ s.chain n (some i)) : j ≤ i := by
  induction n generalizing i with
  | zero => simp [chain] at h
  | succ n ih =>
    simp only [chain, List.mem_cons] at h
    rcases h with rfl | h
    · exact Nat.le_refl j
    · cases hp : s.parent? i with
      | none => simp [hp, chain] at h
      | some p =>
        have hlt := hs.parent_lt hp
        have hle := ih (hp ▸ h)
        omega

/-- A scope is not among those around it. -/
theorem notMem_ancestors_parent (hs : s.Ordered) (i : Nat) : i ∉ s.ancestors (s.parent? i) := by
  intro h
  cases hp : s.parent? i with
  | none => simp [hp, ancestors, chain] at h
  | some p =>
    have hle := le_of_mem_chain hs (hp ▸ h)
    have hlt := hs.parent_lt hp
    omega

/-- No scope is twice among those around a scope. -/
theorem nodup_chain (hs : s.Ordered) (n : Nat) (start : Option Nat) :
    (s.chain n start).Nodup := by
  induction n generalizing start with
  | zero => cases start <;> simp [chain]
  | succ n ih =>
    cases start with
    | none => simp [chain]
    | some i =>
      simp only [chain, List.nodup_cons]
      refine ⟨fun h => ?_, ih _⟩
      cases hp : s.parent? i with
      | none => simp [hp, chain] at h
      | some p =>
        have hle := le_of_mem_chain hs (hp ▸ h)
        have hlt := hs.parent_lt hp
        omega

/-- Chains depend only on which scope is around which. -/
theorem chain_congr {s t : Scopes α} (hs : s.Ordered) {n i : Nat}
    (h : ∀ j, j ≤ i → s.parent? j = t.parent? j) : s.chain n (some i) = t.chain n (some i) := by
  induction n generalizing i with
  | zero => simp [chain]
  | succ n ih =>
    simp only [chain, ← h i (Nat.le_refl i)]
    cases hp : s.parent? i with
    | none => simp [chain]
    | some p =>
      have hlt := hs.parent_lt hp
      rw [ih fun j hj => h j (by omega)]

/-- Chains do not depend on which scope is the current one. -/
theorem ancestors_moved (hs : s.Ordered) (current start : Option Nat) :
    ancestors ⟨s.records, current⟩ start = s.ancestors start := by
  cases start with
  | none => simp only [ancestors, chain]
  | some i => exact (chain_congr (t := ⟨s.records, current⟩) hs fun _ _ => rfl).symm

/-! ## Opening and closing -/

theorem ordered_empty : (empty : Scopes α).Ordered :=
  ⟨fun h => by simp [parent?, empty] at h, fun h => by simp [empty] at h⟩

/-- Opening a scope leaves the others where they are. -/
theorem getElem?_push_lt (kind : ScopeKind) (names : List String) {i : Nat}
    (hi : i < s.records.size) : (s.push kind names).2.records[i]? = s.records[i]? := by
  simp only [push]
  rw [Array.getElem?_push, if_neg (by omega)]

theorem Ordered.push (hs : s.Ordered) (kind : ScopeKind) (names : List String) :
    (s.push kind names).2.Ordered := by
  refine ⟨fun {i p} h => ?_, fun {i} h => ?_⟩
  · simp only [parent?, Scopes.push, Array.getElem?_push] at h
    split at h
    · subst i
      exact hs.current_lt (by simpa using h)
    · exact hs.parent_lt h
  · simp only [Scopes.push, Option.some.injEq, Array.size_push] at h ⊢
    omega

/-- The chain of an old scope is the old one. -/
theorem ancestors_push (hs : s.Ordered) (kind : ScopeKind) (names : List String) :
    (s.push kind names).2.ancestors s.current = s.ancestors s.current := by
  cases hc : s.current with
  | none => simp only [ancestors, chain]
  | some i =>
    have hi := hs.current_lt hc
    unfold ancestors
    rw [← chain_congr hs fun j hj => ?_]
    · exact chain_fuel hs (by simp only [push, Array.size_push]; omega) hi
    · simp only [parent?]
      rw [getElem?_push_lt kind names (by omega)]

/-- **Opening a scope puts a frame in front.** -/
theorem frames_push (hs : s.Ordered) (kind : ScopeKind) (names : List String) :
    (s.push kind names).2.frames = ⟨kind, names, []⟩ :: s.frames := by
  have hnew : (s.push kind names).2.frame? s.records.size = some ⟨kind, names, []⟩ := by
    simp [frame?, push, ScopeRecord.frame]
  have hparent : (s.push kind names).2.parent? s.records.size = s.current := by
    simp [parent?, push]
  have hold : ∀ i ∈ s.ancestors s.current, (s.push kind names).2.frame? i = s.frame? i := by
    intro i hi
    cases hc : s.current with
    | none => simp [hc, ancestors, chain] at hi
    | some j =>
      have hle := le_of_mem_chain hs (hc ▸ hi)
      have hlt := hs.current_lt hc
      simp only [frame?]
      rw [getElem?_push_lt kind names (by omega)]
  calc (s.push kind names).2.frames
      = ((s.push kind names).2.ancestors (some s.records.size)).filterMap
          (s.push kind names).2.frame? := rfl
    _ = ⟨kind, names, []⟩ :: ((s.push kind names).2.ancestors s.current).filterMap
          (s.push kind names).2.frame? := by
        rw [ancestors_some (hs.push kind names) (by simp [push]), hparent,
          List.filterMap_cons_some hnew]
    _ = ⟨kind, names, []⟩ :: s.frames := by
        rw [ancestors_push hs, frames, List.filterMap_congr hold]

/-- The frames with the current scope in front. -/
theorem frames_current (hs : s.Ordered) {i : Nat} (hc : s.current = some i) :
    ∃ f, s.frame? i = some f ∧ s.frames = f :: (s.ancestors (s.parent? i)).filterMap s.frame? := by
  have hi := hs.current_lt hc
  obtain ⟨r, hr⟩ : ∃ r, s.records[i]? = some r := ⟨_, Array.getElem?_eq_getElem hi⟩
  have hf : s.frame? i = some r.frame := by simp [frame?, hr]
  refine ⟨r.frame, hf, ?_⟩
  rw [frames, hc, ancestors_some hs hi, List.filterMap_cons_some hf]

/-! ## Changing a record -/

/-- The scopes with one record changed. -/
def update (s : Scopes α) (i : Nat) (g : ScopeRecord α → ScopeRecord α) : Scopes α :=
  { s with records := s.records.modify i g }

section Update

variable {g : ScopeRecord α → ScopeRecord α} (hg : ∀ r, (g r).parent = r.parent)
include hg

theorem parent?_update (i j : Nat) : (s.update i g).parent? j = s.parent? j := by
  simp only [parent?, update, Array.getElem?_modify]
  split
  · cases s.records[j]? <;> simp [hg]
  · rfl

theorem Ordered.update (hs : s.Ordered) (i : Nat) : (s.update i g).Ordered := by
  refine ⟨fun h => hs.parent_lt (parent?_update hg i _ ▸ h), fun {j} h => ?_⟩
  have hj := hs.current_lt (i := j) h
  simpa [Scopes.update] using hj

theorem ancestors_update (hs : s.Ordered) (i : Nat) (start : Option Nat) :
    (s.update i g).ancestors start = s.ancestors start := by
  cases start with
  | none => simp only [ancestors, chain]
  | some j =>
    unfold ancestors
    rw [← chain_congr hs fun k _ => (parent?_update hg i k).symm]
    simp only [update, Array.size_modify]

end Update

/-- A record that is not changed keeps its frame. -/
theorem frame?_update_ne {g : ScopeRecord α → ScopeRecord α} {i j : Nat} (h : i ≠ j) :
    (s.update i g).frame? j = s.frame? j := by
  simp only [frame?, update, Array.getElem?_modify, if_neg h]

/-- The frame of a changed record. -/
theorem frame?_update_self {g : ScopeRecord α → ScopeRecord α} {i : Nat} {r : ScopeRecord α}
    (h : s.records[i]? = some r) : (s.update i g).frame? i = some (g r).frame := by
  simp only [frame?, update, Array.getElem?_modify, if_pos, h, Option.map_some]

/-- Changing a record that is not on a chain keeps the frames of the chain. -/
theorem filterMap_update {g : ScopeRecord α → ScopeRecord α} {i : Nat} {chain : List Nat}
    (h : i ∉ chain) : chain.filterMap (s.update i g).frame? = chain.filterMap s.frame? :=
  List.filterMap_congr fun _ hj => frame?_update_ne fun hij => h (hij ▸ hj)

/-- **Closing a scope takes the first frame off**, and what was queued on it is no longer needed. -/
theorem frames_pop (hs : s.Ordered) {f : Frame α} {fs : List (Frame α)} (h : s.frames = f :: fs) :
    ∃ i t, s.pop? = some (i, t) ∧ t.queued i = f.queued ∧ t.Ordered ∧ t.frames = fs
      ∧ (t.take i).2.Ordered ∧ (t.take i).2.frames = fs := by
  cases hc : s.current with
  | none => simp [frames, hc, ancestors, chain] at h
  | some i =>
    obtain ⟨g, hg, hframes⟩ := frames_current hs hc
    rw [h, List.cons.injEq] at hframes
    obtain ⟨rfl, hrest⟩ := hframes
    have ht : (⟨s.records, s.parent? i⟩ : Scopes α).Ordered := by
      refine ⟨hs.parent_lt, fun {j} hj => ?_⟩
      have hji := hs.parent_lt hj
      have hi := hs.current_lt hc
      simp only
      omega
    have hkeep : ∀ r : ScopeRecord α, ({ r with queued := [] } : ScopeRecord α).parent = r.parent :=
      fun _ => rfl
    have hanc := ancestors_moved hs (s.parent? i) (s.parent? i)
    have hfs : frames ⟨s.records, s.parent? i⟩ = fs := by
      rw [hrest]
      exact congrArg (List.filterMap s.frame?) hanc
    refine ⟨i, ⟨s.records, s.parent? i⟩, by simp only [pop?, hc, Option.map_some], ?_, ht, hfs,
      ht.update hkeep i, ?_⟩
    · obtain ⟨r, hr, hrg⟩ := Option.map_eq_some_iff.mp hg
      simp only [queued, hr, Option.map_some, Option.getD_some, ← hrg, ScopeRecord.frame]
    · rw [← hfs]
      -- Emptying the queue of the closed scope is not seen from the scopes around it.
      refine (congrArg (List.filterMap _) (ancestors_update hkeep ht i (s.parent? i))).trans ?_
      exact filterMap_update (hanc ▸ notMem_ancestors_parent hs i)

/-! ## The owner of a place -/

theorem isFunction_frame {i : Nat} {f : Frame α} (h : s.frame? i = some f) :
    s.isFunction i = f.kind.isFunction := by
  obtain ⟨r, hr, rfl⟩ := Option.map_eq_some_iff.mp h
  unfold isFunction
  rw [hr]
  cases hkind : r.kind <;> simp [ScopeRecord.frame, ScopeKind.isFunction, hkind]

theorem binds_frame {i : Nat} {f : Frame α} (h : s.frame? i = some f) (name : String) :
    s.binds name i = f.names.contains name := by
  obtain ⟨r, hr, rfl⟩ := Option.map_eq_some_iff.mp h
  simp only [binds, hr, ScopeRecord.frame]

/-- Every scope up to the owner is asked for the name. -/
theorem binds_of_boundUpTo {owner i : Nat} {name : String} {before after : List Nat}
    (hi : i ∈ before) (ho : owner ∉ before)
    (h : s.boundUpTo owner name (before ++ owner :: after) = false) : s.binds name i = false := by
  induction before with
  | nil => simp at hi
  | cons j js ih =>
    simp only [List.cons_append, boundUpTo, Bool.or_eq_false_iff, Bool.and_eq_false_iff] at h
    simp only [List.mem_cons, not_or] at hi ho
    rcases hi with rfl | hi
    · exact h.1
    · refine ih hi ho.2 ?_
      rcases h.2 with hj | h
      · simp only [bne_eq_false_iff_eq] at hj
        exact absurd hj.symm ho.1
      · exact h

end Scopes

/-- **The owner of a place is the first frame of a function.** What is queued on it goes there, and
what is not bound within it is bound by no frame before. -/
theorem Lift.owner_frames {s : Scopes Stmt} (hs : s.Ordered) {i : Nat}
    (h : Lift.owner? s = some i) :
    ∃ inner f outer, s.frames = inner ++ f :: outer
      ∧ (∀ g ∈ inner, g.kind.isFunction = false) ∧ f.kind = .function true
      ∧ (∀ item, (s.queue i item).Ordered
        ∧ (s.queue i item).frames = inner ++ { f with queued := f.queued ++ [item] } :: outer)
      ∧ ∀ name, s.isBoundWithin i name = false → ∀ g ∈ inner, name ∉ g.names := by
  -- The chain of scopes splits at the owner, which is in neither of the two parts: what is queued
  -- on it leaves their frames as they are.
  obtain ⟨hfind, hkind⟩ := Option.filter_eq_some_iff.mp h
  obtain ⟨-, before, after, hsplit, hbefore⟩ := List.find?_eq_some_iff_append.mp hfind
  obtain ⟨r, hr, hrk⟩ : ∃ r, s.records[i]? = some r ∧ r.kind = .function true := by
    cases hr : s.records[i]? with
    | none => simp [hr] at hkind
    | some r => exact ⟨r, rfl, by simpa [hr] using hkind⟩
  have hnodup : (before ++ i :: after).Nodup := hsplit ▸ Scopes.nodup_chain hs _ _
  have hib : i ∉ before := fun hi => (List.nodup_append.mp hnodup).2.2 i hi i (by simp) rfl
  have hia : i ∉ after := (List.nodup_cons.mp (List.nodup_append.mp hnodup).2.1).1
  have hf : s.frame? i = some r.frame := by simp [Scopes.frame?, hr]
  have hin : ∀ g ∈ before.filterMap s.frame?, ∃ j ∈ before, s.frame? j = some g :=
    fun g hg => List.mem_filterMap.mp hg
  refine ⟨before.filterMap s.frame?, r.frame, after.filterMap s.frame?, ?_, ?_, hrk, ?_, ?_⟩
  · rw [Scopes.frames, hsplit, List.filterMap_append, List.filterMap_cons_some hf]
  · intro g hg
    obtain ⟨j, hj, hjg⟩ := hin g hg
    rw [← Scopes.isFunction_frame hjg]
    simpa using hbefore j hj
  · intro item
    have hkeep : ∀ r : ScopeRecord Stmt,
        ({ r with queued := r.queued ++ [item] } : ScopeRecord Stmt).parent = r.parent :=
      fun _ => rfl
    refine ⟨hs.update hkeep i, ?_⟩
    calc (s.queue i item).frames
        = ((s.update i fun r => { r with queued := r.queued ++ [item] }).ancestors
            s.current).filterMap
            (s.update i fun r => { r with queued := r.queued ++ [item] }).frame? := rfl
      _ = _ := by
        rw [Scopes.ancestors_update hkeep hs, hsplit, List.filterMap_append,
          List.filterMap_cons_some (Scopes.frame?_update_self hr), Scopes.filterMap_update hib,
          Scopes.filterMap_update hia]
        rfl
  · intro name hname g hg
    obtain ⟨j, hj, hjg⟩ := hin g hg
    rw [Scopes.isBoundWithin, hsplit] at hname
    have hfree := Scopes.binds_of_boundUpTo hj hib hname
    rw [Scopes.binds_frame hjg] at hfree
    simpa using hfree

/-- Queuing changes no owner. -/
theorem Lift.owner?_queue {s : Scopes Stmt} (hs : s.Ordered) (i : Nat) (item : Stmt) :
    Lift.owner? (s.queue i item) = Lift.owner? s := by
  have hkinds : ∀ j : Nat, (s.queue i item).records[j]?.map ScopeRecord.kind
      = s.records[j]?.map ScopeRecord.kind := by
    intro j
    simp only [Scopes.queue, Array.getElem?_modify]
    split
    · cases s.records[j]? <;> rfl
    · rfl
  have hfunction : (s.queue i item).isFunction = s.isFunction := by
    funext j
    have hj := hkinds j
    unfold Scopes.isFunction
    cases hs : s.records[j]? <;> cases hq : (s.queue i item).records[j]? <;> simp_all
  have hchain : (s.queue i item).ancestors s.current = s.ancestors s.current :=
    Scopes.ancestors_update (g := fun r => { r with queued := r.queued ++ [item] })
      (fun _ => rfl) hs i s.current
  have henclosing : (s.queue i item).enclosingFunction = s.enclosingFunction := by
    simp only [Scopes.enclosingFunction, hfunction, ← hchain]
    rfl
  rw [Lift.owner?, Lift.owner?, henclosing]
  congr 1
  funext j
  have hj := hkinds j
  cases hs : s.records[j]? <;> cases hq : (s.queue i item).records[j]? <;> simp_all

/-! ## Steps of a compilation -/

namespace Lower

variable {c : LoweringSetting} {t : Lowering} {f : Frame Stmt} {fs : List (Frame Stmt)}

theorem options_bind (next : Options → Lower α) :
    (options >>= next) c t = next c.options c t :=
  rfl

theorem get_bind (next : Lowering → Lower α) : (MonadState.get >>= next) c t = next t c t :=
  rfl

/-- Closing a scope. -/
theorem closeScope_eq (ht : t.scopes.Ordered) (h : t.scopes.frames = f :: fs) :
    ∃ v, closeScope c t = ((), { t with scopes := v }) ∧ v.Ordered ∧ v.frames = fs := by
  obtain ⟨i, v, hpop, -, hordered, hframes, -⟩ := Scopes.frames_pop ht h
  refine ⟨v, ?_, hordered, hframes⟩
  change ((), { t with scopes := (t.scopes.pop?.map Prod.snd).getD t.scopes }) = _
  rw [hpop]
  rfl

/-- Closing the scope of a function gives what was queued on it. -/
theorem closeFunction_eq (ht : t.scopes.Ordered) (h : t.scopes.frames = f :: fs) :
    ∃ v, closeFunction c t = (f.queued, { t with scopes := v }) ∧ v.Ordered ∧ v.frames = fs := by
  obtain ⟨i, v, hpop, hqueued, -, -, hordered, hframes⟩ := Scopes.frames_pop ht h
  refine ⟨(v.take i).2, ?_, hordered, hframes⟩
  unfold closeFunction
  rw [get_bind, hpop, ← hqueued]
  rfl

end Lower

/-! ## Growing -/

/-- The frame `g` is the frame `f` with more queued. -/
structure Frame.Grows (f g : Frame α) : Prop where
  kind : g.kind = f.kind
  names : g.names = f.names
  queued : f.queued <+: g.queued

theorem Frame.Grows.refl (f : Frame α) : f.Grows f :=
  ⟨rfl, rfl, List.prefix_refl _⟩

theorem Frame.Grows.trans {f g k : Frame α} (hfg : f.Grows g) (hgk : g.Grows k) : f.Grows k :=
  ⟨hgk.kind.trans hfg.kind, hgk.names.trans hfg.names, hfg.queued.trans hgk.queued⟩

/-- Open scopes on which more has been queued. -/
def GrowsAll (fs gs : List (Frame α)) : Prop :=
  List.Forall₂ Frame.Grows fs gs

theorem GrowsAll.refl (fs : List (Frame α)) : GrowsAll fs fs :=
  List.forall₂_same.mpr fun f _ => .refl f

theorem GrowsAll.trans {fs gs ks : List (Frame α)} (hfg : GrowsAll fs gs) (hgk : GrowsAll gs ks) :
    GrowsAll fs ks :=
  forall₂_trans .trans hfg hgk

/-- Queuing on one frame. -/
theorem GrowsAll.queue (inner outer : List (Frame α)) (f : Frame α) (item : α) :
    GrowsAll (inner ++ f :: outer)
      (inner ++ { f with queued := f.queued ++ [item] } :: outer) := by
  induction inner with
  | nil => exact .cons ⟨rfl, rfl, List.prefix_append _ _⟩ (GrowsAll.refl outer)
  | cons g inner ih => exact .cons (.refl g) ih

/-- The frame of a scope that has been opened, and those around it. -/
theorem GrowsAll.cons_inv {f : Frame α} {fs gs : List (Frame α)} (h : GrowsAll (f :: fs) gs) :
    ∃ g ks, gs = g :: ks ∧ f.Grows g ∧ GrowsAll fs ks := by
  cases h with
  | cons hhead htail => exact ⟨_, _, rfl, hhead, htail⟩

end JsxDialect
