import JsxDialect.Proofs.Contents
import JsxDialect.Proofs.Opening
import JsxDialect.Proofs.Quiet
import Mathlib.Data.List.Nodup
import Mathlib.Data.List.Perm.Basic

/-!
# What the walk keeps, function by function

A value that is kept on the instance leaves the attribute at one time and comes back at another: its
statement is queued while the walk is deep inside a method, and stands at the top of the method when
the walk has left it. To say that nothing is lost on the way, the steps of the walk are read as
*visits*: a value was kept, or a function was walked, with the visits inside it.

`Visits` says what the visits of a step are, by the way the step is put together, and `Cover` says
which functions are among them. `Accounts` says what they come to, in the scopes and in the header;
`Visits.accounts` proves it, by induction on the step, and what is said of each function that was
left is read off it.
-/

namespace JsxDialect

open Discipline (opened kept scopeNames)

/-! ## Visits -/

/-- A value that is kept on the instance: its slot, its kind, and the value with its place. -/
structure Kept where
  slot : String
  kind : Lift.Kind
  span : Span
  value : Expr

namespace Kept

/-- `const slot = Symbol(hint);`. -/
def declaration (k : Kept) : Stmt :=
  Build.declare .const k.slot
    (Build.call .none (.ident .none "Symbol") [.string .none k.kind.hint])

/-- `this[slot] = this[slot] || …;`. -/
def initializer (k : Kept) : Stmt :=
  Lift.initializer k.span k.slot k.kind k.value

end Kept

/-- The scope that a function opens. -/
def FunctionRole.scope : FunctionRole → ScopeKind
  | .arrow => .arrow
  | .plain => .function false
  | .method isStatic kind => Walk.methodScope isStatic kind

/-- What happened on the walk: a value was kept, or a function was walked. -/
inductive Visit where
  | keep (value : Kept)
  | function (role : FunctionRole) (source result : Func) (inside : List Visit)

/-- A function that the walk has left: what it was, what it became, and the values that were kept
for it. -/
structure Finished where
  role : FunctionRole
  source : Func
  result : Func
  kept : List Kept

/-- The function that the walk came to. -/
def Finished.origin (f : Finished) : FunctionRole × Func :=
  (f.role, f.source)

namespace Visit

mutual

/-- The values that were kept for the function around a visit. -/
def own : Visit → List Kept
  | .keep k => [k]
  | .function role _ _ inside => if role = .arrow then ownAll inside else []

/-- The values that were kept for the function around visits. -/
def ownAll : List Visit → List Kept
  | [] => []
  | v :: vs => v.own ++ ownAll vs

end

mutual

/-- All values that were kept. -/
def kept : Visit → List Kept
  | .keep k => [k]
  | .function _ _ _ inside => keptAll inside

/-- All values that were kept in visits. -/
def keptAll : List Visit → List Kept
  | [] => []
  | v :: vs => v.kept ++ keptAll vs

end

mutual

/-- The functions that the walk has left. -/
def finished : Visit → List Finished
  | .keep _ => []
  | .function role source result inside =>
    finishedAll inside ++ [⟨role, source, result, if role = .arrow then [] else ownAll inside⟩]

/-- The functions that the walk has left in visits. -/
def finishedAll : List Visit → List Finished
  | [] => []
  | v :: vs => v.finished ++ finishedAll vs

end

/-- The values for the function around visits one after the other. -/
@[simp] theorem ownAll_append (vs ws : List Visit) :
    ownAll (vs ++ ws) = ownAll vs ++ ownAll ws := by
  induction vs with
  | nil => rfl
  | cons v vs ih => rw [List.cons_append, ownAll, ih, ownAll, List.append_assoc]

/-- All values of visits one after the other. -/
@[simp] theorem keptAll_append (vs ws : List Visit) :
    keptAll (vs ++ ws) = keptAll vs ++ keptAll ws := by
  induction vs with
  | nil => rfl
  | cons v vs ih => rw [List.cons_append, keptAll, ih, keptAll, List.append_assoc]

/-- The functions that were left in visits one after the other. -/
@[simp] theorem finishedAll_append (vs ws : List Visit) :
    finishedAll (vs ++ ws) = finishedAll vs ++ finishedAll ws := by
  induction vs with
  | nil => rfl
  | cons v vs ih => rw [List.cons_append, finishedAll, ih, finishedAll, List.append_assoc]

/-! ## Whose the values are -/

mutual

/-- **Every value that is kept is kept for one function**: for the one around, or for one of those
that have been left. -/
theorem kept_perm (v : Visit) :
    List.Perm v.kept (v.own ++ v.finished.flatMap Finished.kept) := by
  cases v with
  | keep k => exact .refl _
  | function role source result inside =>
    have hinside := keptAll_perm inside
    simp only [kept, own, finished, List.flatMap_append, List.flatMap_singleton]
    split
    · simpa using hinside
    · exact (hinside.trans List.perm_append_comm).trans (by simp)

/-- **No value is lost or counted twice**: each is kept for the function around the visits or for
one that the walk has left. -/
theorem keptAll_perm (vs : List Visit) :
    List.Perm (keptAll vs) (ownAll vs ++ (finishedAll vs).flatMap Finished.kept) := by
  cases vs with
  | nil => exact .refl _
  | cons v vs =>
    have hboth := (kept_perm v).append (keptAll_perm vs)
    simp only [keptAll, ownAll, finishedAll, List.flatMap_append]
    refine hboth.trans ?_
    simp only [List.append_assoc]
    exact (List.perm_append_comm_assoc _ _ _).append_left _

end

mutual

/-- The values for the function around a visit are among those that were kept, in order. -/
theorem own_sublist (v : Visit) : List.Sublist v.own v.kept := by
  cases v with
  | keep k => exact .refl _
  | function role source result inside =>
    simp only [own, kept]
    split
    · exact ownAll_sublist inside
    · exact List.nil_sublist _

/-- The same for several visits. -/
theorem ownAll_sublist (vs : List Visit) : List.Sublist (ownAll vs) (keptAll vs) := by
  cases vs with
  | nil => exact .refl _
  | cons v vs => exact (own_sublist v).append (ownAll_sublist vs)

end

mutual

/-- The values for a function that was left are among those that were kept, in order. -/
theorem finished_sublist (v : Visit) {f : Finished} (hf : f ∈ v.finished) :
    List.Sublist f.kept v.kept := by
  cases v with
  | keep k => exact absurd hf List.not_mem_nil
  | function role source result inside =>
    simp only [finished, List.mem_append, List.mem_singleton] at hf
    rcases hf with hf | rfl
    · exact finishedAll_sublist inside hf
    · dsimp only
      split
      · exact List.nil_sublist _
      · exact ownAll_sublist inside

/-- The values of a function are in the order in which they were kept. -/
theorem finishedAll_sublist (vs : List Visit) {f : Finished} (hf : f ∈ finishedAll vs) :
    List.Sublist f.kept (keptAll vs) := by
  cases vs with
  | nil => exact absurd hf List.not_mem_nil
  | cons v vs =>
    rcases List.mem_append.mp hf with hf | hf
    · exact (finished_sublist v hf).trans (List.sublist_append_left _ _)
    · exact (finishedAll_sublist vs hf).trans (List.sublist_append_right _ _)

end

/-! ## Which functions there are -/

/-- The functions that the walk has left are some of those that are listed, and all of those outside
calls of the base constructor: a constructor that is given parameters has other calls put in their
place. -/
structure Cover (vs : List Visit) (fs : Bool → List (FunctionRole × Func)) : Prop where
  all : List.Sublist (fs false) ((finishedAll vs).map Finished.origin)
  only : List.Sublist ((finishedAll vs).map Finished.origin) (fs true)

theorem Cover.nil : Cover [] fun _ => [] :=
  ⟨.refl _, .refl _⟩

/-- Visits one after the other go through the functions of both. -/
theorem Cover.append {vs ws : List Visit} {fs gs : Bool → List (FunctionRole × Func)}
    (h : Cover vs fs) (h' : Cover ws gs) : Cover (vs ++ ws) fun b => fs b ++ gs b := by
  constructor
  · rw [finishedAll_append, List.map_append]
    exact h.all.append h'.all
  · rw [finishedAll_append, List.map_append]
    exact h.only.append h'.only

/-- A function is gone through after those inside it. -/
theorem Cover.function {vs : List Visit} {fs : Bool → List (FunctionRole × Func)} (h : Cover vs fs)
    (role : FunctionRole) (source result : Func) :
    Cover [.function role source result vs] fun b => fs b ++ [(role, source)] := by
  constructor
  · simpa [finishedAll, finished, Finished.origin] using h.all
  · simpa [finishedAll, finished, Finished.origin] using h.only

end Visit

/-! ## The visits of a step -/

/-- **The visits of a step** from a state, by the way the step is put together. -/
inductive Visits (c : LoweringSetting) : {α : Type} → Lowering → Lower α → List Visit → Prop
  /-- A step that leaves the scopes and the slots as they are visits nothing. -/
  | quiet {α : Type} {s : Lowering} {act : Lower α} :
      (act c s).2.scopes = s.scopes → s.header.KeepsSlots (act c s).2.header → Visits c s act []
  /-- One step after the other. -/
  | bind {α β : Type} {s : Lowering} {act : Lower α} {next : α → Lower β} {vs ws : List Visit} :
      Visits c s act vs → Visits c (act c s).2 (next (act c s).1) ws →
      Visits c s (act >>= next) (vs ++ ws)
  /-- The value of an attribute is kept, for the method that owns the place. -/
  | keep {s : Lowering} {owner : Nat} {span inside : Span} {name : AttrName} {e : Expr}
      {kind : Lift.Kind} :
      Lift.owner? s.scopes = some owner → Lift.kind? c.options e = some kind →
      Lift.isCaptureSafe s.scopes owner e = true →
      Visits c s (Lift.lowerAttr owner (.named span name (.container inside (some e))))
        [.keep ⟨(s.header.slot kind.hint).1, kind, inside, e⟩]
  /-- A step in a scope that is none of a function. -/
  | inside {α : Type} {s : Lowering} {kind : ScopeKind} {names : List String} {act : Lower α}
      {vs : List Visit} :
      kind.isFunction = false → Visits c (opened s kind names) act vs →
      Visits c s (Lower.inside kind names act) vs
  /-- A function is walked. Only constructors can be given parameters. -/
  | func {s : Lowering} {role : FunctionRole} {seesName givesParams : Bool} {f : Func}
      {vs : List Visit} :
      (givesParams = true → role.isConstructor = true) →
      Visits c (opened s role.scope (scopeNames seesName givesParams f)) (Walk.parts givesParams f)
        vs →
      Visits c s (Walk.func role.scope seesName givesParams f)
        [.function role f (Walk.func role.scope seesName givesParams f c s).1 vs]

/-! ## What visits come to in the header -/

namespace Header

/-- The header `h'` comes from `h` by making a slot for each of the values, in their order. -/
structure Gains (h h' : Header) (ks : List Kept) : Prop where
  slots : h'.slots = h.slots ++ ks.map Kept.declaration
  taken : h.taken ⊆ h'.taken
  mem : ∀ k ∈ ks, k.slot ∈ h'.taken
  notMem : ∀ k ∈ ks, k.slot ∉ h.taken
  nodup : (ks.map Kept.slot).Nodup

variable {h h' h'' : Header} {ks ls : List Kept}

/-- A header that keeps its slots gains none. -/
theorem KeepsSlots.gains (hk : h.KeepsSlots h') : h.Gains h' [] where
  slots := by rw [hk.slots, List.map_nil, List.append_nil]
  taken := hk.taken
  mem := fun _ hx => absurd hx List.not_mem_nil
  notMem := fun _ hx => absurd hx List.not_mem_nil
  nodup := List.nodup_nil

/-- Slots that are gained one after the other. -/
theorem Gains.append (hks : h.Gains h' ks) (hls : h'.Gains h'' ls) : h.Gains h'' (ks ++ ls) where
  slots := by rw [hls.slots, hks.slots, List.map_append, List.append_assoc]
  taken := List.Subset.trans hks.taken hls.taken
  mem k hk := by
    rcases List.mem_append.mp hk with hk | hk
    · exact hls.taken (hks.mem k hk)
    · exact hls.mem k hk
  notMem k hk := by
    rcases List.mem_append.mp hk with hk | hk
    · exact hks.notMem k hk
    · exact fun htaken => hls.notMem k hk (hks.taken htaken)
  nodup := by
    rw [List.map_append]
    refine hks.nodup.append hls.nodup fun x hx hx' => ?_
    obtain ⟨k, hk, rfl⟩ := List.mem_map.mp hx
    obtain ⟨l, hl, heq⟩ := List.mem_map.mp hx'
    -- The first values have taken their names before the later ones are made.
    exact hls.notMem l hl (heq ▸ hks.mem k hk)

/-- **A new slot** is the last one, and its name was not taken. -/
theorem gains_slot (h : Header) (kind : Lift.Kind) (span : Span) (e : Expr) :
    h.Gains (h.slot kind.hint).2 [⟨(h.slot kind.hint).1, kind, span, e⟩] where
  slots := List.filter_append _ _
  taken := List.subset_cons_self _ _
  mem k hk := by
    obtain rfl := List.mem_singleton.mp hk
    exact List.mem_cons_self
  notMem k hk := by
    obtain rfl := List.mem_singleton.mp hk
    exact freshName_notMem h kind.hint
  nodup := List.nodup_singleton _

end Header

/-! ## What visits come to in the scopes -/

namespace Frame

/-- The frames with further statements queued on the innermost function. -/
def queueOn (xs : List Stmt) : List (Frame Stmt) → List (Frame Stmt)
  | [] => []
  | f :: fs =>
    if f.kind.isFunction then { f with queued := f.queued ++ xs } :: fs else f :: queueOn xs fs

/-- The kind of the innermost function. -/
def innermost? : List (Frame Stmt) → Option ScopeKind
  | [] => none
  | f :: fs => if f.kind.isFunction then some f.kind else innermost? fs

variable {f : Frame Stmt} {fs : List (Frame Stmt)} {xs ys : List Stmt}

/-- A scope that is no function's is passed over. -/
theorem queueOn_cons (hf : f.kind.isFunction = false) :
    queueOn xs (f :: fs) = f :: queueOn xs fs := by
  rw [queueOn, hf]
  rfl

/-- The scope of the nearest function gets the statements after those it has. -/
theorem queueOn_cons_function (hf : f.kind.isFunction = true) :
    queueOn xs (f :: fs) = { f with queued := f.queued ++ xs } :: fs := by
  rw [queueOn, hf]
  rfl

theorem innermost?_cons (hf : f.kind.isFunction = false) :
    innermost? (f :: fs) = innermost? fs := by
  rw [innermost?, hf]
  rfl

theorem innermost?_cons_function (hf : f.kind.isFunction = true) :
    innermost? (f :: fs) = some f.kind := by
  rw [innermost?, hf]
  rfl

@[simp] theorem queueOn_nil (fs : List (Frame Stmt)) : queueOn [] fs = fs := by
  induction fs with
  | nil => rfl
  | cons f fs ih =>
    rw [queueOn, ih, List.append_nil]
    split <;> rfl

@[simp] theorem queueOn_queueOn (fs : List (Frame Stmt)) :
    queueOn ys (queueOn xs fs) = queueOn (xs ++ ys) fs := by
  induction fs with
  | nil => rfl
  | cons f fs ih =>
    cases hf : f.kind.isFunction with
    | false => rw [queueOn_cons hf, queueOn_cons hf, queueOn_cons hf, ih]
    | true =>
      rw [queueOn_cons_function hf, queueOn_cons_function hf, ← List.append_assoc]
      exact queueOn_cons_function (f := { f with queued := f.queued ++ xs }) hf

/-- Queueing does not change which function is the nearest. -/
@[simp] theorem innermost?_queueOn (fs : List (Frame Stmt)) :
    innermost? (queueOn xs fs) = innermost? fs := by
  induction fs with
  | nil => rfl
  | cons f fs ih =>
    cases hf : f.kind.isFunction with
    | false => rw [queueOn_cons hf, innermost?_cons hf, innermost?_cons hf, ih]
    | true =>
      rw [queueOn_cons_function hf, innermost?_cons_function hf]
      exact innermost?_cons_function (f := { f with queued := f.queued ++ xs }) hf

/-- The innermost function is the first frame of one. -/
theorem queueOn_split (xs : List Stmt) {inner : List (Frame Stmt)} (outer : List (Frame Stmt))
    (hinner : ∀ g ∈ inner, g.kind.isFunction = false) (hf : f.kind.isFunction = true) :
    queueOn xs (inner ++ f :: outer) = inner ++ { f with queued := f.queued ++ xs } :: outer
      ∧ innermost? (inner ++ f :: outer) = some f.kind := by
  induction inner with
  | nil => exact ⟨queueOn_cons_function hf, innermost?_cons_function hf⟩
  | cons g inner ih =>
    have hg := hinner g List.mem_cons_self
    obtain ⟨hqueue, hkind⟩ := ih fun k hk => hinner k (List.mem_cons_of_mem _ hk)
    exact ⟨(queueOn_cons hg).trans (congrArg (g :: ·) hqueue), (innermost?_cons hg).trans hkind⟩

end Frame

/-! ## Accounts -/

/-- What the walk makes of the statements of a function: it walks them, and in a constructor it may
also pass parameters on. -/
def Finished.IsWalked (c : LoweringSetting) (f : Finished) (xs ys : List Stmt) : Prop :=
  ∃ t, ys = (Walk.stmts xs c t).1 ∨ f.role.isConstructor = true ∧ ys = (Walk.forwarding xs c t).1

/-- **A function that has been left.** -/
structure Finished.IsSettled (c : LoweringSetting) (f : Finished) : Prop where
  /-- Values are kept only for methods of instances. -/
  method : f.kept ≠ [] → ∃ kind, f.role = .method false kind ∧ kind ≠ .constructor
  /-- The statements for the values come first in the body, in the order of the values. -/
  block : ∀ ds xs, f.source.body = .block ds xs →
    ∃ ys, f.result.body = .block ds (f.kept.map Kept.initializer ++ ys) ∧ f.IsWalked c xs ys
  /-- Nothing is added to what is no block. -/
  other : (∀ ds xs, f.source.body ≠ .block ds xs) →
    ∃ t, f.result.body = (Walk.body false f.source.body c t).1

/-- **What visits come to** between two states with the same scopes open: the statements for values
of the innermost function are queued on it, which is a method if there are any, a slot is declared
for every value, and the functions that were left are settled. -/
structure Accounts (c : LoweringSetting) (s t : Lowering) (vs : List Visit) : Prop where
  ordered : t.scopes.Ordered
  frames : t.scopes.frames
    = Frame.queueOn ((Visit.ownAll vs).map Kept.initializer) s.scopes.frames
  method : Visit.ownAll vs ≠ [] → Frame.innermost? s.scopes.frames = some (.function true)
  header : s.header.Gains t.header (Visit.keptAll vs)
  settled : ∀ f ∈ Visit.finishedAll vs, f.IsSettled c

variable {c : LoweringSetting} {s t u : Lowering} {vs ws : List Visit}

/-- What one walk and the next account for. -/
theorem Accounts.append (h : Accounts c s t vs) (h' : Accounts c t u ws) :
    Accounts c s u (vs ++ ws) where
  ordered := h'.ordered
  frames := by
    rw [h'.frames, h.frames, Frame.queueOn_queueOn, Visit.ownAll_append, List.map_append]
  method hne := by
    rw [Visit.ownAll_append] at hne
    by_cases hvs : Visit.ownAll vs = []
    · rw [hvs, List.nil_append] at hne
      rw [← Frame.innermost?_queueOn, ← h.frames]
      exact h'.method hne
    · exact h.method hvs
  header := by
    rw [Visit.keptAll_append]
    exact h.header.append h'.header
  settled f hf := by
    rw [Visit.finishedAll_append] at hf
    exact (List.mem_append.mp hf).elim (h.settled f) (h'.settled f)

/-- A quiet step accounts for nothing. -/
theorem Accounts.of_quiet (hs : s.scopes.Ordered) (hscopes : t.scopes = s.scopes)
    (hheader : s.header.KeepsSlots t.header) : Accounts c s t [] where
  ordered := hscopes ▸ hs
  frames := by rw [hscopes]; exact (Frame.queueOn_nil _).symm
  method hne := absurd rfl hne
  header := hheader.gains
  settled f hf := absurd hf List.not_mem_nil

/-- Keeping the value of an attribute. -/
theorem Lift.lowerAttr_eq {owner : Nat} {e : Expr} {kind : Lift.Kind}
    (hkind : Lift.kind? c.options e = some kind)
    (hsafe : Lift.isCaptureSafe s.scopes owner e = true) (span inside : Span) (name : AttrName) :
    Lift.lowerAttr owner (.named span name (.container inside (some e))) c s
      = (.named span name (.container inside
          (some (Lift.replacement inside (s.header.slot kind.hint).1 kind e))),
        kept s owner inside kind e) := by
  unfold Lift.lowerAttr
  dsimp only
  rw [Lower.options_bind, hkind]
  dsimp only
  rw [Lower.get_bind, hsafe]
  rfl

/-- **A value that is kept** has a new slot, and its statement is queued on its owner. -/
theorem Accounts.keep (hs : s.scopes.Ordered) {owner : Nat}
    (howner : Lift.owner? s.scopes = some owner) (kind : Lift.Kind) (span : Span) (e : Expr) :
    Accounts c s (kept s owner span kind e)
      [.keep ⟨(s.header.slot kind.hint).1, kind, span, e⟩] := by
  obtain ⟨inner, f, outer, hframes, hinner, hkind, hqueue, -⟩ := Lift.owner_frames hs howner
  obtain ⟨hordered, hqueued⟩ := hqueue (Lift.initializer span (s.header.slot kind.hint).1 kind e)
  have hfunction : f.kind.isFunction = true := by rw [hkind]; rfl
  have hsplit := Frame.queueOn_split
    [Lift.initializer span (s.header.slot kind.hint).1 kind e] outer hinner hfunction
  refine ⟨hordered, ?_, fun _ => ?_, s.header.gains_slot kind span e, fun g hg => ?_⟩
  · rw [hframes]
    exact hqueued.trans hsplit.1.symm
  · rw [hframes, hsplit.2, hkind]
  · exact absurd hg List.not_mem_nil

/-- Closing a scope that is none of a function. -/
theorem Accounts.inside (hs : s.scopes.Ordered) {kind : ScopeKind} {names : List String}
    (hkind : kind.isFunction = false) (h : Accounts c (opened s kind names) t vs) :
    Accounts c s (Lower.closeScope c t).2 vs := by
  have hpush : (opened s kind names).scopes.frames = ⟨kind, names, []⟩ :: s.scopes.frames :=
    Scopes.frames_push hs kind names
  have hframes := h.frames
  have hmethod := h.method
  rw [hpush, Frame.queueOn_cons hkind] at hframes
  rw [hpush, Frame.innermost?_cons hkind] at hmethod
  obtain ⟨v, hclose, hordered, hv⟩ := Lower.closeScope_eq (c := c) h.ordered hframes
  rw [hclose]
  exact ⟨hordered, hv, hmethod, h.header, h.settled⟩

/-- What is queued in a function that has just been opened is queued on its scope, and in an arrow
function on a scope further out. -/
theorem FunctionRole.queueOn_scope (role : FunctionRole) (names : List String) (xs : List Stmt)
    (fs : List (Frame Stmt)) :
    Frame.queueOn xs (⟨role.scope, names, []⟩ :: fs)
      = ⟨role.scope, names, if role = .arrow then [] else xs⟩
        :: Frame.queueOn (if role = .arrow then xs else []) fs := by
  cases role with
  | arrow => rfl
  | plain | method _ _ => exact congrArg (_ :: ·) (Frame.queueOn_nil fs).symm

/-- Every function but an arrow function opens the scope of one. -/
theorem FunctionRole.isFunction_scope {role : FunctionRole} (h : role ≠ .arrow) :
    role.scope.isFunction = true := by
  cases role with
  | arrow => exact absurd rfl h
  | plain | method _ _ => rfl

/-- Only methods of instances that are no constructors open the scope of a method. -/
theorem FunctionRole.eq_method {role : FunctionRole} (h : role.scope = .function true) :
    ∃ kind, role = .method false kind ∧ kind ≠ .constructor := by
  cases role with
  | arrow | plain => cases h
  | method isStatic kind =>
    have hboth : (!isStatic && kind != .constructor) = true := ScopeKind.function.inj h
    simp only [Bool.and_eq_true, Bool.not_eq_true', bne_iff_ne] at hboth
    exact ⟨kind, by rw [hboth.1], hboth.2⟩

theorem Func.body_withParts (ps : List Param) (rest : Option Pattern) (b : Body) (f : Func) :
    (f.withParts ps rest b).body = b := by
  cases f
  rfl

/-- A function is settled if its statements are put before what the walk made of its body. -/
theorem Finished.IsSettled.of_body {f : Finished}
    (hmethod : f.kept ≠ [] → ∃ kind, f.role = .method false kind ∧ kind ≠ .constructor)
    {givesParams : Bool} (hgives : givesParams = true → f.role.isConstructor = true)
    (hbody : f.result.body
      = (Walk.body givesParams f.source.body c t).1.prepend (f.kept.map Kept.initializer)) :
    f.IsSettled c := by
  refine ⟨hmethod, fun ds xs hblock => ?_, fun hother => ⟨t, ?_⟩⟩
  · rw [hblock] at hbody
    cases givesParams with
    | false => exact ⟨_, hbody, t, .inl rfl⟩
    | true => exact ⟨_, hbody, t, .inr ⟨hgives rfl, rfl⟩⟩
  · rw [hbody]
    cases hsource : f.source.body with
    | absent | expr _ => rfl
    | block ds xs => exact absurd hsource (hother ds xs)

/-- The walk of a function takes the statements off its scope and puts them into its body. -/
theorem Accounts.exists_result (hs : s.scopes.Ordered) {role : FunctionRole}
    {seesName givesParams : Bool} {f : Func} {parts : List Param × Option Pattern × Body}
    (hparts : Walk.parts givesParams f c (opened s role.scope (scopeNames seesName givesParams f))
      = (parts, t))
    (h : Accounts c (opened s role.scope (scopeNames seesName givesParams f)) t vs) :
    ∃ v result u, Walk.func role.scope seesName givesParams f c s
        = (result, { t with scopes := v }) ∧ v.Ordered
      ∧ v.frames = Frame.queueOn (if role = .arrow then (Visit.ownAll vs).map Kept.initializer
          else []) s.scopes.frames
      ∧ result.body = (Walk.body givesParams f.body c u).1.prepend
          (if role = .arrow then [] else (Visit.ownAll vs).map Kept.initializer) := by
  have hframes := h.frames
  have hpush : (opened s role.scope (scopeNames seesName givesParams f)).scopes.frames
      = ⟨role.scope, scopeNames seesName givesParams f, []⟩ :: s.scopes.frames :=
    Scopes.frames_push hs _ _
  rw [hpush, FunctionRole.queueOn_scope] at hframes
  obtain ⟨v, hclose, hordered, hv⟩ := Lower.closeFunction_eq (c := c) h.ordered hframes
  obtain ⟨u, hbody⟩ : ∃ u, parts.2.2 = (Walk.body givesParams f.body c u).1 := by
    cases f
    exact ⟨_, congrArg (·.1.2.2) hparts.symm⟩
  rw [Walk.func_eq]
  simp only [hparts, hclose]
  refine ⟨v, _, u, rfl, hordered, hv, ?_⟩
  rw [Func.body_withParts, hbody]

/-- **Leaving a function.** What was kept for it is queued on its scope, and nothing is if it is an
arrow function, in which it is queued on a function further out. -/
theorem Accounts.func (hs : s.scopes.Ordered) {role : FunctionRole} {seesName givesParams : Bool}
    {f : Func} (hgives : givesParams = true → role.isConstructor = true)
    (h : Accounts c (opened s role.scope (scopeNames seesName givesParams f))
      (Walk.parts givesParams f c (opened s role.scope (scopeNames seesName givesParams f))).2 vs) :
    Accounts c s (Walk.func role.scope seesName givesParams f c s).2
      [.function role f (Walk.func role.scope seesName givesParams f c s).1 vs] := by
  obtain ⟨⟨parts, t⟩, hparts⟩ : ∃ r, Walk.parts givesParams f c
      (opened s role.scope (scopeNames seesName givesParams f)) = r := ⟨_, rfl⟩
  rw [hparts] at h
  obtain ⟨v, result, u, hfunc, hordered, hv, hbody⟩ := h.exists_result hs hparts
  have hpush : (opened s role.scope (scopeNames seesName givesParams f)).scopes.frames
      = ⟨role.scope, scopeNames seesName givesParams f, []⟩ :: s.scopes.frames :=
    Scopes.frames_push hs _ _
  have hmethod := h.method
  rw [hpush] at hmethod
  have hmap := apply_ite (List.map Kept.initializer)
  rw [hfunc]
  refine ⟨hordered, ?_, fun hne => ?_, ?_, fun k hk => ?_⟩
  · simpa only [Visit.ownAll, Visit.own, List.append_nil, hmap, List.map_nil] using hv
  · -- Only an arrow function leaves values to a function further out.
    by_cases hrole : role = .arrow
    · subst hrole
      rw [Frame.innermost?_cons rfl] at hmethod
      exact hmethod (by simpa [Visit.ownAll, Visit.own] using hne)
    · exact absurd (by simp [Visit.ownAll, Visit.own, hrole]) hne
  · have hheader : s.header.Gains t.header (Visit.keptAll vs) := h.header
    simpa only [Visit.keptAll, Visit.kept, List.append_nil] using hheader
  · simp only [Visit.finishedAll, Visit.finished, List.append_nil, List.mem_append,
      List.mem_singleton] at hk
    rcases hk with hk | rfl
    · exact h.settled k hk
    refine .of_body (fun hne => ?_) hgives (t := u) ?_
    · have hrole : role ≠ .arrow := fun hrole => hne (if_pos hrole)
      rw [Frame.innermost?_cons_function (FunctionRole.isFunction_scope hrole)] at hmethod
      exact FunctionRole.eq_method (Option.some.inj (hmethod (by simpa [hrole] using hne)))
    · simpa only [hmap, List.map_nil] using hbody

/-- **Every visit is accounted for.** -/
theorem Visits.accounts {α : Type} {act : Lower α} (h : Visits c s act vs)
    (hs : s.scopes.Ordered) : Accounts c s (act c s).2 vs := by
  induction h with
  | quiet hscopes hheader => exact .of_quiet hs hscopes hheader
  | bind _ _ ih ih' =>
    have hfirst := ih hs
    exact hfirst.append (ih' hfirst.ordered)
  | keep howner hkind hsafe =>
    rw [Lift.lowerAttr_eq hkind hsafe]
    exact .keep hs howner _ _ _
  | inside hkind _ ih => exact .inside hs hkind (ih (hs.push _ _))
  | func hgives _ ih => exact .func hs hgives (ih (hs.push _ _))

end JsxDialect
