import JsxDialect.Proofs.Visits
import Mathlib.Data.List.Forall2
import Mathlib.Logic.Function.Basic

/-!
# Objects that are kept on the instance

An object literal in an attribute of a method is replaced: the instance keeps one object, and each
time the attribute is evaluated, the properties of the literal are assigned to that object, which is
passed on in place of the literal. `render` runs the two pieces of code that stand for the literal,
on an object that is kept from one run of the method to the next.

Assigning a property reads its value, and never removes another property. So the object has what the
literal would have on every run exactly if no run gives the literal an accessor or leaves out a key
that an earlier run had (`lowerAttr_object_agrees_iff`). Both can happen: a literal is kept whatever
its members are, as long as they are no spreads.
-/

namespace JsxDialect.Lift

/-! ## Properties -/

/-- The key of a property while a module runs. -/
inductive PropertyKey where
  | name (text : String)
  | symbol (id : Nat)
deriving Repr, DecidableEq

/-- The key that stands for the prototype of an object. -/
def prototypeKey : PropertyKey :=
  .name "__proto__"

/-- What is needed of values: the one that stands for nothing, and those that can be prototypes. -/
structure Values (V : Type) where
  undefined : V
  isPrototype : V → Bool

/-- An own property: a value, or an accessor with what its getter gives, if it has one. -/
inductive Own (V : Type) where
  | data (value : V)
  | accessor (result : Option V)

/-- What a member of a literal does to the property of its key. -/
inductive Definition (V : Type) where
  | value (value : V)
  | getter (result : V)
  | setter

/-- The members of a literal as they are evaluated, in order. -/
abbrev Members (V : Type) := List (PropertyKey × Definition V)

/-- The own properties of an object that only ever was assigned to. -/
abbrev Kept (V : Type) := PropertyKey → Option V

variable {V : Type}

/-- Whether a property is no accessor. -/
def Own.isData : Own V → Bool
  | .data _ => true
  | .accessor _ => false

/-- The value that reading a property gives. -/
def Own.read (J : Values V) : Own V → V
  | .data v => v
  | .accessor result => result.getD J.undefined

/-- The property after a definition. A setter goes with the getter that is there. -/
def Definition.onto : Definition V → Option (Own V) → Own V
  | .value v, _ => .data v
  | .getter v, _ => .accessor (some v)
  | .setter, some (.accessor result) => .accessor result
  | .setter, _ => .accessor none

/-- The own properties after one more member. -/
def define (own : PropertyKey → Option (Own V)) (m : PropertyKey × Definition V) :
    PropertyKey → Option (Own V) :=
  Function.update own m.1 (some (m.2.onto (own m.1)))

/-- **The own properties of a literal.** -/
def ownOf (ms : Members V) : PropertyKey → Option (Own V) :=
  ms.foldl define fun _ => none

/-- The object after a value is assigned to a key. Under the key for the prototype nothing is made
of a value that cannot be one. If the value can be one, the object has another prototype from then
on, and what further assignments do is up to that. -/
def assign? (J : Values V) (o : Kept V) (k : PropertyKey) (v : V) : Option (Kept V) :=
  if k = prototypeKey ∧ o k = none then if J.isPrototype v then none else some o
  else some (Function.update o k (some v))

/-- The object after the properties under some keys are assigned to it. -/
def assignKeys? (J : Values V) (own : PropertyKey → Option (Own V)) :
    List PropertyKey → Kept V → Option (Kept V)
  | [], o => some o
  | k :: ks, o =>
    match own k with
    | none => assignKeys? J own ks o
    | some p => (assign? J o k (p.read J)).bind (assignKeys? J own ks)

/-- `Object.assign(object, literal)`: all own properties of the literal, each one once. -/
def assignAll? (J : Values V) (ms : Members V) (o : Kept V) : Option (Kept V) :=
  assignKeys? J (ownOf ms) (ms.map Prod.fst).eraseDups o

/-! ## Running the code that is made -/

/-- What an expression evaluates to: nothing, the object that the instance keeps, or an object that
was just made. -/
inductive Value (V : Type) where
  | undefined
  | kept
  | made (members : Members V)

/-- What evaluating an expression comes to: its value, and the object that is kept in the slot. -/
abbrev Outcome (V : Type) := Option (Value V × Option (Kept V))

/-- `left || right`. -/
def Outcome.orElse (right : Option (Kept V) → Outcome V) : Outcome V → Outcome V
  | some (.undefined, kept) => right kept
  | left => left

/-- `slot = right`: the slot keeps a new object, or the one that it has. -/
def Outcome.stored : Outcome V → Outcome V
  | some (.made [], _) => some (.kept, some fun _ => none)
  | some (.kept, kept) => some (.kept, kept)
  | _ => none

/-- `Object.assign(target, source)`, where the target is the object that is kept. -/
def Outcome.assign (J : Values V) (source : Option (Kept V) → Outcome V) : Outcome V → Outcome V
  | some (.kept, kept) =>
    match source kept with
    | some (.made members, some o) => (assignAll? J members o).map fun o => (.kept, some o)
    | _ => none
  | _ => none

/-- The outcome of an expression of the kinds that stand for a literal. The literal itself evaluates
to the given members. -/
def eval (J : Values V) (slot : String) (literal : Members V) :
    Expr → Option (Kept V) → Outcome V
  | .paren _ e, kept => eval J slot literal e kept
  | .typed _ _ e _, kept => eval J slot literal e kept
  | .nonNull _ e, kept => eval J slot literal e kept
  | .object _ [], kept => some (.made [], kept)
  | .object _ (_ :: _), kept => some (.made literal, kept)
  | .index _ (.this _) (.ident _ name) _, kept =>
    if name = slot then some (if kept.isSome then .kept else .undefined, kept) else none
  | .logical _ .or left right, kept =>
    (eval J slot literal left kept).orElse (eval J slot literal right)
  | .assign _ .set (.target (.index _ (.this _) (.ident _ name) _)) right, kept =>
    if name = slot then (eval J slot literal right kept).stored else none
  | .call _ (.member _ (.ident _ "Object") "assign" _) [target, source] _, kept =>
    (eval J slot literal target kept).assign J (eval J slot literal source)
  | _, _ => none

/-- The object that is kept after a statement. -/
def exec (J : Values V) (slot : String) (literal : Members V) :
    Stmt → Option (Kept V) → Option (Option (Kept V))
  | .expr e, kept => (eval J slot literal e kept).map Prod.snd
  | _, _ => none

/-- **One run of a method**: its first statement, and later an attribute. It gives the object that
is passed on, which the instance keeps. -/
def render (J : Values V) (slot : String) (first : Stmt) (passed : Expr) (literal : Members V)
    (kept : Option (Kept V)) : Option (Kept V) :=
  match (exec J slot literal first kept).bind (eval J slot literal passed) with
  | some (.kept, some o) => some o
  | _ => none

/-- The objects that are passed on in runs of a method, one after the other. -/
def renders (J : Values V) (slot : String) (first : Stmt) (passed : Expr) :
    Option (Kept V) → List (Members V) → Option (List (Kept V))
  | _, [] => some []
  | kept, ms :: rest =>
    (render J slot first passed ms kept).bind fun o =>
      (renders J slot first passed (some o) rest).map (o :: ·)

section Code

variable (J : Values V) (slot : String) (literal : Members V)

theorem eval_thisSlot (span : Span) (kept : Option (Kept V)) :
    eval J slot literal (Build.thisSlot span slot) kept
      = some (if kept.isSome then .kept else .undefined, kept) :=
  if_pos rfl

theorem exec_initializer (span : Span) (e : Expr) (kept : Option (Kept V)) :
    exec J slot literal (initializer span slot .object e) kept
      = some (some (kept.getD fun _ => none)) := by
  have hset : exec J slot literal (initializer span slot .object e) kept
      = (if slot = slot then ((eval J slot literal (Build.thisSlot span slot) kept).orElse
          (eval J slot literal (.object span []))).stored else none).map Prod.snd := rfl
  rw [hset, if_pos rfl, eval_thisSlot]
  cases kept <;> rfl

theorem eval_literal {e : Expr} {span : Span} {p : Property} {ps : List Property}
    (h : e.inner = .object span (p :: ps)) (kept : Option (Kept V)) :
    eval J slot literal e kept = some (.made literal, kept) := by
  fun_induction Expr.inner e with
  | case1 _ e ih => exact ih h
  | case2 _ _ e _ ih => exact ih h
  | case3 _ e ih => exact ih h
  | case4 e =>
    subst h
    rfl

theorem eval_replacement {e : Expr} {span : Span} {p : Property} {ps : List Property}
    (h : e.inner = .object span (p :: ps)) (inside : Span) (o : Kept V) :
    eval J slot literal (replacement inside slot .object e) (some o)
      = (assignAll? J literal o).map fun o => (.kept, some o) := by
  have hcall : eval J slot literal (replacement inside slot .object e) (some o)
      = (eval J slot literal (Build.thisSlot inside slot) (some o)).assign J
          (eval J slot literal e) := rfl
  rw [hcall, eval_thisSlot, Option.isSome_some, if_pos rfl, Outcome.assign,
    eval_literal J slot literal h]

/-- A run assigns the literal to the object that is kept, or to a new one. -/
theorem render_eq {e : Expr} {span : Span} {p : Property} {ps : List Property}
    (h : e.inner = .object span (p :: ps)) (inside : Span) (kept : Option (Kept V)) :
    render J slot (initializer inside slot .object e) (replacement inside slot .object e) literal
        kept
      = assignAll? J literal (kept.getD fun _ => none) := by
  rw [render, exec_initializer, Option.bind_some, eval_replacement J slot literal h]
  cases assignAll? J literal (kept.getD fun _ => none) <;> rfl

end Code

/-! ## What is assigned -/

theorem foldl_define_eq_none_iff {own : PropertyKey → Option (Own V)} {ms : Members V}
    {k : PropertyKey} : ms.foldl define own k = none ↔ own k = none ∧ k ∉ ms.map Prod.fst := by
  induction ms generalizing own with
  | nil => simp
  | cons m ms ih =>
    rw [List.foldl_cons, ih, define, List.map_cons, List.mem_cons, not_or]
    by_cases hk : k = m.1
    · subst hk
      simp
    · simp [hk]

theorem ownOf_eq_none_iff {ms : Members V} {k : PropertyKey} :
    ownOf ms k = none ↔ k ∉ ms.map Prod.fst := by
  rw [ownOf, foldl_define_eq_none_iff]
  simp

/-- The object after the own properties of a literal are assigned to it. -/
def assigned (J : Values V) (ms : Members V) (o : Kept V) : Kept V := fun k =>
  if k = prototypeKey then none else ((ownOf ms k).map (Own.read J)).or (o k)

/-- Whether the literal has nothing that the object would take for its prototype. -/
def LeavesPrototype (J : Values V) (ms : Members V) : Prop :=
  ∀ p, ownOf ms prototypeKey = some p → J.isPrototype (p.read J) = false

theorem assignKeys?_eq {J : Values V} {own : PropertyKey → Option (Own V)}
    (hown : ∀ p, own prototypeKey = some p → J.isPrototype (p.read J) = false)
    (ks : List PropertyKey) {o : Kept V} (ho : o prototypeKey = none) :
    assignKeys? J own ks o = some fun k =>
      if k ∈ ks ∧ k ≠ prototypeKey then ((own k).map (Own.read J)).or (o k) else o k := by
  induction ks generalizing o with
  | nil => simp [assignKeys?]
  | cons k ks ih =>
    cases hk : own k with
    | none =>
      simp only [assignKeys?, hk, ih ho]
      refine congrArg some (funext fun k' => ?_)
      by_cases hkk : k' = k
      · subst hkk
        simp [hk]
      · simp [hkk]
    | some p =>
      simp only [assignKeys?, hk]
      by_cases hproto : k = prototypeKey
      · subst hproto
        -- A value that cannot be a prototype is assigned to its key in vain.
        rw [assign?, if_pos ⟨rfl, ho⟩, hown p hk, if_neg Bool.false_ne_true, Option.bind_some,
          ih ho]
        refine congrArg some (funext fun k' => ?_)
        by_cases hkk : k' = prototypeKey <;> simp [hkk]
      · have ho' : Function.update o k (some (p.read J)) prototypeKey = none := by
          rw [Function.update_of_ne (Ne.symm hproto), ho]
        rw [assign?, if_neg fun h => hproto h.1, Option.bind_some, ih ho']
        refine congrArg some (funext fun k' => ?_)
        by_cases hkk : k' = k
        · subst hkk
          simp [hk, hproto]
        · simp [hkk]

/-- **Assigning a literal** replaces what it has and leaves the rest. -/
theorem assignAll?_eq {J : Values V} {ms : Members V} (hms : LeavesPrototype J ms) {o : Kept V}
    (ho : o prototypeKey = none) : assignAll? J ms o = some (assigned J ms o) := by
  rw [assignAll?, assignKeys?_eq hms _ ho]
  refine congrArg some (funext fun k => ?_)
  by_cases hk : k = prototypeKey
  · simp [assigned, hk, ho]
  · by_cases hmem : k ∈ ms.map Prod.fst
    · simp only [assigned, List.mem_eraseDups, hmem, hk, ne_eq, not_false_eq_true, and_self,
        if_true, if_false]
    · simp only [assigned, List.mem_eraseDups, hmem, hk, false_and, if_false,
        ownOf_eq_none_iff.mpr hmem, Option.map_none, Option.none_or]

theorem assignKeys?_eq_none {J : Values V} {own : PropertyKey → Option (Own V)} {p : Own V}
    (hown : own prototypeKey = some p) (hp : J.isPrototype (p.read J) = true)
    {ks : List PropertyKey} (hks : prototypeKey ∈ ks) {o : Kept V} (ho : o prototypeKey = none) :
    assignKeys? J own ks o = none := by
  induction ks generalizing o with
  | nil => cases hks
  | cons k ks ih =>
    by_cases hproto : k = prototypeKey
    · subst hproto
      simp [assignKeys?, hown, assign?, ho, hp]
    · have hrest : prototypeKey ∈ ks := (List.mem_cons.mp hks).resolve_left (Ne.symm hproto)
      cases hk : own k with
      | none => simp only [assignKeys?, hk, ih hrest ho]
      | some q =>
        have ho' : Function.update o k (some (q.read J)) prototypeKey = none := by
          rw [Function.update_of_ne (Ne.symm hproto), ho]
        simp only [assignKeys?, hk]
        rw [assign?, if_neg fun h => hproto h.1, Option.bind_some, ih hrest ho']

theorem assignAll?_eq_none {J : Values V} {ms : Members V} (hms : ¬LeavesPrototype J ms)
    {o : Kept V} (ho : o prototypeKey = none) : assignAll? J ms o = none := by
  obtain ⟨p, hown, hp⟩ : ∃ p, ownOf ms prototypeKey = some p ∧ J.isPrototype (p.read J) = true := by
    simpa [LeavesPrototype] using hms
  have hmem : prototypeKey ∈ ms.map Prod.fst := by
    refine by_contra fun hmem => ?_
    rw [ownOf_eq_none_iff.mpr hmem] at hown
    cases hown
  exact assignKeys?_eq_none hown hp (List.mem_eraseDups.mpr hmem) ho

theorem assigned_prototypeKey (J : Values V) (ms : Members V) (o : Kept V) :
    assigned J ms o prototypeKey = none :=
  if_pos rfl

/-! ## One run -/

/-- Whether the object has the same own properties as a literal, of the same kinds: the object has
no accessors. -/
def SameKinds (own : PropertyKey → Option (Own V)) (o : Kept V) : Prop :=
  ∀ k, (own k).map Own.isData = (o k).map fun _ => true

/-- Whether the object has the same own properties as a literal, with the same values. -/
def SameProperties (own : PropertyKey → Option (Own V)) (o : Kept V) : Prop :=
  ∀ k, own k = (o k).map Own.data

/-- Whether a literal has no accessors, and no property under the key for the prototype. -/
def IsPlain (ms : Members V) : Prop :=
  ownOf ms prototypeKey = none ∧ ∀ k p, ownOf ms k = some p → p.isData = true

/-- Whether all keys of a literal are keys of another one. -/
def KeysKept (ms ms' : Members V) : Prop :=
  ∀ k, ownOf ms k ≠ none → ownOf ms' k ≠ none

/-- Whether the literals of all runs are plain, and none leaves out a key of an earlier run. -/
def Steady (rs : List (Members V)) : Prop :=
  (∀ ms ∈ rs, IsPlain ms) ∧ rs.Pairwise KeysKept

theorem IsPlain.leavesPrototype {ms : Members V} (h : IsPlain ms) (J : Values V) :
    LeavesPrototype J ms := by
  intro p hp
  rw [h.1] at hp
  cases hp

theorem SameProperties.sameKinds {own : PropertyKey → Option (Own V)} {o : Kept V}
    (h : SameProperties own o) : SameKinds own o := by
  intro k
  rw [h k]
  cases o k <;> rfl

theorem sameProperties_assigned {J : Values V} {ms : Members V} {o : Kept V} (hms : IsPlain ms)
    (hkeys : ∀ k, o k ≠ none → ownOf ms k ≠ none) :
    SameProperties (ownOf ms) (assigned J ms o) := by
  intro k
  rw [assigned]
  split
  case isTrue hk => rw [hk, hms.1]; rfl
  case isFalse hk =>
    cases hown : ownOf ms k with
    | none =>
      have ho : o k = none := by_contra fun ho => hkeys k ho hown
      rw [ho]
      rfl
    | some p =>
      cases p with
      | data v => rfl
      | accessor r => cases hms.2 k _ hown

/-- **After one run** the object has what the literal has exactly if the literal is plain and has
all keys that the object had. -/
theorem sameKinds_assigned_iff {J : Values V} {ms : Members V} {o : Kept V}
    (ho : o prototypeKey = none) :
    SameKinds (ownOf ms) (assigned J ms o)
      ↔ IsPlain ms ∧ ∀ k, o k ≠ none → ownOf ms k ≠ none := by
  refine ⟨fun h => ?_, fun h => (sameProperties_assigned h.1 h.2).sameKinds⟩
  have hproto : ownOf ms prototypeKey = none := by
    have hkind := h prototypeKey
    rw [assigned_prototypeKey] at hkind
    exact Option.map_eq_none_iff.mp hkind
  have hne : ∀ {k p}, ownOf ms k = some p → k ≠ prototypeKey := by
    rintro k p hk rfl
    rw [hproto] at hk
    cases hk
  refine ⟨⟨hproto, fun k p hk => ?_⟩, fun k hk hown => ?_⟩
  · have hkind := h k
    rw [assigned, if_neg (hne hk), hk] at hkind
    exact Option.some.inj hkind
  · have hkind := h k
    have hkey : k ≠ prototypeKey := by
      rintro rfl
      exact hk ho
    rw [assigned, if_neg hkey, hown] at hkind
    exact hk (Option.map_eq_none_iff.mp hkind.symm)

/-! ## All runs -/

/-- The objects that are passed on, from an object that is kept. -/
def passed (J : Values V) : Kept V → List (Members V) → List (Kept V)
  | _, [] => []
  | o, ms :: rest => assigned J ms o :: passed J (assigned J ms o) rest

/-- The objects that are passed on are those after the assignments. There are none if a literal
would change the prototype. -/
theorem renders_eq_some_iff {J : Values V} {e : Expr} {span : Span} {p : Property}
    {ps : List Property} (h : e.inner = .object span (p :: ps)) (slot : String) (inside : Span)
    {rs : List (Members V)} {objects : List (Kept V)} {kept : Option (Kept V)}
    (hkept : kept.getD (fun _ => none) prototypeKey = none) :
    renders J slot (initializer inside slot .object e) (replacement inside slot .object e) kept rs
        = some objects
      ↔ (∀ ms ∈ rs, LeavesPrototype J ms) ∧ objects = passed J (kept.getD fun _ => none) rs := by
  induction rs generalizing kept objects with
  | nil => simp [renders, passed, eq_comm]
  | cons ms rs ih =>
    rw [renders, render_eq J slot ms h, List.forall_mem_cons]
    by_cases hms : LeavesPrototype J ms
    · have hnext : (some (assigned J ms (kept.getD fun _ => none))).getD (fun _ => none)
          prototypeKey = none := assigned_prototypeKey J ms _
      rw [assignAll?_eq hms hkept, Option.bind_some, Option.map_eq_some_iff]
      simp only [ih hnext, hms, true_and]
      constructor
      · rintro ⟨rest, ⟨hrest, rfl⟩, rfl⟩
        exact ⟨hrest, rfl⟩
      · rintro ⟨hrest, rfl⟩
        exact ⟨_, ⟨hrest, rfl⟩, rfl⟩
    · simp [assignAll?_eq_none hms hkept, hms]

/-- **After every run.** By induction on the runs: the keys of the object after a run that agrees
are those of the literal. -/
theorem forall₂_sameKinds_iff {J : Values V} {o : Kept V} (ho : o prototypeKey = none)
    (rs : List (Members V)) :
    List.Forall₂ (fun ms o' => SameKinds (ownOf ms) o') rs (passed J o rs)
      ↔ (∀ ms ∈ rs, IsPlain ms ∧ ∀ k, o k ≠ none → ownOf ms k ≠ none)
        ∧ rs.Pairwise KeysKept := by
  induction rs generalizing o with
  | nil => simp [passed]
  | cons ms rs ih =>
    rw [passed, List.forall₂_cons, ih (assigned_prototypeKey J ms o), List.forall_mem_cons,
      List.pairwise_cons]
    constructor
    · rintro ⟨hkinds, hrest, hpairs⟩
      obtain ⟨hplain, hcovers⟩ := (sameKinds_assigned_iff ho).mp hkinds
      have hkeys : ∀ k, assigned J ms o k ≠ none ↔ ownOf ms k ≠ none := fun k => by
        rw [sameProperties_assigned (J := J) hplain hcovers k, ne_eq, ne_eq,
          Option.map_eq_none_iff]
      have hkept : ∀ ms' ∈ rs, KeysKept ms ms' := fun ms' hms' k hk =>
        (hrest ms' hms').2 k ((hkeys k).mpr hk)
      exact ⟨⟨⟨hplain, hcovers⟩, fun ms' hms' =>
        ⟨(hrest ms' hms').1, fun k hk => hkept ms' hms' k (hcovers k hk)⟩⟩, hkept, hpairs⟩
    · rintro ⟨⟨⟨hplain, hcovers⟩, hrest⟩, hkept, hpairs⟩
      refine ⟨(sameKinds_assigned_iff ho).mpr ⟨hplain, hcovers⟩, fun ms' hms' =>
        ⟨(hrest ms' hms').1, fun k hk => hkept ms' hms' k ?_⟩, hpairs⟩
      rw [sameProperties_assigned (J := J) hplain hcovers k, ne_eq, Option.map_eq_none_iff]
      exact hk

theorem forall₂_sameProperties {J : Values V} {o : Kept V} (ho : o prototypeKey = none)
    {rs : List (Members V)}
    (h : List.Forall₂ (fun ms o' => SameKinds (ownOf ms) o') rs (passed J o rs)) :
    List.Forall₂ (fun ms o' => SameProperties (ownOf ms) o') rs (passed J o rs) := by
  induction rs generalizing o with
  | nil => exact .nil
  | cons ms rs ih =>
    obtain ⟨hkinds, hrest⟩ := List.forall₂_cons.mp h
    obtain ⟨hplain, hcovers⟩ := (sameKinds_assigned_iff ho).mp hkinds
    exact .cons (sameProperties_assigned hplain hcovers) (ih (assigned_prototypeKey J ms o) hrest)

/-- Whether every run of a method passes on an object that is related to its literal. -/
def RendersAs (R : (PropertyKey → Option (Own V)) → Kept V → Prop) (J : Values V) (slot : String)
    (first : Stmt) (passed : Expr) (rs : List (Members V)) : Prop :=
  ∃ objects, renders J slot first passed none rs = some objects
    ∧ List.Forall₂ (fun ms o => R (ownOf ms) o) rs objects

section Agree

variable {e : Expr} {span : Span} {p : Property} {ps : List Property}
  (h : e.inner = .object span (p :: ps)) (J : Values V) (slot : String) (inside : Span)
  (rs : List (Members V))
include h

theorem renders_eq (hleaves : ∀ ms ∈ rs, LeavesPrototype J ms) :
    renders J slot (initializer inside slot .object e) (replacement inside slot .object e) none rs
      = some (passed J (fun _ => none) rs) :=
  (renders_eq_some_iff h slot inside rfl).mpr ⟨hleaves, rfl⟩

theorem rendersAs_sameKinds_iff :
    RendersAs SameKinds J slot (initializer inside slot .object e)
      (replacement inside slot .object e) rs ↔ Steady rs := by
  have hkinds : List.Forall₂ (fun ms o => SameKinds (ownOf ms) o) rs (passed J (fun _ => none) rs)
      ↔ Steady rs := by
    rw [forall₂_sameKinds_iff rfl]
    simp [Steady]
  constructor
  · rintro ⟨objects, hobjects, hagree⟩
    obtain ⟨-, rfl⟩ := (renders_eq_some_iff h slot inside rfl).mp hobjects
    exact hkinds.mp hagree
  · intro hsteady
    have hleaves : ∀ ms ∈ rs, LeavesPrototype J ms := fun ms hms =>
      (hsteady.1 ms hms).leavesPrototype J
    exact ⟨_, renders_eq h J slot inside rs hleaves, hkinds.mpr hsteady⟩

theorem rendersAs_sameProperties (hsteady : Steady rs) :
    RendersAs SameProperties J slot (initializer inside slot .object e)
      (replacement inside slot .object e) rs := by
  obtain ⟨objects, hobjects, hagree⟩ := (rendersAs_sameKinds_iff h J slot inside rs).mpr hsteady
  refine ⟨objects, hobjects, ?_⟩
  obtain ⟨-, rfl⟩ := (renders_eq_some_iff h slot inside rfl).mp hobjects
  exact forall₂_sameProperties rfl hagree

end Agree

/-! ## Literals as they are written -/

/-- The value of a big integer, which ends with an `n`. -/
def bigintValue (raw : String) : Nat :=
  match raw.toList.dropLast with
  | '0' :: 'x' :: ds | '0' :: 'X' :: ds => Token.digitsValue 16 ds
  | '0' :: 'o' :: ds | '0' :: 'O' :: ds => Token.digitsValue 8 ds
  | '0' :: 'b' :: ds | '0' :: 'B' :: ds => Token.digitsValue 2 ds
  | ds => Token.digitsValue 10 ds

/-- The key that a name of a member stands for, if it is no computed one. -/
def fixedKey? : Key → Option PropertyKey
  | .ident name => some (.name name)
  | .string value => some (.name value)
  | .number value => some (.name (String.ofList value.toText))
  | .bigint raw => some (.name (toString (bigintValue raw)))
  | .privateName _ => none
  | .computed _ => none

/-- What a key can evaluate to: a computed one to anything. -/
inductive Names : Key → PropertyKey → Prop
  | fixed {key : Key} {k : PropertyKey} : fixedKey? key = some k → Names key k
  | computed (e : Expr) (k : PropertyKey) : Names (.computed e) k

/-- What a member of a literal can evaluate to. Written with a colon, the name of the prototype sets
the prototype, which is no own property. -/
inductive Defines : Property → Members V → Prop
  | field {key : Key} {k : PropertyKey} {value : Expr} {shorthand : Bool} (v : V) : Names key k →
      (shorthand = false → fixedKey? key ≠ some prototypeKey) →
      Defines (.field key value shorthand) [(k, .value v)]
  | prototype {key : Key} {value : Expr} : fixedKey? key = some prototypeKey →
      Defines (.field key value false) []
  | method {key : Key} {k : PropertyKey} {f : Func} (v : V) : Names key k →
      Defines (.method .method key f) [(k, .value v)]
  | getter {key : Key} {k : PropertyKey} {f : Func} (v : V) : Names key k →
      Defines (.method .getter key f) [(k, .getter v)]
  | setter {key : Key} {k : PropertyKey} {f : Func} : Names key k →
      Defines (.method .setter key f) [(k, .setter)]

/-- What the members of a literal can evaluate to on one run. -/
inductive Evaluates : List Property → Members V → Prop
  | nil : Evaluates [] []
  | cons {p : Property} {ps : List Property} {ms rest : Members V} : Defines p ms →
      Evaluates ps rest → Evaluates (p :: ps) (ms ++ rest)

/-- Whether a member is no accessor and its key is always the same one, other than that of an own
property for the prototype. -/
def isFixed : Property → Bool
  | .field key _ shorthand =>
    (fixedKey? key).any fun k => !(shorthand && k = prototypeKey)
  | .method .method key _ => (fixedKey? key).any (· ≠ prototypeKey)
  | _ => false

/-- The keys of the own properties that a member with a fixed key makes. -/
def fixedKeys : Property → List PropertyKey
  | .field key _ shorthand =>
    (fixedKey? key).toList.filter fun k => shorthand || k ≠ prototypeKey
  | .method _ key _ => (fixedKey? key).toList
  | .spread _ => []

theorem eq_of_names {key : Key} {k k' : PropertyKey} (h : Names key k')
    (hkey : fixedKey? key = some k) : k' = k := by
  cases h with
  | fixed h => exact Option.some.inj (h.symm.trans hkey)
  | computed e k' => cases hkey

/-- A member with a fixed key gives its key a value. -/
theorem Defines.fixed {p : Property} {ms : Members V} (h : Defines p ms) (hp : isFixed p = true) :
    ms.map Prod.fst = fixedKeys p ∧ prototypeKey ∉ fixedKeys p
      ∧ ∀ m ∈ ms, ∃ v, m.2 = .value v := by
  cases h with
  | @field key k value shorthand v hnames hproto =>
    obtain ⟨k', hkey, hk'⟩ := (Option.any_eq_true _ _).mp hp
    obtain rfl := eq_of_names hnames hkey
    have hne : k ≠ prototypeKey := by
      rintro rfl
      cases shorthand with
      | true => simp at hk'
      | false => exact hproto rfl hkey
    simp [fixedKeys, hkey, hne, Ne.symm hne]
  | prototype hkey => simp [fixedKeys, hkey]
  | @method key k f v hnames =>
    obtain ⟨k', hkey, hk'⟩ := (Option.any_eq_true _ _).mp hp
    obtain rfl := eq_of_names hnames hkey
    have hne : k ≠ prototypeKey := by simpa using hk'
    simp [fixedKeys, hkey, Ne.symm hne]
  | getter => cases hp
  | setter => cases hp

theorem Evaluates.fixed {ps : List Property} {ms : Members V} (h : Evaluates ps ms)
    (hps : ∀ p ∈ ps, isFixed p = true) :
    ms.map Prod.fst = ps.flatMap fixedKeys ∧ prototypeKey ∉ ps.flatMap fixedKeys
      ∧ ∀ m ∈ ms, ∃ v, m.2 = .value v := by
  induction h with
  | nil => simp
  | cons hdefines _ ih =>
    obtain ⟨hp, hps⟩ := List.forall_mem_cons.mp hps
    obtain ⟨hkeys, hproto, hvalues⟩ := hdefines.fixed hp
    obtain ⟨hkeys', hproto', hvalues'⟩ := ih hps
    refine ⟨?_, ?_, fun m hm => (List.mem_append.mp hm).elim (hvalues m) (hvalues' m)⟩
    · rw [List.map_append, hkeys, hkeys', List.flatMap_cons]
    · rw [List.flatMap_cons, List.mem_append]
      exact fun h => h.elim hproto hproto'

theorem foldl_define_isData {own : PropertyKey → Option (Own V)} {ms : Members V}
    (hms : ∀ m ∈ ms, ∃ v, m.2 = .value v) (hown : ∀ k p, own k = some p → p.isData = true)
    (k : PropertyKey) (p : Own V) (hp : ms.foldl define own k = some p) : p.isData = true := by
  induction ms generalizing own with
  | nil => exact hown k p hp
  | cons m ms ih =>
    obtain ⟨⟨v, hv⟩, hrest⟩ := List.forall_mem_cons.mp hms
    refine ih hrest (fun k' p' hp' => ?_) hp
    rw [define, hv] at hp'
    by_cases hk : k' = m.1
    · subst hk
      rw [Function.update_self] at hp'
      obtain rfl := Option.some.inj hp'
      rfl
    · rw [Function.update_of_ne hk] at hp'
      exact hown k' p' hp'

/-- **Literals with fixed keys** are plain on every run, and have the same keys. -/
theorem steady_of_fixed {ps : List Property} (hps : ∀ p ∈ ps, isFixed p = true)
    {rs : List (Members V)} (hrs : ∀ ms ∈ rs, Evaluates ps ms) : Steady rs := by
  have hkeys : ∀ ms ∈ rs, ∀ k, ownOf ms k ≠ none ↔ k ∈ ps.flatMap fixedKeys := by
    intro ms hms k
    rw [ne_eq, ownOf_eq_none_iff, ((hrs ms hms).fixed hps).1, not_not]
  refine ⟨fun ms hms => ⟨?_, ?_⟩, List.pairwise_of_forall_mem_list fun ms hms ms' hms' k hk => ?_⟩
  · exact by_contra fun h => ((hrs ms hms).fixed hps).2.1 ((hkeys ms hms _).mp h)
  · exact foldl_define_isData ((hrs ms hms).fixed hps).2.2 fun k p hp => nomatch hp
  · exact (hkeys ms' hms' k).mpr ((hkeys ms hms k).mp hk)

theorem exists_object {o : Options} {e : Expr} (hkind : kind? o e = some .object) :
    ∃ span p ps, e.inner = .object span (p :: ps) := by
  unfold kind? at hkind
  split at hkind
  · split at hkind <;> cases hkind
  · rename_i span members hinner
    split at hkind
    · rename_i hmembers
      cases members with
      | nil => simp at hmembers
      | cons p ps => exact ⟨span, p, ps, hinner⟩
    · cases hkind
  · cases hkind

/-- **Objects that are kept.** If an object literal is kept, then whatever it evaluates to in runs
of the method: the objects that are passed on have the own properties of the literal, of the same
kinds, on every run exactly if the literal never has an accessor or a property under the key for the
prototype, and never leaves out a key that it had before. They then have the same values too. This
is always so for literals with fixed keys. -/
theorem lowerAttr_object_agrees_iff {c : LoweringSetting} {s : Lowering} {owner : Nat} {e : Expr}
    (hkind : kind? c.options e = some .object) (hsafe : isCaptureSafe s.scopes owner e = true)
    (span inside : Span) (name : AttrName) :
    ∃ place members slot t, e.inner = .object place members
      ∧ lowerAttr owner (.named span name (.container inside (some e))) c s
        = (.named span name (.container inside (some (replacement inside slot .object e))), t)
      ∧ t.scopes = s.scopes.queue owner (initializer inside slot .object e)
      ∧ ∀ {W : Type} (J : Values W) (rs : List (Members W)), (∀ ms ∈ rs, Evaluates members ms) →
        (RendersAs SameKinds J slot (initializer inside slot .object e)
            (replacement inside slot .object e) rs ↔ Steady rs)
        ∧ (Steady rs → RendersAs SameProperties J slot (initializer inside slot .object e)
            (replacement inside slot .object e) rs)
        ∧ ((∀ p ∈ members, isFixed p = true) → Steady rs) := by
  obtain ⟨place, p, ps, hinner⟩ := exists_object hkind
  exact ⟨place, p :: ps, _, _, hinner, lowerAttr_eq hkind hsafe span inside name, rfl,
    fun J rs hrs => ⟨rendersAs_sameKinds_iff hinner J _ inside rs,
      rendersAs_sameProperties hinner J _ inside rs, fun hfixed => steady_of_fixed hfixed hrs⟩⟩

/-- `[this.key]: 1`, the member of a literal whose key is computed. -/
def computedMember : Property :=
  .field (.computed (Build.member .none (.this .none) "key")) (.number .none (.ofNat 1)) false

/-- `get size() {}`. -/
def sizeGetter : Property :=
  .method .getter (.ident "size")
    (.mk none false false none .none [] none none (.block [] []))

theorem evaluates_computedMember (k : PropertyKey) (v : V) :
    Evaluates [computedMember] [(k, .value v)] :=
  .cons (.field v (.computed _ k) fun _ h => nomatch h) .nil

/-- In `{ x: 1, [this.key]: 1 }` the computed key is `x` on the first run and `y` on the second one.
So there is one property first and two later, and none is left out. -/
theorem lowerAttr_object_agrees_growing :
    let members : List Property :=
      [.field (.ident "x") (.number .none (.ofNat 1)) false, computedMember]
    let e : Expr := .object .none members
    let c : LoweringSetting := ⟨{}, []⟩
    let s : Lowering := ⟨Header.ofModule ⟨[], []⟩, .empty, [], []⟩
    let runs : List (Members Nat) :=
      [[(.name "x", .value 1), (.name "x", .value 2)],
        [(.name "x", .value 3), (.name "y", .value 4)]]
    kind? c.options e = some .object ∧ isCaptureSafe s.scopes 0 e = true
      ∧ (∀ ms ∈ runs, Evaluates members ms) ∧ Steady runs
      ∧ ∃ slot t, lowerAttr 0 (.named .none (.plain "a") (.container .none (some e))) c s
          = (.named .none (.plain "a")
            (.container .none (some (replacement .none slot .object e))), t)
        ∧ RendersAs SameProperties ⟨0, fun _ => false⟩ slot (initializer .none slot .object e)
          (replacement .none slot .object e) runs := by
  intro members e c s runs
  have hkind : kind? c.options e = some .object := rfl
  have hsafe : isCaptureSafe s.scopes 0 e = true := rfl
  have hruns : ∀ ms ∈ runs, Evaluates members ms := by
    have hmembers : ∀ (k : PropertyKey) (v w : Nat),
        Evaluates members [(.name "x", .value v), (k, .value w)] := fun k v w =>
      .cons (.field v (.fixed rfl) fun _ => by decide) (evaluates_computedMember k w)
    exact List.forall_mem_cons.mpr ⟨hmembers _ 1 2, List.forall_mem_cons.mpr
      ⟨hmembers _ 3 4, fun ms hms => nomatch hms⟩⟩
  have hsteady : Steady runs := by
    refine ⟨fun ms hms => ⟨?_, foldl_define_isData (fun m hm => ?_) fun k p hp => nomatch hp⟩, ?_⟩
    · rw [ownOf_eq_none_iff]
      revert ms
      decide
    · simp only [runs, List.mem_cons, List.not_mem_nil, or_false] at hms
      rcases hms with rfl | rfl <;>
        · simp only [List.mem_cons, List.not_mem_nil, or_false] at hm
          rcases hm with rfl | rfl <;> exact ⟨_, rfl⟩
    · simp only [runs, List.pairwise_pair]
      intro k
      rw [ne_eq, ne_eq, ownOf_eq_none_iff, ownOf_eq_none_iff, not_not, not_not]
      simp +contextual
  obtain ⟨place, members', slot, t, hinner, hlower, -, hagree⟩ :=
    lowerAttr_object_agrees_iff hkind hsafe .none .none (.plain "a")
  obtain ⟨rfl, rfl⟩ : Span.none = place ∧ members = members' := Expr.object.inj hinner
  exact ⟨hkind, hsafe, hruns, hsteady, slot, t, hlower, (hagree _ runs hruns).2.1 hsteady⟩

/-- **Objects that differ from their literals.** `{ [this.key]: 1 }` is kept, and after the key has
changed from `a` to `b`, the object still has `a`. `{ get size() {} }` is kept too, and the object
has a value where the literal has an accessor. -/
theorem lowerAttr_object_keeps_stale :
    let e : Expr := .object .none [computedMember]
    let e' : Expr := .object .none [sizeGetter]
    let scopes : Scopes Stmt := .empty
    let J : Values Nat := ⟨0, fun _ => false⟩
    (kind? {} e = some .object ∧ isCaptureSafe scopes 0 e = true
      ∧ kind? {} e' = some .object ∧ isCaptureSafe scopes 0 e' = true)
    ∧ ∀ slot,
      (∃ first second, renders J slot (initializer .none slot .object e)
            (replacement .none slot .object e) none
            [[(.name "a", .value 1)], [(.name "b", .value 1)]] = some [first, second]
          ∧ second (.name "a") = some 1 ∧ ownOf [(.name "b", .value 1)] (.name "a") = none)
      ∧ ∃ object, renders J slot (initializer .none slot .object e')
            (replacement .none slot .object e') none [[(.name "size", .getter 2)]] = some [object]
          ∧ object (.name "size") = some 2
          ∧ ownOf [(.name "size", .getter 2)] (.name "size") = some (.accessor (some 2)) := by
  intro e e' scopes J
  refine ⟨⟨rfl, rfl, rfl, rfl⟩, fun slot => ?_⟩
  have hleaves : ∀ rs : List (Members Nat), ∀ ms ∈ rs, LeavesPrototype J ms := fun _ _ _ _ _ => rfl
  exact ⟨⟨_, _, renders_eq rfl J slot .none _ (hleaves _), rfl, rfl⟩,
    _, renders_eq rfl J slot .none _ (hleaves _), rfl, rfl⟩

end JsxDialect.Lift
