import JsxDialect.Proofs.ModuleScope

/-!
# Hoisted names in source order

What a function declares by `var` is said here by the rules of the language, and with the place of
each name: one rule for each part of a pattern and for each statement that a `var` may stand in
(`Stmt.HoistsAt`). Places are ordered as they are written, so that a list of all of them in that
order says which name is declared how often and in which order (`Enumerates`). The list is put
together in the same way as the code, one part after the other.

The names that are collected are those at all places but the ones under the rest of a pattern. So
the record of a function has every name that is declared in its own scope, unless that is declared
under a rest alone.
-/

namespace JsxDialect

/-! ## Places in source order -/

/-- A place in a piece of code: which part of the code, which part of that, and so on. Parts are
numbered as they are written, so that a place comes before another one if the first part in which
they differ does. -/
abbrev Position := List Nat

/-- Where which names are bound, and how. -/
abbrev Bindings := Position → Manner → String → Prop

/-- **Names in source order**: all places of bindings can be listed in their order, and the names at
those of them that are not under a rest are the given ones. -/
def Enumerates (R : Bindings) (names : List String) : Prop :=
  ∃ places : List (Position × Manner × String),
    places.Pairwise (fun a b => a.1 < b.1)
      ∧ (∀ π r n, (π, r, n) ∈ places ↔ R π r n)
      ∧ names = (places.filter fun a => a.2.1 = .named).map fun a => a.2.2

namespace Enumerates

variable {R S : Bindings} {ns ms : List String}

theorem congr (h : Enumerates R ns) (hRS : ∀ π r n, S π r n ↔ R π r n) : Enumerates S ns := by
  obtain ⟨places, hsorted, hmem, hnames⟩ := h
  exact ⟨places, hsorted, fun π r n => (hmem π r n).trans (hRS π r n).symm, hnames⟩

theorem nothing (h : ∀ π r n, ¬R π r n) : Enumerates R [] :=
  ⟨[], .nil, fun π r n => iff_of_false List.not_mem_nil (h π r n), rfl⟩

/-- A name is among those in order if it is bound somewhere that is not under a rest. -/
theorem mem_iff (h : Enumerates R ns) {n : String} : n ∈ ns ↔ ∃ π, R π .named n := by
  obtain ⟨places, -, hmem, rfl⟩ := h
  simp only [List.mem_map, List.mem_filter, decide_eq_true_eq, Prod.exists, hmem]
  constructor
  · rintro ⟨π, r, m, ⟨hR, rfl⟩, rfl⟩
    exact ⟨π, hR⟩
  · rintro ⟨π, hR⟩
    exact ⟨π, _, n, ⟨hR, rfl⟩, rfl⟩

/-- The names in order are those at all places if and only if no place is under a rest. -/
theorem names_eq_iff {places : List (Position × Manner × String)}
    (hmem : ∀ π r n, (π, r, n) ∈ places ↔ R π r n) :
    ((places.filter fun a => a.2.1 = .named).map fun a => a.2.2) = places.map (fun a => a.2.2)
      ↔ ∀ π r n, R π r n → r = .named := by
  constructor
  · intro h π r n hR
    have hlength := congrArg List.length h
    rw [List.length_map, List.length_map, List.length_filter_eq_length_iff] at hlength
    simpa using hlength _ ((hmem π r n).mpr hR)
  · intro h
    rw [List.filter_eq_self.mpr fun a ha => decide_eq_true (h _ _ _ ((hmem _ _ _).mp ha))]

/-- The places in one part of a piece of code. -/
theorem under (i : Nat) (h : Enumerates R ns) :
    Enumerates (fun π r n => ∃ ρ, π = i :: ρ ∧ R ρ r n) ns := by
  obtain ⟨places, hsorted, hmem, rfl⟩ := h
  refine ⟨places.map fun a => (i :: a.1, a.2), ?_, fun π r n => ?_, ?_⟩
  · exact List.pairwise_map.mpr (hsorted.imp fun hab => List.cons_lt_cons_iff.mpr (.inr ⟨rfl, hab⟩))
  · simp only [List.mem_map, Prod.exists, Prod.mk.injEq, ← hmem]
    constructor
    · rintro ⟨ρ, r', n', ha, rfl, rfl, rfl⟩
      exact ⟨ρ, rfl, ha⟩
    · rintro ⟨ρ, rfl, ha⟩
      exact ⟨ρ, r, n, ha, rfl, rfl, rfl⟩
  · simp [List.filter_map, Function.comp_def]

/-- The places in two parts, of which one comes before the other. -/
theorem append (h : Enumerates R ns) (h' : Enumerates S ms)
    (hlt : ∀ {π r n ρ q m}, R π r n → S ρ q m → π < ρ) :
    Enumerates (fun π r n => R π r n ∨ S π r n) (ns ++ ms) := by
  obtain ⟨places, hsorted, hmem, rfl⟩ := h
  obtain ⟨places', hsorted', hmem', rfl⟩ := h'
  refine ⟨places ++ places', ?_, fun π r n => ?_, ?_⟩
  · refine List.pairwise_append.mpr ⟨hsorted, hsorted', fun a ha b hb => ?_⟩
    exact hlt ((hmem _ _ _).mp ha) ((hmem' _ _ _).mp hb)
  · rw [List.mem_append, hmem, hmem']
  · rw [List.filter_append, List.map_append]

/-- The places in two parts with different numbers. -/
theorem parts {i j : Nat} (hij : i < j) (h : Enumerates R ns) (h' : Enumerates S ms) :
    Enumerates (fun π r n => (∃ ρ, π = i :: ρ ∧ R ρ r n) ∨ ∃ ρ, π = j :: ρ ∧ S ρ r n)
      (ns ++ ms) := by
  refine (h.under i).append (h'.under j) ?_
  rintro _ _ _ _ _ _ ⟨ρ, rfl, -⟩ ⟨ρ', rfl, -⟩
  exact List.cons_lt_cons_iff.mpr (.inl hij)

/-- The places in the parts of a list. -/
theorem list {α : Type} {R : α → Bindings} {names : α → List String} (xs : List α) (start : Nat)
    (h : ∀ x ∈ xs, Enumerates (R x) (names x)) :
    Enumerates (fun π r n => ∃ i x ρ, xs[i]? = some x ∧ π = (start + i) :: ρ ∧ R x ρ r n)
      (xs.flatMap names) := by
  induction xs generalizing start with
  | nil => exact nothing (by simp)
  | cons x xs ih =>
    have hx := h x List.mem_cons_self
    have hxs := ih (start + 1) fun y hy => h y (List.mem_cons_of_mem _ hy)
    refine ((hx.under start).append hxs ?_).congr fun π r n => ⟨?_, ?_⟩
    · rintro _ _ _ _ _ _ ⟨ρ, rfl, -⟩ ⟨i, y, ρ', -, rfl, -⟩
      exact List.cons_lt_cons_iff.mpr (.inl (by omega))
    · rintro ⟨i, y, ρ, hy, rfl, hR⟩
      cases i with
      | zero =>
        obtain rfl := Option.some.inj hy
        exact .inl ⟨ρ, rfl, hR⟩
      | succ i => exact .inr ⟨i, y, ρ, hy, by rw [Nat.add_assoc, Nat.add_comm 1], hR⟩
    · rintro (⟨ρ, rfl, hR⟩ | ⟨i, y, ρ, hy, rfl, hR⟩)
      · exact ⟨0, x, ρ, rfl, rfl, hR⟩
      · exact ⟨i + 1, y, ρ, hy, by rw [Nat.add_assoc, Nat.add_comm 1], hR⟩

/-- The places under a rest, of whose names none is listed. -/
theorem rest (h : Enumerates R ns) : Enumerates (fun π r n => r = .rest ∧ ∃ q, R π q n) [] := by
  obtain ⟨places, hsorted, hmem, -⟩ := h
  refine ⟨places.map fun a => (a.1, .rest, a.2.2), ?_, fun π r n => ?_, ?_⟩
  · exact List.pairwise_map.mpr hsorted
  · simp only [List.mem_map, Prod.exists, Prod.mk.injEq, ← hmem]
    constructor
    · rintro ⟨ρ, q, n', ha, rfl, rfl, rfl⟩
      exact ⟨rfl, q, ha⟩
    · rintro ⟨rfl, q, ha⟩
      exact ⟨π, q, n, ha, rfl, rfl, rfl⟩
  · simp [List.filter_map, Function.comp_def]

end Enumerates

/-! ## Patterns -/

/-- A pattern binds a name at a place. The rest comes after the parts, and a default after the
pattern it is for. -/
inductive Pattern.BindsAt : Pattern → Bindings
  | bind {n : String} : BindsAt (.bind n) [] .named n
  | property {ps : List PatternProperty} {rest : Option Pattern} {i : Nat} {k : Key} {p : Pattern}
      {shorthand : Bool} {ρ : Position} {r : Manner} {n : String} :
      ps[i]? = some (.mk k p shorthand) → BindsAt p ρ r n → BindsAt (.object ps rest) (i :: ρ) r n
  | objectRest {ps : List PatternProperty} {p : Pattern} {ρ : Position} {r : Manner} {n : String} :
      BindsAt p ρ r n → BindsAt (.object ps (some p)) (ps.length :: ρ) .rest n
  | element {ps : List Pattern} {rest : Option Pattern} {i : Nat} {p : Pattern} {ρ : Position}
      {r : Manner} {n : String} :
      ps[i]? = some p → BindsAt p ρ r n → BindsAt (.array ps rest) (i :: ρ) r n
  | arrayRest {ps : List Pattern} {p : Pattern} {ρ : Position} {r : Manner} {n : String} :
      BindsAt p ρ r n → BindsAt (.array ps (some p)) (ps.length :: ρ) .rest n
  | withDefault {p : Pattern} {e : Expr} {ρ : Position} {r : Manner} {n : String} :
      BindsAt p ρ r n → BindsAt (.withDefault p e) (0 :: ρ) r n
  | typed {p : Pattern} {optional : Bool} {t : Option TypeExpr} {ρ : Position} {r : Manner}
      {n : String} : BindsAt p ρ r n → BindsAt (.typed p optional t) (0 :: ρ) r n

/-- The pattern of a member of an object pattern. -/
def PatternProperty.pattern : PatternProperty → Pattern
  | .mk _ p _ => p

theorem patternNames_eq_flatMap (ps : List Pattern) :
    patternNames ps = ps.flatMap Pattern.names := by
  induction ps with
  | nil => rfl
  | cons p ps ih => rw [patternNames, ih, List.flatMap_cons]

theorem propertyPatternNames_eq_flatMap (ps : List PatternProperty) :
    propertyPatternNames ps = ps.flatMap fun p => p.pattern.names := by
  induction ps with
  | nil => rfl
  | cons p ps ih =>
    cases p
    rw [propertyPatternNames, ih, List.flatMap_cons]
    rfl

/-- The places in the parts of a pattern and then in its rest. -/
theorem Enumerates.withRest {α : Type} {part : α → Pattern} {parts : List α}
    {rest : Option Pattern}
    (hparts : ∀ x ∈ parts, Enumerates (part x).BindsAt (part x).names)
    (hrest : ∀ p ∈ rest, Enumerates p.BindsAt p.names) :
    Enumerates (fun π r n => (∃ i x ρ, parts[i]? = some x ∧ π = i :: ρ ∧ (part x).BindsAt ρ r n)
        ∨ ∃ p q ρ, rest = some p ∧ π = parts.length :: ρ ∧ r = .rest ∧ p.BindsAt ρ q n)
      (parts.flatMap fun x => (part x).names) := by
  have hlist := Enumerates.list parts 0 hparts
  simp only [Nat.zero_add] at hlist
  cases rest with
  | none => exact hlist.congr fun π r n => or_iff_left (by simp)
  | some p =>
    -- The rest has its places after those of all parts, and none of its names is listed.
    have hafter := (hrest p rfl).rest.under parts.length
    have hboth := hlist.append hafter ?_
    · rw [List.append_nil] at hboth
      refine hboth.congr fun π r n => or_congr_right ⟨?_, ?_⟩
      · rintro ⟨p', q, ρ, hp, rfl, rfl, hbinds⟩
        obtain rfl := Option.some.inj hp
        exact ⟨ρ, rfl, rfl, q, hbinds⟩
      · rintro ⟨ρ, rfl, rfl, q, hbinds⟩
        exact ⟨p, q, ρ, rfl, rfl, rfl, hbinds⟩
    · rintro _ _ _ _ _ _ ⟨i, x, ρ, hx, rfl, -⟩ ⟨ρ', rfl, -⟩
      obtain ⟨hi, -⟩ := List.getElem?_eq_some_iff.mp hx
      exact List.cons_lt_cons_iff.mpr (.inl hi)

mutual

/-- **The names of a pattern**, in source order. -/
theorem Pattern.enumerates (p : Pattern) : Enumerates p.BindsAt p.names := by
  cases p with
  | bind n =>
    refine ⟨[([], .named, n)], List.pairwise_singleton _ _, fun π r m => ?_, rfl⟩
    constructor
    · intro h
      obtain ⟨rfl, rfl, rfl⟩ : π = [] ∧ r = .named ∧ m = n := by simpa using h
      exact .bind
    · rintro ⟨⟩
      exact List.mem_singleton_self _
  | target e => exact .nothing fun π r n h => by cases h
  | hole => exact .nothing fun π r n h => by cases h
  | object ps rest =>
    -- What takes the rest comes after the members, and is bound without being named.
    rw [Pattern.names, propertyPatternNames_eq_flatMap]
    refine (Enumerates.withRest (patternProperties_enumerate ps) (rest_enumerates rest)).congr ?_
    refine fun π r n => ⟨fun h => ?_, ?_⟩
    · cases h with
      | property hp hbinds => exact .inl ⟨_, _, _, hp, rfl, hbinds⟩
      | objectRest hbinds => exact .inr ⟨_, _, _, rfl, rfl, rfl, hbinds⟩
    · rintro (⟨i, ⟨k, q, shorthand⟩, ρ, hp, rfl, hbinds⟩ | ⟨q, r', ρ, rfl, rfl, rfl, hbinds⟩)
      · exact .property hp hbinds
      · exact .objectRest hbinds
  | array ps rest =>
    rw [Pattern.names, patternNames_eq_flatMap]
    refine (Enumerates.withRest (patterns_enumerate ps) (rest_enumerates rest)).congr ?_
    refine fun π r n => ⟨fun h => ?_, ?_⟩
    · cases h with
      | element hp hbinds => exact .inl ⟨_, _, _, hp, rfl, hbinds⟩
      | arrayRest hbinds => exact .inr ⟨_, _, _, rfl, rfl, rfl, hbinds⟩
    · rintro (⟨i, q, ρ, hp, rfl, hbinds⟩ | ⟨q, r', ρ, rfl, rfl, rfl, hbinds⟩)
      · exact .element hp hbinds
      · exact .arrayRest hbinds
  | withDefault p e =>
    refine (p.enumerates.under 0).congr fun π r n => ⟨fun h => ?_, ?_⟩
    · cases h with
      | withDefault hbinds => exact ⟨_, rfl, hbinds⟩
    · rintro ⟨ρ, rfl, hbinds⟩
      exact .withDefault hbinds
  | typed p optional t =>
    refine (p.enumerates.under 0).congr fun π r n => ⟨fun h => ?_, ?_⟩
    · cases h with
      | typed hbinds => exact ⟨_, rfl, hbinds⟩
    · rintro ⟨ρ, rfl, hbinds⟩
      exact .typed hbinds

theorem rest_enumerates (rest : Option Pattern) :
    ∀ p ∈ rest, Enumerates p.BindsAt p.names := by
  cases rest with
  | none => exact fun p hp => by cases hp
  | some q => exact fun p hp => Option.some.inj hp ▸ q.enumerates

theorem patterns_enumerate (ps : List Pattern) :
    ∀ p ∈ ps, Enumerates p.BindsAt p.names := by
  cases ps with
  | nil => exact fun p hp => absurd hp List.not_mem_nil
  | cons q ps =>
    exact List.forall_mem_cons.mpr ⟨q.enumerates, patterns_enumerate ps⟩

theorem patternProperties_enumerate (ps : List PatternProperty) :
    ∀ p ∈ ps, Enumerates p.pattern.BindsAt p.pattern.names := by
  cases ps with
  | nil => exact fun p hp => absurd hp List.not_mem_nil
  | cons q ps =>
    obtain ⟨k, q, shorthand⟩ := q
    exact List.forall_mem_cons.mpr ⟨q.enumerates, patternProperties_enumerate ps⟩

end

/-! ## Statements -/

/-- The statements of a case. -/
def SwitchCase.stmts : SwitchCase → List Stmt
  | .mk _ stmts => stmts

/-- The pattern of a variable. -/
def Declarator.pattern : Declarator → Pattern
  | .mk p _ => p

/-- The head of a loop binds a name by `var` at a place. -/
inductive ForHead.HoistsAt : ForHead → Bindings
  | declared {ds : List Declarator} {i : Nat} {d : Declarator} {ρ : Position} {r : Manner}
      {n : String} : ds[i]? = some d → d.pattern.BindsAt ρ r n →
      HoistsAt (.decl .var ds) (i :: ρ) r n

/-- **A statement binds a name by `var` at a place**, at any depth in the same function. -/
inductive Stmt.HoistsAt : Stmt → Bindings
  | declared {ds : List Declarator} {i : Nat} {d : Declarator} {ρ : Position} {r : Manner}
      {n : String} : ds[i]? = some d → d.pattern.BindsAt ρ r n →
      HoistsAt (.varDecl .var ds) (i :: ρ) r n
  | block {xs : List Stmt} {i : Nat} {x : Stmt} {ρ : Position} {r : Manner} {n : String} :
      xs[i]? = some x → HoistsAt x ρ r n → HoistsAt (.block xs) (i :: ρ) r n
  | consequent {e : Expr} {x : Stmt} {a : Option Stmt} {ρ : Position} {r : Manner} {n : String} :
      HoistsAt x ρ r n → HoistsAt (.if e x a) (1 :: ρ) r n
  | alternate {e : Expr} {x a : Stmt} {ρ : Position} {r : Manner} {n : String} :
      HoistsAt a ρ r n → HoistsAt (.if e x (some a)) (2 :: ρ) r n
  | forHead {head : ForHead} {t u : Option Expr} {x : Stmt} {ρ : Position} {r : Manner}
      {n : String} : head.HoistsAt ρ r n → HoistsAt (.for head t u x) (0 :: ρ) r n
  | forBody {head : ForHead} {t u : Option Expr} {x : Stmt} {ρ : Position} {r : Manner}
      {n : String} : HoistsAt x ρ r n → HoistsAt (.for head t u x) (3 :: ρ) r n
  | forInHead {head : ForHead} {e : Expr} {x : Stmt} {ρ : Position} {r : Manner} {n : String} :
      head.HoistsAt ρ r n → HoistsAt (.forIn head e x) (0 :: ρ) r n
  | forInBody {head : ForHead} {e : Expr} {x : Stmt} {ρ : Position} {r : Manner} {n : String} :
      HoistsAt x ρ r n → HoistsAt (.forIn head e x) (2 :: ρ) r n
  | forOfHead {isAwait : Bool} {head : ForHead} {e : Expr} {x : Stmt} {ρ : Position} {r : Manner}
      {n : String} : head.HoistsAt ρ r n → HoistsAt (.forOf isAwait head e x) (0 :: ρ) r n
  | forOfBody {isAwait : Bool} {head : ForHead} {e : Expr} {x : Stmt} {ρ : Position} {r : Manner}
      {n : String} : HoistsAt x ρ r n → HoistsAt (.forOf isAwait head e x) (2 :: ρ) r n
  | whileBody {e : Expr} {x : Stmt} {ρ : Position} {r : Manner} {n : String} :
      HoistsAt x ρ r n → HoistsAt (.while e x) (1 :: ρ) r n
  | doBody {e : Expr} {x : Stmt} {ρ : Position} {r : Manner} {n : String} :
      HoistsAt x ρ r n → HoistsAt (.doWhile x e) (0 :: ρ) r n
  | labeled {label : String} {x : Stmt} {ρ : Position} {r : Manner} {n : String} :
      HoistsAt x ρ r n → HoistsAt (.labeled label x) (0 :: ρ) r n
  | tryBlock {xs : List Stmt} {handler : Option Catch} {final : Option (List Stmt)} {i : Nat}
      {x : Stmt} {ρ : Position} {r : Manner} {n : String} :
      xs[i]? = some x → HoistsAt x ρ r n → HoistsAt (.try xs handler final) (0 :: i :: ρ) r n
  | handler {xs ys : List Stmt} {param : Option Pattern} {final : Option (List Stmt)} {i : Nat}
      {x : Stmt} {ρ : Position} {r : Manner} {n : String} : ys[i]? = some x → HoistsAt x ρ r n →
      HoistsAt (.try xs (some (.mk param ys)) final) (1 :: i :: ρ) r n
  | finalizer {xs ys : List Stmt} {handler : Option Catch} {i : Nat} {x : Stmt} {ρ : Position}
      {r : Manner} {n : String} : ys[i]? = some x → HoistsAt x ρ r n →
      HoistsAt (.try xs handler (some ys)) (2 :: i :: ρ) r n
  | case {e : Expr} {cases : List SwitchCase} {j : Nat} {k : SwitchCase} {i : Nat} {x : Stmt}
      {ρ : Position} {r : Manner} {n : String} : cases[j]? = some k → k.stmts[i]? = some x →
      HoistsAt x ρ r n → HoistsAt (.switch e cases) ((1 + j) :: i :: ρ) r n

/-- Statements bind a name by `var` at a place. -/
def HoistedAt (xs : List Stmt) : Bindings :=
  fun π r n => ∃ i x ρ, xs[i]? = some x ∧ π = i :: ρ ∧ x.HoistsAt ρ r n

/-- The names that a statement binds by `var`. -/
def Stmt.varNames (x : Stmt) : List String :=
  x.varPatterns.flatMap Pattern.names

theorem varNames_eq_flatMap (xs : List Stmt) : varNames xs = xs.flatMap Stmt.varNames := by
  rw [varNames, varPatterns_eq_flatMap, List.flatMap_assoc]
  rfl

theorem flatMap_caseVarPatterns (cases : List SwitchCase) :
    (caseVarPatterns cases).flatMap Pattern.names = cases.flatMap fun k => varNames k.stmts := by
  induction cases with
  | nil => rfl
  | cons k cases ih =>
    obtain ⟨t, xs⟩ := k
    rw [caseVarPatterns, List.flatMap_append, ih, List.flatMap_cons]
    rfl

/-- The names of the variables of a declaration, in source order. -/
theorem declarators_enumerate (ds : List Declarator) :
    Enumerates (fun π r n => ∃ i d ρ, ds[i]? = some d ∧ π = i :: ρ ∧ d.pattern.BindsAt ρ r n)
      ((declaratorPatterns ds).flatMap Pattern.names) := by
  have hnames : (declaratorPatterns ds).flatMap Pattern.names = ds.flatMap (·.pattern.names) :=
    List.flatMap_map ..
  have hlist := Enumerates.list ds 0 fun d _ => d.pattern.enumerates
  simp only [Nat.zero_add] at hlist
  rw [hnames]
  exact hlist

theorem ForHead.enumerates (head : ForHead) :
    Enumerates head.HoistsAt (head.varPatterns.flatMap Pattern.names) := by
  cases head with
  | absent | expr _ | target _ => exact .nothing fun π r n h => by cases h
  | decl kind ds =>
    cases kind with
    | «let» | const => exact .nothing fun π r n h => by cases h
    | var =>
      refine (declarators_enumerate ds).congr fun π r n => ⟨fun h => ?_, ?_⟩
      · cases h with
        | declared hd hbinds => exact ⟨_, _, _, hd, rfl, hbinds⟩
      · rintro ⟨i, d, ρ, hd, rfl, hbinds⟩
        exact .declared hd hbinds

/-- The names of the statements of a list, each of which has its own in order. -/
theorem hoistedAt_enumerates {xs : List Stmt}
    (h : ∀ x ∈ xs, Enumerates x.HoistsAt x.varNames) : Enumerates (HoistedAt xs) (varNames xs) := by
  have hlist := Enumerates.list xs 0 h
  simp only [Nat.zero_add] at hlist
  rw [varNames_eq_flatMap]
  exact hlist

/-- The names in the head of a loop and in its body. -/
theorem loop_enumerates (head : ForHead) {x : Stmt} {i : Nat} (hi : 0 < i)
    (hx : Enumerates x.HoistsAt x.varNames) :
    Enumerates (fun π r n => (∃ ρ, π = 0 :: ρ ∧ head.HoistsAt ρ r n)
        ∨ ∃ ρ, π = i :: ρ ∧ x.HoistsAt ρ r n)
      ((head.varPatterns ++ x.varPatterns).flatMap Pattern.names) := by
  rw [List.flatMap_append]
  exact .parts hi head.enumerates hx

mutual

/-- **The names that a statement binds by `var`**, in source order. -/
theorem Stmt.enumerates (x : Stmt) : Enumerates x.HoistsAt x.varNames := by
  cases x with
  | varDecl kind ds =>
    cases kind with
    | «let» | const => exact .nothing fun π r n h => by cases h
    | var =>
      refine (declarators_enumerate ds).congr fun π r n => ⟨fun h => ?_, ?_⟩
      · cases h with
        | declared hd hbinds => exact ⟨_, _, _, hd, rfl, hbinds⟩
      · rintro ⟨i, d, ρ, hd, rfl, hbinds⟩
        exact .declared hd hbinds
  | block xs =>
    refine (hoistedAt_enumerates (stmts_enumerate xs)).congr fun π r n => ⟨fun h => ?_, ?_⟩
    · cases h with
      | block hx hhoists => exact ⟨_, _, _, hx, rfl, hhoists⟩
    · rintro ⟨i, x, ρ, hx, rfl, hhoists⟩
      exact .block hx hhoists
  | «if» e x a =>
    have hnames : (Stmt.if e x a).varNames
        = x.varNames ++ (optionVarPatterns a).flatMap Pattern.names := List.flatMap_append
    rw [hnames]
    refine (Enumerates.parts Nat.one_lt_two x.enumerates (alternate_enumerates a)).congr
      fun π r n => ⟨fun h => ?_, ?_⟩
    · cases h with
      | consequent hhoists => exact .inl ⟨_, rfl, hhoists⟩
      | alternate hhoists => exact .inr ⟨_, rfl, _, rfl, hhoists⟩
    · rintro (⟨ρ, rfl, hhoists⟩ | ⟨ρ, rfl, a, rfl, hhoists⟩)
      · exact .consequent hhoists
      · exact .alternate hhoists
  | «for» head t u x =>
    refine (loop_enumerates head (by decide : 0 < 3) x.enumerates).congr
      fun π r n => ⟨fun h => ?_, ?_⟩
    · cases h with
      | forHead hhoists => exact .inl ⟨_, rfl, hhoists⟩
      | forBody hhoists => exact .inr ⟨_, rfl, hhoists⟩
    · rintro (⟨ρ, rfl, hhoists⟩ | ⟨ρ, rfl, hhoists⟩)
      · exact .forHead hhoists
      · exact .forBody hhoists
  | forIn head e x =>
    refine (loop_enumerates head Nat.two_pos x.enumerates).congr fun π r n => ⟨fun h => ?_, ?_⟩
    · cases h with
      | forInHead hhoists => exact .inl ⟨_, rfl, hhoists⟩
      | forInBody hhoists => exact .inr ⟨_, rfl, hhoists⟩
    · rintro (⟨ρ, rfl, hhoists⟩ | ⟨ρ, rfl, hhoists⟩)
      · exact .forInHead hhoists
      · exact .forInBody hhoists
  | forOf isAwait head e x =>
    refine (loop_enumerates head Nat.two_pos x.enumerates).congr fun π r n => ⟨fun h => ?_, ?_⟩
    · cases h with
      | forOfHead hhoists => exact .inl ⟨_, rfl, hhoists⟩
      | forOfBody hhoists => exact .inr ⟨_, rfl, hhoists⟩
    · rintro (⟨ρ, rfl, hhoists⟩ | ⟨ρ, rfl, hhoists⟩)
      · exact .forOfHead hhoists
      · exact .forOfBody hhoists
  | «while» e x =>
    refine (x.enumerates.under 1).congr fun π r n => ⟨fun h => ?_, ?_⟩
    · cases h with
      | whileBody hhoists => exact ⟨_, rfl, hhoists⟩
    · rintro ⟨ρ, rfl, hhoists⟩
      exact .whileBody hhoists
  | doWhile x e =>
    refine (x.enumerates.under 0).congr fun π r n => ⟨fun h => ?_, ?_⟩
    · cases h with
      | doBody hhoists => exact ⟨_, rfl, hhoists⟩
    · rintro ⟨ρ, rfl, hhoists⟩
      exact .doBody hhoists
  | labeled label x =>
    refine (x.enumerates.under 0).congr fun π r n => ⟨fun h => ?_, ?_⟩
    · cases h with
      | labeled hhoists => exact ⟨_, rfl, hhoists⟩
    · rintro ⟨ρ, rfl, hhoists⟩
      exact .labeled hhoists
  | «try» xs handler final =>
    have hnames : (Stmt.try xs handler final).varNames = varNames xs
        ++ ((handlerVarPatterns handler).flatMap Pattern.names
          ++ (finalizerVarPatterns final).flatMap Pattern.names) := by
      rw [← List.append_assoc]
      exact List.flatMap_append.trans (congrArg (· ++ _) List.flatMap_append)
    rw [hnames]
    have hrest := Enumerates.parts Nat.one_lt_two (handler_enumerates handler)
      (finalizer_enumerates final)
    refine (((hoistedAt_enumerates (stmts_enumerate xs)).under 0).append hrest ?_).congr
      fun π r n => ⟨fun h => ?_, ?_⟩
    -- Places in the block start with 0, those in the handler with 1 and in the finalizer with 2.
    · rintro _ _ _ _ _ _ ⟨ρ, rfl, -⟩ (⟨ρ', rfl, -⟩ | ⟨ρ', rfl, -⟩)
      · exact List.cons_lt_cons_iff.mpr (.inl Nat.one_pos)
      · exact List.cons_lt_cons_iff.mpr (.inl Nat.two_pos)
    · cases h with
      | tryBlock hx hhoists => exact .inl ⟨_, rfl, _, _, _, hx, rfl, hhoists⟩
      | handler hx hhoists => exact .inr (.inl ⟨_, rfl, _, _, rfl, _, _, _, hx, rfl, hhoists⟩)
      | finalizer hx hhoists => exact .inr (.inr ⟨_, rfl, _, rfl, _, _, _, hx, rfl, hhoists⟩)
    · rintro (⟨_, rfl, i, x, ρ, hx, rfl, hhoists⟩
        | ⟨_, rfl, param, ys, rfl, i, x, ρ, hx, rfl, hhoists⟩
        | ⟨_, rfl, ys, rfl, i, x, ρ, hx, rfl, hhoists⟩)
      · exact .tryBlock hx hhoists
      · exact .handler hx hhoists
      · exact .finalizer hx hhoists
  | switch e cases =>
    have hnames : (Stmt.switch e cases).varNames = cases.flatMap fun k => varNames k.stmts :=
      flatMap_caseVarPatterns cases
    rw [hnames]
    refine (Enumerates.list cases 1 (cases_enumerate cases)).congr fun π r n => ⟨fun h => ?_, ?_⟩
    · cases h with
      | case hk hx hhoists => exact ⟨_, _, _, hk, rfl, _, _, _, hx, rfl, hhoists⟩
    · rintro ⟨j, k, _, hk, rfl, i, x, ρ, hx, rfl, hhoists⟩
      exact .case hk hx hhoists
  | _ => exact .nothing fun π r n h => by cases h

theorem alternate_enumerates (a : Option Stmt) :
    Enumerates (fun π r n => ∃ x, a = some x ∧ x.HoistsAt π r n)
      ((optionVarPatterns a).flatMap Pattern.names) := by
  cases a with
  | none => exact .nothing (by simp)
  | some x => exact x.enumerates.congr (by simp)

theorem stmts_enumerate (xs : List Stmt) : ∀ x ∈ xs, Enumerates x.HoistsAt x.varNames := by
  cases xs with
  | nil => exact fun x hx => absurd hx List.not_mem_nil
  | cons y xs => exact List.forall_mem_cons.mpr ⟨y.enumerates, stmts_enumerate xs⟩

theorem handler_enumerates (handler : Option Catch) :
    Enumerates (fun π r n => ∃ param ys, handler = some (.mk param ys) ∧ HoistedAt ys π r n)
      ((handlerVarPatterns handler).flatMap Pattern.names) := by
  cases handler with
  | none => exact .nothing (by simp)
  | some k =>
    obtain ⟨param, ys⟩ := k
    exact (hoistedAt_enumerates (stmts_enumerate ys)).congr (by simp)

theorem finalizer_enumerates (final : Option (List Stmt)) :
    Enumerates (fun π r n => ∃ ys, final = some ys ∧ HoistedAt ys π r n)
      ((finalizerVarPatterns final).flatMap Pattern.names) := by
  cases final with
  | none => exact .nothing (by simp)
  | some ys => exact (hoistedAt_enumerates (stmts_enumerate ys)).congr (by simp)

theorem cases_enumerate (cases : List SwitchCase) :
    ∀ k ∈ cases, Enumerates (HoistedAt k.stmts) (varNames k.stmts) := by
  cases cases with
  | nil => exact fun k hk => absurd hk List.not_mem_nil
  | cons k cases =>
    obtain ⟨t, ys⟩ := k
    exact List.forall_mem_cons.mpr
      ⟨hoistedAt_enumerates (stmts_enumerate ys), cases_enumerate cases⟩

end

/-! ## Functions -/

/-- **A function declares a name in its own scope**: by a parameter, by `var` at any depth, or by a
declaration among the statements of its body. -/
inductive Func.Declares (f : Func) : Manner → String → Prop
  | param {x : Param} {ρ : Position} {r : Manner} {n : String} :
      x ∈ f.params → x.pattern.BindsAt ρ r n → Declares f r n
  | restParam {p : Pattern} {ρ : Position} {r : Manner} {n : String} :
      f.rest = some p → p.BindsAt ρ r n → Declares f r n
  | hoisted {π : Position} {r : Manner} {n : String} :
      HoistedAt f.body.stmts π r n → Declares f r n
  | lexical {kind : DeclKind} {ds : List Declarator} {d : Declarator} {ρ : Position} {r : Manner}
      {n : String} : .varDecl kind ds ∈ f.body.stmts → kind ≠ .var → d ∈ ds →
      d.pattern.BindsAt ρ r n → Declares f r n
  | function {g : Func} {n : String} :
      .function g ∈ f.body.stmts → g.name = some n → Declares f .named n
  | classDecl {k : Class} {n : String} :
      .classDecl k ∈ f.body.stmts → k.name = some n → Declares f .named n

/-- The names that are recorded on entering a function, those it is given and its own apart. -/
def Func.recorded (f : Func) : List String :=
  f.paramNames ++ f.body.names

theorem Func.mem_paramNames_iff {f : Func} {n : String} : n ∈ f.paramNames
    ↔ (∃ x ∈ f.params, ∃ ρ, x.pattern.BindsAt ρ .named n)
      ∨ ∃ p ρ, f.rest = some p ∧ p.BindsAt ρ .named n := by
  rw [paramNames, List.mem_append, List.mem_flatMap]
  refine or_congr (exists_congr fun x => and_congr_right fun _ => x.pattern.enumerates.mem_iff) ?_
  cases f.rest with
  | none => simp
  | some p => simp [p.enumerates.mem_iff]

theorem Stmt.mem_lexicalNames_iff {x : Stmt} {n : String} : n ∈ x.lexicalNames
    ↔ (∃ kind ds d ρ, x = .varDecl kind ds ∧ kind ≠ .var ∧ d ∈ ds ∧ d.pattern.BindsAt ρ .named n)
      ∨ (∃ g, x = .function g ∧ g.name = some n) ∨ ∃ k, x = .classDecl k ∧ k.name = some n := by
  have hmem : ∀ ds, n ∈ declaratorNames ds ↔ ∃ d ∈ ds, ∃ ρ, d.pattern.BindsAt ρ .named n := by
    intro ds
    have hnames : declaratorNames ds = ds.flatMap (·.pattern.names) :=
      congrArg ds.flatMap (funext fun ⟨_, _⟩ => rfl)
    rw [hnames, List.mem_flatMap]
    exact exists_congr fun d => and_congr_right fun _ => d.pattern.enumerates.mem_iff
  constructor
  · intro h
    unfold lexicalNames at h
    split at h
    · rename_i kind ds
      split at h
      · cases h
      · rename_i hkind
        obtain ⟨d, hd, ρ, hbinds⟩ := (hmem ds).mp h
        exact .inl ⟨kind, ds, d, ρ, rfl, by simpa using hkind, hd, hbinds⟩
    · exact .inr (.inl ⟨_, rfl, Option.mem_toList.mp h⟩)
    · exact .inr (.inr ⟨_, rfl, Option.mem_toList.mp h⟩)
    · cases h
  · rintro (⟨kind, ds, d, ρ, rfl, hkind, hd, hbinds⟩ | ⟨g, rfl, hname⟩ | ⟨k, rfl, hname⟩)
    · rw [lexicalNames, if_neg (by simpa using hkind)]
      exact (hmem ds).mpr ⟨d, hd, ρ, hbinds⟩
    · exact Option.mem_toList.mpr hname
    · exact Option.mem_toList.mpr hname

/-- **The names recorded of a function** are those it declares in its own scope other than under the
rest of a pattern. -/
theorem Func.mem_recorded_iff {f : Func} {n : String} : n ∈ f.recorded ↔ f.Declares .named n := by
  have hvar := (hoistedAt_enumerates (stmts_enumerate f.body.stmts)).mem_iff (n := n)
  rw [recorded, List.mem_append, mem_paramNames_iff, Body.names, List.mem_append, hvar]
  simp only [lexicalNames, List.mem_flatMap, Stmt.mem_lexicalNames_iff]
  constructor
  · rintro ((⟨x, hx, ρ, hbinds⟩ | ⟨p, ρ, hrest, hbinds⟩) | ⟨π, hhoisted⟩ | ⟨x, hx,
      ⟨kind, ds, d, ρ, rfl, hkind, hd, hbinds⟩ | ⟨g, rfl, hname⟩ | ⟨k, rfl, hname⟩⟩)
    · exact .param hx hbinds
    · exact .restParam hrest hbinds
    · exact .hoisted hhoisted
    · exact .lexical hx hkind hd hbinds
    · exact .function hx hname
    · exact .classDecl hx hname
  · intro h
    cases h with
    | param hx hbinds => exact .inl (.inl ⟨_, hx, _, hbinds⟩)
    | restParam hrest hbinds => exact .inl (.inr ⟨_, _, hrest, hbinds⟩)
    | hoisted hhoisted => exact .inr (.inl ⟨_, hhoisted⟩)
    | lexical hx hkind hd hbinds =>
      exact .inr (.inr ⟨_, hx, .inl ⟨_, _, _, _, rfl, hkind, hd, hbinds⟩⟩)
    | function hx hname => exact .inr (.inr ⟨_, hx, .inr (.inl ⟨_, rfl, hname⟩)⟩)
    | classDecl hx hname => exact .inr (.inr ⟨_, hx, .inr (.inr ⟨_, rfl, hname⟩)⟩)

namespace Walk

/-- The walk inside a function, after the scope of the function has been opened. -/
def funcInside (givesParams : Bool) : Func → Lower Func
  | .mk name isAsync isGenerator thisParam span ps rest returnType b => do
    let given := if givesParams then ComponentClass.canonicalParams else []
    let ps ← params ps
    let rest ← optPattern rest
    let b ← body givesParams b
    let queued ← Lower.closeFunction
    return .mk name isAsync isGenerator thisParam span (given.map Build.param ++ ps) rest returnType
      (b.prepend queued)

/-- The names that a function is entered with: the parameters it is given, its own parameters, its
name if it sees that, and the names of its body. -/
def enteredNames (seesName givesParams : Bool) (f : Func) : List String :=
  (if givesParams then ComponentClass.canonicalParams else []) ++ f.paramNames
    ++ (if seesName then f.name.toList else []) ++ f.body.names

theorem func_eq_openScope (scope : ScopeKind) (seesName givesParams : Bool) (f : Func) :
    func scope seesName givesParams f
      = (do
        Lower.openScope scope (enteredNames seesName givesParams f)
        funcInside givesParams f) := by
  cases f
  rfl

end Walk

/-- **Hoisted names are listed in source order**, each as often as it is bound, but for those under
the rest of a pattern: the list has all of them if and only if there is no such name. Every function
is entered with the names that it declares in its own scope other than under a rest. -/
theorem varNames_in_order (xs : List Stmt) (f : Func) (scope : ScopeKind)
    (seesName givesParams : Bool) :
    (∃ places : List (Position × Manner × String), places.Pairwise (fun a b => a.1 < b.1)
        ∧ (∀ π r n, (π, r, n) ∈ places ↔ HoistedAt xs π r n)
        ∧ varNames xs = (places.filter fun a => a.2.1 = .named).map (fun a => a.2.2)
        ∧ (varNames xs = places.map (fun a => a.2.2) ↔ ∀ π r n, HoistedAt xs π r n → r = .named))
      ∧ Walk.func scope seesName givesParams f = (do
          Lower.openScope scope (Walk.enteredNames seesName givesParams f)
          Walk.funcInside givesParams f)
      ∧ f.recorded ⊆ Walk.enteredNames seesName givesParams f
      ∧ ∀ n, n ∈ f.recorded ↔ f.Declares .named n := by
  refine ⟨?_, Walk.func_eq_openScope scope seesName givesParams f, ?_,
    fun n => Func.mem_recorded_iff⟩
  · obtain ⟨places, hsorted, hmem, hnames⟩ := hoistedAt_enumerates (stmts_enumerate xs)
    refine ⟨places, hsorted, hmem, hnames, ?_⟩
    rw [hnames]
    exact Enumerates.names_eq_iff hmem
  · intro n hn
    simp only [Func.recorded, Walk.enteredNames, List.mem_append] at hn ⊢
    exact hn.elim (fun h => .inl (.inl (.inr h))) .inr

/-- `for (var a of b) try { var [c] = b; } catch { let d = b; }
finally { switch (b) { case b: var c; } }`. -/
example : varNames [.forOf false (.decl .var [.mk (.bind "a") none]) (.ident .none "b")
      (.try [.varDecl .var [.mk (.array [.bind "c"] none) (some (.ident .none "b"))]]
        (some (.mk none [.varDecl .let [.mk (.bind "d") (some (.ident .none "b"))]]))
        (some [.switch (.ident .none "b")
          [.mk (some (.ident .none "b")) [.varDecl .var [.mk (.bind "c") none]]]]))]
    = ["a", "c", "c"] := by
  decide

/-- **Names that are not listed**: `x` is bound by `var { ...x } = y;` and by the parameter of
`({ ...x }) => y`, and neither lists it. -/
theorem varNames_misses_rest :
    let rest : Pattern := .object [] (some (.bind "x"))
    let stmt : Stmt := .varDecl .var [.mk rest (some (.ident .none "y"))]
    let arrow : Func := .mk none false false none .none [.mk [] rest] none none
      (.expr (.ident .none "y"))
    (HoistedAt [stmt] [0, 0, 0] .rest "x" ∧ varNames [stmt] = [])
      ∧ arrow.Declares .rest "x" ∧ Walk.enteredNames false false arrow = [] :=
  ⟨⟨⟨0, _, _, rfl, rfl, .declared rfl (.objectRest .bind)⟩, rfl⟩,
    .param List.mem_cons_self (.objectRest .bind), rfl⟩

end JsxDialect
