import JsxDialect.Compile
import JsxDialect.Proofs.Component
import JsxDialect.Proofs.Composed
import JsxDialect.Proofs.Frames
import JsxDialect.Proofs.FunctionNames

/-!
# The names that a module binds

What a module declares in its own scope is said here by the rules of the language: one rule for each
form of declaration, for each part of a pattern and for each statement that a `var` may stand in
(`Module.Declares`). The names that the compiler takes to be bound are those that are declared other
than by a default export or under the rest of a pattern.

A tag or decorator whose name is taken to be bound is not imported: what the table of automatic
imports says of such names does not matter for anything that is compiled. Nor does it matter for the
rules whether children become render functions: `Unaffected` says both.
-/

namespace JsxDialect

/-! ## Declarations -/

/-- How a name is declared: by the name of a declaration or a part of its pattern, under the rest of
a pattern, or by a default export. -/
inductive Manner where
  | named
  | rest
  | defaultExport
deriving DecidableEq

/-- A pattern binds a name. -/
inductive Pattern.Binds : Pattern → Manner → String → Prop
  | bind {n : String} : Binds (.bind n) .named n
  | property {ps : List PatternProperty} {rest : Option Pattern} {k : Key} {p : Pattern}
      {shorthand : Bool} {r : Manner} {n : String} :
      .mk k p shorthand ∈ ps → Binds p r n → Binds (.object ps rest) r n
  | objectRest {ps : List PatternProperty} {p : Pattern} {r : Manner} {n : String} :
      Binds p r n → Binds (.object ps (some p)) .rest n
  | element {ps : List Pattern} {rest : Option Pattern} {p : Pattern} {r : Manner} {n : String} :
      p ∈ ps → Binds p r n → Binds (.array ps rest) r n
  | arrayRest {ps : List Pattern} {p : Pattern} {r : Manner} {n : String} :
      Binds p r n → Binds (.array ps (some p)) .rest n
  | withDefault {p : Pattern} {e : Expr} {r : Manner} {n : String} :
      Binds p r n → Binds (.withDefault p e) r n
  | typed {p : Pattern} {optional : Bool} {t : Option TypeExpr} {r : Manner} {n : String} :
      Binds p r n → Binds (.typed p optional t) r n

/-- A statement is directly inside another one, in the same function. -/
inductive Stmt.Inside : Stmt → Stmt → Prop
  | block {x : Stmt} {xs : List Stmt} : x ∈ xs → Inside x (.block xs)
  | consequent {e : Expr} {x : Stmt} {a : Option Stmt} : Inside x (.if e x a)
  | alternate {e : Expr} {x a : Stmt} : Inside a (.if e x (some a))
  | forBody {head : ForHead} {t u : Option Expr} {x : Stmt} : Inside x (.for head t u x)
  | forInBody {head : ForHead} {e : Expr} {x : Stmt} : Inside x (.forIn head e x)
  | forOfBody {isAwait : Bool} {head : ForHead} {e : Expr} {x : Stmt} :
      Inside x (.forOf isAwait head e x)
  | whileBody {e : Expr} {x : Stmt} : Inside x (.while e x)
  | doBody {e : Expr} {x : Stmt} : Inside x (.doWhile x e)
  | labeled {label : String} {x : Stmt} : Inside x (.labeled label x)
  | tryBlock {x : Stmt} {xs : List Stmt} {handler : Option Catch} {final : Option (List Stmt)} :
      x ∈ xs → Inside x (.try xs handler final)
  | handler {x : Stmt} {xs ys : List Stmt} {param : Option Pattern}
      {final : Option (List Stmt)} : x ∈ ys → Inside x (.try xs (some (.mk param ys)) final)
  | finalizer {x : Stmt} {xs ys : List Stmt} {handler : Option Catch} :
      x ∈ ys → Inside x (.try xs handler (some ys))
  | case {e : Expr} {t : Option Expr} {x : Stmt} {xs : List Stmt} {cases : List SwitchCase} :
      .mk t xs ∈ cases → x ∈ xs → Inside x (.switch e cases)

/-- A pattern is declared by a `var` in a statement, at any depth in the same function. -/
inductive Stmt.Hoists : Stmt → Pattern → Prop
  | declaration {p : Pattern} {e : Option Expr} {ds : List Declarator} :
      .mk p e ∈ ds → Hoists (.varDecl .var ds) p
  | forHead {p : Pattern} {e : Option Expr} {ds : List Declarator} {t u : Option Expr}
      {x : Stmt} : .mk p e ∈ ds → Hoists (.for (.decl .var ds) t u x) p
  | forInHead {p : Pattern} {e : Option Expr} {ds : List Declarator} {right : Expr} {x : Stmt} :
      .mk p e ∈ ds → Hoists (.forIn (.decl .var ds) right x) p
  | forOfHead {p : Pattern} {e : Option Expr} {ds : List Declarator} {isAwait : Bool}
      {right : Expr} {x : Stmt} : .mk p e ∈ ds → Hoists (.forOf isAwait (.decl .var ds) right x) p
  | inside {x y : Stmt} {p : Pattern} : x.Inside y → Hoists x p → Hoists y p

/-- A statement of a module declares a name in the scope of the module. -/
inductive Stmt.Declares : Stmt → Manner → String → Prop
  | imported {items : List ImportItem} {item : ImportItem} {source : String} :
      item ∈ items → Declares (.import (some items) source) .named item.localName
  | lexical {kind : DeclKind} {ds : List Declarator} {p : Pattern} {e : Option Expr} {r : Manner}
      {n : String} : kind ≠ .var → .mk p e ∈ ds → p.Binds r n → Declares (.varDecl kind ds) r n
  | hoisted {x : Stmt} {p : Pattern} {r : Manner} {n : String} :
      x.Hoists p → p.Binds r n → Declares x r n
  | function {f : Func} {n : String} : f.name = some n → Declares (.function f) .named n
  | classDecl {k : Class} {n : String} : k.name = some n → Declares (.classDecl k) .named n
  | exportedVariable {kind : DeclKind} {ds : List Declarator} {p : Pattern} {e : Option Expr}
      {r : Manner} {n : String} :
      .mk p e ∈ ds → p.Binds r n → Declares (.exportDecl (.varDecl kind ds)) r n
  | exportedFunction {f : Func} {n : String} :
      f.name = some n → Declares (.exportDecl (.function f)) .named n
  | exportedClass {k : Class} {n : String} :
      k.name = some n → Declares (.exportDecl (.classDecl k)) .named n
  | defaultFunction {f : Func} {n : String} :
      f.name = some n → Declares (.exportDefaultFunction f) .defaultExport n
  | defaultClass {k : Class} {n : String} :
      k.name = some n → Declares (.exportDefaultClass k) .defaultExport n

/-- A module declares a name in its own scope. -/
def Module.Declares (m : Module) (r : Manner) (n : String) : Prop :=
  ∃ x ∈ m.stmts, x.Declares r n

/-! ## What is listed -/

mutual

/-- **A name of a pattern is bound by it**, and not under a rest element. -/
theorem binds_of_mem_names {n : String} (p : Pattern) (h : n ∈ p.names) : p.Binds .named n := by
  cases p with
  | bind m =>
    obtain rfl := List.mem_singleton.mp h
    exact .bind
  | target | hole => cases h
  | object ps rest =>
    obtain ⟨k, p, shorthand, hp, hbinds⟩ := binds_of_mem_propertyPatternNames ps h
    exact .property hp hbinds
  | array ps rest =>
    obtain ⟨p, hp, hbinds⟩ := binds_of_mem_patternNames ps h
    exact .element hp hbinds
  | withDefault p _ => exact .withDefault (binds_of_mem_names p h)
  | typed p _ _ => exact .typed (binds_of_mem_names p h)

theorem binds_of_mem_patternNames {n : String} (ps : List Pattern) (h : n ∈ patternNames ps) :
    ∃ p ∈ ps, p.Binds .named n := by
  cases ps with
  | nil => cases h
  | cons p ps =>
    rcases List.mem_append.mp h with h | h
    · exact ⟨p, List.mem_cons_self, binds_of_mem_names p h⟩
    · obtain ⟨q, hq, hbinds⟩ := binds_of_mem_patternNames ps h
      exact ⟨q, List.mem_cons_of_mem _ hq, hbinds⟩

theorem binds_of_mem_propertyPatternNames {n : String} (ps : List PatternProperty)
    (h : n ∈ propertyPatternNames ps) :
    ∃ k p shorthand, .mk k p shorthand ∈ ps ∧ p.Binds .named n := by
  cases ps with
  | nil => cases h
  | cons x ps =>
    cases x with
    | mk k p shorthand =>
      rcases List.mem_append.mp h with h | h
      · exact ⟨k, p, shorthand, List.mem_cons_self, binds_of_mem_names p h⟩
      · obtain ⟨k', q, shorthand', hq, hbinds⟩ := binds_of_mem_propertyPatternNames ps h
        exact ⟨k', q, shorthand', List.mem_cons_of_mem _ hq, hbinds⟩

end

theorem names_subset_patternNames {p : Pattern} {ps : List Pattern} (h : p ∈ ps) :
    p.names ⊆ patternNames ps := by
  induction ps with
  | nil => cases h
  | cons q ps ih =>
    rcases List.mem_cons.mp h with rfl | h
    · exact List.subset_append_left _ _
    · exact List.subset_append_of_subset_right _ (ih h)

theorem names_subset_propertyPatternNames {k : Key} {p : Pattern} {shorthand : Bool}
    {ps : List PatternProperty} (h : .mk k p shorthand ∈ ps) :
    p.names ⊆ propertyPatternNames ps := by
  induction ps with
  | nil => cases h
  | cons q ps ih =>
    cases q with
    | mk k' q shorthand' =>
      rcases List.mem_cons.mp h with heq | h
      · obtain ⟨-, rfl, -⟩ := PatternProperty.mk.inj heq
        exact List.subset_append_left _ _
      · exact List.subset_append_of_subset_right _ (ih h)

/-- **The names of a pattern** are those it binds other than under a rest. -/
theorem Pattern.mem_names_iff {p : Pattern} {n : String} : n ∈ p.names ↔ p.Binds .named n := by
  refine ⟨binds_of_mem_names p, fun h => ?_⟩
  -- The manner is kept by every rule but those for a rest, which do not give this one.
  generalize hr : Manner.named = r at h
  induction h with
  | bind => exact List.mem_singleton_self _
  | property hp _ ih => exact names_subset_propertyPatternNames hp (ih hr)
  | element hp _ ih => exact names_subset_patternNames hp (ih hr)
  | withDefault _ ih | typed _ ih => exact ih hr
  | objectRest | arrayRest => cases hr

/-- The patterns of declared variables. -/
theorem mem_declaratorPatterns {p : Pattern} {ds : List Declarator} :
    p ∈ declaratorPatterns ds ↔ ∃ e, .mk p e ∈ ds := by
  simp only [declaratorPatterns, List.mem_map]
  constructor
  · rintro ⟨⟨q, e⟩, hd, rfl⟩
    exact ⟨e, hd⟩
  · rintro ⟨e, hd⟩
    exact ⟨_, hd, rfl⟩

/-- The names of declared variables. -/
theorem mem_declaratorNames {n : String} {ds : List Declarator} :
    n ∈ declaratorNames ds ↔ ∃ p e, .mk p e ∈ ds ∧ p.Binds .named n := by
  simp only [declaratorNames, List.mem_flatMap]
  constructor
  · rintro ⟨⟨p, e⟩, hd, hn⟩
    exact ⟨p, e, hd, Pattern.mem_names_iff.mp hn⟩
  · rintro ⟨p, e, hd, hn⟩
    exact ⟨_, hd, Pattern.mem_names_iff.mpr hn⟩

/-- The patterns of `var` in the head of a loop. -/
theorem ForHead.mem_varPatterns {p : Pattern} {head : ForHead} :
    p ∈ head.varPatterns ↔ ∃ ds e, head = .decl .var ds ∧ .mk p e ∈ ds := by
  cases head with
  | absent | expr | target => simp [ForHead.varPatterns]
  | decl kind ds =>
    cases kind with
    | var => simp [ForHead.varPatterns, mem_declaratorPatterns]
    | _ => simp [ForHead.varPatterns]

mutual

/-- **A pattern of `var` in a statement is hoisted from it.** -/
theorem hoists_of_mem_stmt {p : Pattern} (x : Stmt) (h : p ∈ x.varPatterns) : x.Hoists p := by
  cases x with
  | varDecl kind ds =>
    cases kind with
    | var =>
      obtain ⟨e, he⟩ := mem_declaratorPatterns.mp h
      exact .declaration he
    | _ => cases h
  | block xs =>
    obtain ⟨y, hy, hp⟩ := hoists_of_mem_stmts xs h
    exact .inside (.block hy) hp
  | «if» _ x a =>
    rcases List.mem_append.mp h with h | h
    · exact .inside .consequent (hoists_of_mem_stmt x h)
    · cases a with
      | none => cases h
      | some a => exact .inside .alternate (hoists_of_mem_stmt a h)
  | «for» head _ _ x =>
    rcases List.mem_append.mp h with h | h
    · obtain ⟨ds, e, rfl, he⟩ := ForHead.mem_varPatterns.mp h
      exact .forHead he
    · exact .inside .forBody (hoists_of_mem_stmt x h)
  | forIn head _ x =>
    rcases List.mem_append.mp h with h | h
    · obtain ⟨ds, e, rfl, he⟩ := ForHead.mem_varPatterns.mp h
      exact .forInHead he
    · exact .inside .forInBody (hoists_of_mem_stmt x h)
  | forOf _ head _ x =>
    rcases List.mem_append.mp h with h | h
    · obtain ⟨ds, e, rfl, he⟩ := ForHead.mem_varPatterns.mp h
      exact .forOfHead he
    · exact .inside .forOfBody (hoists_of_mem_stmt x h)
  | «while» _ x => exact .inside .whileBody (hoists_of_mem_stmt x h)
  | doWhile x _ => exact .inside .doBody (hoists_of_mem_stmt x h)
  | labeled _ x => exact .inside .labeled (hoists_of_mem_stmt x h)
  | «try» xs handler final =>
    rcases List.mem_append.mp h with h | h
    · rcases List.mem_append.mp h with h | h
      · obtain ⟨y, hy, hp⟩ := hoists_of_mem_stmts xs h
        exact .inside (.tryBlock hy) hp
      · cases handler with
        | none => cases h
        | some handler =>
          cases handler with
          | mk param ys =>
            obtain ⟨y, hy, hp⟩ := hoists_of_mem_stmts ys h
            exact .inside (.handler hy) hp
    · cases final with
      | none => cases h
      | some ys =>
        obtain ⟨y, hy, hp⟩ := hoists_of_mem_stmts ys h
        exact .inside (.finalizer hy) hp
  | switch _ cases =>
    obtain ⟨t, ys, hcase, y, hy, hp⟩ := hoists_of_mem_cases cases h
    exact .inside (.case hcase hy) hp
  | _ => cases h

/-- The same for several statements. -/
theorem hoists_of_mem_stmts {p : Pattern} (xs : List Stmt) (h : p ∈ varPatterns xs) :
    ∃ x ∈ xs, x.Hoists p := by
  cases xs with
  | nil => cases h
  | cons x xs =>
    rcases List.mem_append.mp h with h | h
    · exact ⟨x, List.mem_cons_self, hoists_of_mem_stmt x h⟩
    · obtain ⟨y, hy, hp⟩ := hoists_of_mem_stmts xs h
      exact ⟨y, List.mem_cons_of_mem _ hy, hp⟩

/-- The same for the cases of a `switch`. -/
theorem hoists_of_mem_cases {p : Pattern} (cases : List SwitchCase)
    (h : p ∈ caseVarPatterns cases) :
    ∃ t xs, .mk t xs ∈ cases ∧ ∃ x ∈ xs, x.Hoists p := by
  cases cases with
  | nil => cases h
  | cons x cases =>
    cases x with
    | mk t xs =>
      rcases List.mem_append.mp h with h | h
      · exact ⟨t, xs, List.mem_cons_self, hoists_of_mem_stmts xs h⟩
      · obtain ⟨t', ys, hcase, hys⟩ := hoists_of_mem_cases cases h
        exact ⟨t', ys, List.mem_cons_of_mem _ hcase, hys⟩

end

/-- The patterns of one statement are among those of all. -/
theorem varPatterns_subset {x : Stmt} {xs : List Stmt} (h : x ∈ xs) :
    x.varPatterns ⊆ varPatterns xs := by
  rw [varPatterns_eq_flatMap]
  exact fun p hp => List.mem_flatMap.mpr ⟨x, h, hp⟩

theorem varPatterns_subset_cases {t : Option Expr} {xs : List Stmt} {cases : List SwitchCase}
    (h : .mk t xs ∈ cases) : varPatterns xs ⊆ caseVarPatterns cases := by
  induction cases with
  | nil => cases h
  | cons y cases ih =>
    cases y with
    | mk t' ys =>
      rcases List.mem_cons.mp h with heq | h
      · obtain ⟨-, rfl⟩ := SwitchCase.mk.inj heq
        exact List.subset_append_left _ _
      · exact List.subset_append_of_subset_right _ (ih h)

/-- Those of a statement inside another one are among those of the other. -/
theorem Stmt.Inside.varPatterns_subset {x y : Stmt} (h : x.Inside y) :
    x.varPatterns ⊆ y.varPatterns := by
  cases h with
  | block hx => exact JsxDialect.varPatterns_subset hx
  | consequent => exact List.subset_append_left _ _
  | alternate | forBody | forInBody | forOfBody => exact List.subset_append_right _ _
  | whileBody | doBody | labeled => exact List.Subset.refl _
  | tryBlock hx =>
    exact List.subset_append_of_subset_left _
      (List.subset_append_of_subset_left _ (JsxDialect.varPatterns_subset hx))
  | handler hx =>
    exact List.subset_append_of_subset_left _
      (List.subset_append_of_subset_right _ (JsxDialect.varPatterns_subset hx))
  | finalizer hx => exact List.subset_append_of_subset_right _ (JsxDialect.varPatterns_subset hx)
  | case hcase hx =>
    exact List.Subset.trans (JsxDialect.varPatterns_subset hx) (varPatterns_subset_cases hcase)

/-- **The patterns of `var` declarations** are those at any depth in the same function. -/
theorem Stmt.mem_varPatterns_iff {x : Stmt} {p : Pattern} : p ∈ x.varPatterns ↔ x.Hoists p := by
  refine ⟨hoists_of_mem_stmt x, fun h => ?_⟩
  induction h with
  | declaration hd => exact mem_declaratorPatterns.mpr ⟨_, hd⟩
  | forHead hd | forInHead hd | forOfHead hd =>
    exact List.mem_append_left _ (mem_declaratorPatterns.mpr ⟨_, hd⟩)
  | inside hinside _ ih => exact hinside.varPatterns_subset ih

/-- What a statement declares in its block, it declares by name. -/
theorem Stmt.declares_of_mem_lexicalNames {x : Stmt} {n : String} (h : n ∈ x.lexicalNames) :
    x.Declares .named n := by
  cases x with
  | varDecl kind ds =>
    by_cases hkind : kind = .var
    · subst hkind
      cases h
    · rw [lexicalNames, if_neg (by simpa using hkind)] at h
      obtain ⟨p, e, hd, hbinds⟩ := mem_declaratorNames.mp h
      exact .lexical hkind hd hbinds
  | function f => exact .function (Option.mem_toList.mp h)
  | classDecl k => exact .classDecl (Option.mem_toList.mp h)
  | _ => cases h

/-- So it does with what it declares in the module. -/
theorem Stmt.declares_of_mem_moduleNames {x : Stmt} {n : String} (h : n ∈ x.moduleNames) :
    x.Declares .named n := by
  cases x with
  | «import» items source =>
    cases items with
    | none => cases h
    | some items =>
      obtain ⟨item, hitem, rfl⟩ := List.mem_map.mp h
      exact .imported hitem
  | exportDecl d =>
    cases d with
    | varDecl kind ds =>
      obtain ⟨p, e, hd, hbinds⟩ := mem_declaratorNames.mp h
      exact .exportedVariable hd hbinds
    | function f => exact .exportedFunction (Option.mem_toList.mp h)
    | classDecl k => exact .exportedClass (Option.mem_toList.mp h)
    | _ => cases h
  | _ => cases h

/-- **A statement declares a name** if it is one of its lexical names, of the names of its `var`
declarations, or of the names it imports or exports. -/
theorem Stmt.declares_named_iff {x : Stmt} {n : String} :
    x.Declares .named n ↔ n ∈ x.lexicalNames ∨ n ∈ x.varPatterns.flatMap Pattern.names
      ∨ n ∈ x.moduleNames := by
  constructor
  · intro h
    generalize hr : Manner.named = r at h
    cases h with
    | imported hitem => exact .inr (.inr (List.mem_map_of_mem hitem))
    | lexical hkind hd hbinds =>
      refine .inl ?_
      rw [lexicalNames, if_neg (by simpa using hkind)]
      exact mem_declaratorNames.mpr ⟨_, _, hd, hr ▸ hbinds⟩
    | hoisted hp hbinds =>
      exact .inr (.inl (List.mem_flatMap.mpr
        ⟨_, Stmt.mem_varPatterns_iff.mpr hp, Pattern.mem_names_iff.mpr (hr ▸ hbinds)⟩))
    | function hname | classDecl hname => exact .inl (Option.mem_toList.mpr hname)
    | exportedVariable hd hbinds =>
      exact .inr (.inr (mem_declaratorNames.mpr ⟨_, _, hd, hr ▸ hbinds⟩))
    | exportedFunction hname | exportedClass hname =>
      exact .inr (.inr (Option.mem_toList.mpr hname))
    -- The name of a default export is declared in another manner.
    | defaultFunction | defaultClass => cases hr
  · rintro (h | h | h)
    · exact declares_of_mem_lexicalNames h
    · obtain ⟨p, hp, hn⟩ := List.mem_flatMap.mp h
      exact .hoisted (Stmt.mem_varPatterns_iff.mp hp) (Pattern.mem_names_iff.mp hn)
    · exact declares_of_mem_moduleNames h

theorem mem_varNames_iff {n : String} {xs : List Stmt} :
    n ∈ varNames xs ↔ ∃ x ∈ xs, n ∈ x.varPatterns.flatMap Pattern.names := by
  rw [varNames, varPatterns_eq_flatMap, List.flatMap_assoc, List.mem_flatMap]

/-- **The names taken to be bound** are those that the module declares by name. -/
theorem Module.mem_topLevelNames_iff {m : Module} {n : String} :
    n ∈ m.topLevelNames ↔ m.Declares .named n := by
  unfold Module.Declares
  simp only [topLevelNames, lexicalNames, List.mem_append, mem_varNames_iff,
    Stmt.declares_named_iff]
  rw [List.mem_flatMap, List.mem_flatMap]
  grind

/-! ## Entries for bound names -/

namespace Header

/-- Requests do not change which names the module binds. -/
theorem topLevel_once (h : Header) (key hint : String) (declare : String → Option Stmt) :
    (h.once key hint declare).2.topLevel = h.topLevel := by
  unfold once
  split <;> rfl

theorem topLevel_helper (h : Header) (package : Option String) (f : Helper) :
    (h.helper package f).2.topLevel = h.topLevel := by
  cases package with
  | none => exact topLevel_once _ _ _ _
  | some p =>
    unfold helper addImport
    dsimp only
    split <;> rfl

end Header

/-- The setting with another variation of its options. -/
def LoweringSetting.vary (c : LoweringSetting) (v : Options.Variation) : LoweringSetting :=
  { c with options := c.options.vary v }

/-- **A step that a variation does not affect**: from states in which the names `T` are bound, it
does the same with the variation `v`, and leaves these names bound. -/
def Unaffected (T : List String) (v : Options.Variation) (c : LoweringSetting) (α : Type)
    (act : Lower α) : Prop :=
  ∀ s, s.header.topLevel = T →
    act (c.vary v) s = act c s ∧ (act c s).2.header.topLevel = T

namespace Unaffected

variable {T : List String} {v : Options.Variation} {c : LoweringSetting}

/-- Two steps that a variation does not affect. -/
protected theorem bind {α β : Type} {act : Lower α} {next : α → Lower β}
    (h : Unaffected T v c α act) (hnext : ∀ a, Unaffected T v c β (next a)) :
    Unaffected T v c β (act >>= next) := by
  intro s hs
  obtain ⟨heq, htop⟩ := h s hs
  obtain ⟨heq', htop'⟩ := hnext (act c s).1 (act c s).2 htop
  refine ⟨?_, htop'⟩
  calc (act >>= next) (c.vary v) s
      = next (act (c.vary v) s).1 (c.vary v) (act (c.vary v) s).2 := rfl
    _ = next (act c s).1 (c.vary v) (act c s).2 := by rw [heq]
    _ = (act >>= next) c s := heq'

/-- An option that does not vary. -/
theorem option {α : Type} {isOn : Options → Bool} {yes no : Lower α}
    (hon : isOn (c.options.vary v) = isOn c.options) (hyes : Unaffected T v c α yes)
    (hno : Unaffected T v c α no) :
    Unaffected T v c α (Lower.options >>= fun o => if isOn o then yes else no) := by
  intro s hs
  have hrun : ∀ d : LoweringSetting, (Lower.options >>= fun o => if isOn o then yes else no) d s
      = (if isOn d.options then yes else no) d s := fun _ => rfl
  rw [hrun, hrun, show isOn (c.vary v).options = isOn c.options from hon]
  split
  · exact hyes s hs
  · exact hno s hs

/-- A request to the header, which knows no options. -/
theorem ask {request : Header → String × Header}
    (h : ∀ h, (request h).2.topLevel = h.topLevel) :
    Unaffected T v c String (Lower.ask request) :=
  fun s hs => ⟨rfl, (h s.header).trans hs⟩

protected theorem get {α : Type} {next : Lowering → Lower α}
    (h : ∀ s, Unaffected T v c α (next s)) : Unaffected T v c α (MonadState.get >>= next) :=
  fun s hs => h s s hs

protected theorem pure {α : Type} (a : α) : Unaffected T v c α (Pure.pure a) :=
  fun _ hs => ⟨rfl, hs⟩

/-- A name that is not bound has the same import in both tables, and a bound one has none. -/
theorem imported?_eq (ht : ∀ n, n ∉ T → v.table.lookup n = c.options.autoImport.lookup n)
    {h : Header} (hh : h.topLevel = T) (name : String) :
    ComponentClass.imported? (c.vary v).options h name
      = ComponentClass.imported? c.options h name := by
  unfold ComponentClass.imported?
  split
  · rfl
  · rename_i hname
    refine ht name fun hmem => hname ?_
    rw [Header.isTopLevel, hh]
    exact List.contains_iff_mem.mpr hmem

/-- **The name of an element** is looked up in the table only if the module does not bind it. -/
theorem importName (ht : ∀ n, n ∉ T → v.table.lookup n = c.options.autoImport.lookup n)
    (name : ElementName) : Unaffected T v c _ (ElementRule.importName name) := by
  intro s hs
  -- A bound name is not looked up; for any other name both tables say the same.
  have himported := imported?_eq ht hs name.text
  unfold ComponentClass.imported? at himported
  unfold ElementRule.importName
  rw [Lower.get_bind, Lower.get_bind]
  cases hbound : s.header.isTopLevel name.text with
  | true => exact ⟨rfl, hs⟩
  | false =>
    rw [hbound] at himported
    simp only [Bool.false_eq_true, if_false] at himported ⊢
    rw [Lower.options_bind, Lower.options_bind, himported]
    cases c.options.autoImport.lookup name.text with
    | none => exact ⟨rfl, hs⟩
    | some i => exact ⟨rfl, (Header.topLevel_addDescriptor _ i).trans hs⟩

/-- So are the names of decorators. -/
theorem planDecorators (ht : ∀ n, n ∉ T → v.table.lookup n = c.options.autoImport.lookup n)
    (inherited : ComponentClass.Inherited) (ds : List Expr) :
    Unaffected T v c _ (ComponentClass.planDecorators inherited ds) := by
  induction ds generalizing inherited with
  | nil => exact .pure _
  | cons d ds ih =>
    intro s hs
    have hfor : ComponentClass.importFor? (c.vary v).options s.header d
        = ComponentClass.importFor? c.options s.header d := by
      unfold ComponentClass.importFor?
      simp only [imported?_eq ht hs]
    rw [ComponentClass.planDecorators_cons, ComponentClass.planDecorators_cons, hfor]
    cases ComponentClass.importFor? c.options s.header d with
    | none =>
      obtain ⟨heq, htop⟩ := ih inherited s hs
      simp only [heq]
      exact ⟨trivial, htop⟩
    | some found =>
      obtain ⟨span, name, i⟩ := found
      have hheader := (Header.topLevel_addDescriptor s.header i).trans hs
      obtain ⟨heq, htop⟩ := ih (inherited.orElse fun _ => i.inherits.map fun parent =>
        (span, parent)) { s with header := (s.header.addDescriptor i).2 } hheader
      simp only [heq]
      exact ⟨rfl, htop⟩

/-- Closing a function. -/
theorem closeFunction : Unaffected T v c _ Lower.closeFunction := by
  intro s hs
  unfold Lower.closeFunction
  rw [Lower.get_bind, Lower.get_bind]
  cases s.scopes.pop? with
  | none => exact ⟨rfl, hs⟩
  | some popped => exact ⟨rfl, hs⟩

/-- Whether a value is kept depends on options that do not vary. -/
theorem liftAttr (owner : Nat) (a : Attr) : Unaffected T v c _ (Lift.lowerAttr owner a) := by
  intro s hs
  unfold Lift.lowerAttr
  split
  · rename_i span name inside e
    have hkind : Lift.kind? (c.vary v).options e = Lift.kind? c.options e := rfl
    rw [Lower.options_bind, Lower.options_bind, hkind]
    cases Lift.kind? c.options e with
    | none => exact ⟨rfl, hs⟩
    | some kind =>
      dsimp only
      rw [Lower.get_bind, Lower.get_bind]
      cases Lift.isCaptureSafe s.scopes owner e with
      | false => exact ⟨rfl, hs⟩
      | true => exact ⟨rfl, hs⟩
  · exact ⟨rfl, hs⟩

theorem liftAttrs (as : List Attr) : Unaffected T v c _ (Lift.lowerAttrs as) := by
  have heach : ∀ owner as, Unaffected T v c _ (Lift.lowerEach owner as) := by
    intro owner as
    induction as with
    | nil => exact .pure _
    | cons a as ih => exact (liftAttr owner a).bind fun _ => ih.bind fun _ => .pure _
  refine .get fun s => ?_
  split
  · exact heach _ as
  · exact .pure as

/-- No rule is affected by what the table says of bound names, nor by whether children become render
functions. -/
theorem composable (ht : ∀ n, n ∉ T → v.table.lookup n = c.options.autoImport.lookup n) :
    Composable (Unaffected T v c) where
  pure := .pure
  bind := .bind
  option hon := option (hon _ _)
  report _ _ _ hs := ⟨rfl, hs⟩
  param _ := ask fun _ => Header.topLevel_once _ _ _ _
  helper _ := fun _ hs => ⟨rfl, (Header.topLevel_helper _ _ _).trans hs⟩
  throttleKey := ask fun _ => Header.topLevel_once _ _ _ _
  descriptor i := ask fun _ => Header.topLevel_addDescriptor _ i
  inComponent := .get fun _ => by split <;> exact .pure _
  classes _ _ hs := ⟨rfl, hs⟩
  importName := importName ht
  planDecorators := planDecorators ht

/-- Nothing that is compiled is affected by what the table says of bound names. -/
theorem walkable (ht : ∀ n, n ∉ T → v.table.lookup n = c.options.autoImport.lookup n)
    (hrenders : v.renders = c.options.asAttribute) : Walkable (Unaffected T v c) where
  toComposable := composable ht
  openScope _ _ _ hs := ⟨rfl, hs⟩
  closeScope _ hs := ⟨rfl, hs⟩
  closeFunction := closeFunction
  liftAttrs := liftAttrs
  renders hon := by
    have hvary : c.options.vary v = c.options.withTable v.table := by
      rw [Options.vary, hrenders]
      rfl
    exact option (hvary ▸ hon _ _)

end Unaffected

/-- Tables that agree on all names that the module does not bind give the same module. -/
theorem Module.compile_withTable (m : Module) (o : Options) (t : List (String × ImportDescriptor))
    (ht : ∀ n, n ∉ m.topLevelNames → t.lookup n = o.autoImport.lookup n) :
    m.compile (o.withTable t) = m.compile o := by
  have hwalk := (Unaffected.walkable (v := ⟨t, o.asAttribute⟩)
    (c := ⟨o, m.stmts.filterMap Stmt.defaultName⟩) ht rfl).stmts m.stmts (Lowering.initial m) rfl
  exact congrArg (fun r : List Stmt × Lowering =>
    (⟨r.2.header.finish { m with stmts := r.1 }, r.2.diagnostics⟩ : Compiled)) hwalk.1

/-- **Names that are declared by name are exactly the bound ones, and are never imported.** The
compiler takes a name to be bound if and only if the module declares it other than by a default
export or under the rest of a pattern, and whatever the table of automatic imports says of such a
name, the compiled module and the reports are the same. -/
theorem Module.bindings_exact (m : Module) :
    (∀ n, (Header.ofModule m).isTopLevel n = true ↔ m.Declares .named n)
      ∧ ∀ (o : Options) (t : List (String × ImportDescriptor)),
        (∀ n, ¬m.Declares .named n → t.lookup n = o.autoImport.lookup n) →
          m.compile (o.withTable t) = m.compile o := by
  refine ⟨fun n => ?_, fun o t ht => m.compile_withTable o t fun n hn => ht n fun hdeclares => ?_⟩
  · exact List.contains_iff_mem.trans Module.mem_topLevelNames_iff
  · exact hn (Module.mem_topLevelNames_iff.mpr hdeclares)

/-- `<tag />`. -/
def tagged (tag : String) : Stmt :=
  .expr (.element (.mk .none .none (.reference tag) [] [] false))

/-- `import { Row } from "rows"; for (var [Button] of ui) {}`, with both names as tags and one of
them as a decorator. -/
def bindingModule : Module :=
  ⟨[], [.import (some [.named "Row" "Row" false]) "rows",
    .forOf false (.decl .var [.mk (.array [.bind "Button"] none) none]) (.ident .none "ui")
      (.block []),
    tagged "Row", tagged "Button", .classDecl (.mk (some "A") [.ident .none "Row"] none [])]⟩

/-- Tags and decorators of an import and of a hoisted `var` in a pattern are left alone. -/
theorem Module.bindings_exact_bindingModule :
    let o : Options :=
      { autoImport := [("Row", ⟨"ui", "Row", none⟩), ("Button", ⟨"ui", "Button", none⟩)] }
    (Header.ofModule bindingModule).isTopLevel "Button" = true
      ∧ (∀ n, ¬bindingModule.Declares .named n →
        ([] : List (String × ImportDescriptor)).lookup n = o.autoImport.lookup n)
      ∧ bindingModule.compile (o.withTable []) = bindingModule.compile o := by
  intro o
  have hrow : bindingModule.Declares .named "Row" :=
    ⟨_, List.mem_cons_self, .imported List.mem_cons_self⟩
  have hbutton : bindingModule.Declares .named "Button" :=
    ⟨_, List.mem_cons_of_mem _ List.mem_cons_self,
      .hoisted (.forOfHead List.mem_cons_self) (.element List.mem_cons_self .bind)⟩
  have htable : ∀ n, ¬bindingModule.Declares .named n →
      ([] : List (String × ImportDescriptor)).lookup n = o.autoImport.lookup n := by
    intro n hn
    have hnerow : n ≠ "Row" := fun heq => hn (heq ▸ hrow)
    have hnebutton : n ≠ "Button" := fun heq => hn (heq ▸ hbutton)
    rw [List.lookup_cons, List.lookup_cons, beq_eq_false_iff_ne.mpr hnerow,
      beq_eq_false_iff_ne.mpr hnebutton]
  exact ⟨(bindingModule.bindings_exact.1 "Button").mpr hbutton, htable,
    bindingModule.bindings_exact.2 o [] htable⟩

/-- **Names that are bound all the same.** The name of a default export and a name under the rest
of a pattern are declared by the module, but they are not taken to be bound, and a tag of the name
is replaced by an import. -/
theorem Module.declared_not_recognised :
    let o : Options := { autoImport := [("Button", ⟨"ui", "Button", none⟩)] }
    let added : Stmt := .import (some [.named "Button" "_Button" false]) "ui"
    let exported : Stmt := .exportDefaultClass (.mk (some "Button") [] none [])
    let rest : Stmt := .varDecl .const
      [.mk (.object [] (some (.bind "Button"))) (some (.ident .none "x"))]
    (⟨[], [exported, tagged "Button"]⟩ : Module).Declares .defaultExport "Button"
      ∧ (Header.ofModule ⟨[], [exported, tagged "Button"]⟩).isTopLevel "Button" = false
      ∧ ((⟨[], [exported, tagged "Button"]⟩ : Module).compile o).module.stmts
        = [added, exported, tagged "_Button"]
      ∧ (⟨[], [rest, tagged "Button"]⟩ : Module).Declares .rest "Button"
      ∧ (Header.ofModule ⟨[], [rest, tagged "Button"]⟩).isTopLevel "Button" = false
      ∧ ((⟨[], [rest, tagged "Button"]⟩ : Module).compile o).module.stmts
        = [added, rest, tagged "_Button"] :=
  ⟨⟨_, List.mem_cons_self, .defaultClass rfl⟩, rfl, rfl,
    ⟨_, List.mem_cons_self, .lexical (by decide) List.mem_cons_self (.objectRest .bind)⟩, rfl, rfl⟩

end JsxDialect
