import JsxDialect.Lower.ComponentClass
import JsxDialect.Proofs.Contents
import JsxDialect.Proofs.Lists
import JsxDialect.Proofs.Names

/-!
# Which classes count as components

A class is taken for a component by the names of its decorators, and a decorator that is imported on
its own has its new name by then. So it is not the name in the source that counts, but the local
name of the import: the one it was imported under before, or else a candidate for the exported name.
A candidate with a number never ends with `Component`, and the one without a number does exactly if
the exported name does (`endsWithComponent_candidate`).

`Imports` is what asking for imports does to a header. `plans_planDecorators` says what a class
plans for its decorators in these terms, and what is noted of the class is read off it.
-/

namespace JsxDialect

/-! ## The ends of names -/

namespace ComponentClass

theorem endsWithComponent_iff {name : String} :
    endsWithComponent name = true ↔ "Component".toList <:+ name.toList :=
  List.isSuffixOf_iff_suffix

/-- The underscore that names are made with does not matter for their ends. -/
theorem endsWithComponent_base (hint : String) :
    endsWithComponent (Header.base hint) = endsWithComponent hint := by
  have hbase : (Header.base hint).toList = '_' :: hint.toList.dropWhile (· == '_') :=
    String.toList_ofList
  rw [Bool.eq_iff_iff, endsWithComponent_iff, endsWithComponent_iff, hbase]
  constructor
  · intro h
    rcases List.suffix_cons_iff.mp h with heq | hsuffix
    · cases heq
    · exact hsuffix.trans (List.dropWhile_suffix _)
  · rintro ⟨front, heq⟩
    refine List.suffix_cons_iff.mpr (.inr ?_)
    rw [← heq, List.dropWhile_append]
    split
    · exact List.suffix_refl _
    · exact List.suffix_append _ _

/-- A name with a number at its end ends with a digit. -/
theorem endsWithComponent_append_toString (name : String) (n : Nat) :
    endsWithComponent (name ++ toString n) = false := by
  have hdigits : (toString n).toList = Nat.toDigits 10 n := by
    rw [Nat.toString_eq_ofList_toDigits, String.toList_ofList]
  have hne : Nat.toDigits 10 n ≠ [] := Nat.toDigits_ne_nil
  rw [Bool.eq_false_iff, Ne, endsWithComponent_iff, String.toList_append, hdigits]
  intro h
  have hlast := h.getLast (by decide)
  rw [List.getLast_append_of_ne_nil _ hne] at hlast
  have hdigit := Nat.isDigit_of_mem_toDigits (by decide) (by decide) (List.getLast_mem hne)
  rw [← hlast] at hdigit
  exact absurd hdigit (by decide)

/-- **Of the names made for a hint**, only the one without a number can end with `Component`, and it
does if the hint does. -/
theorem endsWithComponent_candidate (hint : String) (n : Nat) :
    endsWithComponent (Header.candidate (Header.base hint) n) = true
      ↔ n = 0 ∧ endsWithComponent hint = true := by
  cases n with
  | zero =>
    change endsWithComponent (Header.base hint) = true ↔ _
    rw [endsWithComponent_base]
    exact ⟨fun h => ⟨rfl, h⟩, And.right⟩
  | succ n =>
    change endsWithComponent (Header.base hint ++ toString (n + 1 + 1)) = true ↔ _
    rw [endsWithComponent_append_toString]
    exact ⟨fun h => absurd h Bool.false_ne_true, fun h => absurd h.1 (Nat.succ_ne_zero n)⟩

end ComponentClass

/-! ## Asking for imports -/

namespace Header

/-- The memo of the import that a descriptor describes. -/
def importMemo (i : ImportDescriptor) : Memo :=
  .export i.module (some i.exported)

/-- Whether a name is the local name of an import that `h'` has and `h` has not. -/
def IsNewImport (h h' : Header) (x : String) : Prop :=
  ∃ i, h.lookup (importMemo i) = none ∧ h'.lookup (importMemo i) = some x

/-- **What asking for imports does to a header.** Names that were given out are recalled as before,
and the local name of a new import is a candidate for its exported name: the first one that is not
taken. -/
structure Imports (h h' : Header) : Prop where
  topLevel : h'.topLevel = h.topLevel
  taken : ∀ x, x ∈ h'.taken ↔ x ∈ h.taken ∨ h.IsNewImport h' x
  recalled : ∀ {k x}, h.lookup k = some x → h'.lookup k = some x
  made : ∀ {i x}, h.lookup (importMemo i) = none → h'.lookup (importMemo i) = some x →
    x ∉ h.taken ∧ ∃ n, x = candidate (base i.exported) n
      ∧ ∀ m < n, candidate (base i.exported) m ∈ h'.taken

variable {h h' h'' : Header}

theorem Imports.refl (h : Header) : h.Imports h where
  topLevel := rfl
  taken x := by
    refine ⟨.inl, ?_⟩
    rintro (hx | ⟨i, hnone, hsome⟩)
    · exact hx
    · rw [hnone] at hsome
      cases hsome
  recalled := id
  made hnone hsome := by rw [hnone] at hsome; cases hsome

theorem Imports.of_eq (heq : h' = h) : h.Imports h' :=
  heq ▸ .refl h

/-- The new imports of two steps are those of the first one and those of the second one. -/
theorem Imports.isNewImport_trans (hh' : h.Imports h') (hh'' : h'.Imports h'') (x : String) :
    h.IsNewImport h'' x ↔ h.IsNewImport h' x ∨ h'.IsNewImport h'' x := by
  constructor
  · rintro ⟨i, hnone, hsome⟩
    cases hmid : h'.lookup (importMemo i) with
    | none => exact .inr ⟨i, hmid, hsome⟩
    | some y =>
      obtain rfl : y = x := Option.some.inj ((hh''.recalled hmid).symm.trans hsome)
      exact .inl ⟨i, hnone, hmid⟩
  · rintro (⟨i, hnone, hsome⟩ | ⟨i, hnone, hsome⟩)
    · exact ⟨i, hnone, hh''.recalled hsome⟩
    · refine ⟨i, ?_, hsome⟩
      by_contra hne
      obtain ⟨y, hy⟩ := Option.ne_none_iff_exists'.mp hne
      rw [hh'.recalled hy] at hnone
      cases hnone

theorem Imports.trans (hh' : h.Imports h') (hh'' : h'.Imports h'') : h.Imports h'' where
  topLevel := hh''.topLevel.trans hh'.topLevel
  taken x := by rw [hh''.taken, hh'.taken, hh'.isNewImport_trans hh'', or_assoc]
  recalled hx := hh''.recalled (hh'.recalled hx)
  made {i x} hnone hsome := by
    cases hmid : h'.lookup (importMemo i) with
    | none =>
      obtain ⟨hnew, hfirst⟩ := hh''.made hmid hsome
      exact ⟨fun hmem => hnew ((hh'.taken x).mpr (.inl hmem)), hfirst⟩
    | some y =>
      obtain rfl : y = x := Option.some.inj ((hh''.recalled hmid).symm.trans hsome)
      obtain ⟨hnew, n, hx, hbefore⟩ := hh'.made hnone hmid
      exact ⟨hnew, n, hx, fun m hm => (hh''.taken _).mpr (.inl (hbefore m hm))⟩

theorem topLevel_addDescriptor (h : Header) (i : ImportDescriptor) :
    (h.addDescriptor i).2.topLevel = h.topLevel := by
  unfold addDescriptor addImport
  split <;> rfl

/-- A new import takes the first free name for it. -/
theorem imports_of_makes {i : ImportDescriptor} (htop : h'.topLevel = h.topLevel)
    (hmiss : h.lookup (importMemo i) = none)
    (hmakes : h.Makes i.exported (some (importMemo i)) h') : h.Imports h' := by
  have hself : h'.lookup (importMemo i) = some (h.freshName i.exported) :=
    hmakes.lookup_self _ rfl
  -- Only this import is new.
  have hnew : ∀ {j x}, h.lookup (importMemo j) = none → h'.lookup (importMemo j) = some x →
      importMemo i = importMemo j ∧ x = h.freshName i.exported := by
    intro j x hnone hsome
    by_cases hij : importMemo i = importMemo j
    · rw [← hij, hself] at hsome
      exact ⟨hij, (Option.some.inj hsome).symm⟩
    · rw [hmakes.lookup_other _ (fun heq => hij (Option.some.inj heq)), hnone] at hsome
      cases hsome
  refine ⟨htop, fun x => ?_, fun {k x} hx => ?_, fun {j x} hnone hsome => ?_⟩
  · rw [hmakes.taken, List.mem_cons, or_comm]
    refine or_congr_right ⟨?_, ?_⟩
    · rintro rfl
      exact ⟨i, hmiss, hself⟩
    · rintro ⟨j, hnone, hsome⟩
      exact (hnew hnone hsome).2
  · have hne : some (importMemo i) ≠ some k := by
      intro heq
      rw [← Option.some.inj heq, hmiss] at hx
      cases hx
    rw [hmakes.lookup_other k hne, hx]
  · obtain ⟨hij, rfl⟩ := hnew hnone hsome
    obtain ⟨-, hexported⟩ := Memo.export.inj hij
    obtain ⟨n, hn, -, hbefore⟩ := firstFree_spec h.taken (base i.exported)
    rw [← Option.some.inj hexported]
    refine ⟨freshName_notMem h _, n, hn, fun m hm => ?_⟩
    rw [hmakes.taken]
    exact List.mem_cons_of_mem _ (hbefore m hm)

/-- **One import**: it can be looked up from then on under the name that was given out for it. -/
theorem imports_addDescriptor (h : Header) (i : ImportDescriptor) :
    h.Imports (h.addDescriptor i).2
      ∧ (h.addDescriptor i).2.lookup (importMemo i) = some (h.addDescriptor i).1 := by
  rcases ask_cases (.descriptor i) h with ⟨k, name, hk, hname, hask⟩ | ⟨hmiss, hname, hmakes⟩
  · obtain rfl : importMemo i = k := Option.some.inj hk
    change h.addDescriptor i = (name, h) at hask
    rw [hask]
    exact ⟨.refl h, hname⟩
  · change (h.addDescriptor i).1 = h.freshName i.exported at hname
    change h.Makes i.exported (some (importMemo i)) (h.addDescriptor i).2 at hmakes
    rw [hname]
    exact ⟨imports_of_makes (topLevel_addDescriptor h i) (hmiss _ rfl) hmakes,
      hmakes.lookup_self _ rfl⟩

end Header

/-- A step after a step whose result is known. -/
theorem Lower.bind_eq {c : LoweringSetting} {α β : Type} {act : Lower α} {next : α → Lower β}
    {s t : Lowering} {a : α} (h : act c s = (a, t)) : (act >>= next) c s = next a c t := by
  change next (act c s).1 c (act c s).2 = _
  rw [h]

/-! ## Decorators -/

namespace ComponentClass

open Header (importMemo)

variable {c : LoweringSetting} {h h' h'' : Header}

/-- The import for a name: the one that is listed for it, unless the module binds the name. -/
def imported? (o : Options) (h : Header) (name : String) : Option ImportDescriptor :=
  if h.isTopLevel name then none else o.autoImport.lookup name

/-- The import for a decorator, with the place and the name of the decorator. -/
def importFor? (o : Options) (h : Header) (d : Expr) : Option (Span × String × ImportDescriptor) :=
  (decoratorName? d).bind fun (span, name) => (imported? o h name).map fun i => (span, name, i)

/-- Only the names that the module binds matter for what is imported. -/
theorem importFor?_congr (o : Options) (htop : h'.topLevel = h.topLevel) (d : Expr) :
    importFor? o h' d = importFor? o h d := by
  have himported : imported? o h' = imported? o h := by
    funext name
    rw [imported?, imported?, Header.isTopLevel, Header.isTopLevel, htop]
  rw [importFor?, importFor?, himported]

/-- **One decorator**: the plan for those after it is made from the header with its import. -/
theorem planDecorators_cons (inherited : Inherited) (d : Expr) (ds : List Expr) (s : Lowering) :
    planDecorators inherited (d :: ds) c s = (match importFor? c.options s.header d with
      | none => let r := planDecorators inherited ds c s; ((none :: r.1.1, r.1.2), r.2)
      | some (span, name, i) =>
        let new := s.header.addDescriptor i
        let asked := i.inherits.map fun parent => (span, parent)
        let r := planDecorators (inherited.orElse fun _ => asked) ds c { s with header := new.2 }
        ((some ⟨new.1, (isBoundAround name c s).1⟩ :: r.1.1, r.1.2), r.2)) := by
  rw [planDecorators]
  refine (Lower.bind_eq (a := importFor? c.options s.header d) (t := s) ?_).trans ?_
  · unfold importFor?
    cases decoratorName? d with
    | none => rfl
    | some place =>
      change (if s.header.isTopLevel place.2 then _ else _ :
        Lower (Option (Span × String × ImportDescriptor))) c s = _
      simp only [Option.bind_some, imported?]
      split <;> rfl
  · cases importFor? c.options s.header d with
    | none => rfl
    | some found => rfl

/-- What is planned for a decorator, from the header `h` and with the imports of `h'`: nothing, or
the local name of its import. -/
def Planned (o : Options) (h h' : Header) (r : Option Renaming) (d : Expr) : Prop :=
  match importFor? o h d with
  | none => r = none
  | some (_, _, i) => ∃ new, r = some new ∧ h'.lookup (importMemo i) = some new.name

theorem Planned.mono {o : Options} {r : Option Renaming} {d : Expr} (hp : Planned o h h' r d)
    (himports : h'.Imports h'') : Planned o h h'' r d := by
  unfold Planned at hp ⊢
  split
  · simpa only [*] using hp
  · rename_i hfor
    rw [hfor] at hp
    obtain ⟨new, hnew, hlookup⟩ := hp
    exact ⟨new, hnew, himports.recalled hlookup⟩

theorem Planned.congr {o : Options} {r : Option Renaming} {d : Expr}
    (htop : h'.topLevel = h.topLevel) (hp : Planned o h' h'' r d) : Planned o h h'' r d := by
  unfold Planned at hp ⊢
  rwa [importFor?_congr o htop] at hp

/-- **The decorators of a class**: their imports are asked for, and each decorator gets the local
name of its import. -/
theorem plans_planDecorators (inherited : Inherited) (ds : List Expr) (s : Lowering) :
    s.header.Imports (planDecorators inherited ds c s).2.header
      ∧ (planDecorators inherited ds c s).2.classes = s.classes
      ∧ List.Forall₂ (Planned c.options s.header (planDecorators inherited ds c s).2.header)
        (planDecorators inherited ds c s).1.1 ds := by
  induction ds generalizing inherited s with
  | nil => exact ⟨.refl _, rfl, .nil⟩
  | cons d ds ih =>
    rw [planDecorators_cons]
    cases hfor : importFor? c.options s.header d with
    | none =>
      obtain ⟨himports, hclasses, hplans⟩ := ih inherited s
      refine ⟨himports, hclasses, .cons ?_ hplans⟩
      simp only [Planned, hfor]
    | some found =>
      obtain ⟨span, name, i⟩ := found
      obtain ⟨hone, hname⟩ := Header.imports_addDescriptor s.header i
      obtain ⟨himports, hclasses, hplans⟩ :=
        ih (inherited.orElse fun _ => i.inherits.map fun parent => (span, parent))
          { s with header := (s.header.addDescriptor i).2 }
      refine ⟨hone.trans himports, hclasses, .cons ?_ (hplans.imp fun _ _ => .congr hone.topLevel)⟩
      simp only [Planned, hfor]
      exact ⟨_, rfl, himports.recalled hname⟩

/-! ## Classes -/

/-- Looking at the constructor only reports. -/
theorem planConstructor_state (name : Option String) (ms : List Member) (s : Lowering) :
    (planConstructor name ms c s).2.header = s.header
      ∧ (planConstructor name ms c s).2.classes = s.classes := by
  unfold planConstructor
  cases constructor? ms with
  | none => exact ⟨rfl, rfl⟩
  | some f =>
    dsimp only
    by_cases hnone : (describeParams f).isEmpty = true
    · rw [if_pos hnone]
      exact ⟨rfl, rfl⟩
    · rw [if_neg hnone]
      split <;> exact ⟨rfl, rfl⟩

/-- **Entering a class**, after the plan for its decorators: a base class may be imported, and the
class is noted as a component if one of its decorators is one of a component under its planned
name. -/
theorem enter_state (isExpr : Bool) (name : Option String) (base : Option Expr) (ms : List Member)
    {ds : List Expr} {s t : Lowering} {rs : List (Option Renaming)} {inherited : Inherited}
    (hplan : planDecorators none ds c s = ((rs, inherited), t)) :
    t.header.Imports (enter isExpr (.mk name ds base ms) c s).2.header
      ∧ (enter isExpr (.mk name ds base ms) c s).2.classes
        = ⟨(rs.zip ds).any fun p => isComponentDecorator p.1 p.2, if isExpr then name else none⟩
          :: t.classes := by
  -- The look at the constructor comes last. It may report, but changes neither part of the state.
  have hlast : ∀ (isComponent : Bool) (plan : Bool → ClassPlan) (u : Lowering),
      let act : Lower ClassPlan :=
        if isComponent && c.options.constructorProps then
          planConstructor name ms >>= (pure <| plan ·)
        else pure false >>= (pure <| plan ·)
      (act c u).2.header = u.header ∧ (act c u).2.classes = u.classes := by
    intro isComponent plan u
    dsimp only
    split
    · exact planConstructor_state name ms u
    · exact ⟨rfl, rfl⟩
  rw [show enter isExpr (.mk name ds base ms) c s = _ from Lower.bind_eq hplan]
  cases base with
  | some b =>
    obtain ⟨hheader, hclasses⟩ := hlast _ _ { t with classes := _ :: t.classes }
    exact ⟨.of_eq hheader, hclasses⟩
  | none =>
    cases inherited with
    | none =>
      obtain ⟨hheader, hclasses⟩ := hlast _ _ { t with classes := _ :: t.classes }
      exact ⟨.of_eq hheader, hclasses⟩
    | some asked =>
      obtain ⟨hheader, hclasses⟩ := hlast _ _ { t with
        header := (t.header.addDescriptor asked.2).2, classes := _ :: t.classes }
      exact ⟨(Header.imports_addDescriptor t.header asked.2).1.trans (.of_eq hheader), hclasses⟩

/-- The name that a decorator is judged by, from the header `h` and with the imports of `h'`: the
local name of its import, if it is imported, and the name as written otherwise. -/
def judgedName (o : Options) (h h' : Header) (name : String) : String :=
  match imported? o h name with
  | none => name
  | some i => (h'.lookup (importMemo i)).getD name

theorem isComponentDecorator_iff {o : Options} {r : Option Renaming} {d : Expr}
    (hp : Planned o h h' r d) :
    isComponentDecorator r d = true ↔ ∃ span name, decoratorName? d = some (span, name)
      ∧ endsWithComponent (judgedName o h h' name) = true := by
  unfold isComponentDecorator
  cases hname : decoratorName? d with
  | none => simp
  | some place =>
    obtain ⟨span, name⟩ := place
    have hjudged : (r.map (·.name)).getD name = judgedName o h h' name := by
      cases himported : imported? o h name with
      | none =>
        simp only [Planned, importFor?, hname, himported, Option.bind_some, Option.map_none] at hp
        simp only [judgedName, himported, hp, Option.map_none, Option.getD_none]
      | some i =>
        simp only [Planned, importFor?, hname, himported, Option.bind_some, Option.map_some] at hp
        obtain ⟨new, rfl, hlookup⟩ := hp
        simp only [judgedName, himported, hlookup, Option.map_some, Option.getD_some]
    simp [hjudged]

/-- **Which classes count as components.** From every state, entering a class notes it as a
component if and only if one of its decorators is judged by a name that ends with `Component`: the
name as written, or the local name of its import if it is imported on its own. Such a local name was
given out for an earlier import, or it is the first candidate for the exported name that is neither
taken nor the local name of another new import; then it ends with `Component` exactly if it has no
number and the exported name ends so. -/
theorem enter_isComponent_iff (c : LoweringSetting) (isExpr : Bool) (k : Class) (s : Lowering) :
    let t := (enter isExpr k c s).2
    (∃ frame, t.classes = frame :: s.classes
        ∧ (frame.isComponent = true ↔ ∃ d ∈ k.decorators, ∃ span name,
          decoratorName? d = some (span, name)
            ∧ endsWithComponent (judgedName c.options s.header t.header name) = true))
      ∧ ∀ d ∈ k.decorators, ∀ span name i, decoratorName? d = some (span, name) →
        imported? c.options s.header name = some i →
        ∃ x, judgedName c.options s.header t.header name = x
          ∧ t.header.lookup (importMemo i) = some x
          ∧ (s.header.lookup (importMemo i) = some x
            ∨ ∃ n, x = Header.candidate (Header.base i.exported) n ∧ x ∉ s.header.taken
              ∧ (∀ m < n, Header.candidate (Header.base i.exported) m ∈ s.header.taken
                ∨ s.header.IsNewImport t.header (Header.candidate (Header.base i.exported) m))
              ∧ (endsWithComponent x = true ↔ n = 0 ∧ endsWithComponent i.exported = true)) := by
  obtain ⟨name, ds, base, ms⟩ := k
  obtain ⟨himports, hclasses, hplans⟩ := plans_planDecorators (c := c) none ds s
  rcases hplan : planDecorators none ds c s with ⟨⟨rs, inherited⟩, u⟩
  rw [hplan] at himports hclasses hplans
  obtain ⟨hbase, hpushed⟩ := enter_state isExpr name base ms hplan
  -- The base class is imported after the plans, and an import leaves earlier names as they are.
  have hplans := hplans.imp fun _ _ hp => hp.mono hbase
  have himports := himports.trans hbase
  refine ⟨⟨_, hclasses ▸ hpushed, any_zip_iff isComponentDecorator_iff hplans⟩, ?_⟩
  intro d hd span name' i hname himported
  obtain ⟨r, -, hp⟩ := exists_of_forall₂ hplans hd
  simp only [Planned, importFor?, hname, himported, Option.bind_some, Option.map_some] at hp
  obtain ⟨new, -, hlookup⟩ := hp
  refine ⟨new.name, ?_, hlookup, ?_⟩
  · simp only [judgedName, himported]
    rw [hlookup, Option.getD_some]
  · cases hold : s.header.lookup (importMemo i) with
    | some x =>
      rw [himports.recalled hold] at hlookup
      exact .inl hlookup
    | none =>
      obtain ⟨hnew, n, hx, hbefore⟩ := himports.made hold hlookup
      refine .inr ⟨n, hx, hnew, fun m hm => (himports.taken _).mp (hbefore m hm), ?_⟩
      rw [hx]
      exact endsWithComponent_candidate i.exported n

/-- What is noted of a class with one decorator, which is listed for import under an exported name,
in a module that uses the given names. -/
def noted (used : List String) (written exported : String) : Option Bool :=
  let c : LoweringSetting := ⟨{ autoImport := [(written, ⟨"m", exported, none⟩)] }, []⟩
  let m : Module := ⟨[], used.map fun name => .expr (.ident .none name)⟩
  let k : Class := .mk (some "A") [.ident .none written] none []
  (enter false k c ⟨Header.ofModule m, .empty, [], []⟩).2.classes.head?.map (·.isComponent)

/-- **The name as written does not decide**: `@Component` is not enough if `_Component` is a name of
the module or if the exported name is another one, and `@View` is enough if it is imported as
`Component`. -/
theorem noted_ne_asWritten :
    (endsWithComponent "Component" = true
        ∧ noted ["_Component"] "Component" "Component" = some false)
      ∧ noted [] "Component" "View" = some false
      ∧ endsWithComponent "View" = false ∧ noted [] "View" "Component" = some true := by
  decide +kernel

end ComponentClass

end JsxDialect
