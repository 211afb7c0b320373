import JsxDialect.Proofs.KnownWalk

/-!
# What a compiled module declares twice

In a valid module every function fits, and in a compiled one every function has an origin. So what
is declared twice in a compiled module is known (`compile_declares`): at the top level nothing is,
and in a function only what comes of one of two things. An element binds a name twice, and the
function has these names as parameters; or a constructor was given parameters although its
statements declare a name of theirs.
-/

namespace JsxDialect

variable {m : Module}

/-- The parameters are names that an element binds, one of them twice. -/
def BindsTwice (m : Module) (role : FunctionRole) (f : Func) : Prop :=
  role = .arrow ∧ ∃ names, Listed m names ∧ ¬names.Nodup ∧ f.declared = .ofParams names

/-- A constructor without parameters that was given some, of which one is among the names of the
kind that its statements declare. -/
def GivenAgain (m : Module) (kind : Declared → List String) (role : FunctionRole) (f : Func) :
    Prop :=
  role.isConstructor = true ∧ ∃ f₀, (role, f₀) ∈ m.functions true ∧ f₀.declared.params = []
    ∧ f.declared = f₀.declared.give ComponentClass.canonicalParams
    ∧ ∃ n ∈ ComponentClass.canonicalParams, n ∈ kind f₀.declared

namespace Declared

theorem fits_ofParams {names : List String} : (ofParams names).fits = true ↔ names.Nodup := by
  rw [← Check.distinct_iff]
  simp [fits, ofParams, Check.distinct, Check.disjoint]

/-- A function that is given parameters fits if its statements declare none of them. -/
theorem fits_give {d : Declared} (hparams : d.params = []) {names : List String}
    (hnames : names.Nodup) :
    (d.give names).fits = true ↔ d.fits = true ∧ ∀ n ∈ names, n ∉ d.own := by
  have hdistinct := Check.distinct_iff.mpr hnames
  have hown : Check.disjoint d.own names = true ↔ ∀ n ∈ names, n ∉ d.own := by
    rw [Check.disjoint_iff]
    exact ⟨fun h n hn hown => h n hown hn, fun h n hown hn => h n hn hown⟩
  -- Without parameters there is nothing to compare with.
  have hnone : Check.distinct [] = true := rfl
  have hapart : Check.disjoint d.own [] = true := Check.disjoint_iff.mpr fun _ _ => List.not_mem_nil
  simp only [fits, give, hparams, List.append_nil, Bool.and_eq_true, hown, hdistinct, hnone, hapart]
  tauto

theorem clashes_iff {d : Declared} :
    d.clashes = true ↔ d.fits = false ∨ ∃ n ∈ d.params, n ∈ d.functions := by
  have hdisjoint : Check.disjoint d.params d.functions = false
      ↔ ∃ n ∈ d.params, n ∈ d.functions := by
    rw [← Bool.not_eq_true, Check.disjoint_iff]
    push Not
    rfl
  rw [clashes, Bool.or_eq_true, Bool.not_eq_true', Bool.not_eq_true', hdisjoint]

/-- A function that fits and is given parameters clashes if its statements declare one of them. -/
theorem clashes_give {d : Declared} (hfits : d.fits = true) (hparams : d.params = [])
    {names : List String} (hnames : names.Nodup) :
    (d.give names).clashes = true ↔ ∃ n ∈ names, n ∈ d.own ++ d.functions := by
  have hown : (d.give names).fits = false ↔ ∃ n ∈ names, n ∈ d.own := by
    rw [← Bool.not_eq_true, fits_give hparams hnames, not_and_or]
    push Not
    exact ⟨fun h => h.resolve_left (absurd hfits), .inr⟩
  have hgiven : (d.give names).params = names := by
    rw [give, hparams, List.append_nil]
  rw [clashes_iff, hown, hgiven]
  simp only [List.mem_append, and_or_left, exists_or]
  rfl

end Declared

section

variable {role : FunctionRole} {f : Func}

theorem BindsTwice.fits_eq_false (h : BindsTwice m role f) : f.declared.fits = false := by
  obtain ⟨-, names, -, htwice, hdeclared⟩ := h
  rw [hdeclared, ← Bool.not_eq_true]
  exact fun hfits => htwice (Declared.fits_ofParams.mp hfits)

theorem GivenAgain.fits_eq_false (h : GivenAgain m Declared.own role f) :
    f.declared.fits = false := by
  obtain ⟨-, f₀, -, hnone, hdeclared, n, hn, hown⟩ := h
  rw [hdeclared, ← Bool.not_eq_true]
  exact fun hfits => ((Declared.fits_give hnone (by decide)).mp hfits).2 n hn hown

/-- **A function of known origin that does not fit**, if those of the module do. -/
theorem Origin.fits_eq_false_iff (h : Origin m role f)
    (hvalid : ∀ p ∈ m.functions true, p.2.declared.fits = true) :
    f.declared.fits = false ↔ BindsTwice m role f ∨ GivenAgain m Declared.own role f := by
  refine ⟨fun hfits => ?_, fun h => h.elim (·.fits_eq_false) (·.fits_eq_false)⟩
  cases h with
  | made hclashes =>
    have hclash : f.declared.clashes = true := Declared.clashes_iff.mpr (.inl hfits)
    exact absurd (hclash.symm.trans hclashes) (by decide)
  | kept hmem hdeclared =>
    rw [hdeclared, hvalid _ hmem] at hfits
    cases hfits
  | bound hlisted hdeclared =>
    refine .inl ⟨rfl, _, hlisted, fun hnodup => ?_, hdeclared⟩
    rw [hdeclared, Declared.fits_ofParams.mpr hnodup] at hfits
    cases hfits
  | @given _ _ f₀ hrole hmem hnone hdeclared =>
    refine .inr ⟨hrole, f₀, hmem, hnone, hdeclared, ?_⟩
    by_contra hfresh
    push Not at hfresh
    have hgiven := (Declared.fits_give hnone (by decide)).mpr ⟨hvalid _ hmem, hfresh⟩
    rw [hdeclared, hgiven] at hfits
    cases hfits

/-- **A function of known origin that clashes**, if those of the module fit. -/
theorem Origin.clashes_iff (h : Origin m role f)
    (hvalid : ∀ p ∈ m.functions true, p.2.declared.fits = true) :
    f.declared.clashes = true
      ↔ (∃ f₀, (role, f₀) ∈ m.functions true ∧ f.declared = f₀.declared
          ∧ f₀.declared.clashes = true)
        ∨ BindsTwice m role f ∨ GivenAgain m (fun d => d.own ++ d.functions) role f := by
  constructor
  · intro hclash
    cases h with
    | made hclashes => exact absurd (hclash.symm.trans hclashes) (by decide)
    | kept hmem hdeclared => exact .inl ⟨_, hmem, hdeclared, hdeclared ▸ hclash⟩
    | bound hlisted hdeclared =>
      refine .inr (.inl ⟨rfl, _, hlisted, fun hnodup => ?_, hdeclared⟩)
      rw [hdeclared, Declared.clashes_ofParams hnodup] at hclash
      cases hclash
    | given hrole hmem hnone hdeclared =>
      rw [hdeclared, Declared.clashes_give (hvalid _ hmem) hnone (by decide)] at hclash
      exact .inr (.inr ⟨hrole, _, hmem, hnone, hdeclared, hclash⟩)
  · rintro (⟨f₀, -, hdeclared, hclash⟩ | htwice | ⟨-, f₀, hmem, hnone, hdeclared, hagain⟩)
    · rwa [hdeclared]
    · exact Declared.clashes_iff.mpr (.inl htwice.fits_eq_false)
    · rw [hdeclared]
      exact (Declared.clashes_give (hvalid _ hmem) hnone (by decide)).mpr hagain

end

/-- **What a compiled module declares twice**, if the module is valid and no error is reported. At
the top level nothing is. A function does not fit just if its parameters are names that an element
binds, one of them twice, or if it is a constructor that was given parameters although its
statements declare one of them. A function with the name of a parameter is no error, but comes of
the same two things, unless the module had both. -/
theorem Module.compile_declares (m : Module) (o : Options) (hvalid : m.isValid = true)
    (hnone : ∀ d ∈ (m.compile o).diagnostics, d.severity ≠ .error) :
    Check.topDistinct (m.compile o).module.stmts = true
      ∧ ∀ p ∈ (m.compile o).module.functions true,
        (p.2.declared.fits = false ↔ BindsTwice m p.1 p.2 ∨ GivenAgain m Declared.own p.1 p.2)
        ∧ (p.2.declared.clashes = true
          ↔ (∃ f₀, (p.1, f₀) ∈ m.functions true ∧ p.2.declared = f₀.declared
              ∧ f₀.declared.clashes = true)
            ∨ BindsTwice m p.1 p.2
            ∨ GivenAgain m (fun d => d.own ++ d.functions) p.1 p.2) := by
  constructor
  · have htop : Check.topDistinct m.stmts = true := by
      rw [isValid, Bool.and_eq_true, Bool.and_eq_true] at hvalid
      exact hvalid.1.1
    exact topDistinct_finish htop (walked_module hnone).1.header.declares _ _
  · intro p hp
    have horigin := known_compile hnone p hp
    have hfits := fits_of_isValid hvalid
    exact ⟨horigin.fits_eq_false_iff hfits, horigin.clashes_iff hfits⟩

/-- `<Item as={a, a}>{a}</Item>` and
`@Component class A extends B { constructor() { super(); let props = a; } }`. -/
def declaredAgain : Module :=
  let item : Element := .mk .none .none (.reference "Item")
    [Build.attr .none "as" (.sequence .none [.ident .none "a", .ident .none "a"])]
    [.container (some (.ident .none "a"))] true
  let start : Func := .mk none false false none .none [] none none
    (.block [] [.expr (.call .none (.super .none) [] false),
      Build.declare .let "props" (.ident .none "a")])
  ⟨[], [.expr (.element item),
    .classDecl (.mk (some "A") [.ident .none "Component"] (some (.ident .none "B"))
      [.method [] false .constructor (.ident "constructor") start])]⟩

/-- The module is valid and nothing is reported, and still the arrow function has two parameters of
one name, and the constructor declares a parameter of its own. -/
theorem not_fits_declaredAgain :
    declaredAgain.isValid = true ∧ (declaredAgain.compile {}).diagnostics = []
      ∧ (∃ p ∈ (declaredAgain.compile {}).module.functions true,
        p.1 = .arrow ∧ p.2.declared = .ofParams ["a", "a"])
      ∧ ∃ p ∈ (declaredAgain.compile {}).module.functions true, p.1.isConstructor = true
        ∧ p.2.declared = ⟨true, false, ["props", "context"], ["props"], [], []⟩ := by
  refine ⟨by decide +kernel, rfl, ?_, ?_⟩ <;> decide +kernel

/-- Both cases occur. -/
theorem compile_declares_both :
    declaredAgain.isValid = true
      ∧ (∀ d ∈ (declaredAgain.compile {}).diagnostics, d.severity ≠ .error)
      ∧ Check.topDistinct (declaredAgain.compile {}).module.stmts = true
      ∧ (∃ p ∈ (declaredAgain.compile {}).module.functions true, BindsTwice declaredAgain p.1 p.2)
      ∧ ∃ p ∈ (declaredAgain.compile {}).module.functions true,
        GivenAgain declaredAgain Declared.own p.1 p.2 := by
  have hvalid : declaredAgain.isValid = true := by decide +kernel
  have hnone : ∀ d ∈ (declaredAgain.compile {}).diagnostics, d.severity ≠ .error := by
    decide +kernel
  have harrow : ∃ p ∈ (declaredAgain.compile {}).module.functions true,
      p.1.isConstructor = false ∧ p.2.declared.fits = false := by decide +kernel
  have hstart : ∃ p ∈ (declaredAgain.compile {}).module.functions true,
      p.1 ≠ .arrow ∧ p.2.declared.fits = false := by decide +kernel
  obtain ⟨htop, hfunctions⟩ := Module.compile_declares declaredAgain {} hvalid hnone
  refine ⟨hvalid, hnone, htop, ?_, ?_⟩
  · obtain ⟨p, hp, hrole, hfits⟩ := harrow
    refine ⟨p, hp, ((hfunctions p hp).1.mp hfits).resolve_right fun h => ?_⟩
    exact absurd (h.1.symm.trans hrole) (by decide)
  · obtain ⟨p, hp, hrole, hfits⟩ := hstart
    exact ⟨p, hp, ((hfunctions p hp).1.mp hfits).resolve_left fun h => hrole h.1⟩

end JsxDialect
