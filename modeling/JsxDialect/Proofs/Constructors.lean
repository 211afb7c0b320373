import JsxDialect.Proofs.Introduced

/-!
# The constructors of components

A class is entered with a plan, and what the walk makes of it is what it makes of the class that the
plan describes: `Class.entered`. So a constructor can be looked at before and after.

Of the constructors among the members only the first one is looked at. A class may declare several,
of which the last one has the body, and then the parameters of that one are neither made nor
reported unless the first one reads the same. `enter_settles_iff` is the exact condition.
-/

namespace JsxDialect

/-! ## Parameters -/

/-- The name that a pattern is, with a type or without. -/
def Pattern.identifier? : Pattern → Option String
  | .bind name => some name
  | .typed p _ _ => p.identifier?
  | _ => none

/-- A function whose parameters are those of the constructor of a component. -/
structure Func.IsCanonical (f : Func) : Prop where
  params : f.params.map (·.pattern.identifier?) = ComponentClass.canonicalParams.map some
  rest : f.rest = none

/-- A function without parameters. -/
def Func.HasNoParams (f : Func) : Prop :=
  f.params = [] ∧ f.rest = none

namespace ComponentClass

/-- Only a name reads as one of the names of the parameters. -/
theorem describe_eq_iff {name : String} (hname : name ∈ canonicalParams) (p : Pattern) :
    describe p = name ↔ p.identifier? = some name := by
  -- The names end with letters, and what else a pattern reads as does not.
  have hlast : ∀ text : String, text.toList.getLast?.any (·.isAlpha) = false → text ≠ name := by
    rintro text htext rfl
    simp only [canonicalParams, List.mem_cons, List.not_mem_nil, or_false] at hname
    rcases hname with rfl | rfl <;> revert htext <;> decide
  fun_induction describe p with
  | case1 x => simp [Pattern.identifier?]
  | case2 => simpa [Pattern.identifier?] using hlast "\x7b...\x7d" (by decide)
  | case3 => simpa [Pattern.identifier?] using hlast "[...]" (by decide)
  | case4 p value ih =>
    have hdots : (describe p ++ " = ...").toList.getLast? = some '.' := by
      rw [String.toList_append, List.getLast?_append]
      rfl
    simpa [Pattern.identifier?] using hlast (describe p ++ " = ...") (by rw [hdots]; decide)
  | case5 p optional type ih => exact ih
  | case6 => simpa [Pattern.identifier?] using hlast "" (by decide)
  | case7 => simpa [Pattern.identifier?] using hlast "" (by decide)

theorem map_describe_eq_iff {names : List String} (hnames : ∀ x ∈ names, x ∈ canonicalParams)
    (ps : List Param) :
    ps.map (fun p => describe p.pattern) = names
      ↔ ps.map (·.pattern.identifier?) = names.map some := by
  induction ps generalizing names with
  | nil => cases names <;> simp
  | cons p ps ih =>
    cases names with
    | nil => simp
    | cons x names =>
      simp only [List.map_cons, List.cons.injEq]
      exact and_congr (describe_eq_iff (hnames x List.mem_cons_self) _)
        (ih fun y hy => hnames y (List.mem_cons_of_mem _ hy))

/-- **The parameters read as those of a component** exactly if they are. -/
theorem describeParams_eq_iff {f : Func} :
    describeParams f = canonicalParams ↔ f.IsCanonical := by
  unfold describeParams
  cases hrest : f.rest with
  | none =>
    rw [Option.map_none, Option.toList_none, List.append_nil, map_describe_eq_iff fun _ hx => hx]
    exact ⟨fun h => ⟨h, hrest⟩, (·.params)⟩
  | some p =>
    refine iff_of_false (fun h => ?_) (fun h => ?_)
    · -- The last one would read as `...`, and `context` does not begin with a point.
      have hlast := congrArg List.getLast? h
      rw [Option.map_some, Option.toList_some, List.getLast?_concat] at hlast
      have hhead := congrArg (·.toList.head?) (Option.some.inj hlast)
      rw [String.toList_append] at hhead
      exact absurd (Option.some.inj hhead) (by decide)
    · rw [h.rest] at hrest
      cases hrest

theorem describeParams_eq_nil_iff {f : Func} : describeParams f = [] ↔ f.HasNoParams :=
  List.isEmpty_iff.symm.trans describeParams_isEmpty

end ComponentClass

/-! ## Calls of the base constructor -/

/-- The arguments of a call of the base constructor that stands as a statement, in wrappers or
not. -/
def Stmt.baseArguments? : Stmt → Option (List Expr)
  | .expr e =>
    match e.inner with
    | .call _ (.super _) args _ => some args
    | _ => none
  | _ => none

/-- The name that is passed as an argument. -/
def Expr.passedName? (e : Expr) : Option String :=
  match e.inner with
  | .ident _ name => some name
  | _ => none

/-- Whether a statement, if it is a call of the base constructor, passes on the parameters of a
component. -/
def Stmt.PassesOn (s : Stmt) : Prop :=
  ∀ args, s.baseArguments? = some args →
    args.map Expr.passedName? = ComponentClass.canonicalParams.map some

/-- **The calls that pass the parameters on** are those that did so before and those without
wrappers. -/
theorem Stmt.passesOn_canonical_iff (s : Stmt) :
    s.canonical.PassesOn ↔ s.isBaseCall = true ∨ s.PassesOn := by
  unfold Stmt.canonical Walk.forward?
  split
  · refine iff_of_true (fun args hargs => ?_) (.inl rfl)
    obtain rfl : _ = args := Option.some.inj hargs
    rfl
  · rename_i hother
    have hplain : s.isBaseCall = false := by
      unfold Stmt.isBaseCall
      split
      · exact absurd rfl (hother _ _ _ _)
      · rfl
    rw [Option.getD_none, hplain]
    simp

/-! ## The class that a plan describes -/

/-- The class that is planned: with its decorators renamed, its new base class, and the parameters
that its constructor is given. -/
def Class.entered (plan : ComponentClass.ClassPlan) : Class → Class
  | .mk name decorators superClass members =>
    .mk name (ComponentClass.renameDecorators plan.renamings decorators)
      (superClass.orElse fun _ => plan.newSuper)
      (if plan.givesParams then canonicalMembers members else members)

namespace ComponentClass

variable {c : LoweringSetting}

/-- The plan that leaves a class as it is. -/
def ClassPlan.untouched : ClassPlan :=
  ⟨[], none, false⟩

theorem renameDecorator_none (d : Expr) : renameDecorator none d = d := by
  unfold renameDecorator
  split <;> first | rfl | contradiction

/-- Without renamings the decorators stay. -/
theorem renameDecorators_none {rs : List (Option Renaming)} {ds : List Expr}
    (h : ∀ r ∈ rs, r = none) : renameDecorators rs ds = ds := by
  fun_induction renameDecorators rs ds with
  | case1 r rs d ds ih =>
    rw [h r List.mem_cons_self, renameDecorator_none,
      ih fun r hr => h r (List.mem_cons_of_mem _ hr)]
  | case2 => rfl

/-- Where nothing is listed for import, nothing is planned. -/
theorem planDecorators_nothing (hempty : c.options.autoImport = []) (inherited : Inherited)
    (ds : List Expr) (s : Lowering) :
    planDecorators inherited ds c s = ((ds.map fun _ => none, inherited), s) := by
  have hnone : ∀ d, importFor? c.options s.header d = none := by
    intro d
    cases hname : decoratorName? d <;> simp [importFor?, imported?, hname, hempty]
  induction ds with
  | nil => rfl
  | cons d ds ih =>
    rw [planDecorators_cons, hnone]
    simp only [ih, List.map_cons]

theorem planDecorators_diagnostics (inherited : Inherited) (ds : List Expr) (s : Lowering) :
    (planDecorators inherited ds c s).2.diagnostics = s.diagnostics := by
  induction ds generalizing inherited s with
  | nil => rfl
  | cons d ds ih =>
    rw [planDecorators_cons]
    split
    · exact ih _ _
    · exact ih _ _

/-- What is reported of a constructor whose parameters are others than those of a component. -/
def constructorReport (name : Option String) (f : Func) (span : Span) : Diagnostic :=
  ⟨.constructorParameters (name.getD "<anonymous>") (describeParams f), span⟩

/-- **What is made of a constructor**: it gets parameters if it has none, and others than those of a
component are reported. -/
theorem planConstructor_eq {name : Option String} {ms : List Member} {f : Func}
    (hf : constructor? ms = some f) (s : Lowering) :
    planConstructor name ms c s = ((describeParams f).isEmpty,
      if describeParams f = [] ∨ describeParams f = canonicalParams then s
      else { s with
        diagnostics := s.diagnostics ++ [constructorReport name f (paramSpan f)] }) := by
  unfold planConstructor
  rw [hf]
  dsimp only
  by_cases hnone : describeParams f = []
  · simp only [hnone, true_or, if_true]
    rfl
  · have hsome : (describeParams f).isEmpty = false := List.isEmpty_eq_false_iff.mpr hnone
    simp only [hsome, Bool.false_eq_true, if_false]
    by_cases hcanonical : describeParams f = canonicalParams
    · simp only [hcanonical, or_true, if_true]
      rfl
    · simp only [hnone, hcanonical, or_false, if_false, bne_iff_ne, ne_eq, not_false_iff, if_true]
      rfl

/-- A class before its constructor is looked at: how its decorators are renamed, its new base class,
what is noted of it, and the state. -/
structure Outset (c : LoweringSetting) (s : Lowering) (k : Class) where
  renamings : List (Option Renaming)
  newSuper : Option Expr
  frame : ClassFrame
  state : Lowering
  planned : ∃ h', List.Forall₂ (Planned c.options s.header h') renamings k.decorators
  base : ∀ e, newSuper = some e → ∃ span x, e = .ident span x
  nothing : c.options.autoImport = [] → (∀ r ∈ renamings, r = none) ∧ newSuper = none
  classes : state.classes = frame :: s.classes
  diagnostics : state.diagnostics = s.diagnostics

/-- The plan for a class and the state it is entered in, from what is made of the constructor. -/
def Outset.enter {s : Lowering} {k : Class} (o : Outset c s k) : ClassPlan × Lowering :=
  if o.frame.isComponent && c.options.constructorProps then
    let r := planConstructor k.name k.members c o.state
    (⟨o.renamings, o.newSuper, r.1⟩, r.2)
  else (⟨o.renamings, o.newSuper, false⟩, o.state)

/-- **Entering a class** ends with a look at its constructor. -/
theorem exists_outset (isExpr : Bool) (k : Class) (s : Lowering) :
    ∃ o : Outset c s k, enter isExpr k c s = o.enter := by
  obtain ⟨name, ds, base, ms⟩ := k
  obtain ⟨-, hclasses, hplans⟩ := plans_planDecorators (c := c) none ds s
  have hdiagnostics := planDecorators_diagnostics (c := c) none ds s
  have hnothing := fun hempty => planDecorators_nothing (c := c) hempty none ds s
  rcases hplan : planDecorators none ds c s with ⟨⟨rs, inherited⟩, u⟩
  rw [hplan] at hclasses hplans hdiagnostics hnothing
  have hrs : c.options.autoImport = [] → (∀ r ∈ rs, r = none) ∧ inherited = none := by
    intro hempty
    obtain ⟨hrs, hinherited⟩ := Prod.mk.inj (Prod.mk.inj (hnothing hempty)).1
    exact ⟨by simp [hrs], hinherited⟩
  let frame : ClassFrame :=
    ⟨(rs.zip ds).any fun p => isComponentDecorator p.1 p.2, if isExpr then name else none⟩
  -- Whether a base class is imported or not, the rest of the run differs only in the state.
  obtain ⟨new, header, hbase, hnew, heq⟩ : ∃ (new : Option Expr) (header : Header),
      (∀ e, new = some e → ∃ span x, e = .ident span x) ∧ (inherited = none → new = none)
        ∧ enter isExpr (.mk name ds base ms) c s
          = (if frame.isComponent && c.options.constructorProps
              then planConstructor name ms >>= fun gives => pure ⟨rs, new, gives⟩
              else pure false >>= fun gives => pure ⟨rs, new, gives⟩ : Lower ClassPlan)
            c { u with header, classes := frame :: u.classes } := by
    cases base with
    | some b => exact ⟨none, u.header, by simp, fun _ => rfl, Lower.bind_eq hplan⟩
    | none =>
      cases inherited with
      | none => exact ⟨none, u.header, by simp, fun _ => rfl, Lower.bind_eq hplan⟩
      | some asked =>
        exact ⟨_, _, fun _ he => ⟨_, _, (Option.some.inj he).symm⟩, by simp, Lower.bind_eq hplan⟩
  refine ⟨⟨rs, new, frame, { u with header, classes := frame :: u.classes }, ⟨_, hplans⟩, hbase,
    fun h => ⟨(hrs h).1, hnew (hrs h).2⟩, congrArg (frame :: ·) hclasses, hdiagnostics⟩,
    heq.trans ?_⟩
  unfold Outset.enter
  split <;> rfl

theorem inComponent_of_classes {t : Lowering} {frame : ClassFrame} {frames : List ClassFrame}
    (h : t.classes = frame :: frames) : (Lower.inComponent c t).1 = frame.isComponent := by
  obtain ⟨header, scopes, classes, diagnostics⟩ := t
  obtain rfl : classes = _ := h
  rfl

/-- **A component is entered** with what is made of its constructor. -/
theorem Outset.enter_component {s : Lowering} {k : Class} (o : Outset c s k) {f : Func}
    (hon : c.options.constructorProps = true)
    (hcomponent : (Lower.inComponent c o.enter.2).1 = true) (hf : constructor? k.members = some f) :
    o.enter = (⟨o.renamings, o.newSuper, (describeParams f).isEmpty⟩,
      if describeParams f = [] ∨ describeParams f = canonicalParams then o.state
      else { o.state with diagnostics :=
        s.diagnostics ++ [constructorReport k.name f (paramSpan f)] }) := by
  have hframe : o.frame.isComponent = true := by
    have hclasses : o.enter.2.classes = o.frame :: s.classes := by
      unfold Outset.enter
      split
      · exact (planConstructor_state _ _ _).2.trans o.classes
      · exact o.classes
    rwa [inComponent_of_classes hclasses] at hcomponent
  unfold Outset.enter
  rw [hframe, hon, Bool.and_self, if_pos rfl, planConstructor_eq hf, o.diagnostics]

end ComponentClass

namespace Walk

open ComponentClass

/-- **A decorator may be renamed before it is walked**: it is a name or a call of one, if it is
renamed at all. -/
theorem expr_renameDecorator {o : Options} {h h' : Header} {r : Option Renaming} {d : Expr}
    (hp : Planned o h h' r d) : expr (renameDecorator r d) = renameDecorator r <$> expr d := by
  cases r with
  | none =>
    rw [renameDecorator_none, show renameDecorator none = id from funext renameDecorator_none,
      id_map]
  | some r =>
    have happly : ∀ span old, expr (r.apply span old) = pure (r.apply span old) := by
      intro span old
      unfold Renaming.apply
      split <;> rfl
    cases hname : decoratorName? d with
    | none => simp [Planned, importFor?, hname] at hp
    | some place =>
      unfold decoratorName? at hname
      split at hname
      · exact happly _ _
      · rename_i span inside old args optional
        change (expr (r.apply inside old) >>= fun callee => exprs args >>= fun args =>
          pure (Expr.call span callee args optional)) = _
        rw [happly]
        rfl
      · cases hname

theorem exprs_renameDecorators {o : Options} {h h' : Header} {rs : List (Option Renaming)}
    {ds : List Expr} (hp : List.Forall₂ (Planned o h h') rs ds) :
    exprs (renameDecorators rs ds) = renameDecorators rs <$> exprs ds := by
  induction hp with
  | nil => rfl
  | cons hhead _ ih =>
    simp only [renameDecorators, exprs, expr_renameDecorator hhead, ih, map_eq_pure_bind,
      bind_assoc, pure_bind]

theorem optExpr_orElse {new : Option Expr} (hnew : ∀ e, new = some e → ∃ span x, e = .ident span x)
    (base : Option Expr) :
    optExpr (base.orElse fun _ => new) = (·.orElse fun _ => new) <$> optExpr base := by
  cases base with
  | some b => simp only [Option.orElse_some, optExpr, map_eq_pure_bind, bind_assoc, pure_bind]
  | none =>
    cases new with
    | none => rfl
    | some e =>
      obtain ⟨span, x, rfl⟩ := hnew e rfl
      rfl

theorem clsAfter_entered {plan : ClassPlan} {k : Class} {o : Options} {h h' : Header}
    (hplanned : List.Forall₂ (Planned o h h') plan.renamings k.decorators)
    (hnew : ∀ e, plan.newSuper = some e → ∃ span x, e = .ident span x) :
    clsAfter plan k = clsAfter .untouched (k.entered plan) := by
  obtain ⟨name, ds, base, ms⟩ := k
  have hmembers : members plan.givesParams ms
      = members false (if plan.givesParams then canonicalMembers ms else ms) := by
    cases plan.givesParams with
    | true => exact members_canonical ms
    | false => rfl
  have hdecorators : exprs (renameDecorators plan.renamings ds)
      = renameDecorators plan.renamings <$> exprs ds := exprs_renameDecorators hplanned
  have hsame : ∀ base : Option Expr, (base.orElse fun _ => none) = base :=
    fun base => by rw [Option.orElse_eq_or, Option.or_none]
  simp only [Class.entered, clsAfter, hmembers, hdecorators, optExpr_orElse hnew, map_eq_pure_bind,
    bind_assoc, pure_bind, ClassPlan.untouched, renameDecorators, hsame]

/-- **Walking a class is walking the class that is planned.** -/
theorem cls_eq_entered (isExpr : Bool) (k : Class) (c : LoweringSetting) (s : Lowering) :
    cls isExpr k c s = clsAfter .untouched (k.entered (enter isExpr k c s).1) c
      (enter isExpr k c s).2 := by
  obtain ⟨o, ho⟩ := exists_outset (c := c) isExpr k s
  obtain ⟨h', hplanned⟩ := o.planned
  have hplan : (enter isExpr k c s).1.renamings = o.renamings
      ∧ (enter isExpr k c s).1.newSuper = o.newSuper := by
    rw [ho, Outset.enter]
    split <;> exact ⟨rfl, rfl⟩
  rw [← hplan.1] at hplanned
  rw [cls_eq_clsAfter, ← clsAfter_entered hplanned (hplan.2 ▸ o.base)]
  rfl

end Walk

/-! ## The constructor at a place -/

open ComponentClass (constructor?)

/-- A member is a constructor, or the first constructor is looked for after it. -/
theorem Member.constructor_or_skipped (m : Member) :
    (∃ decorators isStatic key f, m = .method decorators isStatic .constructor key f)
      ∨ ∀ ms, constructor? (m :: ms) = constructor? ms
        ∧ canonicalMembers (m :: ms) = m :: canonicalMembers ms := by
  cases m with
  | method decorators isStatic kind key f =>
    cases kind with
    | constructor => exact .inl ⟨_, _, _, _, rfl⟩
    | method | getter | setter => exact .inr fun _ => ⟨rfl, rfl⟩
  | field decorators isStatic key optional type value => exact .inr fun _ => ⟨rfl, rfl⟩
  | staticBlock stmts => exact .inr fun _ => ⟨rfl, rfl⟩

theorem length_canonicalMembers (ms : List Member) :
    (canonicalMembers ms).length = ms.length := by
  induction ms with
  | nil => rfl
  | cons m ms ih =>
    rcases m.constructor_or_skipped with ⟨_, _, _, _, rfl⟩ | hskip
    · rfl
    · rw [(hskip ms).2, List.length_cons, List.length_cons, ih]

/-- Members without a constructor stay, and it is looked for after them. -/
theorem canonicalMembers_append_of_none {ms : List Member} (hnone : constructor? ms = none)
    (ms' : List Member) : constructor? (ms ++ ms') = constructor? ms'
      ∧ canonicalMembers (ms ++ ms') = ms ++ canonicalMembers ms' := by
  induction ms with
  | nil => exact ⟨rfl, rfl⟩
  | cons m ms ih =>
    rcases m.constructor_or_skipped with ⟨_, _, _, _, rfl⟩ | hskip
    · cases hnone
    · obtain ⟨hfirst, hmembers⟩ := ih ((hskip ms).1.symm.trans hnone)
      rw [List.cons_append, (hskip _).1, (hskip _).2, hfirst, hmembers]
      exact ⟨rfl, rfl⟩

/-- Members after a constructor stay. -/
theorem canonicalMembers_append_of_some {ms : List Member} {g : Func}
    (hsome : constructor? ms = some g) (ms' : List Member) : constructor? (ms ++ ms') = some g
      ∧ canonicalMembers (ms ++ ms') = canonicalMembers ms ++ ms' := by
  induction ms with
  | nil => cases hsome
  | cons m ms ih =>
    rcases m.constructor_or_skipped with ⟨_, _, _, _, rfl⟩ | hskip
    · exact ⟨hsome, rfl⟩
    · obtain ⟨hfirst, hmembers⟩ := ih ((hskip ms).1.symm.trans hsome)
      rw [List.cons_append, (hskip _).1, (hskip _).2, (hskip _).2, hfirst, hmembers]
      exact ⟨rfl, rfl⟩

theorem Func.stmts_canonical (f : Func) :
    f.canonical.body.stmts = f.body.stmts.map Stmt.canonical := by
  obtain ⟨name, isAsync, isGenerator, thisParam, span, ps, rest, type, b⟩ := f
  cases b <;> rfl

/-- Whether the constructor at a place of a class has the parameters of a component. If `f`, which
it was before, had none, it has to pass them on. -/
def Class.IsCanonicalAt (k : Class) (place : Nat) (f : Func) : Prop :=
  ∃ decorators isStatic key f',
    k.members[place]? = some (.method decorators isStatic .constructor key f')
      ∧ f'.IsCanonical ∧ (f.HasNoParams → ∀ x ∈ f'.body.stmts, x.PassesOn)

theorem Class.isCanonicalAt_iff {k : Class} {before after : List Member} {ds : List Expr}
    {isStatic : Bool} {key : Key} {f f' : Func} {place : Nat}
    (hmembers : k.members = before ++ .method ds isStatic .constructor key f' :: after)
    (hplace : before.length = place) :
    k.IsCanonicalAt place f
      ↔ f'.IsCanonical ∧ (f.HasNoParams → ∀ x ∈ f'.body.stmts, x.PassesOn) := by
  have hat : k.members[place]? = some (.method ds isStatic .constructor key f') := by
    rw [hmembers, ← hplace]
    simp
  constructor
  · rintro ⟨_, _, _, _, hmember, hcanonical⟩
    rw [hat] at hmember
    cases hmember
    exact hcanonical
  · exact fun hcanonical => ⟨_, _, _, _, hat, hcanonical⟩

/-- Whether entering a class, which has become `k'`, has left it as it is but for its imports, and
has reported the parameters of a constructor as the only thing. -/
structure Class.IsReported (k k' : Class) (f : Func) (c : LoweringSetting) (s t : Lowering) :
    Prop where
  report : ∃ span, t.diagnostics
    = s.diagnostics ++ [ComponentClass.constructorReport k.name f span]
  members : k'.members = k.members
  untouched : c.options.autoImport = [] → k' = k

namespace ComponentClass

variable {c : LoweringSetting} {s : Lowering} {k : Class}

/-- **A component is reported** as a constructor exactly if its first constructor reads the same,
and reads as other parameters than none and those of a component. -/
theorem Outset.isReported_iff (o : Outset c s k) {f first : Func}
    (henter : o.enter = (⟨o.renamings, o.newSuper, (describeParams first).isEmpty⟩,
      if describeParams first = [] ∨ describeParams first = canonicalParams then o.state
      else { o.state with diagnostics :=
        s.diagnostics ++ [constructorReport k.name first (paramSpan first)] })) :
    k.IsReported (k.entered o.enter.1) f c s o.enter.2
      ↔ describeParams first = describeParams f
        ∧ ¬ (describeParams f = [] ∨ describeParams f = canonicalParams) := by
  rw [henter]
  constructor
  · rintro ⟨⟨span, hreport⟩, -, -⟩
    split at hreport
    · rw [o.diagnostics] at hreport
      exact absurd hreport.symm (by simp)
    · -- The reports of both states begin alike, so what was added is one report.
      rename_i hother
      have hsame := List.append_cancel_left hreport
      simp only [constructorReport, List.cons.injEq, Diagnostic.mk.injEq,
        Cause.constructorParameters.injEq, and_true, true_and] at hsame
      exact ⟨hsame.1, hsame.1 ▸ hother⟩
  · rintro ⟨hsame, hother⟩
    have hgives : (describeParams first).isEmpty = false :=
      List.isEmpty_eq_false_iff.mpr (hsame ▸ fun h => hother (.inl h))
    rw [if_neg (hsame ▸ hother), hgives]
    obtain ⟨name, ds, base, ms⟩ := k
    refine ⟨⟨paramSpan first, by simp only [constructorReport, hsame]⟩, rfl, fun hempty => ?_⟩
    obtain ⟨hrenamings, hnew⟩ := o.nothing hempty
    simp only [Class.entered, renameDecorators_none hrenamings, hnew, Option.orElse_eq_or,
      Option.or_none, Bool.false_eq_true, if_false]

theorem members_entered (plan : ClassPlan) (k : Class) : (k.entered plan).members
    = if plan.givesParams then canonicalMembers k.members else k.members := by
  cases k
  rfl

section Place

variable {before after : List Member} {ds : List Expr} {isStatic : Bool} {key : Key} {f : Func}
  {plan : ClassPlan}

/-- **The first constructor** has the parameters of a component, or it gets them and passes them on
in all calls but those in wrappers. -/
theorem isCanonicalAt_iff_of_first
    (hmembers : k.members = before ++ .method ds isStatic .constructor key f :: after)
    (hfirst : constructor? before = none) (hgives : plan.givesParams = (describeParams f).isEmpty) :
    (k.entered plan).IsCanonicalAt before.length f ↔ f.IsCanonical
      ∨ f.HasNoParams ∧ ∀ x ∈ f.body.stmts, x.isBaseCall = true ∨ x.PassesOn := by
  have hentered := members_entered plan k
  rw [hgives, hmembers] at hentered
  by_cases hnone : f.HasNoParams
  · have hcanonical : f.canonical.IsCanonical :=
      describeParams_eq_iff.mp (describeParams_canonical hnone.1 hnone.2)
    have hnot : ¬ f.IsCanonical := fun h => by
      rw [← describeParams_eq_iff, describeParams_eq_nil_iff.mpr hnone] at h
      cases h
    rw [if_pos (describeParams_isEmpty.mpr hnone),
      (canonicalMembers_append_of_none hfirst _).2] at hentered
    rw [Class.isCanonicalAt_iff hentered rfl, Func.stmts_canonical, List.forall_mem_map]
    simp only [hcanonical, hnone, hnot, true_and, forall_const, false_or,
      Stmt.passesOn_canonical_iff]
  · rw [if_neg (mt describeParams_isEmpty.mp hnone)] at hentered
    rw [Class.isCanonicalAt_iff hentered rfl]
    simp only [hnone, false_and, or_false, false_imp_iff, and_true]

/-- **A later constructor** stays as it is. -/
theorem isCanonicalAt_iff_of_later
    (hmembers : k.members = before ++ .method ds isStatic .constructor key f :: after)
    {first : Func} (hfirst : constructor? before = some first) :
    (k.entered plan).IsCanonicalAt before.length f ↔ f.IsCanonical := by
  have hstays : (f.IsCanonical ∧ (f.HasNoParams → ∀ x ∈ f.body.stmts, x.PassesOn))
      ↔ f.IsCanonical := by
    refine and_iff_left_of_imp fun hcanonical hnone => ?_
    rw [← describeParams_eq_iff, describeParams_eq_nil_iff.mpr hnone] at hcanonical
    cases hcanonical
  have hentered := members_entered plan k
  rw [hmembers] at hentered
  rw [← hstays]
  split at hentered
  · rw [(canonicalMembers_append_of_some hfirst _).2] at hentered
    exact Class.isCanonicalAt_iff hentered (length_canonicalMembers before)
  · exact Class.isCanonicalAt_iff hentered rfl

/-- **Constructors of components are made canonical or reported**, if the first constructor of the
class reads the same. Walking a class is walking the class that is planned for it. Of a component,
a constructor at any place has the parameters `(props, context)` then and passes them on if it had
none, or its parameters are reported and the class stays as it is, exactly if it has these
parameters already, or if the first constructor has parameters that read as its own. One without
parameters has to be the first itself, and its calls of the base constructor must stand in no
wrapper. -/
theorem enter_settles_iff (isExpr : Bool) (hon : c.options.constructorProps = true)
    (hcomponent : (Lower.inComponent c (enter isExpr k c s).2).1 = true)
    (hmembers : k.members = before ++ .method ds isStatic .constructor key f :: after) :
    let planned := k.entered (enter isExpr k c s).1
    let t := (enter isExpr k c s).2
    Walk.cls isExpr k c s = Walk.clsAfter .untouched planned c t
      ∧ (planned.IsCanonicalAt before.length f ∨ k.IsReported planned f c s t
        ↔ f.IsCanonical ∨ (constructor? k.members).map describeParams = some (describeParams f)
          ∧ (f.HasNoParams → constructor? before = none
            ∧ ∀ x ∈ f.body.stmts, x.isBaseCall = true ∨ x.PassesOn)) := by
  refine ⟨Walk.cls_eq_entered isExpr k c s, ?_⟩
  obtain ⟨o, ho⟩ := exists_outset (c := c) isExpr k s
  rw [ho] at hcomponent ⊢
  cases hfirst : constructor? before with
  | none =>
    -- The constructor is the first one itself, so that its parameters read as its own.
    have hf : constructor? k.members = some f := by
      rw [hmembers, (canonicalMembers_append_of_none hfirst _).1]
      rfl
    have henter := o.enter_component hon hcomponent hf
    rw [isCanonicalAt_iff_of_first hmembers hfirst (by rw [henter]), o.isReported_iff henter,
      describeParams_eq_nil_iff, describeParams_eq_iff, hf, Option.map_some]
    tauto
  | some first =>
    -- It stays as it is, and what is reported are the parameters of the first one.
    have hf : constructor? k.members = some first := by
      rw [hmembers]
      exact (canonicalMembers_append_of_some hfirst _).1
    have henter := o.enter_component hon hcomponent hf
    rw [isCanonicalAt_iff_of_later hmembers hfirst, o.isReported_iff henter,
      describeParams_eq_nil_iff, describeParams_eq_iff, hf, Option.map_some, Option.some.injEq]
    simp only [reduceCtorEq, false_and, imp_false]
    tauto

end Place

/-- A constructor with named parameters. -/
def constructorOf (params : List String) (body : Body) : Func :=
  .mk none false false none .none (params.map Build.param) none none body

/-- A constructor as a member of a class. -/
def constructorMember (f : Func) : Member :=
  .method [] false .constructor (.ident "constructor") f

/-- `@Component class A extends B { … }`, with nothing but constructors. -/
def constructed (constructors : List Func) : Class :=
  .mk (some "A") [.ident .none "Component"] (some (.ident .none "B"))
    (constructors.map constructorMember)

/-- Such a class, entered at the top of a module. -/
def entering (constructors : List Func) : ClassPlan × Lowering :=
  enter false (constructed constructors) ⟨{}, []⟩ (.initial ⟨[], []⟩)

/-- Whether the constructor at a place of such a class is that of a component once the class is
entered, or is reported. -/
def IsSettled (constructors : List Func) (place : Nat) (f : Func) : Prop :=
  let k := constructed constructors
  let planned := k.entered (entering constructors).1
  planned.IsCanonicalAt place f
    ∨ k.IsReported planned f ⟨{}, []⟩ (.initial ⟨[], []⟩) (entering constructors).2

/-- `super(…)`, with names as arguments. -/
def baseCall (args : List String) : Expr :=
  .call .none (.super .none) (args.map (.ident .none)) false

/-- `constructor(a); constructor(a) { super(a); }`. -/
theorem enter_settles_iff_overload :
    let f := constructorOf ["a"] (.block [] [.expr (baseCall ["a"])])
    let constructors := [constructorOf ["a"] .absent, f]
    (Lower.inComponent ⟨{}, []⟩ (entering constructors).2).1 = true
      ∧ IsSettled constructors 1 f := by
  intro f constructors
  have hcomponent : (Lower.inComponent ⟨{}, []⟩ (entering constructors).2).1 = true := by
    decide +kernel
  have hmembers : (constructed constructors).members
      = [constructorMember (constructorOf ["a"] .absent)] ++ constructorMember f :: [] := rfl
  refine ⟨hcomponent, (enter_settles_iff false rfl hcomponent hmembers).2.mpr (.inr ⟨rfl, ?_⟩)⟩
  rintro ⟨hparams, -⟩
  cases hparams

/-- **Constructors that are neither made canonical nor reported**: one without parameters after an
overload without parameters, and one that calls the base constructor in parentheses. -/
theorem enter_leaves_overload_and_wrapped :
    let overloaded := constructorOf [] (.block [] [.expr (baseCall [])])
    let wrapped := constructorOf [] (.block [] [.expr (.paren .none (baseCall []))])
    ((Lower.inComponent ⟨{}, []⟩ (entering [constructorOf [] .absent, overloaded]).2).1 = true
        ∧ ¬ IsSettled [constructorOf [] .absent, overloaded] 1 overloaded)
      ∧ (Lower.inComponent ⟨{}, []⟩ (entering [wrapped]).2).1 = true
        ∧ ¬ IsSettled [wrapped] 0 wrapped := by
  intro overloaded wrapped
  have hother : ∀ body, ¬ (constructorOf [] body).IsCanonical := by
    rintro body ⟨hparams, -⟩
    cases hparams
  have hquiet : ∀ {ds : List Diagnostic} {d : Diagnostic}, ds.length = 0 → ds ≠ [] ++ [d] := by
    rintro _ d hlength rfl
    cases hlength
  refine ⟨⟨by decide +kernel, ?_⟩, by decide +kernel, ?_⟩
  · have hmembers : (constructed [constructorOf [] .absent, overloaded]).members
      = [constructorMember (constructorOf [] .absent)] ++ constructorMember overloaded :: [] := rfl
    rintro (hcanonical | ⟨⟨span, hreport⟩, -, -⟩)
    · exact hother _ ((isCanonicalAt_iff_of_later hmembers rfl).mp hcanonical)
    · exact hquiet (by decide +kernel) hreport
  · have hmembers : (constructed [wrapped]).members = [] ++ constructorMember wrapped :: [] := rfl
    have hgives : (entering [wrapped]).1.givesParams = (describeParams wrapped).isEmpty := by
      decide +kernel
    rintro (hcanonical | ⟨⟨span, hreport⟩, -, -⟩)
    · rcases (isCanonicalAt_iff_of_first hmembers rfl hgives).mp hcanonical
        with hcanonical | ⟨-, hcalls⟩
      · exact hother _ hcanonical
      · -- The call in parentheses is not taken for one, and it passes nothing on.
        rcases hcalls _ List.mem_cons_self with hplain | hpasses
        · cases hplain
        · cases hpasses [] rfl
    · exact hquiet (by decide +kernel) hreport

end ComponentClass

end JsxDialect
