import JsxDialect.Proofs.Idle
import JsxDialect.Proofs.KnownElements

/-!
# Functions of a compiled module

The walk over a module keeps the lists of binders that it reads, as long as it reports no error: an
element among the binders becomes an expression that binds nothing. So every function that it gives
back has an origin in the module, by an induction on the syntax with one lemma for each function of
the walk (`known_compile`).
-/

namespace JsxDialect

open Listing (whole)

variable {m : Module} {c : LoweringSetting}

/-! ## Parts of the module -/

/-- The given places and functions are some of the module. -/
structure Source (m : Module) (ps : List Site) (fs : List (FunctionRole × Func)) : Prop where
  places : ∀ p ∈ ps, ∃ q ∈ Site.ofStmts m.stmts, q.part = p.part
  functions : fs ⊆ m.functions true

namespace Source

variable {ps qs : List Site} {fs gs : List (FunctionRole × Func)}

/-- Only what stands at the places counts. -/
theorem mono (h : Source m ps fs) (hps : ∀ q ∈ qs, ∃ p ∈ ps, p.part = q.part) (hfs : gs ⊆ fs) :
    Source m qs gs := by
  refine ⟨fun q hq => ?_, List.Subset.trans hfs h.functions⟩
  obtain ⟨p, hp, hpart⟩ := hps q hq
  obtain ⟨r, hr, hpart'⟩ := h.places p hp
  exact ⟨r, hr, hpart'.trans hpart⟩

/-- Of the places of a part, the first ones. -/
theorem left_places (h : Source m (ps ++ qs) fs) : Source m ps fs :=
  h.mono (fun p hp => ⟨p, List.mem_append_left _ hp, rfl⟩) (List.Subset.refl _)

theorem right_places (h : Source m (ps ++ qs) fs) : Source m qs fs :=
  h.mono (fun p hp => ⟨p, List.mem_append_right _ hp, rfl⟩) (List.Subset.refl _)

/-- Of the functions of a part, the first ones. -/
theorem left_functions (h : Source m ps (fs ++ gs)) : Source m ps fs :=
  h.mono (fun p hp => ⟨p, hp, rfl⟩) (List.subset_append_left _ _)

theorem right_functions (h : Source m ps (fs ++ gs)) : Source m ps gs :=
  h.mono (fun p hp => ⟨p, hp, rfl⟩) (List.subset_append_right _ _)

/-- The first of two parts of the source. -/
theorem left (h : Source m (ps ++ qs) (fs ++ gs)) : Source m ps fs :=
  h.left_places.left_functions

theorem right (h : Source m (ps ++ qs) (fs ++ gs)) : Source m qs gs :=
  h.right_places.right_functions

/-- The part under a layer is the part itself. -/
theorem inside {l : Layer} (h : Source m (Site.under l ps) fs) : Source m ps fs :=
  h.mono (fun p hp => ⟨p.around [l], List.mem_map.mpr ⟨p, hp, rfl⟩, rfl⟩) (List.Subset.refl _)

/-- The statements of a body, without what each sees of the others. -/
theorem ofBodyStmts {isMethod : Bool} {all before xs : List Stmt}
    (h : Source m (Site.ofBodyStmts isMethod all before xs) fs) : Source m (Site.ofStmts xs) fs :=
  h.mono (fun _ hq => Site.exists_mem_ofBodyStmts hq) (List.Subset.refl _)

/-- A body, as that of a function or a method. -/
theorem ofBody {isMethod : Bool} {b : Body} (h : Source m (Site.ofBody isMethod b) fs) :
    Source m (Site.inBody b) fs := by
  cases b with
  | absent | expr _ => exact h
  | block directives xs => exact h.ofBodyStmts

/-- A body, as that of an arrow function. -/
theorem ofArrowBody {b : Body} (h : Source m (Site.ofArrowBody b) fs) :
    Source m (Site.inBody b) fs := by
  cases b with
  | absent | expr _ => exact h
  | block directives xs => exact h.inside

/-- The names that are referred to are names of the module. -/
theorem mem_usedNames (h : Source m ps fs) {n : String} (hn : Site.reference n ∈ ps) :
    n ∈ m.usedNames := by
  obtain ⟨q, hq, hpart⟩ := h.places _ hn
  refine Module.mem_usedNames.mpr (List.mem_filterMap.mpr ⟨q, hq, ?_⟩)
  rw [Site.name?, hpart]
  rfl

/-- An element among the parts of the module is one of its elements. -/
theorem mem_elements {e : Element} (h : Source m (Site.ofElement e) fs) : e ∈ m.elements := by
  cases e with
  | mk span openSpan name as cs closed =>
    obtain ⟨q, hq, hpart⟩ := h.places _ List.mem_cons_self
    refine List.mem_filterMap.mpr ⟨q, hq, ?_⟩
    rw [Site.element?, hpart]

end Source

/-! ## Binders -/

mutual

/-- The names that a `for` attribute binds are names that it refers to. -/
theorem Site.reference_mem_of_forNames {e : Expr} {x : String} (h : x ∈ forNames e) :
    reference x ∈ ofExpr e := by
  cases e with
  | paren _ e | nonNull _ e => exact reference_mem_of_forNames (e := e) h
  | typed _ _ e _ => exact List.mem_append_left _ (reference_mem_of_forNames (e := e) h)
  | sequence _ es => exact reference_mem_of_forNamesLast (l := es) h
  | binary _ op left right =>
    cases op with
    | isIn => exact List.mem_append_left _ (reference_mem_of_binderNames h)
    | _ => cases h
  | _ => cases h

/-- The names that the last of some expressions binds are referred to in it. -/
theorem Site.reference_mem_of_forNamesLast {l : List Expr} {x : String}
    (h : x ∈ forNamesLast l) : reference x ∈ ofExprs l := by
  match l with
  | [] => cases h
  | [e] => exact List.mem_append_left _ (reference_mem_of_forNames (e := e) h)
  | e :: e' :: es =>
    rcases List.mem_append.mp h with h | h
    · exact List.mem_append_left _ (reference_mem_of_binderName? (Option.mem_toList.mp h))
    · exact List.mem_append_right _ (reference_mem_of_forNamesLast (l := e' :: es) h)

end

/-- **A walked expression**: its functions are known, and it binds what it bound before. -/
structure WalkedExpr (m : Module) (e e' : Expr) : Prop where
  functions : Known m (whole.ofExpr e')
  name : binderName? e' = binderName? e
  names : binderNames e' = binderNames e
  loop : forNames e' = forNames e

/-- Walked expressions, as the entries of a list of binders. -/
structure WalkedExprs (m : Module) (es es' : List Expr) : Prop where
  functions : Known m (whole.ofExprs es')
  length : es'.length = es.length
  names : es'.filterMap binderName? = es.filterMap binderName?
  loop : forNamesLast es' = forNamesLast es

/-- One expression more. -/
theorem WalkedExprs.cons {e e' : Expr} {es es' : List Expr} (h : WalkedExpr m e e')
    (hs : WalkedExprs m es es') : WalkedExprs m (e :: es) (e' :: es') where
  functions := h.functions.append hs.functions
  length := congrArg (· + 1) hs.length
  names := by rw [List.filterMap_cons, List.filterMap_cons, h.name, hs.names]
  loop := by
    have hlength := hs.length
    have hloop := hs.loop
    match es, es' with
    | [], [] => exact h.loop
    | [], _ :: _ => cases hlength
    | _ :: _, [] => cases hlength
    | x :: xs, y :: ys =>
      change (binderName? e').toList ++ forNamesLast (y :: ys)
        = (binderName? e).toList ++ forNamesLast (x :: xs)
      rw [h.name, hloop]

/-- The value of an attribute binds what it bound before, or nothing. -/
structure WalkedValue (m : Module) (v v' : AttrValue) : Prop where
  functions : Known m (whole.ofAttrValue v')
  binders : ∀ x', v'.expr? = some x' → x'.BindsNothing
    ∨ ∃ x, v.expr? = some x ∧ binderNames x' = binderNames x ∧ forNames x' = forNames x

/-- Whether an attribute binds names as an element of the module does. -/
def Attr.BindsOwn (m : Module) : Attr → Prop
  | .named _ name value => ∀ x, value.expr? = some x →
    (name.text = "as" → Own m (binderNames x)) ∧ (name.text = "for" → Own m (forNames x))
  | .spread .. => True

/-- A value binds after the walk no more than it did before. -/
theorem WalkedValue.bindsOwn {v v' : AttrValue} (h : WalkedValue m v v') {span : Span}
    {name : AttrName} (hown : (Attr.named span name v).BindsOwn m) :
    (Attr.named span name v').BindsOwn m := by
  intro x' hx'
  rcases h.binders x' hx' with hnothing | ⟨x, hx, hnames, hloop⟩
  · rw [hnothing.names, hnothing.loop]
    exact ⟨fun _ => .inl rfl, fun _ => .inl rfl⟩
  · rw [hnames, hloop]
    exact hown x hx

/-- The attributes of an element of the module. -/
theorem Source.bindsOwn {e : Element} {fs : List (FunctionRole × Func)}
    (h : Source m (Site.ofElement e) fs) : ∀ a ∈ e.attrs, a.BindsOwn m := by
  have hmem := h.mem_elements
  cases e with
  | mk span openSpan tag as cs closed =>
    intro a ha
    match a, ha with
    | .spread _ _, _ => trivial
    | .named _ _ .absent, _ | .named _ _ (.string _), _ | .named _ _ (.element _), _
    | .named _ _ (.fragment _ _), _ | .named _ _ (.container _ none), _ =>
      exact fun x hx => by cases hx
    | .named sp name (.container inside (some x)), ha =>
      intro x' hx
      obtain rfl := Option.some.inj hx
      have hx : Source m (Site.ofExpr x) fs := by
        refine h.mono (fun p hp => ⟨p, List.mem_cons_of_mem _ ?_, rfl⟩) (List.Subset.refl _)
        refine List.mem_append_right _ (List.mem_append_left _ ?_)
        rw [Site.ofAttrs_eq]
        exact List.mem_flatMap.mpr ⟨_, ha, hp⟩
      refine ⟨fun hname => .inr ⟨⟨_, hmem, ?_⟩, fun n hn => ?_⟩,
        fun hname => .inr ⟨⟨_, hmem, ?_⟩, fun n hn => ?_⟩⟩
      · exact List.mem_flatMap.mpr ⟨_, ha, by simp [hname]⟩
      · exact hx.mem_usedNames (Site.reference_mem_of_binderNames hn)
      · exact List.mem_flatMap.mpr ⟨_, ha, by simp [hname]⟩
      · exact hx.mem_usedNames (Site.reference_mem_of_forNames hn)

/-- The attributes of a walked element. -/
theorem WalkedElement.of_attrs {e : Element}
    (hattrs : ∀ a ∈ e.attrs, Known m (whole.ofAttr a) ∧ a.BindsOwn m)
    (hchildren : ∀ child ∈ e.children, KnownChild m child) : WalkedElement m e where
  attrs a ha := by
    refine ⟨(hattrs a ha).1, ?_⟩
    have hown := (hattrs a ha).2
    cases a with
    | spread _ _ => trivial
    | named span name value => exact fun hname x hx => ((hown x hx).1 hname).binds
  children := hchildren
  loop := by
    refine ⟨fun span value x hget hx => ?_, fun span value x hget hx => ?_⟩
    · obtain ⟨n, hn, hname⟩ := Attrs.mem_of_get? hget
      exact ((hattrs _ hn).2 x hx).2 hname
    · obtain ⟨n, hn, hname⟩ := Attrs.mem_of_get? hget
      exact ((hattrs _ hn).2 x hx).1 hname

/-! ## Functions -/

namespace Listing

variable {α : Type} (l : Listing α)

/-- Parameters that are given have nothing to list. -/
theorem ofParams_given (names : List String) (ps : List Param) :
    l.ofParams (names.map Build.param ++ ps) = l.ofParams ps := by
  induction names with
  | nil => rfl
  | cons n ns ih => exact ih

/-- Statements before others. -/
theorem ofStmts_append (xs ys : List Stmt) :
    l.ofStmts (xs ++ ys) = l.ofStmts xs ++ l.ofStmts ys := by
  rw [ofStmts_eq, ofStmts_eq, ofStmts_eq, List.flatMap_append]

end Listing

/-- What is queued goes before the statements of a body. -/
theorem Known.prepend {b : Body} {queued : List Stmt} (h : Known m (whole.ofBody false b))
    (hqueued : ∀ x ∈ queued, Queueable m x) : Known m (whole.ofBody false (b.prepend queued)) := by
  cases b with
  | absent | expr _ => exact h
  | block directives xs =>
    change Known m (whole.ofStmts (queued ++ xs))
    rw [Listing.ofStmts_append]
    refine Known.append ?_ h
    rw [Listing.ofStmts_eq]
    refine .flatMap fun x hx => ?_
    obtain ⟨e, rfl, he⟩ := hqueued x hx
    exact he

namespace Yields

variable {P : Prop}

/-- The result is one of the step. -/
theorem traced {α : Type} {act : Lower α} {Q : α → Prop} (h : Yields m c P act Q) :
    Yields m c P act fun a => Q a ∧ ∃ s, a = (act c s).1 :=
  h.also fun _ s => ⟨s, rfl⟩

/-- **Functions.** A function declares what it declared before, but for the parameters that it is
given. -/
theorem func {f : Func} {role : FunctionRole} {givesParams : Bool}
    (hself : (role, f) ∈ m.functions true)
    (hgiven : P → givesParams = true → role.isConstructor = true ∧ f.declared.params = [])
    (hparams : Yields m c P (Walk.params f.params) fun ps => Known m (whole.ofParams ps))
    (hrest : Yields m c P (Walk.optPattern f.rest) fun p => Known m (whole.ofRest p))
    (hbody : Yields m c P (Walk.body givesParams f.body) fun b => Known m (whole.ofBody false b))
    (scope : ScopeKind) (seesName : Bool) :
    Yields m c P (Walk.func scope seesName givesParams f)
      fun f' => Known m (whole.ofFunc role f') := by
  cases f with
  | mk name isAsync isGenerator thisParam span ps rest type b =>
    unfold Walk.func
    refine (openScope _ _).bind fun _ => ?_
    refine (hparams.traced.weaken And.left).bind fun ps' => ?_
    refine (hrest.traced.weaken fun h => h.1.1).bind fun rest' => ?_
    refine (hbody.traced.weaken fun h => h.1.1.1).bind fun b' => ?_
    refine closeFunction.map fun queued h hqueued => ?_
    obtain ⟨⟨⟨⟨hp, -⟩, hps, s, rfl⟩, hrest, t, rfl⟩, hb, u, rfl⟩ := h
    have hexprs : ∀ x ∈ queued, ∃ e, x = .expr e := fun x hx =>
      let ⟨e, he, _⟩ := hqueued x hx
      ⟨e, he⟩
    refine Known.append (Known.append ?_ (hrest.append (hb.prepend hqueued))) (.single ?_)
    · rw [Listing.ofParams_given]
      exact hps
    · cases givesParams with
      | true =>
        exact .given (hgiven hp rfl).1 hself (hgiven hp rfl).2 (Walk.declared_walked c
          (.mk name isAsync isGenerator thisParam span ps rest type b) true _ hexprs s t u)
      | false =>
        exact .kept hself (Walk.declared_walked c
          (.mk name isAsync isGenerator thisParam span ps rest type b) false [] hexprs s t u)

/-! ## Classes -/

/-- Decorators are looked at one after the other, and imported names are asked for. -/
theorem planDecorators (inherited : ComponentClass.Inherited) (ds : List Expr) :
    Yields m c P (ComponentClass.planDecorators inherited ds) fun _ => True := by
  induction ds generalizing inherited with
  | nil => exact .pure fun _ => trivial
  | cons d ds ih =>
    unfold ComponentClass.planDecorators
    refine Yields.bind (Q := fun _ => True) ?_ fun found => ?_
    · split
      · exact .pure fun _ => trivial
      · refine .get fun s => ?_
        split
        · exact .pure fun _ => trivial
        · exact .options (.pure fun _ => trivial)
    · split
      · exact ((ih inherited).weaken And.left).map fun _ _ _ => trivial
      · have hbound : ∀ name, Yields m c P (ComponentClass.isBoundAround name) fun _ => True :=
          fun name => ⟨fun s hs => hs, fun _ s hs _ => ⟨hs, trivial⟩⟩
        refine ((hbound _).weaken And.left).bind fun _ => (askDescriptor _).bind fun _ => ?_
        exact ((ih _).weaken fun h => h.1.1.1).map fun _ _ _ => trivial

/-- A step that changes which classes are around the current place. -/
theorem classes (change : List ClassFrame → List ClassFrame) :
    Yields m c P (modify fun s => { s with classes := change s.classes } : Lower Unit)
      fun _ => True :=
  aside (fun _ => rfl) (fun _ => rfl) fun _ _ _ _ hx => .inl hx

/-- A constructor is to get parameters only if it has none. -/
theorem planConstructor (name : Option String) (ms : List Member) :
    Yields m c P (ComponentClass.planConstructor name ms) fun gives => gives = true →
      ∀ f, ComponentClass.constructor? ms = some f → f.declared.params = [] := by
  unfold ComponentClass.planConstructor
  split
  · exact .pure fun _ h => by cases h
  · rename_i f hf
    dsimp only
    split
    · rename_i hempty
      refine .pure fun _ _ f' hf' => ?_
      obtain rfl := Option.some.inj (hf.symm.trans hf')
      obtain ⟨hparams, hrest⟩ := List.append_eq_nil_iff.mp (List.isEmpty_iff.mp hempty)
      rw [Func.declared, List.map_eq_nil_iff.mp hparams]
      cases hpattern : f.rest with
      | none => rfl
      | some p => simp [hpattern] at hrest
    · split
      · exact (report _ _).map fun _ _ _ h => by cases h
      · exact .pure fun _ h => by cases h

/-- **Entering a class.** What it extends from then on is known, and parameters are given to a
constructor that has none. -/
theorem enter (isExpr : Bool) (name : Option String) (ds : List Expr) (base : Option Expr)
    (ms : List Member) :
    Yields m c P (ComponentClass.enter isExpr (.mk name ds base ms)) fun plan =>
      Known m (whole.ofOption plan.newSuper) ∧ (plan.givesParams = true →
        ∀ f, ComponentClass.constructor? ms = some f → f.declared.params = []) := by
  unfold ComponentClass.enter
  refine (planDecorators none ds).bind fun r => ?_
  refine Yields.bind (Q := fun base' => Known m (whole.ofOption base')) ?_ fun base' => ?_
  · split
    · exact (askDescriptor _).map fun _ _ _ => .nil
    · exact .pure fun _ => .nil
  · refine Yields.bind (classes (List.cons _)) fun _ => .options ?_
    dsimp only
    split
    · exact (planConstructor name ms).map fun _ h hgives => ⟨h.1.2, hgives⟩
    · exact .pure fun h => ⟨h.1.2, fun hgives => by cases hgives⟩

/-- Leaving a class changes nothing that matters here. -/
theorem leave : Yields m c P ComponentClass.leave fun _ => True :=
  classes List.tail

end Yields

/-- A renamed decorator has the same parts. -/
theorem Listing.ofExprs_renameDecorators {α : Type} (l : Listing α)
    (rs : List (Option ComponentClass.Renaming)) (ds : List Expr) :
    l.ofExprs (ComponentClass.renameDecorators rs ds) = l.ofExprs ds := by
  have hname : ∀ (r : ComponentClass.Renaming) (span : Span) (old : String),
      l.ofExpr (r.apply span old) = [] := by
    intro r span old
    unfold ComponentClass.Renaming.apply
    split <;> rfl
  induction ds generalizing rs with
  | nil => cases rs <;> rfl
  | cons d ds ih =>
    cases rs with
    | nil => rfl
    | cons r rs =>
      refine congrArg₂ (· ++ ·) ?_ (ih rs)
      unfold ComponentClass.renameDecorator
      split
      · exact hname _ _ _
      · exact congrArg (· ++ _) (hname _ _ _)
      · rfl

/-- A call of the base constructor that passes parameters on has no functions in it. -/
theorem Walk.ofStmt_forward? {x call : Stmt} (h : forward? x = some call) :
    whole.ofStmt call = [] := by
  unfold forward? at h
  split at h
  · obtain rfl := Option.some.inj h
    rfl
  · cases h

/-! ## The induction -/

mutual

/-- **Every function after the walk is known**: it is one of the source with other parts, or one
that is made. There is one lemma for each part of the syntax. -/
theorem walked_expr {P : Prop} (e : Expr) (h : Source m (Site.ofExpr e) (whole.ofExpr e)) :
    Yields m c P (Walk.expr e) (WalkedExpr m e) := by
  cases e with
  | ident _ _ | «alias» _ _ _ | number _ _ | string _ _ | bigint _ _ | regex _ _ | bool _ _ | null _
  | this _ | super _ | metaProperty _ _ _ | hole => exact .pure fun _ => ⟨.nil, rfl, rfl, rfl⟩
  | template _ _ es | array _ es | importCall _ es =>
    exact (walked_exprs es h).map fun _ _ hes => ⟨hes.functions, rfl, rfl, rfl⟩
  | tagged _ e _ es | call _ e es _ | new _ e es =>
    exact (walked_expr e h.left).map₂ (walked_exprs es h.right)
      fun _ _ he hes => ⟨he.functions.append hes.functions, rfl, rfl, rfl⟩
  | spread e | unary _ _ e | update _ _ _ e | privateIn _ _ e | member _ e _ _
  | privateMember _ e _ _ | chain _ e | await _ e =>
    exact (walked_expr e h).map fun _ _ he => ⟨he.functions, rfl, rfl, rfl⟩
  | object _ ps => exact (walked_properties ps h).map fun _ _ hps => ⟨hps, rfl, rfl, rfl⟩
  | function _ f =>
    exact (walked_function f h.inside fun _ hgives => by cases hgives).map
      fun _ _ hf => ⟨hf, rfl, rfl, rfl⟩
  | arrow _ f => exact (walked_arrow f h).map fun _ _ hf => ⟨hf, rfl, rfl, rfl⟩
  | classExpr _ k => exact (walked_cls k h).map fun _ _ hk => ⟨hk, rfl, rfl, rfl⟩
  | binary _ op l r =>
    refine (walked_expr l h.left).map₂ (walked_expr r h.right)
      fun l' _ hl hr => ⟨hl.functions.append hr.functions, rfl, rfl, ?_⟩
    cases op with
    | isIn => exact hl.names
    | _ => rfl
  | logical _ _ l r | index _ l r _ =>
    exact (walked_expr l h.left).map₂ (walked_expr r h.right)
      fun _ _ hl hr => ⟨hl.functions.append hr.functions, rfl, rfl, rfl⟩
  | assign _ _ l r =>
    exact (walked_pattern l h.left).map₂ (walked_expr r h.right)
      fun _ _ hl hr => ⟨hl.append hr.functions, rfl, rfl, rfl⟩
  | conditional _ t e a =>
    exact (walked_expr t h.left).map₃ (walked_expr e h.right.left) (walked_expr a h.right.right)
      fun _ _ _ ht he ha =>
        ⟨ht.functions.append (he.functions.append ha.functions), rfl, rfl, rfl⟩
  | sequence _ es =>
    exact (walked_exprs es h).map fun _ _ hes => ⟨hes.functions, rfl, hes.names, hes.loop⟩
  -- What is in a wrapper binds what it bound without it.
  | paren _ e | nonNull _ e =>
    exact (walked_expr e h).map fun _ _ he => ⟨he.functions, he.name, he.names, he.loop⟩
  | typed _ _ e _ =>
    exact (walked_expr e h.left_places).map
      fun _ _ he => ⟨he.functions, he.name, he.names, he.loop⟩
  | yield _ _ e => exact (walked_optExpr e h).map fun _ _ he => ⟨he, rfl, rfl, rfl⟩
  | element e =>
    refine (walked_element e h).bind fun e' => ((Yields.lowerExpr e').weaken And.right).imp id
      fun _ _ hr => ⟨hr.1, hr.2.name, hr.2.names, hr.2.loop⟩
  | fragment _ cs =>
    exact (walked_children cs h).bind fun cs' => ((Yields.lowerChildren cs').weaken And.right).map
      fun _ _ hcs => ⟨hcs, rfl, rfl, rfl⟩

/-- Several expressions: what the last one binds is kept in mind for `repeat`. -/
theorem walked_exprs {P : Prop} (es : List Expr)
    (h : Source m (Site.ofExprs es) (whole.ofExprs es)) :
    Yields m c P (Walk.exprs es) (WalkedExprs m es) := by
  cases es with
  | nil => exact .pure fun _ => ⟨.nil, rfl, rfl, rfl⟩
  | cons e es => exact (walked_expr e h.left).map₂ (walked_exprs es h.right) fun _ _ => .cons

theorem walked_optExpr {P : Prop} (e : Option Expr)
    (h : Source m (Site.ofOption e) (whole.ofOption e)) :
    Yields m c P (Walk.optExpr e) fun e' => Known m (whole.ofOption e') := by
  cases e with
  | none => exact .pure fun _ => .nil
  | some e => exact (walked_expr e h).map fun _ _ he => he.functions

theorem walked_key {P : Prop} (k : Key) (h : Source m (Site.ofKey k) (whole.ofKey k)) :
    Yields m c P (Walk.key k) fun k' => Known m (whole.ofKey k') := by
  cases k with
  | computed e => exact (walked_expr e h).map fun _ _ he => he.functions
  | ident _ | string _ | number _ | bigint _ | privateName _ => exact .pure fun _ => .nil

theorem walked_property {P : Prop} (p : Property)
    (h : Source m (Site.ofProperty p) (whole.ofProperty p)) :
    Yields m c P (Walk.property p) fun p' => Known m (whole.ofProperty p') := by
  cases p with
  | field k e _ =>
    exact (walked_key k h.left).map₂ (walked_expr e h.right) fun _ _ hk he => hk.append he.functions
  | method _ k f =>
    exact (walked_key k h.left).map₂ (walked_function f h.right fun _ hgives => by cases hgives)
      fun _ _ hk hf => hk.append hf
  | spread e => exact (walked_expr e h).map fun _ _ he => he.functions

theorem walked_properties {P : Prop} (ps : List Property)
    (h : Source m (Site.ofProperties ps) (whole.ofProperties ps)) :
    Yields m c P (Walk.properties ps) fun ps' => Known m (whole.ofProperties ps') := by
  cases ps with
  | nil => exact .pure fun _ => .nil
  | cons p ps =>
    exact (walked_property p h.left).map₂ (walked_properties ps h.right)
      fun _ _ hp hps => hp.append hps

/-- An arrow function gets nothing in front of its statements. -/
theorem walked_arrow {P : Prop} (f : Func) (h : Source m (Site.ofArrow f) (whole.ofFunc .arrow f)) :
    Yields m c P (Walk.func .arrow false false f) fun f' => Known m (whole.ofFunc .arrow f') := by
  cases f with
  | mk name _ _ thisParam _ params rest type b =>
    have hparts := h.left_functions
    have hinside := hparts.right_places.right_places.inside.right_places
    exact .func (h.functions (List.mem_append_right _ List.mem_cons_self))
      (fun _ hgives => by cases hgives)
      (walked_params params hparts.right_places.left_places.inside.left_functions hinside.left)
      (walked_optPattern rest hinside.right.left)
      (walked_body false b hinside.right.right.right_places.ofArrowBody) .arrow false

/-- **A function of the source**: it may get statements in front of its own, and a constructor may
get parameters. -/
theorem walked_function {P : Prop} (f : Func) {role : FunctionRole}
    {isMethod seesName givesParams : Bool} {scope : ScopeKind}
    (h : Source m (Site.ofFunction isMethod f) (whole.ofFunc role f))
    (hgiven : P → givesParams = true → role.isConstructor = true ∧ f.declared.params = []) :
    Yields m c P (Walk.func scope seesName givesParams f)
      fun f' => Known m (whole.ofFunc role f') := by
  cases f with
  | mk name _ _ thisParam _ params rest type b =>
    have hparts := h.left_functions
    have hinside := hparts.right_places.right_places.inside.right_places
    exact .func (h.functions (List.mem_append_right _ List.mem_cons_self)) hgiven
      (walked_params params hparts.right_places.left_places.inside.left_functions hinside.left)
      (walked_optPattern rest hinside.right.left)
      (walked_body givesParams b hinside.right.right.right_places.ofBody) scope seesName

/-- The body of a function, before anything is put in front of it. -/
theorem walked_body {P : Prop} (givesParams : Bool) (b : Body)
    (h : Source m (Site.inBody b) (whole.ofBody false b)) :
    Yields m c P (Walk.body givesParams b) fun b' => Known m (whole.ofBody false b') := by
  cases b with
  | absent => exact .pure fun _ => .nil
  | expr e => exact (walked_expr e h).map fun _ _ he => he.functions
  | block _ xs =>
    cases givesParams with
    | true => exact (walked_forwarding xs h).map fun _ _ hxs => hxs
    | false => exact (walked_stmts xs h).map fun _ _ hxs => hxs

/-- The statements of a constructor that gets parameters: its base calls pass them on. -/
theorem walked_forwarding {P : Prop} (xs : List Stmt)
    (h : Source m (Site.ofStmts xs) (whole.ofStmts xs)) :
    Yields m c P (Walk.forwarding xs) fun xs' => Known m (whole.ofStmts xs') := by
  cases xs with
  | nil => exact .pure fun _ => .nil
  | cons x xs =>
    have hrest := walked_forwarding (P := P) xs h.right
    unfold Walk.forwarding
    split
    · rename_i call hcall
      refine hrest.map fun _ _ hxs => Known.append ?_ hxs
      rw [Walk.ofStmt_forward? hcall]
      exact .nil
    · exact (walked_stmt x h.left).map₂ hrest fun _ _ hx hxs => hx.append hxs

theorem walked_params {P : Prop} (ps : List Param)
    (hdecorators : Source m (Site.ofDecorators ps) (whole.ofParams ps))
    (h : Source m (Site.ofParams ps) (whole.ofParams ps)) :
    Yields m c P (Walk.params ps) fun ps' => Known m (whole.ofParams ps') := by
  match ps with
  | [] => exact .pure fun _ => .nil
  | .mk decorators p :: ps =>
    have hparam : Yields m c P (Walk.param (.mk decorators p))
        fun p' => Known m (whole.ofParams [p']) :=
      (walked_exprs decorators hdecorators.left.left_functions).map₂
        (walked_pattern p h.left.right_functions)
        fun _ _ hds hp => (hds.functions.append hp).append .nil
    refine hparam.map₂ (walked_params ps hdecorators.right h.right) fun p' _ hp hps => ?_
    cases p' with
    | mk _ _ => exact hp.left.append hps

theorem walked_pattern {P : Prop} (p : Pattern)
    (h : Source m (Site.ofPattern p) (whole.ofPattern p)) :
    Yields m c P (Walk.pattern p) fun p' => Known m (whole.ofPattern p') := by
  cases p with
  | bind _ | hole => exact .pure fun _ => .nil
  | target e => exact (walked_expr e h).map fun _ _ he => he.functions
  | object ps rest =>
    exact (walked_patternProperties ps h.left).map₂ (walked_optPattern rest h.right)
      fun _ _ hps hrest => hps.append hrest
  | array ps rest =>
    exact (walked_patterns ps h.left).map₂ (walked_optPattern rest h.right)
      fun _ _ hps hrest => hps.append hrest
  | withDefault p e =>
    exact (walked_pattern p h.left).map₂ (walked_expr e h.right)
      fun _ _ hp he => hp.append he.functions
  | typed p _ _ => exact (walked_pattern p h.left_places).map fun _ _ hp => hp

theorem walked_patterns {P : Prop} (ps : List Pattern)
    (h : Source m (Site.ofPatterns ps) (whole.ofPatterns ps)) :
    Yields m c P (Walk.patterns ps) fun ps' => Known m (whole.ofPatterns ps') := by
  cases ps with
  | nil => exact .pure fun _ => .nil
  | cons p ps =>
    exact (walked_pattern p h.left).map₂ (walked_patterns ps h.right)
      fun _ _ hp hps => hp.append hps

theorem walked_optPattern {P : Prop} (p : Option Pattern)
    (h : Source m (Site.ofRest p) (whole.ofRest p)) :
    Yields m c P (Walk.optPattern p) fun p' => Known m (whole.ofRest p') := by
  cases p with
  | none => exact .pure fun _ => .nil
  | some p => exact (walked_pattern p h).map fun _ _ hp => hp

theorem walked_patternProperties {P : Prop} (ps : List PatternProperty)
    (h : Source m (Site.ofPatternProperties ps) (whole.ofPatternProperties ps)) :
    Yields m c P (Walk.patternProperties ps)
      fun ps' => Known m (whole.ofPatternProperties ps') := by
  match ps with
  | [] => exact .pure fun _ => .nil
  | .mk k p _ :: ps =>
    exact (walked_key k h.left).map₃ (walked_pattern p h.right.left)
      (walked_patternProperties ps h.right.right)
      fun _ _ _ hk hp hps => hk.append (hp.append hps)

/-- A statement after the walk has known functions. -/
theorem walked_stmt {P : Prop} (x : Stmt) (h : Source m (Site.ofStmt x) (whole.ofStmt x)) :
    Yields m c P (Walk.stmt x) fun x' => Known m (whole.ofStmt x') := by
  cases x with
  | expr e => exact (walked_expr e h).map fun _ _ he => he.functions
  | varDecl _ ds => exact (walked_declarators ds h).map fun _ _ hds => hds
  | function f =>
    exact (walked_function f h fun _ hgives => by cases hgives).map fun _ _ hf => hf
  | classDecl k => exact (walked_cls k h).map fun _ _ hk => hk
  | «return» e => exact (walked_optExpr e h).map fun _ _ he => he
  | throw e => exact (walked_expr e h).map fun _ _ he => he.functions
  | «if» t x a =>
    exact (walked_expr t h.left).map₃ (walked_stmt x h.right.left) (walked_optStmt a h.right.right)
      fun _ _ _ ht hx ha => ht.functions.append (hx.append ha)
  | «for» init t u x =>
    have h := h.inside
    refine .inside _ _ ((walked_forHead init h.left).bind fun _ => ?_)
    exact (walked_optExpr t h.right.left).bind fun _ =>
      (walked_optExpr u h.right.right.left).bind fun _ =>
        (walked_stmt x h.right.right.right).map fun _ hall hx =>
          hall.1.1.2.append (hall.1.2.append (hall.2.append hx))
  | forIn left r x | forOf _ left r x =>
    have h := h.inside
    exact .inside _ _ ((walked_forHead left h.left).map₃ (walked_expr r h.right.left)
      (walked_stmt x h.right.right) fun _ _ _ hl hr hx => hl.append (hr.functions.append hx))
  | «while» t x =>
    exact (walked_expr t h.left).map₂ (walked_stmt x h.right)
      fun _ _ ht hx => ht.functions.append hx
  | doWhile x t =>
    exact (walked_stmt x h.left).map₂ (walked_expr t h.right)
      fun _ _ hx ht => hx.append ht.functions
  | block xs => exact (Yields.inside _ _ (walked_stmts xs h.inside)).map fun _ _ hxs => hxs
  | switch d cases =>
    exact .inside _ _ ((walked_expr d h.left).map₂ (walked_switchCases cases h.right.inside)
      fun _ _ hd hcases => hd.functions.append hcases)
  | «try» xs handler finalizer =>
    exact (Yields.inside _ _ (walked_stmts xs h.left.inside)).map₃
      (walked_optCatch handler h.right.left) (walked_optBlock finalizer h.right.right)
      fun _ _ _ hxs hhandler hfinalizer => hxs.append (hhandler.append hfinalizer)
  | «break» _ | «continue» _ | empty | debugger | «import» _ _ | exportNamed _ _
  | exportAll _ _ => exact .pure fun _ => .nil
  | labeled _ x | exportDecl x => exact (walked_stmt x h).map fun _ _ hx => hx
  | exportDefaultFunction f =>
    exact (walked_function f h fun _ hgives => by cases hgives).map fun _ _ hf => hf
  | exportDefaultClass k => exact (walked_cls k h).map fun _ _ hk => hk
  | exportDefault e => exact (walked_expr e h).map fun _ _ he => he.functions

theorem walked_stmts {P : Prop} (xs : List Stmt)
    (h : Source m (Site.ofStmts xs) (whole.ofStmts xs)) :
    Yields m c P (Walk.stmts xs) fun xs' => Known m (whole.ofStmts xs') := by
  cases xs with
  | nil => exact .pure fun _ => .nil
  | cons x xs =>
    exact (walked_stmt x h.left).map₂ (walked_stmts xs h.right) fun _ _ hx hxs => hx.append hxs

theorem walked_optStmt {P : Prop} (x : Option Stmt)
    (h : Source m (Site.ofAlternate x) (whole.ofAlternate x)) :
    Yields m c P (Walk.optStmt x) fun x' => Known m (whole.ofAlternate x') := by
  cases x with
  | none => exact .pure fun _ => .nil
  | some x => exact (walked_stmt x h).map fun _ _ hx => hx

theorem walked_optBlock {P : Prop} (xs : Option (List Stmt))
    (h : Source m (Site.ofFinalizer xs) (whole.ofFinalizer xs)) :
    Yields m c P (Walk.optBlock xs) fun xs' => Known m (whole.ofFinalizer xs') := by
  cases xs with
  | none => exact .pure fun _ => .nil
  | some xs => exact (Yields.inside _ _ (walked_stmts xs h.inside)).map fun _ _ hxs => hxs

theorem walked_optCatch {P : Prop} (handler : Option Catch)
    (h : Source m (Site.ofHandler handler) (whole.ofHandler handler)) :
    Yields m c P (Walk.optCatch handler) fun handler' => Known m (whole.ofHandler handler') := by
  match handler with
  | none => exact .pure fun _ => .nil
  | some (.mk param xs) =>
    have h := h.inside
    exact .inside _ _ ((walked_optPattern param h.left).map₂
      (.inside _ _ (walked_stmts xs h.right.inside)) fun _ _ hparam hxs => hparam.append hxs)

theorem walked_declarators {P : Prop} (ds : List Declarator)
    (h : Source m (Site.ofDeclarators ds) (whole.ofDeclarators ds)) :
    Yields m c P (Walk.declarators ds) fun ds' => Known m (whole.ofDeclarators ds') := by
  match ds with
  | [] => exact .pure fun _ => .nil
  | .mk p e :: ds =>
    exact (walked_pattern p h.left).map₃ (walked_optExpr e h.right.left)
      (walked_declarators ds h.right.right) fun _ _ _ hp he hds => hp.append (he.append hds)

theorem walked_forHead {P : Prop} (head : ForHead)
    (h : Source m (Site.ofHead head) (whole.ofHead head)) :
    Yields m c P (Walk.forHead head) fun head' => Known m (whole.ofHead head') := by
  cases head with
  | absent => exact .pure fun _ => .nil
  | decl _ ds => exact (walked_declarators ds h).map fun _ _ hds => hds
  | expr e => exact (walked_expr e h).map fun _ _ he => he.functions
  | target p => exact (walked_pattern p h).map fun _ _ hp => hp

theorem walked_switchCases {P : Prop} (cases : List SwitchCase)
    (h : Source m (Site.ofCases cases) (whole.ofCases cases)) :
    Yields m c P (Walk.switchCases cases) fun cases' => Known m (whole.ofCases cases') := by
  match cases with
  | [] => exact .pure fun _ => .nil
  | .mk t xs :: cases =>
    exact (walked_optExpr t h.left).map₃ (walked_stmts xs h.right.left)
      (walked_switchCases cases h.right.right)
      fun _ _ _ ht hxs hcases => ht.append (hxs.append hcases)

/-- A class, with its new base and the parameters of its constructor. -/
theorem walked_cls {P : Prop} (k : Class) {isExpr : Bool}
    (h : Source m (Site.ofClass k) (whole.ofClass k)) :
    Yields m c P (Walk.cls isExpr k) fun k' => Known m (whole.ofClass k') := by
  cases k with
  | mk name decorators superClass ms =>
    have hinside := h.right_functions
    have hparts := hinside.right.right_places.inside
    unfold Walk.cls
    refine (Yields.enter isExpr name decorators superClass ms).bind fun plan => ?_
    refine (walked_exprs decorators hinside.left).bind fun decorators' => ?_
    refine (walked_optExpr superClass hparts.left).bind fun superClass' => ?_
    refine (Yields.weaken (walked_members plan.givesParams ms hparts.right)
      fun hall => hall.1.1.2.2).bind fun ms' => Yields.leave.map fun _ hall _ => ?_
    obtain ⟨⟨⟨⟨-, hplan⟩, hdecorators⟩, hsuper⟩, hms⟩ := hall
    have hrenamed : Known m (whole.ofExprs
        (ComponentClass.renameDecorators plan.renamings decorators')) := by
      rw [Listing.ofExprs_renameDecorators]
      exact hdecorators.functions
    exact Known.append .nil (hrenamed.append ((hsuper.orElse hplan.1).append hms))

/-- Only the first constructor gets parameters, which has none then. -/
theorem walked_members (givesParams : Bool) (ms : List Member)
    (h : Source m (Site.ofMembers ms) (whole.ofMembers ms)) :
    Yields m c (givesParams = true →
        ∀ f, ComponentClass.constructor? ms = some f → f.declared.params = [])
      (Walk.members givesParams ms) fun ms' => Known m (whole.ofMembers ms') := by
  match ms with
  | [] => exact .pure fun _ => .nil
  | .method decorators isStatic kind k f :: ms =>
    unfold Walk.members
    refine (walked_exprs decorators h.left).bind fun decorators' => ?_
    refine (walked_key k h.right.left).bind fun k' => ?_
    refine (walked_function f h.right.right.left fun hall hgives => ?_).bind fun f' => ?_
    · obtain ⟨hon, hkind⟩ := Bool.and_eq_true_iff.mp hgives
      obtain rfl : kind = .constructor := eq_of_beq hkind
      exact ⟨rfl, hall.1.1 hon f rfl⟩
    · refine ((walked_members _ ms h.right.right.right).weaken fun hall hgives g hg => ?_).map
        fun ms' hall hms => ?_
      · -- What comes after the first constructor gets none.
        obtain ⟨hon, hkind⟩ := Bool.and_eq_true_iff.mp hgives
        refine hall.1.1.1 hon g ?_
        cases kind with
        | constructor => cases hkind
        | _ => exact hg
      · exact hall.1.1.2.functions.append (hall.1.2.append (hall.2.append hms))
  | .field decorators _ k _ _ value :: ms =>
    have hrest := h.right.right.right_places
    unfold Walk.members
    refine (walked_exprs decorators h.left).bind fun decorators' => ?_
    refine (walked_key k h.right.left).bind fun k' => ?_
    refine (walked_optExpr value hrest.left.inside).bind fun value' => ?_
    refine ((walked_members givesParams ms hrest.right).weaken fun hall => hall.1.1.1).map
      fun ms' hall hms => ?_
    exact hall.1.1.2.functions.append (hall.1.2.append (hall.2.append hms))
  | .staticBlock xs :: ms =>
    exact (walked_stmts xs h.left.inside).map₂ (walked_members givesParams ms h.right)
      fun _ _ hxs hms => hxs.append hms

/-- An element: the rules come after the walk through its parts. -/
theorem walked_element {P : Prop} (e : Element)
    (h : Source m (Site.ofElement e) (whole.ofElement e)) :
    Yields m c P (Walk.element e) (KnownElement m) := by
  have hown := h.bindsOwn
  cases e with
  | mk span openSpan name as cs closed =>
    have hparts : Source m (Site.ofAttrs as ++ Site.ofChildren cs)
        (whole.ofAttrs as ++ whole.ofChildren cs) :=
      h.mono (fun p hp => ⟨p, List.mem_cons_of_mem _ (List.mem_append_right _ hp), rfl⟩)
        (List.Subset.refl _)
    have hwalked : Yields m c P (do
        return Element.mk span openSpan name (← Walk.attrs as) (← Walk.children cs) closed)
        (WalkedElement m) :=
      (walked_attrs as hparts.left hown).map₂ (walked_children cs hparts.right)
        fun _ _ has hcs => .of_attrs has hcs
    refine (Yields.inside _ _ hwalked).bind fun e' => ?_
    exact (Yields.lowerElement e').weaken And.right

/-- Attributes go on binding names of their own only. -/
theorem walked_attrs {P : Prop} (as : List Attr) (h : Source m (Site.ofAttrs as) (whole.ofAttrs as))
    (hown : ∀ a ∈ as, a.BindsOwn m) :
    Yields m c P (Walk.attrs as) fun as' =>
      ∀ a ∈ as', Known m (whole.ofAttr a) ∧ a.BindsOwn m := by
  match as with
  | [] => exact .pure fun _ _ ha => absurd ha List.not_mem_nil
  | .named span name value :: as =>
    obtain ⟨hfirst, hlater⟩ := List.forall_mem_cons.mp hown
    exact (walked_attrValue value h.left).map₂ (walked_attrs as h.right hlater)
      fun _ _ hv has => List.forall_mem_cons.mpr ⟨⟨hv.functions, hv.bindsOwn hfirst⟩, has⟩
  | .spread span e :: as =>
    obtain ⟨-, hlater⟩ := List.forall_mem_cons.mp hown
    exact (walked_expr e h.left).map₂ (walked_attrs as h.right hlater)
      fun _ _ he has => List.forall_mem_cons.mpr ⟨⟨he.functions, trivial⟩, has⟩

/-- The value of an attribute: whatever it binds, it bound before. -/
theorem walked_attrValue {P : Prop} (value : AttrValue)
    (h : Source m (Site.ofAttrValue value) (whole.ofAttrValue value)) :
    Yields m c P (Walk.attrValue value) (WalkedValue m value) := by
  cases value with
  | absent | string _ => exact .pure fun _ => ⟨.nil, fun _ hx => by cases hx⟩
  | container span e =>
    cases e with
    | none => exact .pure fun _ => ⟨.nil, fun _ hx => by cases hx⟩
    | some e =>
      have hsome := (walked_expr (P := P) e h).map
        (f := fun e' => AttrValue.container span (some e'))
        (R := WalkedValue m (.container span (some e))) fun e' _ he => by
          refine ⟨he.functions, fun x hx => .inr ⟨e, rfl, ?_⟩⟩
          obtain rfl := Option.some.inj hx
          exact ⟨he.names, he.loop⟩
      exact ⟨hsome.errors, hsome.result⟩
  | element e =>
    exact (walked_element e h).bind fun e' => ((Yields.lowerValue e').weaken And.right).imp id
      fun _ _ hv => ⟨hv.1, fun x hx => .inl (hv.2 x hx)⟩
  | fragment _ cs =>
    exact (walked_children cs h).bind fun cs' => ((Yields.lowerChildren cs').weaken And.right).map
      fun _ _ hcs => ⟨hcs, fun _ hx => by cases hx⟩

/-- Children after the walk, before the rule for them. -/
theorem walked_children {P : Prop} (cs : List Child)
    (h : Source m (Site.ofChildren cs) (whole.ofChildren cs)) :
    Yields m c P (Walk.children cs) fun cs' => ∀ child ∈ cs', KnownChild m child := by
  cases cs with
  | nil => exact .pure fun _ _ hchild => absurd hchild List.not_mem_nil
  | cons child cs =>
    exact (walked_child child h.left).map₂ (walked_children cs h.right)
      fun _ _ hchild hcs => List.forall_mem_cons.mpr ⟨hchild, hcs⟩

/-- A child after the walk. -/
theorem walked_child {P : Prop} (child : Child)
    (h : Source m (Site.ofChild child) (whole.ofChild child)) :
    Yields m c P (Walk.child child) (KnownChild m) := by
  cases child with
  | text _ => exact .pure fun _ => Known.nil
  | element e => exact (walked_element e h).map fun _ _ he => he
  | fragment _ cs =>
    exact (walked_children cs h).bind fun cs' => ((Yields.lowerChildren cs').weaken And.right).map
      fun _ _ hcs => hcs
  | container e => exact (walked_optExpr e h).map fun _ _ he => he
  | spread e => exact (walked_expr e h).map fun _ _ he => he.functions

end

/-! ## Compiled modules -/

/-- What the walk over a module leaves, if no error was reported: a tidy state, and functions that
have an origin. -/
theorem walked_module {o : Options}
    (hnone : ∀ d ∈ (m.compile o).diagnostics, d.severity ≠ .error) :
    let c : LoweringSetting := ⟨o, m.stmts.filterMap Stmt.defaultName⟩
    ((Walk.stmts m.stmts) c (.initial m)).2.Tidy m
      ∧ Known m (whole.ofStmts ((Walk.stmts m.stmts) c (.initial m)).1) := by
  have hsource : Source m (Site.ofStmts m.stmts) (whole.ofStmts m.stmts) :=
    ⟨fun p hp => ⟨p, hp, rfl⟩, List.Subset.refl _⟩
  have hinitial : (Lowering.initial m).Tidy m :=
    ⟨Header.tidy_ofModule m, fun _ _ hx => absurd hx List.not_mem_nil⟩
  exact (walked_stmts (P := True) m.stmts hsource).result trivial (.initial m) hinitial
    fun ⟨d, hd, hsev⟩ => hnone d hd hsev

/-- **Every function of a compiled module has an origin.** -/
theorem Module.known_compile {o : Options}
    (hnone : ∀ d ∈ (m.compile o).diagnostics, d.severity ≠ .error) :
    Known m ((m.compile o).module.functions true) := by
  obtain ⟨htidy, hknown⟩ := walked_module hnone
  change Known m (whole.ofStmts (Header.written _ ++ _))
  rw [Listing.ofStmts_append]
  exact Known.append (fun p hp => .made (htidy.header.declares.functions p hp)) hknown

end JsxDialect
