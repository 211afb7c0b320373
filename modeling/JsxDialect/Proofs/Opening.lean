import JsxDialect.Proofs.Elements

/-!
# What the walk opens

The walk puts results together, and on the way it opens functions, classes and elements. This module
has what is to be said of one step of it, given that the steps inside keep to the discipline: how
right places are put together, what happens when the scope of a function is closed, what a class is
given, and what an element binds for what is inside it.

Nothing is asked of the module that is walked but that its names are names of the discipline, and
that its elements bind plainly where names matter.
-/

namespace JsxDialect

namespace Discipline

section Source

variable {o : Options} (D : Discipline o)

/-- What is asked of a place of the module. -/
def Sourced (p : Site) : Prop :=
  match p.part with
  | .reference x => D.Source x
  | .element e => D.Loose ∨ e.bindsPlainly = true
  | _ => True

/-- Places of the module. -/
def FromSource (ps : List Site) : Prop :=
  ∀ p ∈ ps, D.Sourced p

variable {D} {ps qs : List Site}

/-- Places of the module before others. -/
theorem FromSource.append (hps : D.FromSource ps) (hqs : D.FromSource qs) :
    D.FromSource (ps ++ qs) := by
  intro p hp
  rcases List.mem_append.mp hp with hp | hp
  · exact hps p hp
  · exact hqs p hp

/-- The first of some places of the module. -/
theorem FromSource.left (h : D.FromSource (ps ++ qs)) : D.FromSource ps :=
  fun p hp => h p (List.mem_append_left _ hp)

theorem FromSource.right (h : D.FromSource (ps ++ qs)) : D.FromSource qs :=
  fun p hp => h p (List.mem_append_right _ hp)

/-- Places under a layer are places of the module without it. -/
theorem FromSource.inside {l : Layer} (h : D.FromSource (Site.under l ps)) : D.FromSource ps :=
  fun p hp => h (p.around [l]) (List.mem_map.mpr ⟨p, hp, rfl⟩)

end Source

variable {c : LoweringSetting} (D : Discipline c.options)

/-- **A step from every state keeps to the discipline**, and its result has right places. -/
def Walks {α : Type} (act : Lower α) (places : α → List Site) : Prop :=
  ∀ s, D.At s → D.Run s act fun t a => D.All t [] (places a)

variable {D} {s t u : Lowering} {N : List String}

/-- A reference of the module is right at every moment. -/
theorem All.source {x : String} (hs : D.At s) (h : D.FromSource [Site.reference x]) :
    D.All s N [Site.reference x] :=
  .global (D.source_global hs.inv (h _ List.mem_cons_self))

mutual

/-- The names in a type are right. -/
theorem all_ofType (hs : D.At s) (type : TypeExpr) (h : D.FromSource (Site.ofType type)) :
    D.All s N (Site.ofType type) := by
  cases type with
  | keyword _ | string _ | number _ => exact .nil
  | reference name path args =>
    have h : D.FromSource ([Site.reference name] ++ Site.ofTypes args) := h
    exact (All.source hs h.left).append (all_ofTypes hs args h.right)
  | array item => exact all_ofType hs item h
  | union members | intersection members => exact all_ofTypes hs members h

/-- Those in several types are. -/
theorem all_ofTypes (hs : D.At s) (types : List TypeExpr)
    (h : D.FromSource (Site.ofTypes types)) : D.All s N (Site.ofTypes types) := by
  cases types with
  | nil => exact .nil
  | cons type types => exact (all_ofType hs type h.left).append (all_ofTypes hs types h.right)

end

/-- Those in a type that may be missing are. -/
theorem all_ofOptType (hs : D.At s) {type : Option TypeExpr}
    (h : D.FromSource (Site.ofOptType type)) : D.All s N (Site.ofOptType type) := by
  cases type with
  | none => exact .nil
  | some type => exact all_ofType hs type h

/-- Those in a declared `this` parameter are. -/
theorem all_ofThisParam (hs : D.At s) {p : Option ThisParam}
    (h : D.FromSource (Site.ofThisParam p)) : D.All s N (Site.ofThisParam p) := by
  cases p with
  | none => exact .nil
  | some p => exact all_ofOptType hs h

/-- The name that the name of an element refers to is. -/
theorem all_ofElementName (hs : D.At s) {name : ElementName}
    (h : D.FromSource (Site.ofElementName name)) : D.All s N (Site.ofElementName name) := by
  cases name with
  | reference name => exact .source hs h
  | plain _ | this | namespaced _ _ => exact .nil
  | member root path =>
    simp only [Site.ofElementName] at h ⊢
    by_cases hroot : (root == "this") = true
    · rw [if_pos hroot]
      exact .nil
    · rw [if_neg hroot] at h ⊢
      exact .source hs h

/-! ## Putting results together -/

section Steps

variable {α β γ δ : Type} {act : Lower α} {act₂ : Lower β} {act₃ : Lower γ}
variable {f : α → List Site} {f₂ : β → List Site} {f₃ : γ → List Site} {g : δ → List Site}

/-- What has no places is given without a step. -/
theorem Walks.pure {a : α} (h : f a = []) : D.Walks (pure a) f := by
  intro s hs
  refine .pure hs ?_
  rw [h]
  exact .nil

/-- What is made of the result has the places of the result. -/
theorem Walks.map {k : α → δ} (h : D.Walks act f) (hk : ∀ a, g (k a) = f a) :
    D.Walks (act >>= fun a => Pure.pure (k a)) g :=
  fun s hs => (h s hs).map fun _ a _ _ ha => hk a ▸ ha

/-- What is made of two results has the places of both. -/
theorem Walks.map₂ {k : α → β → δ} (h : D.Walks act f) (h₂ : D.Walks act₂ f₂)
    (hk : ∀ a b, g (k a b) = f a ++ f₂ b) :
    D.Walks (act >>= fun a => act₂ >>= fun b => Pure.pure (k a b)) g := by
  intro s hs
  refine (h s hs).bind fun t a ht _ ha => (h₂ t ht).map fun u b _ hl hb => ?_
  rw [hk]
  exact (ha.mono hl).append hb

/-- What is made of three results has the places of all. -/
theorem Walks.map₃ {k : α → β → γ → δ} (h : D.Walks act f) (h₂ : D.Walks act₂ f₂)
    (h₃ : D.Walks act₃ f₃) (hk : ∀ a b e, g (k a b e) = f a ++ (f₂ b ++ f₃ e)) :
    D.Walks (act >>= fun a => act₂ >>= fun b => act₃ >>= fun e => Pure.pure (k a b e)) g := by
  intro s hs
  refine (h s hs).bind fun t a ht _ ha => (h₂ t ht).bind fun u b hu hl hb => ?_
  refine (h₃ u hu).map fun v e _ hl' he => ?_
  rw [hk]
  exact ((ha.mono hl).mono hl').append ((hb.mono hl').append he)

/-- Places of which some are inside a layer that lists only the given names. -/
def Layered (D : Discipline c.options) (s : Lowering) (names : List String) (ps : List Site) :
    Prop :=
  ∃ outer l inner, ps = outer ++ Site.under l inner ∧ l.kind.isFunction = false
    ∧ l.listed = names ∧ D.All s [] (outer ++ inner)

/-- **A step inside a scope** is right if its result is put under what the scope lists. -/
theorem Walks.inside {kind : ScopeKind} {names : List String} (hkind : kind.isFunction = false)
    (h : ∀ s, D.At s → D.Run s act fun t a => D.Layered t names (f a)) :
    D.Walks (Lower.inside kind names act) f := by
  intro s hs
  refine Run.inside hs hkind h fun t u a _ _ hclose ha => ?_
  obtain ⟨outer, l, inner, hf, hl, hlisted, hall⟩ := ha
  have hout := hclose [] _ hall
  rw [hf]
  rw [List.append_nil] at hout
  have hunder : D.All u names (Site.under l inner) :=
    hout.right.under hl (.inr fun x hx => .inl (hlisted ▸ hx))
  exact hout.left.bare.append hunder.bare

end Steps

end Discipline

/-! ## Functions -/

namespace Site

/-- The places in a body, without its own layer. -/
def inBody : Body → List Site
  | .absent => []
  | .expr e => ofExpr e
  | .block _ stmts => ofStmts stmts

/-- The decorators of parameters before others. -/
theorem ofDecorators_append (ps qs : List Param) :
    ofDecorators (ps ++ qs) = ofDecorators ps ++ ofDecorators qs := by
  induction ps with
  | nil => rfl
  | cons p ps ih =>
    cases p with
    | mk decorators p =>
      exact (congrArg (ofExprs decorators ++ ·) ih).trans (List.append_assoc _ _ _).symm

/-- The patterns of parameters before others. -/
theorem ofParams_append (ps qs : List Param) :
    ofParams (ps ++ qs) = ofParams ps ++ ofParams qs := by
  induction ps with
  | nil => rfl
  | cons p ps ih =>
    cases p with
    | mk decorators p => exact (congrArg (ofPattern p ++ ·) ih).trans (List.append_assoc _ _ _).symm

/-- A place is in a function that is no arrow function. -/
def InFunction (p : Site) : Prop :=
  ∃ l ∈ p.layers, l.kind.isFunction = true

/-- Places under the layer of a function are in a function. -/
theorem inFunction_under {l : Layer} (hl : l.kind.isFunction = true) {ps : List Site} {p : Site}
    (hp : p ∈ under l ps) : p.InFunction := by
  obtain ⟨q, -, rfl⟩ := List.mem_map.mp hp
  exact ⟨l, List.mem_append_right _ List.mem_cons_self, hl⟩

/-- So are those in the statements of its body. -/
theorem inFunction_ofBodyStmts {isMethod : Bool} {all before stmts : List Stmt} {p : Site}
    (hp : p ∈ ofBodyStmts isMethod all before stmts) : p.InFunction := by
  induction stmts generalizing before with
  | nil => exact absurd hp List.not_mem_nil
  | cons x xs ih =>
    rcases List.mem_append.mp hp with hp | hp
    · exact inFunction_under (l := bodyLayer (.body isMethod before x) all) rfl hp
    · exact ih hp

/-- All of a function but its name is in the function. -/
theorem mem_ofFunction {isMethod : Bool} {f : Func} {p : Site} (hp : p ∈ ofFunction isMethod f) :
    (∃ x, p = binding x) ∨ p.InFunction := by
  cases f with
  | mk name isAsync isGenerator thisParam span params rest type body =>
    rcases List.mem_append.mp hp with hp | hp
    · cases name with
      | none => exact absurd hp List.not_mem_nil
      | some x => exact .inl ⟨x, List.mem_singleton.mp hp⟩
    · refine .inr ?_
      rcases List.mem_append.mp hp with hp | hp
      · exact inFunction_under (l := ⟨.params isMethod, [], []⟩) rfl hp
      · exact inFunction_under (l := paramLayer (.params isMethod) params rest) rfl hp

end Site

/-- Nothing in front of a body leaves it as it is. -/
theorem Body.prepend_nil (b : Body) : b.prepend [] = b := by
  cases b <;> rfl

/-- The walk keeps the names that a body declares. -/
theorem Walk.body_names (c : LoweringSetting) (b : Body) (s : Lowering) :
    (Walk.body false b c s).1.names = b.names := by
  cases b with
  | absent | expr _ => rfl
  | block directives xs => exact Walk.stmts_names c xs s

namespace Discipline

variable {c : LoweringSetting} {D : Discipline c.options} {s t u : Lowering} {N : List String}
variable {name : Option String} {isAsync isGenerator : Bool} {thisParam : Option ThisParam}
variable {span : Span} {params : List JsxDialect.Param} {rest : Option Pattern}
variable {type : Option TypeExpr} {b : Body}

/-- The layer of the body of an arrow function has only names of its scope. -/
theorem all_ofArrowBody (h : D.All s N (Site.inBody b)) (hnames : ∀ x ∈ b.names, x ∈ N) :
    D.All s N (Site.ofArrowBody b) := by
  cases b with
  | absent | expr _ => exact h
  | block directives xs =>
    exact All.under (l := Site.bodyLayer .plain xs) rfl (.inr fun x hx => .inl (hnames x hx)) h

/-- An arrow function whose names are among those that it was to be put under. -/
theorem all_ofArrow (hparams : D.All s N (Site.ofDecorators params ++ Site.ofParams params))
    (hrest : D.All s N (Site.ofRest rest)) (hbody : D.All s N (Site.inBody b))
    (hthis : D.All s N (Site.ofThisParam thisParam)) (htype : D.All s N (Site.ofOptType type))
    (hnames : ∀ x ∈ params.flatMap (·.pattern.names) ++ (rest.map Pattern.names).getD []
      ++ b.names, x ∈ N) :
    D.All s N (Site.ofArrow (.mk name isAsync isGenerator thisParam span params rest type b)) := by
  have hinside : D.All s N (Site.ofThisParam thisParam ++ (Site.ofParams params
      ++ (Site.ofRest rest ++ (Site.ofOptType type ++ Site.ofArrowBody b)))) :=
    hthis.append (hparams.right.append (hrest.append (htype.append
      (all_ofArrowBody hbody fun x hx => hnames x (List.mem_append_right _ hx)))))
  refine (All.ofName name).append (All.append ?_ ?_)
  · exact hparams.left.under rfl (.inr fun x hx => absurd hx List.not_mem_nil)
  · exact hinside.under rfl (.inr fun x hx => .inl (hnames x (List.mem_append_left _ hx)))

/-- The names in the scope of a function. -/
def scopeNames (seesName givesParams : Bool) : Func → List String
  | .mk name _ _ _ _ params rest _ b =>
    (if givesParams then ComponentClass.canonicalParams else [])
      ++ (params.flatMap (·.pattern.names) ++ (rest.map Pattern.names).getD [])
      ++ (if seesName then name.toList else []) ++ b.names

/-- A function that has been walked: its parts, right in the scope of the function, and the state
`u` after closing the scope. -/
structure WalkedParts (D : Discipline c.options) (t : Lowering) (givesParams : Bool)
    (params : List JsxDialect.Param) (rest : Option Pattern) (b : Body)
    (params' : List JsxDialect.Param) (rest' : Option Pattern) (b' : Body) : Prop where
  params_ok : D.All t [] (Site.ofDecorators params' ++ Site.ofParams params')
  rest_ok : D.All t [] (Site.ofRest rest')
  body_ok : D.All t [] (Site.inBody b')
  param_names : params'.flatMap (·.pattern.names) = params.flatMap (·.pattern.names)
  rest_names : (rest'.map Pattern.names).getD [] = (rest.map Pattern.names).getD []
  body_names : givesParams = false → b'.names = b.names

/-- **Walking a function**: its scope is opened, its parts are walked, and what has been queued is
put before the statements of its body. -/
theorem func_parts (scope : ScopeKind) (seesName : Bool) {givesParams : Bool}
    (name : Option String) (isAsync isGenerator : Bool) (thisParam : Option ThisParam) (span : Span)
    (type : Option TypeExpr) (hs : D.At s)
    (hparams : D.Walks (Walk.params params) fun ps => Site.ofDecorators ps ++ Site.ofParams ps)
    (hrest : D.Walks (Walk.optPattern rest) Site.ofRest)
    (hbody : D.Walks (Walk.body givesParams b) Site.inBody) :
    ∃ t u f params' rest' b',
      Walk.func scope seesName givesParams
          (.mk name isAsync isGenerator thisParam span params rest type b) c s
        = (.mk name isAsync isGenerator thisParam span
            ((if givesParams then ComponentClass.canonicalParams else []).map Build.param
              ++ params')
            rest' type (b'.prepend f.queued), u)
      ∧ D.Closes s t u f scope (scopeNames seesName givesParams
          (.mk name isAsync isGenerator thisParam span params rest type b))
      ∧ D.WalkedParts t givesParams params rest b params' rest' b' := by
  -- The parts are walked one after the other in the scope of the function, and what was right after
  -- one of them still is after the next.
  obtain ⟨h₁, l₁, hps⟩ := hparams _ (hs.opened scope (scopeNames seesName givesParams
    (.mk name isAsync isGenerator thisParam span params rest type b)))
  obtain ⟨h₂, l₂, hr⟩ := hrest _ h₁
  obtain ⟨h₃, l₃, hb⟩ := hbody _ h₂
  obtain ⟨f, hclose, hqueued⟩ := closes_closeFunction hs h₃ ((l₁.trans l₂).trans l₃)
  refine ⟨_, _, f, _, _, _, ?_, hclose, (hps.mono l₂).mono l₃, hr.mono l₃, hb,
    Walk.params_names c params _, Walk.optPattern_names c rest _, ?_⟩
  · rw [← hqueued]
    rfl
  · rintro rfl
    exact Walk.body_names c b _

/-- **Arrow functions.** Nothing is queued on them. -/
theorem Walks.arrow
    (hparams : D.Walks (Walk.params params) fun ps => Site.ofDecorators ps ++ Site.ofParams ps)
    (hrest : D.Walks (Walk.optPattern rest) Site.ofRest)
    (hbody : D.Walks (Walk.body false b) Site.inBody)
    (hthis : D.FromSource (Site.ofThisParam thisParam))
    (htype : D.FromSource (Site.ofOptType type)) :
    D.Walks (Walk.func .arrow false false
      (.mk name isAsync isGenerator thisParam span params rest type b)) Site.ofArrow := by
  intro s hs
  obtain ⟨t, u, f, params', rest', b', heq, hclose, hparts⟩ := func_parts .arrow false name isAsync
    isGenerator thisParam span type hs hparams hrest hbody
  -- Values are kept on methods only.
  have hnone : f.queued = [] := by
    refine hclose.before.idle f (hclose.frames ▸ List.mem_cons_self) ?_
    rw [hclose.kind_eq]
    decide
  rw [hnone, Body.prepend_nil] at heq
  refine ⟨?_, ?_, ?_⟩ <;> rw [heq]
  · exact hclose.after
  · exact hclose.leads
  · refine All.bare (all_ofArrow (hclose.all rfl hparts.params_ok) (hclose.all rfl hparts.rest_ok)
      (hclose.all rfl hparts.body_ok) (all_ofThisParam hclose.after hthis)
      (all_ofOptType hclose.after htype) fun x hx => ?_)
    have hx : x ∈ params'.flatMap (·.pattern.names) ++ (rest'.map Pattern.names).getD []
        ++ b'.names := hx
    rw [hparts.param_names, hparts.rest_names, hparts.body_names rfl] at hx
    simpa [scopeNames] using hx

/-- Two groups of places under the same layer. -/
theorem All.under_append {l : Layer} {ps qs : List Site} (hps : D.All s N (Site.under l ps))
    (hqs : D.All s N (Site.under l qs)) : D.All s N (Site.under l (ps ++ qs)) := by
  rw [Site.under, List.map_append]
  exact hps.append hqs

/-- What was right in a function can stand among its parameters. -/
theorem Closes.all_params {f : Frame Stmt} {isMethod : Bool} {names : List String} {ps : List Site}
    (h : D.Closes s t u f (.function isMethod) names) (hps : D.All t [] ps) {l : Layer}
    (hl : l.kind = .params isMethod) : D.All u N (Site.under l ps) := by
  intro p hp
  obtain ⟨q, hq, rfl⟩ := List.mem_map.mp hp
  have hok := hps q hq
  have hinv := h.before.inv
  rw [h.frames] at hok hinv
  rw [h.header]
  exact D.ok_params h.kind_eq hl hinv hok

/-- What was right in a function can stand in its body, after what was queued. -/
theorem Closes.all_body {f : Frame Stmt} {isMethod : Bool} {names : List String}
    (h : D.Closes s t u f (.function isMethod) names) (hb : D.All t [] (Site.inBody b)) {l : Layer}
    (hl : l.kind = .params isMethod) :
    D.All u N (Site.under l (Site.ofBody isMethod (b.prepend f.queued))) := by
  cases b with
  | absent => exact .nil
  | expr e => exact h.all_params hb hl
  | block directives xs =>
    have hidle : isMethod = false → f.queued = [] := by
      rintro rfl
      refine h.before.idle f (h.frames ▸ List.mem_cons_self) ?_
      rw [h.kind_eq]
      decide
    have hinv := h.before.inv
    have hxs : ∀ p ∈ Site.ofStmts xs, D.Ok t.header t.scopes.frames [] p := hb
    rw [h.frames] at hinv hxs
    intro p hp
    obtain ⟨q, hq, rfl⟩ := List.mem_map.mp hp
    rw [h.header]
    refine D.ok_outer (Site.inFunction_ofBodyStmts hq) (D.ok_body h.kind_eq hinv hidle hxs q hq)

/-- **Functions other than arrow functions.** -/
theorem Walks.function {isMethod seesName givesParams : Bool}
    (hparams : D.Walks (Walk.params params) fun ps => Site.ofDecorators ps ++ Site.ofParams ps)
    (hrest : D.Walks (Walk.optPattern rest) Site.ofRest)
    (hbody : D.Walks (Walk.body givesParams b) Site.inBody)
    (hthis : D.FromSource (Site.ofThisParam thisParam))
    (htype : D.FromSource (Site.ofOptType type)) :
    D.Walks (Walk.func (.function isMethod) seesName givesParams
      (.mk name isAsync isGenerator thisParam span params rest type b))
      (Site.ofFunction isMethod) := by
  intro s hs
  obtain ⟨t, u, f, params', rest', b', heq, hclose, hparts⟩ := func_parts (.function isMethod)
    seesName name isAsync isGenerator thisParam span type hs hparams hrest hbody
  refine ⟨?_, ?_, ?_⟩ <;> rw [heq]
  · exact hclose.after
  · exact hclose.leads
  · -- The parameters that are given to a constructor only bind names.
    have hgiven : D.All t [] (Site.ofParams
        ((if givesParams then ComponentClass.canonicalParams else []).map Build.param ++ params'))
        := by
      rw [Site.ofParams_append, Site.ofParams_map_param]
      refine All.append (fun p hp => ?_) hparts.params_ok.right
      obtain ⟨x, -, rfl⟩ := List.mem_map.mp hp
      exact D.ok_binding
    have hdecorators : D.All t [] (Site.ofDecorators
        ((if givesParams then ComponentClass.canonicalParams else []).map Build.param ++ params'))
        := by
      rw [Site.ofDecorators_append, Site.ofDecorators_map_param]
      exact hparts.params_ok.left
    have hthis := all_ofThisParam (N := []) hclose.before hthis
    have htype := all_ofOptType (N := []) hclose.before htype
    refine (All.ofName name).append (All.append (hclose.all_params hdecorators rfl) ?_)
    refine All.under_append (hclose.all_params hthis rfl) ?_
    refine All.under_append (hclose.all_params hgiven rfl) ?_
    refine All.under_append (hclose.all_params hparts.rest_ok rfl) ?_
    exact All.under_append (hclose.all_params htype rfl) (hclose.all_body hparts.body_ok rfl)

/-- A function can be put under any layer. -/
theorem all_under_ofFunction {isMethod : Bool} {f : Func}
    (h : D.All s [] (Site.ofFunction isMethod f)) (l : Layer) :
    D.All s N (Site.under l (Site.ofFunction isMethod f)) := by
  intro p hp
  obtain ⟨q, hq, rfl⟩ := List.mem_map.mp hp
  rcases Site.mem_ofFunction hq with ⟨x, rfl⟩ | hinside
  · exact D.ok_binding
  · exact D.ok_outer hinside (h q hq)

/-! ## Classes -/

/-- Renamings to names that can stand everywhere. -/
def RenamesOk (D : Discipline c.options) (s : Lowering)
    (rs : List (Option ComponentClass.Renaming)) : Prop :=
  ∀ r, some r ∈ rs → D.Global s.header r.name

/-- Names for decorators go on being right. -/
theorem RenamesOk.mono {rs : List (Option ComponentClass.Renaming)} (hl : D.Leads s t)
    (h : D.RenamesOk s rs) : D.RenamesOk t rs :=
  fun r hr => D.global_mono hl.header (h r hr)

/-- A step that only looks at the state. -/
theorem Run.still {α : Type} {act : Lower α} (hs : D.At s) (h : (act c s).2 = s) :
    D.Run s act fun _ _ => True := by
  refine ⟨?_, ?_, trivial⟩ <;> rw [h]
  · exact hs
  · exact .refl s

/-- **Looking at decorators** gives names that can be referred to everywhere. -/
theorem Run.planDecorators (hs : D.At s) (inherited : ComponentClass.Inherited) (ds : List Expr) :
    D.Run s (ComponentClass.planDecorators inherited ds) fun t r => D.RenamesOk t r.1 := by
  induction ds generalizing s inherited with
  | nil => exact .pure hs fun r hr => absurd hr List.not_mem_nil
  | cons d ds ih =>
    refine (Run.still hs ?_).bind fun t found ht _ _ => ?_
    · cases ComponentClass.decoratorName? d with
      | none => rfl
      | some found =>
        change ((if s.header.isTopLevel found.2 then _ else _ :
          Lower (Option (Span × String × ImportDescriptor))) c s).2 = s
        split <;> rfl
    · split
      · refine (ih ht inherited).map fun u r _ _ hr x hx => ?_
        rcases List.mem_cons.mp hx with hx | hx
        · cases hx
        · exact hr x hx
      · refine (Run.still ht rfl).bind fun u keepsOld hu _ _ => ?_
        refine (Run.askDescriptor hu _).bind fun v new hv _ hnew => ?_
        refine (ih hv _).map fun w r _ hl hr x hx => ?_
        rcases List.mem_cons.mp hx with hx | hx
        · cases hx
          exact D.global_mono hl.header hnew.1
        · exact hr x hx

/-- Looking at a constructor may report, and nothing else. -/
theorem Run.planConstructor (hs : D.At s) (name : Option String) (members : List Member) :
    D.Run s (ComponentClass.planConstructor name members) fun _ _ => True := by
  unfold ComponentClass.planConstructor
  split
  · exact .pure hs trivial
  · dsimp only
    split
    · exact .pure hs trivial
    · split
      · exact (Run.report hs _ _).map fun _ _ _ _ _ => trivial
      · exact .pure hs trivial

/-- **Entering a class**: the new names of its decorators and its new base class are right. -/
theorem Run.enter (hs : D.At s) (isExpr : Bool) (k : Class) :
    D.Run s (ComponentClass.enter isExpr k) fun t plan =>
      D.RenamesOk t plan.renamings ∧ D.All t [] (Site.ofOption plan.newSuper) := by
  cases k with
  | mk name decorators superClass members =>
    refine (Run.planDecorators hs none decorators).bind fun t r ht _ hr => ?_
    refine Run.bind (Q := fun u e => D.All u [] (Site.ofOption e)) ?_ fun u e hu hl he => ?_
    · split
      · exact (Run.askDescriptor ht _).map fun _ _ _ _ hx => .global hx.1
      · exact .pure ht .nil
    refine (Run.aside hu rfl rfl).bind fun v _ hv hl' _ => ?_
    have hplan : ∀ {w}, D.Leads v w → D.RenamesOk w r.1 ∧ D.All w [] (Site.ofOption e) :=
      fun hl₂ => ⟨hr.mono ((hl.trans hl').trans hl₂), he.mono (hl'.trans hl₂)⟩
    refine .options ?_
    dsimp only
    split
    · exact (Run.planConstructor hv _ _).map fun _ _ _ hl₂ _ => hplan hl₂
    · exact .pure hv (hplan (.refl v))

/-- A decorator with its new name. -/
theorem all_rename {r : ComponentClass.Renaming} (hr : D.Global s.header r.name) (span : Span)
    (old : String) : D.All s N (Site.ofExpr (r.apply span old)) := by
  unfold ComponentClass.Renaming.apply
  split
  · exact .global hr
  · exact .global hr

/-- Decorators of which some have new names. -/
theorem all_renameDecorators {rs : List (Option ComponentClass.Renaming)} {ds : List Expr}
    (hrs : D.RenamesOk s rs) (hds : D.All s N (Site.ofExprs ds)) :
    D.All s N (Site.ofExprs (ComponentClass.renameDecorators rs ds)) := by
  induction ds generalizing rs with
  | nil => cases rs <;> exact .nil
  | cons d ds ih =>
    cases rs with
    | nil => exact hds
    | cons r rs =>
      refine All.append ?_ (ih (fun x hx => hrs x (List.mem_cons_of_mem _ hx)) hds.right)
      have hd : D.All s N (Site.ofExpr d) := hds.left
      unfold ComponentClass.renameDecorator
      split
      · exact all_rename (hrs _ List.mem_cons_self) _ _
      · exact (all_rename (hrs _ List.mem_cons_self) _ _).append hd.right
      · exact hd

/-! ## Elements -/

/-- What a lowered element binds inside is still to be put around it when its scope is closed. -/
theorem Lowered.close {names M K : List String} {e : Element}
    (hclose : ∀ N ps, D.All t N ps → D.All u (names ++ N) ps) (h : D.Lowered t M K e) :
    D.Lowered u (names ++ M) (names ++ K) e where
  subset := fun x hx => by
    rcases List.mem_append.mp hx with hx | hx
    · exact List.mem_append_left _ hx
    · exact List.mem_append_right _ (h.subset hx)
  name := hclose _ _ h.name
  attrs a ha := by
    refine ⟨hclose _ _ (h.attrs a ha).places, (h.attrs a ha).binds.imp id fun hb => ?_⟩
    cases a with
    | spread _ _ => trivial
    | named span n v =>
      exact ⟨hb.1, fun hn e he x hx => List.mem_append_right _ (hb.2 hn e he hx)⟩
  dialect htag := hclose _ _ (h.dialect htag)
  children := hclose _ _ h.children
  repeats := h.repeats.imp id fun hr htag span v hget binders collection hsplit x hx =>
    List.mem_append_right _ (hr htag span v hget binders collection hsplit hx)

/-- A child that leaves the scope of its parent is to be put under the names of that scope. -/
theorem RawChild.close {names M : List String} {child : Child}
    (hclose : ∀ N ps, D.All t N ps → D.All u (names ++ N) ps) (h : D.RawChild t M child) :
    D.RawChild u (names ++ M) child := by
  cases child with
  | element e =>
    obtain ⟨K, hK⟩ := h
    exact ⟨names ++ K, hK.close hclose⟩
  | text _ | fragment _ _ | container _ | spread _ => exact hclose _ _ h

/-- The attributes of an element that binds plainly bind, after the walk, what it was to bind. -/
theorem bindsIn_attrs {span openSpan : Span} {name : ElementName} {as : List Attr}
    {cs : List Child} {closed : Bool}
    (h : (Element.mk span openSpan name as cs closed).bindsPlainly = true) (s : Lowering) :
    ∀ a ∈ (Walk.attrs as c s).1, a.BindsIn (ElementRule.boundNames name as) := by
  simp only [Element.bindsPlainly, Bool.and_eq_true, decide_eq_true_eq] at h
  obtain ⟨⟨⟨hone, hbind⟩, has⟩, -⟩ := h
  intro a ha
  cases a with
  | spread _ _ => trivial
  | named sp n v =>
    obtain ⟨old, t, hold, rfl⟩ := Walk.attrs_mem c ha
    refine ⟨?_, fun hn e he => ?_⟩
    · rintro rfl
      have := List.all_eq_true.mp hbind _ hold
      simp [Bind.directiveName?] at this
    · -- It is the only `as`, so it is the one whose names the scope of the element has.
      have hget : Attrs.get? (Element.mk span openSpan name as cs closed).attrs "as"
          = some (sp, old) := hn ▸ Attrs.get?_of_mem hold (hn ▸ hone)
      rw [hget] at has
      obtain ⟨x, hx, hnames⟩ := Walk.attrValue_binderNames c sp he
        (fun entry hentry => by simpa using List.all_eq_true.mp has entry hentry)
      rw [hnames]
      refine fun y hy => List.mem_append_left _ ?_
      have hget : Attrs.get? as "as" = some (sp, old) := hget
      simp only [hget, Option.bind_some, hx, Option.map_some, Option.getD_some]
      exact hy

/-- The names that a `repeat` binds by `for` are bound after the walk too. -/
theorem bindsFor_attrs {span openSpan : Span} {name : ElementName} {as : List Attr}
    {cs : List Child} {closed : Bool}
    (h : (Element.mk span openSpan name as cs closed).bindsPlainly = true) (s : Lowering)
    (cs' : List Child) (htag : ControlTag.ofText? name.text = some .repeat) :
    (Element.mk span openSpan name (Walk.attrs as c s).1 cs' closed).BindsFor
      (ElementRule.boundNames name as) := by
  simp only [Element.bindsPlainly, Bool.and_eq_true] at h
  obtain ⟨-, hfor⟩ := h
  intro sp v hget binders collection hsplit
  obtain ⟨old, t, hold, rfl⟩ := Walk.attrs_get? c hget
  have hplain : ∀ found, splitFor? (old.toExpr sp) = some found →
      ∀ b ∈ found.1, b.isMarkup = false := by
    intro found hfound b hb
    have hcontrol : (Element.mk span openSpan name as cs closed).control? = some .repeat := htag
    have hget : Attrs.get? (Element.mk span openSpan name as cs closed).attrs "for"
      = some (sp, old) := hold
    simp only [hcontrol, hget, Option.bind_some, hfound, Option.all_some, bne_self_eq_false,
      Bool.false_or, List.all_eq_true, Bool.not_eq_true'] at hfor
    exact hfor b hb
  obtain ⟨x, hx, hnames⟩ := Walk.attrValue_splitFor c hsplit hplain
  rw [hnames]
  refine fun y hy => List.mem_append_right _ ?_
  simp only [htag, beq_self_eq_true, if_true, hold, Option.bind_some, hx, Option.map_some,
    Option.getD_some]
  exact hy

/-- The same for an element that leaves its scope. -/
theorem Walked.close {names M : List String} {e : Element}
    (hclose : ∀ N ps, D.All t N ps → D.All u (names ++ N) ps) (h : D.Walked t M N e) :
    D.Walked u (names ++ M) N e where
  attrs := hclose _ _ h.attrs
  binds := h.binds
  repeats := h.repeats
  children child hchild := (h.children child hchild).close hclose

/-- **Elements.** What an element binds is in scope while its attributes and children are walked. -/
theorem Run.walkElement (hs : D.At s) {span openSpan : Span} {name : ElementName} {as : List Attr}
    {cs : List Child} {closed : Bool}
    (hplain : D.Loose ∨ (Element.mk span openSpan name as cs closed).bindsPlainly = true)
    (hname : D.FromSource (Site.ofElementName name)) (hattrs : D.Walks (Walk.attrs as) Site.ofAttrs)
    (hchildren : ∀ s, D.At s → D.Run s (Walk.children cs) fun t cs' =>
      ∀ child ∈ cs', D.RawChild t [] child) :
    D.Run s (Walk.element (.mk span openSpan name as cs closed)) fun t e =>
      ∃ N, D.Lowered t [] N e := by
  -- First within the scope of the element, then outside of it.
  have hparts : ∀ t, D.At t → D.Run t
      (Walk.attrs as >>= fun as' => Walk.children cs >>= fun cs' =>
        Pure.pure (Element.mk span openSpan name as' cs' closed))
      fun u e => e.name = name ∧ D.Walked u [] (ElementRule.boundNames name as) e := by
    intro t ht
    obtain ⟨h₁, l₁, has⟩ := hattrs t ht
    obtain ⟨h₂, l₂, hcs⟩ := hchildren _ h₁
    exact ⟨h₂, l₁.trans l₂, rfl, has.mono l₂, hplain.imp id fun hplain => bindsIn_attrs hplain t,
      hplain.imp id fun hplain => bindsFor_attrs hplain t _, hcs⟩
  have hwalked : D.Run s (Lower.inside .binder (ElementRule.boundNames name as)
      (Walk.attrs as >>= fun as' => Walk.children cs >>= fun cs' =>
        Pure.pure (Element.mk span openSpan name as' cs' closed)))
      fun u e => e.name = name
        ∧ D.Walked u (ElementRule.boundNames name as) (ElementRule.boundNames name as) e := by
    refine Run.inside hs rfl hparts fun t u e _ _ hclose he => ⟨he.1, ?_⟩
    have hclosed := he.2.close hclose
    rwa [List.append_nil] at hclosed
  refine hwalked.bind fun t e ht _ he => ?_
  exact (Run.lowerElement ht (all_ofElementName ht (he.1 ▸ hname)) he.2).imp fun _ _ _ _ h => ⟨_, h⟩

end Discipline

/-! ## Functions as a whole -/

/-- A function with other parameters and another body. -/
def Func.withParts (params : List Param) (rest : Option Pattern) (body : Body) : Func → Func
  | .mk name isAsync isGenerator thisParam span _ _ type _ =>
    .mk name isAsync isGenerator thisParam span params rest type body

namespace Walk

/-- The parts of a function, one after the other. -/
def parts (givesParams : Bool) : Func → Lower (List Param × Option Pattern × Body)
  | .mk _ _ _ _ _ ps rest _ b =>
    return (← params ps, ← optPattern rest, ← body givesParams b)

/-- Walking a function: its parts are walked in its scope, and what is then queued on the scope is
put before the statements of the body. -/
theorem func_eq (scope : ScopeKind) (seesName givesParams : Bool) (f : Func) (c : LoweringSetting)
    (s : Lowering) :
    func scope seesName givesParams f c s
      = (let given := if givesParams then ComponentClass.canonicalParams else []
        let names := Discipline.scopeNames seesName givesParams f
        let ((ps, rest, b), t) := parts givesParams f c (Discipline.opened s scope names)
        let (queued, u) := Lower.closeFunction c t
        (f.withParts (given.map Build.param ++ ps) rest (b.prepend queued), u)) := by
  cases f
  rfl

end Walk

end JsxDialect
