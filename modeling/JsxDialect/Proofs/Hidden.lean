import JsxDialect.Proofs.Contents
import JsxDialect.Proofs.FreeNames

/-!
# Names that the search for free names misses

The search for free names has one scope for all parts of a function and puts the own name of a class
around the class. In the language the parameters do not see what the body declares, and only a class
itself sees its own name. So the search may take a reference for bound that is not: in the
parameters of a function whose body declares the name (`Func.Hides`), and beside a class expression
of that name, which is bound at a place where no scope declares it (`Expr.strayNames`).

Nothing else is missed. That is carried by `Finds`, which compares the places of a piece of code
with its contents: what is open at a place is free in the contents, or one of the two has hidden it,
and whatever the contents declare is bound at some place that no layer inside declares. It is kept
by putting pieces together and by putting them into a scope; a function is the one case that takes
an argument.
-/

namespace JsxDialect

/-- The name that is referred to. -/
def Part.reference? : Part → Option String
  | .reference name => some name
  | _ => none

/-- The name that is bound. -/
def Part.binding? : Part → Option String
  | .binding name => some name
  | _ => none

namespace Site

/-- The name that stands at a place, if no layer around the place declares it. -/
def undeclared? (name? : Part → Option String) (p : Site) : Option String :=
  (name? p.part).filter fun x => !p.layers.any (·.declared.contains x)

/-- The names that stand at places where no layer around declares them. -/
def undeclared (name? : Part → Option String) (ps : List Site) : List String :=
  ps.filterMap (undeclared? name?)

/-- The names that are free at places. -/
abbrev openNames (ps : List Site) : List String :=
  undeclared Part.reference? ps

/-- The names that are bound at places though nothing around declares them there. -/
abbrev strayNames (ps : List Site) : List String :=
  undeclared Part.binding? ps

/-- **The places `qs` are the places `ps` under layers that declare the names.** -/
def Under (names : List String) (ps qs : List Site) : Prop :=
  ∀ name? x, x ∈ undeclared name? qs ↔ x ∈ undeclared name? ps ∧ x ∉ names

/-- A name is free at a place if it is referred to there and nothing around declares it. -/
theorem free?_eq (p : Site) : p.free? = p.undeclared? Part.reference? := by
  obtain ⟨layers, part⟩ := p
  cases part with
  | reference name =>
    simp only [free?, undeclared?, Part.reference?, Option.filter_some]
    cases layers.any (·.declared.contains name) <;> rfl
  | binding _ | element _ => rfl

/-- No name stands at no places. -/
@[simp] theorem mem_undeclared_nil {name? : Part → Option String} {x : String} :
    x ∈ undeclared name? [] ↔ False := by
  simp [undeclared]

/-- A name stands at places if it stands at some of them. -/
@[simp] theorem mem_undeclared_append {name? : Part → Option String} {ps qs : List Site}
    {x : String} :
    x ∈ undeclared name? (ps ++ qs) ↔ x ∈ undeclared name? ps ∨ x ∈ undeclared name? qs := by
  simp [undeclared]

/-- A layer takes away the names that it declares. -/
@[simp] theorem mem_undeclared_under {name? : Part → Option String} {l : Layer} {ps : List Site}
    {x : String} :
    x ∈ undeclared name? (under l ps) ↔ x ∈ undeclared name? ps ∧ x ∉ l.declared := by
  have haround : ∀ p : Site, (p.around [l]).undeclared? name? = some x
      ↔ p.undeclared? name? = some x ∧ x ∉ l.declared := fun p => by
    simp [undeclared?, around, Option.filter_eq_some_iff, and_assoc]
  simp only [undeclared, under, List.filterMap_map, List.mem_filterMap, Function.comp_apply,
    haround, ← exists_and_right, and_assoc]

/-- Places under one layer are under its names. -/
theorem under_under (l : Layer) (ps : List Site) : Under l.declared ps (under l ps) :=
  fun _ _ => mem_undeclared_under

/-- Places are under no names at all. -/
theorem under_refl (ps : List Site) : Under [] ps ps :=
  fun _ _ => (and_iff_left List.not_mem_nil).symm

/-- The statements of a body are each under the layer of the body. -/
theorem under_ofBodyStmts (isMethod : Bool) (all before stmts : List Stmt) :
    Under (bodyLayer .plain all).declared (ofStmts stmts)
      (ofBodyStmts isMethod all before stmts) := by
  intro name? x
  induction stmts generalizing before with
  | nil => simp [ofStmts, ofBodyStmts]
  | cons s ss ih =>
    rw [ofStmts, ofBodyStmts, mem_undeclared_append, mem_undeclared_append, mem_undeclared_under,
      ih, or_and_right]
    rfl

end Site

/-! ## Functions that hide names -/

namespace Func

/-- The places in the head of a function, which see its parameters: their patterns, and types. -/
def headSites : Func → List Site
  | .mk _ _ _ thisParam _ params rest type _ =>
    Site.ofThisParam thisParam
      ++ (Site.ofParams params ++ (Site.ofRest rest ++ Site.ofOptType type))

/-- The contents of the head of a function, the decorators of the parameters included. -/
def headContents : Func → Contents
  | .mk _ _ _ thisParam _ params rest type _ =>
    .ofThisParam thisParam ++ (.ofParams params ++ (.ofRest rest ++ .ofOptType type))

/-- The places in a function, given those in its body. -/
def sites (f : Func) (kind : LayerKind) (body : List Site) : List Site :=
  Site.ofName f.name
    ++ (Site.under ⟨kind, [], []⟩ (Site.ofDecorators f.params)
      ++ Site.under (Site.paramLayer kind f.params f.rest) (f.headSites ++ body))

/-- The places in an arrow function, by its parts. -/
theorem ofArrow_eq_sites (f : Func) :
    Site.ofArrow f = f.sites .plain (Site.ofArrowBody f.body) := by
  cases f
  simp only [sites, headSites, List.append_assoc]
  rfl

/-- The places in another function: its parameters make a layer of their own kind. -/
theorem ofFunction_eq_sites (isMethod : Bool) (f : Func) :
    Site.ofFunction isMethod f = f.sites (.params isMethod) (Site.ofBody isMethod f.body) := by
  cases f
  simp only [sites, headSites, List.append_assoc]
  rfl

/-- **What stands open in a function**: its name and the decorators of its parameters stand outside
of it, and all else sees its parameters. -/
theorem mem_undeclared_sites {f : Func} {kind : LayerKind} {body : List Site}
    {name? : Part → Option String} {x : String} :
    x ∈ Site.undeclared name? (f.sites kind body)
      ↔ x ∈ Site.undeclared name? (Site.ofName f.name)
        ∨ x ∈ Site.undeclared name? (Site.ofDecorators f.params)
        ∨ (x ∈ Site.undeclared name? f.headSites ∨ x ∈ Site.undeclared name? body)
          ∧ x ∉ (Site.paramLayer kind f.params f.rest).declared := by
  simp only [sites, Site.mem_undeclared_append, Site.mem_undeclared_under, List.not_mem_nil,
    not_false_eq_true, and_true]

/-- **What is free in the contents of a function**: one scope holds its name and whatever its head
and its body declare. -/
theorem mem_free_ofFunction {f : Func} {x : String} :
    x ∈ (Contents.ofFunction f).free
      ↔ (x ∈ f.headContents.free ∨ x ∈ (Contents.ofBody f.body).free) ∧ x ∉ f.name.toList
        ∧ x ∉ (f.headContents ++ .ofBody f.body).declared := by
  have heq : Contents.ofFunction f
      = .scope (.declares f.name.toList ++ (f.headContents ++ .ofBody f.body)) := by cases f; rfl
  rw [heq, Contents.mem_free_scope]
  simp [Contents.declares]

/-- **The function hides a name**, which is not its own: the name is open in the head and the body
declares it, or it is open in the decorators of the parameters and any part declares it. -/
def Hides (f : Func) (x : String) : Prop :=
  x ∉ f.name.toList
    ∧ ((x ∈ Site.openNames (Site.under (Site.paramLayer .plain f.params f.rest) f.headSites)
        ∧ x ∈ (Contents.ofBody f.body).declared)
      ∨ (x ∈ Site.openNames (Site.ofDecorators f.params)
        ∧ x ∈ (f.headContents ++ .ofBody f.body).declared))

end Func

/-- Contents that have the names of two others, in any order. -/
structure Contents.Merges (k l m : Contents) : Prop where
  declared : ∀ {x}, x ∈ m.declared ↔ x ∈ k.declared ∨ x ∈ l.declared
  free : ∀ {x}, x ∈ m.free ↔ x ∈ k.free ∨ x ∈ l.free

namespace Contents.Merges

variable {k l m : Contents}

/-- Nothing can be merged with nothing. -/
theorem nothing : Merges .nothing .nothing .nothing :=
  ⟨by simp, by simp⟩

/-- Contents before the two others, in their order. -/
theorem cons (h : Merges k l m) (k' l' : Contents) :
    Merges (k' ++ k) (l' ++ l) (k' ++ (l' ++ m)) := by
  constructor
  · intro x
    simp only [declared_append, List.mem_append, h.declared]
    tauto
  · intro x
    simp only [free_append, List.mem_append, h.free]
    tauto

/-- Contents around one of the others. -/
theorem within (h : Merges k l m) (k' l' : Contents) :
    Merges k (k' ++ (l ++ l')) (k' ++ (m ++ l')) := by
  constructor
  · intro x
    simp only [declared_append, List.mem_append, h.declared]
    tauto
  · intro x
    simp only [free_append, List.mem_append, h.free]
    tauto

end Contents.Merges

/-! ## What is found -/

/-- An open name is accounted for: it is free in the contents, or it is bound at a place where
nothing declares it, or a function hides it. -/
def Accounted (ps : List Site) (k : Contents) (fs : List (FunctionRole × Func)) (x : String) :
    Prop :=
  x ∈ k.free ∨ x ∈ Site.strayNames ps ∨ ∃ f ∈ fs, f.2.Hides x

/-- **What the search finds of code**: every name that is open at a place is accounted for, and all
that the contents declare is bound at places that no layer inside declares. -/
structure Finds (ps : List Site) (k : Contents) (fs : List (FunctionRole × Func)) : Prop where
  found : ∀ x ∈ Site.openNames ps, Accounted ps k fs x
  stray : ∀ x ∈ k.declared, x ∈ Site.strayNames ps

/-- What is accounted for in a part of code is so in all of it, if what is free in the part is. -/
theorem Accounted.imp {ps qs : List Site} {k l : Contents} {fs gs : List (FunctionRole × Func)}
    {x : String} (h : Accounted ps k fs x) (hfree : x ∈ k.free → Accounted qs l gs x)
    (hstray : x ∈ Site.strayNames ps → x ∈ Site.strayNames qs) (hfs : fs ⊆ gs) :
    Accounted qs l gs x := by
  rcases h with hmem | hmem | ⟨f, hf, hides⟩
  · exact hfree hmem
  · exact .inr (.inl (hstray hmem))
  · exact .inr (.inr ⟨f, hfs hf, hides⟩)

namespace Finds

variable {ps qs : List Site} {k l : Contents} {fs gs : List (FunctionRole × Func)}

/-- Where there is nothing, nothing is found. -/
theorem nothing : Finds [] .nothing [] :=
  ⟨fun _ hx => absurd hx List.not_mem_nil, fun _ hx => absurd hx List.not_mem_nil⟩

/-- A reference is found as one. -/
theorem refer (x : String) : Finds [Site.reference x] (.refers [x]) [] :=
  ⟨fun _ hy => .inl hy, fun _ hy => absurd hy List.not_mem_nil⟩

/-- So is a name that is bound. -/
theorem bind (x : String) : Finds [Site.binding x] (.declares [x]) [] :=
  ⟨fun _ hy => absurd hy List.not_mem_nil, fun _ hy => hy⟩

/-- An element as such has no names. -/
theorem element (e : Element) : Finds [⟨[], .element e⟩] .nothing [] :=
  ⟨fun _ hx => absurd hx List.not_mem_nil, fun _ hx => absurd hx List.not_mem_nil⟩

/-- The name of a function is bound where it stands. -/
theorem name : ∀ n : Option String, Finds (Site.ofName n) (.declares n.toList) []
  | none => nothing
  | some x => bind x

/-- More functions may be there to hide a name. -/
theorem mono (h : Finds ps k fs) (hfs : fs ⊆ gs) : Finds ps k gs :=
  ⟨fun x hx => (h.found x hx).imp .inl id hfs, h.stray⟩

/-- **Two pieces of code one after the other.** -/
theorem append (h : Finds ps k fs) (h' : Finds qs l gs) : Finds (ps ++ qs) (k ++ l) (fs ++ gs) := by
  refine ⟨fun x hx => ?_, fun x hx => ?_⟩
  · rcases Site.mem_undeclared_append.mp hx with hx | hx
    · exact (h.found x hx).imp (fun hmem => .inl (List.mem_append_left _ hmem))
        (Site.mem_undeclared_append.mpr <| .inl ·) (List.subset_append_left ..)
    · exact (h'.found x hx).imp (fun hmem => .inl (List.mem_append_right _ hmem))
        (Site.mem_undeclared_append.mpr <| .inr ·) (List.subset_append_right ..)
  · exact Site.mem_undeclared_append.mpr ((List.mem_append.mp hx).imp (h.stray x) (h'.stray x))

/-- Code that has no functions in it, after other code. -/
theorem append_plain (h : Finds ps k fs) (h' : Finds qs l []) : Finds (ps ++ qs) (k ++ l) fs :=
  List.append_nil fs ▸ h.append h'

/-- Under a layer that is no scope for the search, where one of the two declares nothing. -/
theorem under (h : Finds ps k fs) {l : Layer} (hl : l.declared = [] ∨ k.declared = []) :
    Finds (Site.under l ps) k fs := by
  refine ⟨fun x hx => ?_, fun x hx => Site.mem_undeclared_under.mpr ⟨h.stray x hx, fun hmem => ?_⟩⟩
  · obtain ⟨hopen, hl⟩ := Site.mem_undeclared_under.mp hx
    exact (h.found x hopen).imp .inl (Site.mem_undeclared_under.mpr ⟨·, hl⟩) (List.Subset.refl fs)
  · rcases hl with hnil | hnil
    · exact absurd (hnil ▸ hmem) List.not_mem_nil
    · exact absurd (hnil ▸ hx) List.not_mem_nil

/-- **Code in a scope.** What is declared in it is bound where no layer inside declares it. So if it
hides an open name that the layer of the scope does not declare, then it is a stray binding. -/
theorem scope (h : Finds ps k fs) {names : List String} (hunder : Site.Under names ps qs) :
    Finds qs k.scope fs := by
  refine ⟨fun x hx => ?_, fun x hx => absurd hx List.not_mem_nil⟩
  obtain ⟨hopen, hnames⟩ := (hunder _ x).mp hx
  have hstray : x ∈ Site.strayNames ps → x ∈ Site.strayNames qs := fun hmem =>
    (hunder _ x).mpr ⟨hmem, hnames⟩
  refine (h.found x hopen).imp (fun hfree => ?_) hstray (List.Subset.refl fs)
  by_cases hdeclared : x ∈ k.declared
  · exact .inr (.inl (hstray (h.stray x hdeclared)))
  · exact .inl (Contents.mem_free_scope.mpr ⟨hfree, hdeclared⟩)

/-- A function that is declared has its name around it, too. -/
theorem declaration {n : Option String} (h : Finds (Site.ofName n ++ ps) k fs) :
    Finds (Site.ofName n ++ ps) (.declares n.toList ++ k) fs := by
  refine ⟨h.found, fun x hx => ?_⟩
  rcases List.mem_append.mp hx with hx | hx
  · exact Site.mem_undeclared_append.mpr (.inl ((name n).stray x hx))
  · exact h.stray x hx

/-- **A function.** In the language its decorators see none of it, its head sees the parameters and
its body sees all of it, while the search has one scope for the three. So what the body declares may
hide an open name of the head, and what any part declares one of the decorators. Nothing else is
hidden: what the head declares is a parameter, or is bound where nothing declares it. -/
theorem function {f : Func} {kind : LayerKind} {role : FunctionRole}
    (hd : Finds (Site.ofDecorators f.params) k fs) (hh : Finds f.headSites l fs)
    (hmerge : k.Merges l f.headContents) (hb : Finds ps (Contents.ofBody f.body).scope fs) :
    Finds (f.sites kind ps) (.ofFunction f) (fs ++ [(role, f)]) := by
  have hfs : fs ⊆ fs ++ [(role, f)] := List.subset_append_left ..
  have hself : (role, f) ∈ fs ++ [(role, f)] := List.mem_append_right _ (List.mem_singleton_self _)
  refine ⟨fun x hx => ?_, fun x hx => absurd hx (by cases f; exact List.not_mem_nil)⟩
  by_cases hown : x ∈ f.name.toList
  · exact .inr (.inl (Func.mem_undeclared_sites.mpr (.inl ((name _).stray x hown))))
  -- The name is open in the decorators, in the head or in the body.
  rcases Func.mem_undeclared_sites.mp hx with hx | hx | ⟨hx, hparam⟩
  · exact ((name _).found x hx).imp (absurd · List.not_mem_nil)
      (Func.mem_undeclared_sites.mpr <| .inl ·) (List.nil_subset _)
  · by_cases hdeclared : x ∈ (f.headContents ++ .ofBody f.body).declared
    · exact .inr (.inr ⟨_, hself, hown, .inr ⟨hx, hdeclared⟩⟩)
    · refine (hd.found x hx).imp (fun hmem => .inl ?_)
        (Func.mem_undeclared_sites.mpr <| .inr <| .inl ·) hfs
      exact Func.mem_free_ofFunction.mpr ⟨.inl (hmerge.free.mpr (.inl hmem)), hown, hdeclared⟩
  · by_cases hhead : x ∈ f.headContents.declared
    · -- It is no parameter, so what the head declares is something else.
      have hstray := (hmerge.declared.mp hhead).imp (hd.stray x) (hh.stray x)
      exact .inr (.inl (Func.mem_undeclared_sites.mpr (.inr (hstray.imp id (⟨.inl ·, hparam⟩)))))
    have hdeclared : x ∉ (Contents.ofBody f.body).declared →
        x ∉ (f.headContents ++ .ofBody f.body).declared :=
      fun hbody hmem => (List.mem_append.mp hmem).elim hhead hbody
    rcases hx with hx | hx
    · by_cases hbody : x ∈ (Contents.ofBody f.body).declared
      · exact .inr (.inr ⟨_, hself, hown, .inl ⟨Site.mem_undeclared_under.mpr ⟨hx, hparam⟩, hbody⟩⟩)
      · refine (hh.found x hx).imp (fun hmem => .inl ?_)
          (Func.mem_undeclared_sites.mpr <| .inr <| .inr ⟨.inl ·, hparam⟩) hfs
        exact Func.mem_free_ofFunction.mpr
          ⟨.inl (hmerge.free.mpr (.inr hmem)), hown, hdeclared hbody⟩
    · -- The body sees what it declares itself: that is no longer open here.
      refine (hb.found x hx).imp (fun hmem => .inl ?_)
        (Func.mem_undeclared_sites.mpr <| .inr <| .inr ⟨.inr ·, hparam⟩) hfs
      obtain ⟨hfree, hbody⟩ := Contents.mem_free_scope.mp hmem
      exact Func.mem_free_ofFunction.mpr ⟨.inr hfree, hown, hdeclared hbody⟩

end Finds

/-! ## The syntax -/

namespace Finds

/-- All functions. -/
abbrev allFunctions : Listing (FunctionRole × Func) :=
  .functions true

/-- Parameters, with the decorators and the patterns apart. -/
def Params (params : List Param) : Prop :=
  ∃ k l, Finds (Site.ofDecorators params) k (allFunctions.ofParams params)
    ∧ Finds (Site.ofParams params) l (allFunctions.ofParams params)
    ∧ k.Merges l (.ofParams params)

mutual

/-- The names in a type. -/
theorem ofType : ∀ t : TypeExpr, Finds (Site.ofType t) (.ofType t) []
  | .keyword _ | .string _ | .number _ => .nothing
  | .reference name _ args => (refer name).append (ofTypes args)
  | .array item => ofType item
  | .union members => ofTypes members
  | .intersection members => ofTypes members

/-- The names in several types. -/
theorem ofTypes : ∀ ts : List TypeExpr, Finds (Site.ofTypes ts) (.ofTypes ts) []
  | [] => .nothing
  | t :: ts => (ofType t).append (ofTypes ts)

end

/-- The names in a type that may be missing. -/
theorem ofOptType : ∀ t : Option TypeExpr, Finds (Site.ofOptType t) (.ofOptType t) []
  | none => .nothing
  | some t => ofType t

/-- The names in a declared `this` parameter. -/
theorem ofThisParam : ∀ p : Option ThisParam, Finds (Site.ofThisParam p) (.ofThisParam p) []
  | none => .nothing
  | some p => ofOptType p.type

/-- The name that the name of an element refers to. -/
theorem ofElementName (n : ElementName) : Finds (Site.ofElementName n) (.ofElementName n) [] := by
  cases n with
  | reference name => exact .refer name
  | member root path =>
    simp only [Site.ofElementName, Contents.ofElementName]
    split
    · exact .nothing
    · exact .refer root
  | plain _ | this | namespaced _ _ => exact .nothing

/-- Names that are bound, and nothing else. -/
theorem binds (names : List String) : Finds (names.map Site.binding) (.declares names) [] := by
  induction names with
  | nil => exact .nothing
  | cons x names ih => exact (bind x).append ih

/-- Names that are referred to, and nothing else. -/
theorem refers (names : List String) : Finds (names.map Site.reference) (.refers names) [] := by
  induction names with
  | nil => exact .nothing
  | cons x names ih => exact (refer x).append ih

/-- A function, from its parts. -/
theorem ofParts {f : Func} {kind : LayerKind} {role : FunctionRole} {ps : List Site}
    (hparams : Params f.params)
    (hrest : Finds (Site.ofRest f.rest) (.ofRest f.rest) (allFunctions.ofRest f.rest))
    (hbody : Finds ps (Contents.ofBody f.body).scope (allFunctions.ofBody false f.body)) :
    Finds (f.sites kind ps) (.ofFunction f) (allFunctions.ofFunc role f) := by
  obtain ⟨name, isAsync, isGenerator, thisParam, span, params, rest, type, body⟩ := f
  obtain ⟨k, l, hd, hp, hmerge⟩ := hparams
  have hh := (ofThisParam thisParam).append (hp.append (hrest.append_plain (ofOptType type)))
  refine function (hd.mono (List.subset_append_left ..)) (hh.mono fun g hg => ?_)
    (hmerge.within _ _)
    (hbody.mono fun g hg => List.mem_append_right _ (List.mem_append_right _ hg))
  rw [← List.append_assoc]
  exact List.mem_append_left _ hg

/-- A declared function binds its name in its own scope and around itself. -/
theorem ofDeclaration {f : Func} {fs : List (FunctionRole × Func)}
    (h : Finds (Site.ofFunction false f) (.ofFunction f) fs) :
    Finds (Site.ofFunction false f) (.declares f.name.toList ++ .ofFunction f) fs := by
  rw [Func.ofFunction_eq_sites] at h ⊢
  exact h.declaration

mutual

/-- **What the search finds of an expression.** Its parts are put together in order; functions and
classes are put into their scopes. -/
theorem ofExpr : ∀ e : Expr, Finds (Site.ofExpr e) (.ofExpr e) (allFunctions.ofExpr e)
  | .ident _ name | .alias _ name _ => .refer name
  | .number .. | .string .. | .bigint .. | .regex .. | .bool .. | .null _ | .this _ | .super _
  | .metaProperty .. | .hole => .nothing
  | .template _ _ exprs => ofExprs exprs
  | .tagged _ tag _ exprs => (ofExpr tag).append (ofExprs exprs)
  | .spread e => ofExpr e
  | .array _ elements => ofExprs elements
  | .object _ properties => ofProperties properties
  | .function _ f => (ofFunction false .plain f).under (.inr (by cases f; rfl))
  | .arrow _ f => ofArrow f
  | .classExpr _ c => ofClass c
  | .unary _ _ e => ofExpr e
  | .update _ _ _ e => ofExpr e
  | .binary _ _ l r => (ofExpr l).append (ofExpr r)
  | .privateIn _ _ r => ofExpr r
  | .logical _ _ l r => (ofExpr l).append (ofExpr r)
  | .assign _ _ left right => (ofPattern left).append (ofExpr right)
  | .conditional _ test consequent alternate =>
    (ofExpr test).append ((ofExpr consequent).append (ofExpr alternate))
  | .call _ callee args _ => (ofExpr callee).append (ofExprs args)
  | .new _ callee args => (ofExpr callee).append (ofExprs args)
  | .member _ o _ _ => ofExpr o
  | .privateMember _ o _ _ => ofExpr o
  | .index _ o k _ => (ofExpr o).append (ofExpr k)
  | .chain _ e => ofExpr e
  | .sequence _ exprs => ofExprs exprs
  | .paren _ e => ofExpr e
  | .yield _ _ e => ofOption e
  | .await _ e => ofExpr e
  | .importCall _ args => ofExprs args
  | .typed _ _ e type => (ofExpr e).append_plain (ofType type)
  | .nonNull _ e => ofExpr e
  | .element e => ofElement e
  | .fragment _ children => ofChildren children

theorem ofExprs : ∀ es : List Expr, Finds (Site.ofExprs es) (.ofExprs es) (allFunctions.ofExprs es)
  | [] => .nothing
  | e :: es => (ofExpr e).append (ofExprs es)

theorem ofOption :
    ∀ e : Option Expr, Finds (Site.ofOption e) (.ofOption e) (allFunctions.ofOption e)
  | none => .nothing
  | some e => ofExpr e

theorem ofKey : ∀ k : Key, Finds (Site.ofKey k) (.ofKey k) (allFunctions.ofKey k)
  | .computed e => ofExpr e
  | .ident _ | .string _ | .number _ | .bigint _ | .privateName _ => .nothing

theorem ofProperties : ∀ ps : List Property,
    Finds (Site.ofProperties ps) (.ofProperties ps) (allFunctions.ofProperties ps)
  | [] => .nothing
  | .field k value _ :: ps => ((ofKey k).append (ofExpr value)).append (ofProperties ps)
  | .method _ k f :: ps => ((ofKey k).append (ofFunction false .plain f)).append (ofProperties ps)
  | .spread e :: ps => (ofExpr e).append (ofProperties ps)

/-- An arrow function: the statements of its body are one layer. -/
theorem ofArrow : ∀ f : Func, Finds (Site.ofArrow f) (.ofFunction f) (allFunctions.ofFunc .arrow f)
  | .mk name isAsync isGenerator thisParam span params rest type body => by
    rw [Func.ofArrow_eq_sites]
    exact ofParts (ofParams params) (ofRest rest) (ofArrowBody body)

/-- The body of an arrow function is a scope in the contents. -/
theorem ofArrowBody : ∀ b : Body,
    Finds (Site.ofArrowBody b) (Contents.ofBody b).scope (allFunctions.ofBody false b)
  | .absent => .nothing
  | .expr e => (ofExpr e).scope (Site.under_refl _)
  | .block _ stmts => (ofStmts stmts).scope (Site.under_under _ _)

/-- **A function.** Its head is in the scope of its body, so that what the body declares may hide a
name of the head. -/
theorem ofFunction (isMethod : Bool) (role : FunctionRole) : ∀ f : Func,
    Finds (Site.ofFunction isMethod f) (.ofFunction f) (allFunctions.ofFunc role f)
  | .mk name isAsync isGenerator thisParam span params rest type body => by
    rw [Func.ofFunction_eq_sites]
    exact ofParts (ofParams params) (ofRest rest) (ofBody isMethod body)

/-- The body of a function, whose statements see each other. -/
theorem ofBody (isMethod : Bool) : ∀ b : Body,
    Finds (Site.ofBody isMethod b) (Contents.ofBody b).scope (allFunctions.ofBody false b)
  | .absent => .nothing
  | .expr e => (ofExpr e).scope (Site.under_refl _)
  | .block _ stmts => (ofStmts stmts).scope (Site.under_ofBodyStmts isMethod stmts [] stmts)

/-- Parameters: the contents have decorators and patterns in turn, the places have them apart. -/
theorem ofParams : ∀ ps : List Param, Params ps
  | [] => ⟨_, _, .nothing, .nothing, .nothing⟩
  | .mk decorators pattern :: ps => by
    obtain ⟨k, l, hd, hp, hmerge⟩ := ofParams ps
    refine ⟨_, _, ((ofExprs decorators).append hd).mono ?_, ((ofPattern pattern).append hp).mono ?_,
      hmerge.cons _ _⟩
    · exact List.append_subset.mpr ⟨fun _ hg => List.mem_append_left _ (List.mem_append_left _ hg),
        List.subset_append_right ..⟩
    · exact List.append_subset.mpr ⟨fun _ hg => List.mem_append_left _ (List.mem_append_right _ hg),
        List.subset_append_right ..⟩

theorem ofPattern :
    ∀ p : Pattern, Finds (Site.ofPattern p) (.ofPattern p) (allFunctions.ofPattern p)
  | .bind name => .bind name
  | .target e => ofExpr e
  | .hole => .nothing
  | .object properties rest => (ofPatternProperties properties).append (ofRest rest)
  | .array elements rest => (ofPatterns elements).append (ofRest rest)
  | .withDefault p value => (ofPattern p).append (ofExpr value)
  | .typed p _ type => (ofPattern p).append_plain (ofOptType type)

theorem ofPatterns :
    ∀ ps : List Pattern, Finds (Site.ofPatterns ps) (.ofPatterns ps) (allFunctions.ofPatterns ps)
  | [] => .nothing
  | p :: ps => (ofPattern p).append (ofPatterns ps)

theorem ofRest : ∀ p : Option Pattern, Finds (Site.ofRest p) (.ofRest p) (allFunctions.ofRest p)
  | none => .nothing
  | some p => ofPattern p

theorem ofPatternProperties : ∀ ps : List PatternProperty,
    Finds (Site.ofPatternProperties ps) (.ofPatternProperties ps)
      (allFunctions.ofPatternProperties ps)
  | [] => .nothing
  | .mk k value _ :: ps =>
    (ofKey k).append ((ofPattern value).append (ofPatternProperties ps))

/-- What the search finds of a statement. -/
theorem ofStmt : ∀ s : Stmt, Finds (Site.ofStmt s) (.ofStmt s) (allFunctions.ofStmt s)
  | .expr e => ofExpr e
  | .varDecl _ ds => ofDeclarators ds
  | .function f => ofDeclaration (ofFunction false .plain f)
  | .classDecl c => ofClass c
  | .return e => ofOption e
  | .throw e => ofExpr e
  | .if test consequent alternate =>
    (ofExpr test).append ((ofStmt consequent).append (ofAlternate alternate))
  | .for init test update body =>
    ((ofHead init).append ((ofOption test).append ((ofOption update).append (ofStmt body)))).scope
      (Site.under_under _ _)
  | .forIn left right body =>
    ((ofHead left).append ((ofExpr right).append (ofStmt body))).scope (Site.under_under _ _)
  | .forOf _ left right body =>
    ((ofHead left).append ((ofExpr right).append (ofStmt body))).scope (Site.under_under _ _)
  | .while test body => (ofExpr test).append (ofStmt body)
  | .doWhile body test => (ofStmt body).append (ofExpr test)
  | .block stmts => (ofStmts stmts).scope (Site.under_under _ _)
  | .switch discriminant cases =>
    (ofExpr discriminant).append ((ofCases cases).scope (Site.under_under _ _))
  | .try block handler finalizer =>
    ((ofStmts block).scope (Site.under_under _ _)).append
      ((ofHandler handler).append (ofFinalizer finalizer))
  | .break _ | .continue _ | .empty | .debugger | .exportAll .. => .nothing
  | .labeled _ body => ofStmt body
  | .import items _ => by
    have hbinds := binds ((items.getD []).map ImportItem.localName)
    rw [List.map_map] at hbinds
    exact hbinds
  | .exportNamed items none => by
    have hrefers := refers (items.map fun item => item.1.name)
    rw [List.map_map] at hrefers
    exact hrefers
  | .exportNamed _ (some _) => .nothing
  | .exportDecl d => ofStmt d
  | .exportDefaultFunction f => ofDeclaration (ofFunction false .plain f)
  | .exportDefaultClass c => ofClass c
  | .exportDefault e => ofExpr e

theorem ofStmts : ∀ ss : List Stmt, Finds (Site.ofStmts ss) (.ofStmts ss) (allFunctions.ofStmts ss)
  | [] => .nothing
  | s :: ss => (ofStmt s).append (ofStmts ss)

theorem ofAlternate :
    ∀ s : Option Stmt, Finds (Site.ofAlternate s) (.ofAlternate s) (allFunctions.ofAlternate s)
  | none => .nothing
  | some s => ofStmt s

theorem ofDeclarators : ∀ ds : List Declarator,
    Finds (Site.ofDeclarators ds) (.ofDeclarators ds) (allFunctions.ofDeclarators ds)
  | [] => .nothing
  | .mk p init :: ds => (ofPattern p).append ((ofOption init).append (ofDeclarators ds))

/-- The head of a loop: variables, an expression or a target. -/
theorem ofHead : ∀ h : ForHead, Finds (Site.ofHead h) (.ofHead h) (allFunctions.ofHead h)
  | .absent => .nothing
  | .decl _ ds => ofDeclarators ds
  | .expr e => ofExpr e
  | .target p => ofPattern p

theorem ofCases :
    ∀ cs : List SwitchCase, Finds (Site.ofCases cs) (.ofCases cs) (allFunctions.ofCases cs)
  | [] => .nothing
  | .mk test body :: cs => (ofOption test).append ((ofStmts body).append (ofCases cs))

/-- A handler: its parameter is a layer around its statements. -/
theorem ofHandler :
    ∀ h : Option Catch, Finds (Site.ofHandler h) (.ofHandler h) (allFunctions.ofHandler h)
  | none => .nothing
  | some (.mk param body) =>
    ((ofRest param).append ((ofStmts body).scope (Site.under_under _ _))).scope
      (Site.under_under _ _)

theorem ofFinalizer : ∀ b : Option (List Stmt),
    Finds (Site.ofFinalizer b) (.ofFinalizer b) (allFunctions.ofFinalizer b)
  | none => .nothing
  | some body => (ofStmts body).scope (Site.under_under _ _)

/-- A class: decorators and name stand outside of the scope that has its name. -/
theorem ofClass : ∀ c : Class, Finds (Site.ofClass c) (.ofClass c) (allFunctions.ofClass c)
  | .mk n decorators superClass members =>
    (ofExprs decorators).append ((name n).append
      (((ofOption superClass).append (ofMembers members)).scope (Site.under_under _ _)))

theorem ofMembers :
    ∀ ms : List Member, Finds (Site.ofMembers ms) (.ofMembers ms) (allFunctions.ofMembers ms)
  | [] => .nothing
  | .method decorators isStatic kind k f :: ms =>
    (ofExprs decorators).append ((ofKey k).append
      ((ofFunction (Site.isInstanceMethod isStatic kind) (.method isStatic kind) f).append
        (ofMembers ms)))
  | .field decorators _ k _ type value :: ms =>
    (ofExprs decorators).append ((ofKey k).append
      ((ofOptType type).append (((ofOption value).under (.inl rfl)).append (ofMembers ms))))
  | .staticBlock stmts :: ms =>
    ((ofStmts stmts).scope (Site.under_under _ _)).append (ofMembers ms)

/-- An element: the name that it refers to, its attributes and its children. -/
theorem ofElement :
    ∀ e : Element, Finds (Site.ofElement e) (.ofElement e) (allFunctions.ofElement e)
  | .mk _ _ n attrs children _ =>
    (element _).append ((ofElementName n).append ((ofAttrs attrs).append (ofChildren children)))

theorem ofAttrs : ∀ as : List Attr, Finds (Site.ofAttrs as) (.ofAttrs as) (allFunctions.ofAttrs as)
  | [] => .nothing
  | .named _ _ value :: as => (ofAttrValue value).append (ofAttrs as)
  | .spread _ e :: as => (ofExpr e).append (ofAttrs as)

theorem ofAttrValue :
    ∀ v : AttrValue, Finds (Site.ofAttrValue v) (.ofAttrValue v) (allFunctions.ofAttrValue v)
  | .absent | .string _ => .nothing
  | .container _ e => ofOption e
  | .element e => ofElement e
  | .fragment _ children => ofChildren children

theorem ofChildren :
    ∀ cs : List Child, Finds (Site.ofChildren cs) (.ofChildren cs) (allFunctions.ofChildren cs)
  | [] => .nothing
  | .text _ :: cs => ofChildren cs
  | .element e :: cs => (ofElement e).append (ofChildren cs)
  | .fragment _ children :: cs => (ofChildren children).append (ofChildren cs)
  | .container e :: cs => (ofOption e).append (ofChildren cs)
  | .spread e :: cs => (ofExpr e).append (ofChildren cs)

end

end Finds

/-! ## What is missed -/

/-- The names that are bound in an expression at places where nothing in it declares them. Of code
that can be read these are the own names of class expressions. -/
def Expr.strayNames (e : Expr) : List String :=
  Site.strayNames (Site.ofExpr e)

/-- The search for free names misses a name of an expression. -/
def Expr.Misses (e : Expr) (x : String) : Prop :=
  x ∈ e.openNames ∧ x ∉ e.freeNames

/-- The names that are free at the places of an expression are its open names. -/
theorem Expr.mem_openNames {e : Expr} {x : String} :
    x ∈ e.openNames ↔ x ∈ Site.openNames (Site.ofExpr e) := by
  rw [openNames, funext Site.free?_eq]
  rfl

/-- The search takes for free what is free in the contents and not declared by them. -/
theorem Expr.mem_freeNames {e : Expr} {x : String} :
    x ∈ e.freeNames ↔ x ∈ (Contents.ofExpr e).free ∧ x ∉ (Contents.ofExpr e).declared := by
  rw [e.freeNames_eq, List.mem_eraseDups, Contents.mem_free_scope]

/-- A name that a function hides is missed where the function stands alone. -/
theorem Func.Hides.misses {f : Func} {x : String} (h : f.Hides x) (span : Span) :
    (Expr.function span f).Misses x ∧ (Expr.arrow span f).Misses x := by
  obtain ⟨hown, hparts⟩ := h
  have hopen : ∀ kind body, x ∈ Site.openNames (f.sites kind body) := fun kind body => by
    refine mem_undeclared_sites.mpr (.inr ?_)
    rcases hparts with ⟨hhead, -⟩ | ⟨hdecorators, -⟩
    · obtain ⟨hmem, hparam⟩ := Site.mem_undeclared_under.mp hhead
      exact .inr ⟨.inl hmem, hparam⟩
    · exact .inl hdecorators
  have hdeclared : x ∈ (f.headContents ++ .ofBody f.body).declared := by
    rcases hparts with ⟨-, hbody⟩ | ⟨-, hany⟩
    · exact List.mem_append_right _ hbody
    · exact hany
  have hfree : x ∉ (Contents.ofFunction f).free := fun hmem =>
    (mem_free_ofFunction.mp hmem).2.2 hdeclared
  refine ⟨⟨Expr.mem_openNames.mpr ?_, fun hmem => hfree (Expr.mem_freeNames.mp hmem).1⟩,
    Expr.mem_openNames.mpr ?_, fun hmem => hfree (Expr.mem_freeNames.mp hmem).1⟩
  · refine Site.mem_undeclared_under.mpr ⟨?_, hown⟩
    rw [ofFunction_eq_sites]
    exact hopen _ _
  · change x ∈ Site.openNames (Site.ofArrow f)
    rw [ofArrow_eq_sites]
    exact hopen _ _

/-- **What the search for free names misses.** It finds every open name of an expression, except for
names that are bound in it where nothing declares them and names that some function in it hides. And
such names are missed: a hidden one where the function stands alone, and what the expression itself
declares around it. -/
theorem Expr.misses_strayNames_or_hidden (e : Expr) :
    (∀ x, e.Misses x →
        x ∈ e.strayNames ∨ ∃ p ∈ (Listing.functions true).ofExpr e, p.2.Hides x)
      ∧ (∀ p ∈ (Listing.functions true).ofExpr e, ∀ x, p.2.Hides x → ∀ span,
        (Expr.function span p.2).Misses x ∧ (Expr.arrow span p.2).Misses x)
      ∧ ∀ x ∈ (Contents.ofExpr e).declared, x ∈ e.strayNames ∧ (x ∈ e.openNames → e.Misses x) := by
  have hfinds := Finds.ofExpr e
  refine ⟨fun x ⟨hopen, hmissed⟩ => ?_, fun p _ x hides span => hides.misses span, fun x hx => ?_⟩
  · rcases (hfinds.scope (Site.under_refl _)).found x (mem_openNames.mp hopen) with hfree | hhidden
    · exact absurd (mem_freeNames.mpr (Contents.mem_free_scope.mp hfree)) hmissed
    · exact hhidden
  · exact ⟨hfinds.stray x hx, fun hopen => ⟨hopen, fun hfree => (mem_freeNames.mp hfree).2 hx⟩⟩

/-- `(p = x) => { const x = y; return p; }`: the default does not see the constant. -/
def hidingArrow : Expr :=
  .arrow .none (.mk none false false none .none
    [.mk [] (.withDefault (.bind "p") (.ident .none "x"))] none none
    (.block [] [Build.declare .const "x" (.ident .none "y"), .return (some (.ident .none "p"))]))

/-- `[class A { }, A]`: only the class sees its own name. -/
def besideClass : Expr :=
  .array .none [.classExpr .none (.mk (some "A") [] none []), .ident .none "A"]

theorem misses_strayNames_or_hidden_both :
    (Expr.array .none [hidingArrow, besideClass]).openNames = ["x", "y", "A"]
      ∧ (Expr.array .none [hidingArrow, besideClass]).freeNames = ["y"]
      ∧ (Expr.array .none [hidingArrow, besideClass]).strayNames = ["A"]
      ∧ ∃ p ∈ (Listing.functions true).ofExpr (Expr.array .none [hidingArrow, besideClass]),
        p.2.Hides "x" := by
  have hfree : (Expr.array .none [hidingArrow, besideClass]).freeNames = ["y"] := by decide +kernel
  have hmisses : (Expr.array .none [hidingArrow, besideClass]).Misses "x" :=
    ⟨by decide, by rw [hfree]; decide⟩
  refine ⟨by decide, hfree, by decide, ?_⟩
  exact ((Expr.misses_strayNames_or_hidden _).1 "x" hmisses).resolve_left (by decide)

/-- **Names that are free and are not found**: in a parameter, and beside a class. -/
theorem freeNames_misses_hidingArrow_besideClass :
    (hidingArrow.openNames = ["x", "y"] ∧ hidingArrow.freeNames = ["y"])
      ∧ besideClass.openNames = ["A"] ∧ besideClass.freeNames = [] :=
  ⟨⟨by decide, by decide +kernel⟩, by decide, by decide +kernel⟩

end JsxDialect
