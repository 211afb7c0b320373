import JsxDialect.Proofs.Attributes

/-!
# Control flow keeps to a discipline

What a tag of control flow becomes is made of the values of its attributes and of its children. For
`if`, `switch` and groups this is all there is to say. `repeat` and `using` also make functions
whose parameters or variables have the names that the element binds: what is put under them was
walked with these names in scope.
-/

namespace JsxDialect

/-! ## Places of children and binders -/

namespace Site

/-- The places in children are those in each of them. -/
theorem ofChildren_eq (cs : List Child) : ofChildren cs = cs.flatMap ofChild := by
  induction cs with
  | nil => rfl
  | cons c cs ih => exact congrArg (ofChild c ++ ·) ih

/-- A child as an expression has no other places. -/
theorem ofExpr_subset_ofChild {c : Child} {e : Expr} (h : c.expr? = some e) :
    ofExpr e ⊆ ofChild c := by
  cases c with
  | text s =>
    obtain ⟨cs, -, rfl⟩ := Option.map_eq_some_iff.mp h
    exact List.nil_subset _
  | element _ | fragment _ _ | container _ | spread _ =>
    cases h
    exact List.Subset.refl _

/-- Nor have children as expressions. -/
theorem ofExprs_childExprs_subset (cs : List Child) : ofExprs (childExprs cs) ⊆ ofChildren cs := by
  intro p hp
  rw [ofExprs_eq] at hp
  obtain ⟨e, he, hp⟩ := List.mem_flatMap.mp hp
  obtain ⟨c, hc, hce⟩ := List.mem_filterMap.mp he
  rw [ofChildren_eq]
  exact List.mem_flatMap.mpr ⟨c, hc, ofExpr_subset_ofChild hce hp⟩

/-- Nor have children as one expression. -/
theorem ofExpr_childrenExpr_subset (span : Span) (cs : List Child) :
    ofExpr (childrenExpr span cs) ⊆ ofChildren cs := by
  have hall := ofExprs_childExprs_subset cs
  unfold childrenExpr
  split
  · exact List.nil_subset _
  · rename_i e hone
    rw [hone] at hall
    exact fun p hp => hall (List.mem_append_left _ hp)
  · exact hall

/-- An entry of a list of binders stands in the list. -/
theorem ofExpr_binderEntries_subset {e entry : Expr} (h : entry ∈ binderEntries e) :
    ofExpr entry ⊆ ofExpr e := by
  intro p hp
  refine ofExpr_inner_subset e ?_
  unfold binderEntries at h
  split at h
  · rename_i es hinner
    rw [hinner]
    change p ∈ ofExprs es
    rw [ofExprs_eq]
    exact List.mem_flatMap.mpr ⟨entry, h, hp⟩
  · rwa [List.mem_singleton.mp h] at hp

/-- The name that an entry binds is a name that it refers to. -/
theorem reference_mem_of_binderName? {e : Expr} {x : String} (h : binderName? e = some x) :
    reference x ∈ ofExpr e := by
  refine ofExpr_inner_subset e ?_
  unfold binderName? at h
  split at h
  · rename_i hinner
    obtain rfl := Option.some.inj h
    rw [hinner]
    exact List.mem_singleton.mpr rfl
  · cases h

/-- The names that a list binds are referred to in it. -/
theorem reference_mem_of_binderNames {e : Expr} {x : String} (h : x ∈ binderNames e) :
    reference x ∈ ofExpr e := by
  obtain ⟨entry, hentry, hx⟩ := List.mem_filterMap.mp h
  exact ofExpr_binderEntries_subset hentry (reference_mem_of_binderName? hx)

mutual

/-- The binders and the collection of a `for` attribute are parts of it. -/
theorem ofExpr_splitFor_subset {e collection : Expr} {binders : List Expr}
    (h : splitFor? e = some (binders, collection)) :
    ofExprs binders ⊆ ofExpr e ∧ ofExpr collection ⊆ ofExpr e := by
  cases e with
  | paren _ e | nonNull _ e => exact ofExpr_splitFor_subset (e := e) h
  | typed _ _ e _ =>
    have ih := ofExpr_splitFor_subset (e := e) h
    exact ⟨fun p hp => List.mem_append_left _ (ih.1 hp),
      fun p hp => List.mem_append_left _ (ih.2 hp)⟩
  | sequence _ es => exact ofExprs_splitForLast_subset (l := es) h
  | binary _ op left right =>
    cases op with
    | isIn =>
      obtain ⟨rfl, rfl⟩ := Prod.mk.inj (Option.some.inj h)
      refine ⟨fun p hp => List.mem_append_left _ ?_, fun p hp => List.mem_append_right _ hp⟩
      rw [ofExprs_eq] at hp
      obtain ⟨entry, hentry, hp⟩ := List.mem_flatMap.mp hp
      exact ofExpr_binderEntries_subset hentry hp
    | _ => cases h
  | _ => cases h

/-- The binders and the collection of a `for` stand in it. -/
theorem ofExprs_splitForLast_subset {l : List Expr} {collection : Expr} {binders : List Expr}
    (h : splitForLast? l = some (binders, collection)) :
    ofExprs binders ⊆ ofExprs l ∧ ofExpr collection ⊆ ofExprs l := by
  match l with
  | [] => cases h
  | [e] =>
    have ih := ofExpr_splitFor_subset (e := e) h
    exact ⟨fun p hp => List.mem_append_left _ (ih.1 hp),
      fun p hp => List.mem_append_left _ (ih.2 hp)⟩
  | e :: e' :: es =>
    obtain ⟨rest, hrest, rfl⟩ := splitForLast?_cons_eq_some.mp h
    have ih := ofExprs_splitForLast_subset (l := e' :: es) hrest
    refine ⟨fun p hp => ?_, fun p hp => List.mem_append_right _ (ih.2 hp)⟩
    rcases List.mem_append.mp hp with hp | hp
    · exact List.mem_append_left _ hp
    · exact List.mem_append_right _ (ih.1 hp)

end

end Site

namespace Discipline

variable {c : LoweringSetting} (D : Discipline c.options)

/-- An element whose attributes and children are right. -/
structure Parts (s : Lowering) (M : List String) (e : Element) : Prop where
  attrs : D.All s M (Site.ofAttrs e.attrs)
  children : D.All s M (Site.ofChildren e.children)

variable {D} {s t : Lowering} {M N params : List String} {e : Element}

/-- What is right goes on being right as the compilation goes on. -/
theorem Parts.mono (hl : D.Leads s t) (h : D.Parts s M e) : D.Parts t M e :=
  ⟨h.attrs.mono hl, h.children.mono hl⟩

/-- The children of an element as one expression. -/
theorem Parts.childrenExpr (h : D.Parts s M e) : D.All s M (Site.ofExpr e.childrenExpr) :=
  fun p hp => h.children p (Site.ofExpr_childrenExpr_subset _ _ hp)

/-- The value of an attribute as an expression. -/
theorem All.value {as : List Attr} {name : String} {span : Span} {v : AttrValue}
    (h : D.All s M (Site.ofAttrs as)) (hget : Attrs.get? as name = some (span, v)) :
    D.All s M (Site.ofExpr (v.toExpr span)) := by
  obtain ⟨n, hn, -⟩ := Attrs.mem_of_get? hget
  refine All.toExpr (fun p hp => h p ?_) span
  rw [Site.ofAttrs_eq]
  exact List.mem_flatMap.mpr ⟨_, hn, hp⟩

/-- A name that the header makes for nothing can stand everywhere. -/
theorem All.unmarked (hs : D.At s) {x : String} (hx : ¬Header.IsMarked x) :
    D.All s N [Site.reference x] :=
  .global (D.unmarked_global hs.inv hx)

/-- `undefined` is free in every module. -/
theorem All.undefined (hs : D.At s) (span : Span) :
    D.All s N (Site.ofExpr (Build.undefined span)) :=
  .unmarked hs (by decide)

/-- A value that an element has to have, and what is left of the element. -/
theorem Run.required (hs : D.At s) (tag name : String) (h : D.All s M (Site.ofAttrs e.attrs)) :
    D.Run s (ControlFlow.required tag name e) fun t r =>
      D.All t M (Site.ofExpr r.1) ∧ r.2.attrs ⊆ e.attrs ∧ r.2.children = e.children := by
  unfold ControlFlow.required
  split
  · rename_i span value hget
    refine .pure hs ⟨h.value hget, ?_, ?_⟩
    · cases e
      exact fun a ha => Attrs.mem_of_mem_erase ha
    · cases e
      rfl
  · exact (Run.report hs _ _).map fun t _ ht _ _ => ⟨.undefined ht _, List.Subset.refl _, rfl⟩

/-- An element with fewer attributes. -/
theorem Parts.rest {e' : Element} (h : D.Parts s M e) (hattrs : e'.attrs ⊆ e.attrs)
    (hchildren : e'.children = e.children) : D.Parts s M e' := by
  refine ⟨fun p hp => h.attrs p ?_, hchildren ▸ h.children⟩
  rw [Site.ofAttrs_eq] at hp ⊢
  obtain ⟨a, ha, hp⟩ := List.mem_flatMap.mp hp
  exact List.mem_flatMap.mpr ⟨a, hattrs ha, hp⟩

/-! ## Conditions -/

/-- Branches with right places. -/
structure BranchesOk (D : Discipline c.options) (s : Lowering) (M : List String)
    (branches : List (Expr × Expr)) (fallback : Option Expr) : Prop where
  conditions : ∀ b ∈ branches, D.All s M (Site.ofExpr b.1)
  branches : ∀ b ∈ branches, D.All s M (Site.ofExpr b.2)
  fallback : D.All s M (Site.ofOption fallback)

/-- One of two expressions, if there is one. -/
theorem all_orElse {first second : Option Expr} (hfirst : D.All s M (Site.ofOption first))
    (hsecond : D.All s M (Site.ofOption second)) :
    D.All s M (Site.ofOption (first.orElse fun _ => second)) := by
  cases first with
  | none => exact hsecond
  | some e => exact hfirst

/-- **The branches of a chain**: their conditions, their children, and the last `else`. -/
theorem Run.branches (hs : D.At s) {es : List Element} (h : ∀ e ∈ es, D.Parts s M e) :
    D.Run s (ControlFlow.lowerBranches es) fun t r => D.BranchesOk t M r.1 r.2 := by
  induction es generalizing s with
  | nil =>
    exact .pure hs ⟨fun b hb => absurd hb List.not_mem_nil, fun b hb => absurd hb List.not_mem_nil,
      .nil⟩
  | cons e es ih =>
    have he := h e List.mem_cons_self
    have hes : ∀ e ∈ es, D.Parts s M e := fun e' he' => h e' (List.mem_cons_of_mem _ he')
    unfold ControlFlow.lowerBranches
    split
    · -- An `else` has no condition, and a later one is preferred.
      refine (ih hs hes).map fun t r _ hl hr => ⟨hr.conditions, hr.branches, ?_⟩
      exact all_orElse hr.fallback (he.mono hl).childrenExpr
    · refine (Run.required hs _ _ he.attrs).bind fun t r ht hl hr => ?_
      have hparts : D.Parts t M r.2 := (he.mono hl).rest hr.2.1 hr.2.2
      refine (ih ht fun e' he' => (hes e' he').mono hl).map fun u rest _ hl' hrest => ?_
      refine ⟨fun b hb => ?_, fun b hb => ?_, hrest.fallback⟩
      · rcases List.mem_cons.mp hb with rfl | hb
        · dsimp only
          split
          · exact hr.1.mono hl'
          · exact hr.1.mono hl'
        · exact hrest.conditions b hb
      · rcases List.mem_cons.mp hb with rfl | hb
        · exact (hparts.mono hl').childrenExpr
        · exact hrest.branches b hb

/-- Branches become conditional expressions, one in the other. -/
theorem all_conditionals (span : Span) {branches : List (Expr × Expr)} {fallback : Option Expr}
    {last : Expr} (h : D.BranchesOk s M branches fallback) (hlast : D.All s M (Site.ofExpr last)) :
    D.All s M (Site.ofExpr (ControlFlow.conditionals span branches last)) := by
  induction branches with
  | nil => exact hlast
  | cons b branches ih =>
    have hb := List.mem_cons_self (a := b) (l := branches)
    refine (h.conditions b hb).append ((h.branches b hb).append (ih ⟨?_, ?_, h.fallback⟩))
    · exact fun b' hb' => h.conditions b' (List.mem_cons_of_mem _ hb')
    · exact fun b' hb' => h.branches b' (List.mem_cons_of_mem _ hb')

/-- What is shown if no branch is: the `else`, or `null`. -/
theorem all_getD {fallback : Option Expr} (h : D.All s M (Site.ofOption fallback)) (span : Span) :
    D.All s M (Site.ofExpr (fallback.getD (.null span))) := by
  cases fallback with
  | none => exact .nil
  | some e => exact h

/-- **An `if` with its branches.** -/
theorem Run.lowerIf (hs : D.At s) {rest : List Element} (he : D.Parts s M e)
    (hrest : ∀ e ∈ rest, D.Parts s M e) :
    D.Run s (ControlFlow.lowerIf e rest) fun t r => D.All t M (Site.ofExpr r) := by
  have hall : ∀ e' ∈ e :: rest, D.Parts s M e' := by
    intro e' he'
    rcases List.mem_cons.mp he' with rfl | he'
    · exact he
    · exact hrest e' he'
  exact (Run.branches hs hall).map fun t r _ _ hr => all_conditionals _ hr (all_getD hr.fallback _)

/-! ## Choices -/

/-- A function that is called at once, whose variables are names that it was to be put under. -/
theorem All.invoked (span : Span) {stmts : List Stmt}
    (hnames : D.Loose ∨ ∀ x ∈ varNames stmts ++ lexicalNames stmts, x ∈ N)
    (h : D.All s N (Site.ofStmts stmts)) : D.All s N (Site.ofExpr (Build.invoked span stmts)) := by
  refine All.call ?_ .nil
  rw [Site.ofExpr_arrowWith]
  refine All.under rfl (.inr fun x hx => absurd hx List.not_mem_nil) ?_
  exact All.under (l := Site.bodyLayer .plain stmts) rfl
    (hnames.imp id fun hnames x hx => .inl (hnames x hx)) h

/-- Cases with right places that declare nothing. -/
structure CasesOk (D : Discipline c.options) (s : Lowering) (M : List String)
    (cases : List SwitchCase) (fallback : Option Expr) : Prop where
  places : D.All s M (Site.ofCases cases)
  lexical : (Site.casesLayer cases).listed = []
  vars : caseVarPatterns cases = []
  fallback : D.All s M (Site.ofOption fallback)

/-- No cases. -/
theorem CasesOk.nil : D.CasesOk s M [] none :=
  ⟨.nil, rfl, rfl, .nil⟩

/-- An element with right places has right parts. -/
theorem parts_ofElement (h : D.All s M (Site.ofElement e)) : D.Parts s M e := by
  cases e with
  | mk span openSpan name attrs children closed =>
    have hinside : D.All s M (Site.ofElementName name
        ++ (Site.ofAttrs attrs ++ Site.ofChildren children)) :=
      fun p hp => h p (List.mem_cons_of_mem _ hp)
    exact ⟨hinside.right.left, hinside.right.right⟩

/-- **The arms of a `switch`**: each case returns the children of its element. -/
theorem Run.arms (hs : D.At s) {cs : List Child} (h : D.All s M (Site.ofChildren cs)) :
    D.Run s (ControlFlow.lowerArms cs) fun t r => D.CasesOk t M r.1 r.2 := by
  induction cs generalizing s with
  | nil => exact .pure hs .nil
  | cons child cs ih =>
    cases child with
    | text _ | fragment _ _ | container _ | spread _ => exact ih hs h.right
    | element arm =>
      have harm : D.Parts s M arm := parts_ofElement h.left
      unfold ControlFlow.lowerArms
      split
      · refine (Run.required hs _ _ harm.attrs).bind fun t r ht hl hr => ?_
        refine (ih ht (h.right.mono hl)).map fun u rest _ hl' hrest => ?_
        have hbody := (((harm.mono hl).rest hr.2.1 hr.2.2).mono hl').childrenExpr
        refine ⟨?_, hrest.lexical, hrest.vars, hrest.fallback⟩
        exact (hr.1.mono hl').append ((hbody.append .nil).append hrest.places)
      · refine (ih hs h.right).map fun t r _ hl hr => ⟨hr.places, hr.lexical, hr.vars, ?_⟩
        exact all_orElse hr.fallback (harm.mono hl).childrenExpr
      · exact .pure hs .nil

/-- **A `switch`** becomes a function that is called at once. -/
theorem Run.lowerSwitch (hs : D.At s) (h : D.Parts s M e) :
    D.Run s (ControlFlow.lowerSwitch e) fun t r => D.All t M (Site.ofExpr r) := by
  refine (Run.required hs _ _ h.attrs).bind fun t r ht hl hr => ?_
  have hchildren := ((h.mono hl).rest hr.2.1 hr.2.2).children
  refine (Run.arms ht hchildren).map fun u arms _ hl' harms => ?_
  refine All.invoked _ (.inr fun x hx => ?_) ?_
  · -- The `switch` declares what its cases do, and they declare nothing.
    change x ∈ (caseVarPatterns arms.1 ++ []).flatMap Pattern.names ++ [] at hx
    rw [harms.vars] at hx
    exact absurd hx List.not_mem_nil
  · have hcases : D.All u M (Site.under (Site.casesLayer arms.1) (Site.ofCases arms.1)) := by
      refine All.under rfl (.inr fun x hx => ?_) harms.places
      rw [harms.lexical] at hx
      exact absurd hx List.not_mem_nil
    exact ((hr.1.mono hl').append hcases).append ((all_getD harms.fallback _).append .nil)

/-! ## Keys -/

/-- Without parameters there are no exceptions. -/
theorem AllBut.all {ps : List Site} (h : D.AllBut s N [] ps) : D.All s N ps := by
  intro p hp
  rcases h p hp with hp | ⟨x, hx, -⟩
  · exact hp
  · exact absurd hx List.not_mem_nil

/-- An element with one more attribute. -/
theorem AllBut.withAttr {a : Attr} (h : D.All s N (Site.ofElement e))
    (ha : D.AllBut s N params (Site.ofAttr a)) :
    D.AllBut s N params (Site.ofElement (e.withAttrs (e.attrs ++ [a]))) := by
  cases e with
  | mk span openSpan name attrs children closed =>
    intro p hp
    rcases List.mem_cons.mp hp with rfl | hp
    · have hself := D.ok_element.mp
        (h ⟨[], .element (.mk span openSpan name attrs children closed)⟩ List.mem_cons_self)
      exact .inl (D.ok_element.mpr hself)
    · have hinside : D.All s N (Site.ofElementName name
          ++ (Site.ofAttrs attrs ++ Site.ofChildren children)) :=
        fun p hp => h p (List.mem_cons_of_mem _ hp)
      have hattrs : D.AllBut s N params (Site.ofAttrs (attrs ++ [a])) := by
        have hmore := hinside.right.left.but.append ha
        rw [Site.ofAttrs_eq] at hmore ⊢
        rwa [List.flatMap_append, List.flatMap_singleton]
      exact (hinside.left.but.append (hattrs.append hinside.right.right.but)) p hp

/-- An attribute that is put on each element among children. -/
theorem AllBut.addAttr {a : Attr} {cs : List Child} (h : D.All s N (Site.ofChildren cs))
    (ha : D.AllBut s N params (Site.ofAttr a)) :
    D.AllBut s N params (Site.ofChildren (ControlFlow.addAttr a cs)) := by
  induction cs with
  | nil => exact All.nil.but
  | cons child cs ih =>
    refine AllBut.append ?_ (ih h.right)
    cases child with
    | element e => exact .withAttr h.left ha
    | text _ | fragment _ _ | container _ | spread _ => exact h.left.but

/-- Children with keys for their positions. -/
theorem all_keyed {cs : List Child} (h : D.All s N (Site.ofChildren cs)) (position : Nat) :
    D.All s N (Site.ofChildren (ControlFlow.keyed position cs)) := by
  induction cs generalizing position with
  | nil => exact .nil
  | cons child cs ih =>
    cases child with
    | element e =>
      have hkey : D.AllBut s N []
          (Site.ofAttr (Build.stringAttr e.span "key" (toString position))) :=
        All.nil.but
      have hadded := (AllBut.withAttr h.left hkey).all
      unfold ControlFlow.keyed
      dsimp only
      split
      · exact h.left.append (ih h.right (position + 1))
      · exact hadded.append (ih h.right (position + 1))
    | text _ | fragment _ _ | container _ | spread _ => exact h.left.append (ih h.right position)

/-- A group is an array of its children, with keys. -/
theorem all_lowerGroup (h : D.Parts s M e) : D.All s M (Site.ofExpr (ControlFlow.lowerGroup e)) :=
  fun p hp => all_keyed h.children 0 p (Site.ofExprs_childExprs_subset _ hp)

end Discipline

/-! ## Binders -/

/-- Whether a `repeat` binds only the given names by its `for` attribute. -/
def Element.BindsFor (N : List String) (e : Element) : Prop :=
  ∀ span value, Attrs.get? e.attrs "for" = some (span, value) → ∀ binders collection,
    splitFor? (value.toExpr span) = some (binders, collection) → binders.filterMap binderName? ⊆ N

namespace Discipline

variable {c : LoweringSetting} (D : Discipline c.options)

/-- **A lowered element**, still to be put under the names in `M`, what is inside it also under the
names that it binds. Only tags of the dialect move their attributes inside. -/
structure Lowered (s : Lowering) (M N : List String) (e : Element) : Prop where
  subset : M ⊆ N
  name : D.All s M (Site.ofElementName e.name)
  attrs : D.FitsAll s M N e.attrs
  dialect : isDialectTag e.name.text = true → D.All s N (Site.ofAttrs e.attrs)
  children : D.All s N (Site.ofChildren e.children)
  repeats : D.Loose ∨ (e.control? = some .repeat → e.BindsFor N)

variable {D} {s t : Lowering} {M N : List String} {e : Element}

/-- A lowered element has right parts. -/
theorem Lowered.parts (h : D.Lowered s M N e) : D.Parts s M e :=
  ⟨h.attrs.places, h.children.subset h.subset⟩

/-- It goes on having them as the compilation goes on. -/
theorem Lowered.mono (hl : D.Leads s t) (h : D.Lowered s M N e) : D.Lowered t M N e where
  subset := h.subset
  name := h.name.mono hl
  attrs := h.attrs.mono hl
  dialect htag := (h.dialect htag).mono hl
  children := h.children.mono hl
  repeats := h.repeats

/-- The attributes of control flow go inside. -/
theorem Lowered.attrs_dialect (h : D.Lowered s M N e) {tag : ControlTag}
    (htag : e.control? = some tag) : D.All s N (Site.ofAttrs e.attrs) := by
  refine h.dialect ?_
  have hsome : (ControlTag.ofText? e.name.text).isSome = true := Option.isSome_of_eq_some htag
  rw [isDialectTag, hsome, Bool.true_or]

/-- The names that a value binds are read off it; the state may get reports. -/
theorem Run.binderParams (hs : D.At s) (span : Span) (value : AttrValue) :
    D.Run s (ControlFlow.binderParams span value) fun _ names =>
      names = (value.expr?.map binderNames).getD [] := by
  unfold ControlFlow.binderParams
  split
  · rename_i hvalue
    exact (Run.report hs _ _).map fun _ _ _ _ _ => by rw [hvalue]; rfl
  · rename_i e hvalue
    exact (Run.reportAll hs _ _).map fun _ _ _ _ _ => by rw [hvalue]; rfl

/-- The names that an `as` attribute binds are names that the element was to bind. -/
theorem FitsAll.binds {as : List Attr} {span : Span} {value : AttrValue} (h : D.FitsAll s M N as)
    (hget : Attrs.get? as "as" = some (span, value)) :
    D.Loose ∨ ∀ x ∈ (value.expr?.map binderNames).getD [], x ∈ N := by
  obtain ⟨n, hn, hname⟩ := Attrs.mem_of_get? hget
  refine (h _ hn).binds.imp id fun hb x hx => ?_
  cases he : value.expr? with
  | none => simp [he] at hx
  | some e =>
    rw [he] at hx
    exact hb.2 hname e he hx

/-- The names that an attribute binds are referred to in it. -/
theorem reference_mem_of_binders {as : List Attr} {name : String} {span : Span} {value : AttrValue}
    (h : D.All s N (Site.ofAttrs as)) (hget : Attrs.get? as name = some (span, value)) {x : String}
    (hx : x ∈ (value.expr?.map binderNames).getD []) : D.All s N [Site.reference x] := by
  intro p hp
  obtain rfl := List.mem_singleton.mp hp
  cases he : value.expr? with
  | none => simp [he] at hx
  | some e =>
    rw [he] at hx
    refine h.value hget _ ?_
    have hvalue : value.toExpr span = e := by
      cases value <;> simp only [AttrValue.expr?, reduceCtorEq] at he
      subst he
      rfl
    rw [hvalue]
    exact Site.reference_mem_of_binderNames hx

/-- Names for the parameters of a generated function: each was to be bound here or is made for a
parameter, and can be referred to in the function. -/
structure ParamsOk (D : Discipline c.options) (s : Lowering) (N params : List String) : Prop where
  within : D.Loose ∨ ∀ x ∈ params, x ∈ N ∨ D.Param s.header x
  known : ∀ x ∈ params, D.All s N [Site.reference x] ∨ D.Param s.header x

/-- Parameters go on being right. -/
theorem ParamsOk.mono {params : List String} (hl : D.Leads s t) (h : D.ParamsOk s N params) :
    D.ParamsOk t N params where
  within := h.within.imp id fun h x hx => (h x hx).imp id (D.param_mono hl.header)
  known x hx := (h.known x hx).imp (All.mono hl) (D.param_mono hl.header)

/-- More parameters. -/
theorem ParamsOk.append {params others : List String} (h : D.ParamsOk s N params)
    (h' : D.ParamsOk s N others) : D.ParamsOk s N (params ++ others) where
  within := by
    rcases h.within, h'.within with ⟨hloose | hw, hloose | hw'⟩
    · exact .inl hloose
    · exact .inl hloose
    · exact .inl hloose
    · exact .inr fun x hx => (List.mem_append.mp hx).elim (hw x) (hw' x)
  known x hx := (List.mem_append.mp hx).elim (h.known x) (h'.known x)

/-- A new name as a parameter. -/
theorem ParamsOk.single {x : String} (hx : D.Param s.header x) : D.ParamsOk s N [x] where
  within := params_one hx
  known _ hy := .inr (List.mem_singleton.mp hy ▸ hx)

/-- No parameters. -/
theorem ParamsOk.nil : D.ParamsOk s N [] :=
  ⟨.inr fun _ hx => absurd hx List.not_mem_nil, fun _ hx => absurd hx List.not_mem_nil⟩

/-- A reference to a parameter is right in the body. -/
theorem ParamsOk.ref {params : List String} {x : String} (h : D.ParamsOk s N params)
    (hx : x ∈ params) : D.AllBut s N params [Site.reference x] := by
  rcases h.known x hx with hok | hparam
  · exact hok.but
  · exact .param hx hparam

/-! ## Repetitions -/

/-- The names in a list of binders; what is no name is reported. -/
theorem Run.repeatParams (hs : D.At s) (es : List Expr) :
    D.Run s (ControlFlow.repeatParams es) fun _ names => names = es.filterMap binderName? := by
  induction es generalizing s with
  | nil => exact .pure hs rfl
  | cons e es ih =>
    unfold ControlFlow.repeatParams
    split
    · rename_i name hname
      refine (ih hs).map fun _ _ _ _ hrest => ?_
      rw [List.filterMap_cons_some hname, hrest]
    · rename_i hname
      refine (Run.report hs _ _).bind fun t _ ht _ _ => (ih ht).imp fun _ _ _ _ hrest => ?_
      rw [List.filterMap_cons_none hname, hrest]

/-- The parameters and the collection of a `repeat`. -/
theorem Run.repeatHead (hs : D.At s) (h : D.Lowered s M N e) (htag : e.control? = some .repeat) :
    D.Run s (ControlFlow.repeatHead e) fun t r =>
      D.ParamsOk t N r.1 ∧ D.All t N (Site.ofExpr r.2) := by
  have hdialect : D.All s N (Site.ofAttrs e.attrs) := h.attrs_dialect htag
  unfold ControlFlow.repeatHead
  split
  · rename_i span value hget
    split
    · rename_i binders collection hsplit
      obtain ⟨hbinders, hcollection⟩ := Site.ofExpr_splitFor_subset hsplit
      have hvalue := hdialect.value hget
      refine (Run.repeatParams hs binders).map fun t params _ hl hparams => ⟨⟨?_, ?_⟩, ?_⟩
      · refine h.repeats.imp id fun hrepeats x hx => .inl ?_
        exact hrepeats htag span value hget binders collection hsplit (hparams ▸ hx)
      · intro x hx
        rw [hparams] at hx
        obtain ⟨entry, hentry, hx⟩ := List.mem_filterMap.mp hx
        refine .inl (All.mono hl fun p hp => hvalue p (hbinders ?_))
        rw [List.mem_singleton.mp hp, Site.ofExprs_eq]
        exact List.mem_flatMap.mpr ⟨entry, hentry, Site.reference_mem_of_binderName? hx⟩
      · exact All.mono hl fun p hp => hvalue p (hcollection hp)
    · exact (Run.report hs _ _).map fun t _ ht _ _ => ⟨.nil, .undefined ht _⟩
  · -- Without `for`, the parameters are those of `as`.
    refine Run.bind (Q := fun t params => D.ParamsOk t N params) ?_ fun t params ht hl hparams => ?_
    · split
      · rename_i span value hget
        refine (Run.binderParams hs span value).imp fun t params _ hl hparams => ?_
        subst hparams
        refine ⟨(h.attrs.binds hget).imp id fun hb x hx => .inl (hb x hx), fun x hx => ?_⟩
        exact .inl (All.mono hl (reference_mem_of_binders hdialect hget hx))
      · exact (Run.report hs _ _).map fun _ _ _ _ _ => .nil
    · exact (Run.required ht _ _ (hdialect.mono hl)).map fun u r _ hl' hr =>
        ⟨hparams.mono hl', hr.1⟩

/-- A `repeat` has a parameter for the index in the end. -/
theorem Run.withIndex (hs : D.At s) {params : List String} (h : D.ParamsOk s N params) :
    D.Run s (ControlFlow.withIndex params) fun t r => D.ParamsOk t N r.1 ∧ r.2 ∈ r.1 := by
  unfold ControlFlow.withIndex
  split
  · exact .pure hs ⟨h, by simp⟩
  · rename_i item
    exact (Run.askParam hs "index").map fun t index _ hl hindex =>
      ⟨(h.mono hl).append (.single hindex), by simp⟩
  · refine (Run.askParam hs "item").bind fun t item ht hl hitem => ?_
    exact (Run.askParam ht "index").map fun u index _ hl' hindex =>
      ⟨(ParamsOk.single (D.param_mono hl'.header hitem)).append (.single hindex), by simp⟩

/-- A function that is mapped over a collection. -/
theorem all_mapped {span : Span} {collection mapper : Expr}
    (hcollection : D.All s N (Site.ofExpr collection)) (hmapper : D.All s N (Site.ofExpr mapper)) :
    D.All s N (Site.ofExpr (ControlFlow.mapped span collection mapper)) := by
  refine hcollection.append (All.append (All.call ?_ ?_) .nil)
  · exact hcollection.append hcollection
  · exact hcollection.append (hmapper.append .nil)

/-- **A `repeat`** becomes a function on the items, which sees their names. -/
theorem Run.lowerRepeat (hs : D.At s) (h : D.Lowered s M N e)
    (htag : e.control? = some .repeat) :
    D.Run s (ControlFlow.lowerRepeat e) fun t r => D.All t M (Site.ofExpr r) := by
  refine (Run.repeatHead hs h htag).bind fun t head ht hl hhead => ?_
  dsimp only
  split
  · refine (Run.withIndex ht hhead.1).bind fun u r hu hl' hr => ?_
    refine (Run.report hu _ _).map fun v _ _ hl'' _ => ?_
    have hparams := hr.1.mono hl''
    -- The key refers to the index, which only the mapped function binds.
    have hkey : D.AllBut v N r.1
        (Site.ofAttr (Build.attr e.span "key" (.ident e.span r.2))) :=
      hparams.ref hr.2
    have hchildren := AllBut.addAttr (h.children.mono ((hl.trans hl').trans hl'')) hkey
    refine All.subset h.subset (all_mapped (hhead.2.mono (hl'.trans hl'')) ?_)
    exact All.arrow _ hparams.within fun p hp =>
      hchildren p (Site.ofExpr_childrenExpr_subset _ _ hp)
  · refine .pure ht (All.subset h.subset (all_mapped hhead.2 ?_))
    refine All.arrow _ hhead.1.within (All.but fun p hp => ?_)
    exact (h.children.mono hl) p (Site.ofExpr_childrenExpr_subset _ _ hp)

/-! ## Names for values -/

/-- **A `using`** becomes a function that is called at once, and names its value first. -/
theorem Run.lowerUsing (hs : D.At s) (h : D.Lowered s M N e) (htag : e.control? = some .using) :
    D.Run s (ControlFlow.lowerUsing e) fun t r => D.All t M (Site.ofExpr r) := by
  have hdialect : D.All s N (Site.ofAttrs e.attrs) := h.attrs_dialect htag
  refine (Run.required hs _ _ hdialect).bind fun t r ht hl hr => ?_
  have hattrs : D.FitsAll t M N r.2.attrs := fun a ha => (h.attrs.mono hl) a (hr.2.1 ha)
  have hparts : D.Parts t N r.2 :=
    Parts.rest (e := e) ⟨hdialect.mono hl, h.children.mono hl⟩ hr.2.1 hr.2.2
  refine Run.bind (Q := fun u names => (D.Loose ∨ ∀ x ∈ names, x ∈ N)
    ∧ ∀ x ∈ names, D.All u N [Site.reference x]) ?_ fun u names hu hl' hnames => ?_
  · split
    · rename_i span value hget
      refine (Run.binderParams ht span value).imp fun u names _ hl' hnames => ?_
      subst hnames
      exact ⟨hattrs.binds hget, fun x hx =>
        All.mono hl' (reference_mem_of_binders hparts.attrs hget hx)⟩
    · exact .pure ht ⟨.inr fun _ hx => absurd hx List.not_mem_nil,
        fun _ hx => absurd hx List.not_mem_nil⟩
  split
  · exact (Run.report hu _ _).map fun v _ hv _ _ => .undefined hv _
  · rename_i name others
    have hmem : name ∈ name :: others := List.mem_cons_self
    refine .pure hu (All.subset h.subset (All.invoked _ ?_ ?_))
    · refine hnames.1.imp id fun hwithin x hx => ?_
      -- The function declares nothing but the name.
      obtain rfl : x = name := List.mem_singleton.mp hx
      exact hwithin x hmem
    · have hguarded : D.All u N ([Site.reference name]
          ++ (Site.ofExpr r.2.childrenExpr ++ Site.ofExpr (.null r.2.span))) :=
        (hnames.2 name hmem).append ((hparts.mono hl').childrenExpr.append .nil)
      have hvalue : D.All u N ([Site.binding name] ++ (Site.ofExpr r.1 ++ [])) :=
        (All.binding name).append ((hr.1.mono hl').append .nil)
      exact hvalue.append (hguarded.append .nil)

/-- **Control flow keeps to the discipline.** -/
theorem Run.lowerAlone (hs : D.At s) (h : D.Lowered s M N e) {tag : ControlTag}
    (htag : e.control? = some tag) :
    D.Run s (ControlFlow.lowerAlone tag e) fun t r => D.All t M (Site.ofExpr r) := by
  cases tag with
  | «if» | «unless» => exact .lowerIf hs h.parts fun _ he => absurd he List.not_mem_nil
  | elseIf | «else» => exact .pure hs .nil
  | switch => exact .lowerSwitch hs h.parts
  | «repeat» => exact .lowerRepeat hs h htag
  | «using» => exact .lowerUsing hs h htag
  | group => exact .pure hs (all_lowerGroup h.parts)

end Discipline

end JsxDialect
