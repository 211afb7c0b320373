import JsxDialect.Proofs.Attributes
import JsxDialect.Proofs.Origin

/-!
# Functions in attributes

Every function that a rule for attributes makes has one parameter, which the header makes for it. So
of every attribute two things are kept: its functions are known, and if it is an `as` attribute, it
binds each name once or what an element of the module binds. The second is what `as` needs when it
makes a function of the children later.
-/

namespace JsxDialect

open Listing (whole)

variable {m : Module} {c : LoweringSetting}

/-! ## Attributes -/

/-- Whether an attribute, if it is an `as` attribute, binds names that may be parameters. -/
def Attr.BindsKnown (m : Module) : Attr → Prop
  | .named _ name value => name.text = "as" → ∀ e, value.expr? = some e → Binds m (binderNames e)
  | .spread .. => True

/-- **An attribute whose functions are known.** -/
structure KnownAttr (m : Module) (a : Attr) : Prop where
  functions : Known m (whole.ofAttr a)
  binds : a.BindsKnown m

/-- Attributes whose functions are known. -/
def KnownAttrs (m : Module) (as : List Attr) : Prop :=
  ∀ a ∈ as, KnownAttr m a

/-- A new attribute other than `as`. -/
theorem KnownAttr.attr {span : Span} {name : String} {e : Expr} (he : Known m (whole.ofExpr e))
    (has : name ≠ "as") : KnownAttr m (Build.attr span name e) :=
  ⟨he, fun h => absurd h has⟩

namespace KnownAttrs

variable {as bs : List Attr}

/-- Known attributes before others. -/
theorem append (ha : KnownAttrs m as) (hb : KnownAttrs m bs) : KnownAttrs m (as ++ bs) :=
  List.forall_mem_append.mpr ⟨ha, hb⟩

theorem singleton {a : Attr} (h : KnownAttr m a) : KnownAttrs m [a] :=
  List.forall_mem_singleton.mpr h

/-- The functions of known attributes are known. -/
theorem functions (h : KnownAttrs m as) : Known m (whole.ofAttrs as) := by
  rw [Listing.ofAttrs_eq]
  exact .flatMap fun a ha => (h a ha).functions

/-- Fewer attributes are known. -/
theorem erase (h : KnownAttrs m as) (name : String) : KnownAttrs m (Attrs.erase as name) :=
  fun a ha => h a (Attrs.mem_of_mem_erase ha)

/-- The functions of the value of an attribute. -/
theorem value {name : String} {span : Span} {v : AttrValue} (h : KnownAttrs m as)
    (hget : Attrs.get? as name = some (span, v)) : Known m (whole.ofAttrValue v) := by
  obtain ⟨n, hn, -⟩ := Attrs.mem_of_get? hget
  exact (h _ hn).functions

/-- A value can be set, but not that of `as`. -/
theorem set {name : String} {e : Expr} (h : KnownAttrs m as) (span : Span)
    (he : Known m (whole.ofExpr e)) (has : name ≠ "as") :
    KnownAttrs m (Attrs.set as name (.container span (some e))) := by
  intro a ha
  rcases Attrs.mem_of_mem_set ha with ha | ⟨span, n, old, rfl, rfl, -⟩
  · exact h a ha
  · exact ⟨he, fun h => absurd h has⟩

/-- The names of an `as` attribute may be parameters. -/
theorem binds {span : Span} {v : AttrValue} (h : KnownAttrs m as)
    (hget : Attrs.get? as "as" = some (span, v)) :
    Binds m ((v.expr?.map binderNames).getD []) := by
  obtain ⟨n, hn, hname⟩ := Attrs.mem_of_get? hget
  cases he : v.expr? with
  | none => exact .inl List.nodup_nil
  | some e => exact (h _ hn).binds hname e he

end KnownAttrs

/-! ### Styles -/

/-- A source of styles whose functions are known. -/
def KnownItem (m : Module) : Style.Item → Prop
  | .properties entries => ∀ p ∈ entries, Known m (whole.ofExpr p.2)
  | .dynamic e => Known m (whole.ofExpr e)

/-- Declared styles have no functions. -/
theorem KnownItem.declared (span : Span) (source : String) :
    KnownItem m (Style.declared span source) := by
  intro p hp
  obtain ⟨q, -, rfl⟩ := List.mem_map.mp hp
  exact .nil

/-- The entries of an object have the functions of its members. -/
theorem known_plainProperties {properties : List Property} {entries : List (String × Expr)}
    (h : Known m (whole.ofProperties properties))
    (hentries : List.Forall₂ Style.Enters properties entries) :
    ∀ p ∈ entries, Known m (whole.ofExpr p.2) := by
  induction hentries with
  | nil => exact fun p hp => absurd hp List.not_mem_nil
  | cons hentry _ ih =>
    cases hentry with
    | field _ => exact List.forall_mem_cons.mpr ⟨h.left.right, ih h.right⟩

/-- An expression as a source of styles. -/
theorem KnownItem.ofExpr {e : Expr} (h : Known m (whole.ofExpr e)) :
    KnownItem m (Style.itemOfExpr e) := by
  rcases Style.itemOfExpr_cases e with
    ⟨span, source, heq⟩ | ⟨span, properties, entries, rfl, hentries, heq⟩ | heq
  · rw [heq]
    exact .declared span source
  · rw [heq]
    exact known_plainProperties h hentries
  · rw [heq]
    exact h

theorem KnownItem.ofValue {v : AttrValue} (h : Known m (whole.ofAttrValue v)) (span : Span) :
    KnownItem m (Style.itemOfValue span v) := by
  unfold Style.itemOfValue
  split
  · exact .ofExpr (Known.inner h)
  · exact fun p hp => absurd hp List.not_mem_nil
  · exact .ofExpr (h.toExpr span)

/-- A source of styles as an expression. -/
theorem KnownItem.toExpr {item : Style.Item} (h : KnownItem m item) (span : Span) :
    Known m (whole.ofExpr (item.toExpr span)) := by
  cases item with
  | dynamic e => exact h
  | properties entries => exact .object h

/-- What an attribute gives to the merged styles. -/
theorem KnownAttr.item {a : Attr} (h : KnownAttr m a) {item : Style.Item}
    (hitem : Style.Contributes a item) : KnownItem m item := by
  have hfunctions := h.functions
  cases hitem with
  | style _ => exact .ofValue hfunctions _
  | shorthand _ => exact List.forall_mem_singleton.mpr (Known.toExpr hfunctions _)
  | spread => exact Known.append hfunctions .nil

/-- Merged sources have no other functions. -/
theorem KnownItem.mergeItems {items : List Style.Item} (h : ∀ i ∈ items, KnownItem m i) :
    ∀ i ∈ Style.mergeItems items, KnownItem m i :=
  Style.forall_mem_mergeItems (fun _ _ => Table.forall_mem_putAll) h

namespace Yields

theorem mergedValue (span : Span) (items : List Style.Item) :
    Yields m c (∀ i ∈ items, KnownItem m i) (Style.mergedValue span items)
      fun e => Known m (whole.ofExpr e) := by
  unfold Style.mergedValue
  split
  · rename_i entries hone
    refine .pure fun hitems => (KnownItem.mergeItems hitems (.properties entries) ?_).toExpr span
    rw [hone]
    exact List.mem_cons_self
  · refine (helper .styles).map fun name hitems _ => Known.call .nil (.exprs fun e he => ?_)
    obtain ⟨item, hitem, rfl⟩ := List.mem_map.mp he
    exact (KnownItem.mergeItems hitems item hitem).toExpr span

/-- **The rule for styles** makes no functions. -/
theorem styleAttrs (span : Span) (as : List Attr) :
    Yields m c (KnownAttrs m as) (Style.lowerAttrs span as) (KnownAttrs m) := by
  unfold Style.lowerAttrs
  split
  · have hvalue := (mergedValue (m := m) (c := c) ((Style.gatherAll as).place.getD span)
      (Style.gatherAll as).items).weaken (S := KnownAttrs m as) fun h item hitem => by
        obtain ⟨a, ha, hcontributes⟩ := Style.exists_contributes hitem
        exact (h a ha).item hcontributes
    refine hvalue.map fun e h he => ?_
    obtain ⟨hbefore, hafter⟩ :=
      List.forall_mem_append.mp fun a ha => h a (Style.mem_of_mem_gatherAll ha)
    exact KnownAttrs.append hbefore (List.forall_mem_cons.mpr ⟨.attr he (by decide), hafter⟩)
  · exact .pure id

end Yields

/-! ### Class names -/

/-- What has been gathered for class names. -/
structure KnownClasses (m : Module) (g : ClassName.Gathered) : Prop where
  kept : KnownAttrs m g.kept
  arguments : ∀ e ∈ g.arguments, Known m (whole.ofExpr e)

/-- One attribute more is kept, or becomes an argument of the helper. -/
theorem KnownClasses.gather {g : ClassName.Gathered} (hg : KnownClasses m g) {a : Attr}
    (ha : KnownAttr m a) : KnownClasses m (ClassName.gather g a) := by
  have hfunctions := ha.functions
  have hadd : ∀ {e : Expr}, Known m (whole.ofExpr e) →
      ∀ e' ∈ g.arguments ++ [e], Known m (whole.ofExpr e') := fun he =>
    List.forall_mem_append.mpr ⟨hg.arguments, List.forall_mem_singleton.mpr he⟩
  cases a with
  | spread span e =>
    exact ⟨hg.kept.append (.singleton ha), hadd (Known.append hfunctions .nil)⟩
  | named span name value =>
    unfold ClassName.gather
    simp only
    split
    · exact ⟨hg.kept, hadd (Known.toExpr hfunctions span)⟩
    · split
      · refine ⟨hg.kept, hadd ?_⟩
        unfold ClassName.conditional
        split
        · exact .nil
        · exact (Known.toExpr hfunctions span).append .nil
      · exact ⟨hg.kept.append (.singleton ha), hg.arguments⟩

theorem KnownClasses.foldl {g : ClassName.Gathered} (hg : KnownClasses m g) {as : List Attr}
    (h : KnownAttrs m as) : KnownClasses m (as.foldl ClassName.gather g) := by
  induction as generalizing g with
  | nil => exact hg
  | cons a as ih =>
    exact ih (hg.gather (h a List.mem_cons_self)) fun b hb => h b (List.mem_cons_of_mem _ hb)

namespace Yields

/-- **The rule for class names** makes no functions. -/
theorem classAttrs (span : Span) (as : List Attr) :
    Yields m c (KnownAttrs m as) (ClassName.lowerAttrs span as) (KnownAttrs m) := by
  have hgathered : KnownAttrs m as →
      KnownClasses m (as.foldl ClassName.gather ⟨[], none, []⟩) :=
    KnownClasses.foldl ⟨fun _ ha => absurd ha List.not_mem_nil,
      fun _ he => absurd he List.not_mem_nil⟩
  unfold ClassName.lowerAttrs
  split
  · refine (helper .classes).map fun name h _ => (hgathered h).kept.append (.singleton ?_)
    exact .attr (Known.call .nil (.exprs (hgathered h).arguments)) (by decide)
  · exact .pure id

/-! ### References and bindings -/

/-- **The rule for references** makes a function with a new parameter. -/
theorem refAttrs (as : List Attr) :
    Yields m c (KnownAttrs m as) (Reference.lowerAttrs as) (KnownAttrs m) := by
  unfold Reference.lowerAttrs
  split
  · exact (report _ _).map fun _ h _ => h.erase "ref"
  · rename_i span inside e hget
    split
    · rename_i place hplace
      refine (askParam "el").map fun el h _ => h.set span ?_ (by decide)
      have he : Known m (whole.ofExpr e) := h.value hget
      have hcall : Known m (whole.ofExpr (Build.call span e [.ident span el])) := he.call .nil
      have hassign : Known m (whole.ofPattern place ++ []) := (he.target hplace).append .nil
      exact .arrow (.inl (List.nodup_singleton el))
        (Known.append (he.append .nil) (hcall.append hassign))
    · exact .pure id
  · exact .pure id

end Yields

/-- A target is at most one name. -/
theorem nodup_binderNames_of_target? {e : Expr} (h : e.target?.isSome = true) :
    (binderNames e).Nodup := by
  unfold Expr.target? at h
  unfold binderNames binderEntries
  generalize e.inner = x at h
  cases x with
  | ident _ name => exact List.nodup_singleton name
  | member _ _ _ _ | index _ _ _ _ | privateMember _ _ _ _ => exact List.nodup_nil
  | _ => cases h

namespace Yields

/-- The handler of a binding has a new parameter. -/
theorem addHandler {d : Bind.Directive} (hevent : d.event ≠ "as") (span : Span) (param : String)
    (assignment : Expr) (as : List Attr) :
    Yields m c (KnownAttrs m as ∧ Known m (whole.ofExpr assignment))
      (Bind.addHandler d span param assignment as) (KnownAttrs m) := by
  have hparam : Binds m [param] := .inl (List.nodup_singleton param)
  unfold Bind.addHandler
  split
  · rename_i handlerSpan value hget
    have hset : ∀ h : KnownAttrs m as ∧ Known m (whole.ofExpr assignment), KnownAttrs m
        (Attrs.set as d.event (.container handlerSpan (some (Build.arrow span [param]
          (.sequence span [Build.call span (value.toExpr handlerSpan) [.ident span param],
            assignment]))))) := by
      rintro ⟨has, hassign⟩
      have hcall : Known m (whole.ofExpr
          (Build.call span (value.toExpr handlerSpan) [.ident span param])) :=
        Known.call ((has.value hget).toExpr handlerSpan) .nil
      exact has.set handlerSpan (.arrow hparam (hcall.append (hassign.append .nil))) hevent
    dsimp only
    split
    · exact (report _ _).map fun _ h _ => hset h
    · exact .pure hset
  · exact .pure fun h => h.1.append (.singleton (.attr (.arrow hparam h.2) hevent))

theorem expand {d : Bind.Directive} (hevent : d.event ≠ "as") (as : List Attr) :
    Yields m c (KnownAttrs m as) (Bind.expand d as) (KnownAttrs m) := by
  unfold Bind.expand
  split
  · exact .pure id
  · rename_i span value hget
    dsimp only
    split
    · exact (report _ _).map fun _ h _ => h.erase d.text
    · rename_i target hrefusal hvalue
      -- What is not refused can be assigned to.
      have hsome : target.target?.isSome = true := by
        by_contra hnone
        simp [Bind.refusal?, hvalue, Option.not_isSome_iff_eq_none.mp hnone] at hrefusal
      refine (askParam d.template.hint).bind fun param => (addHandler hevent _ _ _ _).weaken ?_
      rintro ⟨h, -⟩
      have htarget : Known m (whole.ofExpr target) := by
        have hv := h.value hget
        cases value with
        | container _ e => cases hvalue; exact hv
        | absent | string _ | element _ | fragment _ _ => cases hvalue
      refine ⟨(h.erase d.text).append (.singleton ⟨htarget, fun _ e he => ?_⟩), ?_⟩
      · obtain rfl := Option.some.inj he
        exact .inl (nodup_binderNames_of_target? hsome)
      · obtain ⟨place, hplace⟩ := Option.isSome_iff_exists.mp hsome
        rw [hplace]
        refine Known.append (htarget.target hplace) ?_
        cases d.template with
        | checked => exact htarget
        | value => exact .nil
        | custom => exact .nil
    · exact .pure fun h => h.erase d.text

theorem expandAll {ds : List Bind.Directive} (hds : ∀ d ∈ ds, d.event ≠ "as") (as : List Attr) :
    Yields m c (KnownAttrs m as) (Bind.expandAll ds as) (KnownAttrs m) := by
  induction ds generalizing as with
  | nil => exact .pure id
  | cons d ds ih =>
    obtain ⟨hd, hds⟩ := List.forall_mem_cons.mp hds
    exact (expand hd as).bind fun as' => (ih hds as').weaken And.right

/-- **The rule for bindings** makes one handler for each. -/
theorem bindAttrs (tag : String) (as : List Attr) :
    Yields m c (KnownAttrs m as) (Bind.lowerAttrs tag as) (KnownAttrs m) := by
  have hform : ∀ d ∈ (Bind.formDirective? tag as).toList, d.event ≠ "as" := by
    intro d hd
    rcases Bind.eq_of_mem_formDirective? hd with rfl | rfl <;> decide
  have hcustom : ∀ as' : List Attr, ∀ d ∈ (as'.filterMap Bind.directiveName?).map
      Bind.customDirective, d.event ≠ "as" := by
    intro as' d hd
    obtain ⟨name, -, rfl⟩ := List.mem_map.mp hd
    exact Bind.event_customDirective_ne name
  exact (expandAll hform as).bind fun as' => (expandAll (hcustom as') as').weaken And.right

/-- **The rule for controlled inputs** makes a handler with a new parameter. -/
theorem controlledAttrs (tag : String) (as : List Attr) :
    Yields m c (KnownAttrs m as) (Controlled.lowerAttrs tag as) (KnownAttrs m) := by
  have hinside : Yields m c (KnownAttrs m as) Lower.inComponent fun _ => True := by
    refine .get fun s => ?_
    split <;> exact .pure fun _ => trivial
  refine hinside.bind fun isInside => Yields.weaken (P := KnownAttrs m as) ?_ And.left
  split
  · split
    · rename_i span value hget
      refine askThrottle.bind fun key => (askParam "e").map fun param h _ => ?_
      have hcall : Known m (whole.ofExpr
          (Build.call span (value.toExpr span) [.ident span param])) :=
        Known.call ((h.1.value hget).toExpr span) .nil
      exact h.1.set span (.arrow (.inl (List.nodup_singleton param))
        (Known.nil.append (hcall.append .nil))) (by decide)
    · exact .pure id
  · exact .pure id

/-! ### Values kept on the instance -/

/-- A value that is kept is queued with its functions, and a slot is read in its place. -/
theorem liftAttr (owner : Nat) (a : Attr) :
    Yields m c (KnownAttr m a) (Lift.lowerAttr owner a) (KnownAttr m) := by
  unfold Lift.lowerAttr
  split
  · rename_i span name inside e
    have hvalue : KnownAttr m (.named span name (.container inside (some e))) →
        Known m (whole.ofExpr e) := fun h => h.functions
    refine .options ?_
    split
    · rename_i kind _
      refine .get fun s => ?_
      split
      · refine (askSlot kind.hint).bind fun slot => ?_
        refine (queue owner fun h => ⟨_, rfl, ?_⟩).map fun _ h _ => ⟨?_, fun _ e' he' => ?_⟩
        · -- A handler is moved into the statement; an object stays where it is, as an argument.
          cases kind with
          | handler => exact Known.nil.append (hvalue h.1)
          | object => exact Known.nil
        · cases kind with
          | handler => exact Known.nil
          | object => exact Known.nil.append ((hvalue h.1).append .nil)
        · obtain rfl := Option.some.inj he'
          rw [Discipline.binderNames_replacement]
          exact .inl List.nodup_nil
      · exact .pure id
    · exact .pure id
  · exact .pure id

theorem liftEach (owner : Nat) (as : List Attr) :
    Yields m c (KnownAttrs m as) (Lift.lowerEach owner as) (KnownAttrs m) := by
  induction as with
  | nil => exact .pure id
  | cons a as ih =>
    have hfirst := (liftAttr (m := m) (c := c) owner a).weaken (S := KnownAttrs m (a :: as))
      fun h => h a List.mem_cons_self
    have hrest := ih.weaken (S := KnownAttrs m (a :: as))
      fun h b hb => h b (List.mem_cons_of_mem _ hb)
    exact hfirst.map₂ hrest fun _ _ ha has => List.forall_mem_cons.mpr ⟨ha, has⟩

/-- **The rule that keeps values** makes no functions. -/
theorem liftAttrs (as : List Attr) :
    Yields m c (KnownAttrs m as) (Lift.lowerAttrs as) (KnownAttrs m) := by
  refine .get fun s => ?_
  split
  · exact liftEach _ as
  · exact .pure id

/-! ### All rules -/

theorem whenOn {isOn : Options → Bool} {rule : List Attr → Lower (List Attr)}
    (hrule : ∀ as, Yields m c (KnownAttrs m as) (rule as) (KnownAttrs m)) {P : Prop}
    {as : List Attr} (h : P → KnownAttrs m as) :
    Yields m c P (ElementRule.whenOn isOn rule as) (KnownAttrs m) := by
  refine Yields.weaken (.options ?_) h
  split
  · exact hrule as
  · exact .pure id

/-- **The rules for attributes.** -/
theorem attrs (span : Span) (tag : String) (as : List Attr) :
    Yields m c (KnownAttrs m as) (ElementRule.lowerAttrs span tag as) (KnownAttrs m) := by
  refine (whenOn (styleAttrs span) id).bind fun as₁ => ?_
  refine (whenOn (classAttrs span) And.right).bind fun as₂ => ?_
  refine (whenOn refAttrs And.right).bind fun as₃ => ?_
  refine (whenOn (bindAttrs tag) And.right).bind fun as₄ => ?_
  refine (whenOn (controlledAttrs tag) And.right).bind fun as₅ => ?_
  exact whenOn liftAttrs And.right

end Yields

end JsxDialect
