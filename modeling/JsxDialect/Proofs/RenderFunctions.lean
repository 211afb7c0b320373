import JsxDialect.Proofs.Elements
import JsxDialect.Proofs.ModuleScope
import JsxDialect.Proofs.NamedChildren
import JsxDialect.Proofs.StyleAttribute

/-!
# Render functions of named children

A named child with an `as` attribute fills its slot with a function of its children. If elements
make render functions themselves, the child has done so when its parent comes to it, and its `as`
attribute is gone; if not, the parent makes the function. The slot gets the same function either
way, and what is wrong with the binder list is reported once (`lower_withAs_hoisted`).

Two facts carry this. Before its last step an element is lowered in the same way whether it makes a
render function or not (`ElementRule.beforeAs_withAs`): no rule reads that option. And the rules for
attributes neither add an `as` attribute nor take one away if there are no directives
(`OneAs.lowerAttrs`), so one that stands alone is the one that both make the function of.
-/

open JsxDialect.Bind (reporting)

namespace JsxDialect

/-! ## Attributes that no rule is about -/

namespace Attrs

variable {p : Attr → Bool} {name : String}

theorem countP_erase (h : ∀ a, p a = true → a.isNamed name = false) (as : List Attr) :
    (erase as name).countP p = as.countP p := by
  rcases none_or_first as name with hnone | ⟨before, span, n, value, after, rfl, hn, hbefore⟩
  · have herase : erase (as ++ []) name = as ++ erase [] name := erase_append_of_not hnone
    rw [List.append_nil, erase, List.append_nil] at herase
    rw [herase]
  · have hnot : ¬p (.named span n value) = true := fun hp => by
      have hname := h _ hp
      rw [isNamed_named, hn, beq_self_eq_true] at hname
      cases hname
    rw [(at_first span value after hn hbefore).2.1, List.countP_append, List.countP_append,
      List.countP_cons_of_neg hnot]

theorem countP_set (h : ∀ span n v w, p (.named span n v) = p (.named span n w)) (as : List Attr)
    (new : AttrValue) : (set as name new).countP p = as.countP p := by
  rcases none_or_first as name with hnone | ⟨before, span, n, value, after, rfl, hn, hbefore⟩
  · rw [set_of_not hnone]
  · rw [(at_first span value after hn hbefore).2.2 new, List.countP_append, List.countP_append,
      List.countP_cons, List.countP_cons, h span n new value]

/-- The only attribute of a name is found, and when it is taken out there is none. -/
theorem get?_of_countP_one {as : List Attr} (h : as.countP (·.isNamed name) = 1) :
    ∃ span value, get? as name = some (span, value) ∧ get? (erase as name) name = none := by
  rcases none_or_first as name with hnone | ⟨before, span, n, value, after, rfl, hn, hbefore⟩
  · have hzero : as.countP (·.isNamed name) = 0 := List.countP_eq_zero.mpr fun a ha =>
      Bool.eq_false_iff.mp (has_eq_false_iff.mp hnone a ha)
    omega
  · obtain ⟨hget, herase, -⟩ := at_first span value after hn hbefore
    have hnamed : (Attr.named span n value).isNamed name = true := by
      rw [isNamed_named, hn, beq_self_eq_true]
    rw [List.countP_append, List.countP_cons_of_pos hnamed] at h
    have hafter : has after name = false := has_eq_false_iff.mpr fun a ha =>
      Bool.eq_false_iff.mpr (List.countP_eq_zero.mp (by omega) a ha)
    refine ⟨span, value, hget, get?_eq_none ?_⟩
    rw [herase, has_append, hbefore, hafter]
    rfl

end Attrs

/-- What is gathered for one `className` leaves the attributes without class names. -/
theorem ClassName.kept_foldl (g : ClassName.Gathered) (as : List Attr) :
    (as.foldl ClassName.gather g).kept = g.kept ++ as.filter (!ClassName.isOwn ·) := by
  induction as generalizing g with
  | nil => exact (List.append_nil _).symm
  | cons a as ih =>
    have hstep : (ClassName.gather g a).kept = g.kept ++ [a].filter (!ClassName.isOwn ·) := by
      cases a with
      | spread span e => rfl
      | named span name value =>
        simp only [ClassName.gather, ClassName.isOwn, Attr.name?, List.filter_singleton]
        cases name.text == "class" || name.text == "className" with
        | true => simp
        | false => cases Style.suffix? "class-" name.text <;> simp
    rw [List.foldl_cons, ih, hstep, List.append_assoc, ← List.filter_append]
    rfl

/-- A kind of named attributes, told by their names, that only the rule for directives is about. -/
structure Attr.Untouched (p : Attr → Bool) : Prop where
  spread (span : Span) (e : Expr) : p (.spread span e) = false
  named (span : Span) (n : AttrName) (v w : AttrValue) : p (.named span n v) = p (.named span n w)
  style {a : Attr} : p a = true → Style.isOwn a = false
  className {a : Attr} : p a = true → ClassName.isOwn a = false
  reference {a : Attr} : p a = true → a.isNamed "ref" = false

theorem Attr.untouched_as : Attr.Untouched (·.isNamed "as") where
  spread _ _ := rfl
  named _ _ _ _ := rfl
  style {a} ha := by
    rw [Style.isOwn, beq_iff_eq.mp ha]
    decide
  className {a} ha := by
    rw [ClassName.isOwn, beq_iff_eq.mp ha]
    decide
  reference {a} ha := by
    rw [Attr.isNamed, beq_iff_eq.mp ha]
    decide

/-- Whether an attribute is a directive. -/
def Attr.isDirective (a : Attr) : Bool :=
  (Bind.directiveName? a).isSome

theorem Attr.exists_of_isDirective {a : Attr} (h : a.isDirective = true) :
    ∃ span name value, a = .named span (.namespaced "bind" name) value := by
  unfold Attr.isDirective Bind.directiveName? at h
  split at h
  · exact ⟨_, _, _, rfl⟩
  · cases h

/-- What is written with a colon is no text without one. -/
theorem namespaced_beq (space name : String) {other : String} (h : ':' ∉ other.toList) :
    (space ++ ":" ++ name == other) = false := by
  rw [beq_eq_false_iff_ne]
  rintro rfl
  exact h (by simp)

theorem Attr.untouched_directive : Attr.Untouched Attr.isDirective where
  spread _ _ := rfl
  named span n v w := by
    unfold Attr.isDirective Bind.directiveName?
    cases n with
    | plain => rfl
    | namespaced space name => by_cases h : space = "bind" <;> simp [h]
  style {a} ha := by
    obtain ⟨span, name, value, rfl⟩ := exists_of_isDirective ha
    have hsuffix : Style.suffix? "style-" ("bind" ++ ":" ++ name) = none := by
      simp [Style.suffix?]
    rw [Style.isOwn, Attr.name?, AttrName.text]
    simp only [hsuffix, namespaced_beq "bind" name (by decide : ':' ∉ "style".toList)]
    rfl
  className {a} ha := by
    obtain ⟨span, name, value, rfl⟩ := exists_of_isDirective ha
    have hsuffix : Style.suffix? "class-" ("bind" ++ ":" ++ name) = none := by
      simp [Style.suffix?]
    rw [ClassName.isOwn, Attr.name?, AttrName.text]
    simp only [hsuffix, namespaced_beq "bind" name (by decide : ':' ∉ "class".toList),
      namespaced_beq "bind" name (by decide : ':' ∉ "className".toList)]
    rfl
  reference {a} ha := by
    obtain ⟨span, name, value, rfl⟩ := exists_of_isDirective ha
    exact namespaced_beq "bind" name (by decide : ':' ∉ "ref".toList)

/-! ## Attributes through the rules -/

/-- A step that ends with attributes of a property, from every state. -/
def Ensures (c : LoweringSetting) (Q : List Attr → Prop) (act : Lower (List Attr)) : Prop :=
  ∀ s, Q (act c s).1

namespace Ensures

variable {c : LoweringSetting} {Q R : List Attr → Prop} {α : Type}

protected theorem pure {as : List Attr} (h : Q as) : Ensures c Q (Pure.pure as) :=
  fun _ => h

theorem after {act : Lower α} {next : α → Lower (List Attr)} (h : ∀ a, Ensures c Q (next a)) :
    Ensures c Q (act >>= next) :=
  fun s => h _ (act c s).2

protected theorem bind {act : Lower (List Attr)} {next : List Attr → Lower (List Attr)}
    (h : Ensures c Q act) (hnext : ∀ as, Q as → Ensures c R (next as)) :
    Ensures c R (act >>= next) :=
  fun s => hnext _ (h s) (act c s).2

end Ensures

/-- A rule that keeps the number of attributes of a kind. -/
def KeepsCount (c : LoweringSetting) (p : Attr → Bool) (rule : List Attr → Lower (List Attr)) :
    Prop :=
  ∀ as, Ensures c (fun bs => bs.countP p = as.countP p) (rule as)

namespace Attr.Untouched

variable {p : Attr → Bool} (hp : Untouched p) (c : LoweringSetting)
include hp

theorem style_keepsCount (span : Span) : KeepsCount c p (Style.lowerAttrs span) := by
  intro as s
  cases hfires : Style.fires as with
  | false =>
    rw [Style.lowerAttrs, if_neg (Bool.eq_false_iff.mp hfires)]
    rfl
  | true =>
    have hkept : ∀ a, (p a && Style.isKept a) = p a := fun a => by
      cases ha : p a <;> simp [Style.isKept, hp.style, ha]
    have hspread : ∀ a, (p a && Style.isSpread a) = false := fun a => by
      cases a <;> simp [Style.isSpread, hp.spread]
    have hother : ∀ a, (p a && Style.isOther a) = p a := fun a => by
      cases a with
      | spread => simp [hp.spread]
      | named => cases ha : p _ <;> simp [Style.isOther, Style.isSpread, hp.style, ha]
    have hstyle : ∀ span e, ¬p (Build.attr span "style" e) = true := fun span e ha => by
      have hown : Style.isOwn (Build.attr span "style" e) = true := rfl
      rw [hp.style ha] at hown
      cases hown
    obtain ⟨span', hrun⟩ := Style.lowerAttrs_eq hfires span c s
    rw [hrun, List.countP_append, List.countP_append, List.countP_cons_of_neg (hstyle _ _),
      List.countP_filter, List.countP_filter, List.countP_filter]
    simp only [hkept, hspread, hother]
    conv_rhs => rw [← Style.beforeStyle_append_fromStyle as]
    simp

theorem className_keepsCount (span : Span) : KeepsCount c p (ClassName.lowerAttrs span) := by
  intro as
  have hclass : ∀ span e, ¬p (Build.attr span "className" e) = true := fun span e ha => by
    have hown : ClassName.isOwn (Build.attr span "className" e) = true := rfl
    rw [hp.className ha] at hown
    cases hown
  have hkept : ∀ a, (p a && !ClassName.isOwn a) = p a := fun a => by
    cases ha : p a <;> simp [hp.className, ha]
  unfold ClassName.lowerAttrs
  split
  · refine .after fun name => .pure ?_
    rw [List.countP_append, List.countP_cons_of_neg (hclass _ _), ClassName.kept_foldl,
      List.nil_append, List.countP_filter]
    simp only [hkept, List.countP_nil, Nat.add_zero]
  · exact .pure rfl

theorem reference_keepsCount : KeepsCount c p Reference.lowerAttrs := by
  intro as
  unfold Reference.lowerAttrs
  split
  · exact .after fun _ => .pure (Attrs.countP_erase (fun _ => hp.reference) as)
  · split
    · exact .after fun _ => .pure (Attrs.countP_set hp.named as _)
    · exact .pure rfl
  · exact .pure rfl

theorem controlled_keepsCount (tag : String) : KeepsCount c p (Controlled.lowerAttrs tag) := by
  intro as
  refine .after fun _ => ?_
  split
  · split
    · exact .after fun _ => .after fun _ => .pure (Attrs.countP_set hp.named as _)
    · exact .pure rfl
  · exact .pure rfl

theorem lift_keepsCount : KeepsCount c p Lift.lowerAttrs := by
  have hattr : ∀ owner a s, p (Lift.lowerAttr owner a c s).1 = p a := by
    intro owner a s
    unfold Lift.lowerAttr
    split
    · rename_i span name inside e
      rw [Lower.options_bind]
      cases Lift.kind? c.options e with
      | none => rfl
      | some kind =>
        dsimp only
        rw [Lower.get_bind]
        -- An attribute whose value is kept stays under its name, and `p` judges by the name alone.
        cases Lift.isCaptureSafe s.scopes owner e with
        | false => rfl
        | true => exact hp.named _ _ _ _
    · rfl
  have heach : ∀ owner, KeepsCount c p (Lift.lowerEach owner) := by
    intro owner as
    induction as with
    | nil => exact .pure rfl
    | cons a as ih =>
      intro s
      have hrun : (Lift.lowerEach owner (a :: as) c s).1 = (Lift.lowerAttr owner a c s).1
          :: (Lift.lowerEach owner as c (Lift.lowerAttr owner a c s).2).1 := rfl
      rw [hrun, List.countP_cons, List.countP_cons, ih, hattr]
  intro as
  refine .after fun _ => ?_
  split
  · exact heach _ as
  · exact .pure rfl

end Attr.Untouched

/-- Whether there is one `as` attribute, and no directive. -/
def OneAs (as : List Attr) : Prop :=
  as.countP (·.isNamed "as") = 1 ∧ as.countP Attr.isDirective = 0

namespace OneAs

variable {c : LoweringSetting} {as : List Attr}

theorem whenOn (has : OneAs as) {rule : List Attr → Lower (List Attr)}
    (hrule : ∀ {p}, Attr.Untouched p → KeepsCount c p rule) (isOn : Options → Bool) :
    Ensures c OneAs (ElementRule.whenOn isOn rule as) := by
  refine .after fun o => ?_
  split
  · exact fun s => ⟨(hrule Attr.untouched_as as s).trans has.1,
      (hrule Attr.untouched_directive as s).trans has.2⟩
  · exact .pure has

/-- Without directives there is nothing to expand. -/
theorem bind (has : OneAs as) {tag : String} (htag : FormTag.ofText? tag = none)
    (isOn : Options → Bool) :
    Ensures c OneAs (ElementRule.whenOn isOn (Bind.lowerAttrs tag) as) := by
  have hform : Bind.formDirective? tag as = none := by
    unfold Bind.formDirective?
    rw [htag]
  have hnames : as.filterMap Bind.directiveName? = [] :=
    List.filterMap_eq_nil_iff.mpr fun a ha =>
      Option.not_isSome_iff_eq_none.mp (List.countP_eq_zero.mp has.2 a ha)
  have hrun : ∀ s, (Bind.lowerAttrs tag as c s).1 = as := fun s => by
    have hstep : Bind.lowerAttrs tag as c s
        = Bind.expandAll (((Bind.expandAll (Bind.formDirective? tag as).toList as c s).1.filterMap
            Bind.directiveName?).map Bind.customDirective)
          (Bind.expandAll (Bind.formDirective? tag as).toList as c s).1 c
          (Bind.expandAll (Bind.formDirective? tag as).toList as c s).2 := rfl
    have hfirst : Bind.expandAll [] as c s = (as, s) := rfl
    rw [hstep, hform, Option.toList_none, hfirst, hnames]
    rfl
  refine .after fun o => ?_
  split
  · intro s
    rw [hrun]
    exact has
  · exact .pure has

theorem lowerAttrs (has : OneAs as) (span : Span) {tag : String}
    (htag : FormTag.ofText? tag = none) :
    Ensures c OneAs (ElementRule.lowerAttrs span tag as) := by
  refine (has.whenOn (fun hp => hp.style_keepsCount c span) _).bind fun as has => ?_
  refine (has.whenOn (fun hp => hp.className_keepsCount c span) _).bind fun as has => ?_
  refine (has.whenOn (fun hp => hp.reference_keepsCount c) _).bind fun as has => ?_
  refine (has.bind htag _).bind fun as has => ?_
  refine (has.whenOn (fun hp => hp.controlled_keepsCount c tag) _).bind fun as has => ?_
  exact has.whenOn (fun hp => hp.lift_keepsCount c) _

end OneAs

/-! ## Elements up to their last step -/

/-- A tag with a colon is none of the dialect's, nor a form control. -/
theorem isDialectTag_namespaced (space name : String) :
    isDialectTag (space ++ ":" ++ name) = false
      ∧ FormTag.ofText? (space ++ ":" ++ name) = none := by
  have hcolon : ':' ∈ (space ++ ":" ++ name).toList := by simp
  generalize space ++ ":" ++ name = tag at hcolon
  have hcontrol : ControlTag.ofText? tag = none := by
    unfold ControlTag.ofText?
    split
    all_goals first | rfl | exact absurd hcolon (by decide)
  have harm : ArmTag.ofText? tag = none := by
    unfold ArmTag.ofText?
    split
    all_goals first | rfl | exact absurd hcolon (by decide)
  refine ⟨by rw [isDialectTag, hcontrol, harm]; rfl, ?_⟩
  unfold FormTag.ofText?
  split
  all_goals first | rfl | exact absurd hcolon (by decide)

/-- The setting in which elements make render functions of their children, or do not. -/
def LoweringSetting.withAs (c : LoweringSetting) (on : Bool) : LoweringSetting :=
  { c with options := { c.options with asAttribute := on } }

open ControlFlow (boundBy binderReports)
open NamedChild (given reports)

namespace ElementRule

/-- An ordinary element before an `as` attribute makes a render function of its children. -/
def beforeAs : Element → Lower Element
  | .mk span openSpan name attrs children closed => do
    let attrs ← lowerAttrs span name.text attrs
    let imported ← importName name
    let (attrs, children) ← hoistNamed name.text attrs children
    let children ← ControlFlow.lowerChildren children
    return .mk span openSpan imported attrs children closed

theorem lower_eq {e : Element} (h : isDialectTag e.name.text = false) (c : LoweringSetting)
    (s : Lowering) :
    lower e c s = (if c.options.asAttribute then lowerAs (beforeAs e c s).1
      else return (beforeAs e c s).1 : Lower Element) c (beforeAs e c s).2 := by
  obtain ⟨span, openSpan, name, attrs, children, closed⟩ := e
  have htag : isDialectTag name.text = false := h
  unfold lower
  simp only [htag, Bool.not_false, if_true, Bool.true_and]
  rfl

/-- **No rule reads whether children become render functions.** -/
theorem beforeAs_withAs (e : Element) (c : LoweringSetting) (on : Bool) (s : Lowering) :
    beforeAs e (c.withAs on) s = beforeAs e c s := by
  obtain ⟨span, openSpan, name, attrs, children, closed⟩ := e
  have h : Composable (Unaffected s.header.topLevel ⟨c.options.autoImport, on⟩ c) :=
    Unaffected.composable fun _ _ => rfl
  have hsteps := h.bind (h.lowerAttrs Unaffected.liftAttrs span name.text attrs) fun as =>
    h.bind (h.importName name) fun imported => h.bind (h.hoistNamed name.text as children) fun r =>
      h.map (k := fun cs => Element.mk span openSpan imported r.1 cs closed)
        (h.lowerChildren r.2)
  exact (hsteps s rfl).1

theorem lower_withAs {e : Element} (h : isDialectTag e.name.text = false) (c : LoweringSetting)
    (s : Lowering) :
    lower e (c.withAs false) s = beforeAs e c s
      ∧ lower e (c.withAs true) s
        = lowerAs (beforeAs e c s).1 (c.withAs true) (beforeAs e c s).2 := by
  rw [lower_eq h, lower_eq h, beforeAs_withAs, beforeAs_withAs]
  exact ⟨rfl, rfl⟩

theorem countP_hoistNamed (tag : String) (as : List Attr) (cs : List Child) (c : LoweringSetting)
    (s : Lowering) :
    (hoistNamed tag as cs c s).1.1.countP (·.isNamed "as") = as.countP (·.isNamed "as") := by
  have hput : ∀ (ps : List (String × Element)) (as : List Attr),
      (ps.foldl (NamedChild.put tag) as).filter (·.isNamed "as") = as.filter (·.isNamed "as") := by
    intro ps
    induction ps with
    | nil => exact fun _ => rfl
    | cons p ps ih =>
      intro as
      rw [List.foldl_cons, ih, NamedChild.filter_put_of_ne (Discipline.attrName_ne (by decide))]
  cases hon : c.options.namedChildren with
  | false =>
    unfold hoistNamed
    rw [Lower.options_bind, hon]
    rfl
  | true =>
    rw [hoistNamed_eq hon, NamedChild.hoist_eq, List.countP_eq_length_filter, hput,
      List.countP_eq_length_filter]

/-- The one `as` attribute of an element is there until the last step. -/
theorem countP_beforeAs {attrs : List Attr} (h : OneAs attrs) (span openSpan : Span)
    (parent slot : String) (children : List Child) (closed : Bool) (c : LoweringSetting)
    (s : Lowering) :
    let child := .mk span openSpan (.namespaced parent slot) attrs children closed
    (beforeAs child c s).1.attrs.countP (·.isNamed "as") = 1 := by
  have hattrs : OneAs (lowerAttrs span (parent ++ ":" ++ slot) attrs c s).1 :=
    h.lowerAttrs span (isDialectTag_namespaced parent slot).2 s
  exact (countP_hoistNamed ..).trans hattrs.1

theorem importName_of_lookup {name : ElementName} {c : LoweringSetting}
    (h : c.options.autoImport.lookup name.text = none) (s : Lowering) :
    importName name c s = (name, s) := by
  unfold importName
  rw [Lower.get_bind]
  split
  · rfl
  · rw [Lower.options_bind, h]
    rfl

/-- The last step of an element with an `as` attribute. -/
theorem lowerAs_eq {e : Element} {place : Span} {list : AttrValue}
    (h : Attrs.get? e.attrs "as" = some (place, list)) (c : LoweringSetting) (s : Lowering) :
    lowerAs e c s
      = (.mk e.span e.openSpan e.name (Attrs.erase e.attrs "as")
          [.container (some (Build.arrow e.span (boundBy list) e.childrenExpr))] true,
        reporting s (binderReports place list)) := by
  have hstep : lowerAs e c s
      = (.mk e.span e.openSpan e.name (Attrs.erase e.attrs "as")
          [.container (some (Build.arrow e.span (ControlFlow.binderParams place list c s).1
            e.childrenExpr))] true,
        (ControlFlow.binderParams place list c s).2) := by
    unfold lowerAs
    rw [h]
    rfl
  rw [hstep, ControlFlow.binderParams_eq]

/-- **The last step of an element with one `as` attribute** gives a slot what it got before, and
nothing is left to report. -/
theorem given_lowerAs {e : Element} (h : e.attrs.countP (·.isNamed "as") = 1)
    (c : LoweringSetting) (s : Lowering) :
    ∃ place list, Attrs.get? e.attrs "as" = some (place, list)
      ∧ (lowerAs e c s).2 = reporting s (binderReports place list)
      ∧ (lowerAs e c s).1.name = e.name ∧ (lowerAs e c s).1.span = e.span
      ∧ given (lowerAs e c s).1 = given e ∧ reports (lowerAs e c s).1 = [] := by
  obtain ⟨place, list, hget, hnone⟩ := Attrs.get?_of_countP_one h
  have hrun := lowerAs_eq hget c s
  have hgone : Attrs.get? (lowerAs e c s).1.attrs "as" = none := by
    rw [hrun]
    exact hnone
  obtain ⟨hgiven, hreports⟩ := NamedChild.given_of_none hgone
  refine ⟨place, list, hget, ?_, ?_, ?_, ?_, hreports⟩
  · rw [hrun]
  · rw [hrun]
    rfl
  · rw [hrun]
    rfl
  · rw [hgiven, (NamedChild.given_of_some hget).1, hrun]
    rfl

end ElementRule

namespace NamedChild

/-- **A pass over the children** at one that is for a slot. -/
theorem hoist_element {parent slot : String} {e : Element} (h : e.name = .namespaced parent slot)
    (as : List Attr) (before after : List Child) (c : LoweringSetting) (s : Lowering) :
    hoist parent as (before ++ .element e :: after) c s
      = (((named parent after).foldl (put parent) (add (attrName parent slot) e.span (given e)
            ((named parent before).foldl (put parent) as)),
          (before ++ after).filter fun x => (slot? parent x).isNone),
        reporting s ((named parent before).flatMap (fun p => reports p.2)
          ++ (reports e ++ (named parent after).flatMap fun p => reports p.2))) := by
  have hslot : slot? parent (.element e) = some (slot, e) := by
    simp [slot?, h]
  have hnamed : named parent (before ++ .element e :: after)
      = named parent before ++ (slot, e) :: named parent after := by
    rw [named, List.filterMap_append, List.filterMap_cons_some hslot]
    rfl
  rw [hoist_eq, hnamed, List.foldl_append, List.foldl_cons, List.flatMap_append, List.flatMap_cons,
    List.filter_append, List.filter_cons_of_neg (by simp [hslot]), ← List.filter_append]
  rfl

/-- Two elements that give their slot the same are hoisted to the same. What is reported about the
second one may have been reported before about the first. -/
theorem hoistNamed_alike {c c' : LoweringSetting} (hon : c.options.namedChildren = true)
    (hon' : c'.options.namedChildren = true) {parent slot : String} {e e' : Element}
    (hname : e.name = .namespaced parent slot) (hname' : e'.name = .namespaced parent slot)
    (hspan : e.span = e'.span) (hgiven : given e = given e') (hreports : reports e = [])
    {t t' : Lowering} (hperm : t.diagnostics.Perm (t'.diagnostics ++ reports e'))
    (as : List Attr) (before after : List Child) :
    let hoisted := ElementRule.hoistNamed parent as (before ++ .element e :: after) c t
    let hoisted' := ElementRule.hoistNamed parent as (before ++ .element e' :: after) c' t'
    hoisted.1 = hoisted'.1 ∧ hoisted.2.diagnostics.Perm hoisted'.2.diagnostics := by
  intro hoisted hoisted'
  have hrun : hoisted = _ := (ElementRule.hoistNamed_eq hon parent as _ t).trans
    (hoist_element hname as before after c t)
  have hrun' : hoisted' = _ := (ElementRule.hoistNamed_eq hon' parent as _ t').trans
    (hoist_element hname' as before after c' t')
  rw [hgiven, hspan, hreports, List.nil_append] at hrun
  rw [hrun, hrun']
  refine ⟨rfl, ?_⟩
  -- What is reported about the second element comes after the reports on those before it.
  refine (hperm.append_right _).trans ?_
  rw [List.append_assoc]
  exact (List.perm_append_comm_assoc _ _ _).append_left _

end NamedChild

/-- **Render functions of named children.** Let a named child have one `as` attribute and no
directives, and let what is inside it be lowered. Whether it makes a render function itself or not,
its slot gets the same function, of the names in its binder list. The reports about that list are
made once: by the child, or when it is put into its slot. So unless the name of the child is
imported, hoisting gives the same attributes and children, and there are the same reports. -/
theorem lower_withAs_hoisted {c : LoweringSetting} (hnamed : c.options.namedChildren = true)
    (s : Lowering) {attrs : List Attr} (hone : attrs.countP (·.isNamed "as") = 1)
    (hfree : ∀ a ∈ attrs, Bind.directiveName? a = none) (span openSpan : Span)
    (parent slot : String) (children : List Child) (closed : Bool) :
    let child : Element := .mk span openSpan (.namespaced parent slot) attrs children closed
    let on := ElementRule.lower child (c.withAs true) s
    let off := ElementRule.lower child (c.withAs false) s
    ∃ place list, Attrs.get? off.1.attrs "as" = some (place, list)
      ∧ on.2 = reporting off.2 (binderReports place list)
      ∧ (∀ d t, NamedChild.value on.1 d t
            = (Build.arrow span (boundBy list) off.1.childrenExpr, t)
          ∧ NamedChild.value off.1 d t
            = (Build.arrow span (boundBy list) off.1.childrenExpr,
              reporting t (binderReports place list)))
      ∧ on.1.name = off.1.name
      ∧ (c.options.autoImport.lookup (parent ++ ":" ++ slot) = none →
          off.1.name = .namespaced parent slot)
      ∧ (off.1.name = .namespaced parent slot → ∀ as before after t t',
          t.diagnostics.Perm (t'.diagnostics ++ binderReports place list) →
          let hoisted := ElementRule.hoistNamed parent as (before ++ .element on.1 :: after)
            (c.withAs true) t
          let hoisted' := ElementRule.hoistNamed parent as (before ++ .element off.1 :: after)
            (c.withAs false) t'
          hoisted.1 = hoisted'.1 ∧ hoisted.2.diagnostics.Perm hoisted'.2.diagnostics) := by
  intro child on off
  have htag : isDialectTag child.name.text = false := (isDialectTag_namespaced parent slot).1
  obtain ⟨hoff, hon⟩ : off = _ ∧ on = _ := ElementRule.lower_withAs htag c s
  have hdirectives : attrs.countP Attr.isDirective = 0 :=
    List.countP_eq_zero.mpr fun a ha => by
      rw [Attr.isDirective, hfree a ha]
      exact Bool.false_ne_true
  -- Up to the rule for `as` the two runs are one run, from which both go on.
  obtain ⟨place, list, hget, hstate, hname, hspan, hgiven, hreports⟩ := ElementRule.given_lowerAs
    (ElementRule.countP_beforeAs ⟨hone, hdirectives⟩ span openSpan parent slot children closed c s)
    (c.withAs true) (ElementRule.beforeAs child c s).2
  have hkept : c.options.autoImport.lookup (parent ++ ":" ++ slot) = none →
      (ElementRule.beforeAs child c s).1.name = .namespaced parent slot := fun h => by
    have himport : ∀ t, ElementRule.importName (.namespaced parent slot) c t
        = (.namespaced parent slot, t) := ElementRule.importName_of_lookup h
    exact congrArg Prod.fst (himport _)
  have hplace : (ElementRule.beforeAs child c s).1.span = span := rfl
  rw [← hon, ← hoff] at hstate hname hspan hgiven
  rw [← hon] at hreports
  rw [← hoff] at hget hkept hplace
  obtain ⟨hrender, hlist⟩ := NamedChild.given_of_some hget
  rw [hplace] at hrender
  refine ⟨place, list, hget, hstate, fun d t => ⟨?_, ?_⟩, hname, hkept, ?_⟩
  · rw [NamedChild.value_eq, hgiven, hrender, hreports, reporting, List.append_nil]
  · rw [NamedChild.value_eq, hrender, hlist]
  · intro hslot as before after t t' hperm
    have hnamed' : ∀ on, (c.withAs on).options.namedChildren = true := fun _ => hnamed
    rw [← hlist] at hperm
    exact NamedChild.hoistNamed_alike (hnamed' true) (hnamed' false) (hname.trans hslot) hslot hspan
      hgiven hreports hperm as before after

/-- `<List:row as={item, 1}>{item}</List:row>`, of whose binders the second one is refused. -/
theorem lower_withAs_hoisted_row :
    let attrs := [Build.attr .none "as"
      (.sequence .none [.ident .none "item", .number .none (.ofNat 1)])]
    let child := slotChild "List" "row" attrs [shownName "item"]
    let c : LoweringSetting := ⟨{}, []⟩
    let s : Lowering := ⟨Header.ofModule ⟨[], []⟩, .empty, [], []⟩
    let on := ElementRule.lower child (c.withAs true) s
    let off := ElementRule.lower child (c.withAs false) s
    let render := Build.arrow .none ["item"] (.ident .none "item")
    attrs.countP (·.isNamed "as") = 1 ∧ (∀ a ∈ attrs, Bind.directiveName? a = none)
      ∧ on.2 = reporting off.2 [⟨.asBinder, .none⟩]
      ∧ (NamedChild.value on.1 c s).1 = render ∧ (NamedChild.value off.1 c s).1 = render
      ∧ ∀ before after,
        let hoisted := ElementRule.hoistNamed "List" [] (before ++ .element on.1 :: after)
          (c.withAs true) on.2
        let hoisted' := ElementRule.hoistNamed "List" [] (before ++ .element off.1 :: after)
          (c.withAs false) off.2
        hoisted.1 = hoisted'.1 ∧ hoisted.2.diagnostics.Perm hoisted'.2.diagnostics := by
  intro attrs child c s on off render
  have hone : attrs.countP (·.isNamed "as") = 1 := rfl
  have hfree : ∀ a ∈ attrs, Bind.directiveName? a = none :=
    List.forall_mem_singleton.mpr rfl
  obtain ⟨place, list, hget, hreports, hvalue, -, hname, hhoisted⟩ := lower_withAs_hoisted
    (c := c) rfl s hone hfree .none .none "List" "row" [shownName "item"] true
  have hget' : Attrs.get? off.1.attrs "as" = some (.none,
      .container .none (some (.sequence .none [.ident .none "item", .number .none (.ofNat 1)]))) :=
    rfl
  obtain ⟨rfl, rfl⟩ : place = .none ∧ list = .container .none (some (.sequence .none
      [.ident .none "item", .number .none (.ofNat 1)])) :=
    Prod.mk.inj (Option.some.inj (hget.symm.trans hget'))
  refine ⟨hone, hfree, hreports, congrArg Prod.fst (hvalue c s).1, congrArg Prod.fst (hvalue c s).2,
    fun before after => hhoisted (hname rfl) [] before after on.2 off.2 ?_⟩
  rw [show on.2 = _ from hreports]
  exact .refl _

end JsxDialect
