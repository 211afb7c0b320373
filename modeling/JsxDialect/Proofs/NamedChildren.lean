import JsxDialect.Lower.Element
import JsxDialect.Proofs.Directives

/-!
# Named children become attributes

Hoisting goes through the children of an element and adds the value of each named child to the
attribute of its slot. `hoist_eq` says what a whole pass makes of the attributes, the children and
the reports, and `filter_foldl_put` follows the attribute of one slot through it.

A slot is filled by wrapping what is there into an array, unless it is an array literal already. So
an array that the first child of a slot is by itself takes in the values of the later ones
(`hoistNamed_collects`, `hoistNamed_joins_lists`).
-/

open JsxDialect.Bind (reporting)

namespace JsxDialect

/-! ## Attributes of one name -/

namespace Attrs

variable {as before after : List Attr} {name other : String}

theorem filter_eq_nil (h : has as name = false) : as.filter (·.isNamed name) = [] :=
  List.filter_eq_nil_iff.mpr fun a ha => Bool.eq_false_iff.mp (has_eq_false_iff.mp h a ha)

/-- Another value for one attribute leaves those of other names. -/
theorem filter_set_of_ne (h : name ≠ other) (new : AttrValue) :
    (set as name new).filter (·.isNamed other) = as.filter (·.isNamed other) := by
  rcases none_or_first as name with hnone | ⟨before, span, n, value, after, rfl, hn, hbefore⟩
  · rw [set_of_not hnone]
  · have hnot : ∀ v, ¬(Attr.named span n v).isNamed other = true := fun v hv =>
      h (hn.symm.trans (beq_iff_eq.mp (isNamed_named ▸ hv)))
    rw [(at_first span value after hn hbefore).2.2 new, List.filter_append, List.filter_append,
      List.filter_cons_of_neg (hnot _), List.filter_cons_of_neg (hnot _)]

end Attrs

/-! ## Binder lists -/

/-- The state after a cause was reported at several places. -/
theorem Lower.reportAll_eq (cause : Cause) (spans : List Span) (c : LoweringSetting)
    (s : Lowering) :
    Lower.reportAll cause spans c s = ((), reporting s (spans.map (⟨cause, ·⟩))) := by
  induction spans generalizing s with
  | nil =>
    rw [List.map_nil, reporting, List.append_nil]
    rfl
  | cons span spans ih =>
    have hstep : Lower.reportAll cause (span :: spans) c s
        = Lower.reportAll cause spans c (reporting s [⟨cause, span⟩]) := rfl
    rw [hstep, ih, reporting, reporting, reporting, List.append_assoc, List.map_cons]
    rfl

namespace ControlFlow

/-- The names that the value of an `as` attribute binds. -/
def boundBy (list : AttrValue) : List String :=
  (list.expr?.map binderNames).getD []

/-- What is reported about the value of an `as` attribute. -/
def binderReports (span : Span) (list : AttrValue) : List Diagnostic :=
  match list.expr? with
  | none => [⟨.binderListMissing, span⟩]
  | some e => (rejectedSpans e).map (⟨.asBinder, ·⟩)

theorem binderParams_eq (span : Span) (list : AttrValue) (c : LoweringSetting) (s : Lowering) :
    binderParams span list c s = (boundBy list, reporting s (binderReports span list)) := by
  unfold binderParams boundBy binderReports
  cases list.expr? with
  | none => rfl
  | some e =>
    have hstep : (do
          Lower.reportAll .asBinder (rejectedSpans e)
          return binderNames e : Lower (List String)) c s
        = (binderNames e, (Lower.reportAll .asBinder (rejectedSpans e) c s).2) := rfl
    rw [Lower.reportAll_eq] at hstep
    exact hstep

end ControlFlow

namespace NamedChild

open ControlFlow (boundBy binderReports binderParams_eq)

/-! ## One pass -/

/-- What a named child gives its slot: its children, or a function of the names that its `as`
attribute binds. -/
def given (e : Element) : Expr :=
  match Attrs.get? e.attrs "as" with
  | some (_, list) => Build.arrow e.span (boundBy list) e.childrenExpr
  | none => e.childrenExpr

/-- What is reported about a named child. -/
def reports (e : Element) : List Diagnostic :=
  match Attrs.get? e.attrs "as" with
  | some (span, list) => binderReports span list
  | none => []

theorem given_of_none {e : Element} (h : Attrs.get? e.attrs "as" = none) :
    given e = e.childrenExpr ∧ reports e = [] := by
  rw [given, reports, h]
  exact ⟨rfl, rfl⟩

theorem given_of_some {e : Element} {place : Span} {list : AttrValue}
    (h : Attrs.get? e.attrs "as" = some (place, list)) :
    given e = Build.arrow e.span (boundBy list) e.childrenExpr
      ∧ reports e = binderReports place list := by
  rw [given, reports, h]
  exact ⟨rfl, rfl⟩

/-- The named children among children, with their slots. -/
def named (parent : String) (cs : List Child) : List (String × Element) :=
  cs.filterMap (slot? parent)

/-- The attributes with the value of one more named child. -/
def put (parent : String) (as : List Attr) (p : String × Element) : List Attr :=
  add (attrName parent p.1) p.2.span (given p.2) as

theorem value_eq (e : Element) (c : LoweringSetting) (s : Lowering) :
    value e c s = (given e, reporting s (reports e)) := by
  unfold value given reports
  cases Attrs.get? e.attrs "as" with
  | none =>
    rw [reporting, List.append_nil]
    rfl
  | some p =>
    have hstep : (do
          let params ← ControlFlow.binderParams p.1 p.2
          return Build.arrow e.span params e.childrenExpr : Lower Expr) c s
        = (Build.arrow e.span (ControlFlow.binderParams p.1 p.2 c s).1 e.childrenExpr,
            (ControlFlow.binderParams p.1 p.2 c s).2) := rfl
    rw [binderParams_eq] at hstep
    exact hstep

/-- **A pass over the children**: the named ones are put into the attributes from left to right, and
the others are left. -/
theorem hoist_eq (parent : String) (as : List Attr) (cs : List Child) (c : LoweringSetting)
    (s : Lowering) :
    hoist parent as cs c s
      = (((named parent cs).foldl (put parent) as, cs.filter fun x => (slot? parent x).isNone),
        reporting s ((named parent cs).flatMap fun p => reports p.2)) := by
  induction cs generalizing as s with
  | nil =>
    rw [named, List.filterMap_nil, List.flatMap_nil, reporting, List.append_nil]
    rfl
  | cons x cs ih =>
    unfold named at ih ⊢
    cases hslot : slot? parent x with
    | none =>
      have hstep : hoist parent as (x :: cs) c s
          = (((hoist parent as cs c s).1.1, x :: (hoist parent as cs c s).1.2),
            (hoist parent as cs c s).2) := by
        rw [hoist, hslot]
        rfl
      rw [hstep, ih, List.filterMap_cons_none hslot, List.filter_cons_of_pos (by rw [hslot]; rfl)]
    | some p =>
      have hstep : hoist parent as (x :: cs) c s
          = hoist parent (add (attrName parent p.1) p.2.span (value p.2 c s).1 as) cs c
              (value p.2 c s).2 := by
        rw [hoist, hslot]
        rfl
      rw [hstep, value_eq, ih, List.filterMap_cons_some hslot,
        List.filter_cons_of_neg (by rw [hslot]; exact Bool.false_ne_true), List.flatMap_cons,
        reporting, reporting, reporting, List.append_assoc]
      rfl

end NamedChild

theorem ElementRule.hoistNamed_eq {c : LoweringSetting} (h : c.options.namedChildren = true)
    (tag : String) (as : List Attr) (cs : List Child) (s : Lowering) :
    ElementRule.hoistNamed tag as cs c s = NamedChild.hoist tag as cs c s := by
  have hstep : ElementRule.hoistNamed tag as cs c s
      = (if c.options.namedChildren then NamedChild.hoist tag as cs
          else return (as, cs) : Lower _) c s := rfl
  rw [hstep, if_pos h]

/-! ## The attribute of one slot -/

namespace NamedChild

/-- The elements that are for a slot. -/
def elementsFor (slot : String) (ps : List (String × Element)) : List Element :=
  (ps.filter (·.1 = slot)).map Prod.snd

theorem attrName_inj {parent slot slot' : String} :
    attrName parent slot = attrName parent slot' ↔ slot = slot' := by
  unfold attrName
  exact String.append_right_inj _

variable {parent slot : String} {as : List Attr}

theorem filter_put_of_ne {p : String × Element} {name : String} (h : attrName parent p.1 ≠ name) :
    (put parent as p).filter (·.isNamed name) = as.filter (·.isNamed name) := by
  unfold put add
  split
  · exact Attrs.filter_set_of_ne h _
  · have hnot : ¬(Build.attr p.2.span (attrName parent p.1) (given p.2)).isNamed name = true :=
      fun hname => h (Option.some.inj (beq_iff_eq.mp hname))
    rw [List.filter_append, List.filter_cons_of_neg hnot, List.filter_nil, List.append_nil]

/-- The first value for a slot is an attribute of its own. -/
theorem filter_put_first (h : as.filter (·.isNamed (attrName parent slot)) = []) (e : Element) :
    (put parent as (slot, e)).filter (·.isNamed (attrName parent slot))
      = [Build.attr e.span (attrName parent slot) (given e)] := by
  have hnone : Attrs.has as (attrName parent slot) = false :=
    Attrs.has_eq_false_iff.mpr fun a ha => Bool.eq_false_iff.mpr (List.filter_eq_nil_iff.mp h a ha)
  unfold put add
  rw [Attrs.get?_eq_none hnone]
  simp only [List.filter_append, h, List.nil_append]
  exact List.filter_cons_of_pos (beq_self_eq_true _)

/-- A further value is collected with those before it. -/
theorem filter_put_again {span : Span} {previous : Expr}
    (h : as.filter (·.isNamed (attrName parent slot))
      = [Build.attr span (attrName parent slot) previous]) (e : Element) :
    (put parent as (slot, e)).filter (·.isNamed (attrName parent slot))
      = [Build.attr span (attrName parent slot) (collect e.span previous (given e))] := by
  obtain ⟨before, after, rfl, hbefore, -, hafter⟩ := List.filter_eq_cons_iff.mp h
  have hfirst : Attrs.has before (attrName parent slot) = false :=
    Attrs.has_eq_false_iff.mpr fun a ha => Bool.eq_false_iff.mpr (hbefore a ha)
  have hname : (AttrName.plain (attrName parent slot)).text = attrName parent slot := rfl
  obtain ⟨hget, -, hset⟩ :=
    Attrs.at_first span (.container span (some previous)) after hname hfirst
  simp only [put, add, Build.attr, hget, hset, List.filter_append, Attrs.filter_eq_nil hfirst,
    List.nil_append, AttrValue.toExpr]
  rw [List.filter_cons_of_pos (by simp [Attrs.isNamed_named, AttrName.text]), hafter]

/-- The value of a slot after more of its children. -/
def collectAll (first : Expr) (es : List Element) : Expr :=
  es.foldl (fun previous e => collect e.span previous (given e)) first

/-- More children for a slot that is there. -/
theorem filter_foldl_put_again {span : Span} {previous : Expr}
    (h : as.filter (·.isNamed (attrName parent slot))
      = [Build.attr span (attrName parent slot) previous]) (ps : List (String × Element)) :
    (ps.foldl (put parent) as).filter (·.isNamed (attrName parent slot))
      = [Build.attr span (attrName parent slot)
          (collectAll previous (elementsFor slot ps))] := by
  induction ps generalizing as previous with
  | nil => exact h
  | cons p ps ih =>
    unfold elementsFor at ih ⊢
    rw [List.foldl_cons]
    by_cases hp : p.1 = slot
    · obtain ⟨_, e⟩ := p
      subst hp
      rw [ih (filter_put_again h e), List.filter_cons_of_pos (by simp)]
      rfl
    · rw [ih ((filter_put_of_ne (mt attrName_inj.mp hp)).trans h),
        List.filter_cons_of_neg (by simpa using hp)]

/-- **The attribute of a slot** that is not there before the pass: there is none without a child for
it, and otherwise one, at the place of the first. -/
theorem filter_foldl_put (h : as.filter (·.isNamed (attrName parent slot)) = [])
    (ps : List (String × Element)) :
    (ps.foldl (put parent) as).filter (·.isNamed (attrName parent slot))
      = match elementsFor slot ps with
        | [] => []
        | e :: es => [Build.attr e.span (attrName parent slot) (collectAll (given e) es)] := by
  induction ps generalizing as with
  | nil => exact h
  | cons p ps ih =>
    rw [List.foldl_cons]
    by_cases hp : p.1 = slot
    · obtain ⟨_, e⟩ := p
      subst hp
      rw [filter_foldl_put_again (filter_put_first h e), elementsFor, elementsFor,
        List.filter_cons_of_pos (by simp)]
      rfl
    · rw [ih ((filter_put_of_ne (mt attrName_inj.mp hp)).trans h), elementsFor, elementsFor,
        List.filter_cons_of_neg (by simpa using hp)]

/-! ## The entries of the array -/

/-- The entries that a value brings into an array: those of an array literal, and the value itself
otherwise. -/
def entriesOf : Expr → List Expr
  | .array _ es => es
  | e => [e]

/-- An array literal is not among its own entries. -/
theorem entriesOf_eq_singleton_iff {e : Expr} :
    entriesOf e = [e] ↔ ∀ span es, e ≠ .array span es := by
  constructor
  · rintro h span es rfl
    have hsize := congrArg sizeOf h
    simp only [entriesOf, Expr.array.sizeOf_spec, List.cons.sizeOf_spec, List.nil.sizeOf_spec]
      at hsize
    omega
  · intro h
    unfold entriesOf
    split
    · exact absurd rfl (h _ _)
    · rfl

theorem collectAll_array (span : Span) (entries : List Expr) (es : List Element) :
    collectAll (.array span entries) es = .array span (entries ++ es.map given) := by
  unfold collectAll
  induction es generalizing entries with
  | nil => rw [List.map_nil, List.append_nil, List.foldl_nil]
  | cons e es ih => rw [List.foldl_cons, collect, ih, List.append_assoc, List.map_cons]; rfl

theorem collectAll_cons (first : Expr) (e : Element) (es : List Element) :
    ∃ span, collectAll first (e :: es) = .array span (entriesOf first ++ (e :: es).map given) := by
  have hstep : ∃ span, collect e.span first (given e)
      = .array span (entriesOf first ++ [given e]) := by
    unfold collect
    split
    · exact ⟨_, rfl⟩
    · rename_i hother
      rw [entriesOf_eq_singleton_iff.mpr hother]
      exact ⟨_, rfl⟩
  obtain ⟨span, hspan⟩ := hstep
  refine ⟨span, ?_⟩
  have hrest : collectAll first (e :: es) = collectAll (collect e.span first (given e)) es := rfl
  rw [hrest, hspan, collectAll_array, List.append_assoc, List.map_cons]
  rfl

end NamedChild

open NamedChild

/-- **Repeated named children are collected.** If at least two children are for a slot whose
attribute is not there, hoisting makes one attribute for them, whose value is an array literal. It
begins with what the first child brings in, and has one entry for each other child, in order. So it
has the values of all children as its entries exactly if the first value is no array literal. -/
theorem hoistNamed_collects {c : LoweringSetting} (hon : c.options.namedChildren = true)
    (s : Lowering) {parent slot : String} {attrs : List Attr} {children : List Child}
    {first second : Element} {others : List Element}
    (hslot : elementsFor slot (named parent children) = first :: second :: others)
    (hfree : Attrs.has attrs (attrName parent slot) = false) :
    ∃ span entries,
      (ElementRule.hoistNamed parent attrs children c s).1.1.filter
          (·.isNamed (attrName parent slot))
        = [Build.attr first.span (attrName parent slot) (.array span entries)]
      ∧ entries = entriesOf (given first) ++ (second :: others).map given
      ∧ (entries = (first :: second :: others).map given
        ↔ ∀ span es, given first ≠ .array span es) := by
  obtain ⟨span, hspan⟩ := collectAll_cons (given first) second others
  refine ⟨span, _, ?_, rfl, ?_⟩
  · rw [ElementRule.hoistNamed_eq hon, hoist_eq, filter_foldl_put (Attrs.filter_eq_nil hfree),
      hslot]
    exact congrArg (fun v => [Build.attr first.span (attrName parent slot) v]) hspan
  · have hvalues : (first :: second :: others).map given
        = [given first] ++ (second :: others).map given := rfl
    rw [hvalues, List.append_left_inj, entriesOf_eq_singleton_iff]

/-- `<parent:slot>children</parent:slot>`. -/
def slotChild (parent slot : String) (attrs : List Attr) (children : List Child) : Element :=
  .mk .none .none (.namespaced parent slot) attrs children true

/-- `{name}`. -/
def shownName (name : String) : Child :=
  .container (some (.ident .none name))

/-- Three rows of a list, after a text and a title: the second row is a function, and the third has
two children. -/
theorem hoistNamed_collects_rows :
    let rows := [slotChild "L" "row" [] [shownName "a"],
      slotChild "L" "row" [Build.attr .none "as" (.ident .none "x")] [shownName "x"],
      slotChild "L" "row" [] [shownName "b", shownName "c"]]
    let children := [.text "one", .element (slotChild "L" "head" [] [])] ++ rows.map Child.element
    let c : LoweringSetting := ⟨{}, []⟩
    let s : Lowering := ⟨Header.ofModule ⟨[], []⟩, .empty, [], []⟩
    elementsFor "row" (named "L" children) = rows
      ∧ Attrs.has [] (attrName "L" "row") = false
      ∧ ∃ span, (ElementRule.hoistNamed "L" [] children c s).1.1.filter
          (·.isNamed (attrName "L" "row"))
        = [Build.attr .none (attrName "L" "row") (.array span [.ident .none "a",
          Build.arrow .none ["x"] (.ident .none "x"),
          .array .none [.ident .none "b", .ident .none "c"]])] := by
  intro rows children c s
  have hrows : elementsFor "row" (named "L" children) = rows := rfl
  have hfree : Attrs.has [] (attrName "L" "row") = false := rfl
  obtain ⟨span, entries, hattr, hentries, -⟩ :=
    hoistNamed_collects (c := c) rfl s hrows hfree
  refine ⟨hrows, hfree, span, ?_⟩
  rw [hattr, hentries]
  rfl

/-- **The list of the first child is not kept apart.** Two children become three entries. -/
theorem hoistNamed_joins_lists :
    let children := [slotChild "P" "s" [] [shownName "a", shownName "b"],
      slotChild "P" "s" [] [shownName "c"]]
    children.map given = [.array .none [.ident .none "a", .ident .none "b"], .ident .none "c"]
      ∧ ∀ s, (ElementRule.hoistNamed "P" [] (children.map Child.element) ⟨{}, []⟩ s).1.1
        = [Build.attr .none (attrName "P" "s")
          (.array .none [.ident .none "a", .ident .none "b", .ident .none "c"])] := by
  intro children
  exact ⟨rfl, fun s => rfl⟩

end JsxDialect
