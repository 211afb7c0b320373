import JsxDialect.Proofs.Attributes
import JsxDialect.Proofs.Lists
import Mathlib.Data.List.Forall2
import Mathlib.Data.List.Perm.Basic

/-!
# What becomes of two-way bindings

Directives are expanded one after the other, each on the attributes that the ones before it left.
`Expands` says what may become of one occurrence: it is rejected with a report, or its attribute is
added and the handler of its event is wrapped or added. `Settles` chains these steps. What holds of
all directives of an element is read off the chain: the other attributes stay where they are, what
is added comes after them, and no name is added twice or beside an attribute that has it.
-/

namespace JsxDialect

/-! ## The first attribute of a name -/

/-- Whether the parts of the name of an attribute have no colon, which only stands between them. -/
def Attr.IsWritten : Attr → Prop
  | .named _ (.plain name) _ => ':' ∉ name.toList
  | .named _ (.namespaced space name) _ => ':' ∉ space.toList ∧ ':' ∉ name.toList
  | .spread .. => True

namespace Attrs

variable {as bs before after : List Attr} {a : Attr} {name : String} {span : Span} {n : AttrName}
  {value : AttrValue}

/-- No attribute has a name if each of them has another. -/
theorem has_eq_false_iff : has as name = false ↔ ∀ a ∈ as, a.isNamed name = false := by
  simp [has]

/-- A name is among attributes if it is in one of their parts. -/
@[simp] theorem has_append : has (as ++ bs) name = (has as name || has bs name) := by
  simp [has]

/-- An attribute is named by the text of its name. -/
theorem isNamed_named : (Attr.named span n value).isNamed name = (n.text == name) :=
  rfl

/-- What has another name is passed over when a name is looked up. -/
theorem get?_cons_of_not (h : a.isNamed name = false) : get? (a :: as) name = get? as name := by
  cases a with
  | named span n value =>
    rw [isNamed_named] at h
    simp [get?, h]
  | spread => rfl

/-- It stays when a name is erased. -/
theorem erase_cons_of_not (h : a.isNamed name = false) :
    erase (a :: as) name = a :: erase as name := by
  cases a with
  | named span n value =>
    rw [isNamed_named] at h
    simp [erase, h]
  | spread => rfl

/-- It stays when a value is set. -/
theorem set_cons_of_not (h : a.isNamed name = false) (new : AttrValue) :
    set (a :: as) name new = a :: set as name new := by
  cases a with
  | named span n value =>
    rw [isNamed_named] at h
    simp [set, h]
  | spread => rfl

/-- The same for several attributes, when a name is looked up. -/
theorem get?_append_of_not (h : has before name = false) :
    get? (before ++ as) name = get? as name := by
  induction before with
  | nil => rfl
  | cons a before ih =>
    obtain ⟨ha, hbefore⟩ := List.forall_mem_cons.mp (has_eq_false_iff.mp h)
    rw [List.cons_append, get?_cons_of_not ha, ih (has_eq_false_iff.mpr hbefore)]

/-- The same, when a name is erased. -/
theorem erase_append_of_not (h : has before name = false) :
    erase (before ++ as) name = before ++ erase as name := by
  induction before with
  | nil => rfl
  | cons a before ih =>
    obtain ⟨ha, hbefore⟩ := List.forall_mem_cons.mp (has_eq_false_iff.mp h)
    rw [List.cons_append, erase_cons_of_not ha, ih (has_eq_false_iff.mpr hbefore),
      List.cons_append]

/-- The same, when a value is set. -/
theorem set_append_of_not (h : has before name = false) (new : AttrValue) :
    set (before ++ as) name new = before ++ set as name new := by
  induction before with
  | nil => rfl
  | cons a before ih =>
    obtain ⟨ha, hbefore⟩ := List.forall_mem_cons.mp (has_eq_false_iff.mp h)
    rw [List.cons_append, set_cons_of_not ha, ih (has_eq_false_iff.mpr hbefore),
      List.cons_append]

/-- So nothing is set where no attribute has the name. -/
theorem set_of_not (h : has before name = false) (new : AttrValue) :
    set before name new = before := by
  have hset : set (before ++ []) name new = before ++ set [] name new := set_append_of_not h new
  rwa [List.append_nil, set, List.append_nil] at hset

/-- Where the first attribute of a name stands, the lookup finds it, and it can be taken out or
given another value. -/
theorem at_first (span : Span) (value : AttrValue) (after : List Attr) (hn : n.text = name)
    (h : has before name = false) :
    get? (before ++ .named span n value :: after) name = some (span, value)
      ∧ erase (before ++ .named span n value :: after) name = before ++ after
      ∧ ∀ new, set (before ++ .named span n value :: after) name new
          = before ++ .named span n new :: after := by
  subst hn
  refine ⟨?_, ?_, fun new => ?_⟩
  · rw [get?_append_of_not h]
    simp [get?]
  · rw [erase_append_of_not h]
    simp [erase]
  · rw [set_append_of_not h]
    simp [set]

/-- A name is nowhere, or there is a first attribute that has it. -/
theorem none_or_first (as : List Attr) (name : String) :
    has as name = false
      ∨ ∃ before span n value after, as = before ++ .named span n value :: after
        ∧ n.text = name ∧ has before name = false := by
  induction as with
  | nil => exact .inl rfl
  | cons a as ih =>
    cases ha : a.isNamed name with
    | true =>
      cases a with
      | named span n value =>
        exact .inr ⟨[], span, n, value, as, rfl, beq_iff_eq.mp ha, rfl⟩
      | spread => cases ha
    | false =>
      rcases ih with hnone | ⟨before, span, n, value, after, rfl, hn, hbefore⟩
      · exact .inl (has_eq_false_iff.mpr
          (List.forall_mem_cons.mpr ⟨ha, has_eq_false_iff.mp hnone⟩))
      · exact .inr ⟨a :: before, span, n, value, after, rfl, hn, has_eq_false_iff.mpr
          (List.forall_mem_cons.mpr ⟨ha, has_eq_false_iff.mp hbefore⟩)⟩

/-- A name that is not there is not found. -/
theorem get?_eq_none (h : has as name = false) : get? as name = none := by
  rw [← List.append_nil as, get?_append_of_not h, get?]

end Attrs

namespace Bind

/-! ## One occurrence -/

/-- Why a directive is dropped, given the other attributes: it has no expression, its expression is
no target, or its name is taken. -/
inductive Rejects (d : Directive) (value : AttrValue) (others : List Attr) : Cause → Prop
  | unbound : value.expr? = none → Rejects d value others (.unboundDirective d.text)
  | unassignable {target : Expr} : value.expr? = some target → target.target? = none →
      Rejects d value others (.unassignable d.text)
  | conflicting {target : Expr} {place : Pattern} : value.expr? = some target →
      target.target? = some place → Attrs.has others d.name = true →
      Rejects d value others (.conflictingDirective d.text d.name)

/-- Whether a directive is expanded: it has a target, and its name is free. -/
structure Accepts (d : Directive) (value : AttrValue) (others : List Attr) (target : Expr)
    (place : Pattern) : Prop where
  expr : value.expr? = some target
  target : target.target? = some place
  free : Attrs.has others d.name = false

/-- **A directive is rejected or accepted**, and the reason is one of those stated. -/
theorem refusal?_cases (d : Directive) (value : AttrValue) (others : List Attr) :
    (∃ cause, refusal? d value others = some cause ∧ Rejects d value others cause)
      ∨ refusal? d value others = none ∧ ∃ target place, Accepts d value others target place := by
  unfold refusal?
  cases hvalue : value.expr? with
  | none => exact .inl ⟨_, rfl, .unbound hvalue⟩
  | some target =>
    cases hplace : target.target? with
    | none => exact .inl ⟨_, by simp [hplace], .unassignable hvalue hplace⟩
    | some place =>
      cases hhas : Attrs.has others d.name with
      | true => exact .inl ⟨_, by simp [hplace], .conflicting hvalue hplace hhas⟩
      | false => exact .inr ⟨by simp [hplace], target, place, hvalue, hplace, hhas⟩

/-- The name of the parameter of a handler. -/
def Directive.param (d : Directive) (s : Lowering) : String :=
  (s.header.paramName d.template.hint).1

/-- The state after asking for the parameter of a handler. -/
def Directive.named (d : Directive) (s : Lowering) : Lowering :=
  { s with header := (s.header.paramName d.template.hint).2 }

/-- The assignment of what the user enters to the target. -/
def Directive.assignment (d : Directive) (span : Span) (s : Lowering) (target : Expr)
    (place : Pattern) : Expr :=
  Build.assign span place (d.template.read span (d.param s) target)

/-- A function that runs a handler and then assigns. -/
def Directive.composed (d : Directive) (span : Span) (s : Lowering) (target : Expr)
    (place : Pattern) (handler : Expr) : Expr :=
  Build.arrow span [d.param s]
    (.sequence span [Build.call span handler [.ident span (d.param s)],
      d.assignment span s target place])

/-- What became of an occurrence of a directive. -/
inductive Fate where
  /-- It was dropped, and this was reported. -/
  | rejected (cause : Cause)
  /-- A handler of its event was wrapped. -/
  | wrapped
  /-- A handler of its event was added. -/
  | extended

/-- The state with more reports. -/
def reporting (s : Lowering) (reports : List Diagnostic) : Lowering :=
  { s with diagnostics := s.diagnostics ++ reports }

/-- What an occurrence of a directive with a place and a value makes of the other attributes and
the state. -/
inductive Expands (d : Directive) (span : Span) (value : AttrValue) (others : List Attr)
    (s : Lowering) : Fate → List Attr × Lowering → Prop
  /-- There is one report, and nothing else. -/
  | rejected {cause : Cause} : Rejects d value others cause →
      Expands d span value others s (.rejected cause) (others, reporting s [⟨cause, span⟩])
  /-- The first attribute of the event gets another value where it stands, and the attribute of the
  directive comes last. A handler that only assigns is reported. -/
  | wrapped {target : Expr} {place : Pattern} {before after : List Attr} {loc : Span}
      {name : AttrName} {old : AttrValue} : Accepts d value others target place →
      others = before ++ .named loc name old :: after → name.text = d.event →
      Attrs.has before d.event = false →
      Expands d span value others s .wrapped
        (before ++ .named loc name
            (.container loc (some (d.composed span s target place (old.toExpr loc)))) :: after
          ++ [Build.attr span d.name target],
        reporting (d.named s)
          (if isAssigning (old.toExpr loc) then [⟨.redundantHandler d.event d.text, loc⟩] else []))
  /-- The attribute of the directive and one handler come last. -/
  | extended {target : Expr} {place : Pattern} : Accepts d value others target place →
      Attrs.has others d.event = false →
      Expands d span value others s .extended
        (others ++ [Build.attr span d.name target,
          Build.attr span d.event
            (Build.arrow span [d.param s] (d.assignment span s target place))],
        d.named s)

/-- An occurrence of a directive. -/
def Directive.occurrence (d : Directive) (span : Span) (value : AttrValue) : Attr :=
  .named span (.namespaced "bind" d.name) value

/-- The name of an occurrence of a directive. -/
theorem text_bind (d : Directive) : (AttrName.namespaced "bind" d.name).text = d.text :=
  rfl

section Step

variable {c : LoweringSetting} {d : Directive} {span : Span} {value : AttrValue} {s : Lowering}

/-- A handler that is there is wrapped where it stands: it is called first, then the target is
assigned. -/
theorem addHandler_wrapped {before : List Attr} {name : AttrName} (hname : name.text = d.event)
    (hbefore : Attrs.has before d.event = false) (loc : Span) (old : AttrValue)
    (after : List Attr) (param : String) (assignment : Expr) :
    addHandler d span param assignment (before ++ .named loc name old :: after) c s
      = (before ++ .named loc name (.container loc (some (Build.arrow span [param]
          (.sequence span [Build.call span (old.toExpr loc) [.ident span param],
            assignment])))) :: after,
        reporting s
          (if isAssigning (old.toExpr loc) then [⟨.redundantHandler d.event d.text, loc⟩]
            else [])) := by
  obtain ⟨hget, -, hset⟩ := Attrs.at_first loc old after hname hbefore
  unfold addHandler
  rw [hget]
  simp only [hset]
  split
  · rfl
  · simp only [reporting, List.append_nil]
    rfl

/-- Without one, a handler is added at the end. -/
theorem addHandler_extended {attrs : List Attr} (h : Attrs.has attrs d.event = false)
    (param : String) (assignment : Expr) :
    addHandler d span param assignment attrs c s
      = (attrs ++ [Build.attr span d.event (Build.arrow span [param] assignment)], s) := by
  unfold addHandler
  rw [Attrs.get?_eq_none h]
  rfl

/-- A directive that is rejected is dropped, and the reason is reported at its place. -/
theorem expand_rejected {before : List Attr} (hbefore : Attrs.has before d.text = false)
    (after : List Attr) {cause : Cause} (h : refusal? d value (before ++ after) = some cause) :
    expand d (before ++ d.occurrence span value :: after) c s
      = (before ++ after, reporting s [⟨cause, span⟩]) := by
  obtain ⟨hget, herase, -⟩ := Attrs.at_first span value after (text_bind d) hbefore
  unfold expand Directive.occurrence
  rw [hget]
  simp only [herase, h]
  rfl

/-- One that is accepted becomes an attribute at the end, and its handler comes next. -/
theorem expand_accepted {before : List Attr} (hbefore : Attrs.has before d.text = false)
    (after : List Attr) {target : Expr} {place : Pattern}
    (h : Accepts d value (before ++ after) target place)
    (hrefusal : refusal? d value (before ++ after) = none) :
    expand d (before ++ d.occurrence span value :: after) c s
      = addHandler d span (d.param s) (d.assignment span s target place)
          ((before ++ after) ++ [Build.attr span d.name target]) c (d.named s) := by
  obtain ⟨hget, herase, -⟩ := Attrs.at_first span value after (text_bind d) hbefore
  unfold expand Directive.occurrence
  rw [hget]
  simp only [herase, hrefusal, h.expr, h.target, Option.getD_some]
  rfl

/-- **One occurrence is expanded.** It is the first of its name, and the attribute it adds does not
have the name of its event. -/
theorem expand_occurrence (c : LoweringSetting) (span : Span) (value : AttrValue) (s : Lowering)
    {before : List Attr} (hbefore : Attrs.has before d.text = false) (after : List Attr)
    (hne : d.name ≠ d.event) :
    ∃ fate, Expands d span value (before ++ after) s fate
      (expand d (before ++ d.occurrence span value :: after) c s) := by
  rcases refusal?_cases d value (before ++ after) with
    ⟨cause, hrefusal, hrejects⟩ | ⟨hrefusal, target, place, haccepts⟩
  · rw [expand_rejected hbefore after hrefusal]
    exact ⟨_, .rejected hrejects⟩
  rw [expand_accepted hbefore after haccepts hrefusal]
  rcases Attrs.none_or_first (before ++ after) d.event with
    hnone | ⟨front, loc, name, old, back, hsplit, hname, hfront⟩
  · -- The attribute that was just added is no handler of its own event.
    have hdata : Attrs.has [Build.attr span d.name target] d.event = false := by
      simpa [Attrs.has, Build.attr, Attrs.isNamed_named, AttrName.text] using hne
    rw [addHandler_extended (by rw [Attrs.has_append, hnone, hdata]; rfl), List.append_assoc]
    exact ⟨_, .extended haccepts hnone⟩
  · have hwrap : Expands d span value (before ++ after) s .wrapped _ :=
      .wrapped haccepts hsplit hname hfront
    rw [hsplit, List.append_assoc, List.cons_append, addHandler_wrapped hname hfront]
    rw [hsplit, List.append_assoc, List.cons_append] at hwrap
    exact ⟨_, hwrap⟩

end Step

/-! ## What one step leaves -/

/-- Whether an attribute is a directive. -/
def isDirective (a : Attr) : Bool :=
  (directiveName? a).isSome

/-- The attributes that are no directives. -/
def ordinary (as : List Attr) : List Attr :=
  as.filter (!isDirective ·)

/-- An attribute that is written as a directive is one, and its name is not written as one. -/
structure Readable (a : Attr) : Prop where
  directive : ∀ n, a.isNamed ("bind:" ++ n) = true → directiveName? a = some n
  name : ∀ n m, directiveName? a = some n → n ≠ "bind:" ++ m

/-- A directive that makes no directives and does not listen to the attribute it makes. -/
structure Directive.IsProper (d : Directive) : Prop where
  name : ∀ m, d.name ≠ "bind:" ++ m
  event : ∀ m, d.event ≠ "bind:" ++ m
  ne : d.name ≠ d.event

/-- What has the name of a directive is written as one. -/
theorem eq_of_directiveName? {a : Attr} {n : String} (h : directiveName? a = some n) :
    ∃ span value, a = .named span (.namespaced "bind" n) value := by
  unfold directiveName? at h
  split at h
  · obtain rfl := Option.some.inj h
    exact ⟨_, _, rfl⟩
  · cases h

/-- Whether an attribute is a directive depends on its name alone. -/
theorem directiveName?_named (span span' : Span) (n : AttrName) (value value' : AttrValue) :
    directiveName? (.named span n value) = directiveName? (.named span' n value') := by
  cases n with
  | plain => rfl
  | namespaced space name =>
    by_cases h : space = "bind"
    · subst h
      rfl
    · simp [directiveName?, h]

/-- A name that is not written as a directive is none. -/
theorem isDirective_eq_false {span : Span} {n : AttrName} {value : AttrValue}
    (h : ∀ m, n.text ≠ "bind:" ++ m) : isDirective (.named span n value) = false := by
  refine Bool.eq_false_iff.mpr fun hsome => ?_
  obtain ⟨m, hm⟩ := Option.isSome_iff_exists.mp hsome
  obtain ⟨_, _, heq⟩ := eq_of_directiveName? hm
  obtain ⟨-, rfl, -⟩ := Attr.named.inj heq
  exact h m rfl

/-- An attribute stays readable with another value. -/
theorem Readable.renamed {span span' : Span} {n : AttrName} {value : AttrValue}
    (h : Readable (.named span n value)) (value' : AttrValue) :
    Readable (.named span' n value') := by
  refine ⟨fun m hm => ?_, fun k m hk => ?_⟩
  · rw [directiveName?_named span' span n value' value]
    exact h.directive m hm
  · rw [directiveName?_named span' span n value' value] at hk
    exact h.name k m hk

/-- An attribute that is made is readable if its name is not written as a directive. -/
theorem readable_attr {name : String} (h : ∀ m, name ≠ "bind:" ++ m) (span : Span) (e : Expr) :
    Readable (Build.attr span name e) :=
  ⟨fun m hm => absurd (beq_iff_eq.mp hm) (fun heq => h m (Option.some.inj heq)),
    fun _ _ hn => nomatch hn⟩

/-- Every attribute that can be written is readable. -/
theorem readable_of_isWritten {a : Attr} (h : a.IsWritten) : Readable a := by
  cases a with
  | spread =>
    refine ⟨fun _ hm => ?_, fun _ _ hn => ?_⟩
    · cases hm
    · cases hn
  | named span n value =>
    cases n with
    | plain name =>
      refine ⟨fun m hm => absurd (Option.some.inj (beq_iff_eq.mp hm)) ?_, fun _ _ hn => nomatch hn⟩
      rintro rfl
      exact h (by simp)
    | namespaced space name =>
      refine ⟨fun m hm => ?_, fun k m hk => ?_⟩
      · -- The colon between the parts is the first one on both sides.
        have htext : space ++ ":" ++ name = "bind:" ++ m := Option.some.inj (beq_iff_eq.mp hm)
        have hchars : space.toList ++ ':' :: name.toList
            = ['b', 'i', 'n', 'd'] ++ ':' :: m.toList := by
          simpa using congrArg String.toList htext
        obtain ⟨hspace, -, hname⟩ := (List.append_cons_inj_of_notMem h.1 h.2).mp hchars
        obtain rfl : space = "bind" := String.toList_inj.mp hspace
        obtain rfl : name = m := String.toList_inj.mp hname
        rfl
      · obtain ⟨_, _, heq⟩ := eq_of_directiveName? hk
        obtain ⟨-, heq, -⟩ := Attr.named.inj heq
        obtain ⟨-, rfl⟩ := AttrName.namespaced.inj heq
        rintro rfl
        exact h.2 (by simp)

/-- The directives of form elements are proper. -/
theorem isProper_of_formDirective? {tag : String} {as : List Attr} {d : Directive}
    (h : formDirective? tag as = some d) : d.IsProper := by
  have hne : ∀ (x : String) (m : String), x.toList.head? ≠ some 'b' → x ≠ "bind:" ++ m := by
    rintro x m hx rfl
    exact hx (by simp)
  rcases eq_of_mem_formDirective? (Option.mem_toList.mpr h) with rfl | rfl
  · exact ⟨fun m => hne _ m (by decide), fun m => hne _ m (by decide), by decide⟩
  · exact ⟨fun m => hne _ m (by decide), fun m => hne _ m (by decide), by decide⟩

/-- The event of a directive is longer than its name and starts with `on`. -/
theorem isProper_customDirective {name : String} (h : ∀ m, name ≠ "bind:" ++ m) :
    (customDirective name).IsProper := by
  refine ⟨h, fun m hevent => ?_, fun heq => ?_⟩
  · have hhead := congrArg (·.toList.head?) hevent
    simp [customDirective] at hhead
  · have hlength := congrArg (·.toList.length) heq
    cases hname : name.toList with
    | nil => simp [customDirective, Text.capitalize, hname] at hlength
    | cons ch cs =>
      simp only [customDirective, hname, Text.capitalize, String.toList_append,
        String.toList_ofList, List.length_append, List.length_cons] at hlength
      have hon : "on".toList.length = 2 := by decide
      omega

/-- The names of the attributes that a step adds. -/
def Fate.adds (d : Directive) : Fate → List String
  | .rejected _ => []
  | .wrapped => [d.name]
  | .extended => [d.name, d.event]

/-- The events whose handlers a step wraps. -/
def Fate.wraps (d : Directive) : Fate → List String
  | .wrapped => [d.event]
  | .rejected _ | .extended => []

/-- An attribute and what is in its place: itself or, for a handler of one of the events, an
attribute of the same name whose value is an expression. -/
inductive Keeps (events : List String) : Attr → Attr → Prop
  | same (a : Attr) : Keeps events a a
  | wrapped {span : Span} {name : AttrName} {old : AttrValue} (e : Expr) : name.text ∈ events →
      Keeps events (.named span name old) (.named span name (.container span (some e)))

/-- What is kept twice is kept. -/
theorem Keeps.trans {events : List String} {a b c : Attr} (hab : Keeps events a b)
    (hbc : Keeps events b c) : Keeps events a c := by
  cases hbc with
  | same => exact hab
  | wrapped e h =>
    cases hab with
    | same => exact .wrapped e h
    | wrapped => exact .wrapped e h

/-- More events may have their handlers wrapped. -/
theorem Keeps.mono {events events' : List String} (h : events ⊆ events') {a b : Attr}
    (hab : Keeps events a b) : Keeps events' a b := by
  cases hab with
  | same => exact .same _
  | wrapped e hname => exact .wrapped e (h hname)

/-- The names of attributes that are kept are the same, in the same order. -/
theorem map_name?_of_keeps {events : List String} {as bs : List Attr}
    (h : List.Forall₂ (Keeps events) as bs) : bs.map Attr.name? = as.map Attr.name? := by
  induction h with
  | nil => rfl
  | cons hhead _ ih =>
    rw [List.map_cons, List.map_cons, ih]
    cases hhead <;> rfl

/-- A name is not there if it is not among the names. -/
theorem has_eq_false_iff_notMem {as : List Attr} {name : String} :
    Attrs.has as name = false ↔ some name ∉ as.map Attr.name? := by
  simp [Attrs.has, Attr.isNamed]

section Step

variable {d : Directive} {span : Span} {value : AttrValue} {others : List Attr} {s : Lowering}
  {fate : Fate} {q : List Attr × Lowering}

/-- **A step leaves readable attributes.** -/
theorem Expands.readable (h : Expands d span value others s fate q) (hd : d.IsProper)
    (ho : ∀ a ∈ others, Readable a) : ∀ a ∈ q.1, Readable a := by
  cases h with
  | rejected => exact ho
  | wrapped _ hothers =>
    subst hothers
    intro a ha
    rcases List.mem_append.mp ha with ha | ha
    · rcases List.mem_append.mp ha with ha | ha
      · exact ho a (List.mem_append_left _ ha)
      · rcases List.mem_cons.mp ha with rfl | ha
        · exact (ho _ (List.mem_append_right _ List.mem_cons_self)).renamed _
        · exact ho a (List.mem_append_right _ (List.mem_cons_of_mem _ ha))
    · obtain rfl := List.mem_singleton.mp ha
      exact readable_attr hd.name _ _
  | extended =>
    intro a ha
    rcases List.mem_append.mp ha with ha | ha
    · exact ho a ha
    · rcases List.mem_pair.mp ha with rfl | rfl
      · exact readable_attr hd.name _ _
      · exact readable_attr hd.event _ _

/-- A step leaves the other directives as they are. -/
theorem Expands.directives (h : Expands d span value others s fate q) (hd : d.IsProper) :
    q.1.filter isDirective = others.filter isDirective := by
  cases h with
  | rejected => rfl
  | @wrapped target place before after loc name old _ hothers hname =>
    have hold : ∀ v, ¬isDirective (.named loc name v) = true := fun _ =>
      Bool.eq_false_iff.mp (isDirective_eq_false (hname ▸ hd.event))
    rw [hothers, List.filter_append, List.filter_append, List.filter_append,
      List.filter_cons_of_neg (hold _), List.filter_cons_of_neg (hold _)]
    exact List.append_nil _
  | extended =>
    rw [List.filter_append]
    exact List.append_nil _

/-- A step adds attributes after the others, which stay where they are. -/
theorem Expands.ordinary (h : Expands d span value others s fate q) (hd : d.IsProper) :
    ∃ kept added, ordinary q.1 = kept ++ added
      ∧ List.Forall₂ (Keeps (fate.wraps d)) (ordinary others) kept
      ∧ added.map Attr.name? = (fate.adds d).map some := by
  have hrefl : ∀ (events : List String) (as : List Attr), List.Forall₂ (Keeps events) as as :=
    fun events as => List.forall₂_same.mpr fun a _ => .same a
  cases h with
  | rejected => exact ⟨_, [], (List.append_nil _).symm, hrefl _ _, rfl⟩
  | @wrapped target place before after loc name old _ hothers hname =>
    have hold : ∀ v, isDirective (.named loc name v) = false := fun _ =>
      isDirective_eq_false (hname ▸ hd.event)
    refine ⟨Bind.ordinary (before ++ .named loc name (.container loc (some
      (d.composed span s target place (old.toExpr loc)))) :: after),
      [Build.attr span d.name target], List.filter_append .., ?_, rfl⟩
    rw [hothers, Bind.ordinary, Bind.ordinary, List.filter_append, List.filter_append,
      List.filter_cons_of_pos (by rw [hold]; rfl), List.filter_cons_of_pos (by rw [hold]; rfl)]
    exact List.rel_append (hrefl _ _)
      (.cons (.wrapped _ (hname ▸ List.mem_singleton_self _)) (hrefl _ _))
  | @extended target place =>
    exact ⟨Bind.ordinary others, [Build.attr span d.name target, Build.attr span d.event _],
      List.filter_append .., hrefl _ _, rfl⟩

/-- **A step adds the names of its fate at the end**, and leaves the others. -/
theorem Expands.names (h : Expands d span value others s fate q) (hd : d.IsProper) :
    (Bind.ordinary q.1).map Attr.name?
      = (Bind.ordinary others).map Attr.name? ++ (fate.adds d).map some := by
  obtain ⟨kept, added, hq, hkeeps, hnames⟩ := h.ordinary hd
  rw [hq, List.map_append, map_name?_of_keeps hkeeps, hnames]

/-- No other attribute has a name that a step adds. -/
theorem Expands.free (h : Expands d span value others s fate q) :
    ∀ n ∈ fate.adds d, Attrs.has others n = false := by
  cases h with
  | rejected => exact fun _ hn => nomatch hn
  | wrapped ha =>
    intro n hn
    obtain rfl := List.mem_singleton.mp hn
    exact ha.free
  | extended ha hevent =>
    intro n hn
    rcases List.mem_pair.mp hn with rfl | rfl
    · exact ha.free
    · exact hevent

end Step

/-! ## A run -/

/-- An occurrence of a directive and what became of it. -/
structure Handled where
  directive : Directive
  attr : Attr
  fate : Fate

/-- The names of the attributes that are added for an occurrence. -/
def Handled.adds (h : Handled) : List String :=
  h.fate.adds h.directive

/-- The events whose handlers are wrapped for an occurrence. -/
def Handled.wraps (h : Handled) : List String :=
  h.fate.wraps h.directive

/-- Occurrences that are handled one after the other, each of them the first of its name. -/
inductive Settles : List Handled → List Attr × Lowering → List Attr × Lowering → Prop
  | done {p : List Attr × Lowering} : Settles [] p p
  | step {d : Directive} {span : Span} {value : AttrValue} {before after : List Attr}
      {s : Lowering} {fate : Fate} {q r : List Attr × Lowering} {hs : List Handled} :
      Attrs.has before d.text = false →
      Expands d span value (before ++ after) s fate q →
      Settles hs q r →
      Settles (⟨d, d.occurrence span value, fate⟩ :: hs)
        (before ++ d.occurrence span value :: after, s) r

/-- An occurrence of a directive is no ordinary attribute. -/
theorem ordinary_occurrence (d : Directive) (span : Span) (value : AttrValue)
    (before after : List Attr) :
    ordinary (before ++ d.occurrence span value :: after) = ordinary (before ++ after) := by
  unfold ordinary
  rw [List.filter_append, List.filter_append, List.filter_cons_of_neg]
  exact fun h => nomatch h

/-- A name that no attribute has is not among the ordinary ones. -/
theorem has_ordinary {as : List Attr} {n : String} (h : Attrs.has as n = false) :
    Attrs.has (ordinary as) n = false :=
  Attrs.has_eq_false_iff.mpr fun a ha => Attrs.has_eq_false_iff.mp h a (List.mem_of_mem_filter ha)

/-- A step adds different names. -/
theorem Fate.nodup_adds {d : Directive} (hd : d.IsProper) (fate : Fate) : (fate.adds d).Nodup := by
  cases fate with
  | rejected => exact List.nodup_nil
  | wrapped => exact List.nodup_singleton _
  | extended => simpa [Fate.adds] using hd.ne

/-- **The others stay, and what is added comes after them.** -/
theorem Settles.placed {hs : List Handled} {p r : List Attr × Lowering} (h : Settles hs p r)
    (hproper : ∀ x ∈ hs, x.directive.IsProper) :
    ∃ kept added, ordinary r.1 = kept ++ added
      ∧ List.Forall₂ (Keeps (hs.flatMap Handled.wraps)) (ordinary p.1) kept
      ∧ added.map Attr.name? = (hs.flatMap Handled.adds).map some := by
  induction h with
  | done =>
    exact ⟨_, [], (List.append_nil _).symm, List.forall₂_same.mpr fun a _ => .same a, rfl⟩
  | @step d span value before after s fate q r hs _ hexpands _ ih =>
    obtain ⟨hd, hrest⟩ := List.forall_mem_cons.mp hproper
    obtain ⟨kept₁, added₁, hq, hkeeps₁, hnames₁⟩ := hexpands.ordinary hd
    obtain ⟨kept, added, hr, hkeeps, hnames⟩ := ih hrest
    -- What the first step kept and what it added are both kept by the rest of the run.
    rw [hq] at hkeeps
    have hfront := List.forall₂_take kept₁.length hkeeps
    have hback := List.forall₂_drop kept₁.length hkeeps
    rw [List.take_left] at hfront
    rw [List.drop_left] at hback
    refine ⟨kept.take kept₁.length, kept.drop kept₁.length ++ added, ?_, ?_, ?_⟩
    · rw [← List.append_assoc, List.take_append_drop, hr]
    · rw [ordinary_occurrence, List.flatMap_cons]
      have hfirst := hkeeps₁.imp fun _ _ hk =>
        hk.mono (List.subset_append_left _ (hs.flatMap Handled.wraps))
      have hlater := hfront.imp fun _ _ hk =>
        hk.mono (List.subset_append_right (fate.wraps d) _)
      exact forall₂_trans (fun hab hbc => hab.trans hbc) hfirst hlater
    · rw [List.map_append, map_name?_of_keeps hback, hnames₁, hnames, List.flatMap_cons,
        List.map_append]
      rfl

/-- **No name is added twice**, or beside an attribute that has it. -/
theorem Settles.fresh {hs : List Handled} {p r : List Attr × Lowering} (h : Settles hs p r)
    (hproper : ∀ x ∈ hs, x.directive.IsProper) :
    (hs.flatMap Handled.adds).Nodup
      ∧ ∀ n ∈ hs.flatMap Handled.adds, Attrs.has (ordinary p.1) n = false := by
  induction h with
  | done => exact ⟨List.nodup_nil, fun _ hn => nomatch hn⟩
  | @step d span value before after s fate q r hs _ hexpands _ ih =>
    obtain ⟨hd, hrest⟩ := List.forall_mem_cons.mp hproper
    obtain ⟨hnodup, hfree⟩ := ih hrest
    -- What is added later is neither there before the first step nor added by it.
    have hlater : ∀ n ∈ hs.flatMap Handled.adds,
        Attrs.has (Bind.ordinary (before ++ after)) n = false ∧ n ∉ fate.adds d := by
      intro n hn
      have hnot := has_eq_false_iff_notMem.mp (hfree n hn)
      rw [hexpands.names hd, List.mem_append, not_or] at hnot
      exact ⟨has_eq_false_iff_notMem.mpr hnot.1, fun hadds => hnot.2 (List.mem_map_of_mem hadds)⟩
    rw [ordinary_occurrence, List.flatMap_cons]
    constructor
    · exact List.nodup_append'.mpr
        ⟨fate.nodup_adds hd, hnodup, fun n hn hn' => (hlater n hn').2 hn⟩
    · intro n hn
      rcases List.mem_append.mp hn with hn | hn
      · exact has_ordinary (hexpands.free n hn)
      · exact (hlater n hn).1

/-! ## All directives of an element -/

/-- The directives that no form control defines, with their occurrences. -/
def customs (as : List Attr) : List (Directive × Attr) :=
  as.filterMap fun a => (directiveName? a).map fun n => (customDirective n, a)

/-- The occurrences of directives in the order in which they are expanded: the first one that a form
control defines, then all others as they are written. -/
def schedule (tag : String) (as : List Attr) : List (Directive × Attr) :=
  match formDirective? tag as with
  | none => customs as
  | some d =>
    match as.find? (·.isNamed d.text) with
    | none => customs as
    | some a => (d, a) :: customs (as.eraseP (·.isNamed d.text))

/-- The directives of an element are read off its attributes that are directives. -/
theorem customs_filter (as : List Attr) : customs (as.filter isDirective) = customs as := by
  induction as with
  | nil => rfl
  | cons a as ih =>
    unfold customs at ih ⊢
    cases ha : directiveName? a with
    | none =>
      rw [List.filter_cons_of_neg (by simp [isDirective, ha]), ih,
        List.filterMap_cons_none (by rw [ha]; rfl)]
    | some n =>
      rw [List.filter_cons_of_pos (by simp [isDirective, ha]),
        List.filterMap_cons_some (by rw [ha]; rfl), List.filterMap_cons_some (by rw [ha]; rfl), ih]

/-- They are those by name, in order. -/
theorem map_fst_customs (as : List Attr) :
    (customs as).map Prod.fst = (as.filterMap directiveName?).map customDirective := by
  rw [customs, List.map_filterMap, List.map_filterMap]
  refine congrArg (List.filterMap · as) (funext fun a => ?_)
  cases directiveName? a <;> rfl

/-- Each comes with its attribute. -/
theorem map_snd_customs (as : List Attr) : (customs as).map Prod.snd = as.filter isDirective := by
  rw [customs, List.map_filterMap, ← List.filterMap_eq_filter]
  refine congrArg (List.filterMap · as) (funext fun a => ?_)
  cases h : directiveName? a <;> simp [Option.guard, isDirective, h]

/-- Each of them is proper, if the attributes are readable. -/
theorem isProper_of_mem_customs {as : List Attr} (hread : ∀ a ∈ as, Readable a)
    {x : Directive × Attr} (hx : x ∈ customs as) : x.1.IsProper := by
  obtain ⟨a, ha, hx⟩ := List.mem_filterMap.mp hx
  obtain ⟨n, hn, rfl⟩ := Option.map_eq_some_iff.mp hx
  exact isProper_customDirective fun m => (hread a ha).name n m hn

/-- The attributes beside one are readable if all are. -/
theorem readable_others {before after : List Attr} {a : Attr}
    (hread : ∀ b ∈ before ++ a :: after, Readable b) : ∀ b ∈ before ++ after, Readable b := by
  intro b hb
  refine hread b ?_
  simp only [List.mem_append, List.mem_cons] at hb ⊢
  exact hb.imp id .inr

/-- **Directives that are all written in order are settled.** By induction on the directives that
are left: the next one is the first of its name, and expanding it leaves the ones after it. -/
theorem settles_customs (c : LoweringSetting) {rest as : List Attr} (s : Lowering)
    (hrest : as.filter isDirective = rest) (hread : ∀ a ∈ as, Readable a) :
    ∃ hs, hs.map (fun h => (h.directive, h.attr)) = customs rest
      ∧ Settles hs (as, s) (expandAll ((customs rest).map Prod.fst) as c s)
      ∧ ∀ a ∈ (expandAll ((customs rest).map Prod.fst) as c s).1, isDirective a = false := by
  induction rest generalizing as s with
  | nil =>
    exact ⟨[], rfl, .done, fun a ha => by simpa using List.filter_eq_nil_iff.mp hrest a ha⟩
  | cons a rest ih =>
    obtain ⟨before, after, rfl, hbefore, ha, hafter⟩ := List.filter_eq_cons_iff.mp hrest
    obtain ⟨n, hn⟩ := Option.isSome_iff_exists.mp ha
    obtain ⟨span, value, rfl⟩ := eq_of_directiveName? hn
    have hproper : (customDirective n).IsProper := isProper_customDirective fun m =>
      (hread _ (List.mem_append_right _ List.mem_cons_self)).name n m hn
    have hothers := readable_others hread
    have hfirst : Attrs.has before (customDirective n).text = false := by
      refine Attrs.has_eq_false_iff.mpr fun b hb => Bool.eq_false_iff.mpr fun hnamed => ?_
      have hdirective := (hothers b (List.mem_append_left _ hb)).directive n hnamed
      exact hbefore b hb (by rw [isDirective, hdirective]; rfl)
    obtain ⟨fate, hexpands⟩ := expand_occurrence c span value s hfirst after hproper.ne
    have hleft := hexpands.directives hproper
    rw [List.filter_append, List.filter_eq_nil_iff.mpr hbefore, List.nil_append, hafter] at hleft
    obtain ⟨hs, hmap, hsettles, hnone⟩ := ih _ hleft (hexpands.readable hproper hothers)
    exact ⟨⟨customDirective n, _, fate⟩ :: hs, by rw [List.map_cons, hmap]; rfl,
      .step hfirst hexpands hsettles, hnone⟩

/-- A form control defines no directive that is there, and the directives are expanded as they are
written; or it defines one, whose first occurrence is expanded before the others. -/
theorem schedule_cases (tag : String) {as : List Attr} (hread : ∀ a ∈ as, Readable a) :
    (schedule tag as = customs as
        ∧ ∀ c s, expandAll (formDirective? tag as).toList as c s = (as, s))
      ∨ ∃ d before span value after, as = before ++ d.occurrence span value :: after
        ∧ d.IsProper ∧ Attrs.has before d.text = false
        ∧ schedule tag as = (d, d.occurrence span value) :: customs (before ++ after)
        ∧ ∀ c s, expandAll (formDirective? tag as).toList as c s = expand d as c s := by
  unfold schedule
  cases hform : formDirective? tag as with
  | none => exact .inl ⟨rfl, fun _ _ => rfl⟩
  | some d =>
    cases hfind : as.find? (·.isNamed d.text) with
    | none =>
      have hnone : Attrs.has as d.text = false := Attrs.has_eq_false_iff.mpr fun a ha =>
        Bool.eq_false_iff.mpr (List.find?_eq_none.mp hfind a ha)
      have hexpand : ∀ c s, expand d as c s = (as, s) := by
        intro c s
        unfold expand
        rw [Attrs.get?_eq_none hnone]
        rfl
      exact .inl ⟨by simp only [hfind], hexpand⟩
    | some a =>
      -- The first occurrence is taken out of turn; the others keep theirs.
      obtain ⟨hnamed, before, after, rfl, hbefore⟩ := List.find?_eq_some_iff_append.mp hfind
      have hbefore' : ∀ b ∈ before, b.isNamed d.text = false := by simpa using hbefore
      have hdirective := (hread a (List.mem_append_right _ List.mem_cons_self)).directive _ hnamed
      obtain ⟨span, value, rfl⟩ := eq_of_directiveName? hdirective
      refine .inr ⟨d, before, span, value, after, rfl, isProper_of_formDirective? hform,
        Attrs.has_eq_false_iff.mpr hbefore', ?_, fun _ _ => rfl⟩
      simp only [hfind]
      rw [List.eraseP_append_right _ (by simpa using hbefore), List.eraseP_cons_of_pos hnamed]
      rfl

/-- The directives that are left after the one of a form control are expanded as written. -/
theorem lowerAttrs_eq {tag : String} {as : List Attr} {c : LoweringSetting} {s : Lowering}
    {p : List Attr × Lowering} (h : expandAll (formDirective? tag as).toList as c s = p) :
    lowerAttrs tag as c s
      = expandAll ((customs (p.1.filter isDirective)).map Prod.fst) p.1 c p.2 := by
  subst h
  rw [customs_filter, map_fst_customs]
  rfl

/-- **Every directive of an element is proper**, that of its form first. -/
theorem isProper_of_mem_schedule {tag : String} {as : List Attr} (hread : ∀ a ∈ as, Readable a)
    {x : Directive × Attr} (hx : x ∈ schedule tag as) : x.1.IsProper := by
  rcases schedule_cases tag hread with
    ⟨hschedule, -⟩ | ⟨d, before, span, value, after, rfl, hd, -, hschedule, -⟩
  · exact isProper_of_mem_customs hread (hschedule ▸ hx)
  · rw [hschedule] at hx
    rcases List.mem_cons.mp hx with rfl | hx
    · exact hd
    · exact isProper_of_mem_customs (readable_others hread) hx

/-- Each occurrence is scheduled once. -/
theorem schedule_perm (tag : String) {as : List Attr} (hread : ∀ a ∈ as, Readable a) :
    ((schedule tag as).map Prod.snd).Perm (as.filter isDirective) := by
  rcases schedule_cases tag hread with
    ⟨hschedule, -⟩ | ⟨d, before, span, value, after, rfl, -, -, hschedule, -⟩
  · rw [hschedule, map_snd_customs]
  · rw [hschedule, List.map_cons, map_snd_customs, List.filter_append, List.filter_append,
      List.filter_cons_of_pos rfl]
    exact List.perm_middle.symm

/-- **All directives are settled**, and none is left. -/
theorem settles_lowerAttrs (tag : String) (c : LoweringSetting) {as : List Attr} (s : Lowering)
    (hread : ∀ a ∈ as, Readable a) :
    ∃ hs, hs.map (fun h => (h.directive, h.attr)) = schedule tag as
      ∧ Settles hs (as, s) (lowerAttrs tag as c s)
      ∧ ∀ a ∈ (lowerAttrs tag as c s).1, isDirective a = false := by
  rcases schedule_cases tag hread with
    ⟨hschedule, hfirst⟩ | ⟨d, before, span, value, after, rfl, hd, hbefore, hschedule, hfirst⟩
  · rw [lowerAttrs_eq (hfirst c s), hschedule, ← customs_filter]
    exact settles_customs c s rfl hread
  · obtain ⟨fate, hexpands⟩ := expand_occurrence c span value s hbefore after hd.ne
    have hleft := hexpands.directives hd
    obtain ⟨hs, hmap, hsettles, hnone⟩ := settles_customs c _ hleft
      (hexpands.readable hd (readable_others hread))
    rw [lowerAttrs_eq (hfirst c s), hschedule, hleft]
    refine ⟨⟨d, d.occurrence span value, fate⟩ :: hs, ?_, .step hbefore hexpands hsettles, hnone⟩
    rw [List.map_cons, hmap, customs_filter]

/-- What handled occurrences say of the attributes and the state before and after: each occurrence
is handled once, in the order of the schedule, and with the effect of one step. No directive is
left. The other attributes stay in order, but for handlers that are wrapped. What is added comes
after them, under names that differ and that none of them has. -/
structure Accounts (tag : String) (hs : List Handled) (p r : List Attr × Lowering) : Prop where
  scheduled : hs.map (fun h => (h.directive, h.attr)) = schedule tag p.1
  once : (hs.map Handled.attr).Perm (p.1.filter isDirective)
  settled : Settles hs p r
  gone : ∀ a ∈ r.1, isDirective a = false
  placed : ∃ kept added, r.1 = kept ++ added
    ∧ List.Forall₂ (Keeps (hs.flatMap Handled.wraps)) (ordinary p.1) kept
    ∧ added.map Attr.name? = (hs.flatMap Handled.adds).map some
  distinct : (hs.flatMap Handled.adds).Nodup
  free : ∀ n ∈ hs.flatMap Handled.adds, Attrs.has (ordinary p.1) n = false

/-- **Every directive has one outcome.** It is rejected with one report, or adds its attribute and
wraps or adds one handler, and nothing else changes. -/
theorem every_directive_settled (tag : String) (attrs : List Attr) (c : LoweringSetting)
    (s : Lowering) (hwritten : ∀ a ∈ attrs, a.IsWritten) :
    ∃ hs, Accounts tag hs (attrs, s) (lowerAttrs tag attrs c s) := by
  have hreadable : ∀ a ∈ attrs, Readable a := fun a ha => readable_of_isWritten (hwritten a ha)
  obtain ⟨hs, hmap, hsettles, hleft⟩ := settles_lowerAttrs tag c s hreadable
  have hproper : ∀ x ∈ hs, x.directive.IsProper := by
    intro x hx
    have hscheduled : (x.directive, x.attr) ∈ schedule tag attrs := hmap ▸ List.mem_map_of_mem hx
    exact isProper_of_mem_schedule hreadable hscheduled
  have hperm : (hs.map Handled.attr).Perm (attrs.filter isDirective) := by
    have hsnd := congrArg (List.map Prod.snd) hmap
    rw [List.map_map] at hsnd
    exact (List.Perm.of_eq hsnd).trans (schedule_perm tag hreadable)
  have hall : ordinary (lowerAttrs tag attrs c s).1 = (lowerAttrs tag attrs c s).1 :=
    List.filter_eq_self.mpr fun a ha => by rw [hleft a ha]; rfl
  obtain ⟨kept, added, hresult, hkeeps, hnames⟩ := hsettles.placed hproper
  obtain ⟨hnodup, hfree⟩ := hsettles.fresh hproper
  exact ⟨hs, hmap, hperm, hsettles, hleft, ⟨kept, added, hall ▸ hresult, hkeeps, hnames⟩, hnodup,
    hfree⟩

/-- A text field whose directives repeat a name, share an event, have no value and conflict. -/
theorem every_directive_settled_field :
    let bound (name target : String) : Attr :=
      .named .none (.namespaced "bind" name) (.container .none (some (.ident .none target)))
    let attrs : List Attr := [bound "x" "a", Build.attr .none "onChange" (.ident .none "f"),
      bound "value" "b", .named .none (.plain "title") (.string "t"), bound "value" "c",
      bound "X" "d", .named .none (.namespaced "bind" "y") .absent, bound "title" "e"]
    let c : LoweringSetting := ⟨{}, []⟩
    let s : Lowering := ⟨Header.ofModule ⟨[], []⟩, .empty, [], []⟩
    (∀ a ∈ attrs, a.IsWritten)
      ∧ (∃ hs, Accounts "input" hs (attrs, s) (lowerAttrs "input" attrs c s))
      ∧ (lowerAttrs "input" attrs c s).1.map Attr.name?
        = [some "onChange", some "title", some "value", some "x", some "onXChange", some "X"]
      ∧ (lowerAttrs "input" attrs c s).2.diagnostics.map Diagnostic.cause
        = [.conflictingDirective "bind:value" "value", .redundantHandler "onXChange" "bind:X",
          .unboundDirective "bind:y", .conflictingDirective "bind:title" "title"] := by
  intro bound attrs c s
  have hwritten : ∀ a ∈ attrs, a.IsWritten := by
    simp [attrs, bound, Build.attr, Attr.IsWritten]
  exact ⟨hwritten, every_directive_settled "input" attrs c s hwritten, by decide +kernel,
    by decide +kernel⟩

end Bind

end JsxDialect
