import JsxDialect.Element.Attribute
import JsxDialect.Element.Tag
import JsxDialect.Lower.State
import JsxDialect.Syntax.Build
import JsxDialect.Text.Case

/-!
# Two-way bindings

`bind:name={target}` becomes an attribute `name={target}` and a handler that assigns what the user
enters back to the target. A handler that is already there runs first. A directive that cannot be
expanded is reported and dropped.
-/

namespace JsxDialect.Bind

/-- How the new value is read from what the handler gets. -/
inductive Template where
  /-- The target is negated. -/
  | checked
  /-- The value of the target of the event. -/
  | value
  /-- What the handler gets is the value. -/
  | custom
deriving Repr, DecidableEq

/-- The hint for the parameter of the handler. -/
def Template.hint : Template → String
  | .checked | .value => "ev"
  | .custom => "val"

/-- The new value. -/
def Template.read (span : Span) (param : String) (target : Expr) : Template → Expr
  | .checked => .unary span .not target
  | .value => Build.member span (Build.member span (.ident span param) "target") "value"
  | .custom => .ident span param

/-- A directive: the attribute it makes, the event it listens to and how the value is read. -/
structure Directive where
  name : String
  event : String
  template : Template

/-- The name of a directive as it is written. -/
def Directive.text (d : Directive) : String :=
  "bind:" ++ d.name

/-- Whether a handler is a function that does nothing but assign. -/
def isAssigning (handler : Expr) : Bool :=
  match handler.inner with
  | .arrow _ (.mk _ _ _ _ _ _ _ _ (.expr e)) => isAssignment e
  | .arrow _ (.mk _ _ _ _ _ _ _ _ (.block _ [.expr e])) => isAssignment e
  | _ => false
where
  /-- Whether an expression is an assignment. -/
  isAssignment (e : Expr) : Bool :=
    match e.inner with
    | .assign .. => true
    | _ => false

/-- Why a directive with a value is dropped, given the other attributes. -/
def refusal? (d : Directive) (value : AttrValue) (others : List Attr) : Option Cause :=
  match value.expr? with
  | none => some (.unboundDirective d.text)
  | some target =>
    if target.target?.isNone then some (.unassignable d.text)
    else if Attrs.has others d.name then some (.conflictingDirective d.text d.name)
    else none

/-- The attributes with the handler of a directive: in place around the handler that is there, or
as one more attribute. -/
def addHandler (d : Directive) (span : Span) (param : String) (assignment : Expr)
    (attrs : List Attr) : Lower (List Attr) := do
  match Attrs.get? attrs d.event with
  | some (handlerSpan, value) =>
    let handler := value.toExpr handlerSpan
    let composed := Build.arrow span [param]
      (.sequence span [Build.call span handler [.ident span param], assignment])
    if isAssigning handler then Lower.report handlerSpan (.redundantHandler d.event d.text)
    return Attrs.set attrs d.event (.container handlerSpan (some composed))
  | none => return attrs ++ [Build.attr span d.event (Build.arrow span [param] assignment)]

/-- Expands the first occurrence of a directive. -/
def expand (d : Directive) (attrs : List Attr) : Lower (List Attr) := do
  match Attrs.get? attrs d.text with
  | none => return attrs
  | some (span, value) =>
    let others := Attrs.erase attrs d.text
    match refusal? d value others, value.expr? with
    | some cause, _ =>
      Lower.report span cause
      return others
    | none, some target =>
      let param ← Lower.ask (·.paramName d.template.hint)
      let place := target.target?.getD (.target target)
      let assignment := Build.assign span place (d.template.read span param target)
      addHandler d span param assignment (others ++ [Build.attr span d.name target])
    | none, none => return others

/-- The directive that a form control itself offers, given the type of an input. -/
def formDirective? (tag : String) (attrs : List Attr) : Option Directive :=
  let type := (Attrs.get? attrs "type").bind fun (_, value) => value.string?
  match FormTag.ofText? tag, type with
  | none, _ => none
  | some .select, _ => some ⟨"value", "onChange", .value⟩
  | some _, some "radio" | some _, some "checkbox" => some ⟨"checked", "onChange", .checked⟩
  | some _, some "submit" | some _, some "reset" | some _, some "button" => none
  | some _, _ => some ⟨"value", "onChange", .value⟩

/-- The directive of a name that no form control defines. -/
def customDirective (name : String) : Directive :=
  ⟨name, "on" ++ String.ofList (Text.capitalize name.toList) ++ "Change", .custom⟩

/-- The name after `bind:`, if an attribute is a directive. -/
def directiveName? : Attr → Option String
  | .named _ (.namespaced "bind" name) _ => some name
  | _ => none

/-- Expands directives one after the other. -/
def expandAll : List Directive → List Attr → Lower (List Attr)
  | [], attrs => return attrs
  | d :: ds, attrs => do expandAll ds (← expand d attrs)

/-- The attributes of an element with its directives expanded: first the one that a form control
defines, then all that are left. -/
def lowerAttrs (tag : String) (attrs : List Attr) : Lower (List Attr) := do
  let attrs ← expandAll (formDirective? tag attrs).toList attrs
  expandAll ((attrs.filterMap directiveName?).map customDirective) attrs

end JsxDialect.Bind
