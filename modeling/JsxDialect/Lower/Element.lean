import JsxDialect.Lower.Bind
import JsxDialect.Lower.Children
import JsxDialect.Lower.ClassName
import JsxDialect.Lower.Controlled
import JsxDialect.Lower.Lift
import JsxDialect.Lower.Reference
import JsxDialect.Lower.Style

/-!
# Elements

What happens to an element after everything inside it has been lowered. Tags of the dialect keep
their attributes, which belong to them; other elements go through the attribute rules in a fixed
order. Then the children are lowered, and last an `as` attribute makes a render function of them.
-/

namespace JsxDialect

/-- Whether a tag is one of control flow or an arm of a `switch`. -/
def isDialectTag (tag : String) : Bool :=
  (ControlTag.ofText? tag).isSome || (ArmTag.ofText? tag).isSome

namespace ElementRule

/-- The names that the attributes of an element bind for what is inside it. -/
def boundNames (name : ElementName) (attrs : List Attr) : List String :=
  let given (attr : String) : Option Expr := (Attrs.get? attrs attr).bind (·.2.expr?)
  let fromFor :=
    if ControlTag.ofText? name.text == some .repeat then ((given "for").map forNames).getD []
    else []
  ((given "as").map binderNames).getD [] ++ fromFor

/-- A rule that applies only under an option. -/
def whenOn (isOn : Options → Bool) (rule : List Attr → Lower (List Attr)) (attrs : List Attr) :
    Lower (List Attr) := do
  if isOn (← Lower.options) then rule attrs else return attrs

/-- The attributes of an ordinary element. -/
def lowerAttrs (span : Span) (tag : String) (attrs : List Attr) : Lower (List Attr) := do
  let attrs ← whenOn (·.styleAttribute) (Style.lowerAttrs span) attrs
  let attrs ← whenOn (·.classAttribute) (ClassName.lowerAttrs span) attrs
  let attrs ← whenOn (·.refAttribute) Reference.lowerAttrs attrs
  let attrs ← whenOn (·.bindAttribute) (Bind.lowerAttrs tag) attrs
  let attrs ← whenOn (·.controlledInput) (Controlled.lowerAttrs tag) attrs
  whenOn (fun o => o.arrowLifting || o.objectLifting) Lift.lowerAttrs attrs

/-- The name of an element, imported if the options list its tag and the module does not bind it. -/
def importName (name : ElementName) : Lower ElementName := do
  if (← get).header.isTopLevel name.text then return name
  match (← Lower.options).autoImport.lookup name.text with
  | some descriptor => return .reference (← Lower.ask (·.addDescriptor descriptor))
  | none => return name

/-- Named children as attributes. -/
def hoistNamed (tag : String) (attrs : List Attr) (children : List Child) :
    Lower (List Attr × List Child) := do
  if (← Lower.options).namedChildren then NamedChild.hoist tag attrs children
  else return (attrs, children)

/-- The children as a render function, if an `as` attribute names what it is given. -/
def lowerAs (e : Element) : Lower Element := do
  match Attrs.get? e.attrs "as" with
  | none => return e
  | some (span, list) =>
    let params ← ControlFlow.binderParams span list
    let render := Build.arrow e.span params e.childrenExpr
    return .mk e.span e.openSpan e.name (Attrs.erase e.attrs "as") [.container (some render)] true

/-- An element whose attributes and children have been lowered. -/
def lower : Element → Lower Element
  | .mk span openSpan name attrs children closed => do
    let tag := name.text
    let isOrdinary := !isDialectTag tag
    let attrs ← if isOrdinary then lowerAttrs span tag attrs else pure attrs
    let name ← if isOrdinary then importName name else pure name
    let (attrs, children) ← hoistNamed tag attrs children
    let children ← ControlFlow.lowerChildren children
    let e := .mk span openSpan name attrs children closed
    if isOrdinary && (← Lower.options).asAttribute then lowerAs e else return e

end ElementRule

end JsxDialect
