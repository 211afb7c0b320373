import JsxDialect.Element.Attribute
import JsxDialect.Element.Binder
import JsxDialect.Element.Children
import JsxDialect.Element.Tag
import JsxDialect.Lower.State
import JsxDialect.Syntax.Build

/-!
# Control flow

The tags of control flow become expressions. The children of an element are lowered before the
element itself, so control flow inside it is already in containers.
-/

namespace JsxDialect

/-- The tag of control flow that an element has. -/
def Element.control? (e : Element) : Option ControlTag :=
  ControlTag.ofText? e.name.text

/-- The children of an element as one expression. -/
def Element.childrenExpr (e : Element) : Expr :=
  JsxDialect.childrenExpr e.span e.children

namespace ControlFlow

/-- The value of an attribute that an element has to have, and the element without it. If it is
missing, that is reported and `undefined` stands for the value. -/
def required (tag name : String) (e : Element) : Lower (Expr × Element) := do
  match Attrs.get? e.attrs name with
  | some (span, value) => return (value.toExpr span, e.withAttrs (Attrs.erase e.attrs name))
  | none =>
    Lower.report e.openSpan (.missingAttribute tag name)
    return (Build.undefined e.span, e)

/-- The names that an `as` attribute binds; entries that are no identifiers are reported. -/
def binderParams (span : Span) (value : AttrValue) : Lower (List String) := do
  match value.expr? with
  | none =>
    Lower.report span .binderListMissing
    return []
  | some e =>
    Lower.reportAll .asBinder (rejectedSpans e)
    return binderNames e

/-! ## Conditions -/

/-- The branches of a chain with their conditions, and the children of its `else`. -/
def lowerBranches : List Element → Lower (List (Expr × Expr) × Option Expr)
  | [] => return ([], none)
  | e :: es => do
    match e.control? with
    | some .else =>
      let (branches, fallback) ← lowerBranches es
      return (branches, fallback.orElse fun _ => some e.childrenExpr)
    | tag =>
      let (condition, e) ← required e.name.text "condition" e
      let condition :=
        if tag == some .unless then .unary condition.span .not condition else condition
      let (branches, fallback) ← lowerBranches es
      return ((condition, e.childrenExpr) :: branches, fallback)

/-- Nested conditional expressions. -/
def conditionals (span : Span) (branches : List (Expr × Expr)) (fallback : Expr) : Expr :=
  branches.foldr (fun (condition, e) rest => .conditional span condition e rest) fallback

/-- An `if` or `unless` with the elements that continue it. -/
def lowerIf (head : Element) (rest : List Element) : Lower Expr := do
  let (branches, fallback) ← lowerBranches (head :: rest)
  return conditionals head.span branches (fallback.getD (.null head.span))

/-! ## Choices -/

/-- The cases of a `switch`, and the children of its last default. The first element that is no arm
ends them. -/
def lowerArms : List Child → Lower (List SwitchCase × Option Expr)
  | [] => return ([], none)
  | .element arm :: cs => do
    match ArmTag.ofText? arm.name.text with
    | some .case =>
      let (test, arm) ← required arm.name.text "value" arm
      let (cases, fallback) ← lowerArms cs
      return (.mk (some test) [.return (some arm.childrenExpr)] :: cases, fallback)
    | some .default =>
      let (cases, fallback) ← lowerArms cs
      return (cases, fallback.orElse fun _ => some arm.childrenExpr)
    | none => return ([], none)
  | _ :: cs => lowerArms cs

/-- A `switch`, as a function that is called at once. -/
def lowerSwitch (e : Element) : Lower Expr := do
  let (discriminant, e) ← required "switch" "condition" e
  let (cases, fallback) ← lowerArms e.children
  return Build.invoked e.span
    [.switch discriminant cases, .return (some (fallback.getD (.null e.span)))]

/-! ## Repetitions -/

/-- The names of the binders of a `for` attribute; entries that are no identifiers are reported. -/
def repeatParams : List Expr → Lower (List String)
  | [] => return []
  | e :: es => do
    match binderName? e with
    | some name => return name :: (← repeatParams es)
    | none =>
      Lower.report e.inner.span .repeatBinder
      repeatParams es

/-- The parameters and the collection of a `repeat`. -/
def repeatHead (e : Element) : Lower (List String × Expr) := do
  match Attrs.get? e.attrs "for" with
  | some (span, value) =>
    match splitFor? (value.toExpr span) with
    | some (binders, collection) => return (← repeatParams binders, collection)
    | none =>
      Lower.report span .malformedFor
      return ([], Build.undefined span)
  | none =>
    let params ← (do
      match Attrs.get? e.attrs "as" with
      | some (span, value) => binderParams span value
      | none =>
        Lower.report e.openSpan .unnamedItems
        return [] : Lower (List String))
    let (collection, _) ← required "repeat" "collection" e
    return (params, collection)

/-- The children that are elements. -/
def elementsOf (children : List Child) : List Element :=
  children.filterMap fun
    | .element e => some e
    | _ => none

/-- Whether children have one element, and that one has no key. -/
def wantsKey (children : List Child) : Bool :=
  match elementsOf children with
  | [e] => !Attrs.has e.attrs "key"
  | _ => false

/-- The children with an attribute added to each element. -/
def addAttr (a : Attr) (children : List Child) : List Child :=
  children.map fun
    | .element e => .element (e.withAttrs (e.attrs ++ [a]))
    | c => c

/-- At least two parameters: an item and its index. -/
def withIndex (params : List String) : Lower (List String × String) := do
  match params with
  | item :: index :: rest => return (item :: index :: rest, index)
  | [item] =>
    let index ← Lower.ask (·.paramName "index")
    return ([item, index], index)
  | [] =>
    let item ← Lower.ask (·.paramName "item")
    let index ← Lower.ask (·.paramName "index")
    return ([item, index], index)

/-- `collection ? (collection.mapToArray || collection.map).call(collection, mapper) : null`. -/
def mapped (span : Span) (collection mapper : Expr) : Expr :=
  let method := Build.either span (Build.member span collection "mapToArray")
    (Build.member span collection "map")
  let callee := Build.member span (.paren span method) "call"
  .conditional span collection (Build.call span callee [collection, mapper]) (.null span)

/-- A `repeat`: a function mapped over the collection. Contents that are one element get a key. -/
def lowerRepeat (e : Element) : Lower Expr := do
  let (params, collection) ← repeatHead e
  if wantsKey e.children then
    let (params, index) ← withIndex params
    let children := addAttr (Build.attr e.span "key" (.ident e.span index)) e.children
    Lower.report e.span (.addedKey index)
    return mapped e.span collection (Build.arrow e.span params (childrenExpr e.span children))
  else
    return mapped e.span collection (Build.arrow e.span params e.childrenExpr)

/-! ## Names for values and groups -/

/-- A `using`: a function called at once that names the value for the children. -/
def lowerUsing (e : Element) : Lower Expr := do
  let (value, e) ← required "using" "value" e
  let names ← (do
    match Attrs.get? e.attrs "as" with
    | some (span, value) => binderParams span value
    | none => return [] : Lower (List String))
  match names with
  | [] =>
    Lower.report e.openSpan .unnamedValue
    return Build.undefined e.span
  | name :: _ =>
    let guarded := .conditional e.span (.ident e.span name) e.childrenExpr (.null e.span)
    return Build.invoked e.span [Build.declare .const name value, .return (some guarded)]

/-- The children with a key on each element: its position among the elements, from `position` on,
unless it has a key. -/
def keyed (position : Nat) : List Child → List Child
  | [] => []
  | .element e :: cs =>
    let e :=
      if Attrs.has e.attrs "key" then e
      else e.withAttrs (e.attrs ++ [Build.stringAttr e.span "key" (toString position)])
    .element e :: keyed (position + 1) cs
  | c :: cs => c :: keyed position cs

/-- A group: the array of its children, with keys. -/
def lowerGroup (e : Element) : Expr :=
  .array e.span (childExprs (keyed 0 e.children))

/-- An element of control flow that stands alone. Without an `if` before it, an `else` shows
nothing. -/
def lowerAlone (tag : ControlTag) (e : Element) : Lower Expr :=
  match tag with
  | .if | .unless => lowerIf e []
  | .elseIf | .else => return .null e.span
  | .switch => lowerSwitch e
  | .repeat => lowerRepeat e
  | .using => lowerUsing e
  | .group => return lowerGroup e

end ControlFlow

end JsxDialect
