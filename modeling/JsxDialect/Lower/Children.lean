import JsxDialect.Lower.ControlFlow
import JsxDialect.Text.Case

/-!
# Children of an element

Named children `<Parent:slot>` become attributes of their parent. Among the others, elements of
control flow are replaced by containers: an `if` takes the `elseif` and `else` elements that follow
it, and those that no `if` takes are dropped.
-/

namespace JsxDialect

namespace NamedChild

/-- The slot that a child is for, if it is a named child of the parent with the given tag. -/
def slot? (parent : String) : Child → Option (String × Element)
  | .element e =>
    match e.name with
    | .namespaced space name => if space == parent then some (name, e) else none
    | _ => none
  | _ => none

/-- The name of the attribute for a slot. -/
def attrName (parent slot : String) : String :=
  String.ofList (Text.lowerCase parent.toList) ++ "_" ++ slot

/-- The value of a slot: its children, as a render function if it names what they are given. -/
def value (e : Element) : Lower Expr := do
  match Attrs.get? e.attrs "as" with
  | some (span, list) =>
    let params ← ControlFlow.binderParams span list
    return Build.arrow e.span params e.childrenExpr
  | none => return e.childrenExpr

/-- The value of a slot after one more child for it: repeated slots are collected in an array. -/
def collect (span : Span) (previous value : Expr) : Expr :=
  match previous with
  | .array inside es => .array inside (es ++ [value])
  | other => .array span [other, value]

/-- The attributes with the value of a slot. -/
def add (name : String) (span : Span) (value : Expr) (attrs : List Attr) : List Attr :=
  match Attrs.get? attrs name with
  | some (attrSpan, previous) =>
    Attrs.set attrs name
      (.container attrSpan (some (collect span (previous.toExpr attrSpan) value)))
  | none => attrs ++ [Build.attr span name value]

/-- Moves the named children into the attributes of their parent. -/
def hoist (parent : String) (attrs : List Attr) : List Child → Lower (List Attr × List Child)
  | [] => return (attrs, [])
  | c :: cs => do
    match slot? parent c with
    | some (slot, e) =>
      let value ← value e
      hoist parent (add (attrName parent slot) e.span value attrs) cs
    | none =>
      let (attrs, children) ← hoist parent attrs cs
      return (attrs, c :: children)

end NamedChild

namespace ControlFlow

/-- A child with what is to become of it. -/
inductive Slot where
  /-- No control flow. -/
  | keep (child : Child)
  /-- An `elseif` or `else`. -/
  | branch (isLast : Bool) (element : Element)
  /-- An `if` or `unless` with the elements that continue it. -/
  | chain (head : Element) (rest : List Element)
  /-- Other control flow. -/
  | single (tag : ControlTag) (element : Element)

/-- The elements that continue an `if` right before the slots, and the slots without them. What is
no element is passed over. -/
def takeBranches : List Slot → List Element × List Slot
  | [] => ([], [])
  | .branch isLast e :: slots =>
    if isLast then ([e], slots)
    else
      let (es, slots) := takeBranches slots
      (e :: es, slots)
  | .keep (.element e) :: slots => ([], .keep (.element e) :: slots)
  | .keep c :: slots =>
    let (es, slots) := takeBranches slots
    (es, .keep c :: slots)
  | .chain head rest :: slots => ([], .chain head rest :: slots)
  | .single tag e :: slots => ([], .single tag e :: slots)

/-- The slots of children. -/
def slots : List Child → List Slot
  | [] => []
  | .element e :: cs =>
    match e.control? with
    | none => .keep (.element e) :: slots cs
    | some .if | some .unless =>
      let (rest, others) := takeBranches (slots cs)
      .chain e rest :: others
    | some .elseIf => .branch false e :: slots cs
    | some .else => .branch true e :: slots cs
    | some tag => .single tag e :: slots cs
  | c :: cs => .keep c :: slots cs

/-- The children that slots become. -/
def lowerSlots : List Slot → Lower (List Child)
  | [] => return []
  | .keep c :: ss => return c :: (← lowerSlots ss)
  | .branch .. :: ss => lowerSlots ss
  | .chain head rest :: ss => do
    let e ← lowerIf head rest
    return .container (some e) :: (← lowerSlots ss)
  | .single tag e :: ss => do
    let e ← lowerAlone tag e
    return .container (some e) :: (← lowerSlots ss)

/-- The children of an element or fragment, without control flow. -/
def lowerChildren (children : List Child) : Lower (List Child) := do
  if (← Lower.options).controlFlow then lowerSlots (slots children) else return children

/-- An element as an expression, without control flow. -/
def lowerExpr (e : Element) : Lower Expr := do
  match e.control? with
  | some tag => if (← Lower.options).controlFlow then lowerAlone tag e else return .element e
  | none => return .element e

/-- An element as the value of an attribute, without control flow. -/
def lowerValue (e : Element) : Lower AttrValue := do
  match e.control? with
  | some tag =>
    if (← Lower.options).controlFlow then return .container e.span (some (← lowerAlone tag e))
    else return .element e
  | none => return .element e

end ControlFlow

end JsxDialect
