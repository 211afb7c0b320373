import JsxDialect.Syntax.Inner

/-!
# Attributes of an element

Finding attributes by name and the expressions they stand for. Of several attributes with one name
the first one counts.
-/

namespace JsxDialect

/-- The name of an attribute; a spread has none. -/
def Attr.name? : Attr → Option String
  | .named _ name _ => some name.text
  | .spread .. => none

/-- Whether an attribute has a name. -/
def Attr.isNamed (name : String) (a : Attr) : Bool :=
  a.name? == some name

namespace Attrs

/-- Whether an attribute of the name is there. -/
def has (attrs : List Attr) (name : String) : Bool :=
  attrs.any (·.isNamed name)

/-- The span and value of the first attribute of the name. -/
def get? : List Attr → String → Option (Span × AttrValue)
  | [], _ => none
  | .named span n value :: as, name => if n.text == name then some (span, value) else get? as name
  | .spread .. :: as, name => get? as name

/-- The list without the first attribute of the name. -/
def erase : List Attr → String → List Attr
  | [], _ => []
  | .named span n value :: as, name =>
    if n.text == name then as else .named span n value :: erase as name
  | .spread span e :: as, name => .spread span e :: erase as name

/-- The list with another value for the first attribute of the name. -/
def set : List Attr → String → AttrValue → List Attr
  | [], _, _ => []
  | .named span n value :: as, name, new =>
    if n.text == name then .named span n new :: as else .named span n value :: set as name new
  | .spread span e :: as, name, new => .spread span e :: set as name new

end Attrs

namespace AttrValue

/-- The expression in the container that a value is. -/
def expr? : AttrValue → Option Expr
  | .container _ e => e
  | _ => none

/-- The text of a value that is a string. -/
def string? : AttrValue → Option String
  | .string s => some s
  | _ => none

/-- The expression that a value evaluates to. An attribute without a value is true. -/
def toExpr (span : Span) : AttrValue → Expr
  | .absent => .bool span true
  | .string s => .string span s
  | .container _ (some e) => e
  | .container _ none => .bool span true
  | .element e => .element e
  | .fragment span children => .fragment span children

end AttrValue

end JsxDialect
