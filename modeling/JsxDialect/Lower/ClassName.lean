import JsxDialect.Lower.Style

/-!
# One class attribute

The attributes `class`, `className` and `class-*` of an element and the class names of its spreads
become one `className` attribute, which stands last.
-/

namespace JsxDialect.ClassName

/-- Whether an attribute has class names of its own. -/
def isOwn (a : Attr) : Bool :=
  match a.name? with
  | some name => name == "class" || name == "className" || (Style.suffix? "class-" name).isSome
  | none => false

/-- Whether the attributes of an element have class names to join: own ones, or those of more than
one spread. -/
def fires (attrs : List Attr) : Bool :=
  0 < attrs.countP isOwn || 1 < attrs.countP Style.isSpread

/-- What has been gathered: the other attributes, the span of the first attribute with class names
of its own, and the arguments of the helper. -/
structure Gathered where
  kept : List Attr
  place : Option Span
  arguments : List Expr

/-- The argument for a `class-*` attribute: its token, on the condition that it may have. -/
def conditional (span : Span) (token : String) : AttrValue → Expr
  | .absent => .string span token
  | value => .logical span .and (value.toExpr span) (.string span token)

/-- Gathers one more attribute. -/
def gather (g : Gathered) : Attr → Gathered
  | .spread span e =>
    let argument := Build.either span (Build.member span e "className") (.string span "")
    { g with kept := g.kept ++ [.spread span e], arguments := g.arguments ++ [argument] }
  | .named span name value =>
    if name.text == "class" || name.text == "className" then
      { g with
        place := some (g.place.getD span)
        arguments := g.arguments ++ [value.toExpr span] }
    else
      match Style.suffix? "class-" name.text with
      | some token =>
        { g with
          place := some (g.place.getD span)
          arguments := g.arguments ++ [conditional span token value] }
      | none => { g with kept := g.kept ++ [.named span name value] }

/-- The attributes of an element with one `className` attribute. -/
def lowerAttrs (elementSpan : Span) (attrs : List Attr) : Lower (List Attr) := do
  if fires attrs then
    let g := attrs.foldl gather ⟨[], none, []⟩
    let span := g.place.getD elementSpan
    let name ← Lower.helper .classes
    return g.kept ++ [Build.attr span "className" (Build.call span (.ident span name) g.arguments)]
  else
    return attrs

end JsxDialect.ClassName
