import JsxDialect.Element.Attribute
import JsxDialect.Lower.State
import JsxDialect.Number.Decimal
import JsxDialect.Style.Merge
import JsxDialect.Syntax.Build
import JsxDialect.Token.Scan

/-!
# One style attribute

The attributes `style` and `style-*` of an element and the styles of its spreads become one `style`
attribute. It stands where the first `style` stood, and every spread before it, so that no spread
can override what already contains its style.
-/

namespace JsxDialect.Style

/-! ## Sources -/

/-- The text after the given beginning, if the name has it. -/
def suffix? (start name : String) : Option String :=
  if start.toList.isPrefixOf name.toList then
    some (String.ofList (name.toList.drop start.length))
  else none

/-- The name of a key that is no computed one. -/
def staticName? : Key → Option String
  | .ident name => some name
  | .string value => some value
  | .number value => some (String.ofList value.toText)
  | .bigint raw => some raw
  | .privateName _ => none
  | .computed _ => none

/-- A plain property with a static name, named in camel case. -/
def plainProperty? : Property → Option (String × Expr)
  | .field k value _ => (staticName? k).map fun name => (camelCase name, value)
  | _ => none

/-- The properties of an object literal, if all are plain and no two have the same name. -/
def plainProperties? (properties : List Property) : Option (List (String × Expr)) :=
  match properties.mapM plainProperty? with
  | some entries => if (entries.map (·.1)).Nodup then some entries else none
  | none => none

/-- The declarations of a text as properties. -/
def declared (span : Span) (source : String) : Item :=
  .properties ((parse source).map fun (key, value) => (key, .string span value))

/-- The source of styles that an expression is. -/
def itemOfExpr (e : Expr) : Item :=
  match e with
  | .string span s => if looksLikeCss s then declared span s else .dynamic e
  | .template span [raw] [] =>
    match Token.cooked? raw with
    | some s => if looksLikeCss s then declared span s else .dynamic e
    | none => .dynamic e
  | .object _ properties =>
    match plainProperties? properties with
    | some entries => .properties entries
    | none => .dynamic e
  | _ => .dynamic e

/-- The source of styles that the value of a `style` attribute is. -/
def itemOfValue (span : Span) : AttrValue → Item
  | .container _ (some e) => itemOfExpr e.inner
  | .container _ none => .properties []
  | value => itemOfExpr (value.toExpr span)

/-- The source of styles that a spread is. -/
def itemOfSpread (span : Span) (e : Expr) : Item :=
  .dynamic (Build.either span (Build.member span e "style") (.object span []))

/-! ## Gathering -/

/-- Whether an attribute is a source of styles of its own. -/
def isOwn (a : Attr) : Bool :=
  match a.name? with
  | some name => name == "style" || (suffix? "style-" name).isSome
  | none => false

/-- Whether an attribute is a spread. -/
def isSpread : Attr → Bool
  | .spread .. => true
  | .named .. => false

/-- Whether a `style` attribute is a text without declarations, which is passed on as it is. -/
def isPassedOn : Attr → Bool
  | .named _ name (.string s) => name.text == "style" && !looksLikeCss s
  | _ => false

/-- Whether the attributes of an element have styles to merge: not if there are none, if they come
from one spread only, or from one text that is passed on. -/
def fires (attrs : List Attr) : Bool :=
  let own := attrs.countP isOwn
  let spreads := attrs.countP isSpread
  let named := attrs.filter (·.isNamed "style")
  let passedOn := (named.getLast?.map isPassedOn).getD false
  !(own + spreads == 0 || (own == 0 && spreads == 1) || (own == 1 && spreads == 0 && passedOn))

/-- What has been gathered: the attributes before and after the place of the merged one, the span of
the first `style` attribute if there was one, and the sources of styles. -/
structure Gathered where
  before : List Attr
  after : List Attr
  place : Option Span
  items : List Item

/-- Gathers one more attribute. A spread goes before the merged attribute, another attribute after
it, if its place is known. -/
def gather (g : Gathered) : Attr → Gathered
  | .spread span e =>
    { g with before := g.before ++ [.spread span e], items := g.items ++ [itemOfSpread span e] }
  | .named span name value =>
    if name.text == "style" then
      { g with place := some (g.place.getD span), items := g.items ++ [itemOfValue span value] }
    else
      match suffix? "style-" name.text with
      | some property =>
        let entry := (camelCase property, value.toExpr span)
        { g with items := g.items ++ [.properties [entry]] }
      | none =>
        if g.place.isSome then { g with after := g.after ++ [.named span name value] }
        else { g with before := g.before ++ [.named span name value] }

/-- Gathers attributes. -/
def gatherAll (attrs : List Attr) : Gathered :=
  attrs.foldl gather ⟨[], [], none, []⟩

/-- The expression that an item contributes. -/
def Item.toExpr (span : Span) : Item → Expr
  | .properties entries => Build.object span entries
  | .dynamic e => e

/-- The value of the merged attribute: an object if all is folded into one, and a call of the helper
otherwise. -/
def mergedValue (span : Span) (items : List Item) : Lower Expr := do
  match mergeItems items with
  | [.properties entries] => return Build.object span entries
  | merged =>
    let name ← Lower.helper .styles
    return Build.call span (.ident span name) (merged.map (Item.toExpr span))

/-- The attributes of an element with one `style` attribute. -/
def lowerAttrs (elementSpan : Span) (attrs : List Attr) : Lower (List Attr) := do
  if fires attrs then
    let g := gatherAll attrs
    let span := g.place.getD elementSpan
    let value ← mergedValue span g.items
    return g.before ++ Build.attr span "style" value :: g.after
  else
    return attrs

end JsxDialect.Style
