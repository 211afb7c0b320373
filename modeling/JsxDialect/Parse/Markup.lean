import JsxDialect.Parse.Pattern

/-!
# Reading markup

Elements and fragments. The reader of a tag has to know what follows the tag: text if the element
is a child of another or has children itself, and tokens otherwise.
-/

namespace JsxDialect.Parse

/-- Reads a punctuator after which text follows if the phrase is a child, and tokens otherwise. -/
def expectBefore (isChild : Bool) (p : String) : Parse Unit :=
  if isChild then expectInMarkup p else expect p

/-- A name in a tag, where hyphens may stand. -/
def tagWord : Parse String := do
  match ← current with
  | .word name _ =>
    let tail := Token.hyphenated (← get).rest
    modify fun c =>
      { c with
        span := ⟨c.span.start, c.span.stop + Text.byteLength tail⟩
        rest := c.rest.drop tail.length }
    advance
    return String.ofList (name.toList ++ tail)
  | _ => unexpected

/-- Whether a plain name in a tag refers to an identifier rather than naming a tag. -/
def isReferenceName (name : String) : Bool :=
  match name.toList with
  | c :: _ => c == '_' || c == '$' || Text.isUpper c
  | [] => false

/-- The name of an element. -/
def elementName : Parse ElementName := do
  let name ← tagWord
  if ← eat? ":" then
    return .namespaced name (← tagWord)
  let path ← many do
    if ← eat? "." then return some (← tagWord) else return none
  if !path.isEmpty then
    faultIf (name.contains '-')
    return .member name path
  else if name == "this" then return .this
  else if isReferenceName name then return .reference name
  else return .plain name

/-- The expression in the braces of a container. A list separated by commas is refused, with its
span. -/
def containerExpr (g : Grammar) : Parse Expr := do
  match ← within Setting.container g.expr with
  | .sequence span _ => throw (.commaList span)
  | e => return e

/-- The expression of a container after its opening brace, if there is one. -/
def containerRest (g : Grammar) (isChild : Bool) : Parse (Option Expr) := do
  let e ← (do
    if ← at? "\x7d" then return none else return some (← containerExpr g) : Parse (Option Expr))
  expectBefore isChild "\x7d"
  return e

/-- The value of an attribute. -/
def attrValue (g : Grammar) : Parse AttrValue := do
  match ← current with
  | .string value _ =>
    advance
    return .string value
  | .punct "\x7b" =>
    let start ← position
    advance
    let e ← containerRest g false
    return .container (← spanFrom start) e
  | .punct "<" =>
    let start ← position
    advance
    match ← g.markup start false with
    | .element e => return .element e
    | .fragment span children => return .fragment span children
    | _ => unexpected
  | _ => unexpected

/-- Moves past the equals sign of an attribute to its value; a quote right after it starts a
string without escapes. -/
def advanceToValue : Parse Unit :=
  modify fun c =>
    match Token.scanQuoted? c.rest with
    | some found => c.place c.span.stop false c.rest fun _ => found
    | none => c.next

/-- An attribute. -/
def attr (g : Grammar) : Parse Attr := do
  let start ← position
  if ← eat? "\x7b" then
    expect "..."
    let e ← within Setting.bracketed g.expr
    expect "\x7d"
    return .spread (← spanFrom start) e
  else
    let name ← tagWord
    let attrName ← (do
      if ← eat? ":" then return .namespaced name (← tagWord) else return .plain name :
      Parse AttrName)
    if ← at? "=" then
      advanceToValue
      let value ← attrValue g
      return .named (← spanFrom start) attrName value
    else
      return .named (← spanFrom start) attrName .absent

/-- The attributes of a tag. -/
def attrs (g : Grammar) : Parse (List Attr) :=
  many do
    match ← current with
    | .finish | .punct "<" | .punct ">" | .punct "/" => return none
    | _ => return some (← attr g)

/-- A child of an element or fragment, if another one comes before the closing tag. -/
def child (g : Grammar) : Parse (Option Child) := do
  match ← current with
  | .finish => return none
  | .text raw =>
    advanceInMarkup
    return some (.text raw)
  | .punct "\x7b" =>
    advance
    if ← eat? "..." then
      let e ← containerExpr g
      expectInMarkup "\x7d"
      return some (.spread e)
    else
      return some (.container (← containerRest g true))
  | .punct "<" =>
    let here ← get
    let start ← position
    advance
    if ← at? "/" then
      set here
      return none
    else
      return some (← g.markup start true)
  | _ => unexpected

/-- An element or fragment, after the less-than sign at the given place. -/
def markup (g : Grammar) (start : Nat) (isChild : Bool) : Parse Child := do
  if ← at? ">" then
    advanceInMarkup
    let children ← many (child g)
    expect "<"
    expect "/"
    expectBefore isChild ">"
    return .fragment (← spanFrom start) children
  else
    let name ← elementName
    let as ← attrs g
    if ← eat? "/" then
      expectBefore isChild ">"
      let span ← spanFrom start
      return .element (.mk span span name as [] false)
    else
      expectInMarkup ">"
      let openSpan ← spanFrom start
      let children ← many (child g)
      expect "<"
      expect "/"
      let closing ← elementName
      faultIf (closing != name)
      expectBefore isChild ">"
      return .element (.mk (← spanFrom start) openSpan name as children true)

end JsxDialect.Parse
