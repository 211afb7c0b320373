import JsxDialect.Parse.Class

/-!
# Reading operands

Literals, arrays, objects, parenthesized expressions and what can follow an operand: members,
calls and templates.
-/

namespace JsxDialect.Parse

/-! ## Literals -/

/-- The pieces of a template after its first one, with the expressions before them, up to the last
piece. -/
def templateRest (g : Grammar) (tagged : Bool) : Parse (List (Expr × String)) := do
  let items ← iterate (fun ((last, items) : Bool × List (Expr × String)) => do
    if last then return none
    advance
    let e ← within Setting.bracketed g.expr
    if !(← at? "\x7d") then unexpected
    modify fun c => c.place c.span.stop false c.rest Token.scanTemplate
    match ← current with
    | .template raw readable last =>
      faultIf (!readable && !tagged)
      return some (last, (e, raw) :: items)
    | _ => unexpected) (false, [])
  advance
  return items.2.reverse

/-- The pieces and expressions of a template. Escapes have to be readable, unless the template has
a tag. -/
def templateParts (g : Grammar) (tagged : Bool) : Parse (List String × List Expr) := do
  match ← current with
  | .template raw readable last =>
    faultIf (!readable && !tagged)
    if last then
      advance
      return ([raw], [])
    else
      let items ← templateRest g tagged
      return (raw :: items.map (·.2), items.map (·.1))
  | _ => unexpected

/-- A regular expression, from its first slash. -/
def regex : Parse Expr := do
  let start ← position
  modify fun c =>
    let after := if c.token == .punct "/=" then '=' :: c.rest else c.rest
    let (token, count) := Token.scanRegex after
    { c with
      token
      span := ⟨start, start + 1 + Text.byteLength (after.take count)⟩
      rest := after.drop count }
  match ← current with
  | .regex raw valid =>
    faultIf !valid
    advance
    return .regex (← spanFrom start) raw
  | _ => unexpected

/-- A spread or an expression. -/
def spreadOrAssign (g : Grammar) : Parse Expr := do
  if ← eat? "..." then return .spread (← g.assign) else g.assign

/-- An array, from its bracket. -/
def array (g : Grammar) : Parse Expr := do
  let start ← position
  expect "["
  let elements ← within Setting.bracketed
    (commaItems "]" do
      if ← at? "," then return .hole else spreadOrAssign g)
  expect "]"
  return .array (← spanFrom start) elements

/-! ## Objects -/

/-- Whether the current word modifies the member of an object after it. -/
def modifiesProperty (w : String) (also : List String) : Parse Bool :=
  modifies w also (w == "async")

/-- A member of an object with one of the words that modify it, or a star. -/
def propertyMethod? (g : Grammar) : Parse (Option Property) := do
  if ← modifiesProperty "get" [] then
    advance
    let k ← key g
    return some (.method .getter k (← functionRest g none false false))
  if ← modifiesProperty "set" [] then
    advance
    let k ← key g
    return some (.method .setter k (← functionRest g none false false))
  let isAsync ← modifiesProperty "async" ["*"]
  if isAsync then advance
  let isGenerator ← eat? "*"
  if isAsync || isGenerator then
    let k ← key g
    return some (.method .method k (← functionRest g none isAsync isGenerator))
  return none

/-- A member of an object. A name alone may have an initializer, which only a pattern can have: it
stays unsettled until the object is turned into one. -/
def property (g : Grammar) : Parse Property := do
  if ← eat? "..." then return .spread (← g.assign)
  if let some p ← propertyMethod? g then return p
  let start ← position
  let named ← identifier?
  let k ← key g
  if ← at? "(" then
    return .method .method k (← functionRest g none false false)
  if ← eat? ":" then
    return .field k (← g.assign) false
  match k, named with
  | .ident name, some _ =>
    let reference := .ident (← spanFrom start) name
    if ← eat? "=" then
      let value ← g.assign
      modify fun c => { c with unsettled := start :: c.unsettled }
      return .field k (.assign (← spanFrom start) .set (.target reference) value) true
    else
      return .field k reference true
  | _, _ => unexpected

/-- An object, from its brace. -/
def object (g : Grammar) : Parse Expr := do
  let start ← position
  expect "\x7b"
  let properties ← within Setting.bracketed (commaItems "\x7d" (property g))
  expect "\x7d"
  return .object (← spanFrom start) properties

/-! ## Operands -/

/-- An expression in parentheses. -/
def parenthesized (g : Grammar) : Parse Expr := do
  let start ← position
  expect "("
  let inner ← position
  let e ← within Setting.bracketed (do
    let first ← g.assign
    let others ← many do
      if ← eat? "," then return some (← g.assign) else return none
    if others.isEmpty then return first
    else return .sequence (← spanFrom inner) (first :: others) : Parse Expr)
  expect ")"
  if (← read).keepParens then return .paren (← spanFrom start) e else return e

/-- Arguments in parentheses. -/
def arguments (g : Grammar) : Parse (List Expr) := do
  expect "("
  let args ← within Setting.bracketed (commaItems ")" (spreadOrAssign g))
  expect ")"
  return args

/-- An object creation, from the word `new`. -/
def new (g : Grammar) : Parse Expr := do
  let start ← position
  expectWord "new"
  if ← eat? "." then
    expectWord "target"
    return .metaProperty (← spanFrom start) "new" "target"
  let (callee, optional) ← g.member
  let args ← (do if ← at? "(" then arguments g else return [] : Parse (List Expr))
  faultIf optional
  return .new (← spanFrom start) callee args

/-- An import that is part of an expression. -/
def importExpr (g : Grammar) : Parse Expr := do
  let start ← position
  expectWord "import"
  if ← eat? "." then
    expectWord "meta"
    return .metaProperty (← spanFrom start) "import" "meta"
  let args ← arguments g
  return .importCall (← spanFrom start) args

/-- A parent reference, which a call or a member has to follow. -/
def superExpr : Parse Expr := do
  let start ← position
  expectWord "super"
  let c ← get
  if !(c.token == .punct "(" || c.token == .punct "." || c.token == .punct "[") then unexpected
  return .super (← spanFrom start)

/-- An operand that is a word. -/
def wordOperand (g : Grammar) (name : String) : Parse Expr := do
  let start ← position
  match name with
  | "function" =>
    let f ← functionFrom g false false false
    return .function (← spanFrom start) f
  | "class" =>
    let c ← classFrom g [] false
    return .classExpr (← spanFrom start) c
  | "new" => new g
  | "super" => superExpr
  | "import" => importExpr g
  | "this" =>
    advance
    return .this (← spanFrom start)
  | "null" =>
    advance
    return .null (← spanFrom start)
  | "true" =>
    advance
    return .bool (← spanFrom start) true
  | "false" =>
    advance
    return .bool (← spanFrom start) false
  | _ =>
    if ← atAsyncFunction then
      advance
      let f ← functionFrom g true false false
      return .function (← spanFrom start) f
    else
      let name ← identifier
      return .ident (← spanFrom start) name

/-- An operand. -/
def primary (g : Grammar) : Parse Expr := do
  let start ← position
  match ← current with
  | .word name _ => wordOperand g name
  | .number value =>
    advance
    return .number (← spanFrom start) value
  | .bigint raw =>
    advance
    return .bigint (← spanFrom start) raw
  | .string value _ =>
    advance
    return .string (← spanFrom start) value
  | .template .. =>
    let (quasis, exprs) ← templateParts g false
    return .template (← spanFrom start) quasis exprs
  | .punct "(" => parenthesized g
  | .punct "[" => array g
  | .punct "\x7b" => object g
  | .punct "/" | .punct "/=" => regex
  | .punct "@" =>
    let ds ← decorators g
    let c ← classFrom g ds false
    return .classExpr (← spanFrom start) c
  | _ => unexpected

/-! ## Members and calls -/

/-- The member of an object after a point. -/
def memberName (start : Nat) (o : Expr) (optional : Bool) : Parse Expr := do
  match ← current with
  | .word name _ =>
    advance
    return .member (← spanFrom start) o name optional
  | .privateName name =>
    advance
    return .privateMember (← spanFrom start) o name optional
  | _ => unexpected

/-- The member of an object in brackets. -/
def memberIndex (g : Grammar) (start : Nat) (o : Expr) (optional : Bool) : Parse Expr := do
  expect "["
  let k ← within Setting.bracketed g.expr
  expect "]"
  return .index (← spanFrom start) o k optional

/-- One more link of a chain of members, if it continues. The flag tells whether the chain has an
optional link. -/
def memberLink (g : Grammar) (start : Nat) : Expr × Bool → Parse (Option (Expr × Bool)) :=
  fun (e, optional) => do
    let s ← read
    match ← current with
    | .punct "." =>
      advance
      return some (← memberName start e false, optional)
    | .punct "[" =>
      if s.inDecorator then return none
      else return some (← memberIndex g start e false, optional)
    | .punct "?." =>
      match (← peek).1 with
      | .punct "[" =>
        if s.inDecorator then return none
        advance
        return some (← memberIndex g start e true, true)
      | .word .. | .privateName _ =>
        advance
        return some (← memberName start e true, true)
      | _ => return none
    | .punct "!" =>
      if s.typed && !(← onNewLine) then
        advance
        return some (.nonNull (← spanFrom start) e, optional)
      else
        return none
    | .template .. =>
      faultIf optional
      let (quasis, exprs) ← templateParts g true
      return some (.tagged (← spanFrom start) e quasis exprs, optional)
    | _ => return none

/-- An operand with the members after it. -/
def member (g : Grammar) : Parse (Expr × Bool) := do
  let start ← position
  iterate (memberLink g start) (← primary g, false)

/-- One more link of a chain of members and calls, if it continues. -/
def callLink (g : Grammar) (start : Nat) (chain : Expr × Bool) :
    Parse (Option (Expr × Bool)) := do
  match ← memberLink g start chain with
  | some longer => return some longer
  | none =>
    let (e, optional) := chain
    if ← at? "(" then
      let args ← arguments g
      return some (.call (← spanFrom start) e args false, optional)
    else if ← eat? "?." then
      let args ← arguments g
      return some (.call (← spanFrom start) e args true, true)
    else
      return none

/-- A member or call expression. One with an optional link is a chain. -/
def leftHandSide (g : Grammar) : Parse Expr := do
  let start ← position
  let (e, optional) ← iterate (callLink g start) (← primary g, false)
  if optional then return .chain (← spanFrom start) e else return e

end JsxDialect.Parse
