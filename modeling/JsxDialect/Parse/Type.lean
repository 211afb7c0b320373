import JsxDialect.Parse.State

/-!
# Reading types

Annotations: keywords, literals, references with type arguments, arrays, unions and
intersections.
-/

namespace JsxDialect.Parse

/-- The words that are types of their own. -/
def typeKeywords : List String :=
  ["any", "unknown", "number", "string", "boolean", "void", "null", "undefined", "never", "object",
    "symbol", "bigint", "this", "true", "false"]

/-- Type arguments in angle brackets, if there are any. -/
def typeArguments (g : Grammar) : Parse (List TypeExpr) := do
  if ← eat? "<" then
    let ts ← commaItems ">" g.type
    expect ">"
    return ts
  else
    return []

/-- A type without operators. -/
def primaryType (g : Grammar) : Parse TypeExpr := do
  match ← current with
  | .word name _ =>
    if typeKeywords.contains name then
      advance
      return .keyword name
    else if Text.reservedWords.contains name && name != "const" then unexpected
    else
      advance
      let path ← many do
        if ← eat? "." then return some (← anyWord) else return none
      return .reference name path (← typeArguments g)
  | .string value _ =>
    advance
    return .string value
  | .number value =>
    advance
    return .number value
  | .punct "(" =>
    advance
    let t ← g.type
    expect ")"
    return t
  | _ => unexpected

/-- A type followed by any number of empty brackets. -/
def postfixType (g : Grammar) : Parse TypeExpr := do
  iterate (fun t => do
    if (← at? "[") && !(← onNewLine) then
      advance
      expect "]"
      return some (.array t)
    else
      return none) (← primaryType g)

/-- Types joined by an operator, which may also stand before the first. -/
def joinedTypes (operator : String) (item : Parse TypeExpr) : Parse (List TypeExpr) := do
  let _ ← eat? operator
  let first ← item
  let others ← many do
    if ← eat? operator then return some (← item) else return none
  return first :: others

/-- Types joined by ampersands. -/
def intersectionType (g : Grammar) : Parse TypeExpr := do
  match ← joinedTypes "&" (postfixType g) with
  | [t] => return t
  | ts => return .intersection ts

/-- Types joined by bars. -/
def typeExpr (g : Grammar) : Parse TypeExpr := do
  match ← joinedTypes "|" (intersectionType g) with
  | [t] => return t
  | ts => return .union ts

/-- The type after a colon, if there is one and types are allowed. -/
def annotation? (g : Grammar) : Parse (Option TypeExpr) := do
  if (← read).typed && (← eat? ":") then return some (← g.type) else return none

end JsxDialect.Parse
