import JsxDialect.Parse.Pattern

/-!
# Reading functions

Parameter lists and bodies, shared by functions, methods and arrow functions.
-/

namespace JsxDialect.Parse

/-- Decorators, each after an at sign. -/
def decorators (g : Grammar) : Parse (List Expr) :=
  many do
    if ← eat? "@" then
      return some (← within ({ · with inDecorator := true }) g.leftHandSide)
    else
      return none

/-- A parameter list as it is read. -/
structure Parameters where
  thisParam : Option ThisParam
  span : Span
  params : List Param
  rest : Option Pattern

/-- A parameter with its decorators and default, or the rest of the parameters. -/
def parameter (g : Grammar) : Parse (Param ⊕ Pattern) := do
  let ds ← decorators g
  if ← eat? "..." then
    let p ← g.binding
    if !(← at? ")") then unexpected
    return .inr p
  else
    return .inl (.mk ds (← bindingWithDefault g))

/-- A declared `this` parameter, if the list starts with one. -/
def thisParameter? (g : Grammar) : Parse (Option ThisParam) := do
  if (← read).typed && (← eatWord? "this") then
    let type ← annotation? g
    if !(← at? ")") then expect ","
    return some ⟨type⟩
  else
    return none

/-- A parameter list in parentheses. -/
def parameters (g : Grammar) : Parse Parameters := do
  let start ← position
  expect "("
  let thisParam ← thisParameter? g
  let (params, rest) := splitRest (← commaItems ")" (parameter g))
  expect ")"
  return ⟨thisParam, ← spanFrom start, params, rest⟩

/-- A directive, if there is one: a statement that is only a string, given by its text between the
quotes. -/
def directive? (g : Grammar) : Parse (Option String) := do
  match ← current with
  | .string _ raw =>
    let here ← get
    match ← g.statement true with
    | .expr (.string _ _) => return some raw
    | _ =>
      set here
      return none
  | _ => return none

/-- Whether the statements of a list end here: at the end of the text and, inside a block, before
the brace that closes it. -/
def atListEnd (nested : Bool) : Parse Bool := do
  return (← current) == .finish || (nested && (← at? "\x7d"))

/-- Statements up to the end of the text or, inside a block, up to the brace that closes it, with
the directives before them. -/
def directivesAndStatements (g : Grammar) (nested : Bool) : Parse (List String × List Stmt) := do
  let directives ← many (directive? g)
  let stmts ← many do
    if ← atListEnd nested then return none
    return some (← g.statement true)
  return (directives, stmts)

/-- The body of a function in braces. -/
def functionBody (g : Grammar) (isAsync isGenerator : Bool) : Parse Body := do
  expect "\x7b"
  let (directives, stmts) ← within (Setting.function isAsync isGenerator)
    (directivesAndStatements g true)
  expect "\x7d"
  return .block directives stmts

/-- What follows the name of a function or method: parameters, the type of the result, and the
body, which only code with types may leave out. -/
def functionRest (g : Grammar) (name : Option String) (isAsync isGenerator : Bool) :
    Parse Func := do
  let ps ← within (Setting.function isAsync isGenerator) (parameters g)
  let type ← annotation? g
  let body ← (do
    if (← read).typed && !(← at? "\x7b") then
      endStatement
      return .absent
    else
      functionBody g isAsync isGenerator : Parse Body)
  return .mk name isAsync isGenerator ps.thisParam ps.span ps.params ps.rest type body

/-- A function from the word `function` on. A declaration has to have a name, unless it is a
default export. -/
def functionFrom (g : Grammar) (isAsync named isDeclaration : Bool) : Parse Func := do
  expectWord "function"
  let isGenerator ← eat? "*"
  let name ← within
    (fun s =>
      if isDeclaration then s else { s with inAsync := isAsync, inGenerator := isGenerator })
    identifier?
  if name.isSome then advance
  if named && name.isNone then unexpected
  functionRest g name isAsync isGenerator

/-- Whether an async function starts here: the two words on one line. -/
def atAsyncFunction : Parse Bool := do
  if ← atWord? "async" then
    let (next, newline) ← peek
    return next == .word "function" false && !newline
  else
    return false

end JsxDialect.Parse
