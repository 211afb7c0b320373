import JsxDialect.Parse.Function

/-!
# Reading classes
-/

namespace JsxDialect.Parse

/-- Whether the current word modifies the member after it: a name, or one of the given
punctuators, follows it. -/
def modifies (w : String) (also : List String) (sameLine : Bool) : Parse Bool := do
  if ← atWord? w then
    let (next, newline) ← peek
    let follows := startsKey next || also.any (next == .punct ·)
    return follows && !(sameLine && newline)
  else
    return false

/-- Whether a key names the constructor of a class. -/
def namesConstructor : Key → Bool
  | .ident n => n == "constructor"
  | .string n => n == "constructor"
  | _ => false

/-- A method after its modifiers and name. -/
def methodRest (g : Grammar) (ds : List Expr) (isStatic isAsync isGenerator : Bool)
    (kind : MethodKind) (k : Key) : Parse Member := do
  let f ← functionRest g none isAsync isGenerator
  return .method ds isStatic kind k f

/-- A field after its modifiers and name. -/
def fieldRest (g : Grammar) (ds : List Expr) (isStatic : Bool) (k : Key) : Parse Member := do
  let typed := (← read).typed
  let optional ← if typed then eat? "?" else pure false
  let type ← annotation? g
  let value ← within Setting.static (initializer? g)
  endStatement
  return .field ds isStatic k optional type value

/-- A block of statements that runs with the class. -/
def staticBlock (g : Grammar) : Parse Member := do
  expect "\x7b"
  let stmts ← within Setting.static
    (many do
      if ← at? "\x7d" then return none
      return some (← g.statement true))
  expect "\x7d"
  return .staticBlock stmts

/-- A member of a class. -/
def classMember (g : Grammar) : Parse Member := do
  let ds ← decorators g
  let isStatic ← modifies "static" ["\x7b", "*"] false
  if isStatic then advance
  if isStatic && (← at? "\x7b") then
    staticBlock g
  else
    let isAsync ← modifies "async" ["*"] true
    if isAsync then advance
    let isGenerator ← eat? "*"
    let getter ← if isAsync || isGenerator then pure false else modifies "get" [] false
    let setter ← if isAsync || isGenerator then pure false else modifies "set" [] false
    if getter || setter then advance
    let k ← key g
    let plain := !(getter || setter || isAsync || isGenerator)
    if getter then methodRest g ds isStatic false false .getter k
    else if setter then methodRest g ds isStatic false false .setter k
    else if isAsync || isGenerator || (← at? "(") then
      let kind := if !isStatic && namesConstructor k then .constructor else .method
      faultIf (kind == .constructor && !plain)
      methodRest g ds isStatic isAsync isGenerator kind k
    else
      faultIf (namesConstructor k)
      fieldRest g ds isStatic k

/-- The members of a class in braces; semicolons may stand between them. -/
def classBody (g : Grammar) : Parse (List Member) := do
  expect "\x7b"
  let members ← many do
    let _ ← many do
      if ← eat? ";" then return some () else return none
    if ← at? "\x7d" then return none
    return some (← classMember g)
  expect "\x7d"
  return members

/-- A class from the word `class` on, with the decorators before it. -/
def classFrom (g : Grammar) (ds : List Expr) (named : Bool) : Parse Class := do
  expectWord "class"
  let name ← if ← atWord? "extends" then pure none else identifier?
  if name.isSome then advance
  if named && name.isNone then unexpected
  let superClass ← (do
    if ← eatWord? "extends" then return some (← g.leftHandSide) else return none :
    Parse (Option Expr))
  let members ← within Setting.bracketed (classBody g)
  return .mk name ds superClass members

end JsxDialect.Parse
