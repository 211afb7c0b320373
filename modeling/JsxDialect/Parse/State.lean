import JsxDialect.Syntax.Basic
import JsxDialect.Token.Scan

/-!
# Reading with a cursor

A reader of a phrase is a state transformer over a cursor, which stands at one token and holds the
text after it; the next token is scanned only when the cursor moves, because how depends on the
phrase. A reader ends with a phrase or refuses the text. Some mistakes do not stop the reading:
they are noted on the cursor.

What may stand inside a phrase depends on what is around it. That is the setting, which a reader
can only change for the phrases inside its own.
-/

namespace JsxDialect

/-- Why a reader stops: a token that does not fit, or a comma-separated list as the expression of
a container in markup, with the span of the list. -/
inductive Refusal where
  | unexpected
  | commaList (span : Span)
deriving Repr, DecidableEq, Inhabited

namespace Parse

/-- What may stand in a phrase: types, `in` as an operator, `await`, `yield`, `return`, and an
index after a member. `keepParens` asks for nodes for parentheses, and `bound` is larger than the
number of tokens of the text. -/
structure Setting where
  typed : Bool
  keepParens : Bool
  bound : Nat
  allowIn : Bool := true
  inAsync : Bool := true
  inGenerator : Bool := false
  inFunction : Bool := false
  inDecorator : Bool := false

/-- The setting inside brackets, where operators and indices are free again. -/
def Setting.bracketed (s : Setting) : Setting :=
  { s with allowIn := true, inDecorator := false }

/-- The setting inside a function. -/
def Setting.function (isAsync isGenerator : Bool) (s : Setting) : Setting :=
  { s.bracketed with inAsync := isAsync, inGenerator := isGenerator, inFunction := true }

/-- The setting inside a class, but outside its methods. -/
def Setting.static (s : Setting) : Setting :=
  { s.function false false with inFunction := false }

/-- The setting inside a container of markup. -/
def Setting.container (s : Setting) : Setting :=
  { s.bracketed with inGenerator := false, inFunction := false }

/-- A place in the text: the token there, its span, whether a line ends before it, the text after
it, and where the token before it stops. `faulty` notes a mistake; `unsettled` are the places of
object members with an initializer, which only a pattern can have. -/
structure Cursor where
  token : Token
  span : Span
  newline : Bool
  rest : List Char
  before : Nat
  faulty : Bool
  unsettled : List Nat

end Parse

/-- Readers of phrases. -/
abbrev Parse := ReaderT Parse.Setting (StateT Parse.Cursor (Except Refusal))

namespace Parse

/-- The cursor after the token that `scan` finds at the front of a text. -/
def Cursor.place (c : Cursor) (start : Nat) (newline : Bool) (text : List Char)
    (scan : List Char → Token × Nat) : Cursor :=
  let (token, count) := scan text
  { c with
    token
    span := ⟨start, start + Text.byteLength (text.take count)⟩
    newline
    rest := text.drop count
    before := c.span.stop }

/-- The cursor at the next token. -/
def Cursor.next (c : Cursor) : Cursor :=
  match Token.trivia c.rest with
  | some (count, newline) =>
    c.place (c.span.stop + Text.byteLength (c.rest.take count)) newline (c.rest.drop count)
      Token.scan
  | none => { c with token := .invalid, rest := [], before := c.span.stop }

/-- The text without a first line that names an interpreter. -/
def skipInterpreter : List Char → List Char
  | '#' :: '!' :: cs => cs.dropWhile (!Token.isLineEnd ·)
  | cs => cs

/-- The cursor at the first token of a text. -/
def Cursor.first (text : List Char) : Cursor :=
  let rest := skipInterpreter text
  let start := Text.byteLength text - Text.byteLength rest
  Cursor.next ⟨.finish, ⟨0, start⟩, false, rest, 0, false, []⟩

/-- Stops with the reason that the current token does not fit. -/
def unexpected {α : Type} : Parse α :=
  throw .unexpected

/-- The current token. -/
def current : Parse Token :=
  return (← get).token

/-- Where the current token starts. -/
def position : Parse Nat :=
  return (← get).span.start

/-- The span from a place to the end of the last token read. -/
def spanFrom (start : Nat) : Parse Span :=
  return ⟨start, (← get).before⟩

/-- Whether a line ends before the current token. -/
def onNewLine : Parse Bool :=
  return (← get).newline

/-- Moves to the next token. -/
def advance : Parse Unit :=
  modify Cursor.next

/-- Moves to the next token between tags. -/
def advanceInMarkup : Parse Unit :=
  modify fun c => c.place c.span.stop false c.rest Token.scanChild

/-- Notes a mistake. -/
def fault : Parse Unit :=
  modify fun c => { c with faulty := true }

/-- Notes a mistake if a condition holds. -/
def faultIf (wrong : Bool) : Parse Unit :=
  if wrong then fault else pure ()

/-- Whether the current token is the given punctuator. -/
def at? (p : String) : Parse Bool :=
  return (← get).token == .punct p

/-- Whether the current token is the given word, written without escapes. -/
def atWord? (w : String) : Parse Bool :=
  return (← get).token == .word w false

/-- Moves past a punctuator if it is there. -/
def eat? (p : String) : Parse Bool := do
  if ← at? p then
    advance
    return true
  else
    return false

/-- Moves past a word if it is there. -/
def eatWord? (w : String) : Parse Bool := do
  if ← atWord? w then
    advance
    return true
  else
    return false

/-- Moves past a punctuator that has to be there. -/
def expect (p : String) : Parse Unit := do
  if !(← eat? p) then unexpected

/-- Moves past a word that has to be there. -/
def expectWord (w : String) : Parse Unit := do
  if !(← eatWord? w) then unexpected

/-- Moves past a punctuator that has to be there and before which text of an element follows. -/
def expectInMarkup (p : String) : Parse Unit := do
  if ← at? p then advanceInMarkup else unexpected

/-- What a reader finds from here, without moving. A reader that refuses finds nothing. -/
def ahead? {α : Type} (p : Parse α) : Parse (Option α) := fun s c =>
  match p s c with
  | .ok (a, _) => .ok (some a, c)
  | .error _ => .ok (none, c)

/-- Reads a phrase, or stays where it is if the reader refuses. -/
def attempt {α : Type} (p : Parse α) : Parse (Option α) := fun s c =>
  match p s c with
  | .ok (a, c') => .ok (some a, c')
  | .error _ => .ok (none, c)

/-- The token after the current one, and whether a line ends before it. -/
def peek : Parse (Token × Bool) := do
  let c := (← get).next
  return (c.token, c.newline)

/-- Reads items while there are any. -/
def manyUpTo {α : Type} (item : Parse (Option α)) : Nat → Parse (List α)
  | 0 => unexpected
  | n + 1 => do
    match ← item with
    | some a => return a :: (← manyUpTo item n)
    | none => return []

/-- Reads items while there are any, no more than the text has tokens. -/
def many {α : Type} (item : Parse (Option α)) : Parse (List α) := do
  manyUpTo item (← read).bound

/-- Applies steps to a value while one applies. -/
def iterateUpTo {α : Type} (step : α → Parse (Option α)) : Nat → α → Parse α
  | 0, _ => unexpected
  | n + 1, a => do
    match ← step a with
    | some b => iterateUpTo step n b
    | none => return a

/-- Applies steps to a value while one applies, no more than the text has tokens. -/
def iterate {α : Type} (step : α → Parse (Option α)) (a : α) : Parse α := do
  iterateUpTo step (← read).bound a

/-- Reads items separated by commas up to the punctuator that closes them, which is not passed. A
comma may follow the last item. -/
def commaItems {α : Type} (close : String) (item : Parse α) : Parse (List α) :=
  many do
    if ← at? close then return none
    let a ← item
    if !(← at? close) then expect ","
    return some a

/-- Reads a phrase in a changed setting. -/
def within {α : Type} (change : Setting → Setting) (p : Parse α) : Parse α :=
  fun s => p (change s)

/-- Ends a statement: at a semicolon, before a closing brace, at the end of a line or of the
text. -/
def endStatement : Parse Unit := do
  let c ← get
  if c.token == .punct ";" then advance
  else if c.token == .punct "\x7d" || c.token == .finish || c.newline then pure ()
  else unexpected

/-- Whether a statement may end before the current token. -/
def atStatementEnd : Parse Bool := do
  let c ← get
  return c.token == .punct ";" || c.token == .punct "\x7d" || c.token == .finish || c.newline

/-! ## Names -/

/-- Whether a word can be an identifier in a setting. The words that are reserved only in module
code are accepted here. -/
def isIdentifierIn (s : Setting) (name : String) : Bool :=
  !Text.reservedWords.contains name && !(name == "await" && s.inAsync)
    && !(name == "yield" && s.inGenerator)

/-- The identifier at the cursor, if there is one. -/
def identifier? : Parse (Option String) := do
  match ← current with
  | .word name _ => return if isIdentifierIn (← read) name then some name else none
  | _ => return none

/-- Reads an identifier. -/
def identifier : Parse String := do
  match ← identifier? with
  | some name => advance; return name
  | none => unexpected

/-- Reads a word, reserved or not. -/
def anyWord : Parse String := do
  match ← current with
  | .word name _ => advance; return name
  | _ => unexpected

/-- Whether a token can start the name of a member. -/
def startsKey : Token → Bool
  | .word .. | .string .. | .number _ | .bigint _ | .privateName _ => true
  | .punct p => p == "["
  | _ => false

end Parse

/-- The phrases of the grammar that contain each other. -/
structure Grammar where
  /-- An expression, possibly several separated by commas. -/
  expr : Parse Expr
  /-- An expression without commas. -/
  assign : Parse Expr
  /-- An expression without commas in the middle of a conditional one. -/
  branch : Parse Expr
  /-- An expression whose operators bind more strongly than a level. -/
  binary : Nat → Parse Expr
  /-- A unary expression. -/
  unary : Parse Expr
  /-- A member or call expression. -/
  leftHandSide : Parse Expr
  /-- A member expression, and whether it has an optional link. -/
  member : Parse (Expr × Bool)
  /-- A binding pattern without a default. -/
  binding : Parse Pattern
  /-- A type. -/
  type : Parse TypeExpr
  /-- A statement. -/
  statement : Bool → Parse Stmt
  /-- An element or fragment, after the less-than sign at the given place. Text follows it if it is
  a child. -/
  markup : Nat → Bool → Parse Child

end JsxDialect
