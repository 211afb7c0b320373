import JsxDialect.Parse.Markup
import JsxDialect.Parse.Primary

/-!
# Reading expressions

Operators by precedence, arrow functions, conditional expressions and assignments. Whether a
parenthesis starts the parameters of an arrow function is decided from the first tokens where they
tell, and by trying where they do not.
-/

namespace JsxDialect.Parse

/-! ## Unary expressions -/

/-- The operator a token is before its operand. -/
def unaryOp? : Token → Option UnaryOp
  | .punct "!" => some .not
  | .punct "~" => some .bitNot
  | .punct "+" => some .plus
  | .punct "-" => some .minus
  | .word "typeof" false => some .typeof
  | .word "void" false => some .void
  | .word "delete" false => some .delete
  | _ => none

/-- The update operator a token is. -/
def updateOp? : Token → Option UpdateOp
  | .punct "++" => some .increment
  | .punct "--" => some .decrement
  | _ => none

/-- Whether markup starts here: a less-than sign before a name or a greater-than sign. -/
def atMarkup : Parse Bool := do
  if ← at? "<" then
    match (← peek).1 with
    | .word .. => return true
    | t => return t == .punct ">"
  else
    return false

/-- An element or fragment as an expression. Another one may not follow it directly. -/
def markupExpr (g : Grammar) : Parse Expr := do
  let start ← position
  expect "<"
  let e ← (do
    match ← g.markup start false with
    | .element e => return .element e
    | .fragment span children => return .fragment span children
    | _ => unexpected : Parse Expr)
  if ← at? "<" then unexpected
  return e

/-- An operand with the update operator that may follow it on its line. -/
def postfixed (g : Grammar) : Parse Expr := do
  let start ← position
  let e ← leftHandSide g
  match updateOp? (← current) with
  | some op =>
    if ← onNewLine then return e
    let target ← toSimpleTarget e
    advance
    return .update (← spanFrom start) op false target
  | none => return e

/-- Whether a waiting expression starts here. Outside the places where one may stand it needs an
operand on the line, and is a mistake. -/
def atAwait : Parse Bool := do
  if ← atWord? "await" then
    if (← read).inAsync then return true
    let (next, newline) ← peek
    match next with
    | .word name _ => return !newline && name != "in" && name != "of" && name != "instanceof"
    | .number _ | .string .. | .bigint _ => return !newline
    | _ => return false
  else
    return false

/-- A unary expression. -/
def unary (g : Grammar) : Parse Expr := do
  let start ← position
  if let some op := unaryOp? (← current) then
    advance
    let e ← g.unary
    return .unary (← spanFrom start) op e
  if let some op := updateOp? (← current) then
    advance
    let e ← toSimpleTarget (← g.unary)
    return .update (← spanFrom start) op true e
  if ← atAwait then
    faultIf !(← read).inAsync
    advance
    let e ← g.unary
    return .await (← spanFrom start) e
  if ← atMarkup then markupExpr g else postfixed g

/-! ## Binary expressions -/

/-- An operator between two operands. -/
inductive Operator where
  | binary (op : BinaryOp)
  | logical (op : LogicalOp)
  | type (test : TypeTest)

/-- The operator a token is and how strongly it binds. -/
def operator? : Token → Option (Operator × Nat)
  | .punct p =>
    match p with
    | "??" => some (.logical .coalesce, 1)
    | "||" => some (.logical .or, 2)
    | "&&" => some (.logical .and, 3)
    | "|" => some (.binary .bitOr, 4)
    | "^" => some (.binary .bitXor, 5)
    | "&" => some (.binary .bitAnd, 6)
    | "==" => some (.binary .equal, 7)
    | "!=" => some (.binary .notEqual, 7)
    | "===" => some (.binary .strictEqual, 7)
    | "!==" => some (.binary .strictNotEqual, 7)
    | "<" => some (.binary .less, 8)
    | "<=" => some (.binary .lessEqual, 8)
    | ">" => some (.binary .greater, 8)
    | ">=" => some (.binary .greaterEqual, 8)
    | "<<" => some (.binary .shiftLeft, 9)
    | ">>" => some (.binary .shiftRight, 9)
    | ">>>" => some (.binary .shiftRightZero, 9)
    | "+" => some (.binary .add, 10)
    | "-" => some (.binary .subtract, 10)
    | "*" => some (.binary .multiply, 11)
    | "/" => some (.binary .divide, 11)
    | "%" => some (.binary .remainder, 11)
    | "**" => some (.binary .power, 12)
    | _ => none
  | .word "in" false => some (.binary .isIn, 8)
  | .word "instanceof" false => some (.binary .instanceOf, 8)
  | .word "as" false => some (.type .asType, 8)
  | .word "satisfies" false => some (.type .satisfies, 8)
  | _ => none

/-- Joins a greater-than sign with the text after it to the longest operator. -/
def joinGreater : Parse Unit := do
  let c ← get
  if c.token == .punct ">" then
    let op := Token.longGreater c.rest
    set { c with
      token := .punct op
      span := ⟨c.span.start, c.span.start + op.length⟩
      rest := c.rest.drop (op.length - 1) }

/-- The operator here, if it binds more strongly than the level: as strongly is enough for the one
that groups to the right. -/
def operatorAbove? (level : Nat) : Parse (Option (Operator × Nat)) := do
  joinGreater
  let s ← read
  match operator? (← current) with
  | some (op, strength) =>
    let binds := match op with
      | .binary .power => level ≤ strength
      | _ => level < strength
    let allowed ← (match op with
      | .binary .isIn => pure s.allowIn
      | .type _ => return s.typed && !(← onNewLine)
      | _ => pure true : Parse Bool)
    return if binds && allowed then some (op, strength) else none
  | none => return none

/-- One more operator and its right operand, if one binds strongly enough. -/
def operatorStep (g : Grammar) (start level : Nat) (left : Expr) : Parse (Option Expr) := do
  match ← operatorAbove? level with
  | none => return none
  | some (.type test, _) =>
    advance
    let type ← g.type
    return some (.typed (← spanFrom start) test left type)
  | some (.binary op, strength) =>
    advance
    let right ← g.binary strength
    return some (.binary (← spanFrom start) op left right)
  | some (.logical op, strength) =>
    advance
    let right ← g.binary strength
    return some (.logical (← spanFrom start) op left right)

/-- An expression whose operators bind more strongly than a level. -/
def binary (g : Grammar) (level : Nat) : Parse Expr := do
  let start ← position
  let first ← (do
    match ← current with
    | .privateName name =>
      if !(← read).allowIn then unexpected
      advance
      expectWord "in"
      let right ← g.binary 8
      return .privateIn (← spanFrom start) name right
    | _ => g.unary : Parse Expr)
  iterate (operatorStep g start level) first

/-! ## Arrow functions -/

/-- What the first tokens tell about an arrow function. -/
inductive Likeliness where
  | yes | no | maybe
deriving DecidableEq

/-- Whether the tokens after an opening parenthesis and a name tell that an arrow function starts
there. -/
def arrowAfterName : Parse Likeliness := do
  match ← current with
  | .punct ":" => return .yes
  | .punct "?" =>
    advance
    match ← current with
    | .punct p => return if [":", ",", "=", ")"].contains p then .yes else .no
    | _ => return .no
  | .punct p => return if [",", "=", ")"].contains p then .maybe else .no
  | _ => return .no

/-- Whether the tokens after an opening parenthesis tell that an arrow function starts there. -/
def arrowAfterParen : Parse Likeliness := do
  match ← current with
  | .punct ")" =>
    advance
    match ← current with
    | .punct p => return if ["=>", ":", "\x7b"].contains p then .yes else .no
    | _ => return .no
  | .punct "[" | .punct "\x7b" | .punct "@" => return .maybe
  | .punct "..." =>
    advance
    match ← current with
    | .word name _ => return if Text.reservedWords.contains name then .maybe else .yes
    | .number _ | .string .. | .bigint _ => return .no
    | _ => return .maybe
  | .word name _ =>
    if name == "this" || !Text.reservedWords.contains name then
      advance
      arrowAfterName
    else
      return .no
  | _ => return .no

/-- Whether an arrow function with parameters in parentheses starts here. -/
def arrowLikeliness : Parse Likeliness := do
  let found ← ahead? (do
    if ← eatWord? "async" then
      if ← onNewLine then return .no
    if ← eat? "(" then arrowAfterParen else return .no : Parse Likeliness)
  return found.getD .no

/-- The parts of an arrow function before its body. -/
structure ArrowHead where
  isAsync : Bool
  params : Parameters
  type : Option TypeExpr

/-- The parameters of an arrow function, and the arrow. -/
def arrowHead (g : Grammar) : Parse ArrowHead := do
  let isAsync ← eatWord? "async"
  let params ← within
    (fun s => { s.bracketed with inAsync := s.inAsync || isAsync }) (parameters g)
  let type ← annotation? g
  faultIf (← onNewLine)
  expect "=>"
  return ⟨isAsync, params, type⟩

/-- The body of an arrow function: an expression or a block. -/
def arrowBody (g : Grammar) (isAsync : Bool) : Parse Body := do
  if ← at? "\x7b" then functionBody g isAsync false
  else
    return .expr (← within
      (fun s => { s with inAsync := isAsync, inGenerator := false, inDecorator := false })
      g.assign)

/-- An arrow function, given the parts before its body. -/
def arrowRest (g : Grammar) (start : Nat) (head : ArrowHead) : Parse Expr := do
  let body ← arrowBody g head.isAsync
  let ps := head.params
  return .arrow (← spanFrom start)
    (.mk none head.isAsync false ps.thisParam ps.span ps.params ps.rest head.type body)

/-- An arrow function whose parameters stand in parentheses, if one starts here. Where a result
type cannot be told from the end of a conditional expression's middle, one has to be followed by a
colon. -/
def parenthesizedArrow? (g : Grammar) (freely : Bool) : Parse (Option Expr) := do
  let start ← position
  let whole : Parse Expr := do
    let head ← arrowHead g
    let e ← arrowRest g start head
    if head.type.isSome && !freely && !(← at? ":") then unexpected
    return e
  match ← arrowLikeliness with
  | .no => return none
  | likely =>
    if (← read).typed && !freely then attempt whole
    else if likely == .yes then
      return some (← whole)
    else
      match ← attempt (arrowHead g) with
      | some head => return some (← arrowRest g start head)
      | none => return none

/-- The parameters of an arrow function that are one name. -/
def singleParameter (span : Span) (name : String) : Parameters :=
  ⟨none, span, [.mk [] (.bind name)], none⟩

/-- An async arrow function whose parameter is one name, if one starts here. -/
def asyncNameArrow? (g : Grammar) : Parse (Option Expr) := do
  let start ← position
  let head ← attempt (do
    expectWord "async"
    if ← onNewLine then unexpected
    let at' ← position
    let name ← identifier
    let span ← spanFrom at'
    if ← onNewLine then unexpected
    expect "=>"
    return ⟨true, singleParameter span name, none⟩ : Parse ArrowHead)
  match head with
  | some head => return some (← arrowRest g start head)
  | none => return none

/-! ## Assignments -/

/-- The assignment operator a token is. -/
def assignOp? : Token → Option AssignOp
  | .punct p =>
    match p with
    | "=" => some .set
    | "+=" => some (.binary .add)
    | "-=" => some (.binary .subtract)
    | "*=" => some (.binary .multiply)
    | "/=" => some (.binary .divide)
    | "%=" => some (.binary .remainder)
    | "**=" => some (.binary .power)
    | "<<=" => some (.binary .shiftLeft)
    | ">>=" => some (.binary .shiftRight)
    | ">>>=" => some (.binary .shiftRightZero)
    | "&=" => some (.binary .bitAnd)
    | "|=" => some (.binary .bitOr)
    | "^=" => some (.binary .bitXor)
    | "&&=" => some (.logical .and)
    | "||=" => some (.logical .or)
    | "??=" => some (.logical .coalesce)
    | _ => none
  | _ => none

/-- A `yield` expression, from its word. -/
def yieldExpr (g : Grammar) : Parse Expr := do
  let start ← position
  expectWord "yield"
  let delegate ← if ← onNewLine then pure false else eat? "*"
  let bare ← (do
    match ← current with
    | .finish => return true
    | .punct p => return [";", "\x7d", ")", "]", ":", ","].contains p
    | .word "in" false => return true
    | _ => return false : Parse Bool)
  if !delegate && (bare || (← onNewLine)) then
    return .yield (← spanFrom start) false none
  else
    let e ← g.assign
    return .yield (← spanFrom start) delegate (some e)

/-- What can follow an operand on the level of assignments: an arrow, an assignment sign or a
question mark. -/
def assignRest (g : Grammar) (start : Nat) (left : Expr) : Parse Expr := do
  match left, ← current with
  | .ident span name, .punct "=>" =>
    faultIf (← onNewLine)
    advance
    arrowRest g start ⟨false, singleParameter span name, none⟩
  | _, token =>
    match assignOp? token with
    | some op =>
      let target ← if op == .set then toTarget left start else .target <$> toSimpleTarget left
      advance
      let right ← g.assign
      return .assign (← spanFrom start) op target right
    | none =>
      if ← eat? "?" then
        let consequent ← within Setting.bracketed g.branch
        expect ":"
        let alternate ← g.assign
        return .conditional (← spanFrom start) left consequent alternate
      else
        return left

/-- An expression without commas. -/
def assign (g : Grammar) (freely : Bool) : Parse Expr := do
  if (← atWord? "yield") && (← read).inGenerator then yieldExpr g
  else if let some e ← parenthesizedArrow? g freely then return e
  else if let some e ← asyncNameArrow? g then return e
  else
    let start ← position
    assignRest g start (← g.binary 0)

/-- An expression, possibly several separated by commas. -/
def expr (g : Grammar) : Parse Expr := do
  let start ← position
  let first ← g.assign
  let others ← many do
    if ← eat? "," then return some (← g.assign) else return none
  if others.isEmpty then return first
  else return .sequence (← spanFrom start) (first :: others)

end JsxDialect.Parse
