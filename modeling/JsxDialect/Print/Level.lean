import JsxDialect.Syntax.Basic

/-!
# Where an expression stands

An expression is written with parentheses if the place it stands in binds more strongly than its
own operator. A place is a level of binding together with what matters at the very start of a
statement and inside the heads of loops.
-/

namespace JsxDialect.Print

/-- Levels of binding, from weak to strong. -/
inductive Level where
  | lowest | comma | spread | yield | assign | conditional | coalesce | or | and | bitOr | bitXor
  | bitAnd | equals | compare | shift | add | multiply | power | unary | update | new | call
  | member
deriving Repr, DecidableEq, Inhabited

/-- The rank of a level. -/
def Level.rank : Level → Nat
  | .lowest => 0
  | .comma => 1
  | .spread => 2
  | .yield => 3
  | .assign => 4
  | .conditional => 5
  | .coalesce => 6
  | .or => 7
  | .and => 8
  | .bitOr => 9
  | .bitXor => 10
  | .bitAnd => 11
  | .equals => 12
  | .compare => 13
  | .shift => 14
  | .add => 15
  | .multiply => 16
  | .power => 17
  | .unary => 18
  | .update => 19
  | .new => 20
  | .call => 21
  | .member => 22

/-- Whether a level binds at least as strongly as another. -/
def Level.reaches (l m : Level) : Bool :=
  m.rank ≤ l.rank

/-- What an expression stands at the very start of. -/
inductive Lead where
  | none | statement | arrowBody | defaultExport
deriving Repr, DecidableEq, Inhabited

/-- A place for an expression. In the head of a loop `in` needs parentheses, and in the callee of
`new` calls do. -/
structure Place where
  level : Level
  lead : Lead
  noIn : Bool
  noCall : Bool
  indent : Nat

/-- A place of a level where nothing else matters. -/
def Place.plain (indent : Nat) (level : Level) : Place :=
  ⟨level, .none, false, false, indent⟩

/-- The place inside the parentheses that an expression gets, if it gets them. -/
def Place.inParens (p : Place) (wrapped : Bool) : Place :=
  if wrapped then { p with lead := .none } else p

/-- The place of an operand that starts the expression. -/
def Place.first (p : Place) (level : Level) : Place :=
  { p with level }

/-- The place of an operand that does not start the expression. -/
def Place.later (p : Place) (level : Level) : Place :=
  { p with level, lead := .none }

/-- The place of a part that stands in brackets of its own. -/
def Place.alone (p : Place) (level : Level) : Place :=
  .plain p.indent level

/-- The same text, in parentheses if needed. -/
def parens (wrapped : Bool) (s : String) : String :=
  if wrapped then "(" ++ s ++ ")" else s

/-- The tabs a line starts with. -/
def tabs (indent : Nat) : String :=
  String.ofList (List.replicate indent '\t')

/-- Lines in braces. -/
def braces (indent : Nat) (lines : List String) : String :=
  if lines.isEmpty then "\x7b\x7d"
  else "\x7b\n" ++ String.join lines ++ tabs indent ++ "\x7d"

/-- Texts separated by commas. -/
def commas (items : List String) : String :=
  ", ".intercalate items

/-! ## Operators -/

/-- How a unary operator is written: words are followed by a space. -/
def unaryText : UnaryOp → String
  | .not => "!"
  | .bitNot => "~"
  | .plus => "+"
  | .minus => "-"
  | .typeof => "typeof "
  | .void => "void "
  | .delete => "delete "

/-- How an update operator is written. -/
def updateText : UpdateOp → String
  | .increment => "++"
  | .decrement => "--"

/-- How a binary operator is written. -/
def binaryText : BinaryOp → String
  | .equal => "=="
  | .notEqual => "!="
  | .strictEqual => "==="
  | .strictNotEqual => "!=="
  | .less => "<"
  | .lessEqual => "<="
  | .greater => ">"
  | .greaterEqual => ">="
  | .shiftLeft => "<<"
  | .shiftRight => ">>"
  | .shiftRightZero => ">>>"
  | .add => "+"
  | .subtract => "-"
  | .multiply => "*"
  | .divide => "/"
  | .remainder => "%"
  | .power => "**"
  | .bitOr => "|"
  | .bitXor => "^"
  | .bitAnd => "&"
  | .isIn => "in"
  | .instanceOf => "instanceof"

/-- The level of a binary operator and the next lower one. -/
def binaryLevels : BinaryOp → Level × Level
  | .equal | .notEqual | .strictEqual | .strictNotEqual => (.equals, .bitAnd)
  | .less | .lessEqual | .greater | .greaterEqual | .isIn | .instanceOf => (.compare, .equals)
  | .shiftLeft | .shiftRight | .shiftRightZero => (.shift, .compare)
  | .add | .subtract => (.add, .shift)
  | .multiply | .divide | .remainder => (.multiply, .add)
  | .power => (.power, .multiply)
  | .bitOr => (.bitOr, .and)
  | .bitXor => (.bitXor, .bitOr)
  | .bitAnd => (.bitAnd, .bitXor)

/-- How a logical operator is written. -/
def logicalText : LogicalOp → String
  | .or => "||"
  | .and => "&&"
  | .coalesce => "??"

/-- The level of a logical operator and the next lower one, at which both its operands stand. -/
def logicalLevels : LogicalOp → Level × Level
  | .or => (.or, .coalesce)
  | .and => (.and, .or)
  | .coalesce => (.coalesce, .conditional)

/-- How an assignment operator is written. -/
def assignText : AssignOp → String
  | .set => "="
  | .binary op => binaryText op ++ "="
  | .logical op => logicalText op ++ "="

/-- How a kind of declaration is written. -/
def declText : DeclKind → String
  | .var => "var"
  | .let => "let"
  | .const => "const"

end JsxDialect.Print
