import JsxDialect.Number.Basic

/-!
# JSON

Configuration is written in JSON. The reader is strict: white space is space, tab and the two line
ends, numbers have no leading zeros and are finite, and nothing may follow the value. Numbers are
not used by any configuration, so they are checked and dropped.

A string may escape half of a surrogate pair. It is then still JSON, but no text.
-/

namespace JsxDialect

/-- JSON values; a string that is no text is `none`. Members keep their order and repetitions. -/
inductive Json where
  | null
  | bool (value : Bool)
  | number
  | string (value : Option String)
  | array (items : List Json)
  | object (members : List (Option String × Json))
deriving Repr, Inhabited

namespace Json

/-- White space between tokens. -/
def isSpace (c : Char) : Bool :=
  c == ' ' || c == '\t' || c == '\n' || c == '\r'

/-- The text from the next token on. -/
def skipSpace (cs : List Char) : List Char :=
  cs.dropWhile isSpace

/-- The rest of a text that starts with a word. -/
def afterWord? (word : String) (cs : List Char) : Option (List Char) :=
  if word.toList.isPrefixOf cs then some (cs.drop word.length) else none

/-! ## Numbers -/

/-- One or more digits, and the rest. -/
def readDigits? (cs : List Char) : Option (List Char × List Char) :=
  match cs.takeWhile Char.isDigit with
  | [] => none
  | digits => some (digits, cs.dropWhile Char.isDigit)

/-- The digits before the point, and the rest: a zero alone, or digits with no leading zero. -/
def readInteger? (cs : List Char) : Option (List Char × List Char) :=
  match readDigits? cs with
  | some ('0' :: _ :: _, _) => none
  | read => read

/-- The digits behind a point, if there is one, and the rest. -/
def readFraction? : List Char → Option (List Char × List Char)
  | '.' :: cs => readDigits? cs
  | cs => some ([], cs)

/-- The number that decimal digits write. -/
def digitsNat (digits : List Char) : Nat :=
  digits.foldl (fun n c => n * 10 + (c.toNat - '0'.toNat)) 0

/-- The exponent, zero if there is none, and the rest. -/
def readExponent? : List Char → Option (Int × List Char)
  | c :: cs =>
    if c == 'e' || c == 'E' then
      match cs with
      | '+' :: cs => (readDigits? cs).map fun (digits, rest) => ((digitsNat digits : Int), rest)
      | '-' :: cs => (readDigits? cs).map fun (digits, rest) => (-(digitsNat digits : Int), rest)
      | cs => (readDigits? cs).map fun (digits, rest) => ((digitsNat digits : Int), rest)
    else some (0, c :: cs)
  | [] => some (0, [])

/-- The rest after a number without its sign. The number must not be beyond the finite ones. -/
def afterUnsigned? (cs : List Char) : Option (List Char) := do
  let (integer, cs) ← readInteger? cs
  let (fraction, cs) ← readFraction? cs
  let (exponent, cs) ← readExponent? cs
  match Number.ofDecimal (digitsNat (integer ++ fraction)) (exponent - fraction.length) with
  | .finite _ _ => return cs
  | .infinite => none

/-! ## Strings -/

/-- The value of a hexadecimal digit. -/
def hexDigit? (c : Char) : Option Nat :=
  if c.isDigit then some (c.toNat - '0'.toNat)
  else if 'a' ≤ c ∧ c ≤ 'f' then some (c.toNat - 'a'.toNat + 10)
  else if 'A' ≤ c ∧ c ≤ 'F' then some (c.toNat - 'A'.toNat + 10)
  else none

/-- The value of four hexadecimal digits. -/
def hexUnit? (a b c d : Char) : Option Nat := do
  let a ← hexDigit? a
  let b ← hexDigit? b
  let c ← hexDigit? c
  let d ← hexDigit? d
  return ((a * 16 + b) * 16 + c) * 16 + d

/-- The character that a letter after a backslash stands for. -/
def escaped? (c : Char) : Option Nat :=
  match c with
  | '"' | '\\' | '/' => some c.toNat
  | 'b' => some 0x8
  | 'f' => some 0xc
  | 'n' => some 0xa
  | 'r' => some 0xd
  | 't' => some 0x9
  | _ => none

/-- The code points and escaped surrogates of a string up to its closing quote, and the rest. -/
def stringUnits? : List Char → Option (List Nat × List Char)
  | [] => none
  | '"' :: cs => some ([], cs)
  | '\\' :: 'u' :: a :: b :: c :: d :: cs => do
    let unit ← hexUnit? a b c d
    let (units, rest) ← stringUnits? cs
    return (unit :: units, rest)
  | '\\' :: c :: cs => do
    let unit ← escaped? c
    let (units, rest) ← stringUnits? cs
    return (unit :: units, rest)
  | c :: cs =>
    if c.toNat < 0x20 then none
    else do
      let (units, rest) ← stringUnits? cs
      return (c.toNat :: units, rest)

/-- Whether a number is the first half of a surrogate pair. -/
def isLead (n : Nat) : Bool :=
  0xd800 ≤ n && n < 0xdc00

/-- Whether a number is the second half of a surrogate pair. -/
def isTrail (n : Nat) : Bool :=
  0xdc00 ≤ n && n < 0xe000

/-- The text of code points, with surrogate pairs joined; none if half of a pair is left. -/
def textOfUnits? : List Nat → Option (List Char)
  | [] => some []
  | [n] => if isLead n || isTrail n then none else some [Char.ofNat n]
  | n :: m :: ns =>
    if isLead n && isTrail m then
      (textOfUnits? ns).map (Char.ofNat (0x10000 + (n - 0xd800) * 0x400 + (m - 0xdc00)) :: ·)
    else if isLead n || isTrail n then none
    else (textOfUnits? (m :: ns)).map (Char.ofNat n :: ·)

/-- A string after its opening quote, and the rest. -/
def readString? (cs : List Char) : Option (Option String × List Char) :=
  (stringUnits? cs).map fun (units, rest) => ((textOfUnits? units).map String.ofList, rest)

/-! ## Values -/

mutual

/-- A value at the start of a text, and the rest. -/
def readValue? : Nat → List Char → Option (Json × List Char)
  | 0, _ => none
  | fuel + 1, cs =>
    match skipSpace cs with
    | [] => none
    | '"' :: cs => (readString? cs).map fun (s, rest) => (.string s, rest)
    | '[' :: cs =>
      match skipSpace cs with
      | ']' :: rest => some (.array [], rest)
      | cs => (readItems? fuel cs).map fun (items, rest) => (.array items, rest)
    | '{' :: cs =>
      match skipSpace cs with
      | '}' :: rest => some (.object [], rest)
      | cs => (readMembers? fuel cs).map fun (members, rest) => (.object members, rest)
    | 'n' :: cs => (afterWord? "ull" cs).map (.null, ·)
    | 't' :: cs => (afterWord? "rue" cs).map (.bool true, ·)
    | 'f' :: cs => (afterWord? "alse" cs).map (.bool false, ·)
    | '-' :: cs => (afterUnsigned? cs).map (.number, ·)
    | cs => (afterUnsigned? cs).map (.number, ·)

/-- The items of an array up to its closing bracket, and the rest. -/
def readItems? : Nat → List Char → Option (List Json × List Char)
  | 0, _ => none
  | fuel + 1, cs =>
    match readValue? fuel cs with
    | none => none
    | some (item, cs) =>
      match skipSpace cs with
      | ']' :: rest => some ([item], rest)
      | ',' :: cs => (readItems? fuel cs).map fun (items, rest) => (item :: items, rest)
      | _ => none

/-- The members of an object up to its closing brace, and the rest. -/
def readMembers? : Nat → List Char → Option (List (Option String × Json) × List Char)
  | 0, _ => none
  | fuel + 1, cs =>
    match readMember? fuel cs with
    | none => none
    | some (m, cs) =>
      match skipSpace cs with
      | '}' :: rest => some ([m], rest)
      | ',' :: cs => (readMembers? fuel cs).map fun (members, rest) => (m :: members, rest)
      | _ => none

/-- A member of an object, and the rest. -/
def readMember? : Nat → List Char → Option ((Option String × Json) × List Char)
  | 0, _ => none
  | fuel + 1, cs =>
    match skipSpace cs with
    | '"' :: cs =>
      match readString? cs with
      | some (name, cs) =>
        match skipSpace cs with
        | ':' :: cs => (readValue? fuel cs).map fun (value, rest) => ((name, value), rest)
        | _ => none
      | none => none
    | _ => none

end

/-- The value that a text is. Each step of the reader takes a character or is followed by one that
does, so the fuel suffices. -/
def ofText? (text : String) : Option Json :=
  match readValue? (3 * text.length + 3) text.toList with
  | some (value, rest) => if (skipSpace rest).isEmpty then some value else none
  | none => none

end Json

end JsxDialect
