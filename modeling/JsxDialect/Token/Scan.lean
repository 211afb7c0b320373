import JsxDialect.Text.Blank
import JsxDialect.Text.Identifier
import JsxDialect.Token.Basic

/-!
# Scanning

`Token.scan` gives the token at the start of a text and the number of characters it takes. What a
text starts with depends on the place in the grammar, so there are further functions for the rest
of a template, for a regular expression, for the text between tags and for the value of an
attribute. Blanks and comments between tokens are measured by `Token.trivia`.

A greater-than sign is always a token of its own, since it may end a tag; `Token.longGreater`
joins it with what follows where an operator can stand.
-/

namespace JsxDialect.Token

open Text

/-- Whether a character ends a line. -/
def isLineEnd (c : Char) : Bool :=
  c == '\n' || c == '\r' || c.toNat == 0x2028 || c.toNat == 0x2029

/-- Whether a character separates tokens: white space, the byte order mark and the zero-width
space. -/
def isSpace (c : Char) : Bool :=
  isBlank c || c.toNat == 0xfeff || c.toNat == 0x200b

/-- Where a reader of blanks and comments stands. -/
inductive TriviaMode where
  | code | line | block
deriving DecidableEq

/-- The number of characters before the next token, and whether a line ends among them; nothing
for a comment that does not end. -/
def triviaFrom (mode : TriviaMode) (count : Nat) (newline : Bool) :
    List Char → Option (Nat × Bool)
  | [] => if mode = .block then none else some (count, newline)
  | c :: cs =>
    match mode with
    | .line =>
      if isLineEnd c then triviaFrom .code (count + 1) true cs
      else triviaFrom .line (count + 1) newline cs
    | .block =>
      match cs with
      | [] => none
      | d :: ds =>
        if c == '*' && d == '/' then triviaFrom .code (count + 2) newline ds
        else triviaFrom .block (count + 1) (newline || isLineEnd c) (d :: ds)
    | .code =>
      match cs with
      | [] => if isSpace c then some (count + 1, newline || isLineEnd c) else some (count, newline)
      | d :: ds =>
        if isSpace c then triviaFrom .code (count + 1) (newline || isLineEnd c) (d :: ds)
        else if c == '/' && d == '/' then triviaFrom .line (count + 2) newline ds
        else if c == '/' && d == '*' then triviaFrom .block (count + 2) newline ds
        else some (count, newline)

/-- The blanks and comments a text starts with. -/
def trivia (cs : List Char) : Option (Nat × Bool) :=
  triviaFrom .code 0 false cs

/-! ## Words and numbers -/

/-- The value of a hexadecimal digit. -/
def hexDigit? (c : Char) : Option Nat :=
  if c.isDigit then some (c.toNat - 48)
  else if 'a' ≤ c && c ≤ 'f' then some (c.toNat - 87)
  else if 'A' ≤ c && c ≤ 'F' then some (c.toNat - 55)
  else none

/-- The value of digits in a base below seventeen. -/
def digitsValue (base : Nat) (cs : List Char) : Nat :=
  cs.foldl (fun n c => n * base + (hexDigit? c).getD 0) 0

/-- The value of the hexadecimal digits a text consists of. -/
def hexValue? (cs : List Char) : Option Nat :=
  if !cs.isEmpty && cs.all (hexDigit? · |>.isSome) then some (digitsValue 16 cs) else none

/-- The characters of the word a text starts with, escapes resolved; the number of characters it
takes; and whether it has escapes. -/
def wordChars : List Char → List Char × Nat × Bool
  | '\\' :: 'u' :: a :: b :: c :: d :: cs =>
    match hexValue? [a, b, c, d] with
    | some n =>
      if isIdentifierPart (Char.ofNat n) then
        let (name, count, _) := wordChars cs
        (Char.ofNat n :: name, count + 6, true)
      else ([], 0, true)
    | none => ([], 0, true)
  | c :: cs =>
    if isIdentifierPart c then
      let (name, count, escaped) := wordChars cs
      (c :: name, count + 1, escaped)
    else ([], 0, false)
  | [] => ([], 0, false)

/-- The length of the run of digits a text starts with: single separators may stand between two
digits. Nothing if a separator stands elsewhere. -/
def digitRun (isDigit : Char → Bool) : List Char → Option Nat
  | '_' :: cs =>
    match cs with
    | [] => none
    | c :: ds => if isDigit c then (digitRun isDigit (c :: ds)).map (· + 1) else none
  | c :: cs => if isDigit c then (digitRun isDigit cs).map (· + 1) else some 0
  | [] => some 0

/-- The digits among some characters. -/
def withoutSeparators (cs : List Char) : List Char :=
  cs.filter (· != '_')

/-- A numeric token of `count` characters; it may not run into a word or a further digit. -/
def endNumber (token : Token) (count : Nat) (cs : List Char) : Token × Nat :=
  match cs.drop count with
  | c :: _ => if isIdentifierPart c || c == '\\' then (.invalid, count) else (token, count)
  | [] => (token, count)

/-- An integer in the base that its two first characters announce. -/
def scanRadix (base : Nat) (isDigit : Char → Bool) (cs : List Char) : Token × Nat :=
  match digitRun isDigit (cs.drop 2) with
  | none | some 0 => (.invalid, 2)
  | some n =>
    if (cs.drop 2).head? == some '_' then (.invalid, 2)
    else if (cs.drop (n + 2)).head? == some 'n' then
      endNumber (.bigint (String.ofList (withoutSeparators (cs.take (n + 3))))) (n + 3) cs
    else
      endNumber (.number (.ofNat (digitsValue base (withoutSeparators ((cs.drop 2).take n)))))
        (n + 2) cs

/-- The length of the exponent a text starts with, and its value. -/
def exponentPart (cs : List Char) : Option (Nat × Int) :=
  match cs with
  | c :: rest =>
    if c == 'e' || c == 'E' then
      let signed := match rest.head? with
        | some s => s == '+' || s == '-'
        | none => false
      let digits := if signed then rest.drop 1 else rest
      match digitRun Char.isDigit digits with
      | none | some 0 => none
      | some n =>
        let value : Int := digitsValue 10 (withoutSeparators (digits.take n))
        some ((if signed then n + 2 else n + 1), if rest.head? == some '-' then -value else value)
    else some (0, 0)
  | [] => some (0, 0)

/-- A decimal literal. -/
def scanDecimal (cs : List Char) : Token × Nat :=
  match digitRun Char.isDigit cs with
  | none => (.invalid, 1)
  | some whole =>
    let leadingZero := cs.head? == some '0' && 1 < whole
    let afterWhole := cs.drop whole
    if leadingZero then (.invalid, 1)
    else if afterWhole.head? == some 'n' then
      endNumber (.bigint (String.ofList (withoutSeparators (cs.take (whole + 1))))) (whole + 1) cs
    else
      let hasPoint := afterWhole.head? == some '.'
      match if hasPoint then digitRun Char.isDigit (afterWhole.drop 1) else some 0 with
      | none => (.invalid, 1)
      | some places =>
        let mantissa := if hasPoint then whole + 1 + places else whole
        match exponentPart (cs.drop mantissa) with
        | none => (.invalid, 1)
        | some (length, exponent) =>
          let fraction := withoutSeparators ((afterWhole.drop 1).take places)
          let digits := withoutSeparators (cs.take whole) ++ fraction
          endNumber (.number (.ofDecimal (digitsValue 10 digits) (exponent - fraction.length)))
            (mantissa + length) cs

/-- A numeric literal. -/
def scanNumber (cs : List Char) : Token × Nat :=
  match cs with
  | '0' :: c :: _ =>
    if c == 'x' || c == 'X' then scanRadix 16 (hexDigit? · |>.isSome) cs
    else if c == 'o' || c == 'O' then scanRadix 8 (fun d => '0' ≤ d && d ≤ '7') cs
    else if c == 'b' || c == 'B' then scanRadix 2 (fun d => d == '0' || d == '1') cs
    else scanDecimal cs
  | _ => scanDecimal cs

/-! ## Strings, templates and regular expressions -/

/-- The code units an escape stands for, given the text after its backslash, and the number of
characters it takes there. -/
def escape? (cs : List Char) : Option (List Nat × Nat) :=
  match cs with
  | [] => none
  | c :: rest =>
    match c with
    | 'n' => some ([10], 1)
    | 't' => some ([9], 1)
    | 'r' => some ([13], 1)
    | 'b' => some ([8], 1)
    | 'v' => some ([11], 1)
    | 'f' => some ([12], 1)
    | 'x' =>
      if rest.length < 2 then none else (hexValue? (rest.take 2)).map fun n => ([n], 3)
    | 'u' =>
      if rest.head? == some '{' then
        let digits := (rest.drop 1).takeWhile (· != '}')
        match hexValue? digits with
        | some n =>
          if n ≤ 0x10ffff && digits.length + 1 < rest.length then some ([n], digits.length + 3)
          else none
        | none => none
      else if rest.length < 4 then none
      else (hexValue? (rest.take 4)).map fun n => ([n], 5)
    | '\r' => some ([], if rest.head? == some '\n' then 2 else 1)
    | c =>
      if isLineEnd c then some ([], 1)
      else if c == '0' && !(rest.head?.any Char.isDigit) then some ([0], 1)
      else if c.isDigit then none
      else some ([c.toNat], 1)

/-- The body of a string up to and with its closing quote: its code units and length. The first
`skip` characters belong to an escape already read. -/
def stringBody (quote : Char) (skip : Nat) : List Char → Option (List Nat × Nat)
  | [] => none
  | c :: cs =>
    match skip with
    | k + 1 => (stringBody quote k cs).map fun (units, n) => (units, n + 1)
    | 0 =>
      if c == quote then some ([], 1)
      else if c == '\n' || c == '\r' then none
      else if c == '\\' then
        match escape? cs with
        | some (units, k) =>
          (stringBody quote k cs).map fun (more, n) => (units ++ more, n + 1)
        | none => none
      else (stringBody quote 0 cs).map fun (units, n) => (c.toNat :: units, n + 1)

/-- The characters of code units: the halves of a surrogate pair are joined, and one that stands
alone becomes the replacement character. -/
def joinUnits : List Nat → List Char
  | [] => []
  | [u] => [if 0xd800 ≤ u && u ≤ 0xdfff then Char.ofNat 0xfffd else Char.ofNat u]
  | u :: v :: units =>
    if 0xd800 ≤ u && u ≤ 0xdbff && 0xdc00 ≤ v && v ≤ 0xdfff then
      Char.ofNat (0x10000 + (u - 0xd800) * 0x400 + (v - 0xdc00)) :: joinUnits units
    else if 0xd800 ≤ u && u ≤ 0xdfff then Char.ofNat 0xfffd :: joinUnits (v :: units)
    else Char.ofNat u :: joinUnits (v :: units)

/-- A string that starts with the given quote. -/
def scanString (quote : Char) (cs : List Char) : Token × Nat :=
  match stringBody quote 0 (cs.drop 1) with
  | some (units, n) =>
    (.string (String.ofList (joinUnits units)) (String.ofList ((cs.drop 1).take (n - 1))), n + 1)
  | none => (.invalid, 1)

/-- The back quote that delimits templates. -/
def backQuote : Char :=
  Char.ofNat 0x60

/-- The length of a piece of a template without what ends it, whether its escapes are readable,
and whether it is the last piece. -/
def templateBody (skip : Nat) (readable : Bool) : List Char → Option (Nat × Bool × Bool)
  | [] => none
  | c :: cs =>
    let next (k : Nat) (r : Bool) := (templateBody k r cs).map fun (n, more) => (n + 1, more)
    match skip with
    | k + 1 => next k readable
    | 0 =>
      if c == backQuote then some (0, readable, true)
      else if c == '$' && cs.head? == some '{' then some (0, readable, false)
      else if c == '\\' then next 1 (readable && (escape? cs).isSome)
      else next 0 readable

/-- The text with every kind of line end turned into a line feed. -/
def unifyLineEnds : List Char → List Char
  | '\r' :: '\n' :: cs => '\n' :: unifyLineEnds cs
  | '\r' :: cs => '\n' :: unifyLineEnds cs
  | c :: cs => c :: unifyLineEnds cs
  | [] => []

/-- A piece of a template, after the character that starts it. -/
def scanTemplate (cs : List Char) : Token × Nat :=
  match templateBody 0 true cs with
  | some (n, readable, last) =>
    (.template (String.ofList (unifyLineEnds (cs.take n))) readable last,
      n + if last then 1 else 2)
  | none => (.invalid, 0)

/-- The code units that a piece of a template stands for. The first `skip` characters belong to an
escape already read. -/
def cookedUnits? (skip : Nat) : List Char → Option (List Nat)
  | [] => some []
  | c :: cs =>
    match skip with
    | k + 1 => cookedUnits? k cs
    | 0 =>
      if c == '\\' then
        match escape? cs with
        | some (units, k) => (cookedUnits? k cs).map (units ++ ·)
        | none => none
      else (cookedUnits? 0 cs).map (c.toNat :: ·)

/-- The text that a piece of a template stands for, if its escapes are readable. -/
def cooked? (raw : String) : Option String :=
  (cookedUnits? 0 raw.toList).map fun units => String.ofList (joinUnits units)

/-- The length of the body of a regular expression with its closing slash. -/
def regexBody (inClass escaped : Bool) : List Char → Option Nat
  | [] => none
  | c :: cs =>
    if isLineEnd c then none
    else if escaped then (regexBody inClass false cs).map (· + 1)
    else if c == '\\' then (regexBody inClass true cs).map (· + 1)
    else if c == '[' then (regexBody true false cs).map (· + 1)
    else if c == ']' then (regexBody false false cs).map (· + 1)
    else if c == '/' && !inClass then some 1
    else (regexBody inClass false cs).map (· + 1)

/-- Whether the flags of a regular expression are known ones, each given once. -/
def validFlags : List Char → Bool
  | [] => true
  | c :: cs => "gimsuydv".toList.contains c && !cs.contains c && validFlags cs

/-- A regular expression, given the text after its first slash. -/
def scanRegex (cs : List Char) : Token × Nat :=
  match regexBody false false cs with
  | some n =>
    let flags := (cs.drop n).takeWhile isIdentifierPart
    (.regex (String.ofList ('/' :: cs.take n ++ flags)) (validFlags flags), n + flags.length)
  | none => (.invalid, 0)

/-! ## Tokens -/

/-- The punctuators, longer ones before their beginnings. -/
def punctuators : List String :=
  ["...", "===", "!==", "**=", "<<=", "&&=", "||=", "??=", "=>", "==", "!=", "<=", "<<", "&&",
    "||", "??", "?.", "++", "--", "+=", "-=", "*=", "/=", "%=", "&=", "|=", "^=", "**", "\x7b",
    "\x7d", "(", ")", "[", "]", ";", ",", "<", ">", "+", "-", "*", "/", "%", "&", "|", "^", "!",
    "~", "?", ":", "=", ".", "@"]

/-- A punctuator. A question mark before a point and a digit stands alone. -/
def scanPunct (cs : List Char) : Token × Nat :=
  match punctuators.find? (·.toList.isPrefixOf cs) with
  | some "?." =>
    if (cs.drop 2).head?.any Char.isDigit then (.punct "?", 1) else (.punct "?.", 2)
  | some p => (.punct p, p.length)
  | none => (.invalid, 1)

/-- A word; it may not start with a digit. -/
def scanWord (cs : List Char) : Token × Nat :=
  let (name, count, escaped) := wordChars cs
  match name with
  | [] => (.invalid, 1)
  | c :: _ =>
    if isIdentifierStart c then (.word (String.ofList name) escaped, count) else (.invalid, 1)

/-- The token a text starts with and the number of characters it takes. -/
def scan (cs : List Char) : Token × Nat :=
  match cs with
  | [] => (.finish, 0)
  | c :: rest =>
    if isIdentifierStart c || c == '\\' then scanWord cs
    else if c.isDigit || (c == '.' && rest.head?.any Char.isDigit) then scanNumber cs
    else if c == '"' || c.toNat == 0x27 then scanString c cs
    else if c == backQuote then
      let (t, n) := scanTemplate rest
      (t, n + 1)
    else if c == '#' then
      match scanWord rest with
      | (.word name _, n) => (.privateName name, n + 1)
      | _ => (.invalid, 1)
    else scanPunct cs

/-- The operator that a greater-than sign and the text after it begin with. -/
def longGreater (cs : List Char) : String :=
  ([">>>=", ">>>", ">>=", ">>", ">="].find? (·.toList.isPrefixOf ('>' :: cs))).getD ">"

/-! ## Markup -/

/-- The token a text between tags starts with. -/
def scanChild (cs : List Char) : Token × Nat :=
  match cs with
  | [] => (.finish, 0)
  | c :: _ =>
    if c == '<' then (.punct "<", 1)
    else if c == '{' then (.punct "\x7b", 1)
    else
      let raw := cs.takeWhile fun c => c != '<' && c != '{'
      (.text (String.ofList raw), raw.length)

/-- The quoted value of an attribute, without escapes, if a text starts with one. -/
def scanQuoted? (cs : List Char) : Option (Token × Nat) :=
  match cs with
  | [] => none
  | c :: rest =>
    if c == '"' || c.toNat == 0x27 then
      let value := rest.takeWhile (· != c)
      if value.length < rest.length then
        some (.string (String.ofList value) (String.ofList value), value.length + 2)
      else some (.invalid, 1)
    else none

/-- The rest of a name in a tag, where hyphens may stand, if a text starts with a hyphen. -/
def hyphenated (cs : List Char) : List Char :=
  if cs.head? == some '-' then cs.takeWhile fun c => c == '-' || isIdentifierPart c else []

end JsxDialect.Token
