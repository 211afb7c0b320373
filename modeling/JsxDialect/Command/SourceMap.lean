import JsxDialect.Source.Prepared

/-!
# Source maps

A source map names the file that code was made from and repeats its text. It is appended to the code
as a data URL.
-/

namespace JsxDialect

/-- A source map. -/
structure SourceMap where
  source : String
  content : String
deriving Repr, DecidableEq, Inhabited

namespace SourceMap

/-- The version of the format. -/
def version : Nat := 3

/-- The start of a data URL, up to the comma. -/
def mediaType : String :=
  "data:application/json;charset=utf-8;base64"

/-- The comment that ties a map to code. -/
def comment : String :=
  "\n//# sourceMappingURL="

/-- The hexadecimal digit of a number below sixteen. -/
def hexDigit (n : Nat) : Char :=
  if n < 10 then Char.ofNat ('0'.toNat + n) else Char.ofNat ('a'.toNat + n - 10)

/-- A character as part of a JSON string. -/
def jsonChar (c : Char) : List Char :=
  match c with
  | '"' => ['\\', '"']
  | '\\' => ['\\', '\\']
  | '\n' => ['\\', 'n']
  | '\r' => ['\\', 'r']
  | '\t' => ['\\', 't']
  | c =>
    if c.toNat < 0x20 then
      ['\\', 'u', '0', '0', hexDigit (c.toNat / 16), hexDigit (c.toNat % 16)]
    else [c]

/-- A text as a JSON string. -/
def jsonString (text : String) : String :=
  String.ofList ('"' :: text.toList.flatMap jsonChar ++ ['"'])

/-- The map as JSON. It has no mappings of single places. -/
def json (m : SourceMap) : String :=
  "\x7b\"version\":" ++ toString version ++ ",\"names\":[],\"sources\":[" ++ jsonString m.source
    ++ "],\"sourcesContent\":[" ++ jsonString m.content ++ "],\"mappings\":\"\"\x7d"

/-- The digit of a number below sixty-four. -/
def base64Digit (n : Nat) : Char :=
  if n < 26 then Char.ofNat ('A'.toNat + n)
  else if n < 52 then Char.ofNat ('a'.toNat + (n - 26))
  else if n < 62 then Char.ofNat ('0'.toNat + (n - 52))
  else if n == 62 then '+'
  else '/'

/-- Bytes in base 64, three at a time. -/
def base64 : List Nat → List Char
  | [] => []
  | [a] => [base64Digit (a / 4), base64Digit (a % 4 * 16), '=', '=']
  | [a, b] =>
    [base64Digit (a / 4), base64Digit (a % 4 * 16 + b / 16), base64Digit (b % 16 * 4), '=']
  | a :: b :: c :: rest =>
    base64Digit (a / 4) :: base64Digit (a % 4 * 16 + b / 16) :: base64Digit (b % 16 * 4 + c / 64)
      :: base64Digit (c % 64) :: base64 rest

/-- The map as a data URL. -/
def dataUrl (m : SourceMap) : String :=
  let bytes := m.json.toUTF8.toList.map UInt8.toNat
  mediaType ++ "," ++ String.ofList (base64 bytes)

end SourceMap

end JsxDialect
