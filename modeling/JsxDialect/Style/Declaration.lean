import JsxDialect.Table
import JsxDialect.Text.Blank
import JsxDialect.Text.Case

/-!
# Style declarations

Inline styles as strings: declarations `property: value`, separated by semicolons. Properties are
named in camel case.
-/

namespace JsxDialect.Style

mutual

/-- The text in camel case, given the characters after the last one looked at. -/
def camelChars : List Char → List Char
  | [] => []
  | c :: cs => if c == '-' then camelAfter cs else c :: camelChars cs

/-- The text in camel case after a hyphen: further hyphens are skipped, and the next character is
in upper case. -/
def camelAfter : List Char → List Char
  | [] => []
  | c :: cs => if c == '-' then camelAfter cs else Text.toUpper c ++ camelChars cs

end

/-- A hyphenated name in camel case. -/
def camelCase (name : String) : String :=
  String.ofList (camelChars name.toList)

/-- Whether a text has a declaration. -/
def looksLikeCss (source : String) : Bool :=
  source.toList.contains ':'

/-- A text split at its semicolons. A semicolon right before `base64` belongs to a declaration. -/
def splitDeclarations : List Char → List (List Char)
  | [] => [[]]
  | c :: cs =>
    let pieces := splitDeclarations cs
    if c == ';' && !"base64".toList.isPrefixOf cs then [] :: pieces
    else
      match pieces with
      | [] => [[c]]
      | piece :: others => (c :: piece) :: others

/-- The property and the value of a declaration, if it has a colon. -/
def declaration? (cs : List Char) : Option (String × String) :=
  match cs.dropWhile (· != ':') with
  | [] => none
  | _ :: value =>
    let key := Text.trim (cs.takeWhile (· != ':'))
    some (String.ofList (camelChars key), String.ofList (Text.trim value))

/-- The declarations of a text. A repeated property keeps its first place and takes the last
value. -/
def parse (source : String) : List (String × String) :=
  Table.putAll [] ((splitDeclarations source.toList).filterMap declaration?)

end JsxDialect.Style
