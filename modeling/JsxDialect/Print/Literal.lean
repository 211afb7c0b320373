import JsxDialect.Number.Compact
import JsxDialect.Print.Level

/-!
# Writing literals, names and types
-/

namespace JsxDialect.Print

/-- The character of a string literal, given the character after it. -/
def stringChar (c : Char) (next : Option Char) : List Char :=
  match c.toNat with
  | 0x00 => if next.any Char.isDigit then "\\x00".toList else "\\0".toList
  | 0x07 => "\\x07".toList
  | 0x08 => "\\b".toList
  | 0x0a => "\\n".toList
  | 0x0b => "\\v".toList
  | 0x0c => "\\f".toList
  | 0x0d => "\\r".toList
  | 0x1b => "\\x1B".toList
  | 0x22 => "\\\"".toList
  | 0x5c => "\\\\".toList
  | 0xa0 => "\\xA0".toList
  | 0x2028 => "\\u2028".toList
  | 0x2029 => "\\u2029".toList
  | _ => if c == '$' && next == some '{' then "\\$".toList else [c]

/-- The characters of a string literal between its quotes. -/
def stringChars : List Char → List Char
  | [] => []
  | c :: cs => stringChar c cs.head? ++ stringChars cs

/-- A string literal. -/
def stringText (s : String) : String :=
  "\"" ++ String.ofList (stringChars s.toList) ++ "\""

/-- A text in single quotes. -/
def singleQuoted (s : String) : String :=
  String.ofList (Char.ofNat 0x27 :: s.toList ++ [Char.ofNat 0x27])

/-- A directive, which keeps its text. The quotes around it differ from the first quote in it. -/
def directiveText (raw : String) : String :=
  match raw.toList.find? (fun c => c == '"' || c.toNat == 0x27) with
  | some '"' => singleQuoted raw
  | _ => "\"" ++ raw ++ "\""

/-- The quoted value of an attribute, which keeps its text. -/
def attrString (s : String) : String :=
  if s.contains '"' then singleQuoted s else "\"" ++ s ++ "\""

/-- A numeric literal. -/
def numberText (x : Number) : String :=
  String.ofList x.literal

/-- Whether a numeric literal would swallow a point after it. -/
def endsOpen (x : Number) : Bool :=
  x.literal.all Char.isDigit

/-- A name in an import or export. -/
def exportName (n : ExportName) : String :=
  if n.quoted then stringText n.name else n.name

/-- A pair of names in an export: the second is written if it differs. -/
def exportItem (item : ExportName × ExportName) : String :=
  if item.1.name == item.2.name then exportName item.1
  else exportName item.1 ++ " as " ++ exportName item.2

/-- An import in braces. -/
def importNamed (exported name : String) (quoted : Bool) : String :=
  if exported == name then name else exportName ⟨exported, quoted⟩ ++ " as " ++ name

/-- The imports of one statement: those without braces, then those in braces. -/
def importClause (items : List ImportItem) : String :=
  let plain := items.filterMap fun
    | .default n => some n
    | .all n => some ("* as " ++ n)
    | .named .. => none
  let named := items.filterMap fun
    | .named exported n quoted => some (importNamed exported n quoted)
    | _ => none
  if items.isEmpty then "\x7b\x7d"
  else commas (plain ++ if named.isEmpty then [] else ["\x7b " ++ commas named ++ " \x7d"])

/-- Whether a type needs parentheses as the item of an array. -/
def isJoined : TypeExpr → Bool
  | .union _ | .intersection _ => true
  | _ => false

mutual

/-- A type. -/
def typeText : TypeExpr → String
  | .keyword text => text
  | .string value => stringText value
  | .number value => numberText value
  | .reference name path args =>
    let whole := ".".intercalate (name :: path)
    match args with
    | [] => whole
    | args => whole ++ "<" ++ commas (typeTexts args) ++ ">"
  | .array item => parens (isJoined item) (typeText item) ++ "[]"
  | .union members => " | ".intercalate (typeTexts members)
  | .intersection members => " & ".intercalate (typeTexts members)

/-- Several types. -/
def typeTexts : List TypeExpr → List String
  | [] => []
  | t :: ts => typeText t :: typeTexts ts

end

/-- The type of a name after a colon, if it has one. -/
def annotation : Option TypeExpr → String
  | some t => ": " ++ typeText t
  | none => ""

end JsxDialect.Print
