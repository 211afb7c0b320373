import JsxDialect.Text.Case
import JsxDialect.Text.IdentifierTable

/-!
# Identifier names

The characters an identifier is made of, and the words that are reserved and hence no
identifiers. A property may be named by a reserved word, so `isIdentifierName` accepts them.
-/

namespace JsxDialect.Text

/-- Whether a character may start an identifier. -/
def isIdentifierStart (c : Char) : Bool :=
  if c.toNat < 0x80 then c.isAlpha || c == '$' || c == '_'
  else inRanges c.toNat identifierStartRanges

/-- Whether a character may follow the first one of an identifier. The two joiners may. -/
def isIdentifierPart (c : Char) : Bool :=
  if c.toNat < 0x80 then c.isAlphanum || c == '$' || c == '_'
  else inRanges c.toNat identifierStartRanges || inRanges c.toNat identifierExtraRanges
    || c.toNat == 0x200c || c.toNat == 0x200d

/-- Whether a text can name a property without quotes. -/
def isIdentifierName : List Char → Bool
  | [] => false
  | c :: cs => isIdentifierStart c && cs.all isIdentifierPart

/-- The words that can be no identifier anywhere. -/
def reservedWords : List String :=
  ["break", "case", "catch", "class", "const", "continue", "debugger", "default", "delete", "do",
    "else", "enum", "export", "extends", "false", "finally", "for", "function", "if", "import",
    "in", "instanceof", "new", "null", "return", "super", "switch", "this", "throw", "true", "try",
    "typeof", "var", "void", "while", "with"]

/-- The further words that module code reserves. -/
def strictReservedWords : List String :=
  ["implements", "interface", "let", "package", "private", "protected", "public", "static",
    "yield", "await"]

end JsxDialect.Text
