import JsxDialect.Number.Basic

/-!
# Tokens

What the text of a module is cut into. Keywords and identifiers are both words: which of the two
a word is depends on where it stands. The text between the tags of an element is one token, and
so is each piece of a template between two of its substitutions.
-/

namespace JsxDialect

/-- The tokens of a module. `invalid` is what stands for text that is no token; no rule of the
grammar accepts it. -/
inductive Token where
  | finish
  | invalid
  | word (name : String) (escaped : Bool)
  | privateName (name : String)
  | punct (text : String)
  | number (value : Number)
  | bigint (raw : String)
  | string (value raw : String)
  /-- A piece of a template. It is `last` if the template ends after it, and `readable` if all its
  escapes are. -/
  | template (raw : String) (readable last : Bool)
  | regex (raw : String) (validFlags : Bool)
  | text (raw : String)
deriving Repr, DecidableEq, Inhabited

end JsxDialect
