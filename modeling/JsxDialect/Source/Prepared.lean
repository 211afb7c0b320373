import JsxDialect.Parse.Module
import JsxDialect.Text.Blank

/-!
# Prepared sources

Markup does not allow a comma-separated list as the expression of a container, but the dialect uses
such lists as binders: `for={item, index in items}` and `as={a, b}`. Preparing a source puts
parentheses around these lists, and only these, so that the text can be read. The offsets of the
inserted characters are kept, in order to map places back to the text as written.
-/

namespace JsxDialect

namespace Text

/-- The text before and after a number of bytes; a character that the cut would split stands
before it. -/
def splitAtByte : Nat → List Char → List Char × List Char
  | _, [] => ([], [])
  | 0, cs => ([], cs)
  | n + 1, c :: cs =>
    let (before, after) := splitAtByte (n + 1 - c.utf8Size) cs
    (c :: before, after)

/-- The text with a character inserted at a byte offset. -/
def insertAt (offset : Nat) (c : Char) (cs : List Char) : List Char :=
  let (before, after) := splitAtByte offset cs
  before ++ c :: after

end Text

/-- A text with characters inserted, and their offsets in it, in ascending order. -/
structure Prepared where
  text : List Char
  inserted : List Nat
deriving Repr, Inhabited

/-- A place that a report points at: so many bytes from an offset on, with a name or without. -/
structure Label where
  start : Nat
  length : Nat
  name : Option String
deriving Repr, DecidableEq, Inhabited

namespace Prepared

/-- A text as it is written. -/
def ofText (text : List Char) : Prepared :=
  ⟨text, []⟩

/-- Inserts a character at an offset. Insertions from there on move by one. -/
def insert (p : Prepared) (offset : Nat) (c : Char) : Prepared :=
  let moved := p.inserted.map fun n => if n < offset then n else n + 1
  ⟨Text.insertAt offset c p.text,
    moved.takeWhile (· < offset) ++ offset :: moved.dropWhile (· < offset)⟩

/-- Puts parentheses around a span. -/
def parenthesize (p : Prepared) (span : Span) : Prepared :=
  (p.insert span.start '(').insert (span.stop + 1) ')'

/-- Whether anything was inserted. -/
def isChanged (p : Prepared) : Bool :=
  !p.inserted.isEmpty

/-- The offset in the text as written: inserted characters before it do not count. -/
def offset (p : Prepared) (n : Nat) : Nat :=
  n - (p.inserted.takeWhile (· < n)).length

/-- The span in the text as written. -/
def span (p : Prepared) (s : Span) : Span :=
  ⟨p.offset s.start, p.offset s.stop⟩

/-- The label in the text as written. -/
def label (p : Prepared) (l : Label) : Label :=
  let s := p.span ⟨l.start, l.start + l.length⟩
  { l with start := s.start, length := s.stop - s.start }

/-- Labels in the text as written. -/
def remap (p : Prepared) (labels : List Label) : List Label :=
  if p.isChanged then labels.map p.label else labels

/-- Whether a text, read backwards, ends with an attribute that binds: white space, `for` or `as`,
`=` and the brace of its container. -/
def endsWithBinder (backwards : List Char) : Bool :=
  match backwards.dropWhile Text.isBlank with
  | '{' :: rest =>
    match rest.dropWhile Text.isBlank with
    | '=' :: rest =>
      match rest.dropWhile Text.isBlank with
      | 'r' :: 'o' :: 'f' :: c :: _ => Text.isBlank c
      | 's' :: 'a' :: c :: _ => Text.isBlank c
      | _ => false
    | _ => false
  | _ => false

/-- Whether a text stands in braces. -/
def inBraces (cs : List Char) : Bool :=
  cs.head? == some '{' && cs.getLast? == some '}'

/-- The text before a span and the text in it, if the span lies in the text and splits no
character. -/
def cut? (text : List Char) (s : Span) : Option (List Char × List Char) :=
  let (before, rest) := Text.splitAtByte s.start text
  let (inside, _) := Text.splitAtByte (s.stop - s.start) rest
  if s.start ≤ s.stop && Text.byteLength before == s.start
      && Text.byteLength inside == s.stop - s.start then
    some (before, inside)
  else none

/-- The span to put parentheses around for a list that is refused at a span, if the list is the
value of an attribute that binds. A span with the braces of the container stands for what is between
them. -/
def binderSpan? (text : List Char) (list : Span) : Option Span :=
  match cut? text list with
  | none => none
  | some (before, inside) =>
    if inBraces inside then
      if endsWithBinder ('{' :: before.reverse) then some ⟨list.start + 1, list.stop - 1⟩ else none
    else if endsWithBinder before.reverse then some list
    else none

/-- Puts parentheses around at most `budget` lists, one after the other, as long as one of the lists
that are refused in the text is the value of an attribute that binds. -/
def resolve (refused : List Char → List Span) : Nat → Prepared → Prepared
  | 0, p => p
  | budget + 1, p =>
    match (refused p.text).findSome? (binderSpan? p.text) with
    | some span => resolve refused budget (p.parenthesize span)
    | none => p

/-- Prepares a text for a reader, of which only the lists that it refuses matter. Each list takes
one of the braces. -/
def ofReader (refused : List Char → List Span) (text : List Char) : Prepared :=
  resolve refused (text.count '{') (ofText text)

/-- The list at which reading a text stops, if it does at one. -/
def refusedLists (typed : Bool) (text : List Char) : List Span :=
  match Parse.readText { typed } text with
  | .error (.commaList list) => [list]
  | _ => []

/-- The text with its binder lists in parentheses. -/
def ofSource (typed : Bool) (text : List Char) : Prepared :=
  ofReader (refusedLists typed) text

end Prepared

end JsxDialect
