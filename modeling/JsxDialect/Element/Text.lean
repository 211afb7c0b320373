import JsxDialect.Text.Blank

/-!
# The text between tags

The text that an element shows is not quite the text between its tags: lines are trimmed where
they meet other lines, lines without text are dropped, and the rest is joined by single spaces.
-/

namespace JsxDialect.Text

/-- Whether a character is a blank that is trimmed from lines. -/
def isIndent (c : Char) : Bool :=
  c == ' ' || c == '\t'

/-- A line without the carriage return at its end. -/
def dropReturn (line : List Char) : List Char :=
  if line.getLast? == some '\r' then line.dropLast else line

/-- The lines of a text. -/
def lines (cs : List Char) : List (List Char) :=
  (splitOn (· == '\n') cs).map dropReturn

/-- The position of the last line with a character other than the trimmed ones. -/
def lastWritten (ls : List (List Char)) : Option Nat :=
  ls.zipIdx.foldl
    (fun last (line, i) => if line.all isIndent then last else some i) none

/-- A line of a text of `count` lines, trimmed at the ends where it meets another line. -/
def trimLine (count i : Nat) (line : List Char) : List Char :=
  let line := if i == 0 then line else line.dropWhile isIndent
  if i + 1 == count then line else dropEndWhile isIndent line

/-- What a line contributes: nothing if it is empty, and a space after it unless it is the last one
with text. -/
def lineText (ls : List (List Char)) (line : List Char) (i : Nat) : List Char :=
  match trimLine ls.length i line with
  | [] => []
  | trimmed => if lastWritten ls == some i then trimmed else trimmed ++ [' ']

/-- The text that is shown, if any is. -/
def shown? (cs : List Char) : Option (List Char) :=
  let ls := lines cs
  match ls.zipIdx.flatMap fun (line, i) => lineText ls line i with
  | [] => none
  | out => some out

end JsxDialect.Text
