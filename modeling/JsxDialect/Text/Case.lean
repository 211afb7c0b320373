import JsxDialect.Text.CaseTable

/-!
# Letter case

Case mappings of single characters, which may give several, and of whole texts. Mapping a text
to lower case is mapping its characters, except that a capital sigma at the end of a word takes
its final form.
-/

namespace JsxDialect.Text

/-- Whether a code point lies in one of the ranges. -/
def inRanges (n : Nat) (ranges : List (Nat × Nat)) : Bool :=
  ranges.any fun r => r.1 ≤ n && n ≤ r.2

/-- The image of a code point under a run, if the run maps it. -/
def CaseRun.image? (r : CaseRun) (n : Nat) : Option Nat :=
  if r.first ≤ n && n ≤ r.last && (n - r.first) % r.step == 0 then some (r.image + (n - r.first))
  else none

/-- The case mapping that the given runs and expansions describe. -/
def mapCase (runs : List CaseRun) (expansions : List (Nat × List Nat)) (c : Char) : List Char :=
  match expansions.lookup c.toNat with
  | some images => images.map Char.ofNat
  | none =>
    match runs.findSome? (·.image? c.toNat) with
    | some n => [Char.ofNat n]
    | none => [c]

/-- The upper-case form of a character. -/
def toUpper (c : Char) : List Char :=
  if c.toNat < 0x80 then [c.toUpper] else mapCase upperRuns upperExpansions c

/-- The lower-case form of a character on its own. -/
def toLower (c : Char) : List Char :=
  if c.toNat < 0x80 then [c.toLower] else mapCase lowerRuns lowerExpansions c

/-- Whether a character is upper case. -/
def isUpper (c : Char) : Bool :=
  let n := c.toNat
  if n < 0x80 then c.isUpper
  else upperClass.any fun (first, last, step) => first ≤ n && n ≤ last && (n - first) % step == 0

/-- Whether a character has a case. -/
def isCased (c : Char) : Bool :=
  if c.toNat < 0x80 then c.isAlpha else inRanges c.toNat casedRanges

/-- Whether the search for a neighbouring letter passes over a character. -/
def isCaseIgnorable (c : Char) : Bool :=
  if c.toNat < 0x80 then c.toNat == 0x27 || c == '.' || c == ':' || c == '^' || c.toNat == 0x60
  else inRanges c.toNat caseIgnorableRanges

/-- Whether the first character that is not passed over has a case. -/
def meetsLetter (cs : List Char) : Bool :=
  ((cs.dropWhile isCaseIgnorable).head?.map isCased).getD false

/-- Maps a text to lower case, given the characters before it in reverse. -/
def lowerFrom (before : List Char) : List Char → List Char
  | [] => []
  | c :: cs =>
    let image :=
      if c == 'Σ' then [if meetsLetter before && !meetsLetter cs then 'ς' else 'σ'] else toLower c
    image ++ lowerFrom (c :: before) cs

/-- The lower-case form of a text. -/
def lowerCase (cs : List Char) : List Char :=
  lowerFrom [] cs

/-- The text with its first character in upper case. -/
def capitalize : List Char → List Char
  | [] => []
  | c :: cs => toUpper c ++ cs

end JsxDialect.Text
