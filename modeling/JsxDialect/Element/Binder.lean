import JsxDialect.Syntax.Inner

/-!
# Binder lists

The names that the attributes `as` and `for` bind for the children of an element: `as={a, b}`, and
`for={a, b in items}` with the collection after the last name.
-/

namespace JsxDialect

/-- The entries of a list of binders, with or without parentheses around it. -/
def binderEntries (e : Expr) : List Expr :=
  match e.inner with
  | .sequence _ es => es
  | single => [single]

/-- The name that an entry binds, if it is an identifier. -/
def binderName? (e : Expr) : Option String :=
  match e.inner with
  | .ident _ name => some name
  | _ => none

/-- The names that a list of binders binds. -/
def binderNames (e : Expr) : List String :=
  (binderEntries e).filterMap binderName?

/-- The spans of the entries that are no identifiers. -/
def rejectedSpans (e : Expr) : List Span :=
  (binderEntries e).filterMap fun entry =>
    if (binderName? entry).isSome then none else some entry.inner.span

mutual

/-- The binders and the collection of a `for` attribute. -/
def splitFor? : Expr → Option (List Expr × Expr)
  | .paren _ e => splitFor? e
  | .typed _ _ e _ => splitFor? e
  | .nonNull _ e => splitFor? e
  | .binary _ .isIn left right => some (binderEntries left, right)
  | .sequence _ es => splitForLast? es
  | _ => none

/-- The binders and the collection of a list, of which the last entry has the collection. -/
def splitForLast? : List Expr → Option (List Expr × Expr)
  | [] => none
  | [e] => splitFor? e
  | e :: es =>
    match splitForLast? es with
    | some (binders, collection) => some (e :: binders, collection)
    | none => none

end

mutual

/-- The names that a `for` attribute binds. -/
def forNames : Expr → List String
  | .paren _ e => forNames e
  | .typed _ _ e _ => forNames e
  | .nonNull _ e => forNames e
  | .binary _ .isIn left _ => binderNames left
  | .sequence _ es => forNamesLast es
  | _ => []

/-- The names that a list binds, of which the last entry has the collection. -/
def forNamesLast : List Expr → List String
  | [] => []
  | [e] => forNames e
  | e :: es => (binderName? e).toList ++ forNamesLast es

end

end JsxDialect
