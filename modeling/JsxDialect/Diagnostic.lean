import JsxDialect.Syntax.Basic

/-!
# Diagnostics

What the compiler reports about a module. A report has a cause, and each cause has its severity
and its wording.
-/

namespace JsxDialect

/-- How serious a report is. -/
inductive Severity where
  | warning | error
deriving Repr, DecidableEq, Inhabited

/-- What is wrong. -/
inductive Cause where
  /-- An element lacks an attribute it has to have. -/
  | missingAttribute (tag name : String)
  /-- The `for` attribute of `<repeat>` is no binder list with a collection. -/
  | malformedFor
  /-- `<repeat>` has neither of the attributes that name its items. -/
  | unnamedItems
  /-- `<using>` names nothing. -/
  | unnamedValue
  /-- A binder of `<repeat>` is no identifier. -/
  | repeatBinder
  /-- The contents of `<repeat>` got an index as their key. -/
  | addedKey (index : String)
  /-- An `as` attribute has no expression. -/
  | binderListMissing
  /-- A binder of an `as` attribute is no identifier. -/
  | asBinder
  /-- A directive has no expression. -/
  | unboundDirective (directive : String)
  /-- A directive has an expression that cannot be assigned to. -/
  | unassignable (directive : String)
  /-- A directive stands beside the attribute that it would make. -/
  | conflictingDirective (directive name : String)
  /-- The handler that a directive extends already assigns a value. -/
  | redundantHandler (event directive : String)
  /-- A `ref` attribute is a string. -/
  | stringRef
  /-- The constructor of a component has parameters of its own. -/
  | constructorParameters (className : String) (parameters : List String)
deriving Repr, DecidableEq, Inhabited

/-- How serious a cause is: the first four leave a hole in the code. -/
def Cause.severity : Cause → Severity
  | .missingAttribute .. | .malformedFor | .unnamedItems | .unnamedValue => .error
  | _ => .warning

/-- The wording of a cause. -/
def Cause.message : Cause → String
  | .missingAttribute tag name => "`<" ++ tag ++ ">` requires a `" ++ name ++ "` attribute"
  | .malformedFor => "`for` must read `item in collection`"
  | .unnamedItems => "`<repeat>` requires a `for` or an `as` attribute"
  | .unnamedValue => "`<using>` requires an `as` attribute naming the value"
  | .repeatBinder => "`<repeat>` can only bind identifiers"
  | .addedKey index =>
    "Added key=\x7b" ++ index ++ "\x7d to the contents of <repeat>; "
      ++ "use a key based on the identity of each item instead"
  | .binderListMissing => "`as` expects a list of identifiers, e.g. as=\x7bitem, index\x7d"
  | .asBinder => "`as` can only bind identifiers"
  | .unboundDirective directive => "`" ++ directive ++ "` must be bound to an expression"
  | .unassignable directive =>
    "`" ++ directive ++ "` must be bound to an identifier or a member expression"
  | .conflictingDirective directive name =>
    "`" ++ directive ++ "` conflicts with the `" ++ name
      ++ "` attribute; the binding was dropped"
  | .redundantHandler event directive =>
    "`" ++ event ++ "` already assigns a value; `" ++ directive ++ "` makes it redundant"
  | .stringRef => "String refs are not supported; pass a callback or an assignable expression"
  | .constructorParameters className parameters =>
    "Class " ++ className ++ "'s constructor must have two arguments: (props, context). "
      ++ "You supplied " ++ toString parameters.length ++ " arguments ("
      ++ ", ".intercalate parameters ++ ")"

/-- A cause and the place it is reported at. -/
structure Diagnostic where
  cause : Cause
  span : Span
deriving Repr, DecidableEq, Inhabited

/-- The severity of a report. -/
def Diagnostic.severity (d : Diagnostic) : Severity :=
  d.cause.severity

/-- The wording of a report. -/
def Diagnostic.message (d : Diagnostic) : String :=
  d.cause.message

end JsxDialect
