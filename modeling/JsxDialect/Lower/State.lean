import JsxDialect.Diagnostic
import JsxDialect.Header

/-!
# The state of a compilation

What the walk over a module carries with it: the header that grows, the scopes that are open, the
classes around the current place and the reports so far.
-/

namespace JsxDialect

/-- A class around the current place: whether it is a component, and the name that only its own
body can refer to it by, if it has one. -/
structure ClassFrame where
  isComponent : Bool
  ownName : Option String
deriving Repr, Inhabited

/-- The state of a compilation. Statements are queued on the scopes of methods, to be run before
their own statements. -/
structure Lowering where
  header : Header
  scopes : Scopes Stmt
  classes : List ClassFrame
  diagnostics : List Diagnostic

/-- What is fixed during a compilation: the options, and the names of default exports. -/
structure LoweringSetting where
  options : Options
  defaultNames : List String

/-- Steps of a compilation. -/
abbrev Lower := ReaderT LoweringSetting (StateM Lowering)

namespace Lower

/-- The options. -/
def options : Lower Options :=
  return (← read).options

/-- Reports a cause at a place. -/
def report (span : Span) (cause : Cause) : Lower Unit :=
  modify fun s => { s with diagnostics := s.diagnostics ++ [⟨cause, span⟩] }

/-- Reports a cause at several places. -/
def reportAll (cause : Cause) : List Span → Lower Unit
  | [] => pure ()
  | span :: spans => do
    report span cause
    reportAll cause spans

/-- Asks the header for a name. -/
def ask (request : Header → String × Header) : Lower String := do
  let s ← get
  let (name, header) := request s.header
  set { s with header }
  return name

/-- The name of a helper function. -/
def helper (f : Helper) : Lower String := do
  let package := (← options).moduleName
  ask (·.helper package f)

/-- Opens a scope. -/
def openScope (kind : ScopeKind) (names : List String) : Lower Unit :=
  modify fun s => { s with scopes := (s.scopes.push kind names).2 }

/-- Closes the current scope. -/
def closeScope : Lower Unit :=
  modify fun s => { s with scopes := (s.scopes.pop?.map (·.2)).getD s.scopes }

/-- Does something inside a scope. -/
def inside {α : Type} (kind : ScopeKind) (names : List String) (act : Lower α) : Lower α := do
  openScope kind names
  let a ← act
  closeScope
  return a

/-- Closes the scope of a function and takes the statements queued on it. -/
def closeFunction : Lower (List Stmt) := do
  let s ← get
  match s.scopes.pop? with
  | some (i, scopes) =>
    let (queued, scopes) := scopes.take i
    set { s with scopes }
    return queued
  | none => return []

/-- Whether the innermost class around the current place is a component. -/
def inComponent : Lower Bool := do
  match (← get).classes with
  | frame :: _ => return frame.isComponent
  | [] => return false

end Lower

end JsxDialect
