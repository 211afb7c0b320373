import JsxDialect.Command.Report
import JsxDialect.Normal

/-!
# Fixtures

A fixture is a source with the code that compiling it should give, up to formatting, and a part of
each warning that it should cause, in order.
-/

namespace JsxDialect

/-- A source and what is expected of it. -/
structure Fixture where
  source : String
  expected : String
  warnings : List String
  config : Option String := none

/-- What is wrong with a fixture; `none` of these if it holds. -/
inductive FixtureFailure where
  | badConfig
  | notCompiled
  | warningCount
  | warningText
  | output
  | unreadable
deriving Repr, DecidableEq, Inhabited

namespace Fixture

/-- Whether each warning has the part that is expected of it. -/
def warningsFit (warnings : List Shown) (parts : List String) : Bool :=
  (warnings.zip parts).all fun (w, part) => Text.occursIn part.toList w.cause.message.toList

/-- What is wrong with the report on a fixture. -/
def judge (f : Fixture) (r : Report) : Except FixtureFailure Unit :=
  if !r.errors.isEmpty then .error .notCompiled
  else if r.warnings.length != f.warnings.length then .error .warningCount
  else if !warningsFit r.warnings f.warnings then .error .warningText
  else
    match normalize? r.code, normalize? f.expected with
    | some code, some expected => if code == expected then .ok () else .error .output
    | _, _ => .error .unreadable

/-- Compiles a fixture and compares the result. -/
def check {m : Type → Type} [Monad m] (f : Fixture) (files : Files m) :
    m (Except FixtureFailure Unit) := do
  let i : Invocation := { config := f.config }
  match ← i.options files with
  | .error _ => return .error .badConfig
  | .ok options =>
    match i.report? options f.source with
    | none => return .error .notCompiled
    | some r => return f.judge r

end Fixture

end JsxDialect
