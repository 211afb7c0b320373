import JsxDialect.Command.Run

/-!
# The command

The command with the files of the operating system.
-/

namespace JsxDialect.Main

/-- An error of the operating system. -/
def fileError : IO.Error → FileError
  | .noFileOrDirectory .. => .notFound
  | .alreadyExists .. => .exists
  | .resourceExhausted _ _ details => .other details
  | .inappropriateType _ code details => ofCode code details
  | .otherError code details => ofCode code details
  | e => .other (toString e)
where
  /-- The error of a code. -/
  ofCode (code : UInt32) (details : String) : FileError :=
    if code == 20 then .notDirectory
    else if code == 21 then .isDirectory
    else .other details

/-- The result of an action that may fail. -/
def attempt {α : Type} (act : IO α) : IO (Except FileError α) := do
  match ← act.toBaseIO with
  | .ok a => return .ok a
  | .error e => return .error (fileError e)

/-- The rest of the standard input. -/
partial def readAll (stream : IO.FS.Stream) (sofar : String) : IO String := do
  let line ← stream.getLine
  if line.isEmpty then return sofar else readAll stream (sofar ++ line)

/-- The files of the operating system. -/
def files : Files IO where
  read path := attempt (IO.FS.readFile path)
  write path text := attempt (IO.FS.writeFile path text)
  makeDirectory path := attempt (IO.FS.createDirAll path)
  standardInput := attempt (do readAll (← IO.getStdin) "")

end JsxDialect.Main

open JsxDialect in
/-- Runs the command: its output goes to the standard output and its notes to the standard error. -/
def main (args : List String) : IO UInt32 := do
  let outcome ← Command.run Main.files args
  for note in outcome.notes do
    IO.eprintln note.text
  IO.print outcome.output
  return outcome.status.toUInt32
