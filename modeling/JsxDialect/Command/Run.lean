import JsxDialect.Command.Report
import JsxDialect.Helper

/-!
# Running the command

A run of the command, from its arguments to what it prints and its exit status, over any access to
files.
-/

namespace JsxDialect

/-- What the command says beside its output. -/
inductive Note where
  | wrote (path : String)
  | remark (shown : Shown)
  | invalidSource
  | errorCount (count : Nat)
  | configFailed (error : ConfigError)
  | entryFailed (path : String) (error : FileError)
  | inputFailed (error : FileError)
  | runtimeFailed (error : FileError)
  | outputFailed (error : FileError)
  | refusedArguments
deriving Repr, Inhabited

/-- The line of a note. -/
def Note.text : Note → String
  | .wrote path => "wrote " ++ path
  | .remark shown => shown.text
  | .invalidSource => "  x the source is not a valid module"
  | .errorCount count => "exiting due to " ++ toString count ++ " errors"
  | .configFailed e => "error: " ++ e.message
  | .entryFailed path e => "error: failed to read entry point " ++ path ++ ": " ++ e.message
  | .inputFailed e => "error: failed to read stdin: " ++ e.message
  | .runtimeFailed e => "error: failed to write runtime helpers: " ++ e.message
  | .outputFailed e => "error: failed to write output: " ++ e.message
  | .refusedArguments => "error: the arguments were not understood; see --help"

/-- How a run ends: its status, its output and its notes. -/
structure Outcome where
  status : Nat
  output : String
  notes : List Note
deriving Inhabited

/-- A run that did what it was asked for. -/
def Outcome.success (output : String) (notes : List Note) : Outcome :=
  ⟨0, output, notes⟩

/-- A run that failed. -/
def Outcome.failure (notes : List Note) : Outcome :=
  ⟨1, "", notes⟩

/-- The text for those who ask for help. -/
def usage : String :=
  "\n".intercalate [
    "Usage: [OPTIONS] [ENTRY_POINT]",
    "",
    "Compiles a module of the markup dialect; reads the standard input without an entry point.",
    "",
    "  -o, --output <FILE>         where to write the code",
    "  -c, --config <FILE>         a JSON file with options",
    "  -M, --module-name <NAME>    the package with the helper functions",
    "  -W                          treat warnings as errors",
    "      --minify                accepted without effect",
    "  -m, --map                   append a source map",
    "  -T, --typescript            allow types in the source",
    "      --emit-runtime <DIR>    write the helper functions and exit",
    ""]

namespace Command

variable {m : Type → Type} [Monad m]

/-- The path of a file in a directory. -/
def within (directory file : String) : String :=
  if directory.toList.getLast? == some '/' then directory ++ file else directory ++ "/" ++ file

/-- Writes the sources of helpers to a directory, up to the first one that fails. -/
def writeHelpers (files : Files m) (directory : String) :
    List Helper → m (Except FileError (List String))
  | [] => return .ok []
  | h :: hs => do
    let path := within directory (h.name ++ ".js")
    match ← files.write path h.source with
    | .error e => return .error e
    | .ok () => return (← writeHelpers files directory hs).map (path :: ·)

/-- Writes the helper functions to a directory. -/
def emitRuntime (files : Files m) (directory : String) : m Outcome := do
  match ← files.makeDirectory directory with
  | .error e => return .failure [.runtimeFailed e]
  | .ok () =>
    match ← writeHelpers files directory Helper.all with
    | .error e => return .failure [.runtimeFailed e]
    | .ok paths => return .success "" (paths.map .wrote)

/-- Writes code to where it is wanted. -/
def deliver (files : Files m) (i : Invocation) (code : String) (notes : List Note) : m Outcome := do
  match i.output with
  | none => return .success code notes
  | some path =>
    match ← files.write path code with
    | .error e => return .failure (notes ++ [.outputFailed e])
    | .ok () => return .success "" notes

/-- Compiles a source. -/
def compile (files : Files m) (i : Invocation) (source : String) : m Outcome := do
  match ← i.run .standard files source with
  | .error (.config e) => return .failure [.configFailed e]
  | .error .stopped => return .failure [.invalidSource, .errorCount 1]
  | .ok r =>
    let warnings := r.warnings.map .remark
    if r.errors.isEmpty then deliver files i r.text warnings
    else return .failure (warnings ++ r.errors.map .remark ++ [.errorCount r.errors.length])

/-- Reads the source and compiles it. -/
def compileEntry (files : Files m) (i : Invocation) : m Outcome := do
  match i.entryPoint with
  | some path =>
    match ← files.read path with
    | .error e => return .failure [.entryFailed path e]
    | .ok source => compile files i source
  | none =>
    match ← files.standardInput with
    | .error e => return .failure [.inputFailed e]
    | .ok source => compile files i source

/-- Runs the command with its arguments. -/
def run (files : Files m) (args : List String) : m Outcome :=
  match Invocation.ofArgs args with
  | .refused => return ⟨2, "", [.refusedArguments]⟩
  | .help => return .success usage []
  | .invocation i =>
    match i.emitRuntime with
    | some directory => emitRuntime files directory
    | none => compileEntry files i

end Command

end JsxDialect
