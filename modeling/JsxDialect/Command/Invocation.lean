/-!
# Invocations

The arguments of the command. A flag with a value takes it from the same argument, after `=` or, for
a short flag, directly, or else it takes the next argument, which must not look like a flag. Short
flags can be joined; after `--` there are no flags. No flag may be given twice.
-/

namespace JsxDialect

/-- What the command is asked to do. -/
structure Invocation where
  /-- Where the code is written; the standard output by default. -/
  output : Option String := none
  /-- The file with the options. -/
  config : Option String := none
  /-- The package with the helper functions, whatever the options say. -/
  moduleName : Option String := none
  warningsAsErrors : Bool := false
  /-- Accepted, without an effect on the code. -/
  minify : Bool := false
  /-- Append a source map to the code. -/
  map : Bool := false
  /-- Accept types in the source. -/
  typed : Bool := false
  /-- The directory to write the helper functions to, instead of compiling. -/
  emitRuntime : Option String := none
  /-- The file to compile; the standard input by default. -/
  entryPoint : Option String := none
deriving Repr, DecidableEq, Inhabited

namespace Invocation

/-- The flags. -/
inductive Flag where
  | output | config | moduleName | emitRuntime
  | warningsAsErrors | minify | map | typed | help
deriving Repr, DecidableEq, Inhabited

/-- Whether a flag has a value. -/
def Flag.takesValue : Flag → Bool
  | .output | .config | .moduleName | .emitRuntime => true
  | _ => false

/-- The flag of a letter. -/
def Flag.ofLetter? : Char → Option Flag
  | 'o' => some .output
  | 'c' => some .config
  | 'M' => some .moduleName
  | 'W' => some .warningsAsErrors
  | 'm' => some .map
  | 'T' => some .typed
  | 'h' => some .help
  | _ => none

/-- The flag of a word. -/
def Flag.ofWord? : String → Option Flag
  | "output" => some .output
  | "config" => some .config
  | "module-name" => some .moduleName
  | "emit-runtime" => some .emitRuntime
  | "minify" => some .minify
  | "map" => some .map
  | "typescript" => some .typed
  | "help" => some .help
  | _ => none

/-- What arguments come to: an invocation, a question for help, or nothing that can be done. -/
inductive Reading where
  | invocation (i : Invocation)
  | help
  | refused
deriving Repr, Inhabited

/-- Sets a value that may be set once. -/
def setOnce (old : Option String) (value : String) : Option (Option String) :=
  if old.isSome then none else some (some value)

/-- The invocation with a value for a flag. Paths are not empty. -/
def withValue? (i : Invocation) (flag : Flag) (value : String) : Option Invocation :=
  match flag with
  | .output => (setOnce i.output value).map fun v => { i with output := v }
  | .moduleName => (setOnce i.moduleName value).map fun v => { i with moduleName := v }
  | .config =>
    if value == "" then none else (setOnce i.config value).map fun v => { i with config := v }
  | .emitRuntime =>
    if value == "" then none
    else (setOnce i.emitRuntime value).map fun v => { i with emitRuntime := v }
  | _ => none

/-- The invocation with a flag that has no value. -/
def withSwitch? (i : Invocation) (flag : Flag) : Option Invocation :=
  match flag with
  | .warningsAsErrors =>
    if i.warningsAsErrors then none else some { i with warningsAsErrors := true }
  | .minify => if i.minify then none else some { i with minify := true }
  | .map => if i.map then none else some { i with map := true }
  | .typed => if i.typed then none else some { i with typed := true }
  | _ => none

/-- The invocation with the file to compile. -/
def withInput? (i : Invocation) (entry : String) : Option Invocation :=
  (setOnce i.entryPoint entry).map fun v => { i with entryPoint := v }

/-- What is to be done after one argument. -/
inductive Next where
  | proceed (i : Invocation)
  /-- The next argument is the value of a flag. -/
  | await (i : Invocation) (flag : Flag)
  | help
  | refused

/-- Goes on with an invocation, if there is one. -/
def Next.ofOption : Option Invocation → Next
  | some i => .proceed i
  | none => .refused

/-- A value that stands in the argument of its short flag. -/
def attached : List Char → String
  | '=' :: cs => String.ofList cs
  | cs => String.ofList cs

/-- Joined short flags. -/
def readLetters (i : Invocation) : List Char → Next
  | [] => .proceed i
  | c :: cs =>
    match Flag.ofLetter? c with
    | none => .refused
    | some .help => .help
    | some flag =>
      if flag.takesValue then
        if cs.isEmpty then .await i flag else Next.ofOption (i.withValue? flag (attached cs))
      else
        match i.withSwitch? flag with
        | some i => readLetters i cs
        | none => .refused

/-- A long flag, without its hyphens. -/
def readWord (i : Invocation) (cs : List Char) : Next :=
  let word := String.ofList (cs.takeWhile (· != '='))
  let value := cs.dropWhile (· != '=')
  match Flag.ofWord? word with
  | none => .refused
  | some flag =>
    match value with
    | _ :: value =>
      if flag.takesValue then Next.ofOption (i.withValue? flag (String.ofList value)) else .refused
    | [] =>
      if flag == .help then .help
      else if flag.takesValue then .await i flag
      else Next.ofOption (i.withSwitch? flag)

/-- Whether an argument looks like a flag. A single hyphen does not. -/
def looksLikeFlag (arg : String) : Bool :=
  match arg.toList with
  | '-' :: _ :: _ => true
  | _ => false

/-- One argument. -/
def readArg (i : Invocation) (arg : String) : Next :=
  match arg.toList with
  | '-' :: '-' :: cs => readWord i cs
  | '-' :: c :: cs => readLetters i (c :: cs)
  | _ => Next.ofOption (i.withInput? arg)

/-- Arguments after `--`. -/
def readEntries (i : Invocation) : List String → Reading
  | [] => .invocation i
  | arg :: args =>
    match i.withInput? arg with
    | some i => readEntries i args
    | none => .refused

mutual

/-- The arguments, read one after the other. -/
def readArgs (i : Invocation) : List String → Reading
  | [] => .invocation i
  | arg :: args =>
    if arg == "--" then readEntries i args
    else
      match readArg i arg with
      | .proceed i => readArgs i args
      | .await i flag => readValue i flag args
      | .help => .help
      | .refused => .refused

/-- The arguments after a flag that waits for its value. -/
def readValue (i : Invocation) (flag : Flag) : List String → Reading
  | [] => .refused
  | arg :: args =>
    if looksLikeFlag arg then .refused
    else
      match i.withValue? flag arg with
      | some i => readArgs i args
      | none => .refused

end

/-- The invocation that arguments describe. -/
def ofArgs (args : List String) : Reading :=
  readArgs {} args

end Invocation

end JsxDialect
