import JsxDialect.Command.Files
import JsxDialect.Command.Invocation
import JsxDialect.Command.SourceMap
import JsxDialect.Config.Options
import JsxDialect.Source.Compile

/-!
# Compiling as asked

The options of an invocation, and the report on compiling a source with them. A source is read,
checked and compiled; the remarks of each stage are filed as warnings or errors, and after a stage
with errors there is no code. Reading, checking and writing are `Tools` of a run.
-/

namespace JsxDialect

/-- Why the options cannot be had. -/
inductive ConfigError where
  | unreadable (path : String) (error : FileError)
  | invalid (path : String)
deriving Repr, DecidableEq, Inhabited

/-- The wording of an error with the options. -/
def ConfigError.message : ConfigError → String
  | .unreadable path error => "failed to read config " ++ path ++ ": " ++ error.message
  | .invalid path => "invalid config " ++ path

/-- The options in the file of a path, as it was read. -/
def configured (path : String) : Except FileError String → Except ConfigError Options
  | .error e => .error (.unreadable path e)
  | .ok text =>
    match Options.ofText? text with
    | some o => .ok o
    | none => .error (.invalid path)

/-- The options with the package that an invocation names, if it does. -/
def Invocation.override (i : Invocation) (o : Options) : Options :=
  { o with moduleName := i.moduleName.orElse fun _ => o.moduleName }

/-- The options of an invocation. -/
def Invocation.options {m : Type → Type} [Monad m] (i : Invocation) (files : Files m) :
    m (Except ConfigError Options) := do
  match i.config with
  | none => return .ok (i.override {})
  | some path => return (configured path (← files.read path)).map i.override

/-- A remark on a source: how serious it is, its wording, and the places it points at. -/
structure Remark where
  severity : Severity
  message : String
  labels : List Label
deriving Repr, DecidableEq, Inhabited

/-- What the compiler reports, as a remark. -/
def Diagnostic.remark (d : Diagnostic) : Remark :=
  ⟨d.severity, d.message, [⟨d.span.start, d.span.stop - d.span.start, none⟩]⟩

/-- A remark as it is shown, with places in the source as written. -/
structure Shown where
  cause : Remark
  text : String
deriving Repr, DecidableEq, Inhabited

/-- What reading a text gives. -/
structure Parsed where
  module : Module
  remarks : List Remark
  /-- Whether reading stopped before the end of the text. -/
  stopped : Bool

/-- What a run works with, with or without types in the source. -/
structure Tools where
  /-- The lists that reading a text refuses. -/
  refused : Bool → List Char → List Span
  read : Bool → List Char → Parsed
  check : Module → List Remark
  /-- The code of a module, minified or not. -/
  write : Bool → Module → String
  /-- The source map of a module, if there is one, with the name of its source. -/
  map? : String → Prepared → Module → Option SourceMap
  /-- A remark on a source as it is shown. -/
  render : String → Remark → String

/-- A remark on a prepared source as it is shown. -/
def Tools.shown (t : Tools) (source : String) (p : Prepared) (remark : Remark) : Shown :=
  let remark := { remark with labels := p.remap remark.labels }
  ⟨remark, t.render source remark⟩

/-- The result of a run: the code, the source map if one was asked for, and the remarks by their
severity, each as it is shown and with its wording alone. -/
structure Report where
  code : String := ""
  map : Option SourceMap := none
  warnings : List Shown := []
  errors : List Shown := []
  warningMessages : List String := []
  errorMessages : List String := []

namespace Report

/-- A remark as it counts: if warnings are errors, every remark is one. -/
def promote (strict : Bool) (remark : Remark) : Remark :=
  if strict then { remark with severity := .error } else remark

/-- Files a remark by the severity that it counts with. -/
def file (strict : Bool) (shown : Remark → Shown) (r : Report) (remark : Remark) : Report :=
  let remark := promote strict remark
  match remark.severity with
  | .error =>
    { r with
      errors := r.errors ++ [shown remark], errorMessages := r.errorMessages ++ [remark.message] }
  | .warning =>
    { r with
      warnings := r.warnings ++ [shown remark]
      warningMessages := r.warningMessages ++ [remark.message] }

/-- Files the remarks of a stage, and goes on unless there are errors. -/
def stage (strict : Bool) (shown : Remark → Shown) (remarks : List Remark) (next : Report → Report)
    (r : Report) : Report :=
  let r := remarks.foldl (file strict shown) r
  if r.errors.isEmpty then next r else r

/-- The warning about a source map that was not made. -/
def mapMissing : String :=
  "sourcemap generation requested, but no sourcemap was generated"

/-- The report with the code, and with the source map if it was asked for. -/
def finish (code : String) (map : Option (Option SourceMap)) (r : Report) : Report :=
  match map with
  | none => { r with code }
  | some (some m) => { r with code, map := some m }
  | some none =>
    { r with
      code
      warnings := r.warnings ++ [⟨⟨.warning, mapMissing, []⟩, mapMissing⟩]
      warningMessages := r.warningMessages ++ [mapMissing] }

end Report

/-- Why there is no report. -/
inductive Fatal where
  | config (error : ConfigError)
  /-- Reading stopped without a remark on the reason. -/
  | stopped
deriving Repr, DecidableEq, Inhabited

/-- The name of a source that comes from no file. -/
def defaultSource : String := "twist.js.map"

/-- The source map that an invocation asks for, if it does. -/
def Invocation.sourceMap (i : Invocation) (t : Tools) (p : Prepared) (m : Module) :
    Option (Option SourceMap) :=
  if i.map then some (t.map? (i.entryPoint.getD defaultSource) p m) else none

/-- The report on compiling a source. -/
def Invocation.report (i : Invocation) (t : Tools) (options : Options) (source : String) :
    Except Fatal Report :=
  let prepared := Prepared.ofReader (t.refused i.typed) source.toList
  let parsed := t.read i.typed prepared.text
  if parsed.stopped && parsed.remarks.isEmpty then .error .stopped
  else
    let compiled := parsed.module.compile options
    let stage := Report.stage i.warningsAsErrors (t.shown source prepared)
    .ok <| stage parsed.remarks (stage (t.check parsed.module)
      (stage (compiled.diagnostics.map Diagnostic.remark)
        (Report.finish (t.write i.minify compiled.module)
          (i.sourceMap t prepared compiled.module)))) {}

/-- A run: the report on compiling a source with the options of the invocation. -/
def Invocation.run {m : Type → Type} [Monad m] (i : Invocation) (t : Tools) (files : Files m)
    (source : String) : m (Except Fatal Report) := do
  match ← i.options files with
  | .error e => return .error (.config e)
  | .ok options => return i.report t options source

namespace Tools

/-- A remark on a line of its own. -/
def line (remark : Remark) : String :=
  (match remark.severity with | .error => "  x " | .warning => "  ! ") ++ remark.message
    ++ String.join (remark.labels.map fun l =>
      " (bytes " ++ toString l.start ++ " to " ++ toString (l.start + l.length) ++ ")")

/-- The tools of the dialect. Reading stops without a remark at everything that is no valid module,
and minifying has no effect. -/
def standard : Tools where
  refused := Prepared.refusedLists
  read typed text :=
    match (Prepared.ofText text).module? typed with
    | some m => ⟨m, [], false⟩
    | none => ⟨default, [], true⟩
  check _ := []
  write _ m := m.text
  map? name p _ := some ⟨name, String.ofList p.text⟩
  render _ := line

end Tools

/-- The report on compiling a source with the tools of the dialect; nothing if it is no valid
source. -/
def Invocation.report? (i : Invocation) (options : Options) (source : String) : Option Report :=
  (i.report .standard options source).toOption

/-- The code of a report with its source map. -/
def Report.text (r : Report) : String :=
  match r.map with
  | some map => r.code ++ SourceMap.comment ++ map.dataUrl
  | none => r.code

end JsxDialect
