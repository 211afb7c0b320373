import JsxDialect.Helper
import JsxDialect.Options.Basic
import JsxDialect.Syntax.Declared
import JsxDialect.Syntax.Occurrence

/-!
# The header of a compiled module

While a module is compiled, names are asked for: fresh ones, names of imports, of helper functions
and of slots on instances. The header remembers which names are taken, which imports and
declarations have been asked for, and writes them to the top of the module in the end, imports
first, each in the order of the first request.

A fresh name is the first one not taken among `_hint`, `_hint2`, `_hint3`, …, so it differs from
every name of the module and from every name given out before.
-/

namespace JsxDialect

/-- An import that was asked for: the name exported by the module, or its default export, and the
name it has here. -/
structure ImportRequest where
  module : String
  exported : Option String
  name : String
deriving Repr, DecidableEq, Inhabited

/-- What has been asked for so far. -/
structure Header where
  /-- All names of the module and all names given out. -/
  taken : List String
  /-- The names bound at the top level of the module. -/
  topLevel : List String
  imports : List ImportRequest
  /-- Names that are given out again for the same key. -/
  shared : List (String × String)
  declarations : List Stmt

namespace Header

/-- The header of a module before anything is asked for. -/
def ofModule (m : Module) : Header :=
  ⟨m.usedNames, m.topLevelNames, [], [], []⟩

/-- The names tried for a base: the base itself, then the base with `2`, `3`, …. -/
def candidate (base : String) (k : Nat) : String :=
  if k == 0 then base else base ++ toString (k + 1)

/-- The first candidate that is not taken. There are more candidates than names. -/
def firstFree (taken : List String) (base : String) : String :=
  ((List.range (taken.length + 1)).map (candidate base)).find? (!taken.contains ·) |>.getD base

/-- The base of the names for a hint: the hint with exactly one underscore before it. -/
def base (hint : String) : String :=
  String.ofList ('_' :: hint.toList.dropWhile (· == '_'))

/-- A name that occurs nowhere. -/
def fresh (h : Header) (hint : String) : String × Header :=
  let name := firstFree h.taken (base hint)
  (name, { h with taken := name :: h.taken })

/-- The name for a key: made the first time, together with what `declare` declares under it. -/
def once (h : Header) (key hint : String) (declare : String → Option Stmt) : String × Header :=
  match h.shared.lookup key with
  | some name => (name, h)
  | none =>
    let (name, h) := h.fresh hint
    (name, { h with
      shared := (key, name) :: h.shared
      declarations := h.declarations ++ (declare name).toList })

/-- The name of the parameter of generated functions for a hint. -/
def paramName (h : Header) (hint : String) : String × Header :=
  h.once ("param:" ++ hint) hint fun _ => none

/-- The name of an import, which is added once. -/
def addImport (h : Header) (module : String) (exported : Option String) (hint : String) :
    String × Header :=
  match h.imports.find? (fun r => r.module == module && r.exported == exported) with
  | some r => (r.name, h)
  | none =>
    let (name, h) := h.fresh hint
    (name, { h with imports := h.imports ++ [⟨module, exported, name⟩] })

/-- The name of the import that a descriptor describes. -/
def addDescriptor (h : Header) (d : ImportDescriptor) : String × Header :=
  h.addImport d.module (some d.exported) d.exported

/-- The name of a helper: imported from the package, if there is one, and declared otherwise. -/
def helper (h : Header) (package : Option String) (f : Helper) : String × Header :=
  match package with
  | some p => h.addImport (f.specifier p) none f.name
  | none => h.once f.name f.name fun name => some (f.function name)

/-- The name of the variable that holds the property by which an instance skips updates. -/
def throttleKey (h : Header) : String × Header :=
  h.once "throttleUpdatesProperty" "t" fun name =>
    some (Build.declare .var name (.string .none "throttleUpdates"))

/-- A new slot on instances: a symbol of its own. -/
def slot (h : Header) (hint : String) : String × Header :=
  let (name, h) := h.fresh hint
  let symbol := Build.call .none (.ident .none "Symbol") [.string .none hint]
  (name, { h with declarations := h.declarations ++ [Build.declare .const name symbol] })

/-- Whether the module itself binds a name at its top level. -/
def isTopLevel (h : Header) (name : String) : Bool :=
  h.topLevel.contains name

/-- The statement of an import. -/
def importStmt (r : ImportRequest) : Stmt :=
  .import
    (some [match r.exported with
      | none => .default r.name
      | some exported => .named exported r.name false])
    r.module

/-- The module with what was asked for at its top. -/
def finish (h : Header) (m : Module) : Module :=
  { m with stmts := h.imports.map importStmt ++ h.declarations ++ m.stmts }

end Header

end JsxDialect
