import JsxDialect.Config.Json
import JsxDialect.Options.Basic
import JsxDialect.Table

/-!
# Options from configuration

Options are an object with a member for each, all of which may be missing; unknown members are
ignored and known ones may not be repeated. In place of an object, an array with the values in the
order of their declaration is taken too.
-/

namespace JsxDialect

namespace Config

/-- The values of the named members of an object, in the order of the names. A member may be
missing, but not be repeated. -/
def pick? (names : List String) (members : List (Option String × Json)) :
    Option (List (Option Json)) :=
  if members.any (·.1.isNone) then none
  else names.mapM fun name =>
    match members.filter (·.1 == some name) with
    | [] => some none
    | [m] => some (some m.2)
    | _ => none

/-- The values of the fields of a record, which is an object or an array. -/
def fields? (names : List String) : Json → Option (List (Option Json))
  | .object members => pick? names members
  | .array items =>
    if items.length ≤ names.length then
      some (items.map some ++ List.replicate (names.length - items.length) none)
    else none
  | _ => none

/-- A truth value. -/
def bool? : Json → Option Bool
  | .bool b => some b
  | _ => none

/-- A text. -/
def text? : Json → Option String
  | .string s => s
  | _ => none

/-- A value that may be `null`. -/
def nullable? {α : Type} (read : Json → Option α) : Json → Option (Option α)
  | .null => some none
  | json => (read json).map some

/-- The value of a field, with a default. -/
def orDefault? {α : Type} (read : Json → Option α) (default : α) : Option Json → Option α
  | none => some default
  | some json => read json

/-- The description of an import, nested at most as deep as the bound says. -/
def descriptor? : Nat → Json → Option ImportDescriptor
  | 0, _ => none
  | depth + 1, json => do
    match ← fields? ["module", "export", "inherits"] json with
    | [some module, some exported, inherits] =>
      let module ← text? module
      let exported ← text? exported
      let inherits ← orDefault? (nullable? (descriptor? depth)) none inherits
      return ⟨module, exported, inherits⟩
    | _ => none

/-- The greatest depth of nested objects and arrays that are looked into. -/
def maxDepth : Nat := 127

/-- The table of automatic imports. Of a repeated key, the first place and the last value count. -/
def autoImport? : Json → Option (List (String × ImportDescriptor))
  | .object members => members.foldlM (fun table (key, value) => do
      let key ← key
      let value ← descriptor? (maxDepth - 2) value
      return Table.put key value table) []
  | _ => none

/-- The names of the options, in the order of their declaration. -/
def optionNames : List String :=
  ["refAttribute", "constructorProps", "styleAttribute", "classAttribute", "controlFlow",
    "namedChildren", "asAttribute", "bindAttribute", "arrowLifting", "objectLifting",
    "controlledInput", "autoImport", "moduleName"]

end Config

namespace Options

open Config

/-- The options that a JSON value describes. -/
def ofJson? (json : Json) : Option Options := do
  match ← fields? optionNames json with
  | [ref, constructor, style, classes, control, named, asFlag, bind, arrow, object, controlled,
      auto, module] =>
    let flag := orDefault? bool? true
    return {
      refAttribute := ← flag ref
      constructorProps := ← flag constructor
      styleAttribute := ← flag style
      classAttribute := ← flag classes
      controlFlow := ← flag control
      namedChildren := ← flag named
      asAttribute := ← flag asFlag
      bindAttribute := ← flag bind
      arrowLifting := ← flag arrow
      objectLifting := ← flag object
      controlledInput := ← flag controlled
      autoImport := ← orDefault? autoImport? [] auto
      moduleName := ← orDefault? (nullable? text?) none module }
  | _ => none

/-- The options that the text of a configuration describes. -/
def ofText? (text : String) : Option Options :=
  (Json.ofText? text).bind ofJson?

end Options

end JsxDialect
