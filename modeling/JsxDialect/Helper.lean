import JsxDialect.Syntax.Build

/-!
# Helper functions

The functions that compiled code calls where it runs: one joins class names and one merges styles.
Each has the text of the module that ships it, and a tree that is written into a compiled module
under a name of its own if no package provides it.
-/

namespace JsxDialect

/-- The helper functions. -/
inductive Helper where
  | classes | styles
deriving Repr, DecidableEq, Inhabited

namespace Helper

/-- All helpers. -/
def all : List Helper :=
  [.classes, .styles]

/-- The name of a helper, also that of its file. -/
def name : Helper → String
  | .classes => "classes"
  | .styles => "styles"

/-- The helper of a name. -/
def ofName? (n : String) : Option Helper :=
  all.find? (·.name == n)

/-- The module specifier of a helper in a package. -/
def specifier (h : Helper) (package : String) : String :=
  package ++ "/src/runtime/" ++ h.name

/-- The lines of the module that ships a helper. -/
def lines : Helper → List String
  | .classes => [
    "export default function classes(...values) \x7b",
    "\tconst tokens = [];",
    "\tfor (const value of values) \x7b",
    "\t\tif (Array.isArray(value)) \x7b",
    "\t\t\ttokens.push(...value);",
    "\t\t\x7d else if (typeof value === \"string\") \x7b",
    "\t\t\ttokens.push(value);",
    "\t\t\x7d else if (value && typeof value === \"object\") \x7b",
    "\t\t\tfor (const key in value) \x7b",
    "\t\t\t\tif (value[key]) \x7b",
    "\t\t\t\t\ttokens.push(key);",
    "\t\t\t\t\x7d",
    "\t\t\t\x7d",
    "\t\t\x7d",
    "\t\x7d",
    "\treturn tokens.filter(Boolean).join(\" \");",
    "\x7d"]
  | .styles => [
    "export default function styles(...values) \x7b",
    "\tconst camel = (name) => name.replace(/-+([^-]?)/g, (_, c) => c.toUpperCase());",
    "",
    "\tif (values.length === 1 && typeof values[0] === \"string\" "
      ++ "&& !values[0].includes(\":\")) \x7b",
    "\t\treturn values[0];",
    "\t\x7d",
    "",
    "\tconst merged = \x7b\x7d;",
    "\tfor (const value of values) \x7b",
    "\t\tif (typeof value === \"string\") \x7b",
    "\t\t\tfor (const declaration of value.split(/;(?!base64)/)) \x7b",
    "\t\t\t\tconst colon = declaration.indexOf(\":\");",
    "\t\t\t\tif (colon !== -1) \x7b",
    "\t\t\t\t\tmerged[camel(declaration.slice(0, colon).trim())] = "
      ++ "declaration.slice(colon + 1).trim();",
    "\t\t\t\t\x7d",
    "\t\t\t\x7d",
    "\t\t\x7d else if (value) \x7b",
    "\t\t\tfor (const key in value) \x7b",
    "\t\t\t\tmerged[camel(key)] = value[key];",
    "\t\t\t\x7d",
    "\t\t\x7d",
    "\t\x7d",
    "\treturn merged;",
    "\x7d"]

/-- The text of the module that ships a helper. -/
def source (h : Helper) : String :=
  String.join (h.lines.map (· ++ "\n"))

/-! ## Trees -/

/-- A name. -/
def ref (n : String) : Expr :=
  .ident .none n

/-- A string. -/
def text (s : String) : Expr :=
  .string .none s

/-- A member. -/
def dot (o : Expr) (n : String) : Expr :=
  .member .none o n false

/-- An indexed member. -/
def item (o k : Expr) : Expr :=
  .index .none o k false

/-- A call of a method. -/
def invoke (o : Expr) (method : String) (args : List Expr) : Expr :=
  .call .none (dot o method) args false

/-- A comparison of the type of a value with a name. -/
def hasType (e : Expr) (type : String) : Expr :=
  .binary .none .strictEqual (.unary .none .typeof e) (text type)

/-- A conjunction. -/
def both (l r : Expr) : Expr :=
  .logical .none .and l r

/-- A constant. -/
def const (n : String) (value : Expr) : Stmt :=
  Build.declare .const n value

/-- The head of a loop that declares a constant. -/
def each (n : String) : ForHead :=
  .decl .const [.mk (.bind n) none]

/-- A declaration of a function that takes its arguments as one list. -/
def variadic (n rest : String) (stmts : List Stmt) : Stmt :=
  .function (.mk (some n) false false none .none [] (some (.bind rest)) none (.block [] stmts))

/-- The helper that joins class names. -/
def classesFunction (n : String) : Stmt :=
  let push (e : Expr) : Stmt := .block [.expr (invoke (ref "tokens") "push" [e])]
  let value := ref "value"
  let keys := Stmt.forIn (each "key") value
    (.block [.if (item value (ref "key")) (push (ref "key")) none])
  variadic n "values" [
    const "tokens" (.array .none []),
    .forOf false (each "value") (ref "values") (.block [
      .if (invoke (ref "Array") "isArray" [value]) (push (.spread value))
        (some (.if (hasType value "string") (push value)
          (some (.if (both value (hasType value "object")) (.block [keys]) none))))]),
    .return (some (invoke (invoke (ref "tokens") "filter" [ref "Boolean"]) "join" [text " "]))]

/-- The function that the helper for styles names properties with. -/
def camelFunction : Expr :=
  Build.arrow .none ["name"] (invoke (ref "name") "replace" [
    .regex .none "/-+([^-]?)/g",
    Build.arrow .none ["_", "c"] (invoke (ref "c") "toUpperCase" [])])

/-- The helper that merges styles. -/
def stylesFunction (n : String) : Stmt :=
  let value := ref "value"
  let first := item (ref "values") (.number .none (.ofNat 0))
  let number (k : Nat) : Expr := .number .none (.ofNat k)
  let colon := ref "colon"
  let declaration := ref "declaration"
  let camel (e : Expr) : Expr := .call .none (ref "camel") [e] false
  let merge (key e : Expr) : Stmt :=
    .expr (Build.assign .none (.target (item (ref "merged") (camel key))) e)
  let part (args : List Expr) : Expr := invoke (invoke declaration "slice" args) "trim" []
  let declarations := Stmt.forOf false (each "declaration")
    (invoke value "split" [.regex .none "/;(?!base64)/"]) (.block [
      const "colon" (invoke declaration "indexOf" [text ":"]),
      .if (.binary .none .strictNotEqual colon (.unary .none .minus (number 1)))
        (.block [merge (part [number 0, colon])
          (part [.binary .none .add colon (number 1)])]) none])
  let keys := Stmt.forIn (each "key") value
    (.block [merge (ref "key") (item value (ref "key"))])
  variadic n "values" [
    const "camel" camelFunction,
    .if
      (both
        (both (.binary .none .strictEqual (dot (ref "values") "length") (number 1))
          (hasType first "string"))
        (.unary .none .not (invoke first "includes" [text ":"])))
      (.block [.return (some first)]) none,
    const "merged" (.object .none []),
    .forOf false (each "value") (ref "values") (.block [
      .if (hasType value "string") (.block [declarations])
        (some (.if value (.block [keys]) none))]),
    .return (some (ref "merged"))]

/-- The declaration of a helper under a name. -/
def function : Helper → String → Stmt
  | .classes, n => classesFunction n
  | .styles, n => stylesFunction n

end Helper

end JsxDialect
