import JsxDialect.Check.Tree
import JsxDialect.Compile
import JsxDialect.Print.Tree
import JsxDialect.Source.Prepared

/-!
# Compiling a text

The way from text to text: prepare, read, check, lower, print. A text that cannot be read, or breaks
a rule of the language, is not compiled at all; whatever the compiler itself reports goes with the
code.
-/

namespace JsxDialect

/-- The result of compiling a text: the text that was read, the code, and the reports, at places in
the text as written. -/
structure Compilation where
  prepared : Prepared
  code : String
  diagnostics : List Diagnostic

/-- The module in a prepared text, if it is a valid one. -/
def Prepared.module? (typed : Bool) (p : Prepared) : Option Module :=
  (readModule? { typed } p.text).filter Module.isValid

/-- Compiles a text, with or without types in it. -/
def compile? (options : Options) (typed : Bool) (source : String) : Option Compilation :=
  let prepared := Prepared.ofSource typed source.toList
  (prepared.module? typed).map fun m =>
    let compiled := m.compile options
    { prepared
      code := compiled.module.text
      diagnostics := compiled.diagnostics.map fun d => { d with span := prepared.span d.span } }

end JsxDialect
