import JsxDialect.Parse.Expression
import JsxDialect.Parse.Statement

/-!
# Reading modules

The rules of the phrases are tied together by `grammar`, which allows phrases to nest as deep as
its argument says; `readModule` takes an argument that no text can exhaust.
-/

namespace JsxDialect

namespace Parse

/-- The grammar for phrases nested up to a depth. -/
def grammar : Nat → Grammar
  | 0 =>
    { expr := unexpected
      assign := unexpected
      branch := unexpected
      binary := fun _ => unexpected
      unary := unexpected
      leftHandSide := unexpected
      member := unexpected
      binding := unexpected
      type := unexpected
      statement := fun _ => unexpected
      markup := fun _ _ => unexpected }
  | depth + 1 =>
    { expr := fun s c => expr (grammar depth) s c
      assign := fun s c => assign (grammar depth) true s c
      branch := fun s c => assign (grammar depth) false s c
      binary := fun level s c => binary (grammar depth) level s c
      unary := fun s c => unary (grammar depth) s c
      leftHandSide := fun s c => leftHandSide (grammar depth) s c
      member := fun s c => member (grammar depth) s c
      binding := fun s c => binding (grammar depth) s c
      type := fun s c => typeExpr (grammar depth) s c
      statement := fun inList s c => statement (grammar depth) inList s c
      markup := fun start isChild s c => markup (grammar depth) start isChild s c }

/-- How a text is read: with or without types, and with or without nodes for parentheses. -/
structure Options where
  typed : Bool := false
  keepParens : Bool := true

/-- What reading a text gives: a module and whether mistakes were noted, or a refusal. -/
def readText (options : Options) (text : List Char) : Except Refusal (Module × Bool) :=
  let bound := text.length + 2
  let setting : Setting := { typed := options.typed, keepParens := options.keepParens, bound }
  let g := grammar (8 * bound)
  match (directivesAndStatements g false) setting (Cursor.first text) with
  | .ok ((directives, stmts), c) => .ok (⟨directives, stmts⟩, c.faulty || !c.unsettled.isEmpty)
  | .error refusal => .error refusal

end Parse

/-- The module a text is, if it is one. -/
def readModule? (options : Parse.Options) (text : List Char) : Option Module :=
  match Parse.readText options text with
  | .ok (m, false) => some m
  | _ => none

end JsxDialect
