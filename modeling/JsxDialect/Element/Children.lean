import JsxDialect.Element.Text
import JsxDialect.Syntax.Inner

/-!
# Children as expressions
-/

namespace JsxDialect

/-- The expression that a child shows; text that shows nothing and empty containers have none. -/
def Child.expr? : Child → Option Expr
  | .text s => (Text.shown? s.toList).map fun cs => .string .none (String.ofList cs)
  | .element e => some (.element e)
  | .fragment span children => some (.fragment span children)
  | .container e => e
  | .spread e => some e

/-- The expressions that children show. -/
def childExprs (children : List Child) : List Expr :=
  children.filterMap Child.expr?

/-- Children as one expression: `null` for none, the child itself for one, and an array
otherwise. -/
def childrenExpr (span : Span) (children : List Child) : Expr :=
  match childExprs children with
  | [] => .null span
  | [e] => e
  | es => .array span es

end JsxDialect
