import JsxDialect.Element.Attribute
import JsxDialect.Element.Tag
import JsxDialect.Lower.State
import JsxDialect.Syntax.Build

/-!
# Controlled inputs

In a component, the `onChange` handler of a form control is wrapped so that the instance skips
updates while the handler runs.
-/

namespace JsxDialect.Controlled

/-- `(param) => (this[key] = false, handler(param), this[key] = true)`. -/
def guarded (span : Span) (key param : String) (handler : Expr) : Expr :=
  let flag (on : Bool) : Expr :=
    Build.assign span (.target (Build.thisSlot span key)) (.bool span on)
  Build.arrow span [param]
    (.sequence span [flag false, Build.call span handler [.ident span param], flag true])

/-- The attributes of an element with its handler guarded. -/
def lowerAttrs (tag : String) (attrs : List Attr) : Lower (List Attr) := do
  if (← Lower.inComponent) && (FormTag.ofText? tag).isSome then
    match Attrs.get? attrs "onChange" with
    | some (span, value) =>
      let key ← Lower.ask Header.throttleKey
      let param ← Lower.ask (·.paramName "e")
      let handler := guarded span key param (value.toExpr span)
      return Attrs.set attrs "onChange" (.container span (some handler))
    | none => return attrs
  else
    return attrs

end JsxDialect.Controlled
