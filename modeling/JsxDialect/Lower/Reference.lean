import JsxDialect.Element.Attribute
import JsxDialect.Lower.State
import JsxDialect.Syntax.Build

/-!
# References to elements

`ref={target}` becomes a callback, which calls the target if it is a function and assigns the
element to it otherwise. What cannot be assigned to, as a callback, is left alone, and strings are
refused.
-/

namespace JsxDialect.Reference

/-- `(el) => typeof target === "function" ? target(el) : target = el`. -/
def callback (span : Span) (el : String) (target : Expr) (place : Pattern) : Expr :=
  let test := .binary span .strictEqual (.unary span .typeof target) (.string span "function")
  let assignment := Build.assign span place (.ident span el)
  Build.arrow span [el]
    (.conditional span test (Build.call span target [.ident span el]) (.paren span assignment))

/-- The attributes of an element with its reference as a callback. -/
def lowerAttrs (attrs : List Attr) : Lower (List Attr) := do
  match Attrs.get? attrs "ref" with
  | some (span, .string _) =>
    Lower.report span .stringRef
    return Attrs.erase attrs "ref"
  | some (span, .container _ (some e)) =>
    match e.target? with
    | some place =>
      let el ← Lower.ask (·.paramName "el")
      return Attrs.set attrs "ref" (.container span (some (callback span el e place)))
    | none => return attrs
  | _ => return attrs

end JsxDialect.Reference
