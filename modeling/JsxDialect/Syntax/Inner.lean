import JsxDialect.Syntax.Basic

/-!
# Looking at expressions

The span an expression was read from, and the expression inside the wrappers that do not change
its value: parentheses, type tests and assertions that a value is present.
-/

namespace JsxDialect

/-- The span of an element. -/
def Element.span : Element → Span
  | .mk span .. => span

/-- The span of the opening tag of an element. -/
def Element.openSpan : Element → Span
  | .mk _ openSpan .. => openSpan

/-- The name of an element. -/
def Element.name : Element → ElementName
  | .mk _ _ name .. => name

/-- The attributes of an element. -/
def Element.attrs : Element → List Attr
  | .mk _ _ _ attrs .. => attrs

/-- The children of an element. -/
def Element.children : Element → List Child
  | .mk _ _ _ _ children _ => children

/-- The element with other attributes. -/
def Element.withAttrs (e : Element) (attrs : List Attr) : Element :=
  match e with
  | .mk span openSpan name _ children closed => .mk span openSpan name attrs children closed

namespace Expr

/-- Where an expression was read. -/
def span : Expr → Span
  | .ident s _ | .alias s _ _ | .number s _ | .string s _ | .bigint s _ | .regex s _ | .bool s _
  | .null s | .this s | .super s | .metaProperty s _ _ | .template s _ _ | .tagged s _ _ _
  | .array s _ | .object s _ | .function s _ | .arrow s _ | .classExpr s _ | .unary s _ _
  | .update s _ _ _ | .binary s _ _ _ | .privateIn s _ _ | .logical s _ _ _ | .assign s _ _ _
  | .conditional s _ _ _ | .call s _ _ _ | .new s _ _ | .member s _ _ _ | .privateMember s _ _ _
  | .index s _ _ _ | .chain s _ | .sequence s _ | .paren s _ | .yield s _ _ | .await s _
  | .importCall s _ | .typed s _ _ _ | .nonNull s _ | .fragment s _ => s
  | .element e => e.span
  | .hole => .none
  | .spread e => e.span

/-- The expression inside parentheses, type tests and assertions. -/
def inner : Expr → Expr
  | .paren _ e => inner e
  | .typed _ _ e _ => inner e
  | .nonNull _ e => inner e
  | e => e

/-- The expression as a target that can be assigned to: a name or a member, without wrappers. -/
def target? (e : Expr) : Option Pattern :=
  match e.inner with
  | .ident s n => some (.target (.ident s n))
  | .member s o n optional => some (.target (.member s o n optional))
  | .index s o k optional => some (.target (.index s o k optional))
  | .privateMember s o n optional => some (.target (.privateMember s o n optional))
  | _ => none

end Expr

end JsxDialect
