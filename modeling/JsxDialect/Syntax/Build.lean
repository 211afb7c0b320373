import JsxDialect.Syntax.Inner
import JsxDialect.Text.Identifier

/-!
# Making code

The code that the compiler adds, as functions of its parts. Every node carries the span of the
construct it stands for.
-/

namespace JsxDialect.Build

/-- `undefined`. -/
def undefined (span : Span) : Expr :=
  .ident span "undefined"

/-- `object.name`. -/
def member (span : Span) (object : Expr) (name : String) : Expr :=
  .member span object name false

/-- `this[slot]`. -/
def thisSlot (span : Span) (slot : String) : Expr :=
  .index span (.this span) (.ident span slot) false

/-- `callee(arguments)`; a function that is called at once stands in parentheses. -/
def call (span : Span) (callee : Expr) (arguments : List Expr) : Expr :=
  let callee := match callee with
    | .arrow .. | .function .. => .paren span callee
    | e => e
  .call span callee arguments false

/-- `target = value`. -/
def assign (span : Span) (target : Pattern) (value : Expr) : Expr :=
  .assign span .set target value

/-- `left || right`. -/
def either (span : Span) (left right : Expr) : Expr :=
  .logical span .or left right

/-- The key of a property: quoted only if the name is no identifier. -/
def key (name : String) : Key :=
  if Text.isIdentifierName name.toList then .ident name else .string name

/-- `{ key: value, … }`. -/
def object (span : Span) (properties : List (String × Expr)) : Expr :=
  .object span (properties.map fun (name, value) => .field (key name) value false)

/-- A parameter that is a name. -/
def param (name : String) : Param :=
  .mk [] (.bind name)

/-- A function value with a body. -/
def arrowWith (span : Span) (params : List String) (body : Body) : Expr :=
  .arrow span (.mk none false false none span (params.map param) none none body)

/-- `(params) => body`. -/
def arrow (span : Span) (params : List String) (body : Expr) : Expr :=
  arrowWith span params (.expr body)

/-- `(() => { stmts })()`. -/
def invoked (span : Span) (stmts : List Stmt) : Expr :=
  call span (arrowWith span [] (.block [] stmts)) []

/-- `kind name = value;`. -/
def declare (kind : DeclKind) (name : String) (value : Expr) : Stmt :=
  .varDecl kind [.mk (.bind name) (some value)]

/-- `name={value}`. -/
def attr (span : Span) (name : String) (value : Expr) : Attr :=
  .named span (.plain name) (.container span (some value))

/-- `name="value"`. -/
def stringAttr (span : Span) (name value : String) : Attr :=
  .named span (.plain name) (.string value)

end JsxDialect.Build
