import JsxDialect.Lower.State
import JsxDialect.Syntax.Build

/-!
# Values kept on the instance

Functions and objects in attributes are made anew whenever a method runs. In a method of an
instance they are kept in a slot of the instance instead, if nothing that they refer to is bound
between the attribute and the method: such a binding may differ from one run to the next.
-/

namespace JsxDialect.Lift

/-- The two kinds of values that are kept. -/
inductive Kind where
  /-- A function, made once. -/
  | handler
  /-- An object, made once and filled anew. -/
  | object
deriving Repr, DecidableEq

/-- The hint for the name of a slot. -/
def Kind.hint : Kind → String
  | .handler => "handler"
  | .object => "object"

/-- Whether a member of an object is no spread. -/
def isOwnProperty : Property → Bool
  | .spread _ => false
  | _ => true

/-- The kind of value that an expression is, if the options let it be kept. -/
def kind? (o : Options) (e : Expr) : Option Kind :=
  match e.inner with
  | .arrow .. => if o.arrowLifting then some .handler else none
  | .object _ properties =>
    if o.objectLifting && !properties.isEmpty && properties.all isOwnProperty then some .object
    else none
  | _ => none

/-- Whether nothing that an expression refers to is bound inside the scope `owner`. The name
`arguments` always is. -/
def isCaptureSafe (scopes : Scopes Stmt) (owner : Nat) (e : Expr) : Bool :=
  e.freeNames.all fun name => name != "arguments" && !scopes.isBoundWithin owner name

/-- What a slot holds at first. -/
def initial (span : Span) (kind : Kind) (e : Expr) : Expr :=
  match kind with
  | .handler => e
  | .object => .object span []

/-- What stands in the attribute instead of the value. -/
def replacement (span : Span) (slot : String) (kind : Kind) (e : Expr) : Expr :=
  match kind with
  | .handler => Build.thisSlot span slot
  | .object =>
    Build.call span (Build.member span (.ident span "Object") "assign")
      [Build.thisSlot span slot, e]

/-- `this[slot] = this[slot] || value;`. -/
def initializer (span : Span) (slot : String) (kind : Kind) (e : Expr) : Stmt :=
  .expr (Build.assign span (.target (Build.thisSlot span slot))
    (Build.either span (Build.thisSlot span slot) (initial span kind e)))

/-- An attribute of an element in a method, with its value kept on the instance if it can be. -/
def lowerAttr (owner : Nat) : Attr → Lower Attr
  | .named span name (.container inside (some e)) => do
    match kind? (← Lower.options) e with
    | some kind =>
      if isCaptureSafe (← get).scopes owner e then
        let slot ← Lower.ask (·.slot kind.hint)
        modify fun s =>
          { s with scopes := s.scopes.queue owner (initializer inside slot kind e) }
        return .named span name (.container inside (some (replacement inside slot kind e)))
      else
        return .named span name (.container inside (some e))
    | none => return .named span name (.container inside (some e))
  | a => return a

/-- Attributes of an element in a method. -/
def lowerEach (owner : Nat) : List Attr → Lower (List Attr)
  | [] => return []
  | a :: as => do
    let a ← lowerAttr owner a
    return a :: (← lowerEach owner as)

/-- The scope of the method around the current place, if the nearest function is one. -/
def owner? (scopes : Scopes Stmt) : Option Nat :=
  scopes.enclosingFunction.filter fun i =>
    match scopes.records[i]? with
    | some r => r.kind == .function true
    | none => false

/-- The attributes of an element, with values kept on the instance. -/
def lowerAttrs (attrs : List Attr) : Lower (List Attr) := do
  match owner? (← get).scopes with
  | some owner => lowerEach owner attrs
  | none => return attrs

end JsxDialect.Lift
