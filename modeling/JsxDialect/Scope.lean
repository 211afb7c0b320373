/-!
# Scopes

The scopes that a walk over a program opens and closes. Records are numbered in the order they
are opened and stay where they are when they are closed, so that a scope can still be asked about
afterwards. Each record knows the scope around it, which has a smaller number; the open scopes are
the current one and those around it.

Main functions: `resolve` finds the nearest scope that binds a name, and `isBoundWithin` tells
whether a name is bound on the way from the current scope out to a given one.
-/

namespace JsxDialect

/-- What opens a scope. -/
inductive ScopeKind where
  /-- A function other than an arrow function; a method of an instance has a `this` on which
  values can be kept. -/
  | function (isMethod : Bool)
  | arrow
  /-- A block, the head of a loop, a handler or the body of a `switch`. -/
  | block
  /-- The names that attributes of an element bind for its children. -/
  | binder
deriving Repr, DecidableEq, Inhabited

/-- A scope: the one around it, what opened it, the names it binds and what is queued on it. -/
structure ScopeRecord (α : Type) where
  parent : Option Nat
  kind : ScopeKind
  names : List String
  queued : List α
deriving Repr, Inhabited

/-- All scopes ever opened, and the innermost one that is open. -/
structure Scopes (α : Type) where
  records : Array (ScopeRecord α)
  current : Option Nat
deriving Repr, Inhabited

namespace Scopes

variable {α : Type}

/-- No scope. -/
def empty : Scopes α :=
  ⟨#[], none⟩

/-- Opens a scope inside the current one. -/
def push (s : Scopes α) (kind : ScopeKind) (names : List String) : Nat × Scopes α :=
  (s.records.size, ⟨s.records.push ⟨s.current, kind, names, []⟩, some s.records.size⟩)

/-- The scope around a scope. -/
def parent? (s : Scopes α) (i : Nat) : Option Nat :=
  s.records[i]?.bind (·.parent)

/-- Closes the current scope, if one is open, and returns its number. -/
def pop? (s : Scopes α) : Option (Nat × Scopes α) :=
  s.current.map fun i => (i, { s with current := s.parent? i })

/-- Whether all scopes are closed. -/
def isBalanced (s : Scopes α) : Bool :=
  s.current.isNone

/-- The scope and those around it, innermost first, at most `fuel` of them. -/
def chain (s : Scopes α) : Nat → Option Nat → List Nat
  | _, none => []
  | 0, some _ => []
  | fuel + 1, some i => i :: chain s fuel (s.parent? i)

/-- The scope and those around it, innermost first. -/
def ancestors (s : Scopes α) (start : Option Nat) : List Nat :=
  s.chain s.records.size start

/-- Whether a scope itself binds a name. -/
def binds (s : Scopes α) (name : String) (i : Nat) : Bool :=
  match s.records[i]? with
  | some r => r.names.contains name
  | none => false

/-- The nearest scope that binds a name. -/
def resolve (s : Scopes α) (start : Option Nat) (name : String) : Option Nat :=
  (s.ancestors start).find? (s.binds name)

/-- Whether a scope is a function other than an arrow function. -/
def isFunction (s : Scopes α) (i : Nat) : Bool :=
  match s.records[i]? with
  | some r => match r.kind with
    | .function _ => true
    | _ => false
  | none => false

/-- The innermost open scope of a function other than an arrow function. -/
def enclosingFunction (s : Scopes α) : Option Nat :=
  (s.ancestors s.current).find? s.isFunction

/-- Whether one of the scopes, up to and with `owner`, binds a name. -/
def boundUpTo (s : Scopes α) (owner : Nat) (name : String) : List Nat → Bool
  | [] => false
  | i :: is => s.binds name i || (i != owner && s.boundUpTo owner name is)

/-- Whether a name is bound from the current scope out to `owner`, that one included. -/
def isBoundWithin (s : Scopes α) (owner : Nat) (name : String) : Bool :=
  s.boundUpTo owner name (s.ancestors s.current)

/-- Binds one more name in a scope. -/
def bind (s : Scopes α) (i : Nat) (name : String) : Scopes α :=
  { s with records := s.records.modify i fun r => { r with names := r.names ++ [name] } }

/-- Queues an item on a scope. -/
def queue (s : Scopes α) (i : Nat) (item : α) : Scopes α :=
  { s with records := s.records.modify i fun r => { r with queued := r.queued ++ [item] } }

/-- The items queued on a scope. -/
def queued (s : Scopes α) (i : Nat) : List α :=
  ((s.records[i]?).map (·.queued)).getD []

/-- Takes the items queued on a scope. -/
def take (s : Scopes α) (i : Nat) : List α × Scopes α :=
  (s.queued i, { s with records := s.records.modify i fun r => { r with queued := [] } })

end Scopes

end JsxDialect
