import JsxDialect.Lower.State
import JsxDialect.Syntax.Build

/-!
# Component classes

A class is a component if one of its decorators has a name that ends with `Component`. Decorators
listed for automatic import are renamed to the imports, which may also provide the base class of a
class without one. The constructor of a component takes `(props, context)`: one without parameters
gets them and passes them on, and other parameters are reported.

What is to be done with a class is decided before its parts are looked at, as a `ClassPlan`.
-/

namespace JsxDialect.ComponentClass

/-! ## Decorators -/

/-- The name of a decorator that is a name or a call of one. -/
def decoratorName? : Expr → Option (Span × String)
  | .ident span name => some (span, name)
  | .call _ (.ident span name) _ _ => some (span, name)
  | _ => none

/-- A new name for a decorator. If the old name is bound around the class, it stays visible. -/
structure Renaming where
  name : String
  keepsOld : Bool
deriving Repr, Inhabited

/-- The name of a decorator after renaming. -/
def Renaming.apply (r : Renaming) (span : Span) (old : String) : Expr :=
  if r.keepsOld then .alias span r.name old else .ident span r.name

/-- A decorator after renaming. -/
def renameDecorator (r : Option Renaming) (d : Expr) : Expr :=
  match r, d with
  | some r, .ident span old => r.apply span old
  | some r, .call span (.ident inside old) args optional =>
    .call span (r.apply inside old) args optional
  | _, d => d

/-- Decorators after renaming. -/
def renameDecorators : List (Option Renaming) → List Expr → List Expr
  | r :: rs, d :: ds => renameDecorator r d :: renameDecorators rs ds
  | _, ds => ds

/-- Whether a name is bound around the current place by code of the module: in a scope that is no
binder list, as the name of a class around it, or as a default export. -/
def isBoundAround (name : String) : Lower Bool := do
  let s ← get
  let bound := (s.scopes.ancestors s.scopes.current).any fun i =>
    match s.scopes.records[i]? with
    | some r => r.kind != .binder && r.names.contains name
    | none => false
  return bound || s.classes.any (·.ownName == some name) || (← read).defaultNames.contains name

/-- The import of a base class for a class without one, with the place of the decorator that asks
for it. -/
abbrev Inherited := Option (Span × ImportDescriptor)

/-- The renamings of decorators, and the first base class that they ask for. -/
def planDecorators (inherited : Inherited) :
    List Expr → Lower (List (Option Renaming) × Inherited)
  | [] => return ([], inherited)
  | d :: ds => do
    let found ← (do
      match decoratorName? d with
      | none => return none
      | some (span, name) =>
        if (← get).header.isTopLevel name then return none
        return ((← Lower.options).autoImport.lookup name).map fun i => (span, name, i) :
      Lower (Option (Span × String × ImportDescriptor)))
    match found with
    | none =>
      let (rs, inherited) ← planDecorators inherited ds
      return (none :: rs, inherited)
    | some (span, name, descriptor) =>
      let keepsOld ← isBoundAround name
      let new ← Lower.ask (·.addDescriptor descriptor)
      let asked := descriptor.inherits.map fun parent => (span, parent)
      let (rs, inherited) ← planDecorators (inherited.orElse fun _ => asked) ds
      return (some ⟨new, keepsOld⟩ :: rs, inherited)

/-- Whether a text ends with `Component`. -/
def endsWithComponent (name : String) : Bool :=
  "Component".toList.isSuffixOf name.toList

/-- Whether a decorator, after renaming, makes its class a component. -/
def isComponentDecorator (r : Option Renaming) (d : Expr) : Bool :=
  match decoratorName? d with
  | some (_, old) => endsWithComponent ((r.map (·.name)).getD old)
  | none => false

/-! ## Constructors -/

/-- How a parameter reads in a report. -/
def describe : Pattern → String
  | .bind name => name
  | .object .. => "\x7b...\x7d"
  | .array .. => "[...]"
  | .withDefault p _ => describe p ++ " = ..."
  | .typed p _ _ => describe p
  | .target _ => ""
  | .hole => ""

/-- How the parameters of a function read in a report. -/
def describeParams (f : Func) : List String :=
  f.params.map (fun p => describe p.pattern) ++ (f.rest.map fun p => "..." ++ describe p).toList

/-- The span of the parameter list of a function. -/
def paramSpan : Func → Span
  | .mk _ _ _ _ span .. => span

/-- The first constructor among the members of a class. -/
def constructor? : List Member → Option Func
  | [] => none
  | .method _ _ .constructor _ f :: _ => some f
  | _ :: ms => constructor? ms

/-- The parameters of the constructor of a component. -/
def canonicalParams : List String :=
  ["props", "context"]

/-- Whether the constructor of a component is to get its parameters; others than these are
reported. -/
def planConstructor (name : Option String) (members : List Member) : Lower Bool := do
  match constructor? members with
  | none => return false
  | some f =>
    let names := describeParams f
    if names.isEmpty then return true
    if names != canonicalParams then
      Lower.report (paramSpan f) (.constructorParameters (name.getD "<anonymous>") names)
    return false

/-- A call of the base constructor that passes the parameters on. -/
def forwardedCall (span inside : Span) (optional : Bool) : Stmt :=
  .expr (.call span (.super inside) (canonicalParams.map (.ident span ·)) optional)

/-! ## Classes -/

/-- What is to be done with a class: the renamings of its decorators, its new base class, and
whether its constructor gets parameters. -/
structure ClassPlan where
  renamings : List (Option Renaming)
  newSuper : Option Expr
  givesParams : Bool

/-- Enters a class: decides what is to be done with it, and notes whether it is a component. The
name of a class expression is visible only inside it. -/
def enter (isExpr : Bool) : Class → Lower ClassPlan
  | .mk name decorators superClass members => do
    let (renamings, inherited) ← planDecorators none decorators
    let newSuper ← (do
      match superClass, inherited with
      | none, some (span, parent) =>
        return some (.ident span (← Lower.ask (·.addDescriptor parent)))
      | _, _ => return none : Lower (Option Expr))
    let isComponent := (renamings.zip decorators).any fun (r, d) => isComponentDecorator r d
    let ownName := if isExpr then name else none
    modify fun s => { s with classes := ⟨isComponent, ownName⟩ :: s.classes }
    let givesParams ← if isComponent && (← Lower.options).constructorProps
      then planConstructor name members else pure false
    return ⟨renamings, newSuper, givesParams⟩

/-- Leaves a class. -/
def leave : Lower Unit :=
  modify fun s => { s with classes := s.classes.tail }

end JsxDialect.ComponentClass
