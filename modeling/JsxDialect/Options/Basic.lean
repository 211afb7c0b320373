/-!
# Options

What the compiler is asked to do. Every rule can be switched off; all are on by default.
-/

namespace JsxDialect

/-- An import of one name from a module. For a decorator, `inherits` is the base class that
decorated classes get if they declare none. -/
structure ImportDescriptor where
  module : String
  exported : String
  inherits : Option ImportDescriptor
deriving Repr, BEq, Inhabited

/-- The options of the compiler. -/
structure Options where
  /-- Turn `ref` attributes into callbacks. -/
  refAttribute : Bool := true
  /-- Give the constructors of components the parameters `(props, context)`. -/
  constructorProps : Bool := true
  /-- Merge `style`, `style-*` and the styles of spreads. -/
  styleAttribute : Bool := true
  /-- Merge `class`, `className`, `class-*` and the class names of spreads. -/
  classAttribute : Bool := true
  /-- Lower the tags of control flow. -/
  controlFlow : Bool := true
  /-- Hoist `<Parent:slot>` children into attributes of the parent. -/
  namedChildren : Bool := true
  /-- Turn the children of an element with an `as` attribute into a render function. -/
  asAttribute : Bool := true
  /-- Expand `bind:*` directives. -/
  bindAttribute : Bool := true
  /-- Keep functions in attributes of instance methods on the instance. -/
  arrowLifting : Bool := true
  /-- Keep objects in attributes of instance methods on the instance. -/
  objectLifting : Bool := true
  /-- Guard `onChange` handlers of form controls in components. -/
  controlledInput : Bool := true
  /-- Tags and decorators that are imported where they are used. -/
  autoImport : List (String × ImportDescriptor) := []
  /-- The package with the helper functions; without one they are written into the module. -/
  moduleName : Option String := none
deriving Repr, Inhabited

end JsxDialect
