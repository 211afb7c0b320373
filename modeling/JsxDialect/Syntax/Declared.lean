import JsxDialect.Syntax.Basic

/-!
# Declared names

The names that patterns, parameter lists and statements declare. `lexicalNames` are those of a
list of statements itself; `varNames` are those of its `var` declarations at any depth outside
nested functions, which the function around them declares.
-/

namespace JsxDialect

mutual

/-- The names that the parts of a pattern bind, in order. What takes the rest of an object or array
is not one of its parts. -/
def Pattern.names : Pattern → List String
  | .bind n => [n]
  | .target _ => []
  | .hole => []
  | .object properties _ => propertyPatternNames properties
  | .array elements _ => patternNames elements
  | .withDefault p _ => p.names
  | .typed p _ _ => p.names

/-- The names that several patterns bind. -/
def patternNames : List Pattern → List String
  | [] => []
  | p :: ps => p.names ++ patternNames ps

/-- The names that the members of an object pattern bind. -/
def propertyPatternNames : List PatternProperty → List String
  | [] => []
  | .mk _ value _ :: ps => value.names ++ propertyPatternNames ps

end

/-- The pattern of a parameter. -/
def Param.pattern : Param → Pattern
  | .mk _ p => p

/-- The name of a function, if it has one. -/
def Func.name : Func → Option String
  | .mk name .. => name

/-- The parameters of a function. -/
def Func.params : Func → List Param
  | .mk _ _ _ _ _ params .. => params

/-- The pattern that takes the rest of the arguments. -/
def Func.rest : Func → Option Pattern
  | .mk _ _ _ _ _ _ rest .. => rest

/-- The body of a function. -/
def Func.body : Func → Body
  | .mk _ _ _ _ _ _ _ _ body => body

/-- The names of the parameters of a function. -/
def Func.paramNames (f : Func) : List String :=
  f.params.flatMap (·.pattern.names) ++ (f.rest.map Pattern.names).getD []

/-- The name of a class, if it has one. -/
def Class.name : Class → Option String
  | .mk name .. => name

/-- The statements of a body, if it has any. -/
def Body.stmts : Body → List Stmt
  | .block _ stmts => stmts
  | _ => []

/-- The names that variables of a declaration have. -/
def declaratorNames (ds : List Declarator) : List String :=
  ds.flatMap fun | .mk p _ => p.names

/-- The names a statement declares in the list it stands in, other than by `var`. -/
def Stmt.lexicalNames : Stmt → List String
  | .varDecl kind ds => if kind == .var then [] else declaratorNames ds
  | .function f => f.name.toList
  | .classDecl c => c.name.toList
  | _ => []

/-- The names that a list of statements declares itself, other than by `var`. -/
def lexicalNames (stmts : List Stmt) : List String :=
  stmts.flatMap Stmt.lexicalNames

/-- The names that the head of a loop declares other than by `var`. -/
def ForHead.lexicalNames : ForHead → List String
  | .decl .var _ => []
  | .decl _ ds => declaratorNames ds
  | _ => []

/-- The patterns of the variables of a declaration. -/
def declaratorPatterns (ds : List Declarator) : List Pattern :=
  ds.map fun | .mk p _ => p

/-- The patterns of the variables that the head of a loop declares by `var`. -/
def ForHead.varPatterns : ForHead → List Pattern
  | .decl .var ds => declaratorPatterns ds
  | _ => []

mutual

/-- The patterns of the `var` declarations in a statement, outside nested functions. -/
def Stmt.varPatterns : Stmt → List Pattern
  | .varDecl kind ds => if kind == .var then declaratorPatterns ds else []
  | .block stmts => varPatterns stmts
  | .if _ consequent alternate => consequent.varPatterns ++ optionVarPatterns alternate
  | .for init _ _ body => init.varPatterns ++ body.varPatterns
  | .forIn left _ body => left.varPatterns ++ body.varPatterns
  | .forOf _ left _ body => left.varPatterns ++ body.varPatterns
  | .while _ body => body.varPatterns
  | .doWhile body _ => body.varPatterns
  | .labeled _ body => body.varPatterns
  | .try block handler finalizer =>
    varPatterns block ++ handlerVarPatterns handler ++ finalizerVarPatterns finalizer
  | .switch _ cases => caseVarPatterns cases
  | _ => []

/-- The patterns of the `var` declarations in a list of statements, outside nested functions. -/
def varPatterns : List Stmt → List Pattern
  | [] => []
  | s :: ss => s.varPatterns ++ varPatterns ss

/-- The patterns of the `var` declarations in an `else` part. -/
def optionVarPatterns : Option Stmt → List Pattern
  | none => []
  | some s => s.varPatterns

/-- The patterns of the `var` declarations in a handler. -/
def handlerVarPatterns : Option Catch → List Pattern
  | none => []
  | some (.mk _ body) => varPatterns body

/-- The patterns of the `var` declarations in a finalizer. -/
def finalizerVarPatterns : Option (List Stmt) → List Pattern
  | none => []
  | some body => varPatterns body

/-- The patterns of the `var` declarations in the cases of a `switch`. -/
def caseVarPatterns : List SwitchCase → List Pattern
  | [] => []
  | .mk _ body :: cases => varPatterns body ++ caseVarPatterns cases

end

/-- The names that `var` declares in a list of statements, outside nested functions. -/
def varNames (stmts : List Stmt) : List String :=
  (varPatterns stmts).flatMap Pattern.names

/-- The names that the statements of a function body declare in the function. -/
def Body.names (b : Body) : List String :=
  varNames b.stmts ++ lexicalNames b.stmts

/-- The names that an exported declaration declares. -/
def Stmt.exportedNames : Stmt → List String
  | .varDecl _ ds => declaratorNames ds
  | .function f => f.name.toList
  | .classDecl c => c.name.toList
  | _ => []

/-- The names that a statement of a module imports, or declares and exports by name. -/
def Stmt.moduleNames : Stmt → List String
  | .import (some items) _ => items.map ImportItem.localName
  | .exportDecl d => d.exportedNames
  | _ => []

/-- The names that a module binds at its top level, the names of default exports apart. -/
def Module.topLevelNames (m : Module) : List String :=
  lexicalNames m.stmts ++ varNames m.stmts ++ m.stmts.flatMap Stmt.moduleNames

/-- The name of a default export that is a function or a class. -/
def Stmt.defaultName : Stmt → Option String
  | .exportDefaultFunction f => f.name
  | .exportDefaultClass c => c.name
  | _ => none

end JsxDialect
