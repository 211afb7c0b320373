import JsxDialect.Syntax.Declared

/-!
# Declared twice

A name may be declared once in a scope, except by `var`, by a parameter and by the functions of a
function body, which may share it among themselves. A `var` declares its name in all scopes that it
stands in, out to the function.
-/

namespace JsxDialect

mutual

/-- All names that a pattern binds, the rests included. -/
def Pattern.allNames : Pattern → List String
  | .bind n => [n]
  | .target _ => []
  | .hole => []
  | .object properties rest => propertyAllNames properties ++ restAllNames rest
  | .array elements rest => patternsAllNames elements ++ restAllNames rest
  | .withDefault p _ => p.allNames
  | .typed p _ _ => p.allNames

/-- All names that several patterns bind. -/
def patternsAllNames : List Pattern → List String
  | [] => []
  | p :: ps => p.allNames ++ patternsAllNames ps

/-- All names that the rest of a pattern binds. -/
def restAllNames : Option Pattern → List String
  | none => []
  | some p => p.allNames

/-- All names that the members of an object pattern bind. -/
def propertyAllNames : List PatternProperty → List String
  | [] => []
  | .mk _ value _ :: ps => value.allNames ++ propertyAllNames ps

end

namespace Check

/-- Whether no name occurs twice. -/
def distinct : List String → Bool
  | [] => true
  | n :: ns => !ns.contains n && distinct ns

/-- Whether two lists have no name in common. -/
def disjoint (xs ys : List String) : Bool :=
  xs.all (!ys.contains ·)

/-- All names that the variables of a declaration bind. -/
def allDeclared (ds : List Declarator) : List String :=
  (declaratorPatterns ds).flatMap Pattern.allNames

/-- The names that a statement declares by `let`, `const` or as a class. -/
def ownNames : Stmt → List String
  | .varDecl kind ds => if kind == .var then [] else allDeclared ds
  | .classDecl c => c.name.toList
  | _ => []

/-- The name of a statement that is a function. -/
def functionNames : Stmt → List String
  | .function f => f.name.toList
  | _ => []

/-- The names that a statement declares in the block it stands in. -/
def blockNames (s : Stmt) : List String :=
  ownNames s ++ functionNames s

/-- The names that a statement declares in its module. -/
def topNames : Stmt → List String
  | .import (some items) _ => items.map ImportItem.localName
  | .exportDecl d => blockNames d
  | .exportDefaultFunction f => f.name.toList
  | .exportDefaultClass c => c.name.toList
  | s => blockNames s

/-- The patterns of the `var` declarations in a statement of a module. -/
def topVarPatterns : Stmt → List Pattern
  | .exportDecl d => d.varPatterns
  | s => s.varPatterns

/-- All names that `var` declares in statements. -/
def varAllNames (stmts : List Stmt) : List String :=
  (varPatterns stmts).flatMap Pattern.allNames

/-- Whether the names of a block are declared once, given the names that are already declared in its
scope. -/
def blockDistinct (outer : List String) (stmts : List Stmt) : Bool :=
  let names := outer ++ stmts.flatMap blockNames
  distinct names && disjoint names (varAllNames stmts)

/-- Whether the names in the body of a function are declared once. -/
def bodyDistinct (params : List String) (stmts : List Stmt) : Bool :=
  let own := stmts.flatMap ownNames
  distinct own && distinct params && disjoint own params
    && disjoint own (stmts.flatMap functionNames) && disjoint own (varAllNames stmts)

/-- Whether the names of a handler are declared once. A `var` may repeat a parameter that is a
name. -/
def handlerDistinct (param : Option Pattern) (stmts : List Stmt) : Bool :=
  let names := restAllNames param
  let isName := match param with
    | some (.bind _) => true
    | _ => false
  distinct names && disjoint names (stmts.flatMap blockNames)
    && (isName || disjoint names (varAllNames stmts))

/-- All names that the head of a loop declares other than by `var`. -/
def headNames : ForHead → List String
  | .decl kind ds => if kind == .var then [] else allDeclared ds
  | _ => []

/-- Whether the names in the head of a loop are declared once. -/
def headDistinct (head : ForHead) (body : Stmt) : Bool :=
  distinct (headNames head) && disjoint (headNames head) (varAllNames [body])

/-- Whether the names in the cases of a `switch` are declared once. -/
def casesDistinct (cases : List SwitchCase) : Bool :=
  blockDistinct [] (cases.flatMap fun | .mk _ body => body)

/-- Whether the names of a module are declared once. -/
def topDistinct (stmts : List Stmt) : Bool :=
  let names := stmts.flatMap topNames
  distinct names && disjoint names ((stmts.flatMap topVarPatterns).flatMap Pattern.allNames)

/-- The name under which a statement exports, and the names it exports of the module. -/
def exports : Stmt → List String × List String
  | .exportNamed items none => (items.map (·.2.name), items.map (·.1.name))
  | .exportNamed items (some _) => (items.map (·.2.name), [])
  | .exportAll name _ => ((name.map (·.name)).toList, [])
  | .exportDecl d => (blockNames d ++ (d.varPatterns).flatMap Pattern.allNames, [])
  | .exportDefaultFunction _ | .exportDefaultClass _ | .exportDefault _ => (["default"], [])
  | _ => ([], [])

/-- Whether a module exports every name once, and only names that it declares. -/
def exportsValid (stmts : List Stmt) : Bool :=
  let declared := stmts.flatMap topNames ++ (stmts.flatMap topVarPatterns).flatMap Pattern.allNames
  distinct (stmts.flatMap fun s => (exports s).1)
    && stmts.all fun s => (exports s).2.all declared.contains

end Check

end JsxDialect
