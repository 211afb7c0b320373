import JsxDialect.Parse.Class

/-!
# Reading statements
-/

namespace JsxDialect.Parse

/-! ## Declarations -/

/-- The kind of the variable declaration that a word starts. -/
def declKind? : String → Option DeclKind
  | "var" => some .var
  | "let" => some .let
  | "const" => some .const
  | _ => none

/-- The kind of the variable declaration that starts here, if one does: after `let` a name or a
pattern has to follow. -/
def atVariables : Parse (Option DeclKind) := do
  match ← current with
  | .word "let" false =>
    match (← peek).1 with
    | .word name _ => return if ["in", "of", "instanceof"].contains name then none else some .let
    | .punct p => return if p == "[" || p == "\x7b" then some .let else none
    | _ => return none
  | .word name false => return declKind? name
  | _ => return none

/-- One variable of a declaration. -/
def declarator (g : Grammar) : Parse Declarator := do
  let p ← g.binding
  let init ← (do if ← eat? "=" then return some (← g.assign) else return none :
    Parse (Option Expr))
  return .mk p init

/-- The variables of a declaration after its first word. -/
def declarators (g : Grammar) : Parse (List Declarator) := do
  let first ← declarator g
  let others ← many do
    if ← eat? "," then return some (← declarator g) else return none
  return first :: others

/-- Whether a variable lacks the value it has to have: a constant, or one that is a pattern. -/
def lacksInit (kind : DeclKind) : Declarator → Bool
  | .mk _ (some _) => false
  | .mk (.bind _) none | .mk (.typed (.bind _) ..) none => kind == .const
  | .mk _ none => true

/-- A variable declaration, from its first word. -/
def varDeclaration (g : Grammar) (kind : DeclKind) : Parse Stmt := do
  advance
  let ds ← declarators g
  faultIf (ds.any (lacksInit kind))
  endStatement
  return .varDecl kind ds

/-- A declaration that an export can have, if one starts here. -/
def declaration? (g : Grammar) : Parse (Option Stmt) := do
  if let some kind ← atVariables then return some (← varDeclaration g kind)
  if ← atAsyncFunction then
    advance
    return some (.function (← functionFrom g true true true))
  match ← current with
  | .word "function" false => return some (.function (← functionFrom g false true true))
  | .word "class" false => return some (.classDecl (← classFrom g [] true))
  | .punct "@" =>
    let ds ← decorators g
    return some (.classDecl (← classFrom g ds true))
  | _ => return none

/-! ## Control flow -/

/-- Statements in braces. -/
def block (g : Grammar) : Parse (List Stmt) := do
  expect "\x7b"
  let stmts ← many do
    if ← at? "\x7d" then return none
    return some (← g.statement true)
  expect "\x7d"
  return stmts

/-- An expression in parentheses that belong to a statement. -/
def condition (g : Grammar) : Parse Expr := do
  expect "("
  let e ← within Setting.bracketed g.expr
  expect ")"
  return e

/-- A loop with `for`, from its first semicolon on. -/
def forRest (g : Grammar) (init : ForHead) : Parse Stmt := do
  expect ";"
  let test ← (do if ← at? ";" then return none else return some (← g.expr) : Parse (Option Expr))
  expect ";"
  let update ← (do if ← at? ")" then return none else return some (← g.expr) :
    Parse (Option Expr))
  expect ")"
  return .for init test update (← g.statement false)

/-- A loop over keys or items, from the word after its head on. -/
def forEachRest (g : Grammar) (isAwait : Bool) (head : ForHead) : Parse Stmt := do
  if ← eatWord? "in" then
    faultIf isAwait
    let right ← g.expr
    expect ")"
    return .forIn head right (← g.statement false)
  else
    expectWord "of"
    let right ← g.assign
    expect ")"
    return .forOf isAwait head right (← g.statement false)

/-- Whether one of the words that start a loop over keys or items comes next. -/
def atForEach : Parse Bool := do
  return (← atWord? "in") || (← atWord? "of")

/-- A `for` statement. -/
def forStatement (g : Grammar) : Parse Stmt := do
  expectWord "for"
  let isAwait ← eatWord? "await"
  faultIf (isAwait && !(← read).inAsync)
  expect "("
  if ← at? ";" then
    faultIf isAwait
    forRest g .absent
  else if let some kind ← atVariables then
    advance
    let ds ← within ({ · with allowIn := false }) (declarators g)
    if ← atForEach then
      faultIf (ds.length != 1)
      forEachRest g isAwait (.decl kind ds)
    else
      faultIf (isAwait || ds.any (lacksInit kind))
      forRest g (.decl kind ds)
  else
    let start ← position
    let e ← within ({ · with allowIn := false }) g.expr
    if ← atForEach then forEachRest g isAwait (.target (← toTarget e start))
    else
      faultIf isAwait
      forRest g (.expr e)

/-- An `if` statement. -/
def ifStatement (g : Grammar) : Parse Stmt := do
  expectWord "if"
  let test ← condition g
  let consequent ← g.statement false
  let alternate ← (do
    if ← eatWord? "else" then return some (← g.statement false) else return none :
    Parse (Option Stmt))
  return .if test consequent alternate

/-- A `while` statement. -/
def whileStatement (g : Grammar) : Parse Stmt := do
  expectWord "while"
  let test ← condition g
  return .while test (← g.statement false)

/-- A `do` statement; its semicolon may be left out. -/
def doStatement (g : Grammar) : Parse Stmt := do
  expectWord "do"
  let body ← g.statement false
  expectWord "while"
  let test ← condition g
  let _ ← eat? ";"
  return .doWhile body test

/-- A case of a `switch` statement. -/
def switchCase (g : Grammar) : Parse SwitchCase := do
  let test ← (do
    if ← eatWord? "default" then return none
    expectWord "case"
    return some (← g.expr) : Parse (Option Expr))
  expect ":"
  let stmts ← many do
    if (← at? "\x7d") || (← atWord? "case") || (← atWord? "default") then return none
    return some (← g.statement true)
  return .mk test stmts

/-- A `switch` statement; it has at most one default. -/
def switchStatement (g : Grammar) : Parse Stmt := do
  expectWord "switch"
  let discriminant ← condition g
  expect "\x7b"
  let cases ← many do
    if ← at? "\x7d" then return none
    return some (← switchCase g)
  expect "\x7d"
  faultIf (1 < (cases.filter fun | .mk test _ => test.isNone).length)
  return .switch discriminant cases

/-- A `try` statement; it has a handler or a finalizer. -/
def tryStatement (g : Grammar) : Parse Stmt := do
  expectWord "try"
  let body ← block g
  let handler ← (do
    if ← eatWord? "catch" then
      let param ← (do
        if ← eat? "(" then
          let p ← g.binding
          expect ")"
          return some p
        else
          return none : Parse (Option Pattern))
      return some (.mk param (← block g))
    else
      return none : Parse (Option Catch))
  let finalizer ← (do
    if ← eatWord? "finally" then return some (← block g) else return none :
    Parse (Option (List Stmt)))
  faultIf (handler.isNone && finalizer.isNone)
  return .try body handler finalizer

/-- The label of a jump, if it has one, and the end of its statement. -/
def jumpLabel : Parse (Option String) := do
  let label ← (do
    if ← atStatementEnd then return none else return some (← identifier) :
    Parse (Option String))
  endStatement
  return label

/-- A `return` statement. -/
def returnStatement (g : Grammar) : Parse Stmt := do
  expectWord "return"
  faultIf !(← read).inFunction
  let value ← (do
    if ← atStatementEnd then return none
    return some (← within Setting.bracketed g.expr) : Parse (Option Expr))
  endStatement
  return .return value

/-- A `throw` statement; what is thrown starts on its line. -/
def throwStatement (g : Grammar) : Parse Stmt := do
  expectWord "throw"
  faultIf (← onNewLine)
  let e ← g.expr
  endStatement
  return .throw e

/-- An expression as a statement, or a labelled statement. -/
def expressionStatement (g : Grammar) : Parse Stmt := do
  let e ← within Setting.bracketed g.expr
  match e with
  | .ident _ name =>
    if ← eat? ":" then
      return .labeled name (← g.statement false)
  | _ => pure ()
  endStatement
  return .expr e

/-! ## Imports and exports -/

/-- A name in an import or export: a word or a string. -/
def moduleName : Parse ExportName := do
  match ← current with
  | .string value _ =>
    advance
    return ⟨value, true⟩
  | _ => return ⟨← anyWord, false⟩

/-- The module after the word `from`. -/
def fromSource : Parse String := do
  expectWord "from"
  match ← current with
  | .string value _ =>
    advance
    return value
  | _ => unexpected

/-- An import in braces. -/
def importNamed : Parse ImportItem := do
  let plain ← identifier?
  let exported ← moduleName
  if ← eatWord? "as" then
    return .named exported.name (← identifier) exported.quoted
  else if plain.isSome then
    return .named exported.name exported.name false
  else
    unexpected

/-- All names of a module under one, or some of them in braces. -/
def importClause : Parse (List ImportItem) := do
  if ← eat? "*" then
    expectWord "as"
    return [.all (← identifier)]
  else
    expect "\x7b"
    let items ← commaItems "\x7d" importNamed
    expect "\x7d"
    return items

/-- An `import` statement. -/
def importStatement : Parse Stmt := do
  expectWord "import"
  match ← current with
  | .string value _ =>
    advance
    endStatement
    return .import none value
  | _ =>
    let first ← (do
      match ← identifier? with
      | some name =>
        advance
        return some (.default name)
      | none => return none : Parse (Option ImportItem))
    let others ← (do
      match first with
      | some _ => if ← eat? "," then importClause else return []
      | none => importClause : Parse (List ImportItem))
    let source ← fromSource
    endStatement
    return .import (some (first.toList ++ others)) source

/-- An export in braces. -/
def exportItem : Parse (ExportName × ExportName) := do
  let name ← moduleName
  if ← eatWord? "as" then return (name, ← moduleName) else return (name, name)

/-- The exports in braces, and the module they come from. Without one they are identifiers. -/
def exportNamed : Parse Stmt := do
  expect "\x7b"
  let items ← commaItems "\x7d" exportItem
  expect "\x7d"
  let source ← (do
    if ← atWord? "from" then return some (← fromSource) else return none :
    Parse (Option String))
  endStatement
  let s ← read
  faultIf (source.isNone && items.any fun (name, _) => name.quoted || !isIdentifierIn s name.name)
  return .exportNamed items source

/-- What follows `export *`. -/
def exportAllRest : Parse Stmt := do
  let name ← (do
    if ← eatWord? "as" then return some (← moduleName) else return none :
    Parse (Option ExportName))
  let source ← fromSource
  endStatement
  return .exportAll name source

/-- What follows `export default`. Decorators may stand before `export` or here. -/
def exportDefaultRest (g : Grammar) (ds : List Expr) : Parse Stmt := do
  if ← atAsyncFunction then
    advance
    return .exportDefaultFunction (← functionFrom g true false true)
  match ← current with
  | .word "function" false => return .exportDefaultFunction (← functionFrom g false false true)
  | .word "class" false => return .exportDefaultClass (← classFrom g ds false)
  | .punct "@" =>
    let more ← decorators g
    return .exportDefaultClass (← classFrom g (ds ++ more) false)
  | _ =>
    let e ← g.assign
    endStatement
    return .exportDefault e

/-- The class after `export` and decorators. -/
def exportClass (g : Grammar) (ds : List Expr) : Parse Stmt := do
  let more ← decorators g
  return .exportDecl (.classDecl (← classFrom g (ds ++ more) true))

/-- An `export` statement, with the decorators before it. -/
def exportStatement (g : Grammar) (ds : List Expr) : Parse Stmt := do
  expectWord "export"
  if ← eatWord? "default" then exportDefaultRest g ds
  else if !ds.isEmpty then exportClass g ds
  else if ← eat? "*" then exportAllRest
  else if ← at? "\x7b" then exportNamed
  else
    match ← declaration? g with
    | some d => return .exportDecl d
    | none => unexpected

/-! ## Statements -/

/-- A class with decorators, exported or not. -/
def decorated (g : Grammar) : Parse Stmt := do
  let ds ← decorators g
  if ← atWord? "export" then exportStatement g ds
  else return .classDecl (← classFrom g ds true)

/-- A statement that starts with a word, if the word starts one. -/
def wordStatement? (g : Grammar) (name : String) : Parse (Option Stmt) := do
  match name with
  | "if" => some <$> ifStatement g
  | "for" => some <$> forStatement g
  | "while" => some <$> whileStatement g
  | "do" => some <$> doStatement g
  | "switch" => some <$> switchStatement g
  | "try" => some <$> tryStatement g
  | "return" => some <$> returnStatement g
  | "throw" => some <$> throwStatement g
  | "break" =>
    advance
    return some (.break (← jumpLabel))
  | "continue" =>
    advance
    return some (.continue (← jumpLabel))
  | "debugger" =>
    advance
    endStatement
    return some .debugger
  | "export" => some <$> exportStatement g []
  | "import" =>
    match (← peek).1 with
    | .punct "(" | .punct "." => return none
    | _ => some <$> importStatement
  | _ => return none

/-- A statement. Declarations may stand only in lists of statements. -/
def statement (g : Grammar) (inList : Bool) : Parse Stmt := do
  match ← current with
  | .punct "\x7b" => return .block (← block g)
  | .punct ";" =>
    advance
    return .empty
  | .punct "@" => decorated g
  | token =>
    if let some d ← declaration? g then
      let hoisted := match d with
        | .varDecl .var _ => true
        | _ => false
      faultIf (!inList && !hoisted)
      return d
    let found ← (match token with
      | .word name false => wordStatement? g name
      | _ => return none : Parse (Option Stmt))
    match found with
    | some s => return s
    | none => expressionStatement g

end JsxDialect.Parse
