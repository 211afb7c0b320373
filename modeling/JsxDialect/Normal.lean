import JsxDialect.Parse.Module
import JsxDialect.Print.Tree
import JsxDialect.Text.Blank

/-!
# Normal forms of texts

Two texts that differ only in formatting, in parentheses that change nothing and in the indentation
of markup have the same normal form. It is the text printed again, where text in markup is a string
without superfluous white space, and text of white space alone is left out.
-/

namespace JsxDialect

namespace Normal

/-- The children that a text in markup becomes. -/
def textChild (value : String) : List Child :=
  match Text.words value.toList with
  | [] => []
  | words => [.container (some (.string .none (String.ofList ([' '].intercalate words))))]

mutual

/-- An expression. -/
def expr : Expr → Expr
  | .template s qs es => .template s qs (exprs es)
  | .tagged s t qs es => .tagged s (expr t) qs (exprs es)
  | .spread e => .spread (expr e)
  | .array s es => .array s (exprs es)
  | .object s ps => .object s (properties ps)
  | .function s f => .function s (func f)
  | .arrow s f => .arrow s (func f)
  | .classExpr s c => .classExpr s (cls c)
  | .unary s op e => .unary s op (expr e)
  | .update s op before e => .update s op before (expr e)
  | .binary s op l r => .binary s op (expr l) (expr r)
  | .privateIn s n r => .privateIn s n (expr r)
  | .logical s op l r => .logical s op (expr l) (expr r)
  | .assign s op l r => .assign s op (pattern l) (expr r)
  | .conditional s t c e => .conditional s (expr t) (expr c) (expr e)
  | .call s c as optional => .call s (expr c) (exprs as) optional
  | .new s c as => .new s (expr c) (exprs as)
  | .member s o n optional => .member s (expr o) n optional
  | .privateMember s o n optional => .privateMember s (expr o) n optional
  | .index s o k optional => .index s (expr o) (expr k) optional
  | .chain s e => .chain s (expr e)
  | .sequence s es => .sequence s (exprs es)
  | .paren s e => .paren s (expr e)
  | .yield s delegate e => .yield s delegate (optExpr e)
  | .await s e => .await s (expr e)
  | .importCall s as => .importCall s (exprs as)
  | .typed s test e t => .typed s test (expr e) t
  | .nonNull s e => .nonNull s (expr e)
  | .element e => .element (element e)
  | .fragment s cs => .fragment s (children cs)
  | .ident s n => .ident s n
  | .alias s n shown => .alias s n shown
  | .number s v => .number s v
  | .string s v => .string s v
  | .bigint s v => .bigint s v
  | .regex s v => .regex s v
  | .bool s v => .bool s v
  | .null s => .null s
  | .this s => .this s
  | .super s => .super s
  | .metaProperty s o p => .metaProperty s o p
  | .hole => .hole

/-- Expressions. -/
def exprs : List Expr → List Expr
  | [] => []
  | e :: es => expr e :: exprs es

/-- An expression that may be missing. -/
def optExpr : Option Expr → Option Expr
  | none => none
  | some e => some (expr e)

/-- The key of a member. -/
def key : Key → Key
  | .computed e => .computed (expr e)
  | .ident n => .ident n
  | .string v => .string v
  | .number v => .number v
  | .bigint v => .bigint v
  | .privateName n => .privateName n

/-- Members of an object literal. -/
def properties : List Property → List Property
  | [] => []
  | .field k v shorthand :: ps => .field (key k) (expr v) shorthand :: properties ps
  | .method kind k f :: ps => .method kind (key k) (func f) :: properties ps
  | .spread e :: ps => .spread (expr e) :: properties ps

/-- A callable. -/
def func : Func → Func
  | .mk name isAsync isGenerator thisParam span ps rest returnType b =>
    .mk name isAsync isGenerator thisParam span (params ps) (optPattern rest) returnType (body b)

/-- The body of a callable. -/
def body : Body → Body
  | .absent => .absent
  | .expr e => .expr (expr e)
  | .block directives ss => .block directives (stmts ss)

/-- Parameters. -/
def params : List Param → List Param
  | [] => []
  | .mk ds p :: ps => .mk (exprs ds) (pattern p) :: params ps

/-- A pattern. -/
def pattern : Pattern → Pattern
  | .bind n => .bind n
  | .target e => .target (expr e)
  | .hole => .hole
  | .object ps rest => .object (patternProperties ps) (optPattern rest)
  | .array ps rest => .array (patterns ps) (optPattern rest)
  | .withDefault p e => .withDefault (pattern p) (expr e)
  | .typed p optional t => .typed (pattern p) optional t

/-- Patterns. -/
def patterns : List Pattern → List Pattern
  | [] => []
  | p :: ps => pattern p :: patterns ps

/-- A pattern that may be missing. -/
def optPattern : Option Pattern → Option Pattern
  | none => none
  | some p => some (pattern p)

/-- Members of an object pattern. -/
def patternProperties : List PatternProperty → List PatternProperty
  | [] => []
  | .mk k p shorthand :: ps => .mk (key k) (pattern p) shorthand :: patternProperties ps

/-- A statement. -/
def stmt : Stmt → Stmt
  | .expr e => .expr (expr e)
  | .varDecl kind ds => .varDecl kind (declarators ds)
  | .function f => .function (func f)
  | .classDecl c => .classDecl (cls c)
  | .return e => .return (optExpr e)
  | .throw e => .throw (expr e)
  | .if t c e => .if (expr t) (stmt c) (optStmt e)
  | .for init t u b => .for (forHead init) (optExpr t) (optExpr u) (stmt b)
  | .forIn left r b => .forIn (forHead left) (expr r) (stmt b)
  | .forOf isAwait left r b => .forOf isAwait (forHead left) (expr r) (stmt b)
  | .while t b => .while (expr t) (stmt b)
  | .doWhile b t => .doWhile (stmt b) (expr t)
  | .block ss => .block (stmts ss)
  | .switch d cases => .switch (expr d) (switchCases cases)
  | .try b handler finalizer => .try (stmts b) (optCatch handler) (optStmts finalizer)
  | .break label => .break label
  | .continue label => .continue label
  | .labeled label b => .labeled label (stmt b)
  | .empty => .empty
  | .debugger => .debugger
  | .import items source => .import items source
  | .exportNamed items source => .exportNamed items source
  | .exportAll name source => .exportAll name source
  | .exportDecl d => .exportDecl (stmt d)
  | .exportDefaultFunction f => .exportDefaultFunction (func f)
  | .exportDefaultClass c => .exportDefaultClass (cls c)
  | .exportDefault e => .exportDefault (expr e)

/-- Statements. -/
def stmts : List Stmt → List Stmt
  | [] => []
  | s :: ss => stmt s :: stmts ss

/-- A statement that may be missing. -/
def optStmt : Option Stmt → Option Stmt
  | none => none
  | some s => some (stmt s)

/-- Statements that may be missing. -/
def optStmts : Option (List Stmt) → Option (List Stmt)
  | none => none
  | some ss => some (stmts ss)

/-- A handler. -/
def optCatch : Option Catch → Option Catch
  | none => none
  | some (.mk param ss) => some (.mk (optPattern param) (stmts ss))

/-- The variables of a declaration. -/
def declarators : List Declarator → List Declarator
  | [] => []
  | .mk p e :: ds => .mk (pattern p) (optExpr e) :: declarators ds

/-- The start of the head of a loop. -/
def forHead : ForHead → ForHead
  | .absent => .absent
  | .decl kind ds => .decl kind (declarators ds)
  | .expr e => .expr (expr e)
  | .target p => .target (pattern p)

/-- The cases of a `switch`. -/
def switchCases : List SwitchCase → List SwitchCase
  | [] => []
  | .mk t ss :: cases => .mk (optExpr t) (stmts ss) :: switchCases cases

/-- A class. -/
def cls : Class → Class
  | .mk name ds superClass ms => .mk name (exprs ds) (optExpr superClass) (members ms)

/-- Members of a class. -/
def members : List Member → List Member
  | [] => []
  | .method ds isStatic kind k f :: ms =>
    .method (exprs ds) isStatic kind (key k) (func f) :: members ms
  | .field ds isStatic k optional t value :: ms =>
    .field (exprs ds) isStatic (key k) optional t (optExpr value) :: members ms
  | .staticBlock ss :: ms => .staticBlock (stmts ss) :: members ms

/-- An element. -/
def element : Element → Element
  | .mk span openSpan name as cs closed =>
    .mk span openSpan name (attrs as) (children cs) closed

/-- Attributes. -/
def attrs : List Attr → List Attr
  | [] => []
  | .named span name value :: as => .named span name (attrValue value) :: attrs as
  | .spread span e :: as => .spread span (expr e) :: attrs as

/-- The value of an attribute. -/
def attrValue : AttrValue → AttrValue
  | .absent => .absent
  | .string v => .string v
  | .container span e => .container span (optExpr e)
  | .element e => .element (element e)
  | .fragment span cs => .fragment span (children cs)

/-- Children. -/
def children : List Child → List Child
  | [] => []
  | .text value :: cs => textChild value ++ children cs
  | .element e :: cs => .element (element e) :: children cs
  | .fragment span inner :: cs => .fragment span (children inner) :: children cs
  | .container e :: cs => .container (optExpr e) :: children cs
  | .spread e :: cs => .spread (expr e) :: children cs

end

end Normal

/-- The normal form of a text, if it is a module. -/
def normalize? (text : String) : Option String :=
  (readModule? { keepParens := false } text.toList).map fun m =>
    Module.text { m with stmts := Normal.stmts m.stmts }

end JsxDialect
