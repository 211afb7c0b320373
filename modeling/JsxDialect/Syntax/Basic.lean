import JsxDialect.Number.Basic

/-!
# The syntax tree

Modules as the compiler sees them: statements, expressions, binding patterns, classes and the
markup inside expressions. Positions are kept where a diagnostic can point: expressions,
elements, attributes and parameter lists carry the span they were read from, counted in UTF-8
bytes. A node that the compiler makes carries the span of the construct it stands for.

Source parentheses are a node of their own, `Expr.paren`: some rules look through them and some
do not. Patterns serve both as binding patterns, whose leaves are `bind`, and as assignment
targets, whose leaves are `target`.

Of the typed dialect there are annotations (`TypeExpr`), `as` and `satisfies`, `!`, optional and
`this` parameters, and methods without a body. Its own declarations (`enum`, `namespace`,
`import x = …`, `interface`, `type`, and whatever `declare` announces) and `using` declarations have
no node here, and a text that has one is not read. So a statement about all modules, all
declarations or all bound names says nothing about those.
-/

namespace JsxDialect

/-- The text from byte `start` up to byte `stop`. -/
structure Span where
  start : Nat
  stop : Nat
deriving Repr, DecidableEq, Inhabited

/-- The span of code that stands for nothing in the source. -/
def Span.none : Span := ⟨0, 0⟩

/-- Prefix operators other than the update operators. -/
inductive UnaryOp where
  | not | bitNot | plus | minus | typeof | void | delete
deriving Repr, DecidableEq, Inhabited

/-- `++` and `--`. -/
inductive UpdateOp where
  | increment | decrement
deriving Repr, DecidableEq, Inhabited

/-- Infix operators that evaluate both operands. -/
inductive BinaryOp where
  | equal | notEqual | strictEqual | strictNotEqual
  | less | lessEqual | greater | greaterEqual
  | shiftLeft | shiftRight | shiftRightZero
  | add | subtract | multiply | divide | remainder | power
  | bitOr | bitXor | bitAnd
  | isIn | instanceOf
deriving Repr, DecidableEq, Inhabited

/-- Infix operators that may leave their right operand unevaluated. -/
inductive LogicalOp where
  | or | and | coalesce
deriving Repr, DecidableEq, Inhabited

/-- What an assignment does with the old value: nothing, or one of the infix operators. -/
inductive AssignOp where
  | set
  | binary (op : BinaryOp)
  | logical (op : LogicalOp)
deriving Repr, DecidableEq, Inhabited

/-- The kinds of variable declaration. -/
inductive DeclKind where
  | var | let | const
deriving Repr, DecidableEq, Inhabited

/-- What an object member or a class member written like a function is. -/
inductive MethodKind where
  | method | getter | setter | constructor
deriving Repr, DecidableEq, Inhabited

/-- The two infix type operators on expressions. -/
inductive TypeTest where
  | asType | satisfies
deriving Repr, DecidableEq, Inhabited

/-- Types in annotations. A reference has a path of members and type arguments. -/
inductive TypeExpr where
  | keyword (text : String)
  | string (value : String)
  | number (value : Number)
  | reference (name : String) (path : List String) (arguments : List TypeExpr)
  | array (item : TypeExpr)
  | union (members : List TypeExpr)
  | intersection (members : List TypeExpr)
deriving Repr, Inhabited

/-- A declared `this` parameter, which only has a type. -/
structure ThisParam where
  type : Option TypeExpr
deriving Repr, Inhabited

/-- The name of an element: an identifier in scope, a plain tag, `this`, a name in a namespace,
or a path of members that starts at an identifier or at `this`. -/
inductive ElementName where
  | reference (name : String)
  | plain (name : String)
  | this
  | namespaced (space name : String)
  | member (root : String) (path : List String)
deriving Repr, DecidableEq, Inhabited

/-- The name of an attribute. -/
inductive AttrName where
  | plain (name : String)
  | namespaced (space name : String)
deriving Repr, DecidableEq, Inhabited

/-- The name of an element as it is written. -/
def ElementName.text : ElementName → String
  | .reference name => name
  | .plain name => name
  | .this => "this"
  | .namespaced space name => space ++ ":" ++ name
  | .member root path => ".".intercalate (root :: path)

/-- The name of an attribute as it is written. -/
def AttrName.text : AttrName → String
  | .plain name => name
  | .namespaced space name => space ++ ":" ++ name

/-- One binding of an import: what is imported, and its local name. -/
inductive ImportItem where
  | default (name : String)
  | all (name : String)
  | named (exported name : String) (quoted : Bool)
deriving Repr, DecidableEq, Inhabited

/-- The name that an import binds. -/
def ImportItem.localName : ImportItem → String
  | .default n => n
  | .all n => n
  | .named _ n _ => n

/-- A name on either side of an export: an identifier or a quoted string. -/
structure ExportName where
  name : String
  quoted : Bool
deriving Repr, DecidableEq, Inhabited

mutual

/-- Expressions. Array elements and arguments are expressions too, among them `spread` and, in
arrays, `hole`. -/
inductive Expr where
  | ident (span : Span) (name : String)
  /-- A reference to `name` that is written as `shown`. -/
  | alias (span : Span) (name shown : String)
  | number (span : Span) (value : Number)
  | string (span : Span) (value : String)
  | bigint (span : Span) (raw : String)
  | regex (span : Span) (raw : String)
  | bool (span : Span) (value : Bool)
  | null (span : Span)
  | this (span : Span)
  | super (span : Span)
  | metaProperty (span : Span) (object property : String)
  | template (span : Span) (quasis : List String) (exprs : List Expr)
  | tagged (span : Span) (tag : Expr) (quasis : List String) (exprs : List Expr)
  | hole
  | spread (expr : Expr)
  | array (span : Span) (elements : List Expr)
  | object (span : Span) (properties : List Property)
  | function (span : Span) (func : Func)
  | arrow (span : Span) (func : Func)
  | classExpr (span : Span) (cls : Class)
  | unary (span : Span) (op : UnaryOp) (operand : Expr)
  | update (span : Span) (op : UpdateOp) (before : Bool) (operand : Expr)
  | binary (span : Span) (op : BinaryOp) (left right : Expr)
  | privateIn (span : Span) (name : String) (right : Expr)
  | logical (span : Span) (op : LogicalOp) (left right : Expr)
  | assign (span : Span) (op : AssignOp) (left : Pattern) (right : Expr)
  | conditional (span : Span) (test consequent alternate : Expr)
  | call (span : Span) (callee : Expr) (arguments : List Expr) (optional : Bool)
  | new (span : Span) (callee : Expr) (arguments : List Expr)
  | member (span : Span) (object : Expr) (name : String) (optional : Bool)
  | privateMember (span : Span) (object : Expr) (name : String) (optional : Bool)
  | index (span : Span) (object : Expr) (key : Expr) (optional : Bool)
  | chain (span : Span) (expr : Expr)
  | sequence (span : Span) (exprs : List Expr)
  | paren (span : Span) (expr : Expr)
  | yield (span : Span) (delegate : Bool) (expr : Option Expr)
  | await (span : Span) (expr : Expr)
  | importCall (span : Span) (arguments : List Expr)
  | typed (span : Span) (test : TypeTest) (expr : Expr) (type : TypeExpr)
  | nonNull (span : Span) (expr : Expr)
  | element (element : Element)
  | fragment (span : Span) (children : List Child)

/-- Names of members in object literals, classes and patterns. -/
inductive Key where
  | ident (name : String)
  | string (value : String)
  | number (value : Number)
  | bigint (raw : String)
  | privateName (name : String)
  | computed (expr : Expr)

/-- Members of an object literal. A `field` is `shorthand` if it was written as a name alone. -/
inductive Property where
  | field (key : Key) (value : Expr) (shorthand : Bool)
  | method (kind : MethodKind) (key : Key) (func : Func)
  | spread (expr : Expr)

/-- A callable: a function, a method or an arrow function. -/
inductive Func where
  | mk (name : Option String) (isAsync isGenerator : Bool) (thisParam : Option ThisParam)
      (paramSpan : Span) (params : List Param) (rest : Option Pattern)
      (returnType : Option TypeExpr) (body : Body)

/-- The body of a callable: none in a declared overload, an expression in an arrow function, or
directives and statements. -/
inductive Body where
  | absent
  | expr (expr : Expr)
  | block (directives : List String) (stmts : List Stmt)

/-- A parameter with its decorators. -/
inductive Param where
  | mk (decorators : List Expr) (pattern : Pattern)

/-- Binding patterns and assignment targets. -/
inductive Pattern where
  | bind (name : String)
  | target (expr : Expr)
  | hole
  | object (properties : List PatternProperty) (rest : Option Pattern)
  | array (elements : List Pattern) (rest : Option Pattern)
  | withDefault (pattern : Pattern) (value : Expr)
  | typed (pattern : Pattern) (optional : Bool) (type : Option TypeExpr)

/-- A member of an object pattern. -/
inductive PatternProperty where
  | mk (key : Key) (value : Pattern) (shorthand : Bool)

/-- Statements, declarations and module items. -/
inductive Stmt where
  | expr (expr : Expr)
  | varDecl (kind : DeclKind) (declarators : List Declarator)
  | function (func : Func)
  | classDecl (cls : Class)
  | return (expr : Option Expr)
  | throw (expr : Expr)
  | if (test : Expr) (consequent : Stmt) (alternate : Option Stmt)
  | for (init : ForHead) (test update : Option Expr) (body : Stmt)
  | forIn (left : ForHead) (right : Expr) (body : Stmt)
  | forOf (isAwait : Bool) (left : ForHead) (right : Expr) (body : Stmt)
  | while (test : Expr) (body : Stmt)
  | doWhile (body : Stmt) (test : Expr)
  | block (stmts : List Stmt)
  | switch (discriminant : Expr) (cases : List SwitchCase)
  | try (block : List Stmt) (handler : Option Catch) (finalizer : Option (List Stmt))
  | break (label : Option String)
  | continue (label : Option String)
  | labeled (label : String) (body : Stmt)
  | empty
  | debugger
  | import (items : Option (List ImportItem)) (source : String)
  | exportNamed (items : List (ExportName × ExportName)) (source : Option String)
  | exportAll (name : Option ExportName) (source : String)
  | exportDecl (decl : Stmt)
  | exportDefaultFunction (func : Func)
  | exportDefaultClass (cls : Class)
  | exportDefault (expr : Expr)

/-- One variable of a declaration. -/
inductive Declarator where
  | mk (pattern : Pattern) (init : Option Expr)

/-- What stands before the first `;`, `in` or `of` of a loop head. -/
inductive ForHead where
  | absent
  | decl (kind : DeclKind) (declarators : List Declarator)
  | expr (expr : Expr)
  | target (pattern : Pattern)

/-- A `case`, or the `default` of a `switch`. -/
inductive SwitchCase where
  | mk (test : Option Expr) (body : List Stmt)

/-- A `catch` clause. -/
inductive Catch where
  | mk (param : Option Pattern) (body : List Stmt)

/-- A class. -/
inductive Class where
  | mk (name : Option String) (decorators : List Expr) (superClass : Option Expr)
      (members : List Member)

/-- Members of a class. -/
inductive Member where
  | method (decorators : List Expr) (isStatic : Bool) (kind : MethodKind) (key : Key)
      (func : Func)
  | field (decorators : List Expr) (isStatic : Bool) (key : Key) (optional : Bool)
      (type : Option TypeExpr) (value : Option Expr)
  | staticBlock (stmts : List Stmt)

/-- An element, with the span of all of it and of its opening tag. It is `closed` if it has a
closing tag. -/
inductive Element where
  | mk (span openSpan : Span) (name : ElementName) (attrs : List Attr) (children : List Child)
      (closed : Bool)

/-- Attributes of an element. -/
inductive Attr where
  | named (span : Span) (name : AttrName) (value : AttrValue)
  | spread (span : Span) (expr : Expr)

/-- Values of attributes; `absent` for an attribute that is a name alone. Strings are kept as
written, character references included. -/
inductive AttrValue where
  | absent
  | string (value : String)
  | container (span : Span) (expr : Option Expr)
  | element (element : Element)
  | fragment (span : Span) (children : List Child)

/-- Children of elements and fragments. Text is kept as written. -/
inductive Child where
  | text (value : String)
  | element (element : Element)
  | fragment (span : Span) (children : List Child)
  | container (expr : Option Expr)
  | spread (expr : Expr)

end

/-- Expressions include the hole of an array. -/
instance : Inhabited Expr := ⟨.hole⟩

/-- Statements include the empty one. -/
instance : Inhabited Stmt := ⟨.empty⟩

/-- A module: its directives as written between their quotes, and its statements. -/
structure Module where
  directives : List String
  stmts : List Stmt
deriving Inhabited

end JsxDialect
