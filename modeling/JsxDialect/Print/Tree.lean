import JsxDialect.Print.Literal

/-!
# Writing modules

The text of a tree. Parentheses of the source are dropped and those that the tree needs are
written; long arrays and objects are spread over lines; every statement takes lines of its own.
`Module.text` is the text of a whole module.
-/

namespace JsxDialect.Print

/-! ## What is written depends on the shape of a part -/

/-- The expression without source parentheses around it. -/
def bare : Expr → Expr
  | .paren _ e => bare e
  | e => e

/-- Whether an expression is an integer literal that would swallow a point after it. -/
def swallowsPoint (e : Expr) : Bool :=
  match bare e with
  | .number _ x => endsOpen x
  | _ => false

/-- Whether an operand of `??` is joined by another logical operator. -/
def isOrAnd (e : Expr) : Bool :=
  match bare e with
  | .logical _ .or .. | .logical _ .and .. => true
  | _ => false

/-- Whether the left operand of a power needs parentheses of its own. -/
def isUnaryOrNumber (e : Expr) : Bool :=
  match bare e with
  | .unary .. | .number .. => true
  | _ => false

/-- Whether source parentheses stand around an expression. -/
def isParen : Expr → Bool
  | .paren .. => true
  | _ => false

/-- Whether a decorator can be written without parentheses: a name, a member of one or a call of
these. -/
def isPlainDecorator : Expr → Bool
  | .ident .. | .alias .. | .member .. | .privateMember .. => true
  | .call _ callee _ _ => isPlainDecorator callee
  | _ => false

/-- Whether a member of an object can be written as its name alone. -/
def isShorthand (k : Key) (value : Expr) (written : Bool) : Bool :=
  match k, bare value with
  | .ident "__proto__", _ => written
  | .ident n, .ident _ m => n == m
  | _, _ => false

/-- Whether a member of a binding pattern can be written as its name alone. -/
def isBindingShorthand (k : Key) (value : Pattern) : Bool :=
  match k, value with
  | .ident n, .bind m => n == m
  | .ident n, .withDefault (.bind m) _ => n == m
  | _, _ => false

/-- Whether an object pattern is the target of an assignment. -/
def isObjectPattern : Pattern → Bool
  | .object .. => true
  | _ => false

/-- Whether the name of a member of an object is written in brackets though it is not computed. -/
def isInfinite : Key → Bool
  | .number .infinite => true
  | _ => false

/-- Whether a statement ends in an `if` without `else`, so that an `else` after it would go to the
wrong one. -/
def endsInIf : Stmt → Bool
  | .if _ _ none => true
  | .if _ _ (some s) => endsInIf s
  | .for _ _ _ body => endsInIf body
  | .forIn _ _ body => endsInIf body
  | .forOf _ _ _ body => endsInIf body
  | .while _ body => endsInIf body
  | .labeled _ body => endsInIf body
  | _ => false

/-- Where a statement begins: on a line of its own, or after what it is the body of. -/
inductive Begin where
  | line | sameLine
deriving DecidableEq

/-- What stands before a statement. -/
def Begin.text (b : Begin) (indent : Nat) : String :=
  match b with
  | .line => tabs indent
  | .sameLine => " "

/-- Items one below the other in brackets, or in one line with `gap` inside the brackets. -/
def bracketed (opening closing gap : String) (indent : Nat) (lines : Bool) (items : List String) :
    String :=
  if items.isEmpty then opening ++ closing
  else if lines then
    opening ++ "\n" ++ ",\n".intercalate (items.map (tabs (indent + 1) ++ ·)) ++ "\n"
      ++ tabs indent ++ closing
  else opening ++ gap ++ commas items ++ gap ++ closing

/-- What ends the items of an array before its bracket: a comma after a hole. -/
def afterHole : List Expr → String
  | [] => ""
  | [.hole] => ","
  | _ :: es => afterHole es

/-- What ends the elements of an array pattern before its rest or bracket. -/
def afterElements (ps : List Pattern) (hasRest : Bool) : String :=
  match ps.getLast? with
  | none => ""
  | some .hole => ","
  | some _ => if hasRest then "," else ""

/-- A declared `this` parameter. -/
def thisParamText : Option ThisParam → List String
  | some p => ["this" ++ annotation p.type]
  | none => []

/-- The word before a method. -/
def methodWord : MethodKind → String
  | .getter => "get "
  | .setter => "set "
  | _ => ""

/-- The pieces of a template with the texts of the expressions between them. -/
def templateText : List String → List String → String
  | e :: es, q :: qs => q ++ "$\x7b" ++ e ++ "\x7d" ++ templateText es qs
  | _, qs => String.join qs

mutual

/-- The text of an expression at a place. -/
def exprText (p : Place) : Expr → String
  | .ident _ n => n
  | .alias _ _ shown => shown
  | .number _ x => numberText x
  | .string _ s => stringText s
  | .bigint _ raw => raw
  | .regex _ raw => raw
  | .bool _ b => if b then "true" else "false"
  | .null _ => "null"
  | .this _ => "this"
  | .super _ => "super"
  | .metaProperty _ o n => o ++ "." ++ n
  | .template _ quasis exprs =>
    "\x60" ++ templateText (exprTexts (p.alone .lowest) exprs) quasis ++ "\x60"
  | .tagged _ tag quasis exprs =>
    exprText { p.alone .update with lead := p.lead } tag
      ++ "\x60" ++ templateText (exprTexts (p.alone .lowest) exprs) quasis ++ "\x60"
  | .hole => ""
  | .spread e => "..." ++ exprText (p.alone .comma) e
  | .array _ es =>
    let lines := 2 < es.length
    let indent := if lines then p.indent + 1 else p.indent
    let items := exprTexts (.plain indent .comma) es
    let last := afterHole es
    bracketed "[" "]" "" p.indent lines
      (items.dropLast ++ (items.getLast?.map (· ++ last)).toList)
  | .object _ ps =>
    let lines := 1 < ps.length
    let indent := if lines then p.indent + 1 else p.indent
    parens (p.lead == .statement || p.lead == .arrowBody)
      (bracketed "\x7b" "\x7d" " " p.indent lines (propertyTexts indent ps))
  | .function _ f =>
    parens (p.lead == .statement || p.lead == .defaultExport) (functionText p.indent f)
  | .arrow _ f => parens (p.level.reaches .assign) (arrowText p.indent f)
  | .classExpr _ c =>
    parens (p.lead == .statement || p.lead == .defaultExport) (classText p.indent c)
  | .unary _ op e =>
    let wrapped := p.level.reaches .unary
    let operand := exprText ((p.inParens wrapped).later .power) e
    let sign := unaryText op
    let gap :=
      if (sign == "+" || sign == "-") && operand.startsWith sign then " " else ""
    parens wrapped (sign ++ gap ++ operand)
  | .update _ op before e =>
    if before then
      let wrapped := p.level.reaches .unary
      let operand := exprText ((p.inParens wrapped).later .unary) e
      parens wrapped (updateText op ++ operand)
    else
      let wrapped := p.level.reaches .update
      parens wrapped (exprText ((p.inParens wrapped).first .update) e ++ updateText op)
  | .binary _ op l r =>
    let (own, lower) := binaryLevels op
    let wrapped := p.level.reaches own || (op == .isIn && p.noIn)
    let q := { p.inParens wrapped with noIn := p.noIn && !wrapped }
    let left := if op == .power then (if isUnaryOrNumber l then .call else own) else lower
    let right := if op == .power then lower else own
    parens wrapped
      (exprText (q.first left) l ++ " " ++ binaryText op ++ " " ++ exprText (q.later right) r)
  | .privateIn _ name r =>
    let wrapped := p.level.reaches .compare || p.noIn
    parens wrapped ("#" ++ name ++ " in " ++ exprText (p.alone .equals) r)
  | .logical _ op l r =>
    let (own, lower) := logicalLevels op
    let wrapped := p.level.reaches own
    let q := { p.inParens wrapped with noIn := p.noIn && !wrapped }
    let level (e : Expr) := if op == .coalesce && isOrAnd e then .unary else lower
    parens wrapped
      (exprText (q.first (level l)) l ++ " " ++ logicalText op ++ " "
        ++ exprText (q.later (level r)) r)
  | .assign _ op left right =>
    let atStart := p.lead == .statement || p.lead == .arrowBody
    let wrapped := p.level.reaches .assign || (atStart && isObjectPattern left)
    let q := p.inParens wrapped
    parens wrapped
      (targetText (q.first .comma) left ++ " " ++ assignText op ++ " "
        ++ exprText (q.later .comma) right)
  | .conditional _ test consequent alternate =>
    let wrapped := p.level.reaches .conditional
    let q := { p.inParens wrapped with noIn := p.noIn && !wrapped, noCall := false }
    parens wrapped
      (exprText (q.first .conditional) test ++ " ? " ++ exprText (p.alone .yield) consequent
        ++ " : " ++ exprText (q.later .yield) alternate)
  | .call _ callee args optional =>
    let wrapped := p.level.reaches .new || p.noCall
    let q := p.inParens wrapped
    parens wrapped
      (exprText { q.alone .update with lead := q.lead } callee ++ (if optional then "?." else "")
        ++ "(" ++ commas (exprTexts (p.alone .comma) args) ++ ")")
  | .new _ callee args =>
    parens (p.level.reaches .call)
      ("new " ++ exprText { p.alone .new with noCall := true } callee
        ++ "(" ++ commas (exprTexts (p.alone .comma) args) ++ ")")
  | .member _ o n optional =>
    exprText (p.first .update) o
      ++ (if optional then "?." else if swallowsPoint o then " ." else ".") ++ n
  | .privateMember _ o n optional =>
    exprText (p.first .update) o ++ (if optional then "?.#" else ".#") ++ n
  | .index _ o k optional =>
    exprText (p.first .update) o ++ (if optional then "?.[" else "[")
      ++ exprText (p.alone .lowest) k ++ "]"
  | .chain _ e =>
    let wrapped := p.level.reaches .update
    parens wrapped (exprText (p.inParens wrapped) e)
  | .sequence _ es =>
    let wrapped := p.level.reaches .comma
    parens wrapped
      (commas (sequenceTexts { (p.inParens wrapped).first .lowest with noCall := false } es))
  | .paren _ e => exprText p e
  | .yield _ delegate none =>
    parens (p.level.reaches .assign) ("yield" ++ (if delegate then "*" else ""))
  | .yield _ delegate (some e) =>
    parens (p.level.reaches .assign)
      ("yield" ++ (if delegate then "*" else "") ++ " " ++ exprText (p.alone .yield) e)
  | .await _ e =>
    let wrapped := p.level.reaches .unary
    parens wrapped ("await " ++ exprText ((p.inParens wrapped).later .power) e)
  | .importCall _ args =>
    parens (p.level.reaches .new || p.noCall)
      ("import(" ++ commas (exprTexts (p.alone .comma) args) ++ ")")
  | .typed _ .asType e t =>
    let wrapped := p.level.reaches .shift
    parens wrapped (exprText ((p.inParens wrapped).first .power) e ++ " as " ++ typeText t)
  | .typed _ .satisfies e t =>
    "(" ++ exprText (p.alone p.level) e ++ " satisfies " ++ typeText t ++ ")"
  | .nonNull _ e =>
    let wrapped := isParen e
    parens wrapped (exprText (p.inParens wrapped) e) ++ "!"
  | .element e => elementText p.indent e
  | .fragment _ children => "<>" ++ String.join (childTexts p.indent children) ++ "</>"

/-- The texts of expressions, each at the same place. -/
def exprTexts (p : Place) : List Expr → List String
  | [] => []
  | e :: es => exprText p e :: exprTexts p es

/-- The texts of expressions separated by commas, of which the first starts the whole. -/
def sequenceTexts (p : Place) : List Expr → List String
  | [] => []
  | e :: es => exprText p e :: exprTexts { p with lead := .none } es

/-- The name of a member. -/
def keyText (indent : Nat) : Key → String
  | .ident n => n
  | .string s => stringText s
  | .number x => numberText x
  | .bigint raw => raw
  | .privateName n => "#" ++ n
  | .computed e => "[" ++ exprText (.plain indent .comma) e ++ "]"

/-- A member of an object. -/
def propertyText (indent : Nat) : Property → String
  | .field k value written =>
    let v := exprText (.plain indent .comma) value
    if isShorthand k value written then v
    else
      let name := keyText indent k
      (if isInfinite k then "[" ++ name ++ "]" else name) ++ ": " ++ v
  | .method kind k f => methodWord kind ++ methodText indent (keyText indent k) f
  | .spread e => "..." ++ exprText (.plain indent .comma) e

/-- The members of an object. -/
def propertyTexts (indent : Nat) : List Property → List String
  | [] => []
  | p :: ps => propertyText indent p :: propertyTexts indent ps

/-- A function with the word for it. -/
def functionText (indent : Nat) : Func → String
  | .mk name isAsync isGenerator thisParam _ params rest type body =>
    (if isAsync then "async " else "") ++ "function" ++ (if isGenerator then "* " else "")
      ++ (match name with
        | some n => if isGenerator then n else " " ++ n
        | none => "")
      ++ "(" ++ commas (thisParamText thisParam ++ paramTexts indent params ++ restText indent rest)
      ++ ")" ++ annotation type ++ bodyText indent body

/-- A method after the words before its name. -/
def methodText (indent : Nat) (name : String) : Func → String
  | .mk _ isAsync isGenerator thisParam _ params rest type body =>
    (if isAsync then "async " else "") ++ (if isGenerator then "*" else "") ++ name
      ++ "(" ++ commas (thisParamText thisParam ++ paramTexts indent params ++ restText indent rest)
      ++ ")" ++ annotation type ++ bodyText indent body

/-- An arrow function. -/
def arrowText (indent : Nat) : Func → String
  | .mk _ isAsync _ _ _ params rest type body =>
    (if isAsync then "async " else "")
      ++ "(" ++ commas (paramTexts indent params ++ restText indent rest)
      ++ ")" ++ annotation type ++ " =>" ++ bodyText indent body

/-- The body of a function with the space before it. -/
def bodyText (indent : Nat) : Body → String
  | .absent => ";"
  | .expr e => " " ++ exprText { Place.plain indent .comma with lead := .arrowBody } e
  | .block directives stmts =>
    " " ++ braces indent
      (directives.map (fun d => tabs (indent + 1) ++ directiveText d ++ ";\n")
        ++ stmtTexts (indent + 1) stmts)

/-- Parameters with their decorators. -/
def paramTexts (indent : Nat) : List Param → List String
  | [] => []
  | .mk decorators pattern :: ps =>
    (String.join (decoratorTexts indent decorators) ++ bindingText indent pattern)
      :: paramTexts indent ps

/-- The rest of the parameters or elements, if there is one. -/
def restText (indent : Nat) : Option Pattern → List String
  | none => []
  | some pattern => ["..." ++ bindingText indent pattern]

/-- Decorators, each followed by a space. -/
def decoratorTexts (indent : Nat) : List Expr → List String
  | [] => []
  | d :: ds =>
    ("@" ++ parens (!isPlainDecorator d) (exprText (.plain indent .lowest) d) ++ " ")
      :: decoratorTexts indent ds

/-- A binding pattern. -/
def bindingText (indent : Nat) : Pattern → String
  | .bind n => n
  | .target e => exprText (.plain indent .comma) e
  | .hole => ""
  | .object properties rest =>
    let items := commas (bindingPropertyTexts indent properties)
    let last := String.join (restText indent rest)
    if properties.isEmpty && rest.isNone then "\x7b\x7d"
    else
      "\x7b " ++ items ++ (if !properties.isEmpty && rest.isSome then "," else "") ++ last
        ++ " \x7d"
  | .array elements rest =>
    "[" ++ commas (bindingTexts indent elements) ++ afterElements elements rest.isSome
      ++ (if rest.isSome then " " else "") ++ String.join (restText indent rest) ++ "]"
  | .withDefault pattern value =>
    bindingText indent pattern ++ " = " ++ exprText (.plain indent .comma) value
  | .typed pattern optional type =>
    bindingText indent pattern ++ (if optional then "?" else "") ++ annotation type

/-- Binding patterns. -/
def bindingTexts (indent : Nat) : List Pattern → List String
  | [] => []
  | p :: ps => bindingText indent p :: bindingTexts indent ps

/-- The members of a binding pattern. -/
def bindingPropertyTexts (indent : Nat) : List PatternProperty → List String
  | [] => []
  | .mk k value _ :: ps =>
    let v := bindingText indent value
    (if isBindingShorthand k value then v else keyText indent k ++ ": " ++ v)
      :: bindingPropertyTexts indent ps

/-- The target of an assignment. -/
def targetText (p : Place) : Pattern → String
  | .target e => exprText p e
  | .bind n => n
  | .hole => ""
  | .object properties rest =>
    "\x7b" ++ commas (targetPropertyTexts p.indent properties)
      ++ (if !properties.isEmpty && rest.isSome then "," else "")
      ++ String.join (targetRestText p.indent rest) ++ "\x7d"
  | .array elements rest =>
    "[" ++ commas (targetTexts p.indent elements) ++ afterElements elements rest.isSome
      ++ String.join (targetRestText p.indent rest) ++ "]"
  | .withDefault pattern value =>
    targetText (p.alone .comma) pattern ++ " = " ++ exprText (p.alone .comma) value
  | .typed pattern _ _ => targetText p pattern

/-- The targets in an array pattern. -/
def targetTexts (indent : Nat) : List Pattern → List String
  | [] => []
  | q :: qs => targetText (.plain indent .comma) q :: targetTexts indent qs

/-- The target of the rest, if there is one. -/
def targetRestText (indent : Nat) : Option Pattern → List String
  | none => []
  | some q => ["..." ++ targetText (.plain indent .comma) q]

/-- The targets in an object pattern. Only names and strings stand without brackets. -/
def targetPropertyTexts (indent : Nat) : List PatternProperty → List String
  | [] => []
  | .mk k value written :: qs =>
    let v := targetText (.plain indent .comma) value
    let name := keyText indent k
    let name := match k with
      | .number _ | .bigint _ => "[" ++ name ++ "]"
      | _ => name
    (if written then v else name ++ ": " ++ v) :: targetPropertyTexts indent qs

/-- The lines of a statement. -/
def stmtText (indent : Nat) (start : Begin) : Stmt → String
  | .expr e =>
    start.text indent ++ exprText { Place.plain indent .lowest with lead := .statement } e
      ++ ";\n"
  | .varDecl kind ds =>
    start.text indent ++ declText kind ++ " "
      ++ commas (declaratorTexts (.plain indent .comma) ds) ++ ";\n"
  | .function f => start.text indent ++ functionText indent f ++ "\n"
  | .classDecl c => start.text indent ++ classText indent c ++ "\n"
  | .return none => start.text indent ++ "return;\n"
  | .return (some e) =>
    start.text indent ++ "return " ++ exprText (.plain indent .lowest) e ++ ";\n"
  | .throw e => start.text indent ++ "throw " ++ exprText (.plain indent .lowest) e ++ ";\n"
  | .if test consequent alternate =>
    let head := start.text indent ++ "if (" ++ exprText (.plain indent .lowest) test ++ ")"
    let other := alternateText indent alternate
    match consequent with
    | .block stmts =>
      head ++ " " ++ braces indent (stmtTexts (indent + 1) stmts)
        ++ (if other.isEmpty then "\n" else " " ++ other)
    | s =>
      if endsInIf consequent then
        head ++ " " ++ braces indent [stmtText (indent + 1) .line s]
          ++ (if other.isEmpty then "\n" else " " ++ other)
      else
        head ++ stmtText indent .sameLine s
          ++ (if other.isEmpty then "" else tabs indent ++ other)
  | .for init test update body =>
    start.text indent ++ "for (" ++ headText indent init ++ ";" ++ partText indent test ++ ";"
      ++ partText indent update ++ ")" ++ stmtText indent .sameLine body
  | .forIn left right body =>
    start.text indent ++ "for (" ++ headText indent left ++ " in "
      ++ exprText (.plain indent .lowest) right ++ ")" ++ stmtText indent .sameLine body
  | .forOf isAwait left right body =>
    start.text indent ++ (if isAwait then "for await (" else "for (") ++ headText indent left
      ++ " of " ++ exprText (.plain indent .comma) right ++ ")" ++ stmtText indent .sameLine body
  | .while test body =>
    start.text indent ++ "while (" ++ exprText (.plain indent .lowest) test ++ ")"
      ++ stmtText indent .sameLine body
  | .doWhile body test =>
    let last := "while (" ++ exprText (.plain indent .lowest) test ++ ");\n"
    match body with
    | .block stmts =>
      start.text indent ++ "do " ++ braces indent (stmtTexts (indent + 1) stmts) ++ " " ++ last
    | s => start.text indent ++ "do\n" ++ stmtText (indent + 1) .line s ++ tabs indent ++ last
  | .block stmts => start.text indent ++ braces indent (stmtTexts (indent + 1) stmts) ++ "\n"
  | .switch discriminant cases =>
    start.text indent ++ "switch (" ++ exprText (.plain indent .lowest) discriminant ++ ") "
      ++ braces indent (caseTexts (indent + 1) cases) ++ "\n"
  | .try block handler finalizer =>
    start.text indent ++ "try " ++ braces indent (stmtTexts (indent + 1) block)
      ++ catchText indent handler ++ finallyText indent finalizer ++ "\n"
  | .break none => start.text indent ++ "break;\n"
  | .break (some label) => start.text indent ++ "break " ++ label ++ ";\n"
  | .continue none => start.text indent ++ "continue;\n"
  | .continue (some label) => start.text indent ++ "continue " ++ label ++ ";\n"
  | .labeled label body => start.text indent ++ label ++ ":" ++ stmtText indent .sameLine body
  | .empty => (if start = .line then tabs indent else "") ++ ";\n"
  | .debugger => start.text indent ++ "debugger;\n"
  | .import none source => start.text indent ++ "import " ++ stringText source ++ ";\n"
  | .import (some items) source =>
    start.text indent ++ "import " ++ importClause items ++ " from " ++ stringText source ++ ";\n"
  | .exportNamed items source =>
    start.text indent ++ "export "
      ++ (if items.isEmpty then "\x7b\x7d" else "\x7b " ++ commas (items.map exportItem) ++ " \x7d")
      ++ (match source with
        | some s => " from " ++ stringText s
        | none => "") ++ ";\n"
  | .exportAll name source =>
    start.text indent ++ "export *"
      ++ (match name with
        | some n => " as " ++ exportName n
        | none => "")
      ++ " from " ++ stringText source ++ ";\n"
  | .exportDecl d => start.text indent ++ "export" ++ stmtText indent .sameLine d
  | .exportDefaultFunction f =>
    start.text indent ++ "export default " ++ functionText indent f ++ "\n"
  | .exportDefaultClass c => start.text indent ++ "export default " ++ classText indent c ++ "\n"
  | .exportDefault e =>
    start.text indent ++ "export default "
      ++ exprText { Place.plain indent .comma with lead := .defaultExport } e ++ ";\n"

/-- The lines of several statements. -/
def stmtTexts (indent : Nat) : List Stmt → List String
  | [] => []
  | s :: ss => stmtText indent .line s :: stmtTexts indent ss

/-- The `else` part of an `if`, if it has one. -/
def alternateText (indent : Nat) : Option Stmt → String
  | none => ""
  | some s => "else" ++ stmtText indent .sameLine s

/-- A part of the head of a loop after a semicolon. -/
def partText (indent : Nat) : Option Expr → String
  | none => ""
  | some e => " " ++ exprText (.plain indent .lowest) e

/-- Variables with their values. -/
def declaratorTexts (p : Place) : List Declarator → List String
  | [] => []
  | .mk pattern init :: ds =>
    (bindingText p.indent pattern ++ initText p init) :: declaratorTexts p ds

/-- The value of a variable, if it has one. -/
def initText (p : Place) : Option Expr → String
  | none => ""
  | some e => " = " ++ exprText p e

/-- The start of the head of a loop, where `in` needs parentheses. -/
def headText (indent : Nat) : ForHead → String
  | .absent => ""
  | .decl kind ds =>
    declText kind ++ " "
      ++ commas (declaratorTexts { Place.plain indent .comma with noIn := true } ds)
  | .expr e => exprText { Place.plain indent .lowest with noIn := true } e
  | .target pattern => targetText (.plain indent .comma) pattern

/-- The cases of a `switch`. A single statement stands on the line of its case. -/
def caseTexts (indent : Nat) : List SwitchCase → List String
  | [] => []
  | .mk test body :: cases =>
    let head := tabs indent ++ caseHead indent test ++ ":"
    let lines := match body with
      | [s] => stmtText indent .sameLine s
      | ss => "\n" ++ String.join (stmtTexts (indent + 1) ss)
    (head ++ lines) :: caseTexts indent cases

/-- The start of a case. -/
def caseHead (indent : Nat) : Option Expr → String
  | none => "default"
  | some e => "case " ++ exprText (.plain indent .lowest) e

/-- The handler of a `try`, if it has one. -/
def catchText (indent : Nat) : Option Catch → String
  | none => ""
  | some (.mk param body) =>
    " catch " ++ catchParam indent param ++ braces indent (stmtTexts (indent + 1) body)

/-- The parameter of a handler, if it has one. -/
def catchParam (indent : Nat) : Option Pattern → String
  | none => ""
  | some pattern => "(" ++ bindingText indent pattern ++ ") "

/-- The finalizer of a `try`, if it has one. -/
def finallyText (indent : Nat) : Option (List Stmt) → String
  | none => ""
  | some body => " finally " ++ braces indent (stmtTexts (indent + 1) body)

/-- A class with its decorators. -/
def classText (indent : Nat) : Class → String
  | .mk name decorators superClass members =>
    String.join (decoratorTexts indent decorators) ++ "class"
      ++ (match name with
        | some n => " " ++ n
        | none => "")
      ++ extendsText indent superClass ++ " " ++ braces indent (memberTexts (indent + 1) members)

/-- What a class extends. -/
def extendsText (indent : Nat) : Option Expr → String
  | none => ""
  | some e => " extends " ++ exprText (.plain indent .update) e

/-- The lines of the members of a class. -/
def memberTexts (indent : Nat) : List Member → List String
  | [] => []
  | .method decorators isStatic kind k f :: ms =>
    (tabs indent ++ String.join (decoratorTexts indent decorators)
      ++ (if isStatic then "static " else "") ++ methodWord kind
      ++ methodText indent (keyText indent k) f ++ "\n")
      :: memberTexts indent ms
  | .field decorators isStatic k optional type value :: ms =>
    (tabs indent ++ String.join (decoratorTexts indent decorators)
      ++ (if isStatic then "static " else "") ++ keyText indent k
      ++ (if optional then "?" else "") ++ annotation type
      ++ initText (.plain indent .comma) value ++ ";\n")
      :: memberTexts indent ms
  | .staticBlock stmts :: ms =>
    (tabs indent ++ "static " ++ braces indent (stmtTexts (indent + 1) stmts) ++ "\n")
      :: memberTexts indent ms

/-- An element. -/
def elementText (indent : Nat) : Element → String
  | .mk _ _ name attrs children closed =>
    "<" ++ name.text ++ String.join (attrTexts indent attrs)
      ++ (if closed then
          ">" ++ String.join (childTexts indent children) ++ "</" ++ name.text ++ ">"
        else " />")

/-- Attributes, each after a space. -/
def attrTexts (indent : Nat) : List Attr → List String
  | [] => []
  | .named _ name value :: as =>
    (" " ++ name.text ++ attrValueText indent value) :: attrTexts indent as
  | .spread _ e :: as =>
    (" \x7b..." ++ exprText (.plain indent .comma) e ++ "\x7d") :: attrTexts indent as

/-- The value of an attribute with the equals sign before it. -/
def attrValueText (indent : Nat) : AttrValue → String
  | .absent => ""
  | .string s => "=" ++ attrString s
  | .container _ none => "=\x7b\x7d"
  | .container _ (some e) => "=\x7b" ++ exprText (.plain indent .lowest) e ++ "\x7d"
  | .element e => "=" ++ elementText indent e
  | .fragment _ children => "=<>" ++ String.join (childTexts indent children) ++ "</>"

/-- The children of an element or fragment. -/
def childTexts (indent : Nat) : List Child → List String
  | [] => []
  | .text s :: cs => s :: childTexts indent cs
  | .element e :: cs => elementText indent e :: childTexts indent cs
  | .fragment _ children :: cs =>
    ("<>" ++ String.join (childTexts indent children) ++ "</>") :: childTexts indent cs
  | .container none :: cs => "\x7b\x7d" :: childTexts indent cs
  | .container (some e) :: cs =>
    ("\x7b" ++ exprText (.plain indent .lowest) e ++ "\x7d") :: childTexts indent cs
  | .spread e :: cs =>
    ("\x7b..." ++ exprText (.plain indent .lowest) e ++ "\x7d") :: childTexts indent cs

end

end JsxDialect.Print

namespace JsxDialect

/-- The text of a module. -/
def Module.text (m : Module) : String :=
  String.join (m.directives.map fun d => Print.directiveText d ++ ";\n")
    ++ String.join (Print.stmtTexts 0 m.stmts)

end JsxDialect
