import JsxDialect.Parse.Type

/-!
# Reading patterns

Binding patterns are read as such. The target of an assignment is read as an expression first,
and `toTarget` turns the expression into a pattern when the assignment sign comes.
-/

namespace JsxDialect.Parse

/-! ## Binding patterns -/

/-- The name of a member. -/
def key (g : Grammar) : Parse Key := do
  match ← current with
  | .word name _ => advance; return .ident name
  | .string value _ => advance; return .string value
  | .number value => advance; return .number value
  | .bigint raw => advance; return .bigint raw
  | .privateName name => advance; return .privateName name
  | .punct "[" =>
    advance
    let e ← within Setting.bracketed g.assign
    expect "]"
    return .computed e
  | _ => unexpected

/-- The default after an equals sign, if there is one. -/
def initializer? (g : Grammar) : Parse (Option Expr) := do
  if ← eat? "=" then
    return some (← within Setting.bracketed g.assign)
  else
    return none

/-- A pattern with the default that may follow it. -/
def orDefault (p : Pattern) : Option Expr → Pattern
  | some e => .withDefault p e
  | none => p

/-- A binding pattern with its default. -/
def bindingWithDefault (g : Grammar) : Parse Pattern := do
  let p ← g.binding
  return orDefault p (← initializer? g)

/-- The rest of an array or object pattern after its dots; nothing may follow it. -/
def bindingRest (g : Grammar) : Parse Pattern := do
  let p ← g.binding
  if ← at? "," then unexpected
  return p

/-- A member of an object pattern, or its rest. -/
def bindingMember (g : Grammar) : Parse (PatternProperty ⊕ Pattern) := do
  if ← eat? "..." then
    let name ← identifier
    if ← at? "," then unexpected
    return .inr (.bind name)
  let named ← identifier?
  let k ← key g
  if ← eat? ":" then
    return .inl (.mk k (← bindingWithDefault g) false)
  match k, named with
  | .ident name, some _ => return .inl (.mk k (orDefault (.bind name) (← initializer? g)) true)
  | _, _ => unexpected

/-- An element of an array pattern, or its rest. -/
def bindingElement (g : Grammar) : Parse (Pattern ⊕ Pattern) := do
  if ← at? "," then return .inl .hole
  if ← eat? "..." then return .inr (← bindingRest g)
  return .inl (← bindingWithDefault g)

/-- The first alternatives and the last second one of a list. -/
def splitRest {α β : Type} (items : List (α ⊕ β)) : List α × Option β :=
  (items.filterMap fun | .inl a => some a | .inr _ => none,
    items.findSome? fun | .inl _ => none | .inr b => some b)

/-- A binding pattern without a default, with its type. -/
def binding (g : Grammar) : Parse Pattern := do
  let p ← (do
    if ← eat? "\x7b" then
      let (properties, rest) := splitRest (← commaItems "\x7d" (bindingMember g))
      expect "\x7d"
      return .object properties rest
    else if ← eat? "[" then
      let (elements, rest) := splitRest (← commaItems "]" (bindingElement g))
      expect "]"
      return .array elements rest
    else
      return .bind (← identifier) : Parse Pattern)
  if (← read).typed then
    let optional ← eat? "?"
    let type ← annotation? g
    return if optional || type.isSome then .typed p optional type else p
  else
    return p

/-! ## Assignment targets -/

/-- The expression as a target that is no pattern, without parentheses. -/
def simpleTarget? : Expr → Option Expr
  | .paren _ e => simpleTarget? e
  | .typed s t e type =>
    match simpleTarget? e with
    | some _ => some (.typed s t e type)
    | none => none
  | .nonNull s e =>
    match simpleTarget? e with
    | some _ => some (.nonNull s e)
    | none => none
  | .ident s n => some (.ident s n)
  | .member s o n false => some (.member s o n false)
  | .privateMember s o n false => some (.privateMember s o n false)
  | .index s o k false => some (.index s o k false)
  | _ => none

mutual

/-- The expression as an assignment target. -/
def toTarget? : Expr → Option Pattern
  | .array _ elements =>
    match toTargets? elements with
    | some (ps, rest) => some (.array ps rest)
    | none => none
  | .object _ properties =>
    match toTargetProperties? properties with
    | some (ps, rest) => some (.object ps rest)
    | none => none
  | e =>
    match simpleTarget? e with
    | some t => some (.target t)
    | none => none

/-- The elements of an array as those of a pattern, and its rest, which has to be the last. -/
def toTargets? : List Expr → Option (List Pattern × Option Pattern)
  | [] => some ([], none)
  | .hole :: es =>
    match toTargets? es with
    | some (ps, rest) => some (.hole :: ps, rest)
    | none => none
  | [.spread e] =>
    match toTarget? e with
    | some p => some ([], some p)
    | none => none
  | .assign _ .set left right :: es =>
    match toTargets? es with
    | some (ps, rest) => some (.withDefault left right :: ps, rest)
    | none => none
  | e :: es =>
    match toTarget? e, toTargets? es with
    | some p, some (ps, rest) => some (p :: ps, rest)
    | _, _ => none

/-- The members of an object as those of a pattern, and its rest, which has to be the last. -/
def toTargetProperties? : List Property → Option (List PatternProperty × Option Pattern)
  | [] => some ([], none)
  | [.spread e] =>
    match toTarget? e with
    | some p => some ([], some p)
    | none => none
  | .field k (.assign _ .set left right) shorthand :: ps =>
    match toTargetProperties? ps with
    | some (qs, rest) => some (.mk k (.withDefault left right) shorthand :: qs, rest)
    | none => none
  | .field k e shorthand :: ps =>
    match toTarget? e, toTargetProperties? ps with
    | some q, some (qs, rest) => some (.mk k q shorthand :: qs, rest)
    | _, _ => none
  | _ => none

end

/-- The expression that was read from the given place as an assignment target. Members with an
initializer in it are thereby settled. -/
def toTarget (e : Expr) (start : Nat) : Parse Pattern := do
  match toTarget? e with
  | some p =>
    modify fun c => { c with unsettled := c.unsettled.filter (· < start) }
    return p
  | none => unexpected

/-- The expression as the target of an operator that also reads it. -/
def toSimpleTarget (e : Expr) : Parse Expr := do
  match simpleTarget? e with
  | some t => return t
  | none => unexpected

end JsxDialect.Parse
