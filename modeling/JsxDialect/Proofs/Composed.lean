import JsxDialect.Lower.Walk

/-!
# What holds of all steps of a compilation

The rules and the walk are put together from a few kinds of steps: reports, requests for names,
scopes that are opened and closed, and readings of options. A property of steps that holds of these,
and of two steps one after the other if it holds of both, holds of every rule (`Composable`) and of
the walk (`Walkable`). There is one lemma for each function.

The table of automatic imports is read by two functions only, and whether children become render
functions by one; no other reading of options depends on them.
-/

namespace JsxDialect

/-- The options with another table of automatic imports. -/
def Options.withTable (o : Options) (t : List (String × ImportDescriptor)) : Options :=
  { o with autoImport := t }

/-- What few functions read: the table of automatic imports, and whether children become render
functions. -/
structure Options.Variation where
  table : List (String × ImportDescriptor)
  renders : Bool

/-- The options with another variation. -/
def Options.vary (o : Options) (v : Options.Variation) : Options :=
  { o with autoImport := v.table, asAttribute := v.renders }

/-- A property of steps that holds of what the rules are made of. -/
structure Composable (P : (α : Type) → Lower α → Prop) : Prop where
  pure {α : Type} (a : α) : P α (Pure.pure a)
  bind {α β : Type} {act : Lower α} {next : α → Lower β} :
    P α act → (∀ a, P β (next a)) → P β (act >>= next)
  /-- What is decided by an option that does not vary. -/
  option {α : Type} {isOn : Options → Bool} {yes no : Lower α} :
    (∀ o v, isOn (o.vary v) = isOn o) → P α yes → P α no →
      P α (Lower.options >>= fun o => if isOn o then yes else no)
  report (span : Span) (cause : Cause) : P Unit (Lower.report span cause)
  param (hint : String) : P String (Lower.ask (·.paramName hint))
  helper (f : Helper) : P String (Lower.helper f)
  throttleKey : P String (Lower.ask Header.throttleKey)
  descriptor (d : ImportDescriptor) : P String (Lower.ask (·.addDescriptor d))
  inComponent : P Bool Lower.inComponent
  /-- The classes around the current place. -/
  classes (f : List ClassFrame → List ClassFrame) :
    P Unit (modify fun s => { s with classes := f s.classes })
  importName (name : ElementName) : P ElementName (ElementRule.importName name)
  planDecorators (inherited : ComponentClass.Inherited) (ds : List Expr) :
    P _ (ComponentClass.planDecorators inherited ds)

namespace Composable

variable {P : (α : Type) → Lower α → Prop} (h : Composable P)

include h

/-- What is made of the result of a step. -/
protected theorem map {α β : Type} {act : Lower α} {k : α → β} (hact : P α act) :
    P β (act >>= fun a => Pure.pure (k a)) :=
  h.bind hact fun _ => h.pure _

/-- Reports at several places. -/
theorem reportAll (cause : Cause) (spans : List Span) : P Unit (Lower.reportAll cause spans) := by
  induction spans with
  | nil => exact h.pure _
  | cons span spans ih => exact h.bind (h.report span cause) fun _ => ih

/-! ## Attributes -/

/-- The rule for styles asks for its helper at most. -/
theorem styleAttrs (span : Span) (as : List Attr) : P _ (Style.lowerAttrs span as) := by
  have hmerged : ∀ sp items, P _ (Style.mergedValue sp items) := by
    intro sp items
    unfold Style.mergedValue
    split
    · exact h.pure _
    · exact h.map (h.helper .styles)
  unfold Style.lowerAttrs
  split
  · exact h.map (hmerged _ _)
  · exact h.pure as

/-- So does the rule for class names. -/
theorem classAttrs (span : Span) (as : List Attr) : P _ (ClassName.lowerAttrs span as) := by
  unfold ClassName.lowerAttrs
  split
  · exact h.map (h.helper .classes)
  · exact h.pure as

/-- The rule for references reports, or asks for the name of a parameter. -/
theorem refAttrs (as : List Attr) : P _ (Reference.lowerAttrs as) := by
  unfold Reference.lowerAttrs
  split
  · exact h.map (h.report _ _)
  · split
    · exact h.map (h.param "el")
    · exact h.pure as
  · exact h.pure as

/-- A binding whose handler is there already may be reported. -/
theorem addHandler (d : Bind.Directive) (span : Span) (param : String) (assignment : Expr)
    (as : List Attr) : P _ (Bind.addHandler d span param assignment as) := by
  unfold Bind.addHandler
  split
  · dsimp only
    split
    · exact h.map (h.report _ _)
    · exact h.pure _
  · exact h.pure _

/-- One binding: what is bound to is looked at first, then a parameter is asked for. -/
theorem expand (d : Bind.Directive) (as : List Attr) : P _ (Bind.expand d as) := by
  unfold Bind.expand
  split
  · exact h.pure as
  · dsimp only
    split
    · exact h.map (h.report _ _)
    · exact h.bind (h.param _) fun _ => h.addHandler _ _ _ _ _
    · exact h.pure _

/-- Bindings are expanded one after the other. -/
theorem expandAll (ds : List Bind.Directive) (as : List Attr) : P _ (Bind.expandAll ds as) := by
  induction ds generalizing as with
  | nil => exact h.pure as
  | cons d ds ih => exact h.bind (h.expand d as) ih

/-- The rule for bindings. -/
theorem bindAttrs (tag : String) (as : List Attr) : P _ (Bind.lowerAttrs tag as) :=
  h.bind (h.expandAll _ as) fun _ => h.expandAll _ _

/-- The rule for controlled inputs. -/
theorem controlledAttrs (tag : String) (as : List Attr) : P _ (Controlled.lowerAttrs tag as) := by
  refine h.bind h.inComponent fun _ => ?_
  split
  · split
    · exact h.bind h.throttleKey fun _ => h.map (h.param "e")
    · exact h.pure as
  · exact h.pure as

/-- A rule for attributes that an option switches on. -/
theorem whenOn {isOn : Options → Bool} {rule : List Attr → Lower (List Attr)}
    (hon : ∀ o v, isOn (o.vary v) = isOn o) (hrule : ∀ as, P _ (rule as)) (as : List Attr) :
    P _ (ElementRule.whenOn isOn rule as) :=
  h.option hon (hrule as) (h.pure as)

/-- **All rules for attributes**, if what keeps values has the property too. -/
theorem lowerAttrs (hlift : ∀ as, P _ (Lift.lowerAttrs as)) (span : Span) (tag : String)
    (as : List Attr) : P _ (ElementRule.lowerAttrs span tag as) := by
  refine h.bind (h.whenOn (fun _ _ => rfl) (h.styleAttrs span) as) fun _ => ?_
  refine h.bind (h.whenOn (fun _ _ => rfl) (h.classAttrs span) _) fun _ => ?_
  refine h.bind (h.whenOn (fun _ _ => rfl) h.refAttrs _) fun _ => ?_
  refine h.bind (h.whenOn (fun _ _ => rfl) (h.bindAttrs tag) _) fun _ => ?_
  refine h.bind (h.whenOn (fun _ _ => rfl) (h.controlledAttrs tag) _) fun _ => ?_
  exact h.whenOn (fun _ _ => rfl) hlift _

/-! ## Control flow -/

/-- An attribute that an element must have is reported if it is missing. -/
theorem required (tag name : String) (e : Element) : P _ (ControlFlow.required tag name e) := by
  unfold ControlFlow.required
  split
  · exact h.pure _
  · exact h.map (h.report _ _)

/-- The names that a value binds; what binds no name is reported. -/
theorem binderParams (span : Span) (value : AttrValue) :
    P _ (ControlFlow.binderParams span value) := by
  unfold ControlFlow.binderParams
  split
  · exact h.map (h.report _ _)
  · exact h.map (h.reportAll _ _)

/-- The branches of an `if`. -/
theorem lowerBranches (es : List Element) : P _ (ControlFlow.lowerBranches es) := by
  induction es with
  | nil => exact h.pure _
  | cons e es ih =>
    unfold ControlFlow.lowerBranches
    split
    · exact h.map ih
    · exact h.bind (h.required _ _ e) fun _ => h.map ih

/-- A whole chain of branches. -/
theorem lowerIf (head : Element) (rest : List Element) : P _ (ControlFlow.lowerIf head rest) :=
  h.map (h.lowerBranches (head :: rest))

/-- The arms of a `switch`: a case without a value is reported. -/
theorem lowerArms (cs : List Child) : P _ (ControlFlow.lowerArms cs) := by
  induction cs with
  | nil => exact h.pure _
  | cons child cs ih =>
    cases child with
    | element arm =>
      unfold ControlFlow.lowerArms
      split
      · exact h.bind (h.required _ _ arm) fun _ => h.map ih
      · exact h.map ih
      · exact h.pure _
    | text _ | fragment _ _ | container _ | spread _ => exact ih

/-- A `switch` element. -/
theorem lowerSwitch (e : Element) : P _ (ControlFlow.lowerSwitch e) :=
  h.bind (h.required _ _ e) fun _ => h.map (h.lowerArms _)

/-- The names in the `for` of a `repeat`. -/
theorem repeatParams (es : List Expr) : P _ (ControlFlow.repeatParams es) := by
  induction es with
  | nil => exact h.pure _
  | cons e es ih =>
    unfold ControlFlow.repeatParams
    split
    · exact h.map ih
    · exact h.bind (h.report _ _) fun _ => ih

/-- The collection of a `repeat` and the names for its items. -/
theorem repeatHead (e : Element) : P _ (ControlFlow.repeatHead e) := by
  unfold ControlFlow.repeatHead
  split
  · split
    · exact h.map (h.repeatParams _)
    · exact h.map (h.report _ _)
  · refine h.bind ?_ fun _ => h.map (h.required _ _ e)
    split
    · exact h.binderParams _ _
    · exact h.map (h.report _ _)

/-- A `repeat` without names for its item or its index asks for them. -/
theorem withIndex (params : List String) : P _ (ControlFlow.withIndex params) := by
  unfold ControlFlow.withIndex
  split
  · exact h.pure _
  · exact h.map (h.param "index")
  · exact h.bind (h.param "item") fun _ => h.map (h.param "index")

/-- A `repeat` element. -/
theorem lowerRepeat (e : Element) : P _ (ControlFlow.lowerRepeat e) := by
  refine h.bind (h.repeatHead e) fun _ => ?_
  dsimp only
  split
  · exact h.bind (h.withIndex _) fun _ => h.map (h.report _ _)
  · exact h.pure _

/-- A `using` element. -/
theorem lowerUsing (e : Element) : P _ (ControlFlow.lowerUsing e) := by
  refine h.bind (h.required _ _ e) fun _ => h.bind ?_ fun names => ?_
  · split
    · exact h.binderParams _ _
    · exact h.pure _
  · split
    · exact h.map (h.report _ _)
    · exact h.pure _

/-- An element that stands for itself, and not for a chain. -/
theorem lowerAlone (tag : ControlTag) (e : Element) : P _ (ControlFlow.lowerAlone tag e) := by
  cases tag with
  | «if» | «unless» => exact h.lowerIf e []
  | elseIf | «else» | group => exact h.pure _
  | switch => exact h.lowerSwitch e
  | «repeat» => exact h.lowerRepeat e
  | «using» => exact h.lowerUsing e

/-- Children in slots, one after the other. -/
theorem lowerSlots (ss : List ControlFlow.Slot) : P _ (ControlFlow.lowerSlots ss) := by
  induction ss with
  | nil => exact h.pure _
  | cons slot ss ih =>
    cases slot with
    | keep _ => exact h.map ih
    | branch _ _ => exact ih
    | chain head rest => exact h.bind (h.lowerIf head rest) fun _ => h.map ih
    | single tag e => exact h.bind (h.lowerAlone tag e) fun _ => h.map ih

/-- **The rule for children.** -/
theorem lowerChildren (cs : List Child) : P _ (ControlFlow.lowerChildren cs) :=
  h.option (fun _ _ => rfl) (h.lowerSlots _) (h.pure cs)

/-- An element as an expression. -/
theorem lowerExpr (e : Element) : P _ (ControlFlow.lowerExpr e) := by
  unfold ControlFlow.lowerExpr
  split
  · exact h.option (fun _ _ => rfl) (h.lowerAlone _ e) (h.pure _)
  · exact h.pure _

/-- An element as the value of an attribute. -/
theorem lowerValue (e : Element) : P _ (ControlFlow.lowerValue e) := by
  unfold ControlFlow.lowerValue
  split
  · exact h.option (fun _ _ => rfl) (h.map (h.lowerAlone _ e)) (h.pure _)
  · exact h.pure _

/-! ## Elements and classes -/

/-- Children that become attributes of their parent. -/
theorem hoist (parent : String) (as : List Attr) (cs : List Child) :
    P _ (NamedChild.hoist parent as cs) := by
  have hvalue : ∀ e, P _ (NamedChild.value e) := by
    intro e
    unfold NamedChild.value
    split
    · exact h.map (h.binderParams _ _)
    · exact h.pure _
  induction cs generalizing as with
  | nil => exact h.pure _
  | cons child cs ih =>
    unfold NamedChild.hoist
    split
    · exact h.bind (hvalue _) fun _ => ih _
    · exact h.map (ih as)

/-- The same, if the option is on. -/
theorem hoistNamed (tag : String) (as : List Attr) (cs : List Child) :
    P _ (ElementRule.hoistNamed tag as cs) :=
  h.option (fun _ _ => rfl) (h.hoist tag as cs) (h.pure _)

/-- Children that become a render function. -/
theorem lowerAs (e : Element) : P _ (ElementRule.lowerAs e) := by
  unfold ElementRule.lowerAs
  split
  · exact h.pure e
  · exact h.map (h.binderParams _ _)

/-- What is found about the constructor of a component. -/
theorem planConstructor (name : Option String) (ms : List Member) :
    P _ (ComponentClass.planConstructor name ms) := by
  unfold ComponentClass.planConstructor
  split
  · exact h.pure _
  · dsimp only
    split
    · exact h.pure _
    · split
      · exact h.map (h.report _ _)
      · exact h.pure _

/-- **Entering a class.** -/
theorem enter (isExpr : Bool) (k : Class) : P _ (ComponentClass.enter isExpr k) := by
  cases k with
  | mk name ds base ms =>
    refine h.bind (h.planDecorators none ds) fun r => h.bind ?_ fun _ => ?_
    · split
      · exact h.map (h.descriptor _)
      · exact h.pure _
    · exact h.bind (h.classes _) fun _ => h.option (fun _ _ => rfl)
        (h.map (h.planConstructor _ _)) (h.pure _)

/-- Leaving it. -/
theorem leave : P _ ComponentClass.leave :=
  h.classes List.tail

end Composable

/-- A property of steps that holds of what the walk is made of. -/
structure Walkable (P : (α : Type) → Lower α → Prop) : Prop extends Composable P where
  openScope (kind : ScopeKind) (names : List String) : P Unit (Lower.openScope kind names)
  closeScope : P Unit Lower.closeScope
  closeFunction : P (List Stmt) Lower.closeFunction
  liftAttrs (as : List Attr) : P (List Attr) (Lift.lowerAttrs as)
  /-- What is decided by whether children become render functions. -/
  renders {α : Type} {isOn : Options → Bool} {yes no : Lower α} :
    (∀ o t, isOn (o.withTable t) = isOn o) → P α yes → P α no →
      P α (Lower.options >>= fun o => if isOn o then yes else no)

namespace Walkable

variable {P : (α : Type) → Lower α → Prop} (h : Walkable P)

include h

/-- A step in a scope of its own. -/
theorem inside {α : Type} (kind : ScopeKind) (names : List String) {act : Lower α}
    (hact : P α act) : P α (Lower.inside kind names act) :=
  h.bind (h.openScope kind names) fun _ => h.bind hact fun _ =>
    h.bind h.closeScope fun _ => h.pure _

/-- What is made of the results of two steps. -/
theorem map₂ {α β γ : Type} {act : Lower α} {act' : Lower β} {k : α → β → γ} (hact : P α act)
    (hact' : P β act') : P γ (act >>= fun a => act' >>= fun b => Pure.pure (k a b)) :=
  h.bind hact fun _ => h.map hact'

/-- What is made of the results of three steps. -/
theorem map₃ {α β γ δ : Type} {act : Lower α} {act' : Lower β} {act'' : Lower γ}
    {k : α → β → γ → δ} (hact : P α act) (hact' : P β act') (hact'' : P γ act'') :
    P δ (act >>= fun a => act' >>= fun b => act'' >>= fun e => Pure.pure (k a b e)) :=
  h.bind hact fun _ => h.map₂ hact' hact''

/-- **All rules for an element.** -/
theorem lowerElement (e : Element) : P _ (ElementRule.lower e) := by
  cases e with
  | mk span openSpan name as cs closed =>
    -- What comes after the attributes and the name is the same for all tags.
    have hrest : ∀ name' as', P _ (do
        let r ← ElementRule.hoistNamed name.text as' cs
        let cs ← ControlFlow.lowerChildren r.2
        let e := .mk span openSpan name' r.1 cs closed
        if !isDialectTag name.text && (← Lower.options).asAttribute then ElementRule.lowerAs e
        else return e) := fun name' as' =>
      h.bind (h.hoistNamed _ _ _) fun _ => h.bind (h.lowerChildren _) fun _ =>
        h.renders (fun _ _ => rfl) (h.lowerAs _) (h.pure _)
    unfold ElementRule.lower
    cases htag : isDialectTag name.text with
    | false =>
      simp only [htag, Bool.not_false, if_true] at hrest ⊢
      exact h.bind (h.lowerAttrs h.liftAttrs span name.text as) fun as' =>
        h.bind (h.importName name) fun name' => hrest name' as'
    | true =>
      simp only [htag, Bool.not_true, Bool.false_eq_true, if_false, pure_bind] at hrest ⊢
      exact hrest name as

mutual

/-- **The walk through an expression.** The property is passed on from its parts; at an element or a
fragment the rules come after the walk. -/
theorem expr (e : Expr) : P _ (Walk.expr e) := by
  cases e with
  | ident | «alias» | number | string | bigint | regex | bool | null | this | super
  | metaProperty | hole => exact h.pure _
  | template _ _ es | array _ es | sequence _ es | importCall _ es => exact h.map (exprs es)
  | tagged _ e _ es | call _ e es _ | new _ e es => exact h.map₂ (expr e) (exprs es)
  | spread e | unary _ _ e | update _ _ _ e | privateIn _ _ e | member _ e _ _
  | privateMember _ e _ _ | chain _ e | paren _ e | await _ e | typed _ _ e _ | nonNull _ e =>
    exact h.map (expr e)
  | object _ ps => exact h.map (properties ps)
  | function _ f | arrow _ f => exact h.map (func f)
  | classExpr _ k => exact h.map (cls k)
  | binary _ _ l r | logical _ _ l r | index _ l r _ => exact h.map₂ (expr l) (expr r)
  | assign _ _ l r => exact h.map₂ (pattern l) (expr r)
  | conditional _ t e a => exact h.map₃ (expr t) (expr e) (expr a)
  | yield _ _ e => exact h.map (optExpr e)
  | element e => exact h.bind (element e) fun _ => h.lowerExpr _
  | fragment _ cs => exact h.bind (children cs) fun _ => h.map (h.lowerChildren _)

/-- The walk through several expressions. -/
theorem exprs (es : List Expr) : P _ (Walk.exprs es) := by
  cases es with
  | nil => exact h.pure _
  | cons e es => exact h.map₂ (expr e) (exprs es)

/-- The walk through an expression that may be missing. -/
theorem optExpr (e : Option Expr) : P _ (Walk.optExpr e) := by
  cases e with
  | none => exact h.pure _
  | some e => exact h.map (expr e)

/-- The walk through a key. -/
theorem key (k : Key) : P _ (Walk.key k) := by
  cases k with
  | computed e => exact h.map (expr e)
  | ident | string | number | bigint | privateName => exact h.pure _

/-- The walk through a member of an object literal. -/
theorem property (p : Property) : P _ (Walk.property p) := by
  cases p with
  | field k e _ => exact h.map₂ (key k) (expr e)
  | method _ k f => exact h.map₂ (key k) (func f)
  | spread e => exact h.map (expr e)

/-- The walk through the members of an object literal. -/
theorem properties (ps : List Property) : P _ (Walk.properties ps) := by
  cases ps with
  | nil => exact h.pure _
  | cons p ps => exact h.map₂ (property p) (properties ps)

/-- The walk through a function, in its own scope. -/
theorem func {scope : ScopeKind} {seesName givesParams : Bool} (f : Func) :
    P _ (Walk.func scope seesName givesParams f) := by
  cases f with
  | mk _ _ _ _ _ ps rest _ b =>
    refine h.bind (h.openScope _ _) fun _ => h.bind (params ps) fun _ => ?_
    refine h.bind (optPattern rest) fun _ => h.bind (body b) fun _ => ?_
    exact h.map h.closeFunction

/-- The walk through a body, after parameters are given to the base constructor. -/
theorem body {givesParams : Bool} (b : Body) : P _ (Walk.body givesParams b) := by
  cases b with
  | absent => exact h.pure _
  | expr e => exact h.map (expr e)
  | block _ xs =>
    cases givesParams with
    | true => exact h.map (forwarding xs)
    | false => exact h.map (stmts xs)

/-- The walk through the statements of a constructor, where base calls get the parameters. -/
theorem forwarding (xs : List Stmt) : P _ (Walk.forwarding xs) := by
  cases xs with
  | nil => exact h.pure _
  | cons x xs =>
    unfold Walk.forwarding
    split
    · exact h.map (forwarding xs)
    · exact h.map₂ (stmt x) (forwarding xs)

/-- The walk through parameters. -/
theorem params (ps : List Param) : P _ (Walk.params ps) := by
  cases ps with
  | nil => exact h.pure _
  | cons p ps =>
    cases p with
    | mk ds p => exact h.map₂ (h.map₂ (exprs ds) (pattern p)) (params ps)

/-- The walk through a pattern. -/
theorem pattern (p : Pattern) : P _ (Walk.pattern p) := by
  cases p with
  | bind | hole => exact h.pure _
  | target e => exact h.map (expr e)
  | object ps rest => exact h.map₂ (patternProperties ps) (optPattern rest)
  | array ps rest => exact h.map₂ (patterns ps) (optPattern rest)
  | withDefault p e => exact h.map₂ (pattern p) (expr e)
  | typed p _ _ => exact h.map (pattern p)

/-- The walk through several patterns. -/
theorem patterns (ps : List Pattern) : P _ (Walk.patterns ps) := by
  cases ps with
  | nil => exact h.pure _
  | cons p ps => exact h.map₂ (pattern p) (patterns ps)

/-- The walk through a pattern that may be missing. -/
theorem optPattern (p : Option Pattern) : P _ (Walk.optPattern p) := by
  cases p with
  | none => exact h.pure _
  | some p => exact h.map (pattern p)

/-- The walk through the members of an object pattern. -/
theorem patternProperties (ps : List PatternProperty) : P _ (Walk.patternProperties ps) := by
  cases ps with
  | nil => exact h.pure _
  | cons p ps =>
    cases p with
    | mk k p _ => exact h.map₃ (key k) (pattern p) (patternProperties ps)

/-- **The walk through a statement**; some open a scope. -/
theorem stmt (x : Stmt) : P _ (Walk.stmt x) := by
  cases x with
  | «break» | «continue» | empty | debugger | «import» | exportNamed | exportAll => exact h.pure _
  | expr e | «throw» e | exportDefault e => exact h.map (expr e)
  | varDecl _ ds => exact h.map (declarators ds)
  | function f | exportDefaultFunction f => exact h.map (func f)
  | classDecl k | exportDefaultClass k => exact h.map (cls k)
  | «return» e => exact h.map (optExpr e)
  | «if» t x a => exact h.map₃ (expr t) (stmt x) (optStmt a)
  | «for» head t u x =>
    exact h.inside _ _ (h.bind (forHead head) fun _ =>
      h.map₃ (optExpr t) (optExpr u) (stmt x))
  | forIn head e x | forOf _ head e x =>
    exact h.inside _ _ (h.map₃ (forHead head) (expr e) (stmt x))
  | «while» e x => exact h.map₂ (expr e) (stmt x)
  | doWhile x e => exact h.map₂ (stmt x) (expr e)
  | block xs => exact h.map (h.inside _ _ (stmts xs))
  | switch e cases => exact h.inside _ _ (h.map₂ (expr e) (switchCases cases))
  | «try» xs handler finalizer =>
    exact h.map₃ (h.inside _ _ (stmts xs)) (optCatch handler) (optBlock finalizer)
  | labeled _ x | exportDecl x => exact h.map (stmt x)

/-- The walk through several statements. -/
theorem stmts (xs : List Stmt) : P _ (Walk.stmts xs) := by
  cases xs with
  | nil => exact h.pure _
  | cons x xs => exact h.map₂ (stmt x) (stmts xs)

/-- The walk through an `else` part. -/
theorem optStmt (x : Option Stmt) : P _ (Walk.optStmt x) := by
  cases x with
  | none => exact h.pure _
  | some x => exact h.map (stmt x)

/-- The walk through a finalizer, in a scope. -/
theorem optBlock (xs : Option (List Stmt)) : P _ (Walk.optBlock xs) := by
  cases xs with
  | none => exact h.pure _
  | some xs => exact h.map (h.inside _ _ (stmts xs))

/-- The walk through a handler, in a scope that has its parameter. -/
theorem optCatch (handler : Option Catch) : P _ (Walk.optCatch handler) := by
  cases handler with
  | none => exact h.pure _
  | some handler =>
    cases handler with
    | mk param xs =>
      exact h.inside _ _ (h.map₂ (optPattern param) (h.inside _ _ (stmts xs)))

/-- The walk through declared variables. -/
theorem declarators (ds : List Declarator) : P _ (Walk.declarators ds) := by
  cases ds with
  | nil => exact h.pure _
  | cons d ds =>
    cases d with
    | mk p e => exact h.map₃ (pattern p) (optExpr e) (declarators ds)

/-- The walk through the head of a loop. -/
theorem forHead (head : ForHead) : P _ (Walk.forHead head) := by
  cases head with
  | absent => exact h.pure _
  | decl _ ds => exact h.map (declarators ds)
  | expr e => exact h.map (expr e)
  | target p => exact h.map (pattern p)

/-- The walk through the cases of a `switch`. -/
theorem switchCases (cases : List SwitchCase) : P _ (Walk.switchCases cases) := by
  cases cases with
  | nil => exact h.pure _
  | cons x cases =>
    cases x with
    | mk t xs => exact h.map₃ (optExpr t) (stmts xs) (switchCases cases)

/-- The walk through a class, between entering and leaving it. -/
theorem cls {isExpr : Bool} (k : Class) : P _ (Walk.cls isExpr k) := by
  cases k with
  | mk _ ds base ms =>
    refine h.bind (h.enter _ _) fun _ => h.bind (exprs ds) fun _ => ?_
    exact h.bind (optExpr base) fun _ => h.bind (members ms) fun _ => h.map h.leave

/-- The walk through the members of a class. -/
theorem members {givesParams : Bool} (ms : List Member) : P _ (Walk.members givesParams ms) := by
  cases ms with
  | nil => exact h.pure _
  | cons m ms =>
    cases m with
    | method ds _ _ k f =>
      exact h.bind (exprs ds) fun _ => h.map₃ (key k) (func f) (members ms)
    | field ds _ k _ _ e =>
      exact h.bind (exprs ds) fun _ => h.map₃ (key k) (optExpr e) (members ms)
    | staticBlock xs => exact h.map₂ (stmts xs) (members ms)

/-- The walk through an element, before its rules. -/
theorem element (e : Element) : P _ (Walk.element e) := by
  cases e with
  | mk _ _ _ as cs _ =>
    exact h.bind (h.inside _ _ (h.map₂ (attrs as) (children cs))) fun _ => h.lowerElement _

/-- The walk through attributes. -/
theorem attrs (as : List Attr) : P _ (Walk.attrs as) := by
  cases as with
  | nil => exact h.pure _
  | cons a as =>
    cases a with
    | named _ _ value => exact h.map₂ (attrValue value) (attrs as)
    | spread _ e => exact h.map₂ (expr e) (attrs as)

/-- The walk through the value of an attribute. -/
theorem attrValue (value : AttrValue) : P _ (Walk.attrValue value) := by
  cases value with
  | absent | string => exact h.pure _
  | container _ e => exact h.map (optExpr e)
  | element e => exact h.bind (element e) fun _ => h.lowerValue _
  | fragment _ cs => exact h.bind (children cs) fun _ => h.map (h.lowerChildren _)

/-- The walk through children. -/
theorem children (cs : List Child) : P _ (Walk.children cs) := by
  cases cs with
  | nil => exact h.pure _
  | cons x cs => exact h.map₂ (child x) (children cs)

/-- The walk through a child. -/
theorem child (x : Child) : P _ (Walk.child x) := by
  cases x with
  | text => exact h.pure _
  | element e => exact h.map (element e)
  | fragment _ cs => exact h.bind (children cs) fun _ => h.map (h.lowerChildren _)
  | container e => exact h.map (optExpr e)
  | spread e => exact h.map (expr e)

end

end Walkable

end JsxDialect
