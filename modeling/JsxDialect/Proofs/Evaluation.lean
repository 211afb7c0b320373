import JsxDialect.Lower.ControlFlow

/-!
# Conditions and choices mean what they say

The meaning of code is given by an evaluation that knows the value of whatever is no control flow,
and that may have any effects. On top of it, `expr` and `stmt` evaluate what conditions and choices
become: conditional expressions, negations, and functions called at once with a `switch` and
`return` in them. Every other expression is recorded in a trace when it is evaluated, so that two
computations are only equal if they evaluate the same expressions in the same order.

The meaning of an `if` with its branches is `chain`, and that of a `switch` is `choice`, both said
of the elements as they are written. What the elements become has the same meaning.
-/

namespace JsxDialect

/-- How a statement ends. -/
inductive Completion (V : Type) where
  | normal
  | break
  | return (value : V)

/-- The value of a call whose body ends like this. -/
def Completion.valueOr {V : Type} (undefined : V) : Completion V → V
  | .return v => v
  | _ => undefined

/-- How a `switch` ends whose cases end like this. -/
def Completion.leave {V : Type} : Completion V → Completion V
  | .break => .normal
  | c => c

/-- Whether a case is the `default` one. -/
def SwitchCase.isDefault : SwitchCase → Bool
  | .mk none _ => true
  | .mk (some _) _ => false

/-- The value that an attribute of an element is given; `undefined` stands for a missing one. -/
def Element.given (e : Element) (name : String) : Expr :=
  match Attrs.get? e.attrs name with
  | some (span, value) => value.toExpr span
  | none => Build.undefined e.span

/-- Values, and what code that is no control flow evaluates to. -/
structure Evaluation (m : Type → Type) (V : Type) where
  undefined : V
  null : V
  ofBool : Bool → V
  /-- Whether a value counts as true. -/
  truthy : V → Bool
  /-- Whether two values are strictly equal. -/
  same : V → V → Bool
  leaf : Expr → m V
  other : Stmt → m (Completion V)
  truthy_ofBool : ∀ b, truthy (ofBool b) = b

/-- Computations that record the expressions they evaluate. -/
abbrev Traced (m : Type → Type) (α : Type) := StateT (List Expr) m α

namespace Evaluation

variable {m : Type → Type} [Monad m] {V : Type} (J : Evaluation m V)

/-- Evaluates an expression that is no control flow, and records it. -/
def recorded (e : Expr) : Traced m V := do
  modify (· ++ [e])
  J.leaf e

mutual

/-- The value of an expression. -/
def expr : Expr → Traced m V
  | .null _ => pure J.null
  | .bool _ b => pure (J.ofBool b)
  | .paren _ e => expr e
  | .unary _ .not e => return J.ofBool (!J.truthy (← expr e))
  | .conditional _ test consequent alternate => do
    if J.truthy (← expr test) then expr consequent else expr alternate
  | .call span callee [] false => called (J.recorded (.call span callee [] false)) callee
  | e => J.recorded e

/-- The value of a call without arguments, if the callee is a function written there. -/
def called (whole : Traced m V) : Expr → Traced m V
  | .paren _ e => called whole e
  | .arrow _ f => applied whole f
  | _ => whole

/-- The value of calling a function without parameters. -/
def applied (whole : Traced m V) : Func → Traced m V
  | .mk _ false false _ _ [] none _ b => body whole b
  | _ => whole

/-- The value of running the body of a function. -/
def body (whole : Traced m V) : Body → Traced m V
  | .absent => whole
  | .expr e => expr e
  | .block _ ss => return (← stmts ss).valueOr J.undefined

/-- Runs statements up to the first one that does not end normally. -/
def stmts : List Stmt → Traced m (Completion V)
  | [] => return .normal
  | s :: ss => do
    match ← stmt s with
    | .normal => stmts ss
    | c => return c

/-- Runs a statement. -/
def stmt : Stmt → Traced m (Completion V)
  | .return none => return .return J.undefined
  | .return (some e) => return .return (← expr e)
  | .break none => return .break
  | .switch discriminant cases => do
    let v ← expr discriminant
    match (← matching v cases).or (cases.findIdx? SwitchCase.isDefault) with
    | some n => return (← runFrom n cases).leave
    | none => return .normal
  | s => J.other s

/-- The position of the first case whose test is strictly equal to a value. -/
def matching (v : V) : List SwitchCase → Traced m (Option Nat)
  | [] => return none
  | .mk none _ :: cases => return (← matching v cases).map (· + 1)
  | .mk (some test) _ :: cases => do
    if J.same v (← expr test) then return some 0
    else return (← matching v cases).map (· + 1)

/-- Runs the cases from a position on, as long as they end normally. -/
def runFrom : Nat → List SwitchCase → Traced m (Completion V)
  | _, [] => return .normal
  | 0, .mk _ ss :: cases => do
    match ← stmts ss with
    | .normal => runFrom 0 cases
    | c => return c
  | n + 1, _ :: cases => runFrom n cases

end

/-! ## What elements mean -/

/-- What the children of an element show; without an element, nothing is shown. -/
def shown : Option Element → Traced m V
  | none => return J.null
  | some e => J.expr e.childrenExpr

/-- Tries the conditions of elements in order, up to the first one that holds, and shows the
children of its element. An `unless` holds if its condition is not true, and an `else` has none. -/
def firstHolding (otherwise : Traced m V) : List Element → Traced m V
  | [] => otherwise
  | e :: es => do
    if e.control? = some .else then firstHolding otherwise es
    else
      let v ← J.expr (e.given "condition")
      if J.truthy v = (e.control? != some .unless) then J.shown (some e)
      else firstHolding otherwise es

/-- **The meaning of a chain**: the first branch whose condition holds, and otherwise its `else`. -/
def chain (es : List Element) : Traced m V :=
  J.firstHolding (J.shown (es.filter (·.control? = some .else)).getLast?) es

/-- The arms of a `switch`: its elements up to the first one that is no arm. -/
def arms (children : List Child) : List Element :=
  (ControlFlow.elementsOf children).takeWhile fun e => (ArmTag.ofText? e.name.text).isSome

/-- Compares a value with those of the cases in order, up to the first one that is strictly equal,
and shows the children of that case. -/
def firstEqual (v : V) (otherwise : Traced m V) : List Element → Traced m V
  | [] => otherwise
  | arm :: arms => do
    if ArmTag.ofText? arm.name.text = some .case then
      let w ← J.expr (arm.given "value")
      if J.same v w then J.shown (some arm) else firstEqual v otherwise arms
    else firstEqual v otherwise arms

/-- **The meaning of a choice**: the condition once, then the first case with its value, and
otherwise the last default, wherever it stands. -/
def choice (e : Element) : Traced m V := do
  let v ← J.expr (e.given "condition")
  let defaults := (arms e.children).filter fun arm => ArmTag.ofText? arm.name.text = some .default
  J.firstEqual v (J.shown defaults.getLast?) (arms e.children)

end Evaluation

namespace ControlFlow

/-! ## What elements become -/

variable (c : LoweringSetting)

/-- Taking an attribute gives its value, and leaves the children. -/
theorem required_result (tag name : String) (e : Element) (s : Lowering) :
    (required tag name e c s).1.1 = e.given name
      ∧ (required tag name e c s).1.2.span = e.span
      ∧ (required tag name e c s).1.2.children = e.children := by
  cases hget : Attrs.get? e.attrs name with
  | none =>
    simp only [required, Element.given, hget]
    exact ⟨rfl, rfl, rfl⟩
  | some found =>
    simp only [required, Element.given, hget]
    cases e
    exact ⟨rfl, rfl, rfl⟩

theorem childrenExpr_required (tag name : String) (e : Element) (s : Lowering) :
    (required tag name e c s).1.2.childrenExpr = e.childrenExpr := by
  obtain ⟨-, hspan, hchildren⟩ := required_result c tag name e s
  rw [Element.childrenExpr, hspan, hchildren, Element.childrenExpr]

/-- Of elements in order, the last one counts. -/
theorem map_getLast?_cons {α β : Type} (f : α → β) (a : α) (as : List α) :
    (a :: as).getLast?.map f = (as.getLast?.map f).orElse fun _ => some (f a) := by
  rw [List.getLast?_cons]
  cases as.getLast? <;> rfl

/-- The condition of an element, negated for an `unless`, and its children. -/
def branchOf (e : Element) : Expr × Expr :=
  let condition := e.given "condition"
  (if e.control? == some .unless then .unary condition.span .not condition else condition,
    e.childrenExpr)

theorem lowerBranches_result (es : List Element) (s : Lowering) :
    (lowerBranches es c s).1
      = ((es.filter (·.control? ≠ some .else)).map branchOf,
          (es.filter (·.control? = some .else)).getLast?.map Element.childrenExpr) := by
  induction es generalizing s with
  | nil => rfl
  | cons e es ih =>
    -- An `else` only sets what is left when no condition holds, and the last one wins.
    by_cases helse : e.control? = some .else
    · have hstep : (lowerBranches (e :: es) c s).1
          = ((lowerBranches es c s).1.1,
              (lowerBranches es c s).1.2.orElse fun _ => some e.childrenExpr) := by
        simp only [lowerBranches, helse]
        rfl
      rw [hstep, ih, List.filter_cons_of_neg (by simp [helse]),
        List.filter_cons_of_pos (by simp [helse]), map_getLast?_cons]
    · have hstep : (lowerBranches (e :: es) c s).1
          = (branchOf e :: (lowerBranches es c (required e.name.text "condition" e c s).2).1.1,
              (lowerBranches es c (required e.name.text "condition" e c s).2).1.2) := by
        rw [branchOf, ← (required_result c e.name.text "condition" e s).1,
          ← childrenExpr_required c e.name.text "condition" e s]
        match hcontrol : e.control? with
        | some .else => contradiction
        | none | some .if | some .unless | some .elseIf | some .switch | some .repeat | some .using
        | some .group =>
          simp only [lowerBranches, hcontrol]
          rfl
      rw [hstep, ih]
      simp [helse]

/-- The case that an arm becomes. -/
def caseOf (arm : Element) : SwitchCase :=
  .mk (some (arm.given "value")) [.return (some arm.childrenExpr)]

theorem lowerArms_result (cs : List Child) (s : Lowering) :
    (lowerArms cs c s).1
      = (((Evaluation.arms cs).filter fun arm =>
            ArmTag.ofText? arm.name.text = some .case).map caseOf,
          ((Evaluation.arms cs).filter fun arm =>
            ArmTag.ofText? arm.name.text = some .default).getLast?.map Element.childrenExpr) := by
  induction cs generalizing s with
  | nil => rfl
  | cons child cs ih =>
    cases child with
    | text _ | fragment _ _ | container _ | spread _ => exact ih s
    | element arm =>
      have helements : elementsOf (.element arm :: cs) = arm :: elementsOf cs := rfl
      rw [Evaluation.arms, helements]
      match harm : ArmTag.ofText? arm.name.text with
      | some .case =>
        have hstep : (lowerArms (.element arm :: cs) c s).1
            = (caseOf arm :: (lowerArms cs c (required arm.name.text "value" arm c s).2).1.1,
                (lowerArms cs c (required arm.name.text "value" arm c s).2).1.2) := by
          rw [caseOf, ← (required_result c arm.name.text "value" arm s).1,
            ← childrenExpr_required c arm.name.text "value" arm s]
          simp only [lowerArms, harm]
          rfl
        rw [hstep, ih]
        simp [harm, Evaluation.arms]
      | some .default =>
        have hstep : (lowerArms (.element arm :: cs) c s).1
            = ((lowerArms cs c s).1.1,
                (lowerArms cs c s).1.2.orElse fun _ => some arm.childrenExpr) := by
          simp only [lowerArms, harm]
          rfl
        rw [hstep, ih, List.takeWhile_cons_of_pos (by simp [harm]),
          List.filter_cons_of_neg (by simp [harm]), List.filter_cons_of_pos (by simp [harm]),
          map_getLast?_cons, Evaluation.arms]
      | none =>
        simp only [lowerArms, harm]
        simp [harm]
        rfl

end ControlFlow

namespace Evaluation

open ControlFlow (branchOf caseOf conditionals lowerIf lowerSwitch)

variable {m : Type → Type} [Monad m] {V : Type} (J : Evaluation m V)

/-- The last of some elements shows its children, and `null` stands for none. -/
theorem expr_getD (o : Option Element) (span : Span) :
    J.expr ((o.map Element.childrenExpr).getD (.null span)) = J.shown o := by
  cases o with
  | none => rfl
  | some e => rfl

/-- A conditional expression evaluates its test, and then one of its branches. -/
theorem expr_conditional (span : Span) (test consequent alternate : Expr) :
    J.expr (.conditional span test consequent alternate)
      = (do if J.truthy (← J.expr test) then J.expr consequent else J.expr alternate) :=
  rfl

theorem expr_not (span : Span) (e : Expr) :
    J.expr (.unary span .not e) = (do return J.ofBool (!J.truthy (← J.expr e))) :=
  rfl

variable [LawfulMonad m]

/-! ## Conditions -/

/-- A conditional expression made for an element tests whether the element's condition holds. -/
theorem expr_branch (span : Span) (e : Element) (rest : Expr) :
    J.expr (.conditional span (branchOf e).1 (branchOf e).2 rest)
      = (do
          let v ← J.expr (e.given "condition")
          if J.truthy v = (e.control? != some .unless) then J.shown (some e) else J.expr rest) := by
  by_cases hunless : e.control? = some .unless
  · have htag : (e.control? == some .unless) = true := by simpa using hunless
    simp only [branchOf, htag, if_true, expr_conditional, expr_not, shown, bne, Bool.not_true,
      bind_assoc, pure_bind, J.truthy_ofBool]
    refine bind_congr fun v => ?_
    cases J.truthy v <;> rfl
  · have htag : (e.control? == some .unless) = false := by simpa using hunless
    simp only [branchOf, htag, expr_conditional, shown, bne, Bool.not_false]
    rfl

theorem expr_conditionals (span : Span) (es : List Element) (last : Expr) :
    J.expr (conditionals span ((es.filter (·.control? ≠ some .else)).map branchOf) last)
      = J.firstHolding (J.expr last) es := by
  induction es with
  | nil => rfl
  | cons e es ih =>
    by_cases helse : e.control? = some .else
    · rw [List.filter_cons_of_neg (by simp [helse]), ih, firstHolding, if_pos helse]
    · rw [List.filter_cons_of_pos (by simp [helse]), firstHolding, if_neg helse, ← ih]
      exact J.expr_branch span e _

theorem expr_lowerIf (c : LoweringSetting) (s : Lowering) (head : Element) (rest : List Element) :
    J.expr (lowerIf head rest c s).1 = J.chain (head :: rest) := by
  have hresult : (lowerIf head rest c s).1
      = conditionals head.span (ControlFlow.lowerBranches (head :: rest) c s).1.1
          ((ControlFlow.lowerBranches (head :: rest) c s).1.2.getD (.null head.span)) := rfl
  rw [hresult, ControlFlow.lowerBranches_result, expr_conditionals, expr_getD, chain]

/-! ## Choices -/

/-- The value that was returned, and otherwise what is evaluated then. -/
def returnedOr (last : Traced m V) : Completion V → Traced m V
  | .return v => return v
  | _ => last

/-- Nothing runs after a `return`. -/
theorem stmts_return (e : Expr) (ss : List Stmt) :
    J.stmts (.return (some e) :: ss) = (do return .return (← J.expr e)) := by
  change ((J.expr e >>= fun v => pure (Completion.return v)) >>= _) = _
  simp only [bind_assoc, pure_bind]

/-- A `switch` without a default, and a `return` that is only reached if no case has returned. -/
theorem expr_switch (span : Span) (discriminant last : Expr) (cases : List SwitchCase)
    (hdefault : cases.findIdx? SwitchCase.isDefault = none) :
    J.expr (Build.invoked span [.switch discriminant cases, .return (some last)])
      = (do
          let v ← J.expr discriminant
          match ← J.matching v cases with
          | some n => J.runFrom n cases >>= returnedOr (J.expr last)
          | none => J.expr last) := by
  change (J.stmt (.switch discriminant cases) >>= _) >>= _ = _
  change ((J.expr discriminant >>= _) >>= _) >>= _ = _
  simp only [hdefault, Option.or_none, bind_assoc]
  refine bind_congr fun v => bind_congr fun found => ?_
  cases found with
  | none => simp [Completion.valueOr, stmts_return]
  | some n =>
    simp only [bind_assoc, pure_bind]
    refine bind_congr fun ending => ?_
    cases ending <;> simp [Completion.leave, Completion.valueOr, returnedOr, stmts_return]

/-- A case made for an arm returns, whatever cases come after it. -/
theorem runFrom_caseOf (arm : Element) (cases : List SwitchCase) :
    J.runFrom 0 (caseOf arm :: cases) = (do return .return (← J.shown (some arm))) := by
  change (J.stmts [.return (some arm.childrenExpr)] >>= _) = _
  simp only [stmts_return, shown, bind_assoc, pure_bind]

/-- Among the cases made for arms, the first one with an equal value returns its children. -/
theorem matching_bind (v : V) (last : Traced m V) (arms : List Element) :
    (do let cases := (arms.filter fun arm => ArmTag.ofText? arm.name.text = some .case).map caseOf
        match ← J.matching v cases with
        | some n => J.runFrom n cases >>= returnedOr last
        | none => last)
      = J.firstEqual v last arms := by
  induction arms with
  | nil => exact pure_bind _ _
  | cons arm arms ih =>
    by_cases hcase : ArmTag.ofText? arm.name.text = some .case
    · rw [List.filter_cons_of_pos (by simp [hcase]), firstEqual, if_pos hcase, ← ih]
      have htest : ∀ cases, J.matching v (caseOf arm :: cases) = (do
          if J.same v (← J.expr (arm.given "value")) then return some 0
          else return (← J.matching v cases).map (· + 1)) := fun cases => rfl
      simp only [List.map_cons, htest, bind_assoc]
      refine bind_congr fun w => ?_
      cases J.same v w with
      | true => simp only [if_true, pure_bind, runFrom_caseOf, bind_assoc, returnedOr, bind_pure]
      | false =>
        -- The positions of the other cases are one more now.
        simp only [Bool.false_eq_true, if_false, bind_assoc, pure_bind]
        refine bind_congr fun found => ?_
        cases found with
        | none => rfl
        | some n => rfl
    · rw [List.filter_cons_of_neg (by simp [hcase]), firstEqual, if_neg hcase, ih]

theorem findIdx?_isDefault (arms : List Element) :
    (arms.map caseOf).findIdx? SwitchCase.isDefault = none := by
  rw [List.findIdx?_eq_none_iff]
  intro case hcase
  obtain ⟨arm, -, rfl⟩ := List.mem_map.mp hcase
  rfl

theorem expr_lowerSwitch (c : LoweringSetting) (s : Lowering) (e : Element) :
    J.expr (lowerSwitch e c s).1 = J.choice e := by
  obtain ⟨hgiven, hspan, hchildren⟩ := ControlFlow.required_result c "switch" "condition" e s
  have hresult : (lowerSwitch e c s).1
      = Build.invoked e.span
          [.switch (e.given "condition") (ControlFlow.lowerArms e.children c
              (ControlFlow.required "switch" "condition" e c s).2).1.1,
            .return (some ((ControlFlow.lowerArms e.children c
              (ControlFlow.required "switch" "condition" e c s).2).1.2.getD (.null e.span)))] := by
    rw [← hgiven, ← hspan, ← hchildren]
    rfl
  rw [hresult, ControlFlow.lowerArms_result, J.expr_switch _ _ _ _ (findIdx?_isDefault _),
    expr_getD]
  refine bind_congr fun v => ?_
  exact J.matching_bind v _ _

/-- **Conditions and choices mean what they say.** Whatever values there are, and whatever effects
the code in them has: an `if` or `unless` with the elements that continue it evaluates the
conditions in order up to the first one that holds, and shows that branch, otherwise the `else`,
otherwise `null`; a `switch` evaluates its condition once and the values of its cases in order up to
the first one that is strictly equal, and shows that case, otherwise the last default wherever it
stands, otherwise `null`, and nothing after the first element that is no arm counts. -/
theorem lowered_evaluates_as_written (c : LoweringSetting) (s : Lowering) :
    (∀ head rest, J.expr (lowerIf head rest c s).1 = J.chain (head :: rest))
      ∧ ∀ e, J.expr (lowerSwitch e c s).1 = J.choice e :=
  ⟨J.expr_lowerIf c s, J.expr_lowerSwitch c s⟩

/-- Names are values of their own, and some of them count as false. -/
def naming : Evaluation Id String where
  undefined := "undefined"
  null := "null"
  ofBool b := if b then "true" else "false"
  truthy v := v ∉ ["undefined", "null", "false"]
  same v w := v == w
  leaf e := (binderName? e).getD "object"
  other _ := .normal
  truthy_ofBool := by decide

/-- `<tag attr={value}>{shows}</tag>`. -/
def showing (tag : String) (attrs : List (String × String)) (shows : String) : Element :=
  .mk .none .none (.plain tag)
    (attrs.map fun (name, value) => Build.attr .none name (.ident .none value))
    [.container (some (.ident .none shows))] true

/-- A chain with a condition that is missing, and a default between two cases. -/
theorem lowered_evaluates_as_written_naming :
    let c : LoweringSetting := ⟨{}, []⟩
    let s : Lowering := ⟨Header.ofModule ⟨[], []⟩, .empty, [], []⟩
    let head := showing "unless" [("condition", "x")] "a"
    let rest := [showing "elseif" [] "b", showing "elseif" [("condition", "y")] "c",
      showing "else" [] "d"]
    let e : Element :=
      .mk .none .none (.plain "switch") [Build.attr .none "condition" (.ident .none "k")]
        ([showing "case" [("value", "j")] "a", showing "default" [] "b",
          showing "case" [("value", "k")] "c", showing "p" [] "d"].map .element) true
    naming.expr (lowerIf head rest c s).1 = naming.chain (head :: rest)
      ∧ ((naming.chain (head :: rest)).run []).1 = "c"
      ∧ ((naming.chain (head :: rest)).run []).2.filterMap binderName?
        = ["x", "undefined", "y", "c"]
      ∧ naming.expr (lowerSwitch e c s).1 = naming.choice e
      ∧ ((naming.choice e).run []).1 = "c"
      ∧ ((naming.choice e).run []).2.filterMap binderName? = ["k", "j", "k", "c"] := by
  intro c s head rest e
  have h := naming.lowered_evaluates_as_written c s
  exact ⟨h.1 head rest, by decide +kernel, by decide +kernel, h.2 e, by decide +kernel,
    by decide +kernel⟩

end Evaluation

end JsxDialect
