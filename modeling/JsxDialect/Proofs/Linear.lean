import JsxDialect.Compile
import JsxDialect.Proofs.Visits

/-!
# Values are kept once

Every step of the walk has visits: the rules keep nothing but for the values of attributes, and the
walk puts its steps together by the ways that visits know. So what visits come to holds of the walk
over a module. At its end nothing is queued any more: every value that was kept has a slot of its
own at the top of the module, and its statement was put before the statements of one function, the
method around the attribute.

A function without a body has no place for such a statement, so there it is lost. And the statement
is only put into the function that the walk leaves: a rule for an element further out may copy that
function, or leave it out.
-/

namespace JsxDialect

variable {c : LoweringSetting} {α β γ δ : Type}

/-! ## Steps with visits -/

variable {fs gs hs : Bool → List (FunctionRole × Func)}

/-- A step that has visits, from every state, and the functions that it goes through. -/
def Visited (c : LoweringSetting) (fs : Bool → List (FunctionRole × Func)) (act : Lower α) : Prop :=
  ∀ s : Lowering, s.scopes.Ordered → ∃ vs, Visits c s act vs ∧ Visit.Cover vs fs

/-- A quiet step visits nothing. -/
theorem Quiet.visits {act : Lower α} (h : Quiet c act) (s : Lowering) : Visits c s act [] :=
  .quiet (h s).1 (h s).2

/-- A quiet step goes through no function, from every state. -/
theorem Quiet.visited {act : Lower α} (h : Quiet c act) : Visited c (fun _ => []) act :=
  fun s _ => ⟨[], h.visits s, .nil⟩

/-- Reading the state is no visit. -/
theorem Visits.get {s : Lowering} {next : Lowering → Lower α} {vs : List Visit}
    (h : Visits c s (next s) vs) : Visits c s (MonadState.get >>= next) vs :=
  .bind (.quiet rfl (.refl s.header)) h

namespace Visited

variable {act : Lower α} {act₂ : Lower β} {act₃ : Lower γ}

/-- A value is given without a visit. -/
protected theorem pure (a : α) : Visited c (fun _ => []) (Pure.pure a) :=
  (Quiet.pure a).visited

/-- Two steps one after the other: the functions of the first, then those of the second. -/
protected theorem bind {next : α → Lower β} (h : Visited c fs act)
    (hnext : ∀ a, Visited c gs (next a)) : Visited c (fun b => fs b ++ gs b) (act >>= next) := by
  intro s hs
  obtain ⟨vs, hvs, hcover⟩ := h s hs
  obtain ⟨ws, hws, hcover'⟩ := hnext (act c s).1 (act c s).2 (hvs.accounts hs).ordered
  exact ⟨vs ++ ws, hvs.bind hws, hcover.append hcover'⟩

/-- Fewer functions to go through, among more. -/
theorem mono (h : Visited c fs act) (hall : List.Sublist (gs false) (fs false))
    (honly : List.Sublist (fs true) (gs true)) : Visited c gs act := by
  intro s hs
  obtain ⟨vs, hvs, hcover⟩ := h s hs
  exact ⟨vs, hvs, hall.trans hcover.all, hcover.only.trans honly⟩

/-- A step after a rule. -/
theorem after {next : α → Lower β} (h : Visited c (fun _ => []) act)
    (hnext : ∀ a, Visited c fs (next a)) : Visited c fs (act >>= next) :=
  h.bind hnext

/-- A rule after a step. -/
theorem andThen {next : α → Lower β} (h : Visited c fs act)
    (hnext : ∀ a, Visited c (fun _ => []) (next a)) : Visited c fs (act >>= next) := by
  simpa only [List.append_nil] using h.bind hnext

/-- What is made of the result does not matter. -/
protected theorem map {k : α → δ} (h : Visited c fs act) :
    Visited c fs (act >>= fun a => Pure.pure (k a)) :=
  h.andThen fun _ => .pure _

/-- Two steps whose results are put together. -/
theorem map₂ {k : α → β → δ} (h : Visited c fs act) (h₂ : Visited c gs act₂) :
    Visited c (fun b => fs b ++ gs b)
      (act >>= fun a => act₂ >>= fun b => Pure.pure (k a b)) :=
  h.bind fun _ => h₂.map

/-- Three steps whose results are put together. -/
theorem map₃ {k : α → β → γ → δ} (h : Visited c fs act) (h₂ : Visited c gs act₂)
    (h₃ : Visited c hs act₃) : Visited c (fun b => fs b ++ (gs b ++ hs b))
      (act >>= fun a => act₂ >>= fun b => act₃ >>= fun e => Pure.pure (k a b e)) :=
  h.bind fun _ => h₂.map₂ h₃

/-- A scope that is no function's is not visited; what is done in it is. -/
protected theorem inside {kind : ScopeKind} (hkind : kind.isFunction = false)
    (h : Visited c fs act) (names : List String) :
    Visited c fs (Lower.inside kind names act) := by
  intro s hs
  obtain ⟨vs, hvs, hcover⟩ := h (Discipline.opened s kind names) (hs.push kind names)
  exact ⟨vs, .inside hkind hvs, hcover⟩

/-- **A function is visited after what is in it**, once the walk has gone through its parts. -/
protected theorem func {givesParams : Bool} {f : Func}
    (h : Visited c fs (Walk.parts givesParams f)) (role : FunctionRole) (seesName : Bool)
    (hgives : givesParams = true → role.isConstructor = true) :
    Visited c (fun b => fs b ++ [(role, f)]) (Walk.func role.scope seesName givesParams f) := by
  intro s hs
  obtain ⟨vs, hvs, hcover⟩ := h (Discipline.opened s role.scope
    (Discipline.scopeNames seesName givesParams f)) (hs.push _ _)
  exact ⟨_, .func hgives hvs, hcover.function role f _⟩

end Visited

/-! ## Elements -/

/-- An attribute of an element in a method: nothing happens, or it has a value that can be kept. -/
theorem Lift.lowerAttr_cases (owner : Nat) (a : Attr) (s : Lowering) :
    (Lift.lowerAttr owner a c s).2 = s
      ∨ ∃ span name inside e kind, a = .named span name (.container inside (some e))
        ∧ Lift.kind? c.options e = some kind ∧ Lift.isCaptureSafe s.scopes owner e = true := by
  unfold Lift.lowerAttr
  split
  · rename_i span name inside e
    rw [Lower.options_bind]
    cases hkind : Lift.kind? c.options e with
    | none => exact .inl rfl
    | some kind =>
      dsimp only
      rw [Lower.get_bind]
      cases hsafe : Lift.isCaptureSafe s.scopes owner e with
      | false => exact .inl rfl
      | true => exact .inr ⟨span, name, inside, e, kind, rfl, hkind, hsafe⟩
  · exact .inl rfl

/-- Attributes after the first have the same owner. -/
theorem Lift.owner?_lowerAttr {s : Lowering} (hs : s.scopes.Ordered) {owner : Nat}
    (howner : Lift.owner? s.scopes = some owner) (a : Attr) :
    Lift.owner? (Lift.lowerAttr owner a c s).2.scopes = some owner := by
  rcases Lift.lowerAttr_cases owner a s with
    hstate | ⟨span, name, inside, e, kind, rfl, hkind, hsafe⟩
  · rw [hstate]
    exact howner
  · rw [Lift.lowerAttr_eq hkind hsafe]
    exact (Lift.owner?_queue hs owner _).trans howner

namespace Visited

/-- One attribute of an element: its value is kept for the nearest function that owns it, or it
stays. -/
theorem lowerAttr {s : Lowering} {owner : Nat} (howner : Lift.owner? s.scopes = some owner)
    (a : Attr) : ∃ vs, Visits c s (Lift.lowerAttr owner a) vs ∧ Visit.Cover vs fun _ => [] := by
  rcases Lift.lowerAttr_cases owner a s with
    hstate | ⟨span, name, inside, e, kind, rfl, hkind, hsafe⟩
  · exact ⟨[], .quiet (by rw [hstate]) (by rw [hstate]; exact .refl _), .nil⟩
  · exact ⟨_, .keep howner hkind hsafe, .refl _, .refl _⟩

/-- The attributes of an element, one after the other. -/
theorem lowerEach {s : Lowering} (hs : s.scopes.Ordered) {owner : Nat}
    (howner : Lift.owner? s.scopes = some owner) (as : List Attr) :
    ∃ vs, Visits c s (Lift.lowerEach owner as) vs ∧ Visit.Cover vs fun _ => [] := by
  induction as generalizing s with
  | nil => exact ⟨[], (Quiet.pure _).visits s, .nil⟩
  | cons a as ih =>
    obtain ⟨vs, hvs, hcover⟩ := lowerAttr howner a
    obtain ⟨ws, hws, hcover'⟩ := ih (hvs.accounts hs).ordered (Lift.owner?_lowerAttr hs howner a)
    exact ⟨_, hvs.bind (hws.bind ((Quiet.pure _).visits _)), hcover.append (hcover'.append .nil)⟩

/-- The rule that keeps values goes through no function. -/
theorem liftAttrs (as : List Attr) : Visited c (fun _ => []) (Lift.lowerAttrs as) := by
  intro s hs
  unfold Lift.lowerAttrs
  cases howner : Lift.owner? s.scopes with
  | none =>
    refine ⟨[], .get ?_, .nil⟩
    rw [howner]
    exact (Quiet.pure as).visits s
  | some owner =>
    obtain ⟨vs, hvs, hcover⟩ := lowerEach (c := c) hs howner as
    refine ⟨vs, .get ?_, hcover⟩
    rw [howner]
    exact hvs

/-- A rule for attributes that may be switched off. -/
theorem whenOn {isOn : Options → Bool} {rule : List Attr → Lower (List Attr)}
    (h : ∀ as, Visited c (fun _ => []) (rule as)) (as : List Attr) :
    Visited c (fun _ => []) (ElementRule.whenOn isOn rule as) := by
  refine Visited.after (Quiet.visited fun s => ⟨rfl, .refl s.header⟩) fun o => ?_
  split
  · exact h as
  · exact .pure as

/-- All rules for attributes: they go through no function. -/
theorem lowerAttrs (span : Span) (tag : String) (as : List Attr) :
    Visited c (fun _ => []) (ElementRule.lowerAttrs span tag as) := by
  unfold ElementRule.lowerAttrs
  have hquiet := Quiet.composable c
  refine (hquiet.whenOn (fun _ _ => rfl) (hquiet.styleAttrs span) as).visited.after fun _ => ?_
  refine (hquiet.whenOn (fun _ _ => rfl) (hquiet.classAttrs span) _).visited.after fun _ => ?_
  refine (hquiet.whenOn (fun _ _ => rfl) hquiet.refAttrs _).visited.after fun _ => ?_
  refine (hquiet.whenOn (fun _ _ => rfl) (hquiet.bindAttrs tag) _).visited.after fun _ => ?_
  refine (hquiet.whenOn (fun _ _ => rfl) (hquiet.controlledAttrs tag) _).visited.after fun _ => ?_
  exact whenOn liftAttrs _

/-- All rules for an element: they go through no function. -/
theorem lowerElement (e : Element) : Visited c (fun _ => []) (ElementRule.lower e) := by
  cases e with
  | mk span openSpan name as cs closed =>
    -- Only the rules for attributes ask for slots; those after them are quiet.
    have hrest : ∀ name' as', Visited c (fun _ => []) (do
        let r ← ElementRule.hoistNamed name.text as' cs
        let cs ← ControlFlow.lowerChildren r.2
        let e := .mk span openSpan name' r.1 cs closed
        if !isDialectTag name.text && (← Lower.options).asAttribute then ElementRule.lowerAs e
        else return e) := by
      intro name' as'
      refine ((Quiet.composable c).hoistNamed _ as' cs).visited.after fun r => ?_
      refine ((Quiet.composable c).lowerChildren r.2).visited.after fun cs' => ?_
      refine Quiet.visited (Quiet.options ?_)
      split
      · exact (Quiet.composable c).lowerAs _
      · exact .pure _
    unfold ElementRule.lower
    cases htag : isDialectTag name.text with
    | false =>
      simp only [htag, Bool.not_false, if_true] at hrest ⊢
      refine (lowerAttrs span name.text as).after fun as' => ?_
      refine (Quiet.importName name).visited.after fun name' => ?_
      exact hrest name' as'
    | true =>
      simp only [htag, Bool.not_true, Bool.false_eq_true, if_false, pure_bind] at hrest ⊢
      exact hrest name as

end Visited

/-! ## The walk -/

/-- Without the calls of the base constructor less is listed, in the same order. -/
theorem Listing.ofOtherStmts_sublist (l : Listing α) (xs : List Stmt) :
    List.Sublist (l.ofOtherStmts xs) (l.ofStmts xs) := by
  induction xs with
  | nil => exact .refl _
  | cons x xs ih =>
    refine List.Sublist.append ?_ ih
    split
    · exact List.nil_sublist _
    · exact .refl _

/-- The calls of the base constructor are those that parameters can be given to. -/
theorem Walk.isBaseCall_eq (x : Stmt) : x.isBaseCall = (Walk.forward? x).isSome := by
  unfold Walk.forward?
  split
  · rfl
  · rename_i hother
    unfold Stmt.isBaseCall
    split
    · exact absurd rfl (hother _ _ _ _)
    · rfl

mutual

/-- **The walk goes through every function of an expression**, in the order of the listing. There
is one lemma for each part of the syntax. -/
theorem visited_expr (e : Expr) :
    Visited c (fun b => (Listing.functions b).ofExpr e) (Walk.expr e) := by
  cases e with
  | ident _ _ | «alias» _ _ _ | number _ _ | string _ _ | bigint _ _ | regex _ _ | bool _ _ | null _
  | this _ | super _ | metaProperty _ _ _ | hole => exact .pure _
  | template _ _ es | array _ es | sequence _ es | importCall _ es => exact (visited_exprs es).map
  | tagged _ e _ es | call _ e es _ | new _ e es => exact (visited_expr e).map₂ (visited_exprs es)
  | spread e | unary _ _ e | update _ _ _ e | privateIn _ _ e | member _ e _ _
  | privateMember _ e _ _ | chain _ e | paren _ e | await _ e | typed _ _ e _ | nonNull _ e =>
    exact (visited_expr e).map
  | object _ ps => exact (visited_properties ps).map
  | function _ f => exact (visited_func f .plain true false nofun).map
  | arrow _ f => exact (visited_func f .arrow false false nofun).map
  | classExpr _ k => exact (visited_cls k).map
  | binary _ _ l r | logical _ _ l r | index _ l r _ => exact (visited_expr l).map₂ (visited_expr r)
  | assign _ _ l r => exact (visited_pattern l).map₂ (visited_expr r)
  | conditional _ t e a => exact (visited_expr t).map₃ (visited_expr e) (visited_expr a)
  | yield _ _ e => exact (visited_optExpr e).map
  | element e =>
    exact (visited_element e).andThen fun e' => ((Quiet.composable c).lowerExpr e').visited
  | fragment _ cs =>
    exact (visited_children cs).andThen fun cs' =>
      ((Quiet.composable c).lowerChildren cs').visited.map

theorem visited_exprs (es : List Expr) :
    Visited c (fun b => (Listing.functions b).ofExprs es) (Walk.exprs es) := by
  cases es with
  | nil => exact .pure _
  | cons e es => exact (visited_expr e).map₂ (visited_exprs es)

theorem visited_optExpr (e : Option Expr) :
    Visited c (fun b => (Listing.functions b).ofOption e) (Walk.optExpr e) := by
  cases e with
  | none => exact .pure _
  | some e => exact (visited_expr e).map

theorem visited_key (k : Key) :
    Visited c (fun b => (Listing.functions b).ofKey k) (Walk.key k) := by
  cases k with
  | computed e => exact (visited_expr e).map
  | ident _ | string _ | number _ | bigint _ | privateName _ => exact .pure _

theorem visited_property (p : Property) :
    Visited c (fun b => (Listing.functions b).ofProperty p) (Walk.property p) := by
  cases p with
  | field k e _ => exact (visited_key k).map₂ (visited_expr e)
  | method _ k f => exact (visited_key k).map₂ (visited_func f .plain true false nofun)
  | spread e => exact (visited_expr e).map

theorem visited_properties (ps : List Property) :
    Visited c (fun b => (Listing.functions b).ofProperties ps) (Walk.properties ps) := by
  cases ps with
  | nil => exact .pure _
  | cons p ps => exact (visited_property p).map₂ (visited_properties ps)

/-- A function: its parts are visited, and then itself. -/
theorem visited_func (f : Func) (role : FunctionRole) (seesName givesParams : Bool)
    (hgives : givesParams = true → role.isConstructor = true) :
    Visited c (fun b => (Listing.functions b).ofFunc role f)
      (Walk.func role.scope seesName givesParams f) := by
  cases f with
  | mk _ _ _ _ _ ps rest _ b =>
    exact Visited.func ((visited_params ps).map₃ (visited_optPattern rest) (visited_body b hgives))
      role seesName hgives

/-- The body of a constructor that gets parameters may lose what stands in its base calls. -/
theorem visited_body (b : Body) {givesParams isConstructor : Bool}
    (hgives : givesParams = true → isConstructor = true) :
    Visited c (fun calls => (Listing.functions calls).ofBody (!calls && isConstructor) b)
      (Walk.body givesParams b) := by
  cases b with
  | absent => exact .pure _
  | expr e => exact (visited_expr e).map
  | block _ xs =>
    cases givesParams with
    | true =>
      obtain rfl : isConstructor = true := hgives rfl
      exact (visited_forwarding xs).map.mono (.refl _) (.refl _)
    | false =>
      refine (visited_stmts xs).map.mono ?_ (.refl _)
      cases isConstructor with
      | true => exact Listing.ofOtherStmts_sublist _ xs
      | false => exact .refl _

/-- The statements of such a constructor: the listing is that of all statements, or of those that
are no base calls. -/
theorem visited_forwarding (xs : List Stmt) :
    Visited c (fun b => bif b then (Listing.functions b).ofStmts xs
      else (Listing.functions b).ofOtherStmts xs) (Walk.forwarding xs) := by
  cases xs with
  | nil => exact (Visited.pure []).mono (.refl _) (.refl _)
  | cons x xs =>
    unfold Walk.forwarding
    cases hcall : Walk.forward? x with
    | some call =>
      refine (visited_forwarding xs).map.mono ?_ (List.sublist_append_right _ _)
      simp only [Listing.ofOtherStmts, Walk.isBaseCall_eq x, hcall]
      exact .refl _
    | none =>
      refine ((visited_stmt x).map₂ (visited_forwarding xs)).mono ?_ (.refl _)
      simp only [Listing.ofOtherStmts, Walk.isBaseCall_eq x, hcall]
      exact .refl _

theorem visited_params (ps : List Param) :
    Visited c (fun b => (Listing.functions b).ofParams ps) (Walk.params ps) := by
  match ps with
  | [] => exact .pure _
  | .mk decorators p :: ps =>
    have hparam : Visited c (fun b => (Listing.functions b).ofExprs decorators
        ++ (Listing.functions b).ofPattern p) (Walk.param (.mk decorators p)) :=
      (visited_exprs decorators).map₂ (visited_pattern p)
    exact hparam.map₂ (visited_params ps)

theorem visited_pattern (p : Pattern) :
    Visited c (fun b => (Listing.functions b).ofPattern p) (Walk.pattern p) := by
  cases p with
  | bind _ | hole => exact .pure _
  | target e => exact (visited_expr e).map
  | object ps rest => exact (visited_patternProperties ps).map₂ (visited_optPattern rest)
  | array ps rest => exact (visited_patterns ps).map₂ (visited_optPattern rest)
  | withDefault p e => exact (visited_pattern p).map₂ (visited_expr e)
  | typed p _ _ => exact (visited_pattern p).map

theorem visited_patterns (ps : List Pattern) :
    Visited c (fun b => (Listing.functions b).ofPatterns ps) (Walk.patterns ps) := by
  cases ps with
  | nil => exact .pure _
  | cons p ps => exact (visited_pattern p).map₂ (visited_patterns ps)

theorem visited_optPattern (p : Option Pattern) :
    Visited c (fun b => (Listing.functions b).ofRest p) (Walk.optPattern p) := by
  cases p with
  | none => exact .pure _
  | some p => exact (visited_pattern p).map

theorem visited_patternProperties (ps : List PatternProperty) :
    Visited c (fun b => (Listing.functions b).ofPatternProperties ps)
      (Walk.patternProperties ps) := by
  match ps with
  | [] => exact .pure _
  | .mk k p _ :: ps =>
    exact (visited_key k).map₃ (visited_pattern p) (visited_patternProperties ps)

/-- The walk goes through every function of a statement. -/
theorem visited_stmt (x : Stmt) :
    Visited c (fun b => (Listing.functions b).ofStmt x) (Walk.stmt x) := by
  cases x with
  | expr e => exact (visited_expr e).map
  | varDecl _ ds => exact (visited_declarators ds).map
  | function f => exact (visited_func f .plain false false nofun).map
  | classDecl k => exact (visited_cls k).map
  | «return» e => exact (visited_optExpr e).map
  | throw e => exact (visited_expr e).map
  | «if» t x a => exact (visited_expr t).map₃ (visited_stmt x) (visited_optStmt a)
  | «for» init t u x =>
    exact .inside rfl ((visited_forHead init).bind fun _ =>
      (visited_optExpr t).map₃ (visited_optExpr u) (visited_stmt x)) _
  | forIn left r x | forOf _ left r x =>
    exact .inside rfl ((visited_forHead left).map₃ (visited_expr r) (visited_stmt x)) _
  | «while» t x => exact (visited_expr t).map₂ (visited_stmt x)
  | doWhile x t => exact (visited_stmt x).map₂ (visited_expr t)
  | block xs => exact (Visited.inside rfl (visited_stmts xs) _).map
  | switch d cases => exact .inside rfl ((visited_expr d).map₂ (visited_switchCases cases)) _
  | «try» xs handler finalizer =>
    exact (Visited.inside rfl (visited_stmts xs) _).map₃ (visited_optCatch handler)
      (visited_optBlock finalizer)
  | «break» _ | «continue» _ | empty | debugger | «import» _ _ | exportNamed _ _
  | exportAll _ _ => exact .pure _
  | labeled _ x | exportDecl x => exact (visited_stmt x).map
  | exportDefaultFunction f => exact (visited_func f .plain false false nofun).map
  | exportDefaultClass k => exact (visited_cls k).map
  | exportDefault e => exact (visited_expr e).map

theorem visited_stmts (xs : List Stmt) :
    Visited c (fun b => (Listing.functions b).ofStmts xs) (Walk.stmts xs) := by
  cases xs with
  | nil => exact .pure _
  | cons x xs => exact (visited_stmt x).map₂ (visited_stmts xs)

theorem visited_optStmt (x : Option Stmt) :
    Visited c (fun b => (Listing.functions b).ofAlternate x) (Walk.optStmt x) := by
  cases x with
  | none => exact .pure _
  | some x => exact (visited_stmt x).map

theorem visited_optBlock (xs : Option (List Stmt)) :
    Visited c (fun b => (Listing.functions b).ofFinalizer xs) (Walk.optBlock xs) := by
  cases xs with
  | none => exact .pure _
  | some xs => exact (Visited.inside rfl (visited_stmts xs) _).map

theorem visited_optCatch (handler : Option Catch) :
    Visited c (fun b => (Listing.functions b).ofHandler handler) (Walk.optCatch handler) := by
  match handler with
  | none => exact .pure _
  | some (.mk param xs) =>
    exact .inside rfl ((visited_optPattern param).map₂
      (.inside rfl (visited_stmts xs) (lexicalNames xs))) _

theorem visited_declarators (ds : List Declarator) :
    Visited c (fun b => (Listing.functions b).ofDeclarators ds) (Walk.declarators ds) := by
  match ds with
  | [] => exact .pure _
  | .mk p e :: ds =>
    exact (visited_pattern p).map₃ (visited_optExpr e) (visited_declarators ds)

theorem visited_forHead (head : ForHead) :
    Visited c (fun b => (Listing.functions b).ofHead head) (Walk.forHead head) := by
  cases head with
  | absent => exact .pure _
  | decl _ ds => exact (visited_declarators ds).map
  | expr e => exact (visited_expr e).map
  | target p => exact (visited_pattern p).map

theorem visited_switchCases (cases : List SwitchCase) :
    Visited c (fun b => (Listing.functions b).ofCases cases) (Walk.switchCases cases) := by
  match cases with
  | [] => exact .pure _
  | .mk t xs :: cases =>
    exact (visited_optExpr t).map₃ (visited_stmts xs) (visited_switchCases cases)

/-- A class: entering it visits nothing. -/
theorem visited_cls (k : Class) {isExpr : Bool} :
    Visited c (fun b => (Listing.functions b).ofClass k) (Walk.cls isExpr k) := by
  cases k with
  | mk name decorators superClass ms =>
    refine ((Quiet.composable c).enter isExpr _).visited.bind fun plan => ?_
    refine (visited_exprs decorators).bind fun _ => ?_
    refine (visited_optExpr superClass).bind fun _ => ?_
    exact (visited_members ms).andThen fun _ => (Quiet.composable c).leave.visited.map

/-- Members of a class: only a constructor gets parameters. -/
theorem visited_members (ms : List Member) {givesParams : Bool} :
    Visited c (fun b => (Listing.functions b).ofMembers ms) (Walk.members givesParams ms) := by
  match ms with
  | [] => exact .pure _
  | .method decorators isStatic kind k f :: ms =>
    refine (visited_exprs decorators).bind fun _ => (visited_key k).bind fun _ => ?_
    exact (visited_func f (.method isStatic kind) true _ fun hgives =>
      (Bool.and_eq_true_iff.mp hgives).2).bind fun _ => (visited_members ms).map
  | .field decorators _ k _ _ value :: ms =>
    refine (visited_exprs decorators).bind fun _ => (visited_key k).bind fun _ => ?_
    exact (visited_optExpr value).bind fun _ => (visited_members ms).map
  | .staticBlock xs :: ms => exact (visited_stmts xs).map₂ (visited_members ms)

/-- An element, before its rules. -/
theorem visited_element (e : Element) :
    Visited c (fun b => (Listing.functions b).ofElement e) (Walk.element e) := by
  cases e with
  | mk span openSpan name as cs closed =>
    exact (Visited.inside rfl ((visited_attrs as).map₂ (visited_children cs)) _).andThen
      fun e' => .lowerElement e'

theorem visited_attrs (as : List Attr) :
    Visited c (fun b => (Listing.functions b).ofAttrs as) (Walk.attrs as) := by
  match as with
  | [] => exact .pure _
  | .named span name value :: as => exact (visited_attrValue value).map₂ (visited_attrs as)
  | .spread span e :: as => exact (visited_expr e).map₂ (visited_attrs as)

theorem visited_attrValue (value : AttrValue) :
    Visited c (fun b => (Listing.functions b).ofAttrValue value) (Walk.attrValue value) := by
  cases value with
  | absent | string _ => exact .pure _
  | container _ e => exact (visited_optExpr e).map
  | element e =>
    exact (visited_element e).andThen fun e' => ((Quiet.composable c).lowerValue e').visited
  | fragment _ cs =>
    exact (visited_children cs).andThen fun cs' =>
      ((Quiet.composable c).lowerChildren cs').visited.map

/-- Children, before the rule for them. -/
theorem visited_children (cs : List Child) :
    Visited c (fun b => (Listing.functions b).ofChildren cs) (Walk.children cs) := by
  cases cs with
  | nil => exact .pure _
  | cons child cs => exact (visited_child child).map₂ (visited_children cs)

theorem visited_child (child : Child) :
    Visited c (fun b => (Listing.functions b).ofChild child) (Walk.child child) := by
  cases child with
  | text _ => exact .pure _
  | element e => exact (visited_element e).map
  | fragment _ cs =>
    exact (visited_children cs).andThen fun cs' =>
      ((Quiet.composable c).lowerChildren cs').visited.map
  | container e => exact (visited_optExpr e).map
  | spread e => exact (visited_expr e).map

end

/-! ## Modules -/

/-- What is fixed while a module is compiled. -/
def Module.setting (o : Options) (m : Module) : LoweringSetting :=
  ⟨o, m.stmts.filterMap Stmt.defaultName⟩

/-- **Values are kept once**, where the visits are those of the walk over a module. -/
structure Module.KeepsOnce (o : Options) (m : Module) (vs : List Visit) : Prop where
  /-- The slots at the top of the compiled module are those of the values, in their order. -/
  declared : ∃ top, (m.compile o).module.stmts
      = top ++ (Walk.stmts m.stmts (m.setting o) (Lowering.initial m)).1
    ∧ top.filter Header.isSlot = (Visit.keptAll vs).map Kept.declaration
  /-- Every value has a slot of its own, which the module does not use. -/
  distinct : ((Visit.keptAll vs).map Kept.slot).Nodup
  unused : ∀ k ∈ Visit.keptAll vs, k.slot ∉ m.usedNames
  /-- Every value is kept for one of the functions that the walk has left, and only once. -/
  owned : List.Perm (Visit.keptAll vs) ((Visit.finishedAll vs).flatMap Finished.kept)
  ordered : ∀ f ∈ Visit.finishedAll vs, List.Sublist f.kept (Visit.keptAll vs)
  /-- Its statement stands at the top of that function. -/
  settled : ∀ f ∈ Visit.finishedAll vs, f.IsSettled (m.setting o)

/-- At the end of the walk nothing is left to a function further out. -/
theorem Accounts.ownAll_eq_nil {s t : Lowering} {vs : List Visit} (h : Accounts c s t vs)
    (hframes : s.scopes.frames = []) : Visit.ownAll vs = [] := by
  by_contra hne
  have hmethod := h.method hne
  rw [hframes] at hmethod
  cases hmethod

/-- Of what is put at the top of a module, the slots are those of the header. -/
theorem Header.filter_isSlot_finish (h : Header) :
    (h.imports.map importStmt ++ h.declarations).filter isSlot = h.slots := by
  have himports : (h.imports.map importStmt).filter isSlot = [] := by
    refine List.filter_eq_nil_iff.mpr fun d hd => ?_
    obtain ⟨r, -, rfl⟩ := List.mem_map.mp hd
    exact Bool.false_ne_true
  rw [List.filter_append, himports]
  rfl

/-- **What the walk over a module keeps is neither lost nor doubled.** The walk has visits, in which
it goes through the functions of the module, and whatever they are, the values that it keeps are
kept once. -/
theorem Module.compile_keepsOnce (o : Options) (m : Module) :
    (∃ vs, Visits (m.setting o) (Lowering.initial m) (Walk.stmts m.stmts) vs
        ∧ Visit.Cover vs m.functions)
      ∧ ∀ vs, Visits (m.setting o) (Lowering.initial m) (Walk.stmts m.stmts) vs →
        m.KeepsOnce o vs := by
  refine ⟨visited_stmts m.stmts _ Scopes.ordered_empty, fun vs hvs => ?_⟩
  have haccounts := hvs.accounts Scopes.ordered_empty
  have hown : Visit.ownAll vs = [] := haccounts.ownAll_eq_nil rfl
  have hperm := Visit.keptAll_perm vs
  rw [hown, List.nil_append] at hperm
  refine ⟨⟨_, rfl, ?_⟩, haccounts.header.nodup, haccounts.header.notMem, hperm,
    fun f hf => Visit.finishedAll_sublist vs hf, haccounts.settled⟩
  exact (Header.filter_isSlot_finish _).trans haccounts.header.slots

/-! ## Where a statement is lost or copied -/

/-- The value `() => y` of an attribute, kept in `_handler`. -/
def keptArrow : Kept :=
  ⟨"_handler", .handler, .none, Build.arrow .none [] (.ident .none "y")⟩

/-- `<I a={value} />`. -/
def attributed (value : Expr) : Expr :=
  .element (.mk .none .none (.reference "I") [Build.attr .none "a" value] [] false)

/-- A method `m` of instances. -/
def memberMethod (params : List Param) (body : Body) : Member :=
  .method [] false .method (.ident "m") (.mk none false false none .none params none none body)

/-- `class A { m(p = <I a={value} />); m() {} }`, where the first `m` has no body. -/
def overloaded (value : Expr) : Module :=
  ⟨[], [.classDecl (.mk (some "A") [] none
    [memberMethod [.mk [] (.withDefault (.bind "p") (attributed value))] .absent,
      memberMethod [] (.block [] [])])]⟩

/-- `class { m() { return <I a={value} />; } }`, with other statements before the last one. -/
def returning (before : List Stmt) (value : Expr) : Expr :=
  .classExpr .none (.mk none [] none
    [memberMethod [] (.block [] (before ++ [.return (some (attributed value))]))])

/-- `<repeat collection={class { m() { return <I a={value} />; } }} as={x}>{x}</repeat>;`. -/
def repeated (value : Expr) : Module :=
  ⟨[], [.expr (.element (.mk .none .none (.plain "repeat")
    [Build.attr .none "collection" (returning [] value), Build.attr .none "as" (.ident .none "x")]
    [.container (some (.ident .none "x"))] true))]⟩

/-- The slot is declared and read, and nothing fills it: the method has no body. -/
theorem compile_overloaded : ((overloaded keptArrow.value).compile {}).module.stmts
    = keptArrow.declaration :: (overloaded (Build.thisSlot .none keptArrow.slot)).stmts :=
  rfl

/-- The statement stands in the collection that is copied. -/
theorem compile_repeated : ((repeated keptArrow.value).compile {}).module.stmts
    = [keptArrow.declaration, .expr (ControlFlow.mapped .none
        (returning [keptArrow.initializer] (Build.thisSlot .none keptArrow.slot))
        (Build.arrow .none ["x"] (.ident .none "x")))] :=
  rfl

/-- **Slots that are never filled, or filled in several methods.** A slot is declared, and read
where the value stood, but the method has no body for the statement. And once a method has its
statement, `repeat` copies the collection that the method is in. -/
theorem compile_slot_not_filled_once :
    ((overloaded keptArrow.value).compile {}).module.stmts
        = keptArrow.declaration :: (overloaded (Build.thisSlot .none keptArrow.slot)).stmts
      ∧ ((repeated keptArrow.value).compile {}).module.stmts
        = [keptArrow.declaration, .expr (ControlFlow.mapped .none
            (returning [keptArrow.initializer] (Build.thisSlot .none keptArrow.slot))
            (Build.arrow .none ["x"] (.ident .none "x")))] :=
  ⟨compile_overloaded, compile_repeated⟩

end JsxDialect
