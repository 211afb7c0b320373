import JsxDialect.Proofs.Opening

/-!
# The walk keeps to a discipline

Every function of the walk leads from a state that keeps to the discipline to another one, and what
it returns has right places. The induction is on the syntax, with one lemma for each function of the
walk; what is to be said of functions, classes and elements is at hand.
-/

namespace JsxDialect

namespace Discipline

variable {c : LoweringSetting} {D : Discipline c.options}

/-! ## Blocks -/

/-- Places under one layer that is no function's. -/
theorem Layered.of {s : Lowering} {names : List String} {l : Layer} {ps : List Site}
    (hkind : l.kind.isFunction = false) (hlisted : l.listed = names) (hps : D.All s [] ps) :
    D.Layered s names (Site.under l ps) :=
  ⟨[], l, ps, rfl, hkind, hlisted, hps⟩

/-- A block: its scope has the names that its statements declare after the walk. -/
theorem Walks.block {xs : List Stmt} (h : D.Walks (Walk.stmts xs) Site.ofStmts) :
    D.Walks (Lower.inside .block (lexicalNames xs) (Walk.stmts xs))
      fun xs' => Site.under (Site.blockLayer xs') (Site.ofStmts xs') := by
  refine Walks.inside rfl fun s hs => ?_
  obtain ⟨ht, hl, hxs⟩ := h s hs
  exact ⟨ht, hl, .of rfl (Walk.stmts_lexicalNames c xs s) hxs⟩

/-- The statements of a body, without what each sees of the others, are from the source. -/
theorem fromSource_ofBodyStmts {isMethod : Bool} {all before xs : List Stmt}
    (h : D.FromSource (Site.ofBodyStmts isMethod all before xs)) :
    D.FromSource (Site.ofStmts xs) := by
  induction xs generalizing before with
  | nil => exact fun p hp => absurd hp List.not_mem_nil
  | cons x xs ih =>
    intro p hp
    rcases List.mem_append.mp hp with hp | hp
    · exact h.left.inside p hp
    · exact ih h.right p hp

/-- What stands in the body of a function is from the source. -/
theorem fromSource_inBody {isMethod : Bool} {b : Body}
    (h : D.FromSource (Site.ofBody isMethod b)) : D.FromSource (Site.inBody b) := by
  cases b with
  | absent | expr _ => exact h
  | block directives xs => exact fromSource_ofBodyStmts h

/-- So is what stands in the body of an arrow function. -/
theorem fromSource_inArrowBody {b : Body} (h : D.FromSource (Site.ofArrowBody b)) :
    D.FromSource (Site.inBody b) := by
  cases b with
  | absent | expr _ => exact h
  | block directives xs => exact h.inside

/-- A call of the base constructor that passes the parameters on. -/
theorem all_forward? {s : Lowering} (hs : D.At s) {x call : Stmt}
    (h : Walk.forward? x = some call) : D.All s [] (Site.ofStmt call) := by
  unfold Walk.forward? at h
  split at h
  · obtain rfl := Option.some.inj h
    have hprops : D.All s [] [Site.reference "props"] := .unmarked hs (by decide)
    have hcontext : D.All s [] [Site.reference "context"] := .unmarked hs (by decide)
    exact hprops.append hcontext
  · cases h

/-- The places in a parameter. -/
def ofParam : JsxDialect.Param → List Site
  | .mk decorators p => Site.ofExprs decorators ++ Site.ofPattern p

/-! ## The induction -/

mutual

/-- **The walk through an expression keeps to the discipline**, and what it gives has right places.
The parts are taken in order; at an element the rules come after the walk. -/
theorem walks_expr (e : Expr) (h : D.FromSource (Site.ofExpr e)) :
    D.Walks (Walk.expr e) Site.ofExpr := by
  cases e with
  | ident _ _ | «alias» _ _ _ => exact fun s hs => .pure hs (.source hs h)
  | number _ _ | string _ _ | bigint _ _ | regex _ _ | bool _ _ | null _ | this _ | super _
  | metaProperty _ _ _ | hole => exact .pure rfl
  | template _ _ es | array _ es | sequence _ es | importCall _ es =>
    exact (walks_exprs es h).map fun _ => rfl
  | tagged _ e _ es | call _ e es _ | new _ e es =>
    exact (walks_expr e h.left).map₂ (walks_exprs es h.right) fun _ _ => rfl
  | spread e | unary _ _ e | update _ _ _ e | privateIn _ _ e | member _ e _ _
  | privateMember _ e _ _ | chain _ e | paren _ e | await _ e | nonNull _ e =>
    exact (walks_expr e h).map fun _ => rfl
  | object _ ps => exact (walks_properties ps h).map fun _ => rfl
  | function _ f =>
    exact fun s hs => (walks_function f h.inside s hs).map fun _ _ _ _ hf =>
      all_under_ofFunction hf _
  | arrow _ f => exact (walks_arrow f h).map fun _ => rfl
  | classExpr _ k => exact (walks_cls k h).map fun _ => rfl
  | binary _ _ l r | logical _ _ l r | index _ l r _ =>
    exact (walks_expr l h.left).map₂ (walks_expr r h.right) fun _ _ => rfl
  | assign _ _ l r => exact (walks_pattern l h.left).map₂ (walks_expr r h.right) fun _ _ => rfl
  | conditional _ t e a =>
    exact (walks_expr t h.left).map₃ (walks_expr e h.right.left) (walks_expr a h.right.right)
      fun _ _ _ => rfl
  | yield _ _ e => exact (walks_optExpr e h).map fun _ => rfl
  | typed _ _ e type =>
    exact fun s hs => (walks_expr e h.left s hs).map fun _ _ ht _ he =>
      he.append (all_ofType ht type h.right)
  | element e =>
    refine fun s hs => (run_element e h s hs).bind fun t e' ht _ he => ?_
    obtain ⟨N, hN⟩ := he
    exact .lowerExpr ht hN
  | fragment _ cs =>
    exact fun s hs => (run_children cs h s hs).bind fun t _ ht _ hcs =>
      (Run.lowerChildren ht hcs).map fun _ _ _ _ hcs' => hcs'

theorem walks_exprs (es : List Expr) (h : D.FromSource (Site.ofExprs es)) :
    D.Walks (Walk.exprs es) Site.ofExprs := by
  cases es with
  | nil => exact .pure rfl
  | cons e es => exact (walks_expr e h.left).map₂ (walks_exprs es h.right) fun _ _ => rfl

theorem walks_optExpr (e : Option Expr) (h : D.FromSource (Site.ofOption e)) :
    D.Walks (Walk.optExpr e) Site.ofOption := by
  cases e with
  | none => exact .pure rfl
  | some e => exact (walks_expr e h).map fun _ => rfl

theorem walks_key (k : Key) (h : D.FromSource (Site.ofKey k)) :
    D.Walks (Walk.key k) Site.ofKey := by
  cases k with
  | computed e => exact (walks_expr e h).map fun _ => rfl
  | ident _ | string _ | number _ | bigint _ | privateName _ => exact .pure rfl

theorem walks_property (p : Property) (h : D.FromSource (Site.ofProperty p)) :
    D.Walks (Walk.property p) Site.ofProperty := by
  cases p with
  | field k e _ => exact (walks_key k h.left).map₂ (walks_expr e h.right) fun _ _ => rfl
  | method _ k f => exact (walks_key k h.left).map₂ (walks_function f h.right) fun _ _ => rfl
  | spread e => exact (walks_expr e h).map fun _ => rfl

theorem walks_properties (ps : List Property) (h : D.FromSource (Site.ofProperties ps)) :
    D.Walks (Walk.properties ps) Site.ofProperties := by
  cases ps with
  | nil => exact .pure rfl
  | cons p ps => exact (walks_property p h.left).map₂ (walks_properties ps h.right) fun _ _ => rfl

/-- An arrow function, whose scope owns nothing. -/
theorem walks_arrow (f : Func) (h : D.FromSource (Site.ofArrow f)) :
    D.Walks (Walk.func .arrow false false f) Site.ofArrow := by
  cases f with
  | mk name _ _ thisParam _ params rest type b =>
    have hinside : D.FromSource (Site.ofThisParam thisParam ++ (Site.ofParams params
        ++ (Site.ofRest rest ++ (Site.ofOptType type ++ Site.ofArrowBody b)))) :=
      h.right.right.inside
    exact .arrow (walks_params params (h.right.left.inside.append hinside.right.left))
      (walks_optPattern rest hinside.right.right.left)
      (walks_body b (fromSource_inArrowBody hinside.right.right.right.right)) hinside.left
      hinside.right.right.right.left

/-- A function: what is queued on it is put in front of its statements. -/
theorem walks_function (f : Func) {isMethod seesName givesParams : Bool}
    (h : D.FromSource (Site.ofFunction isMethod f)) :
    D.Walks (Walk.func (.function isMethod) seesName givesParams f) (Site.ofFunction isMethod) := by
  cases f with
  | mk name _ _ thisParam _ params rest type b =>
    have hinside : D.FromSource (Site.ofThisParam thisParam ++ (Site.ofParams params
        ++ (Site.ofRest rest ++ (Site.ofOptType type ++ Site.ofBody isMethod b)))) :=
      h.right.right.inside
    exact .function (walks_params params (h.right.left.inside.append hinside.right.left))
      (walks_optPattern rest hinside.right.right.left)
      (walks_body b (fromSource_inBody hinside.right.right.right.right)) hinside.left
      hinside.right.right.right.left

/-- A body, with parameters passed on in a constructor or not. -/
theorem walks_body (b : Body) {givesParams : Bool} (h : D.FromSource (Site.inBody b)) :
    D.Walks (Walk.body givesParams b) Site.inBody := by
  cases b with
  | absent => exact .pure rfl
  | expr e => exact (walks_expr e h).map fun _ => rfl
  | block _ xs =>
    cases givesParams with
    | true => exact (walks_forwarding xs h).map fun _ => rfl
    | false => exact (walks_stmts xs h).map fun _ => rfl

/-- The statements of a constructor that gets parameters. -/
theorem walks_forwarding (xs : List Stmt) (h : D.FromSource (Site.ofStmts xs)) :
    D.Walks (Walk.forwarding xs) Site.ofStmts := by
  cases xs with
  | nil => exact .pure rfl
  | cons x xs =>
    intro s hs
    unfold Walk.forwarding
    split
    · rename_i call hcall
      exact (walks_forwarding xs h.right s hs).map fun t _ ht _ hxs =>
        (all_forward? ht hcall).append hxs
    · exact (walks_stmt x h.left).map₂ (walks_forwarding xs h.right) (fun _ _ => rfl) s hs

/-- Parameters: the places have all decorators before all patterns. -/
theorem walks_params (ps : List JsxDialect.Param)
    (h : D.FromSource (Site.ofDecorators ps ++ Site.ofParams ps)) :
    D.Walks (Walk.params ps) fun ps' => Site.ofDecorators ps' ++ Site.ofParams ps' := by
  match ps with
  | [] => exact .pure rfl
  | .mk decorators p :: ps =>
    have hdecorators : D.FromSource (Site.ofExprs decorators ++ Site.ofDecorators ps) := h.left
    have hparams : D.FromSource (Site.ofPattern p ++ Site.ofParams ps) := h.right
    have hparam : D.Walks (Walk.param (.mk decorators p)) ofParam :=
      (walks_exprs decorators hdecorators.left).map₂ (walks_pattern p hparams.left) fun _ _ => rfl
    refine fun s hs => (hparam s hs).bind fun t p' ht _ hp' => ?_
    refine (walks_params ps (hdecorators.right.append hparams.right) t ht).map
      fun u ps' _ hl hps' => ?_
    cases p' with
    | mk decorators' p' =>
      have hp' : D.All u [] (Site.ofExprs decorators' ++ Site.ofPattern p') := hp'.mono hl
      exact (hp'.left.append hps'.left).append (hp'.right.append hps'.right)

theorem walks_pattern (p : Pattern) (h : D.FromSource (Site.ofPattern p)) :
    D.Walks (Walk.pattern p) Site.ofPattern := by
  cases p with
  | bind x => exact fun s hs => .pure hs (.binding x)
  | target e => exact (walks_expr e h).map fun _ => rfl
  | hole => exact .pure rfl
  | object ps rest =>
    exact (walks_patternProperties ps h.left).map₂ (walks_optPattern rest h.right) fun _ _ => rfl
  | array ps rest =>
    exact (walks_patterns ps h.left).map₂ (walks_optPattern rest h.right) fun _ _ => rfl
  | withDefault p e => exact (walks_pattern p h.left).map₂ (walks_expr e h.right) fun _ _ => rfl
  | typed p _ type =>
    exact fun s hs => (walks_pattern p h.left s hs).map fun _ _ ht _ hp =>
      hp.append (all_ofOptType ht h.right)

theorem walks_patterns (ps : List Pattern) (h : D.FromSource (Site.ofPatterns ps)) :
    D.Walks (Walk.patterns ps) Site.ofPatterns := by
  cases ps with
  | nil => exact .pure rfl
  | cons p ps => exact (walks_pattern p h.left).map₂ (walks_patterns ps h.right) fun _ _ => rfl

theorem walks_optPattern (p : Option Pattern) (h : D.FromSource (Site.ofRest p)) :
    D.Walks (Walk.optPattern p) Site.ofRest := by
  cases p with
  | none => exact .pure rfl
  | some p => exact (walks_pattern p h).map fun _ => rfl

theorem walks_patternProperties (ps : List PatternProperty)
    (h : D.FromSource (Site.ofPatternProperties ps)) :
    D.Walks (Walk.patternProperties ps) Site.ofPatternProperties := by
  match ps with
  | [] => exact .pure rfl
  | .mk k p _ :: ps =>
    exact (walks_key k h.left).map₃ (walks_pattern p h.right.left)
      (walks_patternProperties ps h.right.right) fun _ _ _ => rfl

/-- The walk through a statement, with the scopes that it opens. -/
theorem walks_stmt (x : Stmt) (h : D.FromSource (Site.ofStmt x)) :
    D.Walks (Walk.stmt x) Site.ofStmt := by
  cases x with
  | expr e => exact (walks_expr e h).map fun _ => rfl
  | varDecl _ ds => exact (walks_declarators ds h).map fun _ => rfl
  | function f => exact (walks_function f h).map fun _ => rfl
  | classDecl k => exact (walks_cls k h).map fun _ => rfl
  | «return» e => exact (walks_optExpr e h).map fun _ => rfl
  | throw e => exact (walks_expr e h).map fun _ => rfl
  | «if» t x a =>
    exact (walks_expr t h.left).map₃ (walks_stmt x h.right.left) (walks_optStmt a h.right.right)
      fun _ _ _ => rfl
  | «for» init t u x =>
    refine Walks.inside rfl fun s hs => ?_
    obtain ⟨h₁, l₁, hinit⟩ := walks_forHead init h.inside.left s hs
    obtain ⟨h₂, l₂, ht⟩ := walks_optExpr t h.inside.right.left _ h₁
    obtain ⟨h₃, l₃, hu⟩ := walks_optExpr u h.inside.right.right.left _ h₂
    obtain ⟨h₄, l₄, hx⟩ := walks_stmt x h.inside.right.right.right _ h₃
    refine ⟨h₄, ((l₁.trans l₂).trans l₃).trans l₄, .of rfl (Walk.forHead_lexicalNames c init s) ?_⟩
    exact (((hinit.mono l₂).mono l₃).mono l₄).append (((ht.mono l₃).mono l₄).append
      ((hu.mono l₄).append hx))
  | forIn left r x | forOf _ left r x =>
    refine Walks.inside rfl fun s hs => ?_
    obtain ⟨h₁, l₁, hleft⟩ := walks_forHead left h.inside.left s hs
    obtain ⟨h₂, l₂, hr⟩ := walks_expr r h.inside.right.left _ h₁
    obtain ⟨h₃, l₃, hx⟩ := walks_stmt x h.inside.right.right _ h₂
    refine ⟨h₃, (l₁.trans l₂).trans l₃, .of rfl (Walk.forHead_lexicalNames c left s) ?_⟩
    exact ((hleft.mono l₂).mono l₃).append ((hr.mono l₃).append hx)
  | «while» t x => exact (walks_expr t h.left).map₂ (walks_stmt x h.right) fun _ _ => rfl
  | doWhile x t => exact (walks_stmt x h.left).map₂ (walks_expr t h.right) fun _ _ => rfl
  | block xs => exact (Walks.block (walks_stmts xs h.inside)).map fun _ => rfl
  | switch d cases =>
    refine Walks.inside rfl fun s hs => ?_
    obtain ⟨h₁, l₁, hd⟩ := walks_expr d h.left s hs
    obtain ⟨h₂, l₂, hcases⟩ := walks_switchCases cases h.right.inside _ h₁
    exact ⟨h₂, l₁.trans l₂, _, _, _, rfl, rfl, Walk.switchCases_names c cases _,
      (hd.mono l₂).append hcases⟩
  | «try» xs handler finalizer =>
    exact (Walks.block (walks_stmts xs h.left.inside)).map₃ (walks_optCatch handler h.right.left)
      (walks_optBlock finalizer h.right.right) fun _ _ _ => rfl
  | «break» _ | «continue» _ | empty | debugger | exportAll _ _ => exact .pure rfl
  | labeled _ x => exact (walks_stmt x h).map fun _ => rfl
  | «import» items _ =>
    refine fun s hs => .pure hs fun p hp => ?_
    obtain ⟨item, -, rfl⟩ := List.mem_map.mp hp
    exact D.ok_binding
  | exportNamed items source =>
    refine fun s hs => .pure hs fun p hp => ?_
    cases source with
    | some _ => exact absurd hp List.not_mem_nil
    | none =>
      obtain ⟨item, -, rfl⟩ := List.mem_map.mp hp
      exact D.ok_global (D.source_global hs.inv (h _ hp))
  | exportDecl x => exact (walks_stmt x h).map fun _ => rfl
  | exportDefaultFunction f => exact (walks_function f h).map fun _ => rfl
  | exportDefaultClass k => exact (walks_cls k h).map fun _ => rfl
  | exportDefault e => exact (walks_expr e h).map fun _ => rfl

/-- The walk through several statements. -/
theorem walks_stmts (xs : List Stmt) (h : D.FromSource (Site.ofStmts xs)) :
    D.Walks (Walk.stmts xs) Site.ofStmts := by
  cases xs with
  | nil => exact .pure rfl
  | cons x xs => exact (walks_stmt x h.left).map₂ (walks_stmts xs h.right) fun _ _ => rfl

theorem walks_optStmt (x : Option Stmt) (h : D.FromSource (Site.ofAlternate x)) :
    D.Walks (Walk.optStmt x) Site.ofAlternate := by
  cases x with
  | none => exact .pure rfl
  | some x => exact (walks_stmt x h).map fun _ => rfl

theorem walks_optBlock (xs : Option (List Stmt)) (h : D.FromSource (Site.ofFinalizer xs)) :
    D.Walks (Walk.optBlock xs) Site.ofFinalizer := by
  cases xs with
  | none => exact .pure rfl
  | some xs => exact (Walks.block (walks_stmts xs h.inside)).map fun _ => rfl

/-- A handler: a scope for its parameter, and one for its statements. -/
theorem walks_optCatch (handler : Option Catch) (h : D.FromSource (Site.ofHandler handler)) :
    D.Walks (Walk.optCatch handler) Site.ofHandler := by
  match handler with
  | none => exact .pure rfl
  | some (.mk param xs) =>
    refine Walks.inside rfl fun s hs => ?_
    obtain ⟨h₁, l₁, hparam⟩ := walks_optPattern param h.inside.left s hs
    obtain ⟨h₂, l₂, hxs⟩ := Walks.block (walks_stmts xs h.inside.right.inside) _ h₁
    exact ⟨h₂, l₁.trans l₂, .of rfl (Walk.optPattern_names c param s) ((hparam.mono l₂).append hxs)⟩

theorem walks_declarators (ds : List Declarator) (h : D.FromSource (Site.ofDeclarators ds)) :
    D.Walks (Walk.declarators ds) Site.ofDeclarators := by
  match ds with
  | [] => exact .pure rfl
  | .mk p e :: ds =>
    exact (walks_pattern p h.left).map₃ (walks_optExpr e h.right.left)
      (walks_declarators ds h.right.right) fun _ _ _ => rfl

theorem walks_forHead (head : ForHead) (h : D.FromSource (Site.ofHead head)) :
    D.Walks (Walk.forHead head) Site.ofHead := by
  cases head with
  | absent => exact .pure rfl
  | decl _ ds => exact (walks_declarators ds h).map fun _ => rfl
  | expr e => exact (walks_expr e h).map fun _ => rfl
  | target p => exact (walks_pattern p h).map fun _ => rfl

theorem walks_switchCases (cases : List SwitchCase) (h : D.FromSource (Site.ofCases cases)) :
    D.Walks (Walk.switchCases cases) Site.ofCases := by
  match cases with
  | [] => exact .pure rfl
  | .mk t xs :: cases =>
    exact (walks_optExpr t h.left).map₃ (walks_stmts xs h.right.left)
      (walks_switchCases cases h.right.right) fun _ _ _ => rfl

/-- A class, between entering and leaving it. -/
theorem walks_cls (k : Class) {isExpr : Bool} (h : D.FromSource (Site.ofClass k)) :
    D.Walks (Walk.cls isExpr k) Site.ofClass := by
  cases k with
  | mk name decorators superClass ms =>
    have hinside : D.FromSource (Site.ofOption superClass ++ Site.ofMembers ms) :=
      h.right.right.inside
    intro s hs
    refine (Run.enter hs isExpr _).bind fun s₁ plan h₁ _ hplan => ?_
    refine (walks_exprs decorators h.left s₁ h₁).bind fun s₂ ds h₂ l₂ hds => ?_
    refine (walks_optExpr superClass hinside.left s₂ h₂).bind fun s₃ base h₃ l₃ hbase => ?_
    refine (walks_members ms hinside.right s₃ h₃).bind fun s₄ ms' h₄ l₄ hms => ?_
    refine (Run.aside h₄ rfl rfl).map fun s₅ _ _ l₅ _ => ?_
    have hlater := (l₃.trans l₄).trans l₅
    refine All.append (all_renameDecorators (hplan.1.mono (l₂.trans hlater)) (hds.mono hlater)) ?_
    refine (All.ofName name).append (All.under rfl (.inr fun x hx => absurd hx List.not_mem_nil) ?_)
    exact (all_orElse (hbase.mono (l₄.trans l₅)) (hplan.2.mono (l₂.trans hlater))).append
      (hms.mono l₅)

/-- The members of a class. -/
theorem walks_members (ms : List Member) {givesParams : Bool}
    (h : D.FromSource (Site.ofMembers ms)) :
    D.Walks (Walk.members givesParams ms) Site.ofMembers := by
  match ms with
  | [] => exact .pure rfl
  | .method decorators isStatic kind k f :: ms =>
    intro s hs
    refine (walks_exprs decorators h.left s hs).bind fun s₁ _ h₁ _ hds => ?_
    refine (walks_key k h.right.left s₁ h₁).bind fun s₂ _ h₂ l₂ hk => ?_
    refine (walks_function f h.right.right.left s₂ h₂).bind fun s₃ _ h₃ l₃ hf => ?_
    refine (walks_members ms h.right.right.right s₃ h₃).map fun s₄ _ _ l₄ hms => ?_
    exact (hds.mono ((l₂.trans l₃).trans l₄)).append ((hk.mono (l₃.trans l₄)).append
      ((hf.mono l₄).append hms))
  | .field decorators isStatic k _ type value :: ms =>
    intro s hs
    refine (walks_exprs decorators h.left s hs).bind fun s₁ _ h₁ _ hds => ?_
    refine (walks_key k h.right.left s₁ h₁).bind fun s₂ _ h₂ l₂ hk => ?_
    refine (walks_optExpr value h.right.right.right.left.inside s₂ h₂).bind fun s₃ _ h₃ l₃ hv => ?_
    refine (walks_members ms h.right.right.right.right s₃ h₃).map fun s₄ _ h₄ l₄ hms => ?_
    have hvalue := (hv.mono l₄).under (l := Site.valueLayer) rfl
      (.inr fun x hx => absurd hx List.not_mem_nil)
    exact (hds.mono ((l₂.trans l₃).trans l₄)).append ((hk.mono (l₃.trans l₄)).append
      ((all_ofOptType h₄ h.right.right.left).append (hvalue.append hms)))
  | .staticBlock xs :: ms =>
    intro s hs
    refine (walks_stmts xs h.left.inside s hs).bind fun s₁ _ h₁ _ hxs => ?_
    refine (walks_members ms h.right s₁ h₁).map fun s₂ _ _ l₂ hms => ?_
    exact ((hxs.mono l₂).under rfl (.inr fun x hx => absurd hx List.not_mem_nil)).append hms

/-- An element: after its rules it is still to be put under the names that it binds. -/
theorem run_element (e : Element) (h : D.FromSource (Site.ofElement e)) (s : Lowering)
    (hs : D.At s) : D.Run s (Walk.element e) fun t e' => ∃ N, D.Lowered t [] N e' := by
  cases e with
  | mk span openSpan name as cs closed =>
    have hinside : D.FromSource (Site.ofElementName name
        ++ (Site.ofAttrs as ++ Site.ofChildren cs)) := fun p hp => h p (List.mem_cons_of_mem _ hp)
    have hself := h ⟨[], .element (.mk span openSpan name as cs closed)⟩ List.mem_cons_self
    exact .walkElement hs hself hinside.left (walks_attrs as hinside.right.left)
      (run_children cs hinside.right.right)

/-- The walk through attributes. -/
theorem walks_attrs (as : List Attr) (h : D.FromSource (Site.ofAttrs as)) :
    D.Walks (Walk.attrs as) Site.ofAttrs := by
  match as with
  | [] => exact .pure rfl
  | .named span name value :: as =>
    exact (walks_attrValue value h.left).map₂ (walks_attrs as h.right) fun _ _ => rfl
  | .spread span e :: as =>
    exact (walks_expr e h.left).map₂ (walks_attrs as h.right) fun _ _ => rfl

theorem walks_attrValue (value : AttrValue) (h : D.FromSource (Site.ofAttrValue value)) :
    D.Walks (Walk.attrValue value) Site.ofAttrValue := by
  cases value with
  | absent | string _ => exact .pure rfl
  | container _ e => exact (walks_optExpr e h).map fun _ => rfl
  | element e =>
    refine fun s hs => (run_element e h s hs).bind fun t e' ht _ he => ?_
    obtain ⟨N, hN⟩ := he
    exact .lowerValue ht hN
  | fragment _ cs =>
    exact fun s hs => (run_children cs h s hs).bind fun t _ ht _ hcs =>
      (Run.lowerChildren ht hcs).map fun _ _ _ _ hcs' => hcs'

/-- Children, before the rule for them. -/
theorem run_children (cs : List Child) (h : D.FromSource (Site.ofChildren cs)) (s : Lowering)
    (hs : D.At s) :
    D.Run s (Walk.children cs) fun t cs' => ∀ child ∈ cs', D.RawChild t [] child := by
  cases cs with
  | nil => exact .pure hs fun _ hchild => absurd hchild List.not_mem_nil
  | cons child cs =>
    refine (run_child child h.left s hs).bind fun t child' ht _ hchild => ?_
    refine (run_children cs h.right t ht).map fun u cs' _ hl hcs x hx => ?_
    rcases List.mem_cons.mp hx with rfl | hx
    · exact hchild.mono hl
    · exact hcs x hx

/-- A child: an element is still to be put under the names that it binds. -/
theorem run_child (child : Child) (h : D.FromSource (Site.ofChild child)) (s : Lowering)
    (hs : D.At s) : D.Run s (Walk.child child) fun t child' => D.RawChild t [] child' := by
  cases child with
  | text _ => exact .pure hs All.nil
  | element e => exact (run_element e h s hs).map fun _ _ _ _ he => he
  | fragment _ cs =>
    exact (run_children cs h s hs).bind fun t _ ht _ hcs =>
      (Run.lowerChildren ht hcs).map fun _ _ _ _ hcs' => hcs'
  | container e => exact (walks_optExpr e h s hs).map fun _ _ _ _ he => he
  | spread e => exact (walks_expr e h s hs).map fun _ _ _ _ he => he

end

end Discipline

end JsxDialect
