import JsxDialect.Proofs.Capture
import JsxDialect.Proofs.Component
import JsxDialect.Proofs.FunctionNames
import JsxDialect.Proofs.Hidden
import JsxDialect.Proofs.KnownElements

/-!
# Names that the compiler introduces

Names of the dialect become names of the language: the binders of a `repeat` are the parameters of a
function, the first binder of a `using` is a constant, and the constructor of a component is given
parameters.

The binders of a `repeat` are read twice, when the scope of its children is opened and when the
parameters are made, and both readings give the same names. The other two put code under a name that
it was not under before. What a `using` names is declared around the value, too, so that the value
can no longer refer to another declaration of the name; and the body of a constructor can no longer
refer to a `props` or `context` outside of the class. `Layer.depth?` tells which of the layers
around a place declares a name.
-/

namespace JsxDialect

/-! ## Repetitions -/

namespace ControlFlow

/-- The reports of binders of a `for` attribute that are no identifiers. -/
def rejectedBinders (binders : List Expr) : List Diagnostic :=
  (binders.filter fun b => (binderName? b).isNone).map fun b => ⟨.repeatBinder, b.inner.span⟩

theorem repeatParams_eq (es : List Expr) (c : LoweringSetting) (s : Lowering) :
    repeatParams es c s = (es.filterMap binderName?,
      { s with diagnostics := s.diagnostics ++ rejectedBinders es }) := by
  induction es generalizing s with
  | nil =>
    change (([] : List String), s) = ([], { s with diagnostics := s.diagnostics ++ [] })
    rw [List.append_nil]
  | cons e es ih =>
    rw [repeatParams]
    cases hname : binderName? e with
    | some name =>
      change (name :: (repeatParams es c s).1, (repeatParams es c s).2) = _
      rw [ih, List.filterMap_cons_some hname, rejectedBinders, rejectedBinders,
        List.filter_cons_of_neg (by simp [hname])]
    | none =>
      change repeatParams es c
        { s with diagnostics := s.diagnostics ++ [⟨.repeatBinder, e.inner.span⟩] } = _
      rw [ih, List.filterMap_cons_none hname, rejectedBinders, rejectedBinders,
        List.filter_cons_of_pos (by simp [hname]), List.map_cons, List.append_assoc]
      rfl

end ControlFlow

namespace ElementRule

/-- The names that an `as` attribute binds. -/
def asNames (attrs : List Attr) : List String :=
  (((Attrs.get? attrs "as").bind (·.2.expr?)).map binderNames).getD []

/-- The names that are bound for what is inside a `repeat` with a `for` attribute. -/
theorem boundNames_repeat {name : ElementName} {attrs : List Attr} {span : Span} {value : AttrValue}
    {e : Expr} (htag : ControlTag.ofText? name.text = some .repeat)
    (hget : Attrs.get? attrs "for" = some (span, value)) (hvalue : value.expr? = some e) :
    boundNames name attrs = asNames attrs ++ forNames e := by
  simp [boundNames, asNames, htag, hget, hvalue]

end ElementRule

/-- **The binders of a `repeat` are the parameters.** From a `for` attribute that has binders and a
collection, the names that are bound for the children are kept as parameters, in order, and every
other entry is reported. If the attribute is what the walk has made of another one, in which no
binder was an element, these are the names that the scope of the children was opened with. -/
theorem repeatHead_params_eq_boundNames (c : LoweringSetting) (s : Lowering) (e : Element)
    (span : Span) (value : AttrValue) (binders : List Expr) (collection : Expr)
    (hget : Attrs.get? e.attrs "for" = some (span, value))
    (hsplit : splitFor? (value.toExpr span) = some (binders, collection)) :
    ControlFlow.repeatHead e c s = ((forNames (value.toExpr span), collection),
        { s with diagnostics := s.diagnostics ++ ControlFlow.rejectedBinders binders })
      ∧ (e.control? = some .repeat →
        ElementRule.boundNames e.name e.attrs
          = ElementRule.asNames e.attrs ++ forNames (value.toExpr span))
      ∧ ∀ as t, e.control? = some .repeat → e.attrs = (Walk.attrs as c t).1 →
        (∀ old found, Attrs.get? as "for" = some (span, old) →
          splitFor? (old.toExpr span) = some found → ∀ b ∈ found.1, b.isMarkup = false) →
        ElementRule.boundNames e.name as
          = ElementRule.asNames as ++ forNames (value.toExpr span) := by
  refine ⟨?_, fun htag => ?_, fun as t htag has hplain => ?_⟩
  · rw [ControlFlow.repeatHead, hget]
    simp only [hsplit]
    change (((ControlFlow.repeatParams binders c s).1, collection),
      (ControlFlow.repeatParams binders c s).2) = _
    rw [ControlFlow.repeatParams_eq, filterMap_splitFor hsplit]
  · exact ElementRule.boundNames_repeat htag hget (expr?_of_splitFor? hsplit)
  · -- The attribute comes from one of the same place, which the walk leaves to be a `for` list.
    rw [has] at hget
    obtain ⟨old, u, hold, rfl⟩ := Walk.attrs_get? c hget
    obtain ⟨x, hx, hnames⟩ := Walk.attrValue_splitFor c hsplit fun found => hplain old found hold
    rw [ElementRule.boundNames_repeat htag hold hx, ← hnames, filterMap_splitFor hsplit]

/-- `<repeat for={(a, 1, (b, (i)) in xs!)}></repeat>`. -/
def nestedRepeat : Element :=
  .mk .none .none (.plain "repeat") [.named .none (.plain "for") (.container .none (some
    (.paren .none (.sequence .none [.ident .none "a", .number .none (.ofNat 1),
      .binary .none .isIn
        (.paren .none (.sequence .none [.ident .none "b", .paren .none (.ident .none "i")]))
        (.nonNull .none (.ident .none "xs"))]))))] [] true

theorem repeatHead_params_eq_boundNames_nested :
    (ControlFlow.repeatHead nestedRepeat ⟨{}, []⟩ (.initial ⟨[], []⟩)).1.1 = ["a", "b", "i"]
      ∧ (ControlFlow.repeatHead nestedRepeat ⟨{}, []⟩ (.initial ⟨[], []⟩)).2.diagnostics
        = [⟨.repeatBinder, .none⟩]
      ∧ ElementRule.boundNames nestedRepeat.name nestedRepeat.attrs = ["a", "b", "i"] := by
  obtain ⟨hhead, -, hbound⟩ := repeatHead_params_eq_boundNames ⟨{}, []⟩ (.initial ⟨[], []⟩)
    nestedRepeat _ _ _ _ rfl rfl
  refine ⟨congrArg (·.1.1) hhead, congrArg (·.2.diagnostics) hhead, ?_⟩
  refine hbound nestedRepeat.attrs (.initial ⟨[], []⟩) (by decide) rfl ?_
  intro old found hold hfound
  obtain rfl := (Prod.mk.inj (Option.some.inj hold)).2
  obtain rfl := Option.some.inj hfound
  decide

/-! ## Values with a name -/

/-- Another attribute is found whether or not one has been erased. -/
theorem Attrs.get?_erase_of_ne {n m : String} (h : n ≠ m) (as : List Attr) :
    get? (erase as n) m = get? as m := by
  induction as with
  | nil => rfl
  | cons a as ih =>
    cases a with
    | spread _ _ => exact ih
    | named span name value =>
      simp only [erase, get?]
      by_cases hn : name.text = n
      · simp [hn, h]
      · simp [hn, get?, ih]

namespace ControlFlow

/-- The layers around the value of a `using`: the body of the function that it becomes, in which the
name is declared, and the parameters, of which there are none. -/
def usingLayers (name : String) : List Layer :=
  [⟨.plain, [name], [name]⟩, ⟨.plain, [], []⟩]

/-- **A `using` names a value**: the value of its `value` attribute, by the first binder of its `as`
attribute. -/
structure NamesValue (e : Element) (value : Expr) (name : String) : Prop where
  value : ∃ span v, Attrs.get? e.attrs "value" = some (span, v) ∧ v.toExpr span = value
  name : ∃ span list binders names, Attrs.get? e.attrs "as" = some (span, list)
    ∧ list.expr? = some binders ∧ binderNames binders = name :: names

variable {e : Element} {value : Expr} {name : String}

/-- What a `using` becomes. -/
theorem lowerUsing_eq (h : NamesValue e value name) (c : LoweringSetting) (s : Lowering) :
    (lowerUsing e c s).1 = Build.invoked e.span [Build.declare .const name value,
      .return (some (.conditional e.span (.ident e.span name) e.childrenExpr (.null e.span)))] := by
  obtain ⟨span, openSpan, tag, attrs, children, closed⟩ := e
  obtain ⟨⟨valueSpan, v, hvalue, rfl⟩, asSpan, list, binders, names, has, hlist, hnames⟩ := h
  have hrest : Attrs.get? (Attrs.erase attrs "value") "as" = some (asSpan, list) := by
    rw [Attrs.get?_erase_of_ne (by decide)]
    exact has
  have hrequired : required "using" "value" (.mk span openSpan tag attrs children closed)
      = pure (v.toExpr valueSpan,
        .mk span openSpan tag (Attrs.erase attrs "value") children closed) := by
    rw [required, hvalue]
    rfl
  have hparams : binderParams asSpan list c s
      = (name :: names, (binderParams asSpan list c s).2) := by
    refine Prod.ext ?_ rfl
    rw [binderParams, hlist]
    exact hnames
  unfold lowerUsing
  rw [hrequired, pure_bind]
  simp only [Element.attrs, hrest]
  rw [Lower.bind_eq hparams]
  rfl

/-- The places of the value are inside the function, under the constant. -/
theorem around_usingLayers_mem {span : Span} {result : Expr} {p : Site}
    (hp : p ∈ Site.ofExpr value) :
    p.around (usingLayers name) ∈ Site.ofExpr
      (Build.invoked span [Build.declare .const name value, .return (some result)]) := by
  have hstmts : p ∈ Site.ofStmts [Build.declare .const name value, .return (some result)] :=
    List.mem_append_left _ (List.mem_append_right _ (List.mem_append_left _ hp))
  have hbody : p.around [⟨.plain, [name], [name]⟩] ∈ Site.ofArrowBody
      (.block [] [Build.declare .const name value, .return (some result)]) :=
    List.mem_map_of_mem hstmts
  have harrow : (p.around [⟨.plain, [name], [name]⟩]).around [⟨.plain, [], []⟩] ∈ Site.ofArrow
      (.mk none false false none span [] none none
        (.block [] [Build.declare .const name value, .return (some result)])) :=
    List.mem_map_of_mem hbody
  have haround : (p.around [⟨.plain, [name], [name]⟩]).around [⟨.plain, [], []⟩]
      = p.around (usingLayers name) := by
    simp [Site.around, usingLayers]
  exact List.mem_append_left _ (haround ▸ harrow)

end ControlFlow

theorem Site.free?_eq_some {p : Site} {x : String} :
    p.free? = some x ↔ p.part = .reference x ∧ ∀ l ∈ p.layers, x ∉ l.declared := by
  have hpart : p.part.reference? = some x ↔ p.part = .reference x := by
    cases p.part <;> simp [Part.reference?]
  rw [free?_eq, undeclared?, Option.filter_eq_some_iff, hpart]
  simp

/-- A name that is free at a place is resolved around the place. -/
theorem Site.resolve_of_free {p : Site} {x : String} (h : p.free? = some x) (outer : List Layer) :
    Layer.resolve x (p.layers ++ outer) = Layer.resolve x outer :=
  (Layer.resolve_append_iff x _ _).mpr (free?_eq_some.mp h).2

/-! ## Constructors -/

/-- The statement that stands for a statement of a constructor that is given parameters. -/
def Stmt.canonical (s : Stmt) : Stmt :=
  (Walk.forward? s).getD s

/-- The body of a constructor that is given parameters. -/
def Body.canonical : Body → Body
  | .block directives stmts => .block directives (stmts.map Stmt.canonical)
  | b => b

/-- A constructor with the parameters of a component, which it passes on. -/
def Func.canonical : Func → Func
  | .mk name isAsync isGenerator thisParam span params rest type body =>
    .mk name isAsync isGenerator thisParam span
      (ComponentClass.canonicalParams.map Build.param ++ params) rest type body.canonical

/-- The members of a class, of which the first constructor has the parameters of a component. -/
def canonicalMembers : List Member → List Member
  | [] => []
  | .method decorators isStatic kind k f :: ms =>
    if kind == .constructor then .method decorators isStatic kind k f.canonical :: ms
    else .method decorators isStatic kind k f :: canonicalMembers ms
  | .field decorators isStatic k optional type value :: ms =>
    .field decorators isStatic k optional type value :: canonicalMembers ms
  | .staticBlock stmts :: ms => .staticBlock stmts :: canonicalMembers ms

/-- The members of a class. -/
def Class.members : Class → List Member
  | .mk _ _ _ members => members

/-- A class whose constructor has the parameters of a component. -/
def Class.canonical : Class → Class
  | .mk name decorators superClass members =>
    .mk name decorators superClass (canonicalMembers members)

/-- A call of the base constructor declares nothing, and neither does the one in its place. -/
theorem flatMap_canonical {α : Type} {g : Stmt → List α} (hexpr : ∀ e, g (.expr e) = [])
    (ss : List Stmt) : (ss.map Stmt.canonical).flatMap g = ss.flatMap g := by
  have hone : ∀ s, g (Stmt.canonical s) = g s := fun s => by
    unfold Stmt.canonical Walk.forward?
    split
    · rw [Option.getD_some, ComponentClass.forwardedCall, hexpr, hexpr]
    · rfl
  rw [List.flatMap_map]
  exact congrArg List.flatten (List.map_congr_left fun s _ => hone s)

theorem varPatterns_canonical (ss : List Stmt) :
    varPatterns (ss.map Stmt.canonical) = varPatterns ss := by
  rw [varPatterns_eq_flatMap, varPatterns_eq_flatMap]
  exact flatMap_canonical (fun _ => rfl) ss

theorem Body.names_canonical (b : Body) : b.canonical.names = b.names := by
  cases b with
  | absent | expr _ => rfl
  | block directives ss =>
    have hlexical : lexicalNames (ss.map Stmt.canonical) = lexicalNames ss :=
      flatMap_canonical (fun _ => rfl) ss
    change varNames (ss.map Stmt.canonical) ++ lexicalNames (ss.map Stmt.canonical) = _
    rw [varNames, varPatterns_canonical, hlexical]
    rfl

namespace Walk

/-- The walk leaves a call that passes the parameters on as it is. -/
theorem forwarding_eq_stmts (ss : List Stmt) : forwarding ss = stmts (ss.map Stmt.canonical) := by
  induction ss with
  | nil => rfl
  | cons s ss ih =>
    rw [forwarding, List.map_cons, stmts, ← ih, Stmt.canonical]
    cases hcall : forward? s with
    | none => rfl
    | some call =>
      have hstmt : stmt call = pure call := by
        unfold forward? at hcall
        split at hcall
        · obtain rfl := Option.some.inj hcall
          rfl
        · cases hcall
      rw [Option.getD_some, hstmt, pure_bind]

theorem body_canonical (b : Body) : body true b = body false b.canonical := by
  cases b with
  | absent | expr _ => rfl
  | block directives ss =>
    change (forwarding ss >>= fun ss => pure (Body.block directives ss)) = _
    rw [forwarding_eq_stmts]
    rfl

/-- **To give a constructor parameters is to walk the constructor that has them.** -/
theorem func_canonical (scope : ScopeKind) (seesName : Bool) (f : Func) :
    func scope seesName true f = func scope seesName false f.canonical := by
  obtain ⟨name, isAsync, isGenerator, thisParam, span, ps, rest, type, b⟩ := f
  change (Lower.openScope scope (_ ++ b.names) >>= fun _ => params ps >>= fun _ =>
    optPattern rest >>= fun _ => body true b >>= _) = _
  rw [body_canonical, ← Body.names_canonical b]
  rfl

/-- Of the methods of a class, only the first constructor may get parameters. -/
theorem members_method (givesParams isStatic : Bool) (decorators : List Expr) (kind : MethodKind)
    (k : Key) (f : Func) (ms : List Member) :
    members givesParams (.method decorators isStatic kind k f :: ms) = (do
      let decorators ← exprs decorators
      let k ← key k
      let f ← func (methodScope isStatic kind) true (givesParams && kind == .constructor) f
      let ms ← members (givesParams && !(kind == .constructor)) ms
      return .method decorators isStatic kind k f :: ms) := rfl

theorem members_canonical (ms : List Member) :
    members true ms = members false (canonicalMembers ms) := by
  induction ms with
  | nil => rfl
  | cons m ms ih =>
    cases m with
    | method decorators isStatic kind k f =>
      cases hkind : kind == .constructor with
      | true =>
        rw [canonicalMembers, if_pos hkind, members_method, members_method]
        simp only [hkind, Bool.true_and, Bool.false_and, Bool.not_true, func_canonical]
      | false =>
        rw [canonicalMembers, if_neg (by simp [hkind]), members_method, members_method]
        simp only [hkind, Bool.true_and, Bool.false_and, Bool.not_false, ih]
    | field decorators isStatic k optional type value =>
      exact congrArg (fun rest => do
        let m := Member.field (← exprs decorators) isStatic (← key k) optional type
          (← optExpr value)
        return m :: (← rest)) ih
    | staticBlock ss =>
      exact congrArg (fun rest => do return Member.staticBlock (← stmts ss) :: (← rest)) ih

/-- A class after it has been entered. -/
def clsAfter (plan : ComponentClass.ClassPlan) : Class → Lower Class
  | .mk name decorators superClass ms => do
    let decorators ← exprs decorators
    let superClass ← optExpr superClass
    let ms ← members plan.givesParams ms
    ComponentClass.leave
    return .mk name (ComponentClass.renameDecorators plan.renamings decorators)
      (superClass.orElse fun _ => plan.newSuper) ms

theorem cls_eq_clsAfter (isExpr : Bool) (k : Class) :
    cls isExpr k = ComponentClass.enter isExpr k >>= fun plan => clsAfter plan k := by
  cases k
  rfl

end Walk

namespace ComponentClass

variable {c : LoweringSetting}

/-- A function whose parameters read as none has none. -/
theorem describeParams_isEmpty {f : Func} :
    (describeParams f).isEmpty = true ↔ f.params = [] ∧ f.rest = none := by
  rw [List.isEmpty_iff, describeParams, List.append_eq_nil_iff, List.map_eq_nil_iff,
    Option.toList_eq_nil_iff, Option.map_eq_none_iff]

theorem describeParams_canonical {f : Func} (hparams : f.params = []) (hrest : f.rest = none) :
    describeParams f.canonical = canonicalParams := by
  obtain ⟨name, isAsync, isGenerator, thisParam, span, ps, rest, type, b⟩ := f
  obtain rfl : ps = [] := hparams
  obtain rfl : rest = none := hrest
  rfl

theorem constructor?_canonicalMembers (ms : List Member) :
    constructor? (canonicalMembers ms) = (constructor? ms).map Func.canonical := by
  induction ms with
  | nil => rfl
  | cons m ms ih =>
    cases m with
    | method decorators isStatic kind k f => cases kind <;> first | rfl | exact ih
    | field decorators isStatic k optional type value => exact ih
    | staticBlock stmts => exact ih

/-- **When a constructor is given parameters**: it has none, and nothing is reported. The one that
has them is not given any, and nothing is reported either. -/
theorem planConstructor_true {name : Option String} {ms : List Member} {s : Lowering}
    (h : (planConstructor name ms c s).1 = true) :
    (∃ f, constructor? ms = some f ∧ f.params = [] ∧ f.rest = none)
      ∧ (planConstructor name ms c s).2 = s
      ∧ planConstructor name (canonicalMembers ms) c s = (false, s) := by
  unfold planConstructor at h ⊢
  rw [constructor?_canonicalMembers]
  cases hf : constructor? ms with
  | none =>
    rw [hf] at h
    cases h
  | some f =>
    rw [hf] at h
    dsimp only [Option.map_some] at h ⊢
    by_cases hnone : (describeParams f).isEmpty = true
    · -- The parameters that are given read as those that are asked for.
      obtain ⟨hparams, hrest⟩ := describeParams_isEmpty.mp hnone
      rw [if_pos hnone, describeParams_canonical hparams hrest]
      exact ⟨⟨f, rfl, hparams, hrest⟩, rfl, rfl⟩
    · rw [if_neg hnone] at h
      split at h <;> cases h

/-- Entering a class looks at its members only in the last step. -/
theorem enter_members (isExpr : Bool) (name : Option String) (decorators : List Expr)
    (superClass : Option Expr) (s : Lowering) :
    ∃ (rs : List (Option Renaming)) (new : Option Expr) (isComponent : Bool) (t : Lowering),
      ∀ ms, enter isExpr (.mk name decorators superClass ms) c s
        = (if isComponent && c.options.constructorProps
            then planConstructor name ms >>= fun gives => pure ⟨rs, new, gives⟩
            else pure false >>= fun gives => pure ⟨rs, new, gives⟩ : Lower ClassPlan) c t := by
  rcases hplan : planDecorators none decorators c s with ⟨⟨rs, inherited⟩, t⟩
  cases superClass with
  | some b => exact ⟨rs, _, _, _, fun _ => Lower.bind_eq hplan⟩
  | none =>
    cases inherited with
    | none => exact ⟨rs, _, _, _, fun _ => Lower.bind_eq hplan⟩
    | some asked => exact ⟨rs, _, _, _, fun _ => Lower.bind_eq hplan⟩

/-- Entering a class whose constructor is given parameters, and the class that has them. -/
theorem enter_canonical {isExpr : Bool} {k : Class} {s : Lowering}
    (h : (enter isExpr k c s).1.givesParams = true) :
    (∃ f, constructor? k.members = some f ∧ f.params = [] ∧ f.rest = none)
      ∧ enter isExpr k.canonical c s
        = ({ (enter isExpr k c s).1 with givesParams := false }, (enter isExpr k c s).2) := by
  obtain ⟨name, decorators, superClass, ms⟩ := k
  -- Up to the last step both classes are entered in the same way.
  obtain ⟨rs, new, isComponent, t, henter⟩ :=
    enter_members (c := c) isExpr name decorators superClass s
  rw [Class.canonical, henter, henter]
  rw [henter] at h
  by_cases hcond : (isComponent && c.options.constructorProps) = true
  · simp only [if_pos hcond] at h ⊢
    obtain ⟨hf, hstate, hcanonical⟩ := planConstructor_true h
    have hgiven : planConstructor name ms c t = (true, t) := Prod.ext h hstate
    refine ⟨hf, ?_⟩
    rw [Lower.bind_eq hcanonical, Lower.bind_eq hgiven]
    rfl
  · simp only [if_neg hcond] at h
    cases h

end ComponentClass

/-- **A class whose constructor is given parameters** is walked as the class that has them. -/
theorem Walk.cls_canonical {isExpr : Bool} {k : Class} {c : LoweringSetting} {s : Lowering}
    (h : (ComponentClass.enter isExpr k c s).1.givesParams = true) :
    cls isExpr k c s = cls isExpr k.canonical c s := by
  obtain ⟨-, hcanonical⟩ := ComponentClass.enter_canonical h
  rw [cls_eq_clsAfter, cls_eq_clsAfter, Lower.bind_eq hcanonical]
  -- The plans differ in whether parameters are given, which only the walk of the members asks.
  change clsAfter (ComponentClass.enter isExpr k c s).1 k c _ = _
  obtain ⟨name, decorators, superClass, ms⟩ := k
  rw [clsAfter, h, members_canonical]
  rfl

/-! ## Depths -/

namespace Layer

/-- How many layers are passed before the one that declares a name. -/
def depth? (x : String) (L : List Layer) : Option Nat :=
  L.findIdx? (·.declared.contains x)

theorem depth?_cons (x : String) (l : Layer) (L : List Layer) :
    depth? x (l :: L) = if x ∈ l.declared then some 0 else (depth? x L).map (· + 1) := by
  simp [depth?, List.findIdx?_cons]

/-- **Names that are given to the parameters of a function.** A reference from the body finds
another declaration if and only if it is to one of the names and nothing in the function declares
it. -/
theorem depth?_given_iff {x : String} {given : List String} {body body' params params' : Layer}
    (hbody : body'.declared = body.declared) (hparams : params'.declared = given ++ params.declared)
    (inner outer : List Layer) :
    depth? x (inner ++ ([body', params'] ++ outer)) = depth? x (inner ++ ([body, params] ++ outer))
      ↔ ¬(x ∈ given ∧ ∀ l ∈ inner ++ [body, params], x ∉ l.declared) := by
  induction inner with
  | nil =>
    simp only [List.nil_append, List.cons_append, depth?_cons, hbody, hparams, List.mem_append]
    by_cases hb : x ∈ body.declared
    · simp [hb]
    by_cases hp : x ∈ params.declared
    · simp [hb, hp]
    by_cases hg : x ∈ given
    · -- Now the name is found at the parameters, and further out or nowhere before.
      cases depth? x outer <;> simp [hb, hp, hg]
    · simp [hb, hp, hg]
  | cons l inner ih =>
    change depth? x (l :: (inner ++ ([body', params'] ++ outer)))
        = depth? x (l :: (inner ++ ([body, params] ++ outer)))
      ↔ ¬(x ∈ given ∧ ∀ m ∈ l :: (inner ++ [body, params]), x ∉ m.declared)
    rw [depth?_cons, depth?_cons, List.forall_mem_cons]
    by_cases hl : x ∈ l.declared
    · simp [hl]
    · have hsucc : Function.Injective (Option.map fun n : Nat => n + 1) :=
        Option.map_injective fun _ _ h => Nat.succ.inj h
      rw [if_neg hl, if_neg hl, hsucc.eq_iff, ih]
      simp [hl]

end Layer

/-! ## Places in constructors -/

/-- The layers of a constructor around a statement of its body, after the statements `before`. -/
def Func.constructorLayers (f : Func) (before : List Stmt) (s : Stmt) : List Layer :=
  [Site.bodyLayer (.body false before s) f.body.stmts,
    Site.paramLayer (.params false) f.params f.rest]

theorem Site.around_mem_ofBodyStmts {isMethod : Bool} {all : List Stmt} {s : Stmt} {p : Site}
    (hp : p ∈ ofStmt s) (passed before after : List Stmt) :
    p.around [bodyLayer (.body isMethod (passed ++ before) s) all]
      ∈ ofBodyStmts isMethod all passed (before ++ s :: after) := by
  induction before generalizing passed with
  | nil =>
    rw [List.append_nil]
    exact List.mem_append_left _ (List.mem_map_of_mem hp)
  | cons b before ih =>
    have htail := ih (passed ++ [b])
    rw [List.append_assoc] at htail
    exact List.mem_append_right _ htail

/-- The places in the body of a constructor. -/
theorem Func.around_constructorLayers_mem {f : Func} {directives : List String}
    {before after : List Stmt} {s : Stmt}
    (hbody : f.body = .block directives (before ++ s :: after)) {p : Site}
    (hp : p ∈ Site.ofStmt s) :
    p.around (f.constructorLayers before s) ∈ Site.ofFunction false f := by
  have hstmt : p.around [Site.bodyLayer (.body false before s) f.body.stmts]
      ∈ Site.ofBody false f.body := by
    rw [hbody]
    exact Site.around_mem_ofBodyStmts hp [] before after
  have haround : p.around (f.constructorLayers before s)
      = (p.around [Site.bodyLayer (.body false before s) f.body.stmts]).around
        [Site.paramLayer (.params false) f.params f.rest] := by
    simp [Site.around, constructorLayers]
  rw [haround, ofFunction_eq_sites]
  exact List.mem_append_right _ (List.mem_append_right _
    (List.mem_map_of_mem (List.mem_append_right _ hstmt)))

/-- What a constructor that is given parameters declares. -/
theorem Func.declared_canonical {f : Func} (before before' : List Stmt) (s : Stmt) :
    (Site.bodyLayer (.body false before' s) f.canonical.body.stmts).declared
        = (Site.bodyLayer (.body false before s) f.body.stmts).declared
      ∧ (Site.paramLayer (.params false) f.canonical.params f.canonical.rest).declared
        = ComponentClass.canonicalParams
          ++ (Site.paramLayer (.params false) f.params f.rest).declared := by
  obtain ⟨name, isAsync, isGenerator, thisParam, span, ps, rest, type, b⟩ := f
  refine ⟨?_, rfl⟩
  cases b with
  | absent | expr _ => rfl
  | block directives ss =>
    have hblock : (ss.map Stmt.canonical).flatMap Check.blockNames = ss.flatMap Check.blockNames :=
      flatMap_canonical (fun _ => rfl) ss
    change Check.varAllNames (ss.map Stmt.canonical) ++ (ss.map Stmt.canonical).flatMap _ = _
    rw [Check.varAllNames, varPatterns_canonical, hblock]
    rfl

/-! ## What is captured -/

/-- **The value of a `using`**: one of its free names is resolved to another declaration if and only
if it is the name of the value. -/
theorem ControlFlow.NamesValue.resolve_iff {e : Element} {value : Expr} {name : String}
    (h : NamesValue e value name) (c : LoweringSetting) (s : Lowering) {p : Site}
    (hp : p ∈ Site.ofExpr value) :
    p.around (usingLayers name) ∈ Site.ofExpr (lowerUsing e c s).1
      ∧ ∀ x, p.free? = some x → ∀ outer,
        (Layer.resolve x ((p.around (usingLayers name)).layers ++ outer)
          = Layer.resolve x (p.layers ++ outer) ↔ x ≠ name) := by
  refine ⟨by rw [lowerUsing_eq h]; exact around_usingLayers_mem hp, fun x hx outer => ?_⟩
  change Layer.resolve x (p.layers ++ usingLayers name ++ outer) = _ ↔ _
  rw [List.append_assoc, Site.resolve_of_free hx, Site.resolve_of_free hx,
    Layer.resolve_append_iff]
  simp [usingLayers]

/-- **A reference in a constructor that is given parameters**: its place before and after, and when
it finds another declaration. -/
structure Func.Given (f : Func) (before : List Stmt) (st : Stmt) (p : Site) (x : String) :
    Prop where
  source : p.around (f.constructorLayers before st) ∈ Site.ofFunction false f
  target : p.around (f.canonical.constructorLayers (before.map Stmt.canonical) st)
    ∈ Site.ofFunction false f.canonical
  depth_iff : ∀ outer,
    Layer.depth? x ((p.around (f.canonical.constructorLayers (before.map Stmt.canonical) st)).layers
        ++ outer)
      = Layer.depth? x ((p.around (f.constructorLayers before st)).layers ++ outer)
    ↔ ¬(x ∈ ComponentClass.canonicalParams
      ∧ (p.around (f.constructorLayers before st)).free? = some x)

theorem Func.given_of_kept {f : Func} {directives : List String} {before after : List Stmt}
    {st : Stmt} (hbody : f.body = .block directives (before ++ st :: after))
    (hkept : Walk.forward? st = none) {p : Site} (hp : p ∈ Site.ofStmt st) {x : String}
    (hx : p.part = .reference x) : f.Given before st p x := by
  -- The statement stands among the others as before, so the same place is there.
  have hcanonical : f.canonical.body
      = .block directives (before.map Stmt.canonical ++ st :: after.map Stmt.canonical) := by
    have hst : st.canonical = st := by rw [Stmt.canonical, hkept, Option.getD_none]
    cases f
    change Body.canonical _ = _
    obtain rfl := hbody
    rw [Body.canonical, List.map_append, List.map_cons, hst]
  refine ⟨around_constructorLayers_mem hbody hp, around_constructorLayers_mem hcanonical hp,
    fun outer => ?_⟩
  obtain ⟨hstmts, hparams⟩ := f.declared_canonical before (before.map Stmt.canonical) st
  have hdepth := Layer.depth?_given_iff (x := x) hstmts hparams p.layers outer
  rw [Site.free?_eq_some]
  simp only [Site.around, constructorLayers, List.append_assoc, hx, true_and]
  exact hdepth

/-- **What introduced names capture.** A `using` puts its value under the name of the value, and of
the free names of the value exactly that name is captured. A component class whose constructor has
no parameters is compiled as the class whose constructor has them; and of the references in the
statements that stay as they are, exactly those to `props` and `context` are captured that nothing
in the constructor declares. -/
theorem introduced_names_capture_iff (c : LoweringSetting) (s : Lowering) :
    (∀ e value name, ControlFlow.NamesValue e value name → ∀ p ∈ Site.ofExpr value,
        p.around (ControlFlow.usingLayers name) ∈ Site.ofExpr (ControlFlow.lowerUsing e c s).1
          ∧ ∀ x, p.free? = some x → ∀ outer,
            (Layer.resolve x ((p.around (ControlFlow.usingLayers name)).layers ++ outer)
              = Layer.resolve x (p.layers ++ outer) ↔ x ≠ name))
      ∧ ∀ isExpr k, (ComponentClass.enter isExpr k c s).1.givesParams = true →
        Walk.cls isExpr k c s = Walk.cls isExpr k.canonical c s
          ∧ ∃ f, ComponentClass.constructor? k.members = some f ∧ f.params = [] ∧ f.rest = none
            ∧ ComponentClass.constructor? k.canonical.members = some f.canonical
            ∧ ∀ directives before st after, f.body = .block directives (before ++ st :: after) →
              Walk.forward? st = none → ∀ p ∈ Site.ofStmt st, ∀ x, p.part = .reference x →
                f.Given before st p x := by
  refine ⟨fun e value name h p hp => h.resolve_iff c s hp, fun isExpr k hgives => ?_⟩
  obtain ⟨⟨f, hf, hparams, hrest⟩, -⟩ := ComponentClass.enter_canonical hgives
  refine ⟨Walk.cls_canonical hgives, f, hf, hparams, hrest, ?_, ?_⟩
  · cases k
    exact (ComponentClass.constructor?_canonicalMembers _).trans (congrArg _ hf)
  · intro directives before st after hbody hkept p hp x hx
    exact Func.given_of_kept hbody hkept hp hx

/-- `<using value={x} as={name}></using>`. -/
def usingNamed (name : String) : Element :=
  .mk .none .none (.plain "using") [Build.attr .none "value" (.ident .none "x"),
    Build.attr .none "as" (.ident .none name)] [] true

/-- `this.p = props;`. -/
def keepsProps : Stmt :=
  .expr (Build.assign .none (.target (Build.member .none (.this .none) "p")) (.ident .none "props"))

/-- `@Component class A extends B { constructor() { super(); this.p = props; } }`. -/
def propsClass : Class :=
  .mk (some "A") [.ident .none "Component"] (some (.ident .none "B"))
    [.method [] false .constructor (.ident "constructor")
      (.mk none false false none .none [] none none
        (.block [] [.expr (.call .none (.super .none) [] false), keepsProps]))]

theorem introduced_names_capture_iff_both :
    Layer.resolve "x" (ControlFlow.usingLayers "y") = []
      ∧ Layer.resolve "x" (ControlFlow.usingLayers "x") ≠ []
      ∧ Walk.cls false propsClass ⟨{}, []⟩ (.initial ⟨[], []⟩)
        = Walk.cls false propsClass.canonical ⟨{}, []⟩ (.initial ⟨[], []⟩)
      ∧ ∃ f, ComponentClass.constructor? propsClass.members = some f
        ∧ f.Given [.expr (.call .none (.super .none) [] false)] keepsProps
          (Site.reference "props") "props" := by
  obtain ⟨husing, hclass⟩ := introduced_names_capture_iff ⟨{}, []⟩ (.initial ⟨[], []⟩)
  have hnames : ∀ name, ControlFlow.NamesValue (usingNamed name) (.ident .none "x") name :=
    fun name => ⟨⟨_, _, rfl, rfl⟩, _, _, _, _, rfl, rfl, rfl⟩
  have hresolve := fun name => (husing _ _ _ (hnames name) (Site.reference "x")
    List.mem_cons_self).2 "x" rfl []
  obtain ⟨hcls, f, hf, -, -, -, hgiven⟩ := hclass false propsClass (by decide +kernel)
  refine ⟨(hresolve "y").mpr (by decide), fun h => (hresolve "x").mp h rfl, hcls, f, hf, ?_⟩
  obtain rfl := Option.some.inj hf
  exact hgiven [] _ _ [] rfl rfl _ List.mem_cons_self _ rfl

/-- **Names that are captured**: `x` by its own constant, and `props` by the parameter. -/
theorem introduced_names_capture_x_props :
    ((Expr.ident .none "x").openNames = ["x"]
        ∧ (ControlFlow.lowerUsing (usingNamed "x") ⟨{}, []⟩ (.initial ⟨[], []⟩)).1.openNames = [])
      ∧ (Expr.classExpr .none propsClass).openNames = ["Component", "B", "props"]
      ∧ (Expr.classExpr .none (Walk.cls false propsClass ⟨{}, []⟩ (.initial ⟨[], []⟩)).1).openNames
        = ["Component", "B"] :=
  ⟨⟨by decide, by decide +kernel⟩, by decide, by decide +kernel⟩

end JsxDialect
