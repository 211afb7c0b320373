import JsxDialect.Compile
import JsxDialect.Proofs.Contents
import JsxDialect.Proofs.Opening

/-!
# Nothing to do

A rule acts on an element or on a decorated class, and only if an option asks for it. So the walk
gives a module back as it was, and reports nothing, if every rule is switched off or if there is
nothing that a rule could act on. Between its ends the walk opens and closes scopes, and what it
leaves of the state is the same only up to the records of closed ones: `Idle` says so of one step,
and the induction on the syntax says it of every step, with one lemma for each function of the walk.
-/

namespace JsxDialect

/-- **Every rule is switched off**, and no name is imported on its own. -/
structure Options.IsOff (o : Options) : Prop where
  refAttribute : o.refAttribute = false
  constructorProps : o.constructorProps = false
  styleAttribute : o.styleAttribute = false
  classAttribute : o.classAttribute = false
  controlFlow : o.controlFlow = false
  namedChildren : o.namedChildren = false
  asAttribute : o.asAttribute = false
  bindAttribute : o.bindAttribute = false
  arrowLifting : o.arrowLifting = false
  objectLifting : o.objectLifting = false
  controlledInput : o.controlledInput = false
  autoImport : o.autoImport = []

/-! ## What there is to act on -/

/-- What stands in statements stands in them as those of a body. -/
theorem Site.exists_mem_ofBodyStmts {isMethod : Bool} {all before xs : List Stmt} {q : Site}
    (hq : q ∈ ofStmts xs) : ∃ p ∈ ofBodyStmts isMethod all before xs, p.part = q.part := by
  induction xs generalizing before with
  | nil => exact absurd hq List.not_mem_nil
  | cons x xs ih =>
    rcases List.mem_append.mp hq with hq | hq
    · exact ⟨_, List.mem_append_left _ (List.mem_map.mpr ⟨q, hq, rfl⟩), rfl⟩
    · obtain ⟨p, hp, hpart⟩ := @ih (before ++ [x]) hq
      exact ⟨p, List.mem_append_right _ hp, hpart⟩

/-- Of the given places and classes there is nothing to act on: the rules are off, or no element is
among the places and no class is decorated. -/
def Spared (o : Options) (ps : List Site) (ks : List Class) : Prop :=
  o.IsOff ∨ (∀ p ∈ ps, p.element? = none) ∧ ∀ k ∈ ks, k.decorators = []

namespace Spared

variable {o : Options} {ps qs : List Site} {ks ls : List Class}

/-- Only what stands at the places counts. -/
theorem mono (h : Spared o ps ks) (hps : ∀ q ∈ qs, ∃ p ∈ ps, p.part = q.part)
    (hks : ∀ k ∈ ls, k ∈ ks) : Spared o qs ls := by
  rcases h with hoff | ⟨helements, hclasses⟩
  · exact .inl hoff
  · refine .inr ⟨fun q hq => ?_, fun k hk => hclasses k (hks k hk)⟩
    obtain ⟨p, hp, hpart⟩ := hps q hq
    have hnone := helements p hp
    unfold Site.element? at hnone ⊢
    rwa [← hpart]

/-- If there is nothing to act on at some places, there is nothing at the first of them. -/
theorem left_places (h : Spared o (ps ++ qs) ks) : Spared o ps ks :=
  h.mono (fun p hp => ⟨p, List.mem_append_left _ hp, rfl⟩) fun _ hk => hk

theorem right_places (h : Spared o (ps ++ qs) ks) : Spared o qs ks :=
  h.mono (fun p hp => ⟨p, List.mem_append_right _ hp, rfl⟩) fun _ hk => hk

theorem left_classes (h : Spared o ps (ks ++ ls)) : Spared o ps ks :=
  h.mono (fun p hp => ⟨p, hp, rfl⟩) fun _ hk => List.mem_append_left _ hk

theorem right_classes (h : Spared o ps (ks ++ ls)) : Spared o ps ls :=
  h.mono (fun p hp => ⟨p, hp, rfl⟩) fun _ hk => List.mem_append_right _ hk

/-- The first of two parts of a tree, with its places and its classes. -/
theorem left (h : Spared o (ps ++ qs) (ks ++ ls)) : Spared o ps ks :=
  h.left_places.left_classes

theorem right (h : Spared o (ps ++ qs) (ks ++ ls)) : Spared o qs ls :=
  h.right_places.right_classes

/-- The part under a layer is the part itself. -/
theorem inside {l : Layer} (h : Spared o (Site.under l ps) ks) : Spared o ps ks :=
  h.mono (fun p hp => ⟨p.around [l], List.mem_map.mpr ⟨p, hp, rfl⟩, rfl⟩) fun _ hk => hk

/-- Where there is an element, the rules are off. -/
theorem isOff {e : Element} (h : Spared o (Site.ofElement e) ks) : o.IsOff := by
  rcases h with hoff | ⟨helements, -⟩
  · exact hoff
  · cases e with
    | mk span openSpan name as cs closed =>
      have hnone := helements ⟨[], .element (.mk span openSpan name as cs closed)⟩
        List.mem_cons_self
      cases hnone

/-- The statements of a body, without what each sees of the others. -/
theorem ofBodyStmts {isMethod : Bool} {all before xs : List Stmt}
    (h : Spared o (Site.ofBodyStmts isMethod all before xs) ks) :
    Spared o (Site.ofStmts xs) ks :=
  h.mono (fun _ hq => Site.exists_mem_ofBodyStmts hq) fun _ hk => hk

/-- A body, as that of a function or a method. -/
theorem ofBody {isMethod : Bool} {b : Body} (h : Spared o (Site.ofBody isMethod b) ks) :
    Spared o (Site.inBody b) ks := by
  cases b with
  | absent | expr _ => exact h
  | block directives xs => exact h.ofBodyStmts

/-- A body, as that of an arrow function. -/
theorem ofArrowBody {b : Body} (h : Spared o (Site.ofArrowBody b) ks) :
    Spared o (Site.inBody b) ks := by
  cases b with
  | absent | expr _ => exact h
  | block directives xs => exact h.inside

end Spared

/-! ## Steps that do nothing -/

/-- Two states that differ at most in the records of closed scopes. -/
structure Unmoved (s t : Lowering) : Prop where
  header : t.header = s.header
  classes : t.classes = s.classes
  diagnostics : t.diagnostics = s.diagnostics
  ordered : t.scopes.Ordered
  frames : t.scopes.frames = s.scopes.frames

/-- A state whose scopes are in order is like itself. -/
theorem Unmoved.refl {s : Lowering} (hs : s.scopes.Ordered) : Unmoved s s :=
  ⟨rfl, rfl, rfl, hs, rfl⟩

/-- What differs in closed scopes twice differs in closed scopes. -/
theorem Unmoved.trans {s t u : Lowering} (h : Unmoved s t) (h' : Unmoved t u) : Unmoved s u :=
  ⟨h'.header.trans h.header, h'.classes.trans h.classes, h'.diagnostics.trans h.diagnostics,
    h'.ordered, h'.frames.trans h.frames⟩

variable {c : LoweringSetting} {α β γ δ : Type}

/-- A step from the state `s` that gives the value `a` and leaves a state like `t`. -/
def Gives (c : LoweringSetting) (s t : Lowering) (act : Lower α) (a : α) : Prop :=
  (act c s).1 = a ∧ Unmoved t (act c s).2

/-- **A step that does nothing but give a value.** -/
def Idle (c : LoweringSetting) (act : Lower α) (a : α) : Prop :=
  ∀ s : Lowering, s.scopes.Ordered → Gives c s s act a

section Steps

variable {s t u : Lowering} {act : Lower α} {a : α} {b : β}

/-- A value is given in a state like the one before. -/
theorem Gives.pure (h : Unmoved t s) : Gives c s t (Pure.pure a) a :=
  ⟨rfl, h⟩

/-- One step after another: the second one starts from a state like that which the first one is to
leave. -/
theorem Gives.bind {next : α → Lower β} (h : Gives c s t act a)
    (hnext : ∀ s', Unmoved t s' → Gives c s' u (next a) b) : Gives c s u (act >>= next) b := by
  obtain ⟨ha, ht⟩ := h
  have hstep : (act >>= next) c s = next (act c s).1 c (act c s).2 := rfl
  rw [Gives, hstep, ha]
  exact hnext _ ht

/-- A change of the state is judged by what it leaves. -/
theorem Gives.modify {g : Lowering → Lowering} (h : Unmoved t (g s)) :
    Gives c s t (modify g) () :=
  ⟨rfl, h⟩

theorem Gives.options {next : Options → Lower α} (h : Gives c s t (next c.options) a) :
    Gives c s t (Lower.options >>= next) a :=
  h

/-- What does nothing can start from any state like the one it is to leave. -/
theorem Idle.gives (h : Idle c act a) (ht : Unmoved t s) : Gives c s t act a := by
  obtain ⟨ha, hs⟩ := h s ht.ordered
  exact ⟨ha, ht.trans hs⟩

end Steps

namespace Idle

open Discipline (opened)

variable {act : Lower α} {act₂ : Lower β} {act₃ : Lower γ} {a : α} {b : β} {e : γ}

/-- A step that leaves the very same state. -/
theorem of_eq (h : ∀ s, act c s = (a, s)) : Idle c act a := by
  intro s hs
  rw [Gives, h s]
  exact ⟨rfl, .refl hs⟩

/-- A value is given without a step. -/
protected theorem pure (a : α) : Idle c (Pure.pure a) a :=
  fun _ hs => .pure (.refl hs)

/-- Two steps that do nothing, one after the other. -/
protected theorem bind {next : α → Lower β} (h : Idle c act a) (hnext : Idle c (next a) b) :
    Idle c (act >>= next) b :=
  fun s hs => (h s hs).bind fun _ ht => hnext.gives ht

/-- What is made of the value that is given. -/
protected theorem map {k : α → δ} (h : Idle c act a) :
    Idle c (act >>= fun a => Pure.pure (k a)) (k a) :=
  h.bind (.pure _)

/-- What is made of the values of two steps. -/
theorem map₂ {k : α → β → δ} (h : Idle c act a) (h₂ : Idle c act₂ b) :
    Idle c (act >>= fun a => act₂ >>= fun b => Pure.pure (k a b)) (k a b) :=
  h.bind h₂.map

/-- What is made of the values of three steps. -/
theorem map₃ {k : α → β → γ → δ} (h : Idle c act a) (h₂ : Idle c act₂ b) (h₃ : Idle c act₃ e) :
    Idle c (act >>= fun a => act₂ >>= fun b => act₃ >>= fun e => Pure.pure (k a b e)) (k a b e) :=
  h.bind (h₂.map₂ h₃)

/-- The options are read, and nothing else is done. -/
theorem options {next : Options → Lower α} (h : Idle c (next c.options) a) :
    Idle c (Lower.options >>= next) a :=
  h

protected theorem get {next : Lowering → Lower α} (h : ∀ s, Idle c (next s) a) :
    Idle c (MonadState.get >>= next) a :=
  fun s hs => h s s hs

/-- A rule whose option is off. -/
theorem switchedOff {p : Options → Bool} {rule : Lower α} (hoff : p c.options = false)
    (h : Idle c act a) :
    Idle c (Lower.options >>= fun o => if p o = true then rule else act) a := by
  refine .options ?_
  rw [hoff]
  exact h

/-- What is done in a scope that has just been opened leaves that scope as it was. -/
theorem frames_opened (h : Idle c act a) {s : Lowering} (hs : s.scopes.Ordered)
    (kind : ScopeKind) (names : List String) :
    (act c (opened s kind names)).1 = a
      ∧ Unmoved (opened s kind names) (act c (opened s kind names)).2
      ∧ (act c (opened s kind names)).2.scopes.frames = ⟨kind, names, []⟩ :: s.scopes.frames := by
  obtain ⟨ha, hmoved⟩ := h (opened s kind names) (hs.push kind names)
  exact ⟨ha, hmoved, hmoved.frames.trans (Scopes.frames_push hs kind names)⟩

/-- A scope is opened, nothing is done in it, and it is closed: only its record is left. -/
protected theorem inside (h : Idle c act a) (kind : ScopeKind) (names : List String) :
    Idle c (Lower.inside kind names act) a := by
  intro s hs
  obtain ⟨ha, hmoved, hframes⟩ := h.frames_opened hs kind names
  obtain ⟨v, hclose, hordered, hv⟩ := Lower.closeScope_eq (c := c) hmoved.ordered hframes
  have hstate : (Lower.inside kind names act c s).2
      = (Lower.closeScope c (act c (opened s kind names)).2).2 := rfl
  refine ⟨ha, ?_⟩
  rw [hstate, hclose]
  exact ⟨hmoved.header, hmoved.classes, hmoved.diagnostics, hordered, hv⟩

/-- **Functions.** Nothing is queued on them, so nothing is put before their statements. -/
protected theorem func {f : Func} {ps : List Param} {rest : Option Pattern} {b : Body}
    (h : Idle c (Walk.parts false f) (ps, rest, b)) (hf : f.withParts ps rest b = f)
    (scope : ScopeKind) (seesName : Bool) : Idle c (Walk.func scope seesName false f) f := by
  intro s hs
  obtain ⟨ha, hmoved, hframes⟩ := h.frames_opened hs scope
    (Discipline.scopeNames seesName false f)
  obtain ⟨t, ht⟩ : ∃ t, Walk.parts false f c
      (opened s scope (Discipline.scopeNames seesName false f)) = ((ps, rest, b), t) :=
    ⟨_, Prod.ext ha rfl⟩
  rw [ht] at hmoved hframes
  obtain ⟨v, hclose, hordered, hv⟩ := Lower.closeFunction_eq (c := c) hmoved.ordered hframes
  have hfunc : Walk.func scope seesName false f c s = (f, { t with scopes := v }) := by
    rw [Walk.func_eq]
    simp only [ht, hclose, Body.prepend_nil]
    exact congrArg (·, _) hf
  rw [Gives, hfunc]
  exact ⟨rfl, hmoved.header, hmoved.classes, hmoved.diagnostics, hordered, hv⟩

end Idle

/-! ## Children -/

namespace ControlFlow

/-- Children of which none is an element have slots of their own, to be kept. -/
theorem slots_eq_map_keep {cs : List Child} (h : ∀ p ∈ Site.ofChildren cs, p.element? = none) :
    slots cs = cs.map .keep := by
  induction cs with
  | nil => rfl
  | cons child cs ih =>
    have hcs := ih fun p hp => h p (List.mem_append_right _ hp)
    cases child with
    | element e =>
      -- The element is the first of its own places.
      cases e with
      | mk span openSpan name as inner closed =>
        have hself := h ⟨[], .element (.mk span openSpan name as inner closed)⟩ List.mem_cons_self
        cases hself
    | text _ | fragment _ _ | container _ | spread _ => rw [slots, hcs, List.map_cons]; simp

/-- Slots that keep their children give the children. -/
theorem lowerSlots_map_keep (cs : List Child) (c : LoweringSetting) (s : Lowering) :
    lowerSlots (cs.map .keep) c s = (cs, s) := by
  induction cs with
  | nil => rfl
  | cons child cs ih =>
    have hstep : lowerSlots ((child :: cs).map .keep) c s
        = (child :: (lowerSlots (cs.map .keep) c s).1, (lowerSlots (cs.map .keep) c s).2) := rfl
    rw [hstep, ih]

end ControlFlow

/-- Children of which none is an element stay, and so do all if control flow is off. -/
theorem Spared.idle_lowerChildren {cs : List Child} {ks : List Class}
    (h : Spared c.options (Site.ofChildren cs) ks) : Idle c (ControlFlow.lowerChildren cs) cs := by
  rcases h with hoff | ⟨helements, -⟩
  · exact .switchedOff hoff.controlFlow (.pure cs)
  · have hslots : Idle c (ControlFlow.lowerSlots (ControlFlow.slots cs)) cs := by
      rw [ControlFlow.slots_eq_map_keep helements]
      exact .of_eq (ControlFlow.lowerSlots_map_keep cs c)
    refine .options ?_
    split
    · exact hslots
    · exact .pure cs

/-! ## Elements, with the rules off -/

namespace Options.IsOff

variable (h : c.options.IsOff)
include h

/-- Attributes stay, as every rule for them is off. -/
theorem idle_lowerAttrs (span : Span) (tag : String) (as : List Attr) :
    Idle c (ElementRule.lowerAttrs span tag as) as := by
  have hlift : (c.options.arrowLifting || c.options.objectLifting) = false := by
    rw [h.arrowLifting, h.objectLifting, Bool.or_false]
  exact (Idle.switchedOff h.styleAttribute (.pure as)).bind
    ((Idle.switchedOff h.classAttribute (.pure as)).bind
    ((Idle.switchedOff h.refAttribute (.pure as)).bind
    ((Idle.switchedOff h.bindAttribute (.pure as)).bind
    ((Idle.switchedOff h.controlledInput (.pure as)).bind
    (Idle.switchedOff (p := fun o => o.arrowLifting || o.objectLifting) hlift (.pure as))))))

/-- A name stays, as the table is empty. -/
theorem idle_importName (name : ElementName) : Idle c (ElementRule.importName name) name := by
  refine .get fun s => ?_
  split
  · exact .pure name
  · refine .options ?_
    rw [h.autoImport]
    exact .pure name

/-- Children do not become attributes. -/
theorem idle_hoistNamed (tag : String) (as : List Attr) (cs : List Child) :
    Idle c (ElementRule.hoistNamed tag as cs) (as, cs) :=
  .switchedOff h.namedChildren (.pure (as, cs))

/-- **No rule for elements does anything.** -/
theorem idle_lower (e : Element) : Idle c (ElementRule.lower e) e := by
  cases e with
  | mk span openSpan name as cs closed =>
    have hchildren : Idle c (ControlFlow.lowerChildren cs) cs :=
      .switchedOff h.controlFlow (.pure cs)
    unfold ElementRule.lower
    cases htag : isDialectTag name.text with
    | false =>
      simp only [htag, Bool.not_false, if_true]
      refine (h.idle_lowerAttrs span name.text as).bind ?_
      refine (h.idle_importName name).bind ?_
      refine (h.idle_hoistNamed name.text as cs).bind ?_
      refine hchildren.bind ?_
      exact .switchedOff (p := fun o => true && o.asAttribute) h.asAttribute (.pure _)
    | true =>
      simp only [htag, Bool.not_true, Bool.false_eq_true, if_false, pure_bind, Bool.false_and]
      refine (h.idle_hoistNamed name.text as cs).bind ?_
      refine hchildren.bind ?_
      exact .options (.pure _)

/-- An element stays an element where an expression is due. -/
theorem idle_lowerExpr (e : Element) : Idle c (ControlFlow.lowerExpr e) (.element e) := by
  unfold ControlFlow.lowerExpr
  split
  · exact .switchedOff h.controlFlow (.pure _)
  · exact .pure _

/-- So it does as the value of an attribute. -/
theorem idle_lowerValue (e : Element) : Idle c (ControlFlow.lowerValue e) (.element e) := by
  unfold ControlFlow.lowerValue
  split
  · exact .switchedOff h.controlFlow (.pure _)
  · exact .pure _

end Options.IsOff

/-! ## Classes -/

namespace ComponentClass

/-- Without new names decorators stay as they are. -/
theorem renameDecorators_replicate (n : Nat) (es : List Expr) :
    renameDecorators (List.replicate n none) es = es := by
  induction n generalizing es with
  | zero => rfl
  | succ n ih =>
    cases es with
    | nil => rfl
    | cons e es =>
      rw [List.replicate_succ, renameDecorators, ih es]
      rfl

/-- No decorator gets a new name if there is none or if nothing is imported on its own. -/
theorem idle_planDecorators {ds : List Expr} (h : c.options.autoImport = [] ∨ ds = []) :
    Idle c (planDecorators none ds) (List.replicate ds.length none, none) := by
  induction ds with
  | nil => exact .pure _
  | cons d ds ih =>
    have hauto : c.options.autoImport = [] := h.resolve_right (List.cons_ne_nil d ds)
    unfold planDecorators
    refine Idle.bind (a := none) ?_ ((ih (.inl hauto)).bind (.pure _))
    split
    · exact .pure none
    · refine .get fun s => ?_
      split
      · exact .pure none
      · refine .options ?_
        rw [hauto]
        exact .pure none

/-- **Entering a class that there is nothing to do with**: it is noted, and nothing else. -/
theorem gives_enter (isExpr : Bool) {k : Class} (h : c.options.IsOff ∨ k.decorators = [])
    {s : Lowering} (hs : s.scopes.Ordered) :
    ∃ frame, Gives c s { s with classes := frame :: s.classes } (enter isExpr k)
      ⟨List.replicate k.decorators.length none, none, false⟩ := by
  cases k with
  | mk name ds base ms =>
    have hauto : c.options.autoImport = [] ∨ ds = [] := h.imp (·.autoImport) id
    refine ⟨⟨((List.replicate ds.length none).zip ds).any fun p => isComponentDecorator p.1 p.2,
      if isExpr then name else none⟩, ?_⟩
    refine (idle_planDecorators hauto s hs).bind fun s₁ h₁ => ?_
    refine Gives.bind (t := s) (a := none) ?_ fun s₂ h₂ => ?_
    · cases base <;> exact .pure h₁
    refine (Gives.modify (t := { s with classes := _ :: s.classes }) ⟨h₂.header,
      congrArg (List.cons _) h₂.classes, h₂.diagnostics, h₂.ordered, h₂.frames⟩).bind
      fun s₃ h₃ => ?_
    refine .options ?_
    -- Without the option no constructor changes, and a class without decorators is no component.
    rcases h with hoff | hnil
    · rw [hoff.constructorProps, Bool.and_false]
      exact .pure h₃
    · obtain rfl : ds = [] := hnil
      exact .pure h₃

end ComponentClass

/-- **Classes.** -/
theorem Idle.cls {name : Option String} {ds : List Expr} {base : Option Expr} {ms : List Member}
    (h : c.options.IsOff ∨ ds = []) (hds : Idle c (Walk.exprs ds) ds)
    (hbase : Idle c (Walk.optExpr base) base) (hms : Idle c (Walk.members false ms) ms)
    (isExpr : Bool) : Idle c (Walk.cls isExpr (.mk name ds base ms)) (.mk name ds base ms) := by
  intro s hs
  obtain ⟨frame, henter⟩ := ComponentClass.gives_enter isExpr (k := .mk name ds base ms) h hs
  refine henter.bind fun s₁ h₁ => ?_
  refine (hds.gives h₁).bind fun s₂ h₂ => ?_
  refine (hbase.gives h₂).bind fun s₃ h₃ => ?_
  refine (hms.gives h₃).bind fun s₄ h₄ => ?_
  refine (Gives.modify (t := s) ⟨h₄.header, congrArg List.tail h₄.classes, h₄.diagnostics,
    h₄.ordered, h₄.frames⟩).bind fun s₅ h₅ => ?_
  rw [ComponentClass.renameDecorators_replicate]
  cases base <;> exact .pure h₅

/-! ## The induction -/

mutual

/-- **The walk gives an expression back** if nothing is in it that a rule acts on. -/
theorem idle_expr (e : Expr) (h : Spared c.options (Site.ofExpr e) (Listing.classes.ofExpr e)) :
    Idle c (Walk.expr e) e := by
  cases e with
  | ident _ _ | «alias» _ _ _ | number _ _ | string _ _ | bigint _ _ | regex _ _ | bool _ _ | null _
  | this _ | super _ | metaProperty _ _ _ | hole => exact .pure _
  | template _ _ es | array _ es | sequence _ es | importCall _ es => exact (idle_exprs es h).map
  | tagged _ e _ es | call _ e es _ | new _ e es =>
    exact (idle_expr e h.left).map₂ (idle_exprs es h.right)
  | spread e | unary _ _ e | update _ _ _ e | privateIn _ _ e | member _ e _ _
  | privateMember _ e _ _ | chain _ e | paren _ e | await _ e | nonNull _ e =>
    exact (idle_expr e h).map
  | object _ ps => exact (idle_properties ps h).map
  | function _ f => exact (idle_function f h.inside).map
  | arrow _ f => exact (idle_arrow f h).map
  | classExpr _ k => exact (idle_cls k h).map
  | binary _ _ l r | logical _ _ l r | index _ l r _ =>
    exact (idle_expr l h.left).map₂ (idle_expr r h.right)
  | assign _ _ l r => exact (idle_pattern l h.left).map₂ (idle_expr r h.right)
  | conditional _ t e a =>
    exact (idle_expr t h.left).map₃ (idle_expr e h.right.left) (idle_expr a h.right.right)
  | yield _ _ e => exact (idle_optExpr e h).map
  | typed _ _ e _ => exact (idle_expr e h.left_places).map
  | element e => exact (idle_element e h).bind (h.isOff.idle_lowerExpr e)
  | fragment _ cs => exact (idle_children cs h).bind (h.idle_lowerChildren).map

theorem idle_exprs (es : List Expr)
    (h : Spared c.options (Site.ofExprs es) (Listing.classes.ofExprs es)) :
    Idle c (Walk.exprs es) es := by
  cases es with
  | nil => exact .pure _
  | cons e es => exact (idle_expr e h.left).map₂ (idle_exprs es h.right)

theorem idle_optExpr (e : Option Expr)
    (h : Spared c.options (Site.ofOption e) (Listing.classes.ofOption e)) :
    Idle c (Walk.optExpr e) e := by
  cases e with
  | none => exact .pure _
  | some e => exact (idle_expr e h).map

theorem idle_key (k : Key) (h : Spared c.options (Site.ofKey k) (Listing.classes.ofKey k)) :
    Idle c (Walk.key k) k := by
  cases k with
  | computed e => exact (idle_expr e h).map
  | ident _ | string _ | number _ | bigint _ | privateName _ => exact .pure _

theorem idle_property (p : Property)
    (h : Spared c.options (Site.ofProperty p) (Listing.classes.ofProperty p)) :
    Idle c (Walk.property p) p := by
  cases p with
  | field k e _ => exact (idle_key k h.left).map₂ (idle_expr e h.right)
  | method _ k f => exact (idle_key k h.left).map₂ (idle_function f h.right)
  | spread e => exact (idle_expr e h).map

theorem idle_properties (ps : List Property)
    (h : Spared c.options (Site.ofProperties ps) (Listing.classes.ofProperties ps)) :
    Idle c (Walk.properties ps) ps := by
  cases ps with
  | nil => exact .pure _
  | cons p ps => exact (idle_property p h.left).map₂ (idle_properties ps h.right)

/-- An arrow function. Nothing is queued on it in any case. -/
theorem idle_arrow (f : Func)
    (h : Spared c.options (Site.ofArrow f) (Listing.classes.ofFunc .arrow f)) :
    Idle c (Walk.func .arrow false false f) f := by
  cases f with
  | mk name _ _ thisParam _ params rest type b =>
    have hparts := h.left_classes
    have hinside := hparts.right_places.right_places.inside.right_places
    have hparams := idle_params params hparts.right_places.left_places.inside.left_classes
      hinside.left
    exact (hparams.map₃ (idle_optPattern rest hinside.right.left)
      (idle_body b hinside.right.right.right_places.ofArrowBody)).func rfl .arrow false

/-- A function or a method, whatever its role in a listing. -/
theorem idle_function (f : Func) {role : FunctionRole} {isMethod seesName : Bool}
    (h : Spared c.options (Site.ofFunction isMethod f) (Listing.classes.ofFunc role f)) :
    Idle c (Walk.func (.function isMethod) seesName false f) f := by
  cases f with
  | mk name _ _ thisParam _ params rest type b =>
    have hparts := h.left_classes
    have hinside := hparts.right_places.right_places.inside.right_places
    have hparams := idle_params params hparts.right_places.left_places.inside.left_classes
      hinside.left
    exact (hparams.map₃ (idle_optPattern rest hinside.right.left)
      (idle_body b hinside.right.right.right_places.ofBody)).func rfl _ seesName

/-- A body to which no parameters are given. -/
theorem idle_body (b : Body)
    (h : Spared c.options (Site.inBody b) (Listing.classes.ofBody false b)) :
    Idle c (Walk.body false b) b := by
  cases b with
  | absent => exact .pure _
  | expr e => exact (idle_expr e h).map
  | block _ xs => exact (idle_stmts xs h).map

/-- Parameters: their decorators stand elsewhere than their patterns, so both are asked for. -/
theorem idle_params (ps : List Param)
    (hdecorators : Spared c.options (Site.ofDecorators ps) (Listing.classes.ofParams ps))
    (h : Spared c.options (Site.ofParams ps) (Listing.classes.ofParams ps)) :
    Idle c (Walk.params ps) ps := by
  match ps with
  | [] => exact .pure _
  | .mk decorators p :: ps =>
    have hparam : Idle c (Walk.param (.mk decorators p)) (.mk decorators p) :=
      (idle_exprs decorators hdecorators.left.left_classes).map₂
        (idle_pattern p h.left.right_classes)
    exact hparam.map₂ (idle_params ps hdecorators.right h.right)

theorem idle_pattern (p : Pattern)
    (h : Spared c.options (Site.ofPattern p) (Listing.classes.ofPattern p)) :
    Idle c (Walk.pattern p) p := by
  cases p with
  | bind _ | hole => exact .pure _
  | target e => exact (idle_expr e h).map
  | object ps rest =>
    exact (idle_patternProperties ps h.left).map₂ (idle_optPattern rest h.right)
  | array ps rest => exact (idle_patterns ps h.left).map₂ (idle_optPattern rest h.right)
  | withDefault p e => exact (idle_pattern p h.left).map₂ (idle_expr e h.right)
  | typed p _ _ => exact (idle_pattern p h.left_places).map

theorem idle_patterns (ps : List Pattern)
    (h : Spared c.options (Site.ofPatterns ps) (Listing.classes.ofPatterns ps)) :
    Idle c (Walk.patterns ps) ps := by
  cases ps with
  | nil => exact .pure _
  | cons p ps => exact (idle_pattern p h.left).map₂ (idle_patterns ps h.right)

theorem idle_optPattern (p : Option Pattern)
    (h : Spared c.options (Site.ofRest p) (Listing.classes.ofRest p)) :
    Idle c (Walk.optPattern p) p := by
  cases p with
  | none => exact .pure _
  | some p => exact (idle_pattern p h).map

theorem idle_patternProperties (ps : List PatternProperty)
    (h : Spared c.options (Site.ofPatternProperties ps) (Listing.classes.ofPatternProperties ps)) :
    Idle c (Walk.patternProperties ps) ps := by
  match ps with
  | [] => exact .pure _
  | .mk k p _ :: ps =>
    exact (idle_key k h.left).map₃ (idle_pattern p h.right.left)
      (idle_patternProperties ps h.right.right)

/-- A statement, with the scopes that it opens. -/
theorem idle_stmt (x : Stmt) (h : Spared c.options (Site.ofStmt x) (Listing.classes.ofStmt x)) :
    Idle c (Walk.stmt x) x := by
  cases x with
  | expr e => exact (idle_expr e h).map
  | varDecl _ ds => exact (idle_declarators ds h).map
  | function f => exact (idle_function f h).map
  | classDecl k => exact (idle_cls k h).map
  | «return» e => exact (idle_optExpr e h).map
  | throw e => exact (idle_expr e h).map
  | «if» t x a =>
    exact (idle_expr t h.left).map₃ (idle_stmt x h.right.left) (idle_optStmt a h.right.right)
  | «for» init t u x =>
    have h := h.inside
    exact ((idle_forHead init h.left).bind ((idle_optExpr t h.right.left).map₃
      (idle_optExpr u h.right.right.left) (idle_stmt x h.right.right.right))).inside _ _
  | forIn left r x | forOf _ left r x =>
    have h := h.inside
    exact ((idle_forHead left h.left).map₃ (idle_expr r h.right.left)
      (idle_stmt x h.right.right)).inside _ _
  | «while» t x => exact (idle_expr t h.left).map₂ (idle_stmt x h.right)
  | doWhile x t => exact (idle_stmt x h.left).map₂ (idle_expr t h.right)
  | block xs => exact ((idle_stmts xs h.inside).inside _ _).map
  | switch d cases =>
    exact ((idle_expr d h.left).map₂ (idle_switchCases cases h.right.inside)).inside _ _
  | «try» xs handler finalizer =>
    exact ((idle_stmts xs h.left.inside).inside _ _).map₃ (idle_optCatch handler h.right.left)
      (idle_optBlock finalizer h.right.right)
  | «break» _ | «continue» _ | empty | debugger | «import» _ _ | exportNamed _ _
  | exportAll _ _ => exact .pure _
  | labeled _ x | exportDecl x => exact (idle_stmt x h).map
  | exportDefaultFunction f => exact (idle_function f h).map
  | exportDefaultClass k => exact (idle_cls k h).map
  | exportDefault e => exact (idle_expr e h).map

theorem idle_stmts (xs : List Stmt)
    (h : Spared c.options (Site.ofStmts xs) (Listing.classes.ofStmts xs)) :
    Idle c (Walk.stmts xs) xs := by
  cases xs with
  | nil => exact .pure _
  | cons x xs => exact (idle_stmt x h.left).map₂ (idle_stmts xs h.right)

theorem idle_optStmt (x : Option Stmt)
    (h : Spared c.options (Site.ofAlternate x) (Listing.classes.ofAlternate x)) :
    Idle c (Walk.optStmt x) x := by
  cases x with
  | none => exact .pure _
  | some x => exact (idle_stmt x h).map

/-- A finalizer, which is a block of its own. -/
theorem idle_optBlock (xs : Option (List Stmt))
    (h : Spared c.options (Site.ofFinalizer xs) (Listing.classes.ofFinalizer xs)) :
    Idle c (Walk.optBlock xs) xs := by
  cases xs with
  | none => exact .pure _
  | some xs => exact ((idle_stmts xs h.inside).inside _ _).map

/-- A handler: one scope for its parameter and one for its statements. -/
theorem idle_optCatch (handler : Option Catch)
    (h : Spared c.options (Site.ofHandler handler) (Listing.classes.ofHandler handler)) :
    Idle c (Walk.optCatch handler) handler := by
  match handler with
  | none => exact .pure _
  | some (.mk param xs) =>
    have h := h.inside
    exact ((idle_optPattern param h.left).map₂
      ((idle_stmts xs h.right.inside).inside _ _)).inside _ _

theorem idle_declarators (ds : List Declarator)
    (h : Spared c.options (Site.ofDeclarators ds) (Listing.classes.ofDeclarators ds)) :
    Idle c (Walk.declarators ds) ds := by
  match ds with
  | [] => exact .pure _
  | .mk p e :: ds =>
    exact (idle_pattern p h.left).map₃ (idle_optExpr e h.right.left)
      (idle_declarators ds h.right.right)

theorem idle_forHead (head : ForHead)
    (h : Spared c.options (Site.ofHead head) (Listing.classes.ofHead head)) :
    Idle c (Walk.forHead head) head := by
  cases head with
  | absent => exact .pure _
  | decl _ ds => exact (idle_declarators ds h).map
  | expr e => exact (idle_expr e h).map
  | target p => exact (idle_pattern p h).map

theorem idle_switchCases (cases : List SwitchCase)
    (h : Spared c.options (Site.ofCases cases) (Listing.classes.ofCases cases)) :
    Idle c (Walk.switchCases cases) cases := by
  match cases with
  | [] => exact .pure _
  | .mk t xs :: cases =>
    exact (idle_optExpr t h.left).map₃ (idle_stmts xs h.right.left)
      (idle_switchCases cases h.right.right)

/-- A class is entered and left again. -/
theorem idle_cls (k : Class) {isExpr : Bool}
    (h : Spared c.options (Site.ofClass k) (Listing.classes.ofClass k)) :
    Idle c (Walk.cls isExpr k) k := by
  cases k with
  | mk name decorators superClass ms =>
    have hown : c.options.IsOff ∨ decorators = [] :=
      h.imp id fun hnone => hnone.2 _ List.mem_cons_self
    have hinside := h.right_classes
    have hparts := hinside.right.right_places.inside
    exact .cls hown (idle_exprs decorators hinside.left) (idle_optExpr superClass hparts.left)
      (idle_members ms hparts.right) isExpr

/-- Members of a class of which no constructor gets parameters. -/
theorem idle_members (ms : List Member)
    (h : Spared c.options (Site.ofMembers ms) (Listing.classes.ofMembers ms)) :
    Idle c (Walk.members false ms) ms := by
  match ms with
  | [] => exact .pure _
  | .method decorators isStatic kind k f :: ms =>
    exact (idle_exprs decorators h.left).bind ((idle_key k h.right.left).bind
      ((idle_function f h.right.right.left).bind (idle_members ms h.right.right.right).map))
  | .field decorators _ k _ _ value :: ms =>
    have hrest := h.right.right.right_places
    exact (idle_exprs decorators h.left).bind ((idle_key k h.right.left).bind
      ((idle_optExpr value hrest.left.inside).bind (idle_members ms hrest.right).map))
  | .staticBlock xs :: ms => exact (idle_stmts xs h.left.inside).map₂ (idle_members ms h.right)

/-- An element can only be there with the rules off. -/
theorem idle_element (e : Element)
    (h : Spared c.options (Site.ofElement e) (Listing.classes.ofElement e)) :
    Idle c (Walk.element e) e := by
  have hoff := h.isOff
  cases e with
  | mk span openSpan name as cs closed =>
    exact (((idle_attrs as (.inl hoff)).map₂ (idle_children cs (.inl hoff))).inside _ _).bind
      (hoff.idle_lower _)

theorem idle_attrs (as : List Attr)
    (h : Spared c.options (Site.ofAttrs as) (Listing.classes.ofAttrs as)) :
    Idle c (Walk.attrs as) as := by
  match as with
  | [] => exact .pure _
  | .named span name value :: as =>
    exact (idle_attrValue value h.left).map₂ (idle_attrs as h.right)
  | .spread span e :: as => exact (idle_expr e h.left).map₂ (idle_attrs as h.right)

theorem idle_attrValue (value : AttrValue)
    (h : Spared c.options (Site.ofAttrValue value) (Listing.classes.ofAttrValue value)) :
    Idle c (Walk.attrValue value) value := by
  cases value with
  | absent | string _ => exact .pure _
  | container _ e => exact (idle_optExpr e h).map
  | element e => exact (idle_element e h).bind (h.isOff.idle_lowerValue e)
  | fragment _ cs => exact (idle_children cs h).bind (h.idle_lowerChildren).map

/-- Children, before the rule for them. -/
theorem idle_children (cs : List Child)
    (h : Spared c.options (Site.ofChildren cs) (Listing.classes.ofChildren cs)) :
    Idle c (Walk.children cs) cs := by
  cases cs with
  | nil => exact .pure _
  | cons child cs => exact (idle_child child h.left).map₂ (idle_children cs h.right)

theorem idle_child (child : Child)
    (h : Spared c.options (Site.ofChild child) (Listing.classes.ofChild child)) :
    Idle c (Walk.child child) child := by
  cases child with
  | text _ => exact .pure _
  | element e => exact (idle_element e h).map
  | fragment _ cs => exact (idle_children cs h).bind (h.idle_lowerChildren).map
  | container e => exact (idle_optExpr e h).map
  | spread e => exact (idle_expr e h).map

end

/-! ## Modules -/

/-- **A module with nothing to act on is compiled to itself**: one without elements and decorated
classes under all options, and every one if the rules are off. -/
theorem Module.compile_eq_self (o : Options) (m : Module)
    (h : (m.elements = [] ∧ ∀ k ∈ m.classes, k.decorators = []) ∨ o.IsOff) :
    m.compile o = ⟨m, []⟩ := by
  have hspared : Spared o (Site.ofStmts m.stmts) (Listing.classes.ofStmts m.stmts) := by
    rcases h with ⟨helements, hclasses⟩ | hoff
    · exact .inr ⟨List.filterMap_eq_nil_iff.mp helements, hclasses⟩
    · exact .inl hoff
  obtain ⟨hstmts, hstate⟩ := idle_stmts (c := ⟨o, m.stmts.filterMap Stmt.defaultName⟩) m.stmts
    hspared (Lowering.initial m) Scopes.ordered_empty
  change (⟨(Walk.stmts m.stmts _ (Lowering.initial m)).2.header.finish
      { m with stmts := (Walk.stmts m.stmts _ (Lowering.initial m)).1 },
    (Walk.stmts m.stmts _ (Lowering.initial m)).2.diagnostics⟩ : Compiled) = _
  rw [hstmts, hstate.header, hstate.diagnostics]
  rfl

/-- A class with a constructor and a method that returns the given child in a fragment. -/
def shownPage (decorators : List Expr) (child : Child) : Module :=
  let method (stmt : Stmt) : Func := .mk none false false none .none [] none none (.block [] [stmt])
  ⟨[], [.classDecl (.mk (some "Page") decorators none
    [.method [] false .constructor (.ident "constructor")
      (method (.expr (.call .none (.super .none) [] false))),
    .method [] false .method (.ident "show")
      (method (.return (some (.fragment .none [.text " ", child]))))])]⟩

/-- A handler in a fragment stays where it is, and with the rules off so do control flow, a handler
in an attribute and the constructor of a component. -/
theorem compile_eq_self_shownPage :
    let handler := Build.arrow .none [] (.ident .none "x")
    let plain := shownPage [] (.container (some handler))
    let component := shownPage [.ident .none "Component"] (.element
      (.mk .none .none (.plain "if") []
        [.element (.mk .none .none (.plain "b") [Build.attr .none "a" handler] [] false)] true))
    let off : Options := ⟨false, false, false, false, false, false, false, false, false, false,
      false, [], none⟩
    plain.compile {} = ⟨plain, []⟩ ∧ component.compile off = ⟨component, []⟩ := by
  refine ⟨Module.compile_eq_self _ _ (.inl ⟨rfl, fun k hk => ?_⟩),
    Module.compile_eq_self _ _ (.inr ?_)⟩
  · obtain rfl := List.mem_singleton.mp hk
    rfl
  · exact ⟨rfl, rfl, rfl, rfl, rfl, rfl, rfl, rfl, rfl, rfl, rfl, rfl⟩

end JsxDialect
