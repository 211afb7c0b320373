import JsxDialect.Proofs.Slots
import JsxDialect.Proofs.StyleAttribute
import JsxDialect.Proofs.TopLevel

/-!
# Where functions come from

Every function of a compiled module has an `Origin`: it was made, and then nothing in it is declared
twice, or it is one of the module and declares what it declared there, or its parameters are a list
of names that an element binds, or it is a constructor that was given parameters. Only the last two
can be at odds with what the language allows.

`Yields` is the judgement about steps of a compilation: errors that were reported stay, and if there
is none in the end, then the state stays tidy and the result is as stated. There is one lemma for
each rule.
-/

namespace JsxDialect

/-! ## Parts of made code -/

namespace Listing

/-- All functions. -/
abbrev whole : Listing (FunctionRole × Func) :=
  functions true

variable {α : Type} (l : Listing α)

/-- What is listed in several expressions is what is listed in each. -/
theorem ofExprs_eq (es : List Expr) : l.ofExprs es = es.flatMap l.ofExpr := by
  induction es with
  | nil => rfl
  | cons e es ih => exact congrArg (l.ofExpr e ++ ·) ih

/-- The same for children. -/
theorem ofChildren_eq (cs : List Child) : l.ofChildren cs = cs.flatMap l.ofChild := by
  induction cs with
  | nil => rfl
  | cons c cs ih => exact congrArg (l.ofChild c ++ ·) ih

/-- What is listed in an attribute. -/
def ofAttr : Attr → List α
  | .named _ _ value => l.ofAttrValue value
  | .spread _ e => l.ofExpr e

/-- The same for attributes. -/
theorem ofAttrs_eq (as : List Attr) : l.ofAttrs as = as.flatMap l.ofAttr := by
  induction as with
  | nil => rfl
  | cons a as ih =>
    rw [List.flatMap_cons, ← ih]
    cases a <;> rfl

/-- Parentheses and types around an expression have nothing to list. -/
theorem ofExpr_inner (e : Expr) : l.ofExpr e.inner = l.ofExpr e := by
  fun_induction Expr.inner e with
  | case1 _ e ih | case2 _ _ e _ ih | case3 _ e ih => exact ih
  | case4 => rfl

/-- The value of an attribute as an expression lists the same. -/
theorem ofExpr_toExpr (v : AttrValue) (span : Span) :
    l.ofExpr (v.toExpr span) = l.ofAttrValue v := by
  cases v with
  | absent | string _ | element _ | fragment _ _ => rfl
  | container _ e => cases e <;> rfl

/-- What is listed in a call that is made. -/
theorem ofExpr_call (span : Span) (callee : Expr) (args : List Expr) :
    l.ofExpr (Build.call span callee args) = l.ofExpr callee ++ l.ofExprs args := by
  simp only [Build.call]
  split <;> rfl

/-- What is listed in an object that is made: nothing in its keys. -/
theorem ofExpr_object (span : Span) (entries : List (String × Expr)) :
    l.ofExpr (Build.object span entries) = entries.flatMap fun p => l.ofExpr p.2 := by
  change l.ofProperties _ = _
  induction entries with
  | nil => rfl
  | cons p entries ih =>
    have hkey : l.ofKey (Build.key p.1) = [] := by
      unfold Build.key
      split <;> rfl
    rw [List.map_cons, List.flatMap_cons, ← ih]
    exact congrArg (· ++ l.ofExpr p.2 ++ _) hkey

/-- Nothing is listed in parameters that are made. -/
theorem ofParams_map_param (params : List String) : l.ofParams (params.map Build.param) = [] := by
  induction params with
  | nil => rfl
  | cons p ps ih => exact ih

/-- A child as an expression lists no more than the child. -/
theorem ofExpr_subset_ofChild {c : Child} {e : Expr} (h : c.expr? = some e) :
    l.ofExpr e ⊆ l.ofChild c := by
  cases c with
  | text s =>
    obtain ⟨cs, -, rfl⟩ := Option.map_eq_some_iff.mp h
    exact List.nil_subset _
  | element _ | fragment _ _ | container _ | spread _ =>
    cases h
    exact List.Subset.refl _

/-- Nor do children as expressions; texts become strings. -/
theorem ofExprs_childExprs_subset (cs : List Child) :
    l.ofExprs (childExprs cs) ⊆ l.ofChildren cs := by
  intro p hp
  rw [ofExprs_eq] at hp
  obtain ⟨e, he, hp⟩ := List.mem_flatMap.mp hp
  obtain ⟨c, hc, hce⟩ := List.mem_filterMap.mp he
  rw [ofChildren_eq]
  exact List.mem_flatMap.mpr ⟨c, hc, l.ofExpr_subset_ofChild hce hp⟩

/-- Nor do children as one expression. -/
theorem ofExpr_childrenExpr_subset (span : Span) (cs : List Child) :
    l.ofExpr (childrenExpr span cs) ⊆ l.ofChildren cs := by
  have hall := l.ofExprs_childExprs_subset cs
  unfold childrenExpr
  split
  · exact List.nil_subset _
  · rename_i e hone
    rw [hone] at hall
    exact fun p hp => hall (List.mem_append_left _ hp)
  · exact hall

mutual

/-- The collection of a `for` attribute is a part of it. -/
theorem ofExpr_splitFor_subset (e : Expr) {collection : Expr} {binders : List Expr}
    (h : splitFor? e = some (binders, collection)) : l.ofExpr collection ⊆ l.ofExpr e := by
  cases e with
  | paren _ e | nonNull _ e | typed _ _ e _ => exact ofExpr_splitFor_subset e h
  | sequence _ es => exact ofExprs_splitForLast_subset es h
  | binary _ op left right =>
    cases op with
    | isIn =>
      obtain ⟨rfl, rfl⟩ := Prod.mk.inj (Option.some.inj h)
      exact List.subset_append_right _ _
    | _ => cases h
  | _ => cases h

/-- The collection of a `for` lists no more than the whole attribute. -/
theorem ofExprs_splitForLast_subset (es : List Expr) {collection : Expr} {binders : List Expr}
    (h : splitForLast? es = some (binders, collection)) : l.ofExpr collection ⊆ l.ofExprs es := by
  match es with
  | [] => cases h
  | [e] => exact List.subset_append_of_subset_left _ (ofExpr_splitFor_subset e h)
  | e :: e' :: es =>
    obtain ⟨rest, hrest, rfl⟩ := splitForLast?_cons_eq_some.mp h
    exact List.subset_append_of_subset_right _
      (ofExprs_splitForLast_subset (e' :: es) hrest)

end

end Listing

open Listing (whole)

/-! ## Origins -/

/-- The lists of names that the attributes of an element bind. -/
def Element.binderLists (e : Element) : List (List String) :=
  e.attrs.flatMap fun
    | .named _ name (.container _ (some x)) =>
      (if name.text == "as" then [binderNames x] else [])
        ++ if name.text == "for" then [forNames x] else []
    | _ => []

/-- Whether an element of the module binds the names, by `as` or by `for`. -/
def Listed (m : Module) (names : List String) : Prop :=
  ∃ e ∈ m.elements, names ∈ e.binderLists

/-- What a function declares that has names as parameters and declares nothing else. -/
def Declared.ofParams (names : List String) : Declared :=
  ⟨true, false, names, [], [], []⟩

/-- **Where a function comes from**: it was made and nothing in it is declared twice, it is one of
the module and declares what it declared there, its parameters are names that an element binds, or
it is a constructor without parameters that was given some. -/
inductive Origin (m : Module) : FunctionRole → Func → Prop
  | made {role : FunctionRole} {f : Func} (h : f.declared.clashes = false) : Origin m role f
  | kept {role : FunctionRole} {f f₀ : Func} (hmem : (role, f₀) ∈ m.functions true)
      (h : f.declared = f₀.declared) : Origin m role f
  | bound {f : Func} {names : List String} (hnames : Listed m names)
      (h : f.declared = .ofParams names) : Origin m .arrow f
  | given {role : FunctionRole} {f f₀ : Func} (hrole : role.isConstructor = true)
      (hmem : (role, f₀) ∈ m.functions true) (hnone : f₀.declared.params = [])
      (h : f.declared = f₀.declared.give ComponentClass.canonicalParams) : Origin m role f

/-- Functions that have an origin. -/
def Known (m : Module) (fs : List (FunctionRole × Func)) : Prop :=
  ∀ p ∈ fs, Origin m p.1 p.2

/-- Names for the parameters of a function: each stands once, or an element binds them. -/
def Binds (m : Module) (names : List String) : Prop :=
  names.Nodup ∨ Listed m names

variable {m : Module}

/-- Parameters that are all different do not clash. -/
theorem Declared.clashes_ofParams {names : List String} (h : names.Nodup) :
    (Declared.ofParams names).clashes = false := by
  have hdistinct := Check.distinct_iff.mpr h
  simp [Declared.clashes, Declared.fits, Declared.ofParams, hdistinct, Check.distinct,
    Check.disjoint]

namespace Known

variable {fs gs : List (FunctionRole × Func)}

/-- Of no functions all are known. -/
theorem nil : Known m [] :=
  fun _ hp => absurd hp List.not_mem_nil

/-- Known functions before others. -/
theorem append (h : Known m fs) (h' : Known m gs) : Known m (fs ++ gs) :=
  List.forall_mem_append.mpr ⟨h, h'⟩

/-- The first of known functions. -/
theorem left (h : Known m (fs ++ gs)) : Known m fs :=
  (List.forall_mem_append.mp h).1

theorem right (h : Known m (fs ++ gs)) : Known m gs :=
  (List.forall_mem_append.mp h).2

/-- Some of known functions are known. -/
theorem subset (hsub : gs ⊆ fs) (h : Known m fs) : Known m gs :=
  fun p hp => h p (hsub hp)

/-- Functions of several parts. -/
theorem flatMap {α : Type} {xs : List α} {g : α → List (FunctionRole × Func)}
    (h : ∀ x ∈ xs, Known m (g x)) : Known m (xs.flatMap g) := by
  intro p hp
  obtain ⟨x, hx, hp⟩ := List.mem_flatMap.mp hp
  exact h x hx p hp

/-- One function that has an origin. -/
theorem single {role : FunctionRole} {f : Func} (h : Origin m role f) : Known m [(role, f)] :=
  List.forall_mem_singleton.mpr h

/-! ### Made code -/

/-- The functions of what is in parentheses or under a type. -/
theorem inner {e : Expr} (h : Known m (whole.ofExpr e)) : Known m (whole.ofExpr e.inner) := by
  rwa [Listing.ofExpr_inner]

/-- The functions of the value of an attribute as an expression. -/
theorem toExpr {v : AttrValue} (h : Known m (whole.ofAttrValue v)) (span : Span) :
    Known m (whole.ofExpr (v.toExpr span)) := by
  rwa [Listing.ofExpr_toExpr]

/-- The functions of several expressions. -/
theorem exprs {es : List Expr} (h : ∀ e ∈ es, Known m (whole.ofExpr e)) :
    Known m (whole.ofExprs es) := by
  rw [Listing.ofExprs_eq]
  exact .flatMap h

/-- The functions of a call that is made. -/
theorem call {span : Span} {callee : Expr} {args : List Expr} (h : Known m (whole.ofExpr callee))
    (h' : Known m (whole.ofExprs args)) : Known m (whole.ofExpr (Build.call span callee args)) := by
  rw [Listing.ofExpr_call]
  exact h.append h'

/-- The functions of an object that is made. -/
theorem object {span : Span} {entries : List (String × Expr)}
    (h : ∀ p ∈ entries, Known m (whole.ofExpr p.2)) :
    Known m (whole.ofExpr (Build.object span entries)) := by
  rw [Listing.ofExpr_object]
  exact .flatMap h

/-- The target of an assignment has the functions of its expression. -/
theorem target {e : Expr} {place : Pattern} (h : Known m (whole.ofExpr e))
    (hplace : e.target? = some place) : Known m (whole.ofPattern place) := by
  have hinner := h.inner
  unfold Expr.target? at hplace
  split at hplace
  case h_5 => cases hplace
  all_goals
    rename_i heq
    rw [heq] at hinner
    obtain rfl := Option.some.inj hplace
    exact hinner

/-- **A generated function.** -/
theorem arrow {span : Span} {params : List String} {body : Expr} (hparams : Binds m params)
    (hbody : Known m (whole.ofExpr body)) :
    Known m (whole.ofExpr (Build.arrow span params body)) := by
  have hdeclared : (Func.mk none false false none span (params.map Build.param) none none
      (.expr body)).declared = .ofParams params := by
    have hsimple := isSimple_given params [] none
    rw [List.append_nil] at hsimple
    rw [Func.declared, Declared.ofParams, Declared.mk.injEq]
    refine ⟨hsimple, rfl, ?_, rfl, rfl, rfl⟩
    exact (List.append_nil _).trans (allNames_given params)
  have hself : Origin m .arrow (Func.mk none false false none span (params.map Build.param) none
      none (.expr body)) := by
    rcases hparams with hnodup | hlisted
    · exact .made (hdeclared ▸ Declared.clashes_ofParams hnodup)
    · exact .bound hlisted hdeclared
  have hparts : Known m (whole.ofParams (params.map Build.param)) := by
    rw [Listing.ofParams_map_param]
    exact .nil
  exact (hparts.append hbody).append (.single hself)

/-- A function that is called at once. -/
theorem invoked {span : Span} {stmts : List Stmt} (hstmts : Known m (whole.ofStmts stmts))
    (hclear : (Func.mk none false false none span [] none none
      (.block [] stmts)).declared.clashes = false) :
    Known m (whole.ofExpr (Build.invoked span stmts)) :=
  (hstmts.append (.single (.made hclear))).call .nil

end Known

/-! ## Steps -/

/-- Whether an error was reported. -/
def Lowering.HasError (s : Lowering) : Prop :=
  ∃ d ∈ s.diagnostics, d.severity = .error

namespace Header

/-- A header that gives out new names only and declares each of them once. -/
structure Tidy (m : Module) (h : Header) : Prop where
  tracks : ∃ log, h.Tracks m.usedNames log
  declares : h.Declares m.usedNames

variable {h : Header}

/-- The header that a module starts with is tidy. -/
theorem tidy_ofModule (m : Module) : (ofModule m).Tidy m :=
  ⟨⟨[], tracks_ofModule m⟩, declares_ofModule m⟩

/-- A request that the header stays tidy by gets a new name, which looks like one that is made. -/
theorem Tidy.ask (h₀ : h.Tidy m) {r : Request} (hd : (r.ask h).2.Declares m.usedNames) :
    (r.ask h).2.Tidy m ∧ (r.ask h).1 ∉ m.usedNames ∧ IsMarked (r.ask h).1 := by
  obtain ⟨log, htracks⟩ := h₀.tracks
  have hasked := (htracks.ask r).1
  have hmem : (r, (r.ask h).1) ∈ log ++ [(r, (r.ask h).1)] := by simp
  exact ⟨⟨⟨_, hasked⟩, hd⟩, hasked.unused _ hmem, hasked.marked _ hmem⟩

end Header

namespace Scopes

variable {α : Type} {s : Scopes α} {i j : Nat} {x y : α}

/-- A new scope has nothing queued. -/
theorem mem_queued_push {kind : ScopeKind} {names : List String}
    (h : x ∈ (s.push kind names).2.queued i) : x ∈ s.queued i := by
  unfold queued at h ⊢
  by_cases hi : i < s.records.size
  · rwa [getElem?_push_lt kind names hi] at h
  · simp only [push, Array.getElem?_push] at h
    split at h
    · exact absurd h List.not_mem_nil
    · exact h

/-- Queueing adds one statement to one scope. -/
theorem mem_queued_queue (h : y ∈ (s.queue i x).queued j) : y ∈ s.queued j ∨ y = x := by
  unfold queued queue at h
  unfold queued
  rw [Array.getElem?_modify] at h
  split at h
  · cases hr : s.records[j]? with
    | none => simp [hr] at h
    | some r =>
      simp only [hr, Option.map_some, Option.getD_some] at h ⊢
      exact (List.mem_append.mp h).imp id List.mem_singleton.mp
  · exact .inl h

/-- Taking what is queued adds nothing. -/
theorem mem_queued_take (h : y ∈ (s.take i).2.queued j) : y ∈ s.queued j := by
  unfold queued take at h
  unfold queued
  rw [Array.getElem?_modify] at h
  split at h
  · cases hr : s.records[j]? with
    | none => simp [hr] at h
    | some r => simp [hr] at h
  · exact h

end Scopes

/-- Closing the scope of a function takes what is queued on some scope, if one is open. -/
theorem Lower.closeFunction_cases (c : LoweringSetting) (s : Lowering) :
    closeFunction c s = ([], s) ∨ ∃ i current, closeFunction c s = (s.scopes.queued i,
      { s with scopes := (Scopes.take ⟨s.scopes.records, current⟩ i).2 }) := by
  unfold closeFunction
  rw [get_bind, Scopes.pop?]
  cases s.scopes.current with
  | none => exact .inl rfl
  | some i => exact .inr ⟨i, s.scopes.parent? i, rfl⟩

/-- A statement that may be queued: an expression whose functions are known. -/
def Queueable (m : Module) (x : Stmt) : Prop :=
  ∃ e, x = .expr e ∧ Known m (whole.ofExpr e)

/-- **A tidy state**: its header is tidy, and what is queued declares nothing. -/
structure Lowering.Tidy (m : Module) (s : Lowering) : Prop where
  header : s.header.Tidy m
  queued : ∀ i, ∀ x ∈ s.scopes.queued i, Queueable m x

/-- **A step under a condition**: errors stay, and if there is none in the end and the condition
holds, then a tidy state stays tidy and the result is as stated. -/
structure Yields {α : Type} (m : Module) (c : LoweringSetting) (P : Prop) (act : Lower α)
    (Q : α → Prop) : Prop where
  errors : ∀ s : Lowering, s.HasError → (act c s).2.HasError
  result : P → ∀ s : Lowering, s.Tidy m → ¬(act c s).2.HasError →
    (act c s).2.Tidy m ∧ Q (act c s).1

namespace Yields

variable {c : LoweringSetting} {α β γ δ : Type} {P S : Prop}
variable {act : Lower α} {act₂ : Lower β} {act₃ : Lower γ}
variable {Q Q' : α → Prop} {Q₂ : β → Prop} {Q₃ : γ → Prop} {R : δ → Prop}

/-- A value is given as stated under the condition. -/
protected theorem pure {a : α} (h : P → Q a) : Yields m c P (Pure.pure a) Q :=
  ⟨fun _ hs => hs, fun hp _ hs _ => ⟨hs, h hp⟩⟩

/-- One step after another: the second one may use what the first one gives. -/
protected theorem bind {next : α → Lower β} (h : Yields m c P act Q)
    (hnext : ∀ a, Yields m c (P ∧ Q a) (next a) Q₂) : Yields m c P (act >>= next) Q₂ := by
  refine ⟨fun s hs => (hnext _).errors _ (h.errors s hs), fun hp s hs hnone => ?_⟩
  -- An error of the first step would have stayed.
  have hfirst : ¬(act c s).2.HasError := fun herror => hnone ((hnext _).errors _ herror)
  obtain ⟨htidy, hq⟩ := h.result hp s hs hfirst
  exact (hnext _).result ⟨hp, hq⟩ _ htidy hnone

/-- A stronger condition, and a weaker result. -/
theorem imp (h : Yields m c P act Q) (hp : S → P) (hq : ∀ a, S → Q a → Q' a) :
    Yields m c S act Q' :=
  ⟨h.errors, fun hp' s hs hnone =>
    let ⟨htidy, hres⟩ := h.result (hp hp') s hs hnone
    ⟨htidy, hq _ hp' hres⟩⟩

/-- The same step under a condition that implies the one that it needs. -/
theorem weaken (h : Yields m c P act Q) (hp : S → P) : Yields m c S act Q :=
  h.imp hp fun _ _ hq => hq

protected theorem map {f : α → δ} (h : Yields m c P act Q) (k : ∀ a, P → Q a → R (f a)) :
    Yields m c P (act >>= fun a => Pure.pure (f a)) R :=
  h.bind fun a => .pure fun hp => k a hp.1 hp.2

/-- Two steps that do not depend on one another. -/
theorem map₂ {f : α → β → δ} (h : Yields m c P act Q) (h₂ : Yields m c P act₂ Q₂)
    (k : ∀ a b, Q a → Q₂ b → R (f a b)) :
    Yields m c P (act >>= fun a => act₂ >>= fun b => Pure.pure (f a b)) R :=
  h.bind fun a => (h₂.weaken And.left).map fun b hp hq => k a b hp.2 hq

/-- Three steps that do not depend on one another. -/
theorem map₃ {f : α → β → γ → δ} (h : Yields m c P act Q) (h₂ : Yields m c P act₂ Q₂)
    (h₃ : Yields m c P act₃ Q₃) (k : ∀ a b d, Q a → Q₂ b → Q₃ d → R (f a b d)) :
    Yields m c P
      (act >>= fun a => act₂ >>= fun b => act₃ >>= fun d => Pure.pure (f a b d)) R :=
  h.bind fun a => (h₂.weaken And.left).bind fun b => (h₃.weaken fun hp => hp.1.1).map
    fun d hp hq => k a b d hp.1.2 hp.2 hq

theorem options {next : Options → Lower α} (h : Yields m c P (next c.options) Q) :
    Yields m c P (Lower.options >>= next) Q :=
  ⟨h.errors, h.result⟩

protected theorem get {next : Lowering → Lower α} (h : ∀ s, Yields m c P (next s) Q) :
    Yields m c P (MonadState.get >>= next) Q :=
  ⟨fun s => (h s).errors s, fun hp s => (h s).result hp s⟩

/-- A step that only reports. -/
theorem report (span : Span) (cause : Cause) :
    Yields m c P (Lower.report span cause) fun _ => cause.severity ≠ .error := by
  refine ⟨fun s ⟨d, hd, hsev⟩ => ⟨d, List.mem_append_left _ hd, hsev⟩, fun _ s hs hnone => ?_⟩
  exact ⟨⟨hs.header, hs.queued⟩, fun hsev =>
    hnone ⟨⟨cause, span⟩, List.mem_append_right _ List.mem_cons_self, hsev⟩⟩

/-- Reports at several places. -/
theorem reportAll (cause : Cause) (spans : List Span) :
    Yields m c P (Lower.reportAll cause spans) fun _ => True := by
  induction spans with
  | nil => exact .pure fun _ => trivial
  | cons span spans ih => exact (report span cause).bind fun _ => ih.weaken And.left

/-! ### Requests -/

/-- A request by which the header stays tidy. -/
theorem request {r : Request}
    (hd : ∀ h : Header, h.Declares m.usedNames → (r.ask h).2.Declares m.usedNames) :
    Yields m c P (Lower.ask r.ask) fun name => name ∉ m.usedNames ∧ Header.IsMarked name := by
  refine ⟨fun s hs => hs, fun _ s hs _ => ?_⟩
  obtain ⟨htidy, hname⟩ := hs.header.ask (hd _ hs.header.declares)
  exact ⟨⟨htidy, hs.queued⟩, hname⟩

/-- The name of a new parameter is no name of the module. -/
theorem askParam (hint : String) :
    Yields m c P (Lower.ask (·.paramName hint)) fun name => name ∉ m.usedNames :=
  (request (r := .param hint) fun _ hd => hd.paramName hint).imp id fun _ _ hname => hname.1

/-- The name of an automatic import is marked. -/
theorem askDescriptor (d : ImportDescriptor) :
    Yields m c P (Lower.ask (·.addDescriptor d)) fun name => Header.IsMarked name :=
  (request (r := .descriptor d) fun _ hd => hd.addImport _ _ _).imp id fun _ _ hname => hname.2

/-- The key of controlled inputs. -/
theorem askThrottle : Yields m c P (Lower.ask Header.throttleKey) fun _ => True :=
  (request (r := .throttle) fun _ hd => hd.throttleKey).imp id fun _ _ _ => trivial

/-- A slot for a value. -/
theorem askSlot (hint : String) : Yields m c P (Lower.ask (·.slot hint)) fun _ => True :=
  (request (r := .slot hint) fun _ hd => hd.slot hint).imp id fun _ _ _ => trivial

/-- The name of a helper. -/
theorem helper (f : Helper) : Yields m c P (Lower.helper f) fun _ => True :=
  .options ((request (r := .helper c.options.moduleName f) fun _ hd => hd.helper _ f).imp id
    fun _ _ _ => trivial)

/-- Two parameters for different hints have different names. -/
theorem askParams {hint hint' : String} (hne : "param:" ++ hint ≠ "param:" ++ hint')
    {next : String → String → Lower α} (h : ∀ a b, Yields m c (P ∧ a ≠ b) (next a b) Q) :
    Yields m c P (Lower.ask (·.paramName hint) >>= fun a =>
      Lower.ask (·.paramName hint') >>= next a) Q := by
  refine ⟨fun s hs => (h _ _).errors _ hs, fun hp s hs hnone => ?_⟩
  obtain ⟨log, htracks⟩ := hs.header.tracks
  have hfirst := (htracks.ask (.param hint)).1
  have hboth := (hfirst.ask (.param hint')).1
  have hapart : ((Request.param hint).ask s.header).1
      ≠ ((Request.param hint').ask ((Request.param hint).ask s.header).2).1 := by
    intro heq
    have hpair := (List.pairwise_append.mp hboth.apart).2.2 _
      (List.mem_append_right _ (List.mem_singleton.mpr rfl)) _ (List.mem_singleton.mpr rfl)
    obtain ⟨k, hk, hk'⟩ := hpair.mp heq
    exact hne (Memo.key.inj (Option.some.inj (hk.trans hk'.symm)))
  have hdeclares := (hs.header.declares.paramName hint).paramName hint'
  exact (h _ _).result ⟨hp, hapart⟩ _ ⟨⟨⟨_, hboth⟩, hdeclares⟩, hs.queued⟩ hnone

/-! ### Scopes -/

/-- A step that leaves the header and the reports as they are, and queues nothing of its own. -/
theorem aside {change : Lowering → Lowering} (hheader : ∀ s, (change s).header = s.header)
    (hreports : ∀ s, (change s).diagnostics = s.diagnostics)
    (hqueued : P → ∀ s i, ∀ x ∈ (change s).scopes.queued i,
      x ∈ s.scopes.queued i ∨ Queueable m x) :
    Yields m c P (modify change : Lower Unit) fun _ => True := by
  refine ⟨fun s hs => ?_, fun hp s hs _ => ⟨⟨?_, fun i x hx => ?_⟩, trivial⟩⟩
  · change ∃ d ∈ (change s).diagnostics, d.severity = .error
    rwa [hreports]
  · change (change s).header.Tidy m
    rw [hheader]
    exact hs.header
  · rcases hqueued hp s i x hx with hx | hx
    · exact hs.queued i x hx
    · exact hx

/-- A new scope has nothing queued, so the state stays tidy. -/
theorem openScope (kind : ScopeKind) (names : List String) :
    Yields m c P (Lower.openScope kind names) fun _ => True :=
  aside (fun _ => rfl) (fun _ => rfl) fun _ _ _ _ hx => .inl (Scopes.mem_queued_push hx)

/-- Closing a scope leaves what is queued. -/
theorem closeScope : Yields m c P Lower.closeScope fun _ => True := by
  refine aside (fun _ => rfl) (fun _ => rfl) fun _ s i x hx => .inl ?_
  cases hcurrent : s.scopes.current with
  | none => simpa [Scopes.pop?, hcurrent] using hx
  | some j => simpa [Scopes.pop?, hcurrent, Scopes.queued] using hx

/-- A step in a scope of its own. -/
theorem inside (kind : ScopeKind) (names : List String) (h : Yields m c P act Q) :
    Yields m c P (Lower.inside kind names act) Q :=
  (openScope kind names).bind fun _ => (h.weaken And.left).bind fun _ =>
    closeScope.map fun _ hp _ => hp.2

/-- Queuing a statement that may be queued. -/
theorem queue (owner : Nat) {x : Stmt} (hx : P → Queueable m x) :
    Yields m c P (modify fun s => { s with scopes := s.scopes.queue owner x } : Lower Unit)
      fun _ => True := by
  refine aside (fun _ => rfl) (fun _ => rfl) fun hp s i y hy => ?_
  rcases Scopes.mem_queued_queue hy with hy | rfl
  · exact .inl hy
  · exact .inr (hx hp)

/-- What is taken from the scope of a function was queued. -/
theorem closeFunction : Yields m c P Lower.closeFunction fun xs => ∀ x ∈ xs, Queueable m x := by
  refine ⟨fun s hs => ?_, fun _ s hs _ => ?_⟩
  · rcases Lower.closeFunction_cases c s with heq | ⟨i, current, heq⟩ <;> rw [heq] <;> exact hs
  · rcases Lower.closeFunction_cases c s with heq | ⟨i, current, heq⟩
    · rw [heq]
      exact ⟨hs, fun _ hx => absurd hx List.not_mem_nil⟩
    · rw [heq]
      exact ⟨⟨hs.header, fun j x hx => hs.queued j x (Scopes.mem_queued_take hx)⟩, hs.queued i⟩

end Yields

end JsxDialect
