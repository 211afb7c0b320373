import JsxDialect.Lower.Walk
import Mathlib.Logic.Basic

/-!
# The walk keeps what is declared

The walk rewrites expressions, and with them everything that has expressions inside, but it declares
nothing and takes no declaration away: patterns bind the same names, and statements declare the same
names in their blocks and functions. The same holds of the names that `as` and `for` attributes
bind, unless one of the binders is an element, which the walk may turn into a name.
-/

namespace JsxDialect

namespace Walk

variable (c : LoweringSetting)

/-! ## Patterns -/

mutual

/-- **The walk keeps the names that a pattern binds.** -/
theorem pattern_names (p : Pattern) (s : Lowering) : (pattern p c s).1.names = p.names := by
  cases p with
  | bind _ | target _ | hole => rfl
  | object ps rest => exact patternProperties_names ps s
  | array ps rest => exact patterns_names ps s
  | withDefault p e | typed p optional t => exact pattern_names p s

/-- Several patterns. -/
theorem patterns_names (ps : List Pattern) (s : Lowering) :
    patternNames (patterns ps c s).1 = patternNames ps := by
  cases ps with
  | nil => rfl
  | cons p ps => exact congrArg₂ (· ++ ·) (pattern_names p s) (patterns_names ps _)

/-- The members of an object pattern. -/
theorem patternProperties_names (ps : List PatternProperty) (s : Lowering) :
    propertyPatternNames (patternProperties ps c s).1 = propertyPatternNames ps := by
  match ps with
  | [] => rfl
  | .mk k p shorthand :: ps =>
    exact congrArg₂ (· ++ ·) (pattern_names p _) (patternProperties_names ps _)

end

/-- A pattern that may be missing. -/
theorem optPattern_names (p : Option Pattern) (s : Lowering) :
    ((optPattern p c s).1.map Pattern.names).getD [] = (p.map Pattern.names).getD [] := by
  cases p with
  | none => rfl
  | some p => exact pattern_names c p s

/-- Parameters. -/
theorem params_names (ps : List Param) (s : Lowering) :
    (params ps c s).1.flatMap (·.pattern.names) = ps.flatMap (·.pattern.names) := by
  induction ps generalizing s with
  | nil => rfl
  | cons p ps ih =>
    cases p with
    | mk decorators p => exact congrArg₂ (· ++ ·) (pattern_names c p _) (ih _)

/-! ## Declarations -/

/-- Declared variables. -/
theorem declarators_names (ds : List Declarator) (s : Lowering) :
    declaratorNames (declarators ds c s).1 = declaratorNames ds := by
  induction ds generalizing s with
  | nil => rfl
  | cons d ds ih =>
    cases d with
    | mk p e => exact congrArg₂ (· ++ ·) (pattern_names c p _) (ih _)

/-- The head of a loop. -/
theorem forHead_lexicalNames (head : ForHead) (s : Lowering) :
    (forHead head c s).1.lexicalNames = head.lexicalNames := by
  cases head with
  | absent | expr _ | target _ => rfl
  | decl kind ds =>
    cases kind with
    | var => rfl
    | «let» | «const» => exact declarators_names c ds s

/-- The walk keeps the name of a function. -/
theorem func_name (scope : ScopeKind) (seesName givesParams : Bool) (f : Func) (s : Lowering) :
    (func scope seesName givesParams f c s).1.name = f.name := by
  cases f
  rfl

/-- It keeps the name of a class. -/
theorem cls_name (isExpr : Bool) (k : Class) (s : Lowering) :
    (cls isExpr k c s).1.name = k.name := by
  cases k
  rfl

/-- **The walk keeps the names that a statement declares in its block.** -/
theorem stmt_lexicalNames (x : Stmt) (s : Lowering) :
    (stmt x c s).1.lexicalNames = x.lexicalNames := by
  cases x with
  | varDecl kind ds =>
    change (if kind == .var then [] else declaratorNames (declarators ds c s).1)
      = if kind == .var then [] else declaratorNames ds
    rw [declarators_names]
  | function f => exact congrArg Option.toList (func_name c _ _ _ f s)
  | classDecl k => exact congrArg Option.toList (cls_name c _ k s)
  | _ => rfl

/-- Several statements. -/
theorem stmts_lexicalNames (xs : List Stmt) (s : Lowering) :
    lexicalNames (stmts xs c s).1 = lexicalNames xs := by
  induction xs generalizing s with
  | nil => rfl
  | cons x xs ih => exact congrArg₂ (· ++ ·) (stmt_lexicalNames c x s) (ih _)

/-- The cases of a `switch`. -/
theorem switchCases_names (cases : List SwitchCase) (s : Lowering) :
    caseNames (switchCases cases c s).1 = caseNames cases := by
  induction cases generalizing s with
  | nil => rfl
  | cons k cases ih =>
    cases k with
    | mk t xs => exact congrArg₂ (· ++ ·) (stmts_lexicalNames c xs _) (ih _)

/-! ### Variables -/

section Variables

-- What is read off patterns, if the walk over a pattern keeps it.
variable {c} {g : Pattern → List String}

/-- What is taken of two groups of patterns, if it is the same for each. -/
theorem flatMap_append_congr {ps ps' qs qs' : List Pattern}
    (h : ps.flatMap g = ps'.flatMap g) (h' : qs.flatMap g = qs'.flatMap g) :
    (ps ++ qs).flatMap g = (ps' ++ qs').flatMap g := by
  rw [List.flatMap_append, List.flatMap_append, h, h']

/-- What is taken of the patterns of variables is the same after the walk. -/
theorem declarators_patterns (hg : ∀ p s, g (pattern p c s).1 = g p) (ds : List Declarator)
    (s : Lowering) :
    (declaratorPatterns (declarators ds c s).1).flatMap g = (declaratorPatterns ds).flatMap g := by
  induction ds generalizing s with
  | nil => rfl
  | cons d ds ih =>
    cases d with
    | mk p e => exact congrArg₂ (· ++ ·) (hg p _) (ih _)

/-- So is what is taken of those in the head of a loop. -/
theorem forHead_varPatterns (hg : ∀ p s, g (pattern p c s).1 = g p) (head : ForHead)
    (s : Lowering) :
    (forHead head c s).1.varPatterns.flatMap g = head.varPatterns.flatMap g := by
  cases head with
  | absent | expr _ | target _ => rfl
  | decl kind ds =>
    cases kind with
    | var => exact declarators_patterns hg ds s
    | «let» | «const» => rfl

mutual

/-- **The walk keeps whatever it keeps of single patterns** for all patterns of `var` in a
statement. -/
theorem stmt_varPatterns (hg : ∀ p s, g (pattern p c s).1 = g p) (x : Stmt) (s : Lowering) :
    (stmt x c s).1.varPatterns.flatMap g = x.varPatterns.flatMap g := by
  cases x with
  | varDecl kind ds =>
    change (if kind == .var then declaratorPatterns (declarators ds c s).1 else []).flatMap _
      = (if kind == .var then declaratorPatterns ds else []).flatMap _
    split
    · exact declarators_patterns hg ds s
    · rfl
  | block xs => exact stmts_varPatterns hg xs _
  | «if» t x a => exact flatMap_append_congr (stmt_varPatterns hg x _) (optStmt_varPatterns hg a _)
  | «for» init t u x =>
    exact flatMap_append_congr (forHead_varPatterns hg init _) (stmt_varPatterns hg x _)
  | forIn left r x | forOf isAwait left r x =>
    exact flatMap_append_congr (forHead_varPatterns hg left _) (stmt_varPatterns hg x _)
  | «while» t x | doWhile x t | labeled label x => exact stmt_varPatterns hg x _
  | «try» block handler finalizer =>
    exact flatMap_append_congr
      (flatMap_append_congr (stmts_varPatterns hg block _) (optCatch_varPatterns hg handler _))
      (optBlock_varPatterns hg finalizer _)
  | switch d cases => exact switchCases_varPatterns hg cases _
  | _ => rfl

/-- The same for several statements. -/
theorem stmts_varPatterns (hg : ∀ p s, g (pattern p c s).1 = g p) (xs : List Stmt) (s : Lowering) :
    (varPatterns (stmts xs c s).1).flatMap g = (varPatterns xs).flatMap g := by
  cases xs with
  | nil => rfl
  | cons x xs => exact flatMap_append_congr (stmt_varPatterns hg x _) (stmts_varPatterns hg xs _)

/-- The same for an `else` part. -/
theorem optStmt_varPatterns (hg : ∀ p s, g (pattern p c s).1 = g p) (x : Option Stmt)
    (s : Lowering) :
    (optionVarPatterns (optStmt x c s).1).flatMap g = (optionVarPatterns x).flatMap g := by
  cases x with
  | none => rfl
  | some x => exact stmt_varPatterns hg x _

/-- The same for a finalizer. -/
theorem optBlock_varPatterns (hg : ∀ p s, g (pattern p c s).1 = g p) (xs : Option (List Stmt))
    (s : Lowering) :
    (finalizerVarPatterns (optBlock xs c s).1).flatMap g = (finalizerVarPatterns xs).flatMap g := by
  cases xs with
  | none => rfl
  | some xs => exact stmts_varPatterns hg xs _

/-- The same for a handler. -/
theorem optCatch_varPatterns (hg : ∀ p s, g (pattern p c s).1 = g p) (x : Option Catch)
    (s : Lowering) :
    (handlerVarPatterns (optCatch x c s).1).flatMap g = (handlerVarPatterns x).flatMap g := by
  match x with
  | none => rfl
  | some (.mk param xs) => exact stmts_varPatterns hg xs _

/-- The same for the cases of a `switch`. -/
theorem switchCases_varPatterns (hg : ∀ p s, g (pattern p c s).1 = g p) (cases : List SwitchCase)
    (s : Lowering) :
    (caseVarPatterns (switchCases cases c s).1).flatMap g = (caseVarPatterns cases).flatMap g := by
  match cases with
  | [] => rfl
  | .mk t xs :: cases =>
    exact flatMap_append_congr (stmts_varPatterns hg xs _) (switchCases_varPatterns hg cases _)

end

end Variables

/-- **The statements of a function declare the same names.** -/
theorem stmts_names (xs : List Stmt) (s : Lowering) :
    varNames (stmts xs c s).1 ++ lexicalNames (stmts xs c s).1 = varNames xs ++ lexicalNames xs :=
  congrArg₂ (· ++ ·) (stmts_varPatterns (pattern_names c) xs s) (stmts_lexicalNames c xs s)

end Walk

/-! ## Binders -/

/-- Whether an expression is an element. -/
def Expr.isMarkup (e : Expr) : Bool :=
  match e.inner with
  | .element _ => true
  | _ => false

/-- Whether an expression is in no wrapper. -/
def Expr.IsBare (e : Expr) : Prop :=
  (∀ span x, e ≠ .paren span x) ∧ (∀ span test x type, e ≠ .typed span test x type)
    ∧ ∀ span x, e ≠ .nonNull span x

/-- What is in all wrappers is in no wrapper. -/
theorem Expr.isBare_inner (e : Expr) : e.inner.IsBare := by
  fun_induction Expr.inner e with
  | case1 _ e ih | case2 _ _ e _ ih | case3 _ e ih => exact ih
  | case4 e hparen htyped hnonNull => exact ⟨hparen, htyped, hnonNull⟩

namespace Walk

variable (c : LoweringSetting)

/-- Wrappers can be taken off before the walk or after it. -/
theorem inner_expr (e : Expr) (s : Lowering) :
    (expr e c s).1.inner = (expr e.inner c s).1.inner := by
  fun_induction Expr.inner e with
  | case1 _ e ih | case2 _ _ e _ ih | case3 _ e ih => exact ih
  | case4 => rfl

/-- An entry that is no element binds the same name. -/
theorem binderName?_expr {e : Expr} (h : e.isMarkup = false) (s : Lowering) :
    binderName? (expr e c s).1 = binderName? e := by
  have hbare := e.isBare_inner
  unfold Expr.isMarkup at h
  unfold binderName?
  rw [inner_expr]
  generalize e.inner = x at h hbare
  cases x with
  | element _ => cases h
  | paren _ _ => exact absurd rfl (hbare.1 _ _)
  | typed _ _ _ _ => exact absurd rfl (hbare.2.1 _ _ _ _)
  | nonNull _ _ => exact absurd rfl (hbare.2.2 _ _)
  | _ => rfl

/-- The walk keeps the names of binders, if none of them is an element. -/
theorem exprs_binderNames {es : List Expr} (h : ∀ e ∈ es, e.isMarkup = false) (s : Lowering) :
    (exprs es c s).1.filterMap binderName? = es.filterMap binderName? := by
  induction es generalizing s with
  | nil => rfl
  | cons e es ih =>
    have hhead := binderName?_expr c (h e List.mem_cons_self) s
    have htail := ih (fun e' he' => h e' (List.mem_cons_of_mem _ he')) (expr e c s).2
    change ((expr e c s).1 :: (exprs es c (expr e c s).2).1).filterMap binderName? = _
    rw [List.filterMap_cons, List.filterMap_cons, hhead, htail]

/-- A list of binders that are no elements binds the same names. -/
theorem binderNames_expr {e : Expr} (h : ∀ entry ∈ binderEntries e, entry.isMarkup = false)
    (s : Lowering) : binderNames (expr e c s).1 = binderNames e := by
  have hbare := e.isBare_inner
  unfold binderEntries at h
  unfold binderNames binderEntries
  rw [inner_expr]
  generalize e.inner = x at h hbare
  cases x with
  | sequence _ es => exact exprs_binderNames c h s
  | element _ => cases (h _ List.mem_cons_self : true = false)
  | paren _ _ => exact absurd rfl (hbare.1 _ _)
  | typed _ _ _ _ => exact absurd rfl (hbare.2.1 _ _ _ _)
  | nonNull _ _ => exact absurd rfl (hbare.2.2 _ _)
  | _ => rfl

end Walk

/-- The first of several entries is a binder; the others are split. -/
theorem splitForLast?_cons_eq_some {e e' collection : Expr} {es binders : List Expr} :
    splitForLast? (e :: e' :: es) = some (binders, collection)
      ↔ ∃ rest, splitForLast? (e' :: es) = some (rest, collection) ∧ binders = e :: rest := by
  have hcons : splitForLast? (e :: e' :: es)
      = (splitForLast? (e' :: es)).map fun r => (e :: r.1, r.2) := by
    cases h : splitForLast? (e' :: es) <;> simp only [splitForLast?, h, Option.map]
  rw [hcons, Option.map_eq_some_iff]
  constructor
  · rintro ⟨⟨rest, last⟩, hrest, heq⟩
    obtain ⟨rfl, rfl⟩ := Prod.mk.inj heq
    exact ⟨rest, hrest, rfl⟩
  · rintro ⟨rest, hrest, rfl⟩
    exact ⟨(rest, collection), hrest, rfl⟩

mutual

/-- The binders before the collection are those that a `for` attribute is said to bind. -/
theorem filterMap_splitFor {e collection : Expr} {binders : List Expr}
    (h : splitFor? e = some (binders, collection)) :
    binders.filterMap binderName? = forNames e := by
  cases e with
  | paren _ e | nonNull _ e | typed _ _ e _ => exact filterMap_splitFor (e := e) h
  | sequence _ es => exact filterMap_splitForLast (l := es) h
  | binary _ op left right =>
    cases op with
    | isIn =>
      obtain ⟨rfl, rfl⟩ := Prod.mk.inj (Option.some.inj h)
      rfl
    | _ => cases h
  | _ => cases h

/-- The names before the collection of a `for`. -/
theorem filterMap_splitForLast {l : List Expr} {collection : Expr} {binders : List Expr}
    (h : splitForLast? l = some (binders, collection)) :
    binders.filterMap binderName? = forNamesLast l := by
  match l with
  | [] => cases h
  | [e] => exact filterMap_splitFor (e := e) h
  | e :: e' :: es =>
    obtain ⟨rest, hrest, rfl⟩ := splitForLast?_cons_eq_some.mp h
    have ih := filterMap_splitForLast (l := e' :: es) hrest
    change _ = (binderName? e).toList ++ forNamesLast (e' :: es)
    rw [List.filterMap_cons, ← ih]
    cases binderName? e <;> rfl

end

namespace ControlFlow

variable (c : LoweringSetting)

/-- What holds of every result of the second of two steps holds of the result of both. -/
theorem result_bind {α β : Type} {P : β → Prop} {act : Lower α} {f : α → Lower β}
    (h : ∀ a s, P (f a c s).1) (s : Lowering) : P ((act >>= f) c s).1 :=
  h _ _

/-- No control flow becomes a `for` list. -/
theorem splitFor?_lowerAlone {e : Element} {tag : ControlTag} (h : e.control? = some tag)
    (s : Lowering) : splitFor? (lowerAlone tag e c s).1 = none := by
  cases tag with
  | elseIf | «else» | switch | group => rfl
  | «if» | «unless» =>
    change splitFor? (conditionals e.span (lowerBranches [e] c s).1.1 _) = none
    have hcons : ∃ b bs, (lowerBranches [e] c s).1.1 = b :: bs := by
      unfold lowerBranches
      rw [h]
      exact ⟨_, _, rfl⟩
    obtain ⟨b, bs, hbs⟩ := hcons
    rw [hbs]
    rfl
  | «repeat» =>
    refine result_bind c (P := fun r => splitFor? r = none) (fun head t => ?_) s
    dsimp only
    split
    · rfl
    · rfl
  | «using» =>
    refine result_bind c (P := fun r => splitFor? r = none) (fun value t => ?_) s
    refine result_bind c (P := fun r => splitFor? r = none) (fun names u => ?_) t
    split
    · rfl
    · rfl

/-- No element becomes something that could be a `for`. -/
theorem splitFor?_lowerExpr (e : Element) (s : Lowering) :
    splitFor? (lowerExpr e c s).1 = none := by
  unfold lowerExpr
  cases htag : e.control? with
  | none => rfl
  | some tag =>
    change splitFor? ((if c.options.controlFlow then lowerAlone tag e
      else return .element e : Lower Expr) c s).1 = none
    split
    · exact splitFor?_lowerAlone c htag s
    · rfl

/-- The same for an element as the value of an attribute. -/
theorem splitFor?_lowerValue (e : Element) (s : Lowering) (span : Span) :
    splitFor? ((lowerValue e c s).1.toExpr span) = none := by
  unfold lowerValue
  cases htag : e.control? with
  | none => rfl
  | some tag =>
    change splitFor? (AttrValue.toExpr span ((if c.options.controlFlow
      then return .container e.span (some (← lowerAlone tag e))
      else return .element e : Lower AttrValue) c s).1) = none
    split
    · exact splitFor?_lowerAlone c htag s
    · rfl

end ControlFlow

namespace Walk

variable (c : LoweringSetting)

mutual

/-- **A `for` attribute binds the same names**, if no binder is an element. -/
theorem splitFor_expr {e collection : Expr} {binders : List Expr} {s : Lowering}
    (h : splitFor? (expr e c s).1 = some (binders, collection)) :
    ∃ found, splitFor? e = some found ∧ ((∀ b ∈ found.1, b.isMarkup = false) →
      binders.filterMap binderName? = found.1.filterMap binderName?) := by
  cases e with
  | paren _ e | nonNull _ e | typed _ _ e _ => exact splitFor_expr (e := e) h
  | sequence _ es => exact splitForLast_exprs (l := es) h
  | binary _ op left right =>
    cases op with
    | isIn =>
      obtain ⟨rfl, -⟩ := Prod.mk.inj (Option.some.inj h)
      exact ⟨_, rfl, fun hplain => binderNames_expr c hplain _⟩
    | _ => cases h
  | element e =>
    have hnone := ControlFlow.splitFor?_lowerExpr c (element e c s).1 (element e c s).2
    exact absurd (hnone.symm.trans h) (by simp)
  | _ => cases h

/-- What is a `for` after the walk was one before it, with the same names. -/
theorem splitForLast_exprs {l : List Expr} {collection : Expr} {binders : List Expr} {s : Lowering}
    (h : splitForLast? (exprs l c s).1 = some (binders, collection)) :
    ∃ found, splitForLast? l = some found ∧ ((∀ b ∈ found.1, b.isMarkup = false) →
      binders.filterMap binderName? = found.1.filterMap binderName?) := by
  match l with
  | [] => cases h
  | [e] => exact splitFor_expr (e := e) h
  | e :: e' :: es =>
    -- The walk of the entries after the first is again a list with a first entry.
    have hsplit : splitForLast? ((expr e c s).1 :: (expr e' c (expr e c s).2).1
        :: (exprs es c (expr e' c (expr e c s).2).2).1) = some (binders, collection) := h
    obtain ⟨rest, hrest, rfl⟩ := splitForLast?_cons_eq_some.mp hsplit
    obtain ⟨found, hl, hnames⟩ := splitForLast_exprs (l := e' :: es) hrest
    refine ⟨(e :: found.1, found.2), splitForLast?_cons_eq_some.mpr ⟨_, hl, rfl⟩,
      fun hplain => ?_⟩
    rw [List.filterMap_cons, List.filterMap_cons,
      binderName?_expr c (hplain e List.mem_cons_self),
      hnames fun b hb => hplain b (List.mem_cons_of_mem _ hb)]

end

end Walk

/-- **Whether an element binds plainly**: at most one `as` attribute, no directive that would make
one, and no element where a name is to be bound. -/
def Element.bindsPlainly (e : Element) : Bool :=
  (e.attrs.filter (·.isNamed "as")).length ≤ 1
    && e.attrs.all (fun a => Bind.directiveName? a != some "as")
    && (Attrs.get? e.attrs "as").all (fun (span, value) =>
      (binderEntries (value.toExpr span)).all (!·.isMarkup))
    && (e.control? != some .repeat
      || ((Attrs.get? e.attrs "for").bind fun (span, value) => splitFor? (value.toExpr span)).all
        fun (binders, _) => binders.all (!·.isMarkup))

/-- The only attribute of a name is the one that is found. -/
theorem Attrs.get?_of_mem {as : List Attr} {span : Span} {n : AttrName} {value : AttrValue}
    (hmem : .named span n value ∈ as)
    (hone : (as.filter (·.isNamed n.text)).length ≤ 1) : get? as n.text = some (span, value) := by
  induction as with
  | nil => exact absurd hmem List.not_mem_nil
  | cons a as ih =>
    cases a with
    | spread span' e =>
      rcases List.mem_cons.mp hmem with h | h
      · cases h
      · exact ih h hone
    | named span' n' value' =>
      rcases List.mem_cons.mp hmem with h | h
      · obtain ⟨rfl, rfl, rfl⟩ := Attr.named.inj h
        simp only [get?, beq_self_eq_true, if_true]
      · by_cases hn : n'.text = n.text
        · -- A second attribute of the name is one too many.
          have hkeep : (Attr.named span' n' value').isNamed n.text = true := by
            simp [Attr.isNamed, Attr.name?, hn]
          have hlater : Attr.named span n value ∈ as.filter (·.isNamed n.text) :=
            List.mem_filter.mpr ⟨h, by simp [Attr.isNamed, Attr.name?]⟩
          rw [List.filter_cons_of_pos hkeep, List.length_cons] at hone
          have hpos := List.length_pos_of_mem hlater
          exact absurd hone (Nat.not_le.mpr (Nat.lt_add_of_pos_left hpos))
        · have hskip : ¬ (Attr.named span' n' value').isNamed n.text = true := by
            simpa [Attr.isNamed, Attr.name?] using hn
          rw [List.filter_cons_of_neg hskip] at hone
          simp only [get?, beq_eq_false_iff_ne.mpr hn, Bool.false_eq_true, if_false]
          exact ih h hone

namespace Walk

variable (c : LoweringSetting)

/-- An attribute after the walk was there with another value. -/
theorem attrs_mem {as : List Attr} {s : Lowering} {span : Span} {n : AttrName} {value : AttrValue}
    (h : .named span n value ∈ (attrs as c s).1) :
    ∃ old t, .named span n old ∈ as ∧ value = (attrValue old c t).1 := by
  induction as generalizing s with
  | nil => exact absurd h List.not_mem_nil
  | cons a as ih =>
    cases a with
    | named span' n' old =>
      rcases List.mem_cons.mp h with h | h
      · obtain ⟨rfl, rfl, rfl⟩ := Attr.named.inj h
        exact ⟨old, s, List.mem_cons_self, rfl⟩
      · obtain ⟨old, t, hold, hvalue⟩ := ih h
        exact ⟨old, t, List.mem_cons_of_mem _ hold, hvalue⟩
    | spread span' e =>
      rcases List.mem_cons.mp h with h | h
      · cases h
      · obtain ⟨old, t, hold, hvalue⟩ := ih h
        exact ⟨old, t, List.mem_cons_of_mem _ hold, hvalue⟩

/-- So an attribute that is found by its name was found before. -/
theorem attrs_get? {as : List Attr} {s : Lowering} {name : String} {span : Span} {value : AttrValue}
    (h : Attrs.get? (attrs as c s).1 name = some (span, value)) :
    ∃ old t, Attrs.get? as name = some (span, old) ∧ value = (attrValue old c t).1 := by
  induction as generalizing s with
  | nil => cases h
  | cons a as ih =>
    cases a with
    | named span' n' old =>
      change (if n'.text == name then some (span', (attrValue old c s).1)
        else Attrs.get? (attrs as c (attrValue old c s).2).1 name) = _ at h
      simp only [Attrs.get?]
      split at h
      · rename_i hn
        obtain ⟨rfl, rfl⟩ := Prod.mk.inj (Option.some.inj h)
        exact ⟨old, s, by rw [if_pos hn], rfl⟩
      · rename_i hn
        obtain ⟨old', t, hold, hvalue⟩ := ih h
        exact ⟨old', t, by rw [if_neg hn]; exact hold, hvalue⟩
    | spread span' e => exact ih (s := (expr e c s).2) h

/-- An `as` attribute whose binders are no elements binds the same names. -/
theorem attrValue_binderNames {value : AttrValue} (span : Span) {s : Lowering} {e : Expr}
    (h : (attrValue value c s).1.expr? = some e)
    (hplain : ∀ entry ∈ binderEntries (value.toExpr span), entry.isMarkup = false) :
    ∃ old, value.expr? = some old ∧ binderNames e = binderNames old := by
  cases value with
  | absent | string _ | fragment _ _ => cases h
  | element x =>
    have hmarkup : (Expr.element x).isMarkup = false := hplain _ List.mem_cons_self
    cases hmarkup
  | container inside x =>
    cases x with
    | none => cases h
    | some x =>
      obtain rfl := Option.some.inj h
      exact ⟨x, rfl, binderNames_expr c hplain s⟩

/-- A `for` attribute whose binders are no elements binds the same names. -/
theorem attrValue_splitFor {value : AttrValue} {span : Span} {s : Lowering} {binders : List Expr}
    {collection : Expr}
    (h : splitFor? ((attrValue value c s).1.toExpr span) = some (binders, collection))
    (hplain : ∀ found, splitFor? (value.toExpr span) = some found →
      ∀ b ∈ found.1, b.isMarkup = false) :
    ∃ old, value.expr? = some old ∧ binders.filterMap binderName? = forNames old := by
  cases value with
  | absent | string _ | fragment _ _ => cases h
  | element x =>
    have hnone := ControlFlow.splitFor?_lowerValue c (element x c s).1 (element x c s).2 span
    exact absurd (hnone.symm.trans h) (by simp)
  | container inside x =>
    cases x with
    | none => cases h
    | some x =>
      obtain ⟨found, hfound, hnames⟩ := splitFor_expr c h
      exact ⟨x, rfl, (hnames (hplain found hfound)).trans (filterMap_splitFor hfound)⟩

end Walk

end JsxDialect
