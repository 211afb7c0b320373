import JsxDialect.Proofs.Site
import JsxDialect.Syntax.Occurrence

/-!
# The names at the places of a module

The names that a module uses are collected from the events of reading it. They are the names that
its places bind or refer to, and no others.
-/

namespace JsxDialect

/-- The names at places. -/
def Site.names (ps : List Site) : List String :=
  ps.filterMap Site.name?

/-- The names in events. -/
def NameEvent.names (es : List NameEvent) : List String :=
  es.filterMap NameEvent.name?

namespace Site

/-- No names are at no places. -/
@[simp] theorem names_nil : names [] = [] := rfl

/-- The names at places one after the other. -/
@[simp] theorem names_append (ps qs : List Site) : names (ps ++ qs) = names ps ++ names qs :=
  List.filterMap_append

/-- A reference is a name. -/
@[simp] theorem names_reference (name : String) : names [reference name] = [name] := rfl

/-- A name that is bound is a name. -/
@[simp] theorem names_binding (name : String) : names [binding name] = [name] := rfl

/-- A layer around places changes none of their names. -/
@[simp] theorem names_under (l : Layer) (ps : List Site) : names (under l ps) = names ps := by
  simp only [names, under, List.filterMap_map]
  rfl

end Site

namespace NameEvent

/-- No names are in no events. -/
@[simp] theorem names_nil : names [] = [] := rfl

/-- The names in events one after the other. -/
@[simp] theorem names_append (es fs : List NameEvent) : names (es ++ fs) = names es ++ names fs :=
  List.filterMap_append

/-- An event of a reference has its name. -/
@[simp] theorem names_refer (name : String) : names [.refer name] = [name] := rfl

/-- So has an event of a name that is bound. -/
@[simp] theorem names_bind (name : String) : names [.bind name] = [name] := rfl

/-- Opening and closing a scope are events without names. -/
@[simp] theorem names_inScope (es : List NameEvent) : names (inScope es) = names es := by
  simp only [names, inScope, List.cons_append, List.filterMap_cons, List.filterMap_append, name?,
    List.filterMap_nil, List.append_nil]

end NameEvent

namespace Site

/-! ## Types and names -/

mutual

/-- **The names in a type** are the same for places and events, in the same order. -/
theorem names_ofType : ∀ t : TypeExpr, names (ofType t) = NameEvent.names (NameEvent.ofType t)
  | .keyword _ | .string _ | .number _ => rfl
  | .reference name _ args => congrArg (name :: ·) (names_ofTypes args)
  | .array item => names_ofType item
  | .union members => names_ofTypes members
  | .intersection members => names_ofTypes members

/-- The names in several types. -/
theorem names_ofTypes :
    ∀ ts : List TypeExpr, names (ofTypes ts) = NameEvent.names (NameEvent.ofTypes ts)
  | [] => rfl
  | t :: ts => by
    simp only [ofTypes, NameEvent.ofTypes, names_append, NameEvent.names_append, names_ofType t,
      names_ofTypes ts]

end

/-- The names in a type that may be missing. -/
theorem names_ofOptType (t : Option TypeExpr) :
    names (ofOptType t) = NameEvent.names (NameEvent.ofOptType t) := by
  cases t with
  | none => rfl
  | some t => exact names_ofType t

/-- The names in a declared `this` parameter. -/
theorem names_ofThisParam (p : Option ThisParam) :
    names (ofThisParam p) = NameEvent.names (NameEvent.ofThisParam p) := by
  cases p with
  | none => rfl
  | some p => exact names_ofOptType p.type

/-- The name of a function or class that may be missing. -/
theorem names_ofName (name : Option String) :
    names (ofName name) = NameEvent.names (NameEvent.ofName name) := by
  cases name <;> rfl

/-- The name that the name of an element refers to. -/
theorem names_ofElementName (name : ElementName) :
    names (ofElementName name) = NameEvent.names (NameEvent.ofElementName name) := by
  cases name with
  | member root path =>
    simp only [ofElementName, NameEvent.ofElementName]
    split <;> rfl
  | _ => rfl

/-- The names of the statements of a body do not depend on what is before them. -/
theorem names_ofBodyStmts (isMethod : Bool) (all before ss : List Stmt) :
    names (ofBodyStmts isMethod all before ss) = names (ofStmts ss) := by
  induction ss generalizing before with
  | nil => rfl
  | cons s ss ih => simp only [ofBodyStmts, ofStmts, names_append, names_under, ih]

/-! ## Whole trees -/

/-- Places and events with the same names. -/
def Agree (ps : List Site) (es : List NameEvent) : Prop :=
  ∀ name, name ∈ names ps ↔ name ∈ NameEvent.names es

section Agree

variable {ps qs rs : List Site} {es fs gs : List NameEvent}

/-- What has the same names agrees. -/
theorem Agree.of_eq (h : names ps = NameEvent.names es) : Agree ps es :=
  fun _ => by rw [h]

/-- What agrees, one after the other. -/
theorem Agree.append (h₁ : Agree ps es) (h₂ : Agree qs fs) : Agree (ps ++ qs) (es ++ fs) := by
  intro name
  rw [names_append, NameEvent.names_append, List.mem_append, List.mem_append, h₁ name, h₂ name]

/-- Three parts, grouped to the right at the places and to the left in the events. -/
theorem Agree.append₃ (h₁ : Agree ps es) (h₂ : Agree qs fs) (h₃ : Agree rs gs) :
    Agree (ps ++ (qs ++ rs)) (es ++ fs ++ gs) := by
  rw [List.append_assoc]
  exact h₁.append (h₂.append h₃)

/-- Four parts. -/
theorem Agree.append₄ {ts : List Site} {hs : List NameEvent} (h₁ : Agree ps es) (h₂ : Agree qs fs)
    (h₃ : Agree rs gs) (h₄ : Agree ts hs) :
    Agree (ps ++ (qs ++ (rs ++ ts))) (es ++ fs ++ gs ++ hs) := by
  rw [List.append_assoc]
  exact h₁.append₃ h₂ (h₃.append h₄)

/-- Five parts. -/
theorem Agree.append₅ {ts us : List Site} {hs is : List NameEvent} (h₁ : Agree ps es)
    (h₂ : Agree qs fs) (h₃ : Agree rs gs) (h₄ : Agree ts hs) (h₅ : Agree us is) :
    Agree (ps ++ (qs ++ (rs ++ (ts ++ us)))) (es ++ fs ++ gs ++ hs ++ is) := by
  rw [List.append_assoc]
  exact h₁.append₄ h₂ h₃ (h₄.append h₅)

/-- A layer at the places, and a scope among the events. -/
theorem Agree.inScope (h : Agree ps es) (l : Layer) :
    Agree (under l ps) (NameEvent.inScope es) := by
  intro name
  rw [names_under, NameEvent.names_inScope, h name]

/-- A layer at the places alone. -/
theorem Agree.under (h : Agree ps es) (l : Layer) : Agree (under l ps) es := by
  intro name
  rw [names_under, h name]

/-- One more parameter. -/
theorem Agree.params {decorators params : List Site} (h₁ : Agree ps es) (h₂ : Agree qs fs)
    (h₃ : Agree (decorators ++ params) gs) :
    Agree ((ps ++ decorators) ++ (qs ++ params)) (es ++ fs ++ gs) := by
  intro n
  have hn := h₃ n
  simp only [names_append, List.mem_append] at hn
  simp only [names_append, NameEvent.names_append, List.mem_append, ← hn, h₁ n, h₂ n]
  grind

/-- A function, from its parameters, its rest and its body. -/
theorem Agree.function {decorators params : List Site} (isDeclaration : Bool)
    (name : Option String) (thisParam : Option ThisParam) (type : Option TypeExpr) (l l' : Layer)
    (hparams : Agree (decorators ++ params) es) (hrest : Agree ps fs) (hbody : Agree qs gs) :
    Agree
      (ofName name ++ (Site.under l decorators ++ Site.under l'
        (ofThisParam thisParam ++ (params ++ (ps ++ (ofOptType type ++ qs))))))
      ((if isDeclaration then NameEvent.ofName name else [])
        ++ NameEvent.inScope (NameEvent.ofName name ++ NameEvent.ofThisParam thisParam ++ es ++ fs
          ++ NameEvent.ofOptType type ++ gs)) := by
  intro n
  have hn := hparams n
  simp only [names_append, List.mem_append] at hn
  cases isDeclaration <;>
    simp only [names_append, names_under, NameEvent.names_append, NameEvent.names_inScope,
      NameEvent.names_nil, Bool.false_eq_true, if_false, if_true, List.mem_append,
      List.not_mem_nil, names_ofName, names_ofThisParam, names_ofOptType, ← hn, hrest n,
      hbody n] <;>
    grind

end Agree

/-- The names that an import binds. -/
theorem agree_imported (items : Option (List ImportItem)) :
    Agree ((items.getD []).map fun item => binding item.localName)
      ((items.getD []).map fun item => .bind item.localName) := by
  refine .of_eq ?_
  simp only [names, NameEvent.names, List.filterMap_map]
  rfl

/-- The names that an export refers to: none if it is from another module. -/
theorem agree_exported (items : List (ExportName × ExportName)) (source : Option String) :
    Agree (if source.isNone then items.map fun item => reference item.1.name else [])
      (if source.isNone then items.map fun item => .refer item.1.name else []) := by
  refine .of_eq ?_
  split
  · simp only [names, NameEvent.names, List.filterMap_map]
    rfl
  · rfl

mutual

/-- **Places and events have the same names.** One lemma for each part of the syntax, by its
constructors; only functions have their parts in another order. -/
theorem agree_ofExpr : ∀ e : Expr, Agree (ofExpr e) (NameEvent.ofExpr e)
  | .ident _ _ | .alias _ _ _ => .of_eq rfl
  | .number .. | .string .. | .bigint .. | .regex .. | .bool .. | .null _ | .this _ | .super _
  | .metaProperty .. | .hole => .of_eq rfl
  | .template _ _ es => agree_ofExprs es
  | .tagged _ t _ es => (agree_ofExpr t).append (agree_ofExprs es)
  | .spread e => agree_ofExpr e
  | .array _ es => agree_ofExprs es
  | .object _ ps => agree_ofProperties ps
  | .function _ f => (agree_ofFunction false f).under _
  | .arrow _ f => agree_ofArrow f
  | .classExpr _ c => agree_ofClass c
  | .unary _ _ e | .update _ _ _ e => agree_ofExpr e
  | .binary _ _ l r | .logical _ _ l r => (agree_ofExpr l).append (agree_ofExpr r)
  | .privateIn _ _ r => agree_ofExpr r
  | .assign _ _ l r => (agree_ofPattern l).append (agree_ofExpr r)
  | .conditional _ t c a => (agree_ofExpr t).append₃ (agree_ofExpr c) (agree_ofExpr a)
  | .call _ c as _ | .new _ c as => (agree_ofExpr c).append (agree_ofExprs as)
  | .member _ o _ _ | .privateMember _ o _ _ => agree_ofExpr o
  | .index _ o k _ => (agree_ofExpr o).append (agree_ofExpr k)
  | .chain _ e => agree_ofExpr e
  | .sequence _ es => agree_ofExprs es
  | .paren _ e => agree_ofExpr e
  | .yield _ _ e => agree_ofOption e
  | .await _ e => agree_ofExpr e
  | .importCall _ as => agree_ofExprs as
  | .typed _ _ e t => (agree_ofExpr e).append (.of_eq (names_ofType t))
  | .nonNull _ e => agree_ofExpr e
  | .element e => agree_ofElement e
  | .fragment _ cs => agree_ofChildren cs

theorem agree_ofExprs : ∀ es : List Expr, Agree (ofExprs es) (NameEvent.ofExprs es)
  | [] => .of_eq rfl
  | e :: es => (agree_ofExpr e).append (agree_ofExprs es)

theorem agree_ofOption : ∀ e : Option Expr, Agree (ofOption e) (NameEvent.ofOption e)
  | none => .of_eq rfl
  | some e => agree_ofExpr e

theorem agree_ofKey : ∀ k : Key, Agree (ofKey k) (NameEvent.ofKey k)
  | .computed e => agree_ofExpr e
  | .ident _ | .string _ | .number _ | .bigint _ | .privateName _ => .of_eq rfl

theorem agree_ofProperties : ∀ ps : List Property,
    Agree (ofProperties ps) (NameEvent.ofProperties ps)
  | [] => .of_eq rfl
  | .field k v _ :: ps =>
    ((agree_ofKey k).append (agree_ofExpr v)).append (agree_ofProperties ps)
  | .method _ k f :: ps =>
    ((agree_ofKey k).append (agree_ofFunction false f)).append (agree_ofProperties ps)
  | .spread e :: ps => (agree_ofExpr e).append (agree_ofProperties ps)

/-- An arrow function: decorators of parameters come first at the places. -/
theorem agree_ofArrow : ∀ f : Func, Agree (ofArrow f) (NameEvent.ofFunction false f)
  | .mk name _ _ thisParam _ params rest type body =>
    .function false name thisParam type _ _ (agree_ofParams params) (agree_ofRest rest)
      (agree_ofArrowBody body)

theorem agree_ofArrowBody : ∀ b : Body, Agree (ofArrowBody b) (NameEvent.ofBody b)
  | .absent => .of_eq rfl
  | .expr e => agree_ofExpr e
  | .block _ ss => (agree_ofStmts ss).under _

/-- A function, a method or a declaration. -/
theorem agree_ofFunction (isDeclaration : Bool) {isMethod : Bool} :
    ∀ f : Func, Agree (ofFunction isMethod f) (NameEvent.ofFunction isDeclaration f)
  | .mk name _ _ thisParam _ params rest type body =>
    .function isDeclaration name thisParam type _ _ (agree_ofParams params) (agree_ofRest rest)
      (agree_ofBody isMethod body)

/-- A body, whatever its statements see of each other. -/
theorem agree_ofBody (isMethod : Bool) :
    ∀ b : Body, Agree (ofBody isMethod b) (NameEvent.ofBody b)
  | .absent => .of_eq rfl
  | .expr e => agree_ofExpr e
  | .block _ ss => fun n =>
    (names_ofBodyStmts isMethod ss [] ss ▸ agree_ofStmts ss n :
      n ∈ names (ofBodyStmts isMethod ss [] ss) ↔ n ∈ NameEvent.names (NameEvent.ofStmts ss))

/-- Parameters: all decorators and then all patterns, or in turn. -/
theorem agree_ofParams :
    ∀ ps : List Param, Agree (ofDecorators ps ++ ofParams ps) (NameEvent.ofParams ps)
  | [] => .of_eq rfl
  | .mk decorators p :: ps =>
    .params (agree_ofExprs decorators) (agree_ofPattern p) (agree_ofParams ps)

theorem agree_ofPattern : ∀ p : Pattern, Agree (ofPattern p) (NameEvent.ofPattern p)
  | .bind _ | .hole => .of_eq rfl
  | .target e => agree_ofExpr e
  | .object ps rest => (agree_ofPatternProperties ps).append (agree_ofRest rest)
  | .array ps rest => (agree_ofPatterns ps).append (agree_ofRest rest)
  | .withDefault p e => (agree_ofPattern p).append (agree_ofExpr e)
  | .typed p _ t => (agree_ofPattern p).append (.of_eq (names_ofOptType t))

theorem agree_ofPatterns : ∀ ps : List Pattern, Agree (ofPatterns ps) (NameEvent.ofPatterns ps)
  | [] => .of_eq rfl
  | p :: ps => (agree_ofPattern p).append (agree_ofPatterns ps)

theorem agree_ofRest : ∀ p : Option Pattern, Agree (ofRest p) (NameEvent.ofRest p)
  | none => .of_eq rfl
  | some p => agree_ofPattern p

theorem agree_ofPatternProperties : ∀ ps : List PatternProperty,
    Agree (ofPatternProperties ps) (NameEvent.ofPatternProperties ps)
  | [] => .of_eq rfl
  | .mk k p _ :: ps =>
    (agree_ofKey k).append₃ (agree_ofPattern p) (agree_ofPatternProperties ps)

/-- Places and events of a statement. -/
theorem agree_ofStmt : ∀ s : Stmt, Agree (ofStmt s) (NameEvent.ofStmt s)
  | .expr e => agree_ofExpr e
  | .varDecl _ ds => agree_ofDeclarators ds
  | .function f => agree_ofFunction true f
  | .classDecl c => agree_ofClass c
  | .return e => agree_ofOption e
  | .throw e => agree_ofExpr e
  | .if t c a => (agree_ofExpr t).append₃ (agree_ofStmt c) (agree_ofAlternate a)
  | .for init t u b =>
    ((agree_ofHead init).append₄ (agree_ofOption t) (agree_ofOption u) (agree_ofStmt b)).inScope _
  | .forIn left r b =>
    ((agree_ofHead left).append₃ (agree_ofExpr r) (agree_ofStmt b)).inScope _
  | .forOf _ left r b =>
    ((agree_ofHead left).append₃ (agree_ofExpr r) (agree_ofStmt b)).inScope _
  | .while t b => (agree_ofExpr t).append (agree_ofStmt b)
  | .doWhile b t => (agree_ofStmt b).append (agree_ofExpr t)
  | .block ss => (agree_ofStmts ss).inScope _
  | .switch d cases => (agree_ofExpr d).append ((agree_ofCases cases).inScope _)
  | .try b handler finalizer =>
    ((agree_ofStmts b).inScope _).append₃ (agree_ofHandler handler) (agree_ofFinalizer finalizer)
  | .break _ | .continue _ | .empty | .debugger | .exportAll .. => .of_eq rfl
  | .labeled _ b => agree_ofStmt b
  | .import items _ => agree_imported items
  | .exportNamed items source => agree_exported items source
  | .exportDecl d => agree_ofStmt d
  | .exportDefaultFunction f => agree_ofFunction true f
  | .exportDefaultClass c => agree_ofClass c
  | .exportDefault e => agree_ofExpr e

theorem agree_ofStmts : ∀ ss : List Stmt, Agree (ofStmts ss) (NameEvent.ofStmts ss)
  | [] => .of_eq rfl
  | s :: ss => (agree_ofStmt s).append (agree_ofStmts ss)

theorem agree_ofAlternate : ∀ s : Option Stmt, Agree (ofAlternate s) (NameEvent.ofAlternate s)
  | none => .of_eq rfl
  | some s => agree_ofStmt s

theorem agree_ofDeclarators : ∀ ds : List Declarator,
    Agree (ofDeclarators ds) (NameEvent.ofDeclarators ds)
  | [] => .of_eq rfl
  | .mk p init :: ds =>
    (agree_ofPattern p).append₃ (agree_ofOption init) (agree_ofDeclarators ds)

theorem agree_ofHead : ∀ head : ForHead, Agree (ofHead head) (NameEvent.ofHead head)
  | .absent => .of_eq rfl
  | .decl _ ds => agree_ofDeclarators ds
  | .expr e => agree_ofExpr e
  | .target p => agree_ofPattern p

theorem agree_ofCases : ∀ cases : List SwitchCase, Agree (ofCases cases) (NameEvent.ofCases cases)
  | [] => .of_eq rfl
  | .mk t ss :: cases => (agree_ofOption t).append₃ (agree_ofStmts ss) (agree_ofCases cases)

/-- A handler: two layers, and two scopes. -/
theorem agree_ofHandler : ∀ c : Option Catch, Agree (ofHandler c) (NameEvent.ofHandler c)
  | none => .of_eq rfl
  | some (.mk param b) =>
    ((agree_ofRest param).append ((agree_ofStmts b).inScope _)).inScope _

theorem agree_ofFinalizer : ∀ ss : Option (List Stmt),
    Agree (ofFinalizer ss) (NameEvent.ofFinalizer ss)
  | none => .of_eq rfl
  | some ss => (agree_ofStmts ss).inScope _

/-- A class: the layer has its name. -/
theorem agree_ofClass : ∀ c : Class, Agree (ofClass c) (NameEvent.ofClass c)
  | .mk name decorators superClass members =>
    (agree_ofExprs decorators).append₃ (.of_eq (names_ofName name))
      (((agree_ofOption superClass).append (agree_ofMembers members)).inScope _)

/-- Members: the value of a field is under a layer of its own. -/
theorem agree_ofMembers : ∀ ms : List Member, Agree (ofMembers ms) (NameEvent.ofMembers ms)
  | [] => .of_eq rfl
  | .method decorators _ _ k f :: ms =>
    (agree_ofExprs decorators).append₄ (agree_ofKey k) (agree_ofFunction false f)
      (agree_ofMembers ms)
  | .field decorators _ k _ t value :: ms =>
    (agree_ofExprs decorators).append₅ (agree_ofKey k) (.of_eq (names_ofOptType t))
      ((agree_ofOption value).under _) (agree_ofMembers ms)
  | .staticBlock ss :: ms => ((agree_ofStmts ss).inScope _).append (agree_ofMembers ms)

/-- An element: the element itself is a place without a name. -/
theorem agree_ofElement : ∀ e : Element, Agree (ofElement e) (NameEvent.ofElement e)
  | .mk _ _ name attrs children _ =>
    (Agree.of_eq (names_ofElementName name)).append₃ (agree_ofAttrs attrs)
      (agree_ofChildren children)

theorem agree_ofAttrs : ∀ as : List Attr, Agree (ofAttrs as) (NameEvent.ofAttrs as)
  | [] => .of_eq rfl
  | .named _ _ value :: as => (agree_ofAttrValue value).append (agree_ofAttrs as)
  | .spread _ e :: as => (agree_ofExpr e).append (agree_ofAttrs as)

theorem agree_ofAttrValue : ∀ v : AttrValue, Agree (ofAttrValue v) (NameEvent.ofAttrValue v)
  | .absent | .string _ => .of_eq rfl
  | .container _ e => agree_ofOption e
  | .element e => agree_ofElement e
  | .fragment _ cs => agree_ofChildren cs

theorem agree_ofChildren : ∀ cs : List Child, Agree (ofChildren cs) (NameEvent.ofChildren cs)
  | [] => .of_eq rfl
  | .text _ :: cs => agree_ofChildren cs
  | .element e :: cs => (agree_ofElement e).append (agree_ofChildren cs)
  | .fragment _ children :: cs => (agree_ofChildren children).append (agree_ofChildren cs)
  | .container e :: cs => (agree_ofOption e).append (agree_ofChildren cs)
  | .spread e :: cs => (agree_ofExpr e).append (agree_ofChildren cs)

end

end Site

/-- **The names that a module uses are those at its places.** -/
theorem Module.mem_usedNames {m : Module} {name : String} :
    name ∈ m.usedNames ↔ name ∈ m.names := by
  rw [Module.usedNames, List.mem_eraseDups]
  exact (Site.agree_ofStmts m.stmts name).symm

end JsxDialect
