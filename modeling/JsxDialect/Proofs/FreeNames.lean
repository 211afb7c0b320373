import JsxDialect.Proofs.Nesting
import JsxDialect.Syntax.Occurrence
import Mathlib.Data.List.Induction

/-!
# Free names, scope by scope

The search for free names goes through an expression once. It opens and closes scopes, notes what is
declared where, and resolves the references only at its end, in records of scopes that are long
closed. `Contents` says the same thing by recursion: what a piece of code declares in the scope it
stands in, and the names that it refers to but no scope inside it declares. A scope keeps of the
latter those that are not declared in it, wherever in the scope the declaration stands.

`Captures.Reads` is what reading a piece of code does to the records, so that references can still
be resolved when much more has been read. It is kept by putting pieces one after the other and by
putting them into a scope, and so holds of every piece of syntax.
-/

namespace JsxDialect

/-- What names do in a piece of code: the names that it declares in the scope it stands in, and
those it refers to that no scope inside it declares, in the order of the references. -/
structure Contents where
  declared : List String
  free : List String

namespace Contents

/-- No names. -/
def nothing : Contents :=
  ⟨[], []⟩

/-- Names that are declared. -/
def declares (names : List String) : Contents :=
  ⟨names, []⟩

/-- Names that are referred to. -/
def refers (names : List String) : Contents :=
  ⟨[], names⟩

instance : Append Contents :=
  ⟨fun k l => ⟨k.declared ++ l.declared, k.free ++ l.free⟩⟩

/-- **The contents of a scope**, seen from outside: what it refers to and does not declare. -/
def scope (k : Contents) : Contents :=
  ⟨[], k.free.filter (!k.declared.contains ·)⟩

/-- Contents one after the other declare what both declare. -/
@[simp] theorem declared_append (k l : Contents) : (k ++ l).declared = k.declared ++ l.declared :=
  rfl

/-- They refer to what both refer to. -/
@[simp] theorem free_append (k l : Contents) : (k ++ l).free = k.free ++ l.free :=
  rfl

/-- **Free in a scope** is what is free in its contents and not declared by them. -/
@[simp] theorem mem_free_scope {k : Contents} {x : String} :
    x ∈ k.scope.free ↔ x ∈ k.free ∧ x ∉ k.declared := by
  simp [scope]

mutual

/-- The contents of a type. -/
def ofType : TypeExpr → Contents
  | .keyword _ | .string _ | .number _ => nothing
  | .reference name _ args => refers [name] ++ ofTypes args
  | .array item => ofType item
  | .union members => ofTypes members
  | .intersection members => ofTypes members

/-- The contents of several types. -/
def ofTypes : List TypeExpr → Contents
  | [] => nothing
  | t :: ts => ofType t ++ ofTypes ts

end

/-- The contents of an annotation. -/
def ofOptType : Option TypeExpr → Contents
  | none => nothing
  | some t => ofType t

/-- The contents of a declared `this` parameter. -/
def ofThisParam : Option ThisParam → Contents
  | none => nothing
  | some p => ofOptType p.type

/-- The name that the name of an element refers to. -/
def ofElementName : ElementName → Contents
  | .reference name => refers [name]
  | .member root _ => if root == "this" then nothing else refers [root]
  | _ => nothing

mutual

/-- The contents of an expression. -/
def ofExpr : Expr → Contents
  | .ident _ name => refers [name]
  | .alias _ name _ => refers [name]
  | .number .. | .string .. | .bigint .. | .regex .. | .bool .. | .null _ | .this _ | .super _
  | .metaProperty .. | .hole => nothing
  | .template _ _ exprs => ofExprs exprs
  | .tagged _ tag _ exprs => ofExpr tag ++ ofExprs exprs
  | .spread e => ofExpr e
  | .array _ elements => ofExprs elements
  | .object _ properties => ofProperties properties
  | .function _ f => ofFunction f
  | .arrow _ f => ofFunction f
  | .classExpr _ c => ofClass c
  | .unary _ _ e => ofExpr e
  | .update _ _ _ e => ofExpr e
  | .binary _ _ l r => ofExpr l ++ ofExpr r
  | .privateIn _ _ r => ofExpr r
  | .logical _ _ l r => ofExpr l ++ ofExpr r
  | .assign _ _ left right => ofPattern left ++ ofExpr right
  | .conditional _ test consequent alternate =>
    ofExpr test ++ (ofExpr consequent ++ ofExpr alternate)
  | .call _ callee args _ => ofExpr callee ++ ofExprs args
  | .new _ callee args => ofExpr callee ++ ofExprs args
  | .member _ o _ _ => ofExpr o
  | .privateMember _ o _ _ => ofExpr o
  | .index _ o k _ => ofExpr o ++ ofExpr k
  | .chain _ e => ofExpr e
  | .sequence _ exprs => ofExprs exprs
  | .paren _ e => ofExpr e
  | .yield _ _ e => ofOption e
  | .await _ e => ofExpr e
  | .importCall _ args => ofExprs args
  | .typed _ _ e type => ofExpr e ++ ofType type
  | .nonNull _ e => ofExpr e
  | .element e => ofElement e
  | .fragment _ children => ofChildren children

/-- The contents of several expressions. -/
def ofExprs : List Expr → Contents
  | [] => nothing
  | e :: es => ofExpr e ++ ofExprs es

/-- The contents of an expression that may be missing. -/
def ofOption : Option Expr → Contents
  | none => nothing
  | some e => ofExpr e

/-- The contents of the key of a member. -/
def ofKey : Key → Contents
  | .computed e => ofExpr e
  | .ident _ | .string _ | .number _ | .bigint _ | .privateName _ => nothing

/-- The contents of the members of an object literal. -/
def ofProperties : List Property → Contents
  | [] => nothing
  | .field k value _ :: ps => (ofKey k ++ ofExpr value) ++ ofProperties ps
  | .method _ k f :: ps => (ofKey k ++ ofFunction f) ++ ofProperties ps
  | .spread e :: ps => ofExpr e ++ ofProperties ps

/-- The contents of a function, which is a scope with all of its parts, its own name included. -/
def ofFunction : Func → Contents
  | .mk name _ _ thisParam _ params rest type body =>
    scope (declares name.toList ++ ((ofThisParam thisParam ++ (ofParams params ++ (ofRest rest
      ++ ofOptType type))) ++ ofBody body))

/-- The contents of the body of a function. -/
def ofBody : Body → Contents
  | .absent => nothing
  | .expr e => ofExpr e
  | .block _ stmts => ofStmts stmts

/-- The contents of parameters. -/
def ofParams : List Param → Contents
  | [] => nothing
  | .mk decorators pattern :: ps => ofExprs decorators ++ (ofPattern pattern ++ ofParams ps)

/-- The contents of a pattern. -/
def ofPattern : Pattern → Contents
  | .bind name => declares [name]
  | .target e => ofExpr e
  | .hole => nothing
  | .object properties rest => ofPatternProperties properties ++ ofRest rest
  | .array elements rest => ofPatterns elements ++ ofRest rest
  | .withDefault p value => ofPattern p ++ ofExpr value
  | .typed p _ type => ofPattern p ++ ofOptType type

/-- The contents of several patterns. -/
def ofPatterns : List Pattern → Contents
  | [] => nothing
  | p :: ps => ofPattern p ++ ofPatterns ps

/-- The contents of a pattern that may be missing. -/
def ofRest : Option Pattern → Contents
  | none => nothing
  | some p => ofPattern p

/-- The contents of the members of an object pattern. -/
def ofPatternProperties : List PatternProperty → Contents
  | [] => nothing
  | .mk k value _ :: ps => ofKey k ++ (ofPattern value ++ ofPatternProperties ps)

/-- The contents of a statement. A function that is declared has its name declared around it,
too. -/
def ofStmt : Stmt → Contents
  | .expr e => ofExpr e
  | .varDecl _ ds => ofDeclarators ds
  | .function f => declares f.name.toList ++ ofFunction f
  | .classDecl c => ofClass c
  | .return e => ofOption e
  | .throw e => ofExpr e
  | .if test consequent alternate => ofExpr test ++ (ofStmt consequent ++ ofAlternate alternate)
  | .for init test update body =>
    scope (ofHead init ++ (ofOption test ++ (ofOption update ++ ofStmt body)))
  | .forIn left right body => scope (ofHead left ++ (ofExpr right ++ ofStmt body))
  | .forOf _ left right body => scope (ofHead left ++ (ofExpr right ++ ofStmt body))
  | .while test body => ofExpr test ++ ofStmt body
  | .doWhile body test => ofStmt body ++ ofExpr test
  | .block stmts => scope (ofStmts stmts)
  | .switch discriminant cases => ofExpr discriminant ++ scope (ofCases cases)
  | .try block handler finalizer =>
    scope (ofStmts block) ++ (ofHandler handler ++ ofFinalizer finalizer)
  | .break _ | .continue _ | .empty | .debugger | .exportAll .. => nothing
  | .labeled _ body => ofStmt body
  | .import items _ => declares ((items.getD []).map ImportItem.localName)
  | .exportNamed items source =>
    if source.isNone then refers (items.map fun item => item.1.name) else nothing
  | .exportDecl d => ofStmt d
  | .exportDefaultFunction f => declares f.name.toList ++ ofFunction f
  | .exportDefaultClass c => ofClass c
  | .exportDefault e => ofExpr e

/-- The contents of several statements. -/
def ofStmts : List Stmt → Contents
  | [] => nothing
  | s :: ss => ofStmt s ++ ofStmts ss

/-- The contents of an `else` part. -/
def ofAlternate : Option Stmt → Contents
  | none => nothing
  | some s => ofStmt s

/-- The contents of declared variables. -/
def ofDeclarators : List Declarator → Contents
  | [] => nothing
  | .mk p init :: ds => ofPattern p ++ (ofOption init ++ ofDeclarators ds)

/-- The contents of the head of a loop. -/
def ofHead : ForHead → Contents
  | .absent => nothing
  | .decl _ ds => ofDeclarators ds
  | .expr e => ofExpr e
  | .target p => ofPattern p

/-- The contents of the cases of a `switch`. -/
def ofCases : List SwitchCase → Contents
  | [] => nothing
  | .mk test body :: cases => ofOption test ++ (ofStmts body ++ ofCases cases)

/-- The contents of a handler: a scope for the parameter, and one for the block inside it. -/
def ofHandler : Option Catch → Contents
  | none => nothing
  | some (.mk param body) => scope (ofRest param ++ scope (ofStmts body))

/-- The contents of a finalizer. -/
def ofFinalizer : Option (List Stmt) → Contents
  | none => nothing
  | some body => scope (ofStmts body)

/-- The contents of a class. Its name is declared around it. -/
def ofClass : Class → Contents
  | .mk name decorators superClass members =>
    ofExprs decorators ++ (declares name.toList ++ scope (ofOption superClass ++ ofMembers members))

/-- The contents of the members of a class. -/
def ofMembers : List Member → Contents
  | [] => nothing
  | .method decorators _ _ k f :: ms =>
    ofExprs decorators ++ (ofKey k ++ (ofFunction f ++ ofMembers ms))
  | .field decorators _ k _ type value :: ms =>
    ofExprs decorators
      ++ (ofKey k ++ (ofOptType type ++ (ofOption value ++ ofMembers ms)))
  | .staticBlock stmts :: ms => scope (ofStmts stmts) ++ ofMembers ms

/-- The contents of an element. -/
def ofElement : Element → Contents
  | .mk _ _ name attrs children _ => ofElementName name ++ (ofAttrs attrs ++ ofChildren children)

/-- The contents of attributes. -/
def ofAttrs : List Attr → Contents
  | [] => nothing
  | .named _ _ value :: as => ofAttrValue value ++ ofAttrs as
  | .spread _ e :: as => ofExpr e ++ ofAttrs as

/-- The contents of the value of an attribute. -/
def ofAttrValue : AttrValue → Contents
  | .absent | .string _ => nothing
  | .container _ e => ofOption e
  | .element e => ofElement e
  | .fragment _ children => ofChildren children

/-- The contents of children. -/
def ofChildren : List Child → Contents
  | [] => nothing
  | .text _ :: cs => ofChildren cs
  | .element e :: cs => ofElement e ++ ofChildren cs
  | .fragment _ children :: cs => ofChildren children ++ ofChildren cs
  | .container e :: cs => ofOption e ++ ofChildren cs
  | .spread e :: cs => ofExpr e ++ ofChildren cs

end

end Contents

/-! ## Reading -/

/-- The names of the references that no scope binds, in order. -/
def Scopes.unresolved (s : Scopes Unit) (references : List (String × Option Nat)) : List String :=
  references.filterMap fun r => if (s.resolve r.2 r.1).isNone then some r.1 else none

/-- A name is bound around a scope if the scope binds it, or if it is bound around the next one. -/
theorem Scopes.isNone_resolve {α : Type} {s : Scopes α} (hs : s.Ordered) {i : Nat}
    {r : ScopeRecord α} (hr : s.records[i]? = some r) (x : String) :
    (s.resolve (some i) x).isNone = (!r.names.contains x && (s.resolve r.parent x).isNone) := by
  have hi : i < s.records.size := (Array.getElem?_eq_some_iff.mp hr).1
  have hparent : s.parent? i = r.parent := by rw [parent?, hr]; rfl
  have hbinds : s.binds x i = r.names.contains x := by rw [binds, hr]
  unfold resolve
  rw [ancestors_some hs hi, List.find?_cons, hparent, hbinds]
  cases r.names.contains x <;> rfl

namespace Captures

/-- **What reading code does** that stands in the scope `i` and has the contents `k`. The scope gets
what is declared in it, and no other scope changes. In whatever scopes keep those that were opened
meanwhile, the references that are not resolved are the free names of the code that are not bound
from the scope `i` on. -/
structure Reads (i : Nat) (k : Contents) (c d : Captures) : Prop where
  ordered : d.scopes.Ordered
  current : d.scopes.current = some i
  size : c.scopes.records.size ≤ d.scopes.records.size
  others : ∀ j < c.scopes.records.size, j ≠ i → d.scopes.records[j]? = c.scopes.records[j]?
  own : d.scopes.records[i]?
    = c.scopes.records[i]?.map fun r => { r with names := r.names ++ k.declared }
  references : ∃ references, d.references = c.references ++ references
    ∧ ∀ s : Scopes Unit, s.Ordered →
      (∀ j, c.scopes.records.size ≤ j → j < d.scopes.records.size →
        s.records[j]? = d.scopes.records[j]?) →
      s.unresolved references = k.free.filter fun x => (s.resolve (some i) x).isNone

variable {i : Nat} {k l : Contents} {c d e : Captures}

/-- Two pieces of code, read one after the other into the same scope. -/
theorem Reads.append (h : Reads i k c d) (hi : i < c.scopes.records.size) (h' : Reads i l d e) :
    Reads i (k ++ l) c e := by
  obtain ⟨first, hfirst, hunresolved⟩ := h.references
  obtain ⟨second, hsecond, hunresolved'⟩ := h'.references
  have hsize := h.size
  have hsize' := h'.size
  refine ⟨h'.ordered, h'.current, by omega, fun j hj hne => ?_, ?_, first ++ second, ?_, ?_⟩
  · rw [h'.others j (by omega) hne, h.others j hj hne]
  · rw [h'.own, h.own, Option.map_map]
    simp only [Function.comp_def, List.append_assoc, Contents.declared_append]
  · rw [hsecond, hfirst, List.append_assoc]
  · intro s hs hkeeps
    -- What was opened by the first part is left alone by the second, which stands in `i`.
    have hkeeps' : ∀ j, c.scopes.records.size ≤ j → j < d.scopes.records.size →
        s.records[j]? = d.scopes.records[j]? := fun j hj hj' => by
      rw [hkeeps j hj (by omega), h'.others j hj' (by omega)]
    rw [Scopes.unresolved, List.filterMap_append, Contents.free_append, List.filter_append]
    exact congrArg₂ (· ++ ·) (hunresolved s hs hkeeps')
      (hunresolved' s hs fun j hj hj' => hkeeps j (by omega) hj')

end Captures

namespace NameEvent

/-- **Events that reading code with the given contents consists of.** -/
def Read (es : List NameEvent) (k : Contents) : Prop :=
  ∀ (c : Captures) (i : Nat), c.scopes.Ordered → c.scopes.current = some i →
    Captures.Reads i k c (es.foldl Captures.step c)

namespace Read

variable {es fs gs hs : List NameEvent} {k l m n : Contents}

/-- No events change nothing. -/
theorem nothing : Read [] .nothing := by
  intro c i hc hi
  refine ⟨hc, hi, Nat.le_refl _, fun _ _ _ => rfl, ?_, [], ?_, fun _ _ _ => rfl⟩
  · simp [Contents.nothing]
  · exact (List.append_nil _).symm

/-- **Events one after the other** are read as contents one after the other. -/
theorem append (h₁ : Read es k) (h₂ : Read fs l) : Read (es ++ fs) (k ++ l) := by
  intro c i hc hi
  rw [List.foldl_append]
  have hread := h₁ c i hc hi
  exact hread.append (hc.current_lt hi) (h₂ _ i hread.ordered hread.current)

/-- The same for three pieces, which the events have in another grouping. -/
theorem append₃ (h₁ : Read es k) (h₂ : Read fs l) (h₃ : Read gs m) :
    Read (es ++ fs ++ gs) (k ++ (l ++ m)) := by
  rw [List.append_assoc]
  exact h₁.append (h₂.append h₃)

/-- The same for four pieces. -/
theorem append₄ (h₁ : Read es k) (h₂ : Read fs l) (h₃ : Read gs m) (h₄ : Read hs n) :
    Read (es ++ fs ++ gs ++ hs) (k ++ (l ++ (m ++ n))) := by
  rw [List.append_assoc, List.append_assoc]
  exact h₁.append (h₂.append (h₃.append h₄))

/-- A name that is bound is declared in the current scope. -/
theorem bind (x : String) : Read [.bind x] (.declares [x]) := by
  intro c i hc hi
  have hstep : c.step (.bind x) = { c with scopes := c.scopes.bind i x } := by
    simp only [Captures.step, hi]
  have hnames : ∀ r : ScopeRecord Unit,
      ({ r with names := r.names ++ [x] } : ScopeRecord Unit).parent = r.parent := fun _ => rfl
  rw [List.foldl_cons, List.foldl_nil, hstep]
  refine ⟨hc.update hnames i, hi, ?_, fun j _ hne => ?_, ?_, [], ?_, fun _ _ _ => rfl⟩
  · simp [Scopes.bind]
  · simp only [Scopes.bind, Array.getElem?_modify, if_neg hne.symm]
  · simp only [Scopes.bind, Array.getElem?_modify, if_pos, Contents.declares]
  · exact (List.append_nil _).symm

/-- A reference is noted together with the current scope. -/
theorem refer (x : String) : Read [.refer x] (.refers [x]) := by
  intro c i hc hi
  refine ⟨hc, hi, Nat.le_refl _, fun _ _ _ => rfl, ?_, [(x, some i)], ?_, fun s _ _ => ?_⟩
  · simp [Captures.step, Contents.refers]
  · simp [Captures.step, hi]
  · cases hx : s.resolve (some i) x <;> simp [Scopes.unresolved, Contents.refers, hx]

/-- A scope has the next number when it is opened. When it is closed its record is complete, and the
scope around it is the current one again. -/
theorem enclosed (h : Read es k) {c : Captures} (hc : c.scopes.Ordered) :
    ∃ d, (inScope es).foldl Captures.step c
        = ⟨⟨d.scopes.records, c.scopes.current⟩, d.references⟩
      ∧ Captures.Reads c.scopes.records.size k (c.step .enter) d
      ∧ d.scopes.records[c.scopes.records.size]?
        = some ⟨c.scopes.current, .block, k.declared, []⟩ := by
  have hread := h (c.step .enter) _ (hc.push .block []) rfl
  have hrecord : (es.foldl Captures.step (c.step .enter)).scopes.records[c.scopes.records.size]?
      = some ⟨c.scopes.current, .block, k.declared, []⟩ := by
    rw [hread.own]
    simp [Captures.step, Scopes.push]
  refine ⟨_, ?_, hread, hrecord⟩
  rw [inScope, List.cons_append, List.foldl_cons, List.foldl_append]
  generalize es.foldl Captures.step (c.step .enter) = d at hread hrecord
  simp only [List.foldl_cons, List.foldl_nil, Captures.step, Scopes.pop?, hread.current,
    Scopes.parent?, hrecord, Option.map_some, Option.getD_some, Option.bind_some]

/-- Code in a scope of its own. -/
theorem inScope (h : Read es k) : Read (NameEvent.inScope es) k.scope := by
  intro c i hc hi
  obtain ⟨d, hfold, hread, hrecord⟩ := h.enclosed hc
  have hlt := hc.current_lt hi
  have hgrows := hread.size
  have hsize : (c.step .enter).scopes.records.size = c.scopes.records.size + 1 := by
    simp [Captures.step, Scopes.push]
  have hold : ∀ j < c.scopes.records.size, d.scopes.records[j]? = c.scopes.records[j]? :=
    fun j hj => (hread.others j (by omega) (by omega)).trans (Scopes.getElem?_push_lt _ _ hj)
  obtain ⟨references, hreferences, hunresolved⟩ := hread.references
  rw [hfold]
  refine ⟨⟨hread.ordered.parent_lt, fun {j} hj => ?_⟩, hi, ?_, fun j hj _ => hold j hj, ?_,
    references, hreferences, fun s hs hkeeps => ?_⟩
  · have hji : j < c.scopes.records.size := hc.current_lt hj
    show j < d.scopes.records.size
    omega
  · show c.scopes.records.size ≤ d.scopes.records.size
    omega
  · show d.scopes.records[i]? = _
    simp [hold i hlt, Contents.scope]
  · -- From the new scope on: its own names, and then from `i` on.
    have hrecord' : s.records[c.scopes.records.size]? = _ :=
      (hkeeps _ (Nat.le_refl _) (show _ < d.scopes.records.size by omega)).trans hrecord
    rw [hunresolved s hs fun j hj hj' => hkeeps j (by omega) hj', Contents.scope,
      List.filter_filter]
    refine List.filter_congr fun x _ => ?_
    rw [Scopes.isNone_resolve hs hrecord', hi, Bool.and_comm]

/-- **What is free in code that is read.** -/
theorem freeNames_ofEvents (h : Read es k) :
    (Captures.ofEvents es).freeNames = k.scope.free.eraseDups := by
  obtain ⟨d, hfold, hread, hrecord⟩ := h.enclosed (c := ⟨.empty, []⟩) Scopes.ordered_empty
  obtain ⟨references, hreferences, hunresolved⟩ := hread.references
  have hordered : (⟨d.scopes.records, none⟩ : Scopes Unit).Ordered :=
    ⟨hread.ordered.parent_lt, fun hj => by cases hj⟩
  have hfree : (⟨d.scopes.records, none⟩ : Scopes Unit).unresolved references = k.scope.free := by
    rw [hunresolved _ hordered fun _ _ _ => rfl, Contents.scope]
    refine List.filter_congr fun x _ => ?_
    rw [Scopes.isNone_resolve hordered hrecord]
    change (!k.declared.contains x && (Scopes.resolve _ none x).isNone) = _
    rw [Scopes.resolve, Scopes.ancestors_none]
    exact Bool.and_true _
  have hall : d.references = references := hreferences
  rw [Captures.ofEvents, hfold]
  change (Scopes.unresolved _ d.references).eraseDups = _
  rw [hall]
  exact congrArg List.eraseDups hfree

end Read

/-! ## The syntax -/

mutual

/-- The names in a type are references. -/
theorem read_type : ∀ t : TypeExpr, Read (ofType t) (.ofType t)
  | .keyword _ | .string _ | .number _ => .nothing
  | .reference name _ args => (Read.refer name).append (read_types args)
  | .array item => read_type item
  | .union members => read_types members
  | .intersection members => read_types members

/-- Several types. -/
theorem read_types : ∀ ts : List TypeExpr, Read (ofTypes ts) (.ofTypes ts)
  | [] => .nothing
  | t :: ts => (read_type t).append (read_types ts)

end

/-- A type that may be missing. -/
theorem read_optType : ∀ t : Option TypeExpr, Read (ofOptType t) (.ofOptType t)
  | none => .nothing
  | some t => read_type t

/-- A declared `this` parameter. -/
theorem read_thisParam : ∀ p : Option ThisParam, Read (ofThisParam p) (.ofThisParam p)
  | none => .nothing
  | some p => read_optType p.type

/-- The name that the name of an element refers to. -/
theorem read_elementName (n : ElementName) : Read (ofElementName n) (.ofElementName n) := by
  cases n with
  | reference name => exact .refer name
  | member root path =>
    simp only [ofElementName, Contents.ofElementName]
    split
    · exact .nothing
    · exact .refer root
  | plain _ | this | namespaced _ _ => exact .nothing

/-- The name of a function or class that may be missing. -/
theorem read_name : ∀ n : Option String, Read (ofName n) (.declares n.toList)
  | none => .nothing
  | some name => .bind name

/-- Names that are bound, and nothing else. -/
theorem read_binds (names : List String) : Read (names.map .bind) (.declares names) := by
  induction names with
  | nil => exact .nothing
  | cons x names ih => exact (Read.bind x).append ih

/-- Names that are referred to, and nothing else. -/
theorem read_refers (names : List String) : Read (names.map .refer) (.refers names) := by
  induction names with
  | nil => exact .nothing
  | cons x names ih => exact (Read.refer x).append ih

/-- A function that is a declaration. -/
theorem read_declaration {f : Func} (hf : Read (ofFunction false f) (.ofFunction f)) :
    Read (ofFunction true f) (.declares f.name.toList ++ .ofFunction f) := by
  cases f with
  | mk name _ _ _ _ _ _ _ _ => exact (read_name name).append hf

mutual

/-- **The events of an expression are read as its contents.** There is one lemma for each part of
the syntax; functions, classes and blocks are put into scopes. -/
theorem read_expr : ∀ e : Expr, Read (ofExpr e) (.ofExpr e)
  | .ident _ name | .alias _ name _ => .refer name
  | .number .. | .string .. | .bigint .. | .regex .. | .bool .. | .null _ | .this _ | .super _
  | .metaProperty .. | .hole => .nothing
  | .template _ _ exprs => read_exprs exprs
  | .tagged _ tag _ exprs => (read_expr tag).append (read_exprs exprs)
  | .spread e => read_expr e
  | .array _ elements => read_exprs elements
  | .object _ properties => read_properties properties
  | .function _ f => read_function f
  | .arrow _ f => read_function f
  | .classExpr _ c => read_class c
  | .unary _ _ e => read_expr e
  | .update _ _ _ e => read_expr e
  | .binary _ _ l r => (read_expr l).append (read_expr r)
  | .privateIn _ _ r => read_expr r
  | .logical _ _ l r => (read_expr l).append (read_expr r)
  | .assign _ _ left right => (read_pattern left).append (read_expr right)
  | .conditional _ test consequent alternate =>
    (read_expr test).append₃ (read_expr consequent) (read_expr alternate)
  | .call _ callee args _ => (read_expr callee).append (read_exprs args)
  | .new _ callee args => (read_expr callee).append (read_exprs args)
  | .member _ o _ _ => read_expr o
  | .privateMember _ o _ _ => read_expr o
  | .index _ o k _ => (read_expr o).append (read_expr k)
  | .chain _ e => read_expr e
  | .sequence _ exprs => read_exprs exprs
  | .paren _ e => read_expr e
  | .yield _ _ e => read_option e
  | .await _ e => read_expr e
  | .importCall _ args => read_exprs args
  | .typed _ _ e type => (read_expr e).append (read_type type)
  | .nonNull _ e => read_expr e
  | .element e => read_element e
  | .fragment _ children => read_children children

theorem read_exprs : ∀ es : List Expr, Read (ofExprs es) (.ofExprs es)
  | [] => .nothing
  | e :: es => (read_expr e).append (read_exprs es)

theorem read_option : ∀ e : Option Expr, Read (ofOption e) (.ofOption e)
  | none => .nothing
  | some e => read_expr e

theorem read_key : ∀ k : Key, Read (ofKey k) (.ofKey k)
  | .computed e => read_expr e
  | .ident _ | .string _ | .number _ | .bigint _ | .privateName _ => .nothing

theorem read_properties : ∀ ps : List Property, Read (ofProperties ps) (.ofProperties ps)
  | [] => .nothing
  | .field k value _ :: ps => ((read_key k).append (read_expr value)).append (read_properties ps)
  | .method _ k f :: ps => ((read_key k).append (read_function f)).append (read_properties ps)
  | .spread e :: ps => (read_expr e).append (read_properties ps)

/-- A function: one scope has its name, its parameters and whatever its body declares. -/
theorem read_function : ∀ f : Func, Read (ofFunction false f) (.ofFunction f)
  | .mk name _ _ thisParam _ params rest type body => by
    have hhead := (read_thisParam thisParam).append₄ (read_params params) (read_rest rest)
      (read_optType type)
    have hall := (read_name name).append (hhead.append (read_body body))
    simp only [← List.append_assoc] at hall
    exact hall.inScope

/-- A body stands in the scope of its function. -/
theorem read_body : ∀ b : Body, Read (ofBody b) (.ofBody b)
  | .absent => .nothing
  | .expr e => read_expr e
  | .block _ stmts => read_stmts stmts

theorem read_params : ∀ ps : List Param, Read (ofParams ps) (.ofParams ps)
  | [] => .nothing
  | .mk decorators pattern :: ps =>
    (read_exprs decorators).append₃ (read_pattern pattern) (read_params ps)

theorem read_pattern : ∀ p : Pattern, Read (ofPattern p) (.ofPattern p)
  | .bind name => .bind name
  | .target e => read_expr e
  | .hole => .nothing
  | .object properties rest => (read_patternProperties properties).append (read_rest rest)
  | .array elements rest => (read_patterns elements).append (read_rest rest)
  | .withDefault p value => (read_pattern p).append (read_expr value)
  | .typed p _ type => (read_pattern p).append (read_optType type)

theorem read_patterns : ∀ ps : List Pattern, Read (ofPatterns ps) (.ofPatterns ps)
  | [] => .nothing
  | p :: ps => (read_pattern p).append (read_patterns ps)

theorem read_rest : ∀ p : Option Pattern, Read (ofRest p) (.ofRest p)
  | none => .nothing
  | some p => read_pattern p

theorem read_patternProperties :
    ∀ ps : List PatternProperty, Read (ofPatternProperties ps) (.ofPatternProperties ps)
  | [] => .nothing
  | .mk k value _ :: ps =>
    (read_key k).append₃ (read_pattern value) (read_patternProperties ps)

/-- The events of a statement are read as its contents. -/
theorem read_stmt : ∀ s : Stmt, Read (ofStmt s) (.ofStmt s)
  | .expr e => read_expr e
  | .varDecl _ ds => read_declarators ds
  | .function f => read_declaration (read_function f)
  | .classDecl c => read_class c
  | .return e => read_option e
  | .throw e => read_expr e
  | .if test consequent alternate =>
    (read_expr test).append₃ (read_stmt consequent) (read_alternate alternate)
  | .for init test update body =>
    ((read_head init).append₄ (read_option test) (read_option update) (read_stmt body)).inScope
  | .forIn left right body =>
    ((read_head left).append₃ (read_expr right) (read_stmt body)).inScope
  | .forOf _ left right body =>
    ((read_head left).append₃ (read_expr right) (read_stmt body)).inScope
  | .while test body => (read_expr test).append (read_stmt body)
  | .doWhile body test => (read_stmt body).append (read_expr test)
  | .block stmts => (read_stmts stmts).inScope
  | .switch discriminant cases => (read_expr discriminant).append (read_cases cases).inScope
  | .try block handler finalizer =>
    (read_stmts block).inScope.append₃ (read_handler handler) (read_finalizer finalizer)
  | .break _ | .continue _ | .empty | .debugger | .exportAll .. => .nothing
  | .labeled _ body => read_stmt body
  | .import items _ => by
    have hbinds := read_binds ((items.getD []).map ImportItem.localName)
    rw [List.map_map] at hbinds
    exact hbinds
  | .exportNamed items none => by
    have hrefers := read_refers (items.map fun item => item.1.name)
    rw [List.map_map] at hrefers
    exact hrefers
  | .exportNamed _ (some _) => .nothing
  | .exportDecl d => read_stmt d
  | .exportDefaultFunction f => read_declaration (read_function f)
  | .exportDefaultClass c => read_class c
  | .exportDefault e => read_expr e

theorem read_stmts : ∀ ss : List Stmt, Read (ofStmts ss) (.ofStmts ss)
  | [] => .nothing
  | s :: ss => (read_stmt s).append (read_stmts ss)

theorem read_alternate : ∀ s : Option Stmt, Read (ofAlternate s) (.ofAlternate s)
  | none => .nothing
  | some s => read_stmt s

theorem read_declarators : ∀ ds : List Declarator, Read (ofDeclarators ds) (.ofDeclarators ds)
  | [] => .nothing
  | .mk p init :: ds => (read_pattern p).append₃ (read_option init) (read_declarators ds)

theorem read_head : ∀ h : ForHead, Read (ofHead h) (.ofHead h)
  | .absent => .nothing
  | .decl _ ds => read_declarators ds
  | .expr e => read_expr e
  | .target p => read_pattern p

theorem read_cases : ∀ cs : List SwitchCase, Read (ofCases cs) (.ofCases cs)
  | [] => .nothing
  | .mk test body :: cs => (read_option test).append₃ (read_stmts body) (read_cases cs)

/-- A handler: a scope for its parameter, and one for its statements in it. -/
theorem read_handler : ∀ h : Option Catch, Read (ofHandler h) (.ofHandler h)
  | none => .nothing
  | some (.mk param body) => ((read_rest param).append (read_stmts body).inScope).inScope

theorem read_finalizer : ∀ b : Option (List Stmt), Read (ofFinalizer b) (.ofFinalizer b)
  | none => .nothing
  | some body => (read_stmts body).inScope

/-- A class: its name is declared outside, and the scope has what stands in the class. -/
theorem read_class : ∀ c : Class, Read (ofClass c) (.ofClass c)
  | .mk name decorators superClass members =>
    (read_exprs decorators).append₃ (read_name name)
      ((read_option superClass).append (read_members members)).inScope

theorem read_members : ∀ ms : List Member, Read (ofMembers ms) (.ofMembers ms)
  | [] => .nothing
  | .method decorators _ _ k f :: ms =>
    (read_exprs decorators).append₄ (read_key k) (read_function f) (read_members ms)
  | .field decorators _ k _ type value :: ms => by
    have hall := (read_exprs decorators).append₄ (read_key k) (read_optType type)
      ((read_option value).append (read_members ms))
    rw [← List.append_assoc] at hall
    exact hall
  | .staticBlock stmts :: ms => (read_stmts stmts).inScope.append (read_members ms)

/-- An element has no scope of its own. -/
theorem read_element : ∀ e : Element, Read (ofElement e) (.ofElement e)
  | .mk _ _ name attrs children _ =>
    (read_elementName name).append₃ (read_attrs attrs) (read_children children)

theorem read_attrs : ∀ as : List Attr, Read (ofAttrs as) (.ofAttrs as)
  | [] => .nothing
  | .named _ _ value :: as => (read_attrValue value).append (read_attrs as)
  | .spread _ e :: as => (read_expr e).append (read_attrs as)

theorem read_attrValue : ∀ v : AttrValue, Read (ofAttrValue v) (.ofAttrValue v)
  | .absent | .string _ => .nothing
  | .container _ e => read_option e
  | .element e => read_element e
  | .fragment _ children => read_children children

theorem read_children : ∀ cs : List Child, Read (ofChildren cs) (.ofChildren cs)
  | [] => .nothing
  | .text _ :: cs => read_children cs
  | .element e :: cs => (read_element e).append (read_children cs)
  | .fragment _ children :: cs => (read_children children).append (read_children cs)
  | .container e :: cs => (read_option e).append (read_children cs)
  | .spread e :: cs => (read_expr e).append (read_children cs)

end

end NameEvent

/-- **The free names of an expression** are those that its contents refer to and do not declare,
each once. -/
theorem Expr.freeNames_eq (e : Expr) : e.freeNames = (Contents.ofExpr e).scope.free.eraseDups :=
  (NameEvent.read_expr e).freeNames_ofEvents

/-- Erasing duplicates keeps the order of the first occurrences. The list grows at its end, where
what is new comes after all first occurrences so far. -/
theorem pairwise_idxOf_eraseDups (l : List String) :
    l.eraseDups.Pairwise fun x y => l.idxOf x < l.idxOf y := by
  induction l using List.reverseRecOn with
  | nil => exact List.Pairwise.nil
  | append_singleton l a ih =>
    have hearlier : l.eraseDups.Pairwise fun x y => (l ++ [a]).idxOf x < (l ++ [a]).idxOf y := by
      refine ih.imp_of_mem fun {x y} hx hy hxy => ?_
      rwa [List.idxOf_append_of_mem (List.mem_eraseDups.mp hx),
        List.idxOf_append_of_mem (List.mem_eraseDups.mp hy)]
    rw [List.eraseDups_append]
    by_cases ha : a ∈ l
    · simpa [List.removeAll, ha] using hearlier
    · have hnew : ([a].removeAll l).eraseDups = [a] := by
        simp [List.removeAll, ha, List.eraseDups_cons]
      rw [hnew, List.pairwise_append]
      refine ⟨hearlier, List.pairwise_singleton _ _, fun x hx y hy => ?_⟩
      have hmem : x ∈ l := List.mem_eraseDups.mp hx
      have hlt := List.idxOf_lt_length_iff.mpr hmem
      rw [List.mem_singleton.mp hy, List.idxOf_append_of_mem hmem, List.idxOf_append_of_notMem ha]
      omega

/-- **The search for free names, scope by scope.** What it finds in an expression are the names that
the expression refers to from where no scope around the reference declares them, before or after it.
Each is found once, and they stand in the order of their first references of that kind. -/
theorem Expr.freeNames_lists_contents (e : Expr) :
    e.freeNames.Nodup
      ∧ (∀ x, x ∈ e.freeNames ↔ x ∈ (Contents.ofExpr e).scope.free)
      ∧ e.freeNames.Pairwise fun x y =>
        (Contents.ofExpr e).scope.free.idxOf x < (Contents.ofExpr e).scope.free.idxOf y := by
  have horder := pairwise_idxOf_eraseDups (Contents.ofExpr e).scope.free
  rw [e.freeNames_eq]
  refine ⟨horder.imp ?_, fun x => List.mem_eraseDups, horder⟩
  rintro x _ hlt rfl
  exact Nat.lt_irrefl _ hlt

end JsxDialect
