import JsxDialect.Proofs.Names
import JsxDialect.Proofs.ValidFunctions

/-!
# The top level of a compiled module

The header of a compiled module declares names that were given out, so that each of them is declared
once and none is a name of the module. What the statements of the module declare at the top level
they declare after the walk too, and all of it are names of the module. So the names at the top
level are as distinct as they were (`topDistinct_finish`).
-/

namespace JsxDialect

/-! ## Declared names are used names -/

namespace Site

variable {ns ns' : List String} {ps qs : List Site}

/-- Names at the first of some places. -/
theorem subset_left (h : ns ⊆ names ps) : ns ⊆ names (ps ++ qs) := by
  rw [names_append]
  exact List.subset_append_of_subset_left _ h

/-- Names at the others. -/
theorem subset_right (h : ns ⊆ names qs) : ns ⊆ names (ps ++ qs) := by
  rw [names_append]
  exact List.subset_append_of_subset_right _ h

/-- Names at two groups of places. -/
theorem subset_append (h : ns ⊆ names ps) (h' : ns' ⊆ names qs) : ns ++ ns' ⊆ names (ps ++ qs) :=
  List.append_subset.mpr ⟨subset_left h, subset_right h'⟩

/-- A layer takes away no names. -/
theorem subset_under {l : Layer} (h : ns ⊆ names ps) : ns ⊆ names (under l ps) := by
  rwa [names_under]

/-- The name of a function or class stands at a place. -/
theorem toList_subset (name : Option String) : name.toList ⊆ names (ofName name) := by
  cases name <;> exact List.Subset.refl _

mutual

/-- **Every name that a pattern binds stands at a place in it**, under a rest element too. -/
theorem allNames_subset (p : Pattern) : p.allNames ⊆ names (ofPattern p) := by
  cases p with
  | bind n => exact List.Subset.refl _
  | target _ | hole => exact List.nil_subset _
  | object ps rest => exact subset_append (propertyAllNames_subset ps) (restAllNames_subset rest)
  | array ps rest => exact subset_append (patternsAllNames_subset ps) (restAllNames_subset rest)
  | withDefault p e | typed p _ t => exact subset_left (allNames_subset p)

theorem patternsAllNames_subset (ps : List Pattern) :
    patternsAllNames ps ⊆ names (ofPatterns ps) := by
  cases ps with
  | nil => exact List.nil_subset _
  | cons p ps => exact subset_append (allNames_subset p) (patternsAllNames_subset ps)

theorem restAllNames_subset (p : Option Pattern) : restAllNames p ⊆ names (ofRest p) := by
  cases p with
  | none => exact List.nil_subset _
  | some p => exact allNames_subset p

theorem propertyAllNames_subset (ps : List PatternProperty) :
    propertyAllNames ps ⊆ names (ofPatternProperties ps) := by
  match ps with
  | [] => exact List.nil_subset _
  | .mk k p _ :: ps =>
    exact subset_right (subset_append (allNames_subset p) (propertyAllNames_subset ps))

end

/-- The names of declared variables stand at their places. -/
theorem declarators_subset (ds : List Declarator) :
    (declaratorPatterns ds).flatMap Pattern.allNames ⊆ names (ofDeclarators ds) := by
  induction ds with
  | nil => exact List.nil_subset _
  | cons d ds ih =>
    cases d with
    | mk p e => exact subset_append (allNames_subset p) (subset_right ih)

/-- So do those of `var` in the head of a loop. -/
theorem headVars_subset (head : ForHead) :
    head.varPatterns.flatMap Pattern.allNames ⊆ names (ofHead head) := by
  cases head with
  | absent | expr _ | target _ => exact List.nil_subset _
  | decl kind ds =>
    cases kind with
    | var => exact declarators_subset ds
    | «let» | «const» => exact List.nil_subset _

/-- The names of two groups of patterns. -/
theorem flatMap_append_subset {xs ys : List Pattern} (h : xs.flatMap Pattern.allNames ⊆ names ps)
    (h' : ys.flatMap Pattern.allNames ⊆ names qs) :
    (xs ++ ys).flatMap Pattern.allNames ⊆ names (ps ++ qs) := by
  rw [List.flatMap_append]
  exact subset_append h h'

mutual

/-- The variables of a statement are bound in it. -/
theorem vars_subset (x : Stmt) : x.varPatterns.flatMap Pattern.allNames ⊆ names (ofStmt x) := by
  cases x with
  | varDecl kind ds =>
    change (if kind == .var then declaratorPatterns ds else []).flatMap _ ⊆ names (ofDeclarators ds)
    split
    · exact declarators_subset ds
    · exact List.nil_subset _
  | block xs => exact subset_under (stmtsVars_subset xs)
  | «if» t x y =>
    exact subset_right (flatMap_append_subset (vars_subset x) (alternateVars_subset y))
  | «for» init t u x =>
    exact subset_under (flatMap_append_subset (headVars_subset init)
      (subset_right (subset_right (vars_subset x))))
  | forIn left r x | forOf isAwait left r x =>
    exact subset_under (flatMap_append_subset (headVars_subset left) (subset_right (vars_subset x)))
  | «while» t x => exact subset_right (vars_subset x)
  | doWhile x t => exact subset_left (vars_subset x)
  | labeled label x => exact vars_subset x
  | «try» block handler finalizer =>
    have hparts := flatMap_append_subset (subset_under (l := blockLayer block)
      (stmtsVars_subset block)) (flatMap_append_subset (handlerVars_subset handler)
        (finalizerVars_subset finalizer))
    rwa [← List.append_assoc] at hparts
  | switch d cases => exact subset_right (subset_under (casesVars_subset cases))
  | _ => exact List.nil_subset _

/-- The names of all `var` in statements, at any depth. -/
theorem stmtsVars_subset (xs : List Stmt) :
    (varPatterns xs).flatMap Pattern.allNames ⊆ names (ofStmts xs) := by
  cases xs with
  | nil => exact List.nil_subset _
  | cons x xs => exact flatMap_append_subset (vars_subset x) (stmtsVars_subset xs)

/-- Those in an `else` part. -/
theorem alternateVars_subset (x : Option Stmt) :
    (optionVarPatterns x).flatMap Pattern.allNames ⊆ names (ofAlternate x) := by
  cases x with
  | none => exact List.nil_subset _
  | some x => exact vars_subset x

/-- Those in a handler. -/
theorem handlerVars_subset (handler : Option Catch) :
    (handlerVarPatterns handler).flatMap Pattern.allNames ⊆ names (ofHandler handler) := by
  match handler with
  | none => exact List.nil_subset _
  | some (.mk param xs) => exact subset_under (subset_right (subset_under (stmtsVars_subset xs)))

/-- Those in a finalizer. -/
theorem finalizerVars_subset (xs : Option (List Stmt)) :
    (finalizerVarPatterns xs).flatMap Pattern.allNames ⊆ names (ofFinalizer xs) := by
  cases xs with
  | none => exact List.nil_subset _
  | some xs => exact subset_under (stmtsVars_subset xs)

/-- Those in the cases of a `switch`. -/
theorem casesVars_subset (cases : List SwitchCase) :
    (caseVarPatterns cases).flatMap Pattern.allNames ⊆ names (ofCases cases) := by
  match cases with
  | [] => exact List.nil_subset _
  | .mk t xs :: cases =>
    exact subset_right (flatMap_append_subset (stmtsVars_subset xs) (casesVars_subset cases))

end

/-- The names that a statement declares in its block stand at places in it. -/
theorem blockNames_subset (x : Stmt) : Check.blockNames x ⊆ names (ofStmt x) := by
  cases x with
  | varDecl kind ds =>
    change (if kind == .var then [] else Check.allDeclared ds) ++ [] ⊆ names (ofDeclarators ds)
    rw [List.append_nil]
    split
    · exact List.nil_subset _
    · exact declarators_subset ds
  | function f =>
    cases f
    exact subset_left (toList_subset _)
  | classDecl k =>
    cases k with
    | mk name ds base ms =>
      change name.toList ++ [] ⊆ _
      rw [List.append_nil]
      exact subset_right (subset_left (toList_subset name))
  | _ => exact List.nil_subset _

/-- So do those that it declares at the top of a module. -/
theorem topNames_subset (x : Stmt) : Check.topNames x ⊆ names (ofStmt x) := by
  cases x with
  | exportDecl d => exact blockNames_subset d
  | exportDefaultFunction f =>
    cases f
    exact subset_left (toList_subset _)
  | exportDefaultClass k =>
    cases k
    exact subset_right (subset_left (toList_subset _))
  | «import» items source =>
    cases items with
    | none => exact List.nil_subset _
    | some items =>
      induction items with
      | nil => exact List.nil_subset _
      | cons i is ih => exact List.cons_subset_cons _ ih
  | _ => exact blockNames_subset _

/-- So do its variables there. -/
theorem topVars_subset (x : Stmt) :
    (Check.topVarPatterns x).flatMap Pattern.allNames ⊆ names (ofStmt x) := by
  cases x with
  | exportDecl d => exact vars_subset d
  | _ => exact vars_subset _

end Site

/-- What is read off the statements of a module, if it is a name of its statement. -/
theorem Module.flatMap_subset_usedNames (m : Module) {g : Stmt → List String}
    (hg : ∀ x, g x ⊆ Site.names (Site.ofStmt x)) : m.stmts.flatMap g ⊆ m.usedNames := by
  have hstmts : ∀ xs : List Stmt, xs.flatMap g ⊆ Site.names (Site.ofStmts xs) := by
    intro xs
    induction xs with
    | nil => exact List.nil_subset _
    | cons x xs ih => exact Site.subset_append (hg x) ih
  exact fun n hn => Module.mem_usedNames.mpr (hstmts m.stmts hn)

/-! ## The walk -/

namespace Walk

variable (c : LoweringSetting)

/-- **The walk keeps the names that a statement declares at the top.** -/
theorem stmt_topNames (x : Stmt) (s : Lowering) :
    Check.topNames (stmt x c s).1 = Check.topNames x := by
  have hblock : ∀ y t, Check.blockNames (stmt y c t).1 = Check.blockNames y := fun y t =>
    congrArg₂ (· ++ ·) (stmt_ownNames c y t) (stmt_functionNames c y t)
  cases x with
  | exportDecl d => exact hblock d s
  | exportDefaultFunction f => exact congrArg Option.toList (func_name c _ _ _ f s)
  | exportDefaultClass k => exact congrArg Option.toList (cls_name c _ k s)
  | «import» _ _ => rfl
  | _ => exact hblock _ s

/-- It keeps the variables as well. -/
theorem stmt_topVars (x : Stmt) (s : Lowering) :
    (Check.topVarPatterns (stmt x c s).1).flatMap Pattern.allNames
      = (Check.topVarPatterns x).flatMap Pattern.allNames := by
  cases x with
  | exportDecl d => exact stmt_varPatterns (pattern_allNames c) d s
  | _ => exact stmt_varPatterns (pattern_allNames c) _ s

end Walk

/-! ## The header -/

/-- The names that a statement declares at the top of a module, its variables included. -/
def Stmt.topDeclared (x : Stmt) : List String :=
  Check.topNames x ++ (Check.topVarPatterns x).flatMap Pattern.allNames

/-- What is listed in several statements is what is listed in each. -/
theorem Listing.ofStmts_eq {α : Type} (l : Listing α) (xs : List Stmt) :
    l.ofStmts xs = xs.flatMap l.ofStmt := by
  induction xs with
  | nil => rfl
  | cons x xs ih => exact congrArg (l.ofStmt x ++ ·) ih

namespace Header

/-- The statements that a header writes. -/
def written (h : Header) : List Stmt :=
  h.imports.map importStmt ++ h.declarations

/-- **What a header declares**: names that were given out, each of them once, and functions in which
nothing is declared twice. -/
structure Declares (used : List String) (h : Header) : Prop where
  within : used ⊆ h.taken
  nodup : (h.written.flatMap Stmt.topDeclared).Nodup
  taken : ∀ n ∈ h.written.flatMap Stmt.topDeclared, n ∈ h.taken ∧ n ∉ used
  functions : ∀ p ∈ (Listing.functions true).ofStmts h.written, p.2.declared.clashes = false

/-- The header that a module starts with declares nothing. -/
theorem declares_ofModule (m : Module) : Declares m.usedNames (ofModule m) where
  within := List.Subset.refl _
  nodup := List.nodup_nil
  taken _ hn := absurd hn List.not_mem_nil
  functions _ hp := absurd hp List.not_mem_nil

variable {used : List String} {h h' : Header}

/-- A name is taken, and a statement may be written that declares it. -/
theorem Declares.make (hd : h.Declares used) (hint : String) (x : Option Stmt)
    (htaken : h'.taken = h.freshName hint :: h.taken)
    (hwritten : List.Perm h'.written (x.toList ++ h.written))
    (hdeclared : ∀ y ∈ x, y.topDeclared = [h.freshName hint])
    (hfunctions : ∀ y ∈ x, ∀ p ∈ (Listing.functions true).ofStmt y,
      p.2.declared.clashes = false) : h'.Declares used := by
  have hfresh := freshName_notMem h hint
  have hnames : List.Perm (h'.written.flatMap Stmt.topDeclared)
      (x.toList.flatMap Stmt.topDeclared ++ h.written.flatMap Stmt.topDeclared) := by
    rw [← List.flatMap_append]
    exact hwritten.flatMap_right _
  have hnew : ∀ n ∈ x.toList.flatMap Stmt.topDeclared, n = h.freshName hint := by
    intro n hn
    obtain ⟨y, hy, hn⟩ := List.mem_flatMap.mp hn
    rw [hdeclared y (Option.mem_toList.mp hy)] at hn
    exact List.mem_singleton.mp hn
  refine ⟨?_, ?_, ?_, ?_⟩
  · rw [htaken]
    exact List.subset_cons_of_subset _ hd.within
  · rw [hnames.nodup_iff, List.nodup_append]
    refine ⟨?_, hd.nodup, ?_⟩
    · cases x with
      | none => exact List.nodup_nil
      | some y =>
        change ((y.topDeclared) ++ []).Nodup
        rw [hdeclared y rfl, List.append_nil]
        exact List.nodup_singleton _
    · -- What was declared is taken, and the new name is not.
      rintro a ha b hb rfl
      exact hfresh (hnew a ha ▸ (hd.taken a hb).1)
  · intro n hn
    rw [htaken]
    rcases List.mem_append.mp (hnames.mem_iff.mp hn) with hn | hn
    · rw [hnew n hn]
      -- A name that the module uses is taken from the start.
      exact ⟨List.mem_cons_self, fun hused => hfresh (hd.within hused)⟩
    · exact ⟨List.mem_cons_of_mem _ (hd.taken n hn).1, (hd.taken n hn).2⟩
  · intro p hp
    rw [Listing.ofStmts_eq] at hp
    obtain ⟨y, hy, hp⟩ := List.mem_flatMap.mp hp
    rcases List.mem_append.mp (hwritten.mem_iff.mp hy) with hy | hy
    · exact hfunctions y (Option.mem_toList.mp hy) p hp
    · refine hd.functions p ?_
      rw [Listing.ofStmts_eq]
      exact List.mem_flatMap.mpr ⟨y, hy, hp⟩

/-- **What is asked for once** declares the name that is given out, if anything. -/
theorem Declares.once (hd : h.Declares used) (key hint : String) {declare : String → Option Stmt}
    (hdeclared : ∀ name, ∀ y ∈ declare name, y.topDeclared = [name])
    (hfunctions : ∀ name, ∀ y ∈ declare name, ∀ p ∈ (Listing.functions true).ofStmt y,
      p.2.declared.clashes = false) : (h.once key hint declare).2.Declares used := by
  unfold Header.once
  split
  · exact hd
  · refine hd.make hint (declare (h.freshName hint)) rfl ?_ (hdeclared _) (hfunctions _)
    change List.Perm (h.imports.map importStmt
      ++ (h.declarations ++ (declare (h.freshName hint)).toList)) _
    rw [← List.append_assoc]
    exact List.perm_append_comm

/-- An import declares the name that is given out. -/
theorem Declares.addImport (hd : h.Declares used) (module : String) (exported : Option String)
    (hint : String) : (h.addImport module exported hint).2.Declares used := by
  unfold Header.addImport
  split
  · exact hd
  · refine hd.make hint (some (importStmt ⟨module, exported, h.freshName hint⟩)) rfl ?_ ?_ ?_
    · change List.Perm ((h.imports ++ [(⟨module, exported, h.freshName hint⟩ : ImportRequest)]).map
        importStmt ++ h.declarations) _
      rw [List.map_append, List.append_assoc]
      exact List.perm_middle
    · intro y hy
      obtain rfl := Option.some.inj hy
      cases exported <;> rfl
    · intro y hy p hp
      obtain rfl := Option.some.inj hy
      exact absurd hp List.not_mem_nil

/-- A slot does. -/
theorem Declares.slot (hd : h.Declares used) (hint : String) :
    (h.slot hint).2.Declares used := by
  refine hd.make hint (some (Build.declare .const (h.freshName hint)
    (Build.call .none (.ident .none "Symbol") [.string .none hint]))) rfl ?_ ?_ ?_
  · change List.Perm (h.imports.map importStmt ++ (h.declarations ++ [_])) _
    rw [← List.append_assoc]
    exact List.perm_append_comm
  · intro y hy
    obtain rfl := Option.some.inj hy
    rfl
  · intro y hy p hp
    obtain rfl := Option.some.inj hy
    exact absurd hp List.not_mem_nil

/-- The name of a parameter is given out and not declared. -/
theorem Declares.paramName (hd : h.Declares used) (hint : String) :
    (h.paramName hint).2.Declares used :=
  hd.once _ _ (fun _ _ hy => by cases hy) fun _ _ hy => by cases hy

/-- The key of controlled inputs is declared. -/
theorem Declares.throttleKey (hd : h.Declares used) : h.throttleKey.2.Declares used := by
  refine hd.once _ _ (fun name y hy => ?_) fun name y hy p hp => ?_
  · obtain rfl := Option.some.inj hy
    rfl
  · obtain rfl := Option.some.inj hy
    exact absurd hp List.not_mem_nil

/-- In the helper functions nothing is declared twice, whatever they are called. -/
theorem clashes_function (f : Helper) (name : String) :
    ∀ p ∈ (Listing.functions true).ofStmt (f.function name), p.2.declared.clashes = false := by
  have hnone : ((Listing.functions true).ofStmt (f.function name)).all
      (fun p => !p.2.declared.clashes) = true := by
    cases f <;> rfl
  intro p hp
  simpa using List.all_eq_true.mp hnone p hp

/-- A helper is imported or written out under its name. -/
theorem Declares.helper (hd : h.Declares used) (package : Option String) (f : Helper) :
    (h.helper package f).2.Declares used := by
  cases package with
  | some _ => exact hd.addImport _ _ _
  | none =>
    refine hd.once _ _ (fun name y hy => ?_) fun name y hy => ?_
    · obtain rfl := Option.some.inj hy
      cases f <;> rfl
    · obtain rfl := Option.some.inj hy
      exact clashes_function f name

end Header

/-! ## All of it -/

/-- The names that statements declare at the top of a module, and those of their variables. -/
theorem Check.topDistinct_iff {xs : List Stmt} :
    topDistinct xs = true ↔ (xs.flatMap topNames).Nodup ∧ ∀ n ∈ xs.flatMap topNames,
      n ∉ xs.flatMap fun x => (topVarPatterns x).flatMap Pattern.allNames := by
  rw [topDistinct, Bool.and_eq_true, distinct_iff, disjoint_iff, List.flatMap_assoc]

/-- **Nothing at the top level is declared twice**, if nothing was in the module as written. -/
theorem topDistinct_finish {m : Module} (hvalid : Check.topDistinct m.stmts = true) {h : Header}
    (hd : h.Declares m.usedNames) (c : LoweringSetting) (s : Lowering) :
    Check.topDistinct (h.finish { m with stmts := (Walk.stmts m.stmts c s).1 }).stmts = true := by
  obtain ⟨hnodup, hvars⟩ := Check.topDistinct_iff.mp hvalid
  have hnames := m.flatMap_subset_usedNames Site.topNames_subset
  have hvarNames := m.flatMap_subset_usedNames Site.topVars_subset
  -- What the header declares, split into variables and the rest.
  have hperm := List.flatMap_append_perm h.written Check.topNames
    fun x => (Check.topVarPatterns x).flatMap Pattern.allNames
  obtain ⟨hown, -, hapart⟩ := List.nodup_append.mp (hperm.nodup_iff.mpr hd.nodup)
  have hfirst : ∀ n ∈ h.written.flatMap Check.topNames, n ∉ m.usedNames := fun n hn =>
    (hd.taken n (hperm.mem_iff.mp (List.mem_append_left _ hn))).2
  have hsecond : ∀ n ∈ h.written.flatMap
      fun x => (Check.topVarPatterns x).flatMap Pattern.allNames, n ∉ m.usedNames := fun n hn =>
    (hd.taken n (hperm.mem_iff.mp (List.mem_append_right _ hn))).2
  change Check.topDistinct (h.written ++ (Walk.stmts m.stmts c s).1) = true
  rw [Check.topDistinct_iff, List.flatMap_append, List.flatMap_append,
    Walk.flatMap_stmts c (Walk.stmt_topNames c), Walk.flatMap_stmts c (Walk.stmt_topVars c)]
  refine ⟨List.nodup_append.mpr ⟨hown, hnodup, ?_⟩, fun n hn => ?_⟩
  · rintro a ha b hb rfl
    exact hfirst a ha (hnames hb)
  · rw [List.mem_append, not_or]
    rcases List.mem_append.mp hn with hn | hn
    · exact ⟨fun hn' => hapart n hn n hn' rfl, fun hn' => hfirst n hn (hvarNames hn')⟩
    · exact ⟨fun hn' => hsecond n hn' (hnames hn), hvars n hn⟩

end JsxDialect
