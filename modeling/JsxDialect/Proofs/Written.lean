import JsxDialect.Proofs.Names
import Mathlib.Data.List.Count
import Mathlib.Data.List.Induction

/-!
# What a header writes

What a header puts on top of a module is read off the log of the requests: of the requests that
share a name only the first counts, and each of those left is an import, a declaration or neither.
The main statement is `Header.finish_serve`. It says that the top of the module is just that, in the
order of the requests, and that a name that is to be declared there is declared by one statement of
it.

What a caller lets `once` declare is the caller's own: such a statement may declare any name. So the
statements that declare a name are counted together with those of the callers.
-/

namespace JsxDialect

/-- The names that a statement at the top level of a module binds there. -/
def Stmt.boundNames (d : Stmt) : List String :=
  (⟨[], [d]⟩ : Module).topLevelNames

/-- Whether a statement at the top level of a module binds a name there. -/
def Stmt.declares (d : Stmt) (x : String) : Bool :=
  d.boundNames.contains x

namespace Request

/-- What is exported by which module, for a request that is one for an import. -/
def exported? (r : Request) : Option (String × Option String) :=
  match r.memo? with
  | some (.export module exported) => some (module, exported)
  | _ => none

/-- The import that a request adds for its name. -/
def import? (r : Request) (name : String) : Option ImportRequest :=
  r.exported?.map fun (module, exported) => ⟨module, exported, name⟩

/-- What the caller of a request declares under its name. -/
def supplied? : Request → String → Option Stmt
  | .once _ _ declare, name => declare name
  | _, _ => none

/-- What a request itself declares under its name. -/
def ownDeclaration? : Request → String → Option Stmt
  | .helper none f, name => some (f.function name)
  | .throttle, name => some (Build.declare .var name (.string .none "throttleUpdates"))
  | .slot hint, name =>
    some (Build.declare .const name (Build.call .none (.ident .none "Symbol") [.string .none hint]))
  | _, _ => none

/-- What a request declares under its name. -/
def declaration? (r : Request) (name : String) : Option Stmt :=
  (r.supplied? name).or (r.ownDeclaration? name)

/-- What a request itself adds to the module for its name: an import or a declaration. -/
def own? (r : Request) (name : String) : Option Stmt :=
  ((r.import? name).map Header.importStmt).or (r.ownDeclaration? name)

/-- Whether the name of a request is to be declared at the top of the module. -/
def isDeclared : Request → Bool
  | .import .. | .descriptor _ | .helper .. | .throttle | .slot _ => true
  | .fresh _ | .param _ | .once .. => false

/-- Whether a request is only one for a name, which is written nowhere. -/
def isUnwritten : Request → Bool
  | .fresh _ | .param _ => true
  | _ => false

/-- Whether a request shares its name with one before it. -/
def isRecalled (before : List Request) (r : Request) : Bool :=
  r.memo?.isSome && before.any (·.memo? == r.memo?)

/-- The entries of a log that share their name with no entry before. -/
def firsts (before : List Request) : List (Request × String) → List (Request × String)
  | [] => []
  | p :: log =>
    if p.1.isRecalled before then firsts (before ++ [p.1]) log
    else p :: firsts (before ++ [p.1]) log

/-- The imports of a log: one for each export that was asked for, in the order of the first
requests. -/
def imports (log : List (Request × String)) : List ImportRequest :=
  (firsts [] log).filterMap fun p => p.1.import? p.2

/-- The declarations of a log: one for each request that makes its name and declares something, in
the order of the requests. -/
def declarations (log : List (Request × String)) : List Stmt :=
  (firsts [] log).filterMap fun p => p.1.declaration? p.2

/-- What the callers declare. -/
def supplied (log : List (Request × String)) : List Stmt :=
  (firsts [] log).filterMap fun p => p.1.supplied? p.2

/-- What a log adds to a module: the imports, and then the declarations. -/
def added (log : List (Request × String)) : List Stmt :=
  (imports log).map Header.importStmt ++ declarations log

/-- A caller of `once` uses none of the keys under which other requests declare their names. -/
def KeepsKeys : Request → Prop
  | .once key _ _ => (∀ f : Helper, key ≠ f.name) ∧ key ≠ "throttleUpdatesProperty"
  | _ => True

/-- A caller of `once` declares no name but the one it is given. -/
def DeclaresOwn : Request → Prop
  | .once _ _ declare => ∀ name d, declare name = some d → ∀ x, d.declares x = true → x = name
  | _ => True

theorem isRecalled_iff {before : List Request} {r : Request} :
    r.isRecalled before = true ↔ ∃ q ∈ before, r.Shares q := by
  simp only [isRecalled, Bool.and_eq_true, Option.isSome_iff_exists, List.any_eq_true, beq_iff_eq,
    Shares]
  constructor
  · rintro ⟨⟨k, hk⟩, q, hq, heq⟩
    exact ⟨q, hq, k, hk, heq.trans hk⟩
  · rintro ⟨q, hq, k, hr, hqk⟩
    exact ⟨⟨k, hr⟩, q, hq, hqk.trans hr.symm⟩

/-- One more entry is the first one of its name, or it is none. -/
theorem firsts_concat (before : List Request) (log : List (Request × String))
    (p : Request × String) :
    firsts before (log ++ [p])
      = firsts before log ++ if p.1.isRecalled (before ++ log.map (·.1)) then [] else [p] := by
  induction log generalizing before with
  | nil =>
    simp only [List.nil_append, firsts, List.map_nil, List.append_nil]
  | cons q log ih =>
    simp only [List.cons_append, firsts, ih, List.map_cons, List.append_assoc, List.nil_append]
    split
    · rfl
    · rfl

theorem firsts_sublist (before : List Request) (log : List (Request × String)) :
    (firsts before log).Sublist log := by
  induction log generalizing before with
  | nil => exact .slnil
  | cons p log ih =>
    rw [firsts]
    split
    · exact (ih _).cons p
    · exact (ih _).cons_cons p

end Request

namespace Header

open Request (firsts)

variable {used : List String} {log : List (Request × String)} {h : Header} {r : Request}

/-! ## Runs -/

/-- The header has noted what the log adds. -/
structure Notes (log : List (Request × String)) (h : Header) : Prop where
  imports : h.imports = Request.imports log
  declarations : h.declarations = Request.declarations log

theorem notes_ofModule (m : Module) : Notes [] (ofModule m) :=
  ⟨rfl, rfl⟩

theorem noted_once (h : Header) (key hint : String) (declare : String → Option Stmt)
    (hmiss : h.lookup (.key key) = none) :
    (h.once key hint declare).2.imports = h.imports
      ∧ (h.once key hint declare).2.declarations
        = h.declarations ++ (declare (h.freshName hint)).toList := by
  have hlookup : h.shared.lookup key = none := hmiss
  simp only [once, hlookup, fresh, freshName, and_self]

theorem noted_import (h : Header) (module : String) (exported : Option String) (hint : String)
    (hmiss : h.lookup (.export module exported) = none) :
    (h.addImport module exported hint).2.imports
        = h.imports ++ [⟨module, exported, h.freshName hint⟩]
      ∧ (h.addImport module exported hint).2.declarations = h.declarations := by
  have hfind : h.imports.find? (fun r => r.module == module && r.exported == exported) = none := by
    simpa [lookup] using hmiss
  simp only [addImport, hfind, fresh, freshName, and_self]

/-- **A request that makes its name** notes its import or its declaration. -/
theorem noted_of_miss (hmiss : ∀ k, r.memo? = some k → h.lookup k = none) :
    (r.ask h).2.imports = h.imports ++ (r.import? (h.freshName r.hint)).toList
      ∧ (r.ask h).2.declarations
        = h.declarations ++ (r.declaration? (h.freshName r.hint)).toList := by
  have honce : ∀ (key hint : String) (declare : String → Option Stmt), r.memo? = some (.key key) →
      (h.once key hint declare).2.imports = h.imports ++ []
        ∧ (h.once key hint declare).2.declarations
          = h.declarations ++ (declare (h.freshName hint)).toList := by
    intro key hint declare hk
    rw [List.append_nil]
    exact noted_once h key hint declare (hmiss _ hk)
  have himport : ∀ (module : String) (exported : Option String) (hint : String),
      r.memo? = some (.export module exported) →
      (h.addImport module exported hint).2.imports
          = h.imports ++ [⟨module, exported, h.freshName hint⟩]
        ∧ (h.addImport module exported hint).2.declarations = h.declarations ++ [] := by
    intro module exported hint hk
    rw [List.append_nil]
    exact noted_import h module exported hint (hmiss _ hk)
  -- Every request that can be recalled is one of these two under its own key.
  cases r with
  | fresh _ => exact ⟨(List.append_nil _).symm, (List.append_nil _).symm⟩
  | slot _ => exact ⟨(List.append_nil _).symm, rfl⟩
  | param _ => exact honce _ _ _ rfl
  | once key hint declare =>
    have hown : Request.declaration? (.once key hint declare) (h.freshName hint)
        = declare (h.freshName hint) := Option.or_none
    obtain ⟨himports, hdeclarations⟩ := honce key hint declare rfl
    exact ⟨himports, hdeclarations.trans (congrArg (h.declarations ++ ·.toList) hown.symm)⟩
  | throttle => exact honce _ _ _ rfl
  | «import» _ _ _ | descriptor _ => exact himport _ _ _ rfl
  | helper package f =>
    cases package with
    | none => exact honce _ _ _ rfl
    | some _ => exact himport _ _ _ rfl

/-- One request. -/
theorem Notes.ask (hn : Notes log h) (ht : Tracks used log h) (r : Request) :
    Notes (log ++ [(r, (r.ask h).1)]) (r.ask h).2 := by
  have hrecalled : r.isRecalled ([] ++ log.map (·.1)) = true ↔ ∃ p ∈ log, r.Shares p.1 := by
    simp only [Request.isRecalled_iff, List.nil_append, List.mem_map, exists_exists_and_eq_and]
  rcases ask_cases r h with ⟨k, name, hk, hname, hask⟩ | ⟨hmiss, hname, -⟩
  · obtain ⟨r', hlog, hr'⟩ := (ht.lookup k name).mp hname
    have hshared := hrecalled.mpr ⟨_, hlog, k, hk, hr'⟩
    rw [hask]
    constructor
    · rw [Request.imports, Request.firsts_concat, if_pos hshared, List.append_nil]
      exact hn.imports
    · rw [Request.declarations, Request.firsts_concat, if_pos hshared, List.append_nil]
      exact hn.declarations
  · -- No earlier request shares the name, for the header would have recalled it.
    have hnew : ¬r.isRecalled ([] ++ log.map (·.1)) = true := by
      rw [hrecalled]
      rintro ⟨⟨q, n⟩, hq, k, hk, hqk⟩
      have hold := (ht.lookup k n).mpr ⟨q, hq, hqk⟩
      rw [hmiss k hk] at hold
      cases hold
    obtain ⟨himports, hdeclarations⟩ := noted_of_miss hmiss
    rw [hname]
    constructor
    · rw [himports, hn.imports, Request.imports, Request.imports, Request.firsts_concat,
        if_neg hnew, List.filterMap_append]
      cases hi : r.import? (h.freshName r.hint) <;> simp [hi]
    · rw [hdeclarations, hn.declarations, Request.declarations, Request.declarations,
        Request.firsts_concat, if_neg hnew, List.filterMap_append]
      cases hd : r.declaration? (h.freshName r.hint) <;> simp [hd]

/-- **A run of requests.** -/
theorem Notes.serve (hn : Notes log h) (ht : Tracks used log h) (rs : List Request) :
    Notes (log ++ (Request.serve rs h).1) (Request.serve rs h).2 := by
  induction rs generalizing log h with
  | nil => simpa [Request.serve] using hn
  | cons r rs ih =>
    have hlast := ih (hn.ask ht r) (ht.ask r).1
    rw [serve_cons]
    simpa using hlast

/-! ## Names that are declared -/

theorem boundNames_importStmt (i : ImportRequest) : (importStmt i).boundNames = [i.name] := by
  obtain ⟨module, exported, name⟩ := i
  cases exported with
  | none => rfl
  | some _ => rfl

/-- What a request itself declares is its name. -/
theorem boundNames_ownDeclaration? {name : String} {d : Stmt}
    (hd : r.ownDeclaration? name = some d) : d.boundNames = [name] := by
  unfold Request.ownDeclaration? at hd
  split at hd
  · rename_i f
    obtain rfl := Option.some.inj hd
    cases f with
    | classes => rfl
    | styles => rfl
  · obtain rfl := Option.some.inj hd
    rfl
  · obtain rfl := Option.some.inj hd
    rfl
  · cases hd

theorem boundNames_own? {name : String} {d : Stmt} (hd : r.own? name = some d) :
    d.boundNames = [name] := by
  rcases Option.or_eq_some_iff.mp hd with himport | ⟨-, hown⟩
  · obtain ⟨i, hi, rfl⟩ := Option.map_eq_some_iff.mp himport
    obtain ⟨e, -, rfl⟩ := Option.map_eq_some_iff.mp hi
    exact boundNames_importStmt _
  · exact boundNames_ownDeclaration? hown

/-- A name that is to be declared is declared by what its request adds. -/
theorem exists_own? (hr : r.isDeclared = true) (name : String) : ∃ d, r.own? name = some d := by
  cases r with
  | fresh _ | param _ | once _ _ _ => simp [Request.isDeclared] at hr
  | «import» _ _ _ | descriptor _ | throttle | slot _ => exact ⟨_, rfl⟩
  | helper package f =>
    cases package with
    | none => exact ⟨_, rfl⟩
    | some _ => exact ⟨_, rfl⟩

/-- The keys under which requests declare their names. -/
theorem key_of_isDeclared (hr : r.isDeclared = true) {key : String}
    (hk : r.memo? = some (.key key)) :
    (∃ f : Helper, key = f.name) ∨ key = "throttleUpdatesProperty" := by
  cases r with
  | fresh _ | param _ | once _ _ _ => simp [Request.isDeclared] at hr
  | «import» _ _ _ | descriptor _ | slot _ => simp [Request.memo?] at hk
  | throttle => exact .inr (Memo.key.inj (Option.some.inj hk)).symm
  | helper package f =>
    cases package with
    | none => exact .inl ⟨f, (Memo.key.inj (Option.some.inj hk)).symm⟩
    | some _ => simp [Request.memo?] at hk

/-- The requests that share a declared name all declare it. -/
theorem isDeclared_of_shares {q : Request} (hr : r.isDeclared = true) (hq : q.KeepsKeys)
    (hshares : r.Shares q) : q.isDeclared = true := by
  obtain ⟨k, hrk, hqk⟩ := hshares
  cases q with
  | «import» _ _ _ | descriptor _ | helper _ _ | throttle | slot _ => rfl
  | fresh _ => cases hqk
  | param hint =>
    -- The key of a parameter starts with another letter than those of declared names.
    obtain rfl := Option.some.inj hqk
    have hfirst : ("param:" ++ hint).toList.head? = some 'p' := by
      rw [String.toList_append]
      rfl
    rcases key_of_isDeclared hr hrk with ⟨f, hf⟩ | hthrottle
    · rw [hf] at hfirst
      cases f <;> simp [Helper.name] at hfirst
    · rw [hthrottle] at hfirst
      simp at hfirst
  | once key hint declare =>
    obtain rfl := Option.some.inj hqk
    rcases key_of_isDeclared hr hrk with ⟨f, hf⟩ | hthrottle
    · exact absurd hf (hq.1 f)
    · exact absurd hthrottle hq.2

/-! ## First requests -/

theorem not_shares_firsts (before : List Request) (log : List (Request × String)) :
    (firsts before log).Pairwise (fun p q => ¬q.1.Shares p.1)
      ∧ ∀ p ∈ firsts before log, ∀ q ∈ before, ¬p.1.Shares q := by
  induction log generalizing before with
  | nil => exact ⟨.nil, fun p hp => absurd hp List.not_mem_nil⟩
  | cons p log ih =>
    obtain ⟨hpairs, hbefore⟩ := ih (before ++ [p.1])
    have hlater : ∀ q ∈ firsts (before ++ [p.1]) log, ∀ r ∈ before, ¬q.1.Shares r :=
      fun q hq r hr => hbefore q hq r (List.mem_append_left _ hr)
    rw [Request.firsts]
    split
    · exact ⟨hpairs, hlater⟩
    · rename_i hnew
      refine ⟨List.pairwise_cons.mpr ⟨fun q hq => ?_, hpairs⟩, fun q hq r hr => ?_⟩
      · exact hbefore q hq p.1 (List.mem_append_right _ (List.mem_singleton.mpr rfl))
      · rcases List.mem_cons.mp hq with rfl | hq
        · exact fun hshares => hnew (Request.isRecalled_iff.mpr ⟨r, hr, hshares⟩)
        · exact hlater q hq r hr

/-- An entry that is no first one shares its name with an earlier entry. -/
theorem mem_firsts_or (before : List Request) {log : List (Request × String)} {p : Request × String}
    (hp : p ∈ log) :
    p ∈ firsts before log ∨ (∃ q ∈ before, p.1.Shares q)
      ∨ ∃ q ∈ firsts before log, p.1.Shares q.1 := by
  induction log generalizing before with
  | nil => exact absurd hp List.not_mem_nil
  | cons q log ih =>
    have hsub : ∀ x ∈ firsts (before ++ [q.1]) log, x ∈ firsts before (q :: log) := by
      intro x hx
      rw [Request.firsts]
      split
      · exact hx
      · exact List.mem_cons_of_mem _ hx
    -- If `q` is no first entry itself, an entry before it has the same memo.
    have hself : (∃ x ∈ before, q.1.Shares x) ∨ q ∈ firsts before (q :: log) := by
      rw [Request.firsts]
      split
      · rename_i hold
        exact .inl (Request.isRecalled_iff.mp hold)
      · exact .inr List.mem_cons_self
    rcases List.mem_cons.mp hp with rfl | hp
    · exact hself.symm.imp_right .inl
    · rcases ih (before ++ [q.1]) hp with hfirst | ⟨x, hx, hshares⟩ | ⟨x, hx, hshares⟩
      · exact .inl (hsub p hfirst)
      · rcases List.mem_append.mp hx with hx | hx
        · exact .inr (.inl ⟨x, hx, hshares⟩)
        · obtain rfl := List.mem_singleton.mp hx
          obtain ⟨k, hpk, hqk⟩ := hshares
          rcases hself with ⟨x, hx, k', hqk', hxk⟩ | hself
          · exact .inr (.inl ⟨x, hx, k, hpk, by rw [hxk, ← hqk', hqk]⟩)
          · exact .inr (.inr ⟨q, hself, k, hpk, hqk⟩)
      · exact .inr (.inr ⟨x, hsub x hx, hshares⟩)

/-- First entries have different names. -/
theorem Tracks.nodup_firsts (ht : Tracks used log h) : ((firsts [] log).map (·.2)).Nodup := by
  have happart := ht.apart.sublist (Request.firsts_sublist [] log)
  refine List.pairwise_map.mpr ?_
  refine (happart.and (not_shares_firsts [] log).1).imp fun hpq heq => ?_
  exact hpq.2 (hpq.1.mp heq).symm

/-- Every name of a log is that of a first entry, which has the same memo. -/
theorem Tracks.exists_first (ht : Tracks used log h) {p : Request × String} (hp : p ∈ log) :
    ∃ q ∈ firsts [] log, q.2 = p.2 ∧ (q = p ∨ p.1.Shares q.1) := by
  rcases mem_firsts_or [] hp with hfirst | ⟨x, hx, -⟩ | ⟨q, hq, k, hpk, hqk⟩
  · exact ⟨p, hfirst, rfl, .inl rfl⟩
  · exact absurd hx List.not_mem_nil
  · have hlog := (Request.firsts_sublist [] log).subset hq
    have hpname := (ht.lookup k p.2).mpr ⟨p.1, hp, hpk⟩
    have hqname := (ht.lookup k q.2).mpr ⟨q.1, hlog, hqk⟩
    exact ⟨q, hq, Option.some.inj (hqname.symm.trans hpname), .inr ⟨k, hpk, hqk⟩⟩

/-! ## Counting -/

/-- A request adds at most one statement: an import, its own declaration, or that of its caller. -/
theorem adds_one (r : Request) (name : String) :
    (r.import? name = none ∧ r.ownDeclaration? name = none)
      ∨ (r.import? name = none ∧ r.supplied? name = none)
      ∨ (r.supplied? name = none ∧ r.ownDeclaration? name = none) := by
  cases r with
  | fresh _ | param _ | once _ _ _ => exact .inl ⟨rfl, rfl⟩
  | throttle | slot _ => exact .inr (.inl ⟨rfl, rfl⟩)
  | «import» _ _ _ | descriptor _ => exact .inr (.inr ⟨rfl, rfl⟩)
  | helper package f =>
    cases package with
    | none => exact .inr (.inl ⟨rfl, rfl⟩)
    | some _ => exact .inr (.inr ⟨rfl, rfl⟩)

/-- What is added is what the requests add themselves and what their callers supply. -/
theorem countP_added (log : List (Request × String)) (b : Stmt → Bool) :
    (Request.added log).countP b
      = ((firsts [] log).filterMap fun p => p.1.own? p.2).countP b
        + (Request.supplied log).countP b := by
  unfold Request.added Request.imports Request.declarations Request.supplied
  rw [List.countP_append, List.countP_map]
  generalize firsts [] log = entries
  induction entries with
  | nil => rfl
  | cons p entries ih =>
    simp only [List.filterMap_cons, Request.own?, Request.declaration?] at ih ⊢
    rcases adds_one p.1 p.2 with ⟨hi, ho⟩ | ⟨hi, hs⟩ | ⟨hs, ho⟩
    · cases hs : p.1.supplied? p.2 <;> simp only [hi, ho, Option.map_none, Option.or_none,
        List.countP_cons] <;> omega
    · cases ho : p.1.ownDeclaration? p.2 <;> simp only [hi, hs, Option.map_none, Option.none_or,
        List.countP_cons] <;> omega
    · cases hi : p.1.import? p.2 <;> simp only [hs, ho, Option.map_none, Option.map_some,
        Option.or_none, List.countP_cons, Function.comp] <;> omega

/-- **Of what the requests add themselves, one statement binds a name that is to be declared.** -/
theorem Tracks.countP_own (ht : Tracks used log h) (hkeys : ∀ p ∈ log, p.1.KeepsKeys)
    {p : Request × String} (hp : p ∈ log) (hdeclared : p.1.isDeclared = true) :
    ((firsts [] log).filterMap fun q => q.1.own? q.2).countP (·.declares p.2) = 1 := by
  obtain ⟨q, hq, hname, hsame⟩ := ht.exists_first hp
  have hqlog := (Request.firsts_sublist [] log).subset hq
  have hqdeclared : q.1.isDeclared = true := by
    rcases hsame with rfl | hshares
    · exact hdeclared
    · exact isDeclared_of_shares hdeclared (hkeys q hqlog) hshares
  have hnodup := ht.nodup_firsts
  -- A first entry adds a statement that binds the name exactly if the name is its own.
  have hiff : ∀ e ∈ firsts [] log,
      (((e.1.own? e.2).map (·.declares p.2)).getD false = true ↔ (e.2 == p.2) = true) := by
    intro e he
    rw [beq_iff_eq]
    constructor
    · intro hbinds
      cases hd : e.1.own? e.2 with
      | none => simp [hd] at hbinds
      | some d =>
        rw [hd, Option.map_some, Option.getD_some, Stmt.declares, boundNames_own? hd] at hbinds
        exact (by simpa using hbinds : p.2 = e.2).symm
    · intro heq
      obtain rfl : e = q := List.inj_on_of_nodup_map hnodup he hq (heq.trans hname.symm)
      obtain ⟨d, hd⟩ := exists_own? hqdeclared e.2
      rw [hd, Option.map_some, Option.getD_some, Stmt.declares, boundNames_own? hd, heq]
      simp
  rw [List.countP_filterMap, List.countP_congr hiff]
  calc (firsts [] log).countP (fun e => e.2 == p.2)
      = ((firsts [] log).map (·.2)).count p.2 := by
        rw [List.count, List.countP_map]
        rfl
    _ = 1 := List.count_eq_one_of_mem hnodup (List.mem_map.mpr ⟨q, hq, hname⟩)

/-- A caller that declares no name but the one it is given declares no name that is declared
anyway. -/
theorem Tracks.countP_supplied (ht : Tracks used log h) (hkeys : ∀ p ∈ log, p.1.KeepsKeys)
    (hown : ∀ p ∈ log, p.1.DeclaresOwn) {p : Request × String} (hp : p ∈ log)
    (hdeclared : p.1.isDeclared = true) :
    (Request.supplied log).countP (·.declares p.2) = 0 := by
  refine List.countP_eq_zero.mpr fun d hd hbinds => ?_
  obtain ⟨q, hq, hqd⟩ := List.mem_filterMap.mp hd
  have hqlog := (Request.firsts_sublist [] log).subset hq
  obtain ⟨key, hint, declare, hrequest⟩ : ∃ key hint declare, q.1 = .once key hint declare := by
    cases hr : q.1 with
    | once key hint declare => exact ⟨key, hint, declare, rfl⟩
    | _ => rw [hr] at hqd; cases hqd
  have hname : p.2 = q.2 := by
    have hq := hown q hqlog
    rw [hrequest] at hq hqd
    exact hq q.2 d hqd p.2 hbinds
  -- The names are the same, so the memos are, but the caller keeps away from the keys of others.
  have hmemo := ht.memo?_eq (r := q.1) (hname ▸ hqlog : (q.1, p.2) ∈ log) hp
    (by rw [hrequest]; rfl : q.1.memo? = some (.key key))
  have hq := isDeclared_of_shares hdeclared (hkeys q hqlog) ⟨_, hmemo, by rw [hrequest]; rfl⟩
  rw [hrequest] at hq
  cases hq

/-- A request for an import shares its name with those for the same export. -/
theorem shares_iff {q : Request} {e : String × Option String} (he : r.exported? = some e) :
    r.Shares q ↔ q.exported? = some e := by
  have hexport : ∀ r : Request, r.exported? = some e ↔ r.memo? = some (.export e.1 e.2) := by
    intro r
    unfold Request.exported?
    split
    · rename_i module exported hmemo
      rw [hmemo]
      simp [Prod.ext_iff]
    · rename_i hmemo
      exact iff_of_false (fun heq => by cases heq) (hmemo _ _)
  rw [hexport] at he ⊢
  constructor
  · rintro ⟨k, hr, hq⟩
    rw [hq, ← hr, he]
  · exact fun hq => ⟨_, he, hq⟩

/-- There is one import for each export that is asked for, in the order of the first requests. -/
theorem map_exported_imports (log : List (Request × String)) :
    (Request.imports log).map (fun i => (i.module, i.exported))
      = ((log.map (·.1)).filterMap Request.exported?).eraseDups := by
  induction log using List.reverseRecOn with
  | nil => rfl
  | append_singleton log p ih =>
    rw [Request.imports, Request.firsts_concat, List.filterMap_append, List.map_append,
      List.map_append, List.filterMap_append, List.eraseDups_append, ← ih, ← Request.imports]
    congr 1
    cases he : p.1.exported? with
    | none =>
      have hi : p.1.import? p.2 = none := by rw [Request.import?, he]; rfl
      split <;> simp [hi, he, List.removeAll]
    | some e =>
      have hi : p.1.import? p.2 = some ⟨e.1, e.2, p.2⟩ := by rw [Request.import?, he]; rfl
      -- The entry is no first one exactly if its export has been asked for before.
      have hold : p.1.isRecalled ([] ++ log.map (·.1)) = true
          ↔ e ∈ (log.map (·.1)).filterMap Request.exported? := by
        rw [Request.isRecalled_iff, List.nil_append, List.mem_filterMap]
        exact exists_congr fun q => and_congr_right fun _ => shares_iff he
      have hlast : ([p].map (·.1)).filterMap Request.exported? = [e] := by simp [he]
      rw [hlast]
      generalize (log.map (·.1)).filterMap Request.exported? = asked at hold ⊢
      by_cases hmem : e ∈ asked
      · rw [if_pos (hold.mpr hmem)]
        simp [List.removeAll, hmem]
      · rw [if_neg fun h => hmem (hold.mp h)]
        simp only [List.filterMap_cons, hi, List.filterMap_nil, List.map_cons, List.map_nil,
          List.removeAll, List.elem_eq_mem, hmem, decide_false, Bool.not_false, List.filter_cons,
          if_true, List.filter_nil]
        rfl

/-! ## The top of a module -/

theorem added_of_unwritten (h : ∀ p ∈ log, p.1.isUnwritten = true) : Request.added log = [] := by
  have hnone : ∀ p ∈ firsts [] log, p.1.import? p.2 = none ∧ p.1.declaration? p.2 = none := by
    intro p hp
    have hp := h p ((Request.firsts_sublist [] log).subset hp)
    cases hr : p.1 with
    | fresh _ | param _ => exact ⟨rfl, rfl⟩
    | _ => simp [hr, Request.isUnwritten] at hp
  rw [Request.added, Request.imports, Request.declarations,
    List.filterMap_eq_nil_iff.mpr fun p hp => (hnone p hp).1,
    List.filterMap_eq_nil_iff.mpr fun p hp => (hnone p hp).2]
  rfl

/-- **What is asked for is written once.** The header adds one import for each export that was asked
for, in the order of the first requests, and then what the requests that made their names declare,
in their order; the statements of the module follow as they are. Each name that is to be declared is
bound by one of the added statements, those that callers supply apart, and by no other one at all if
the callers declare only the names that they are given. -/
theorem finish_serve (m : Module) (rs : List Request) {log : List (Request × String)}
    {header : Header} (hserve : Request.serve rs (ofModule m) = (log, header))
    (hkeys : ∀ r ∈ rs, r.KeepsKeys) :
    header.finish m = { m with stmts := Request.added log ++ m.stmts }
      ∧ (Request.imports log).map (fun i => (i.module, i.exported))
        = (rs.filterMap Request.exported?).eraseDups
      ∧ (∀ p ∈ log, p.1.isDeclared = true →
        (Request.added log).countP (·.declares p.2)
          = 1 + (Request.supplied log).countP (·.declares p.2))
      ∧ ((∀ r ∈ rs, r.DeclaresOwn) → ∀ p ∈ log, p.1.isDeclared = true →
        (Request.added log).countP (·.declares p.2) = 1)
      ∧ ((∀ r ∈ rs, r.isUnwritten = true) → header.finish m = m) := by
  have hlog : (Request.serve rs (ofModule m)).1 = log := by rw [hserve]
  have hheader : (Request.serve rs (ofModule m)).2 = header := by rw [hserve]
  have hrequests : log.map (·.1) = rs := hlog ▸ map_fst_serve rs (ofModule m)
  have hmem : ∀ p ∈ log, p.1 ∈ rs := fun p hp => hrequests ▸ List.mem_map_of_mem hp
  have htracks : Tracks m.usedNames log header := by
    have := ((tracks_ofModule m).serve rs).1
    rwa [hlog, hheader, List.nil_append] at this
  have hnotes : Notes log header := by
    have := (notes_ofModule m).serve (tracks_ofModule m) rs
    rwa [hlog, hheader, List.nil_append] at this
  have hfinish : header.finish m = { m with stmts := Request.added log ++ m.stmts } := by
    rw [finish, hnotes.imports, hnotes.declarations, Request.added]
  -- From here on the log alone decides what is written.
  have hkeys' : ∀ p ∈ log, p.1.KeepsKeys := fun p hp => hkeys p.1 (hmem p hp)
  have hcount : ∀ p ∈ log, p.1.isDeclared = true →
      (Request.added log).countP (·.declares p.2)
        = 1 + (Request.supplied log).countP (·.declares p.2) := by
    intro p hp hdeclared
    rw [countP_added, htracks.countP_own hkeys' hp hdeclared]
  refine ⟨hfinish, ?_, hcount, fun hown p hp hdeclared => ?_, fun hunwritten => ?_⟩
  · rw [map_exported_imports, hrequests]
  · rw [hcount p hp hdeclared, htracks.countP_supplied hkeys'
      (fun q hq => hown q.1 (hmem q hq)) hp hdeclared]
  · have hnone : Request.added log = [] := added_of_unwritten fun p hp =>
      hunwritten p.1 (hmem p hp)
    rw [hfinish, hnone, List.nil_append]

/-- In a module that uses the name `_styles`, the helper for styles is declared once as `_styles2`,
though it is asked for twice and a caller declares something in between. -/
theorem finish_serve_styles :
    (Request.serve [.helper none .styles, .slot "a",
        .once "own" "own" fun name => some (.expr (.ident .none name)), .helper none .styles]
      (ofModule ⟨[], [.expr (.ident .none "_styles")]⟩)).1.map (·.2)
        = ["_styles2", "_a", "_own", "_styles2"]
      ∧ (Request.added (Request.serve [.helper none .styles, .slot "a",
          .once "own" "own" fun name => some (.expr (.ident .none name)), .helper none .styles]
        (ofModule ⟨[], [.expr (.ident .none "_styles")]⟩)).1).countP (·.declares "_styles2")
          = 1 := by
  refine ⟨rfl, ?_⟩
  refine (finish_serve ⟨[], [.expr (.ident .none "_styles")]⟩ [.helper none .styles, .slot "a",
    .once "own" "own" fun name => some (.expr (.ident .none name)), .helper none .styles] rfl
    ?_).2.2.2.1 ?_ (.helper none .styles, "_styles2") List.mem_cons_self rfl
  · simp only [List.forall_mem_cons, Request.KeepsKeys, true_and, List.not_mem_nil, false_implies,
      implies_true, and_true]
    exact ⟨fun f => by cases f <;> decide, by decide⟩
  · simp only [List.forall_mem_cons, Request.DeclaresOwn, true_and, List.not_mem_nil, false_implies,
      implies_true, and_true]
    rintro name d hd x hx
    obtain rfl := Option.some.inj hd
    cases hx

end Header

end JsxDialect
