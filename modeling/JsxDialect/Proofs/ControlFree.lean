import JsxDialect.Proofs.Compiled

/-!
# No control flow is left

With control flow on, the compiled module has no element with a tag of control flow, wherever an
element can stand. Elements are judged where they come to stand, so nothing has to be said about
names here: the discipline is a loose one.
-/

namespace JsxDialect

/-- Whether a place is no element with a tag of control flow, unless control flow is off. -/
def Site.IsControlFree (o : Options) (p : Site) : Prop :=
  ∀ e, p.part = .element e → o.controlFlow = true → e.control? = none

namespace Site

variable {o : Options} {p : Site}

theorem isControlFree_of_element? (h : p.element? = none) : p.IsControlFree o := by
  intro e he
  rw [element?, he] at h
  cases h

/-- Layers do not matter. -/
theorem IsControlFree.around (h : p.IsControlFree o) (L : List Layer) :
    (p.around L).IsControlFree o :=
  h

end Site

/-- **The discipline of lowering control flow**: no place is an element with a tag of control flow,
and what is queued has no such place. -/
def controlFree (o : Options) : Discipline o where
  Inv h fs := h.DeclaresNames ∧ ∀ f ∈ fs, ∀ x ∈ f.queued, ∀ p ∈ Site.ofStmt x, p.IsControlFree o
  Extends _ _ := True
  Ok _ _ _ p := p.IsControlFree o
  Global _ _ := True
  Param _ _ := True
  Source _ := True
  Loose := True
  extends_refl _ := trivial
  extends_trans _ _ := trivial
  global_mono _ _ := trivial
  param_mono _ _ := trivial
  ok_mono _ _ h := h
  ok_subset _ h := h
  ok_loose _ h := h
  ok_global _ := Site.isControlFree_of_element? rfl
  ok_param _ _ _ := Site.isControlFree_of_element? rfl
  ok_binding := Site.isControlFree_of_element? rfl
  ok_element := by
    intro _ _ _ e
    refine ⟨fun h => h e rfl, fun h e' he' => ?_⟩
    cases he'
    exact h
  ok_layer _ _ h := h.around _
  ok_outer _ h := h.around _
  source_global _ _ := trivial
  unmarked_global _ _ := trivial
  inv_open hinv := by
    refine ⟨hinv.1, fun f hf => ?_⟩
    rcases List.mem_cons.mp hf with rfl | hf
    · exact fun x hx => absurd hx List.not_mem_nil
    · exact hinv.2 f hf
  inv_close hinv := ⟨hinv.1, fun f hf => hinv.2 f (List.mem_cons_of_mem _ hf)⟩
  ok_close _ h := h
  ok_params _ _ _ h := h.around _
  ok_body := by
    intro h f fs isMethod all stmts _ hinv _ hstmts p hp
    obtain ⟨pre, x, post, q, hsplit, hq, rfl⟩ := Site.mem_ofBodyStmts hp
    have hx : x ∈ f.queued ++ stmts := hsplit ▸ List.mem_append_right _ List.mem_cons_self
    rcases List.mem_append.mp hx with hx | hx
    · exact (hinv.2 f List.mem_cons_self x hx q hq).around _
    · exact (hstmts q (Site.mem_ofStmts.mpr ⟨x, hx, hq⟩)).around _
  ask_global hr hinv := ⟨⟨hinv.1.global hr, hinv.2⟩, trivial, trivial, .inl trivial⟩
  ask_param hinv := ⟨⟨hinv.1.paramName _, hinv.2⟩, trivial, trivial⟩
  lift := by
    intro h inner f outer e span kind _ hinv _ _ he _
    have hslot : ∀ x, (Site.reference x).IsControlFree o :=
      fun x => Site.isControlFree_of_element? rfl
    refine ⟨⟨hinv.1.slot _, fun g hg x hx p hp => ?_⟩, trivial, fun p hp => ?_⟩
    · rcases List.mem_append.mp hg with hg | hg
      · exact hinv.2 g (List.mem_append_left _ hg) x hx p hp
      · rcases List.mem_cons.mp hg with rfl | hg
        · rcases List.mem_append.mp hx with hx | hx
          · exact hinv.2 f (List.mem_append_right _ List.mem_cons_self) x hx p hp
          · obtain rfl := List.mem_singleton.mp hx
            rcases Lift.mem_initializer hp with rfl | hp
            · exact hslot _
            · exact he p hp
        · exact hinv.2 g (List.mem_append_right _ (List.mem_cons_of_mem _ hg)) x hx p hp
    · rcases Lift.mem_replacement hp with rfl | rfl | hp
      · exact hslot _
      · exact hslot _
      · exact he p hp

/-- The tags of control flow. -/
def controlTags : List String :=
  ["if", "unless", "elseif", "else", "switch", "repeat", "using", "g"]

theorem ControlTag.ofText?_isSome {text : String} (h : text ∈ controlTags) :
    (ControlTag.ofText? text).isSome = true := by
  simp only [controlTags, List.mem_cons, List.not_mem_nil, or_false] at h
  rcases h with rfl | rfl | rfl | rfl | rfl | rfl | rfl | rfl <;> rfl

theorem Site.isControlFree_compile (m : Module) (o : Options) :
    ∀ p ∈ Site.ofStmts (m.compile o).module.stmts, p.IsControlFree o := by
  have hsource : (controlFree o).FromSource (Site.ofStmts m.stmts) := by
    intro p _
    unfold Discipline.Sourced
    split
    · trivial
    · exact .inl trivial
    · trivial
  obtain ⟨stmts, hmodule, hinv, hall⟩ := (controlFree o).compile
    ⟨fun d hd => absurd hd List.not_mem_nil, fun f hf => absurd hf List.not_mem_nil⟩ hsource
  intro p hp
  rw [hmodule] at hp
  rcases Site.mem_ofStmts_finish hp with ⟨x, rfl⟩ | ⟨d, hd, hp⟩ | hp
  · exact Site.isControlFree_of_element? rfl
  · have hname := hinv.1 d hd p hp
    intro e he
    rw [Site.isPlainName, he] at hname
    cases hname
  · exact hall p hp

/-- **No control flow is left.** With control flow on, no element of a compiled module has a tag of
control flow, at any depth and in any position. -/
theorem Module.compile_elements_ordinary (m : Module) (o : Options) (h : o.controlFlow = true) :
    ∀ e ∈ (m.compile o).module.elements, e.name.text ∉ controlTags := by
  intro e he htag
  obtain ⟨p, hp, hpe⟩ := List.mem_filterMap.mp he
  have hpart : p.part = .element e := by
    unfold Site.element? at hpe
    split at hpe
    · rename_i e' hpart
      rw [hpart, Option.some.inj hpe]
    · cases hpe
  have hnone := Site.isControlFree_compile m o p hp e hpart h
  have hsome := ControlTag.ofText?_isSome htag
  rw [Element.control?] at hnone
  rw [hnone] at hsome
  cases hsome

/-- A method that returns `<p a={() => <if condition={x}><g><b /></g></if>} />`. -/
def conditionalHandler : Module :=
  let tag (name : String) (attrs : List Attr) (children : List Child) : Element :=
    .mk .none .none (.plain name) attrs children false
  let condition := tag "if" [Build.attr .none "condition" (.ident .none "x")]
    [.element (tag "g" [] [.element (tag "b" [] [])])]
  let returned := tag "p" [Build.attr .none "a" (Build.arrow .none [] (.element condition))] []
  let method : Func := .mk none false false none .none [] none none
    (.block [] [.return (some (.element returned))])
  ⟨[], [.classDecl (.mk (some "A") [] none [.method [] false .method (.ident "m") method])]⟩

/-- Where a handler that is kept on the instance shows a group under a condition, only what is in
the group is left. -/
theorem compile_elements_conditionalHandler :
    conditionalHandler.elements.map (·.name.text) = ["p", "if", "g", "b"]
      ∧ (conditionalHandler.compile {}).module.elements.map (·.name.text) = ["b", "p"]
      ∧ ∀ e ∈ (conditionalHandler.compile {}).module.elements, e.name.text ∉ controlTags :=
  ⟨by decide +kernel, by decide +kernel,
    Module.compile_elements_ordinary conditionalHandler {} rfl⟩

end JsxDialect
