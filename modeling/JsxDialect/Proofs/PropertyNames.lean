import JsxDialect.Proofs.Declarations

/-!
# Names of properties

The properties of folded styles are named in camel case while a module is compiled. Where other
styles are to be merged with them at run time, they are handed to the helper as objects, and the
helper names the properties of every object in camel case once more. This changes nothing: a name
without hyphens stays as it is on either side, and no key of a folded style has one, wherever it
comes from (`isHyphenFree_mergeItems`).
-/

namespace JsxDialect

namespace Style

open Units16 (camel ofText)

/-! ## Names without hyphens -/

theorem toList_camelCase (name : String) :
    (camelCase name).toList = camelWith Text.toUpper false name.toList := by
  rw [camelCase, String.toList_ofList, (camelWith_toUpper _).1]

theorem hyphen_notMem_camelCase (name : String) : '-' ∉ (camelCase name).toList := by
  rw [toList_camelCase]
  exact hyphen_notMem_camelWith false _

/-- A name without hyphens is not changed before the module runs, nor at run time. -/
theorem camelCase_of_notMem {name : String} (h : '-' ∉ name.toList) :
    camelCase name = name ∧ camel (ofText name.toList) = ofText name.toList := by
  constructor
  · apply String.toList_injective
    rw [toList_camelCase, camelWith_of_notMem h]
  · rw [(Units16.camel_ofText _).1, camelWith_of_notMem h]

/-! ## Keys of folded styles -/

/-- Whether the keys of a source of styles, if they are known, have no hyphens. -/
def Item.IsHyphenFree : Item → Prop
  | .properties entries => ∀ p ∈ entries, '-' ∉ p.1.toList
  | .dynamic _ => True

theorem isHyphenFree_declared (span : Span) (source : String) :
    (declared span source).IsHyphenFree := by
  intro p hp
  obtain ⟨q, hq, rfl⟩ := List.mem_map.mp hp
  exact hyphen_notMem_parse hq

theorem hyphen_notMem_of_enters {properties : List Property} {entries : List (String × Expr)}
    (h : List.Forall₂ Enters properties entries) : ∀ p ∈ entries, '-' ∉ p.1.toList := by
  induction h with
  | nil => exact fun p hp => absurd hp List.not_mem_nil
  | cons hentry _ ih =>
    cases hentry with
    | field _ => exact List.forall_mem_cons.mpr ⟨hyphen_notMem_camelCase _, ih⟩

theorem isHyphenFree_itemOfExpr (e : Expr) : (itemOfExpr e).IsHyphenFree := by
  rcases itemOfExpr_cases e with
    ⟨span, source, heq⟩ | ⟨span, properties, entries, rfl, hentries, heq⟩ | heq
  · rw [heq]
    exact isHyphenFree_declared span source
  · rw [heq]
    exact hyphen_notMem_of_enters hentries
  · -- Nothing is said of an expression: its keys are named by the helper alone.
    rw [heq]
    exact trivial

theorem isHyphenFree_itemOfValue (span : Span) (value : AttrValue) :
    (itemOfValue span value).IsHyphenFree := by
  unfold itemOfValue
  split
  · exact isHyphenFree_itemOfExpr _
  · exact fun p hp => absurd hp List.not_mem_nil
  · exact isHyphenFree_itemOfExpr _

/-- What an attribute gives to the merged one. -/
theorem Contributes.isHyphenFree {a : Attr} {item : Item} (h : Contributes a item) :
    item.IsHyphenFree := by
  cases h with
  | style _ => exact isHyphenFree_itemOfValue _ _
  | shorthand _ => exact List.forall_mem_singleton.mpr (hyphen_notMem_camelCase _)
  | spread => exact trivial

/-- **No key of a folded style has a hyphen.** -/
theorem isHyphenFree_mergeItems (attrs : List Attr) :
    ∀ item ∈ mergeItems (gatherAll attrs).items, item.IsHyphenFree := by
  -- Folding makes no keys of its own, so it is enough to look at what each attribute gives.
  refine forall_mem_mergeItems (fun _ _ => Table.forall_mem_putAll) fun item hitem => ?_
  obtain ⟨a, -, hcontributes⟩ := exists_contributes hitem
  exact hcontributes.isHyphenFree

/-- **Camel case puts pieces together, once.** A name in camel case has the pieces of the name
between its hyphens, all but the first with their first character in upper case. It has no hyphen,
so naming it in camel case again gives the same, before the module runs and at run time. Hence the
helper takes every key of a folded style as it is. -/
theorem camelCase_joins_pieces :
    (∀ name : String,
      camelCase name = String.ofList (joinPieces (name.toList.splitOn '-'))
        ∧ '-' ∉ (camelCase name).toList
        ∧ camelCase (camelCase name) = camelCase name
        ∧ camel (ofText (camelCase name).toList) = ofText (camelCase name).toList)
    ∧ ∀ (attrs : List Attr) (entries : List (String × Expr)),
      .properties entries ∈ mergeItems (gatherAll attrs).items →
      ∀ p ∈ entries, camelCase p.1 = p.1 ∧ camel (ofText p.1.toList) = ofText p.1.toList := by
  constructor
  · intro name
    have hhyphen := hyphen_notMem_camelCase name
    refine ⟨?_, hhyphen, camelCase_of_notMem hhyphen⟩
    rw [camelCase, (camelChars_eq_joinPieces _).1]
  · intro attrs entries hentries p hp
    exact camelCase_of_notMem (isHyphenFree_mergeItems attrs _ hentries p hp)

/-- A spread, a shorthand, and an object literal that is folded with it. -/
def hyphenated : List Attr :=
  [.spread .none (.ident .none "p"), .named .none (.plain "style-font-size") (.string "1px"),
    .named .none (.plain "style") (.container .none (some (.object .none
      [.field (.string "border--top") (.ident .none "b") false])))]

/-- Hyphens in front, in a row, before a digit and at the end, and a character that is raised to
two; and two keys that the helper gets together with the style of a spread. -/
theorem camelCase_joins_pieces_hyphenated :
    camelCase "--webkit--ßx-1-" = "WebkitSSx1" ∧ camelCase "WebkitSSx1" = "WebkitSSx1"
      ∧ .properties [("fontSize", .string .none "1px"), ("borderTop", .ident .none "b")]
        ∈ mergeItems (gatherAll hyphenated).items
      ∧ camel (ofText "borderTop".toList) = ofText "borderTop".toList := by
  obtain ⟨hnames, hkeys⟩ := camelCase_joins_pieces
  obtain ⟨hpieces, -, hagain, -⟩ := hnames "--webkit--ßx-1-"
  have hjoined : String.ofList (joinPieces ("--webkit--ßx-1-".toList.splitOn '-'))
      = "WebkitSSx1" := by decide +kernel
  have hmem : .properties [("fontSize", .string .none "1px"), ("borderTop", .ident .none "b")]
      ∈ mergeItems (gatherAll hyphenated).items :=
    List.mem_cons_of_mem _ List.mem_cons_self
  rw [hpieces, hjoined] at hagain
  refine ⟨hpieces.trans hjoined, hagain, hmem, ?_⟩
  exact (hkeys _ _ hmem _ (List.mem_cons_of_mem _ List.mem_cons_self)).2

end Style

end JsxDialect
