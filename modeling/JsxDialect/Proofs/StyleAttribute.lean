import JsxDialect.Compile
import JsxDialect.Proofs.Lists

/-!
# The merged style attribute

An element whose styles are merged gets one `style` attribute. What is said here of its attributes
is read off one equation for what has been gathered (`gatherAll_eq`), in which the attributes are
cut in two at the first `style`: what stands before the cut stays in its order, and after it the
spreads go in front of the merged attribute and the others behind it.

So the merged attribute is the only source of styles that is left, and no spread can override it
(`lowerAttrs_takes_effect`). The price is paid by other properties: a spread that is moved in front
of an attribute does not override that one any more either. `lowerAttrs_keeps_others` says which
properties this changes.
-/

namespace JsxDialect

namespace Style

/-! ## Sources of styles -/

/-- Whether an attribute stays as it is: it is no source of styles and no spread. -/
def isOther (a : Attr) : Bool :=
  !isOwn a && !isSpread a

/-- Whether an attribute is not taken up by the merged one. -/
def isKept (a : Attr) : Bool :=
  !isOwn a

/-- Whether an attribute has styles to give. -/
def isSource (a : Attr) : Bool :=
  isOwn a || isSpread a

/-- A plain property and the entry that it becomes. -/
inductive Enters : Property → String × Expr → Prop
  | field {k : Key} {value : Expr} {shorthand : Bool} {name : String}
      (h : staticName? k = some name) :
    Enters (.field k value shorthand) (camelCase name, value)

theorem enters_of_plainProperty? {property : Property} {entry : String × Expr}
    (h : plainProperty? property = some entry) : Enters property entry := by
  cases property with
  | field k value shorthand =>
    obtain ⟨name, hname, rfl⟩ := Option.map_eq_some_iff.mp h
    exact .field hname
  | method _ _ _ => cases h
  | spread _ => cases h

theorem forall₂_enters {properties : List Property} {entries : List (String × Expr)}
    (h : properties.mapM plainProperty? = some entries) :
    List.Forall₂ Enters properties entries := by
  induction properties generalizing entries with
  | nil =>
    obtain rfl : [] = entries := by simpa using h
    exact .nil
  | cons property properties ih =>
    rw [List.mapM_cons] at h
    obtain ⟨entry, hentry, htail⟩ := Option.bind_eq_some_iff.mp h
    obtain ⟨rest, hrest, hcons⟩ := Option.bind_eq_some_iff.mp htail
    obtain rfl : entry :: rest = entries := Option.some.inj hcons
    exact .cons (enters_of_plainProperty? hentry) (ih hrest)

/-- **What an expression gives**: the declarations of a text, the properties of an object literal,
or itself. -/
theorem itemOfExpr_cases (e : Expr) :
    (∃ span source, itemOfExpr e = declared span source)
      ∨ (∃ span properties entries, e = .object span properties
        ∧ List.Forall₂ Enters properties entries ∧ itemOfExpr e = .properties entries)
      ∨ itemOfExpr e = .dynamic e := by
  unfold itemOfExpr
  split
  · split
    · exact .inl ⟨_, _, rfl⟩
    · exact .inr (.inr rfl)
  · split
    · split
      · exact .inl ⟨_, _, rfl⟩
      · exact .inr (.inr rfl)
    · exact .inr (.inr rfl)
  · split
    · -- Only members that can be read one by one make the literal a list of properties.
      rename_i span properties _ entries hentries
      simp only [plainProperties?] at hentries
      split at hentries
      · rename_i hmap
        split at hentries
        · obtain rfl := Option.some.inj hentries
          exact .inr (.inl ⟨span, properties, _, rfl, forall₂_enters hmap, rfl⟩)
        · cases hentries
      · cases hentries
    · exact .inr (.inr rfl)
  · exact .inr (.inr rfl)

/-- What an attribute gives to the merged one. -/
inductive Contributes : Attr → Item → Prop
  | style {span : Span} {name : AttrName} {value : AttrValue} (h : name.text = "style") :
    Contributes (.named span name value) (itemOfValue span value)
  | shorthand {span : Span} {name : AttrName} {value : AttrValue} {property : String}
      (h : name.text = "style-" ++ property) :
    Contributes (.named span name value) (.properties [(camelCase property, value.toExpr span)])
  | spread {span : Span} {e : Expr} :
    Contributes (.spread span e)
      (.dynamic (.logical span .or (.member span e "style" false) (.object span [])))

/-- The item that an attribute gives. -/
def item? : Attr → Option Item
  | .spread span e => some (itemOfSpread span e)
  | .named span name value =>
    if name.text == "style" then some (itemOfValue span value)
    else (suffix? "style-" name.text).map fun property =>
      .properties [(camelCase property, value.toExpr span)]

theorem suffix?_eq_some {start name rest : String} (h : suffix? start name = some rest) :
    name = start ++ rest := by
  rw [suffix?] at h
  split at h
  · rename_i hprefixes
    obtain ⟨tail, htail⟩ := List.isPrefixOf_iff_prefix.mp hprefixes
    obtain rfl := Option.some.inj h
    apply String.toList_injective
    rw [String.toList_append, String.toList_ofList, ← htail, ← String.length_toList,
      List.drop_left]
  · cases h

theorem isSome_suffix? {start name : String} :
    (suffix? start name).isSome = true ↔ start.toList <+: name.toList := by
  rw [suffix?, ← List.isPrefixOf_iff_prefix]
  split <;> simp_all

theorem isSome_item? (a : Attr) : (item? a).isSome = isSource a := by
  cases a with
  | spread span e => rfl
  | named span name value =>
    simp only [item?, isSource, isOwn, isSpread, Attr.name?, Bool.or_false]
    cases name.text == "style" <;> simp

theorem contributes_of_item? {a : Attr} {item : Item} (h : item? a = some item) :
    Contributes a item := by
  cases a with
  | spread span e =>
    obtain rfl := Option.some.inj h
    exact .spread
  | named span name value =>
    rw [item?] at h
    split at h
    · rename_i hname
      obtain rfl := Option.some.inj h
      exact .style (beq_iff_eq.mp hname)
    · obtain ⟨property, hproperty, rfl⟩ := Option.map_eq_some_iff.mp h
      exact .shorthand (suffix?_eq_some hproperty)

/-- Every source gives one item, in order. -/
theorem forall₂_contributes (attrs : List Attr) :
    List.Forall₂ Contributes (attrs.filter isSource) (attrs.filterMap item?) := by
  induction attrs with
  | nil => exact .nil
  | cons a attrs ih =>
    have hsome := isSome_item? a
    cases hitem : item? a with
    | none =>
      rw [hitem] at hsome
      rw [List.filter_cons_of_neg (by simp [← hsome]), List.filterMap_cons_none hitem]
      exact ih
    | some item =>
      rw [hitem] at hsome
      rw [List.filter_cons_of_pos hsome.symm, List.filterMap_cons_some hitem]
      exact .cons (contributes_of_item? hitem) ih

/-! ## What is gathered -/

/-- The attributes before the first `style`. -/
def beforeStyle (attrs : List Attr) : List Attr :=
  attrs.takeWhile (!·.isNamed "style")

/-- The attributes from the first `style` on. -/
def fromStyle (attrs : List Attr) : List Attr :=
  attrs.dropWhile (!·.isNamed "style")

variable {attrs : List Attr}

theorem beforeStyle_append_fromStyle (attrs : List Attr) :
    beforeStyle attrs ++ fromStyle attrs = attrs :=
  List.takeWhile_append_dropWhile

theorem isKept_eq (a : Attr) : isKept a = (isSpread a || isOther a) := by
  cases a with
  | spread span e => rfl
  | named span name value => simp [isKept, isOther, isSpread]

theorem isKept_of_isSpread {a : Attr} (h : isSpread a = true) : isKept a = true := by
  rw [isKept_eq, h, Bool.true_or]

theorem isKept_of_isOther {a : Attr} (h : isOther a = true) : isKept a = true := by
  rw [isKept_eq, h, Bool.or_true]

theorem not_isSpread_of_isOther {a : Attr} (h : isOther a = true) : isSpread a = false := by
  simp only [isOther, Bool.and_eq_true, Bool.not_eq_true'] at h
  exact h.2

theorem items_gather (g : Gathered) (a : Attr) :
    (gather g a).items = g.items ++ (item? a).toList := by
  cases a with
  | spread span e => rfl
  | named span name value =>
    simp only [gather, item?]
    cases name.text == "style" with
    | true => rfl
    | false =>
      cases suffix? "style-" name.text with
      | some property => rfl
      | none =>
        cases g.place.isSome with
        | true => exact (List.append_nil _).symm
        | false => exact (List.append_nil _).symm

/-- One more attribute, if the place of the merged one is known. -/
theorem gather_placed {g : Gathered} {span : Span} (hplace : g.place = some span) (a : Attr) :
    (gather g a).before = g.before ++ [a].filter isSpread
      ∧ (gather g a).after = g.after ++ [a].filter isOther
      ∧ (gather g a).place = some span := by
  cases a with
  | spread span' e => simp [gather, isSpread, isOther, hplace, List.filter_singleton]
  | named span' name value =>
    simp only [gather, isOther, isOwn, isSpread, Attr.name?, hplace, List.filter_singleton]
    cases name.text == "style" with
    | true => simp
    | false => cases suffix? "style-" name.text <;> simp

/-- One more attribute that is no `style`, if that place is not known yet. -/
theorem gather_unplaced {g : Gathered} (hplace : g.place = none) {a : Attr}
    (ha : a.isNamed "style" = false) :
    (gather g a).before = g.before ++ [a].filter isKept
      ∧ (gather g a).after = g.after ∧ (gather g a).place = none := by
  cases a with
  | spread span' e => simp [gather, isKept, isOwn, Attr.name?, hplace]
  | named span' name value =>
    have hname : (name.text == "style") = false := by simpa [Attr.isNamed, Attr.name?] using ha
    simp only [gather, isKept, isOwn, Attr.name?, hplace, hname, List.filter_singleton]
    cases suffix? "style-" name.text <;> simp

/-- The first `style` attribute. -/
theorem gather_style {g : Gathered} {a : Attr} (ha : a.isNamed "style" = true) :
    (gather g a).before = g.before ∧ (gather g a).after = g.after
      ∧ ∃ span, (gather g a).place = some span := by
  cases a with
  | spread span' e => cases ha
  | named span' name value =>
    have hname : (name.text == "style") = true := by simpa [Attr.isNamed, Attr.name?] using ha
    simp [gather, hname]

theorem items_foldl (g : Gathered) (attrs : List Attr) :
    (attrs.foldl gather g).items = g.items ++ attrs.filterMap item? := by
  induction attrs generalizing g with
  | nil => exact (List.append_nil _).symm
  | cons a attrs ih =>
    rw [List.foldl_cons, ih, items_gather, List.append_assoc, List.filterMap_cons]
    cases item? a <;> rfl

theorem foldl_placed {g : Gathered} {span : Span} (hplace : g.place = some span)
    (attrs : List Attr) :
    (attrs.foldl gather g).before = g.before ++ attrs.filter isSpread
      ∧ (attrs.foldl gather g).after = g.after ++ attrs.filter isOther := by
  induction attrs generalizing g with
  | nil => exact ⟨(List.append_nil _).symm, (List.append_nil _).symm⟩
  | cons a attrs ih =>
    obtain ⟨hbefore, hafter, hstill⟩ := gather_placed hplace a
    obtain ⟨ihbefore, ihafter⟩ := ih hstill
    rw [List.foldl_cons, ihbefore, ihafter, hbefore, hafter, List.append_assoc, List.append_assoc,
      ← List.filter_append, ← List.filter_append, List.singleton_append]
    exact ⟨rfl, rfl⟩

theorem foldl_unplaced {g : Gathered} (hplace : g.place = none) (attrs : List Attr) :
    (attrs.foldl gather g).before
        = g.before ++ (beforeStyle attrs).filter isKept ++ (fromStyle attrs).filter isSpread
      ∧ (attrs.foldl gather g).after = g.after ++ (fromStyle attrs).filter isOther := by
  induction attrs generalizing g with
  | nil => simp [beforeStyle, fromStyle]
  | cons a attrs ih =>
    rw [List.foldl_cons, beforeStyle, fromStyle]
    cases ha : a.isNamed "style" with
    | false =>
      obtain ⟨hbefore, hafter, hstill⟩ := gather_unplaced hplace ha
      obtain ⟨ihbefore, ihafter⟩ := ih hstill
      rw [List.takeWhile_cons_of_pos (by rw [ha]; rfl),
        List.dropWhile_cons_of_pos (by rw [ha]; rfl), ihbefore, ihafter, hbefore, hafter,
        List.append_assoc g.before, ← List.filter_append, List.singleton_append]
      exact ⟨rfl, rfl⟩
    | true =>
      -- The first `style` goes into the merged attribute: it is neither a spread nor another one.
      obtain ⟨hbefore, hafter, span, hplaced⟩ := gather_style (g := g) ha
      obtain ⟨hrest, hrest'⟩ := foldl_placed hplaced attrs
      have howns : isOther a = false ∧ isSpread a = false := by
        cases a with
        | spread _ _ => cases ha
        | named _ name _ => simp_all [isOther, isOwn, isSpread, Attr.isNamed, Attr.name?]
      rw [List.takeWhile_cons_of_neg (by rw [ha]; decide),
        List.dropWhile_cons_of_neg (by rw [ha]; decide), hrest, hrest', hbefore, hafter,
        List.filter_cons_of_neg (by rw [howns.2]; decide),
        List.filter_cons_of_neg (by rw [howns.1]; decide), List.filter_nil, List.append_nil]
      exact ⟨rfl, rfl⟩

/-- **What is gathered**, with the attributes cut in two at the first `style`. -/
theorem gatherAll_eq (attrs : List Attr) :
    (gatherAll attrs).before
        = (beforeStyle attrs).filter isKept ++ (fromStyle attrs).filter isSpread
      ∧ (gatherAll attrs).after = (fromStyle attrs).filter isOther
      ∧ (gatherAll attrs).items = attrs.filterMap item? := by
  obtain ⟨hbefore, hafter⟩ := foldl_unplaced (g := ⟨[], [], none, []⟩) rfl attrs
  exact ⟨hbefore, hafter, items_foldl _ attrs⟩

/-- What is left beside the merged attribute was there before. -/
theorem mem_of_mem_gatherAll {a : Attr}
    (h : a ∈ (gatherAll attrs).before ++ (gatherAll attrs).after) : a ∈ attrs := by
  obtain ⟨hbefore, hafter, -⟩ := gatherAll_eq attrs
  rw [hbefore, hafter] at h
  simp only [List.mem_append, List.mem_filter] at h
  rw [← beforeStyle_append_fromStyle attrs, List.mem_append]
  rcases h with (⟨ha, -⟩ | ⟨ha, -⟩) | ⟨ha, -⟩
  · exact .inl ha
  · exact .inr ha
  · exact .inr ha

theorem exists_contributes {item : Item} (h : item ∈ (gatherAll attrs).items) :
    ∃ a ∈ attrs, Contributes a item := by
  rw [(gatherAll_eq attrs).2.2] at h
  obtain ⟨a, ha, hitem⟩ := List.mem_filterMap.mp h
  exact ⟨a, ha, contributes_of_item? hitem⟩

theorem lowerAttrs_eq (h : fires attrs = true) (elementSpan : Span) (c : LoweringSetting)
    (s : Lowering) :
    ∃ span, lowerAttrs elementSpan attrs c s
      = ((beforeStyle attrs).filter isKept ++ (fromStyle attrs).filter isSpread
          ++ Build.attr span "style" (mergedValue span (attrs.filterMap item?) c s).1
            :: (fromStyle attrs).filter isOther,
        (mergedValue span (attrs.filterMap item?) c s).2) := by
  obtain ⟨hbefore, hafter, hitems⟩ := gatherAll_eq attrs
  refine ⟨(gatherAll attrs).place.getD elementSpan, ?_⟩
  rw [← hbefore, ← hafter, ← hitems, lowerAttrs, if_pos h]
  rfl

/-! ## The merged attribute -/

theorem not_isOwn_iff {a : Attr} :
    isOwn a = false
      ↔ ∀ name, a.name? = some name → name ≠ "style" ∧ ¬ "style-".toList <+: name.toList := by
  rw [isOwn]
  cases a.name? with
  | none => simp
  | some name =>
    simp only [Option.some.injEq, forall_eq', Bool.or_eq_false_iff, beq_eq_false_iff_ne,
      ← isSome_suffix?, Bool.not_eq_true]

/-- **The merged attribute takes effect.** It is the only `style` attribute that is left, no
attribute is named `style-*` any more, and no spread stands after it. Its value is merged from one
item for each source of styles, in the order of the sources. -/
theorem lowerAttrs_takes_effect {attrs : List Attr} (h : fires attrs = true) (elementSpan : Span)
    (c : LoweringSetting) (s : Lowering) :
    ∃ before after span items value t,
      lowerAttrs elementSpan attrs c s = (before ++ Build.attr span "style" value :: after, t)
        ∧ (∀ a ∈ before ++ after, ∀ name, a.name? = some name →
          name ≠ "style" ∧ ¬ "style-".toList <+: name.toList)
        ∧ (∀ a ∈ after, isSpread a = false)
        ∧ List.Forall₂ Contributes (attrs.filter isSource) items
        ∧ mergedValue span items c s = (value, t) := by
  obtain ⟨span, heq⟩ := lowerAttrs_eq h elementSpan c s
  refine ⟨_, _, span, _, _, _, heq, fun a ha => not_isOwn_iff.mp ?_, fun a ha => ?_,
    forall₂_contributes attrs, rfl⟩
  · have hkept : isKept a = true := by
      simp only [List.mem_append, List.mem_filter] at ha
      rcases ha with (⟨-, ha⟩ | ⟨-, ha⟩) | ⟨-, ha⟩
      · exact ha
      · exact isKept_of_isSpread ha
      · exact isKept_of_isOther ha
    simpa [isKept] using hkept
  · exact not_isSpread_of_isOther (List.mem_filter.mp ha).2

/-- A text, an attribute of its own, two spreads and a shorthand. -/
def scattered : List Attr :=
  [.spread .none (.ident .none "p"), .named .none (.plain "style-color") (.string "red"),
    .named .none (.plain "style") (.string "margin: 0"), .named .none (.plain "id") (.string "x"),
    .spread .none (.ident .none "q")]

theorem lowerAttrs_takes_effect_scattered :
    fires scattered = true
      ∧ ∃ before after span items value t,
        lowerAttrs .none scattered ⟨{}, []⟩ (.initial ⟨[], []⟩)
            = (before ++ Build.attr span "style" value :: after, t)
          ∧ (∀ a ∈ before ++ after, ∀ name, a.name? = some name →
            name ≠ "style" ∧ ¬ "style-".toList <+: name.toList)
          ∧ (∀ a ∈ after, isSpread a = false)
          ∧ List.Forall₂ Contributes (scattered.filter isSource) items
          ∧ mergedValue span items ⟨{}, []⟩ (.initial ⟨[], []⟩) = (value, t) := by
  have hfires : fires scattered = true := by decide
  exact ⟨hfires, lowerAttrs_takes_effect hfires _ _ _⟩

/-! ## Other attributes -/

/-- Whether an attribute gives a value to a property, if `has` tells what the spreads have. -/
def gives (has : Span → Expr → String → Bool) (property : String) : Attr → Bool
  | .named _ name _ => name.text == property
  | .spread span e => has span e property

/-- The attribute or spread that decides about a property: the last one that has it. -/
def decider (has : Span → Expr → String → Bool) (property : String) (attrs : List Attr) :
    Option Attr :=
  (attrs.filter (gives has property)).getLast?

section Decider

variable {has : Span → Expr → String → Bool} {property : String}

/-- A property that is no style is given by attributes that are kept. -/
theorem isKept_of_gives (hproperty : property ≠ "style" ∧ ¬ "style-".toList <+: property.toList)
    {a : Attr} (ha : gives has property a = true) : isKept a = true := by
  rw [isKept, Bool.not_eq_true', not_isOwn_iff]
  intro name hname
  cases a with
  | spread span e => cases hname
  | named span n value =>
    obtain rfl := Option.some.inj hname
    obtain rfl := beq_iff_eq.mp ha
    exact hproperty

/-- What gives a property is a spread, or another attribute of that name. -/
theorem isOther_of_gives (hproperty : property ≠ "style" ∧ ¬ "style-".toList <+: property.toList)
    {a : Attr} (ha : gives has property a = true) (hspread : isSpread a = false) :
    isOther a = true := by
  have hkept := isKept_of_gives hproperty ha
  rw [isKept_eq, hspread] at hkept
  exact hkept

/-- **Who decides after a move.** Spreads have been moved in front of the other attributes. Whoever
decided about a property still does, exactly if no spread did while one of these attributes has the
property too. -/
theorem decider_moved_iff (front back : List Attr)
    (hproperty : property ≠ "style" ∧ ¬ "style-".toList <+: property.toList) :
    decider has property (front ++ back.filter isSpread ++ back.filter isOther)
        = decider has property (front ++ back)
      ↔ ((∃ a ∈ back, a.isNamed property = true) →
        ∀ span e, decider has property (front ++ back) ≠ some (.spread span e)) := by
  -- The attributes that give the property, in the two orders.
  have hmoved : decider has property (front ++ back.filter isSpread ++ back.filter isOther)
      = (((back.filter isOther).filter (gives has property)).getLast?).or
        ((front ++ back.filter isSpread).filter (gives has property)).getLast? := by
    rw [decider, List.filter_append, List.getLast?_append]
  have hplain : decider has property (front ++ back)
      = ((back.filter (gives has property)).getLast?).or
        (front.filter (gives has property)).getLast? := by
    rw [decider, List.filter_append, List.getLast?_append]
  cases hlast : ((back.filter isOther).filter (gives has property)).getLast? with
  | none =>
    -- No other attribute gives the property, so nothing was moved past one that does.
    have hnone : ∀ a ∈ back, gives has property a = true → isSpread a = true := by
      intro a ha hgives
      by_contra hspread
      have hother := isOther_of_gives hproperty hgives (Bool.eq_false_iff.mpr hspread)
      have hmem := List.mem_filter.mpr ⟨List.mem_filter.mpr ⟨ha, hother⟩, hgives⟩
      rw [List.getLast?_eq_none_iff.mp hlast] at hmem
      exact absurd hmem List.not_mem_nil
    have hspreads : (back.filter isSpread).filter (gives has property)
        = back.filter (gives has property) := by
      rw [List.filter_filter]
      refine List.filter_congr fun a ha => ?_
      cases hgives : gives has property a with
      | false => rfl
      | true => rw [hnone a ha hgives]; rfl
    refine iff_of_true ?_ fun ⟨a, ha, hnamed⟩ => absurd (hnone a ha ?_) ?_
    · rw [hmoved, hlast, Option.none_or, List.filter_append, hspreads, ← List.filter_append]
      rfl
    · cases a with
      | spread _ _ => cases hnamed
      | named _ _ _ => simpa [gives, Attr.isNamed, Attr.name?] using hnamed
    · cases a with
      | spread _ _ => cases hnamed
      | named _ _ _ => exact Bool.false_ne_true
  | some b =>
    obtain ⟨hb, hgives⟩ := List.mem_filter.mp (List.mem_of_getLast? hlast)
    obtain ⟨hback, hother⟩ := List.mem_filter.mp hb
    have hspread : ∀ span e, b ≠ .spread span e := by
      rintro span e rfl
      simp [isOther, isSpread] at hother
    have hnamed : b.isNamed property = true := by
      cases b with
      | spread span e => exact absurd rfl (hspread span e)
      | named _ _ _ => simpa [gives, Attr.isNamed, Attr.name?] using hgives
    have hsome : decider has property (front ++ back)
        = (back.filter (gives has property)).getLast? := by
      have hne : back.filter (gives has property) ≠ [] :=
        List.ne_nil_of_mem (List.mem_filter.mpr ⟨hback, hgives⟩)
      rw [hplain, List.getLast?_eq_some_getLast hne, Option.some_or]
    rw [hmoved, hlast, Option.some_or]
    constructor
    · rintro heq - span e hdecides
      rw [← heq] at hdecides
      exact hspread span e (Option.some.inj hdecides)
    · intro hdecides
      obtain ⟨x, hx⟩ : ∃ x, (back.filter (gives has property)).getLast? = some x :=
        ⟨_, List.getLast?_eq_some_getLast
          (List.ne_nil_of_mem (List.mem_filter.mpr ⟨hback, hgives⟩))⟩
      have hxgives := (List.mem_filter.mp (List.mem_of_getLast? hx)).2
      have hxother : isOther x = true := by
        refine isOther_of_gives hproperty hxgives ?_
        cases x with
        | named _ _ _ => rfl
        | spread span e => exact absurd (hsome.trans hx) (hdecides ⟨b, hback, hnamed⟩ span e)
      -- The last of all is no spread, so it is the last of the others.
      have hlast' := getLast?_filter_of_imp (q := fun a => gives has property a && isOther a) hx
        (fun a ha => (Bool.and_eq_true_iff.mp ha).1) (by rw [hxgives, hxother]; rfl)
      rw [← List.filter_filter, hlast] at hlast'
      rw [hsome, hx, hlast']

/-- Attributes that are taken up by the merged one decide about nothing else. -/
theorem decider_filter_isKept
    (hproperty : property ≠ "style" ∧ ¬ "style-".toList <+: property.toList) (attrs : List Attr) :
    decider has property (attrs.filter isKept) = decider has property attrs := by
  rw [decider, filter_filter_of_imp fun _ => isKept_of_gives hproperty]
  rfl

end Decider

/-- **The merged attribute and the others.** Attributes that are no styles stay as they are and in
their order, and so do spreads; but spreads after the first `style` are moved in front of the other
attributes after it. So about every property that is no style the same attribute or spread decides
as before, exactly if no spread did while an attribute after the first `style` has it too. -/
theorem lowerAttrs_keeps_others {attrs : List Attr} (h : fires attrs = true) (elementSpan : Span)
    (c : LoweringSetting) (s : Lowering) :
    (lowerAttrs elementSpan attrs c s).1.filter isOther = attrs.filter isOther
      ∧ (lowerAttrs elementSpan attrs c s).1.filter isSpread = attrs.filter isSpread
      ∧ (lowerAttrs elementSpan attrs c s).1.filter isKept
        = (beforeStyle attrs).filter isKept ++ (fromStyle attrs).filter isSpread
          ++ (fromStyle attrs).filter isOther
      ∧ ∀ (has : Span → Expr → String → Bool) (property : String),
        property ≠ "style" ∧ ¬ "style-".toList <+: property.toList →
        (decider has property (lowerAttrs elementSpan attrs c s).1 = decider has property attrs
          ↔ ((∃ a ∈ fromStyle attrs, a.isNamed property = true) →
            ∀ span e, decider has property attrs ≠ some (.spread span e))) := by
  obtain ⟨span, heq⟩ := lowerAttrs_eq h elementSpan c s
  have hkept : (lowerAttrs elementSpan attrs c s).1.filter isKept
      = (beforeStyle attrs).filter isKept ++ (fromStyle attrs).filter isSpread
        ++ (fromStyle attrs).filter isOther := by
    have hmerged : isKept (Build.attr span "style"
        (mergedValue span (attrs.filterMap item?) c s).1) = false := rfl
    have hspreads : ((fromStyle attrs).filter isSpread).filter isKept
        = (fromStyle attrs).filter isSpread :=
      List.filter_eq_self.mpr fun a ha => isKept_of_isSpread (List.mem_filter.mp ha).2
    have hothers : ((fromStyle attrs).filter isOther).filter isKept
        = (fromStyle attrs).filter isOther :=
      List.filter_eq_self.mpr fun a ha => isKept_of_isOther (List.mem_filter.mp ha).2
    rw [heq, List.filter_append, List.filter_append, hspreads,
      List.filter_cons_of_neg (by rw [hmerged]; exact Bool.false_ne_true), hothers,
      filter_filter_of_imp fun _ ha => ha]
  -- Others and spreads are among what is kept, so their lists are read off `hkept`.
  refine ⟨?_, ?_, hkept, fun has property hproperty => ?_⟩
  · have hnone : ((fromStyle attrs).filter isSpread).filter isOther = [] := by
      refine List.filter_eq_nil_iff.mpr fun a ha hother => ?_
      exact absurd (List.mem_filter.mp ha).2 (by simp [not_isSpread_of_isOther hother])
    rw [← filter_filter_of_imp fun _ => isKept_of_isOther, hkept, List.filter_append,
      List.filter_append, filter_filter_of_imp fun _ => isKept_of_isOther, hnone,
      filter_filter_of_imp fun _ ha => ha, List.append_nil, ← List.filter_append,
      beforeStyle_append_fromStyle]
  · have hnone : ((fromStyle attrs).filter isOther).filter isSpread = [] := by
      refine List.filter_eq_nil_iff.mpr fun a ha hspread => ?_
      exact absurd hspread (by simp [not_isSpread_of_isOther (List.mem_filter.mp ha).2])
    rw [← filter_filter_of_imp fun _ => isKept_of_isSpread, hkept, List.filter_append,
      List.filter_append, filter_filter_of_imp fun _ => isKept_of_isSpread, hnone,
      filter_filter_of_imp fun _ ha => ha, List.append_nil, ← List.filter_append,
      beforeStyle_append_fromStyle]
  · -- Nothing before the first `style` is moved, so its part decides as before.
    have hattrs : decider has property ((beforeStyle attrs).filter isKept ++ fromStyle attrs)
        = decider has property attrs := by
      rw [decider, List.filter_append, filter_filter_of_imp fun _ => isKept_of_gives hproperty,
        ← List.filter_append, beforeStyle_append_fromStyle]
      rfl
    rw [← decider_filter_isKept hproperty (lowerAttrs elementSpan attrs c s).1, hkept, ← hattrs]
    exact decider_moved_iff _ _ hproperty

/-- A spread after the first `style`, with an attribute before it and one in between. -/
def trailingSpread : List Attr :=
  [.named .none (.plain "title") (.string "t"), .named .none (.plain "style") (.string "margin: 0"),
    .named .none (.plain "id") (.string "x"), .spread .none (.ident .none "rest")]

/-- The spread decides about the title as before. -/
theorem lowerAttrs_keeps_others_title :
    fires trailingSpread = true
      ∧ decider (fun _ _ _ => true) "title"
          (lowerAttrs .none trailingSpread ⟨{}, []⟩ (.initial ⟨[], []⟩)).1
        = decider (fun _ _ _ => true) "title" trailingSpread := by
  have hfires : fires trailingSpread = true := by decide
  obtain ⟨-, -, -, hdecider⟩ :=
    lowerAttrs_keeps_others hfires .none ⟨{}, []⟩ (.initial ⟨[], []⟩)
  refine ⟨hfires, (hdecider _ "title" (by decide)).mpr fun hnamed => absurd hnamed ?_⟩
  decide

/-- **A spread loses against an attribute that it stood after.** Before, it decided about the `id`.
-/
theorem lowerAttrs_moves_spread :
    fires trailingSpread = true
      ∧ decider (fun _ _ _ => true) "id" trailingSpread = some (.spread .none (.ident .none "rest"))
      ∧ decider (fun _ _ _ => true) "id"
          (lowerAttrs .none trailingSpread ⟨{}, []⟩ (.initial ⟨[], []⟩)).1
        = some (.named .none (.plain "id") (.string "x")) :=
  ⟨by decide, rfl, rfl⟩

end Style

end JsxDialect
