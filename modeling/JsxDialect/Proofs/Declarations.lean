import JsxDialect.Proofs.RuntimeStyles
import JsxDialect.Proofs.StyleAttribute

/-!
# Declarations of several texts

Reading a style text is a homomorphism: the declarations of two texts with a semicolon between them
are those of the first, with those of the second put in (`parse_append`). A text is split where it
was put together, since no semicolon is looked past that belongs to the other text
(`splitDeclarations_append`), and putting in the entries of a table is putting in what the table was
made of (`putAll_putAll`).

So it makes no difference whether declarations stand in one `style` attribute or in several: all of
them are constants, hence they are folded into one object, and that has the same properties in the
same order (`parse_semicolon`).
-/

namespace JsxDialect

namespace Table

variable {α : Type} {key : String} {value : α} {run next : List (String × α)}

theorem putAll_append (run next last : List (String × α)) :
    putAll run (next ++ last) = putAll (putAll run next) last :=
  List.foldl_append

/-- Two entries put in one after the other, of which the second has a key that was there. -/
theorem put_put_comm {key' : String} {value' : α} (hne : key' ≠ key)
    (hmem : key ∈ run.map (·.1)) :
    put key value (put key' value' run) = put key' value' (put key value run) := by
  induction run with
  | nil => simp at hmem
  | cons p run ih =>
    obtain ⟨k, v⟩ := p
    by_cases hk : k = key
    · subst hk
      simp [put, Ne.symm hne]
    · have hrest : key ∈ run.map (·.1) := by simpa [Ne.symm hk] using hmem
      by_cases hk' : k = key'
      · subst hk'
        simp [put, hk]
      · simp [put, hk, hk', ih hrest]

theorem put_put_self (old : α) : put key value (put key old run) = put key value run := by
  induction run with
  | nil => simp [put]
  | cons p run ih =>
    obtain ⟨k, v⟩ := p
    by_cases hk : k = key
    · simp [put, hk]
    · simp [put, hk, ih]

/-- An entry whose key is there, before or after further ones with other keys. -/
theorem put_putAll_comm (hmem : key ∈ run.map (·.1)) (hnext : key ∉ next.map (·.1)) :
    put key value (putAll run next) = putAll (put key value run) next := by
  induction next generalizing run with
  | nil => rfl
  | cons p next ih =>
    obtain ⟨key', value'⟩ := p
    simp only [List.map_cons, List.mem_cons, not_or] at hnext
    have hne : key' ≠ key := Ne.symm hnext.1
    have hstill : key ∈ (put key' value' run).map (·.1) := by
      obtain ⟨q, hq, hkey⟩ := List.mem_map.mp hmem
      exact List.mem_map.mpr ⟨q, mem_put_of_ne hq (hkey ▸ hnext.1), hkey⟩
    calc put key value (putAll (put key' value' run) next)
        = putAll (put key value (put key' value' run)) next := ih hstill hnext.2
      _ = putAll (put key' value' (put key value run)) next := by rw [put_put_comm hne hmem]

/-- Putting in a table with one more entry. -/
theorem putAll_put (hnext : (next.map (·.1)).Nodup) :
    putAll run (put key value next) = put key value (putAll run next) := by
  by_cases hmem : key ∈ next.map (·.1)
  · -- The entry replaces one in the middle, and no later one has its key.
    obtain ⟨⟨k, old⟩, hp, rfl⟩ := List.mem_map.mp hmem
    obtain ⟨before, after, rfl⟩ := List.append_of_mem hp
    rw [List.map_append, List.map_cons, List.nodup_append, List.nodup_cons] at hnext
    obtain ⟨-, ⟨hafter, -⟩, hbefore⟩ := hnext
    have hkey : k ∉ before.map (·.1) := fun hk => hbefore k hk k List.mem_cons_self rfl
    have hput : put k value (before ++ (k, old) :: after) = before ++ (k, value) :: after := by
      clear hp hmem hbefore
      induction before with
      | nil => simp [put]
      | cons q before ih =>
        simp only [List.map_cons, List.mem_cons, not_or] at hkey
        simp [put, Ne.symm hkey.1, ih hkey.2]
    have hmem' : k ∈ (put k old (putAll run before)).map (·.1) :=
      List.mem_map.mpr ⟨_, mem_put_self, rfl⟩
    rw [hput, putAll_append, putAll_append]
    change putAll (put k value (putAll run before)) after
      = put k value (putAll (put k old (putAll run before)) after)
    rw [put_putAll_comm hmem' hafter, put_put_self]
  · rw [put_of_notMem hmem, putAll_append]
    rfl

/-- **Putting in a table** is putting in what the table was made of. -/
theorem putAll_putAll (hnext : (next.map (·.1)).Nodup) (last : List (String × α)) :
    putAll run (putAll next last) = putAll (putAll run next) last := by
  induction last generalizing next with
  | nil => rfl
  | cons p last ih =>
    calc putAll run (putAll (put p.1 p.2 next) last)
        = putAll (putAll run (put p.1 p.2 next)) last := ih (nodup_put hnext)
      _ = putAll (put p.1 p.2 (putAll run next)) last := by rw [putAll_put hnext]

end Table

namespace Style

/-! ## Texts put together -/

theorem prefix_append_cons_iff {α : Type} {l xs ys : List α} {x : α} (h : x ∉ l) :
    l <+: xs ++ x :: ys ↔ l <+: xs := by
  induction xs generalizing l with
  | nil =>
    cases l with
    | nil => simp
    | cons a l =>
      simp only [List.mem_cons, not_or] at h
      simp [Ne.symm h.1]
  | cons y xs ih =>
    cases l with
    | nil => simp
    | cons a l =>
      simp only [List.mem_cons, not_or] at h
      rw [List.cons_append, List.cons_prefix_cons, List.cons_prefix_cons, ih h.2]

theorem splitDeclarations_ne_nil (cs : List Char) : splitDeclarations cs ≠ [] := by
  cases cs with
  | nil => simp [splitDeclarations]
  | cons c cs =>
    simp only [splitDeclarations]
    split
    · simp
    · split <;> simp

/-- **A text is split where it was put together.** -/
theorem splitDeclarations_append (as bs : List Char) (h : ¬ "base64".toList <+: bs) :
    splitDeclarations (as ++ ';' :: bs) = splitDeclarations as ++ splitDeclarations bs := by
  have hjoined : ∀ cs, "base64".toList.isPrefixOf (cs ++ ';' :: bs)
      = "base64".toList.isPrefixOf cs := fun cs => by
    rw [Bool.eq_iff_iff, List.isPrefixOf_iff_prefix, List.isPrefixOf_iff_prefix,
      prefix_append_cons_iff (by decide)]
  induction as with
  | nil =>
    have hsplits : "base64".toList.isPrefixOf bs = false := by
      rwa [Bool.eq_false_iff, ne_eq, List.isPrefixOf_iff_prefix]
    simp only [List.nil_append, splitDeclarations, hsplits]
    rfl
  | cons c cs ih =>
    obtain ⟨piece, others, hpieces⟩ := List.exists_cons_of_ne_nil (splitDeclarations_ne_nil cs)
    simp only [List.cons_append, splitDeclarations, hjoined, ih, hpieces]
    split <;> rfl

/-- **Reading two texts** with a semicolon between them. -/
theorem parse_append (a b : String) (h : ¬ "base64".toList <+: b.toList) :
    parse (a ++ ";" ++ b) = Table.putAll (parse a) (parse b) := by
  have htext : (a ++ ";" ++ b).toList = a.toList ++ ';' :: b.toList := by
    simp
  rw [parse, htext, splitDeclarations_append _ _ h, List.filterMap_append, Table.putAll_append]
  have hempty : (([] : List (String × String)).map (·.1)).Nodup := List.nodup_nil
  exact (Table.putAll_putAll hempty _).symm

theorem nodup_parse (source : String) : ((parse source).map (·.1)).Nodup :=
  Table.nodup_putAll List.nodup_nil

theorem hyphen_notMem_parse {source : String} {p : String × String} (hp : p ∈ parse source) :
    '-' ∉ p.1.toList := by
  have hmem := Table.mem_of_mem_putAll hp
  obtain ⟨d, -, hd⟩ := List.mem_filterMap.mp hmem
  rw [Runtime.declaration?_eq] at hd
  obtain ⟨q, -, rfl⟩ := Option.map_eq_some_iff.mp hd
  rw [String.toList_ofList]
  exact hyphen_notMem_camelWith false _

/-! ## Texts in attributes -/

/-- The text that an expression is: a string, or a template without expressions in it. -/
def text? : Expr → Option (Span × String)
  | .string span s => some (span, s)
  | .template span [raw] [] => (Token.cooked? raw).map (span, ·)
  | _ => none

/-- The text in a `style` attribute, if it has one. -/
def styleText? : Attr → Option (Span × String)
  | .named span name (.string s) => if name.text == "style" then some (span, s) else none
  | .named _ name (.container _ (some e)) => if name.text == "style" then text? e.inner else none
  | _ => none

/-- A `style` attribute with a text in it. -/
def HasText (a : Attr) (text : String) : Prop :=
  ∃ span, styleText? a = some (span, text)

theorem itemOfExpr_text {e : Expr} {span : Span} {text : String} (h : text? e = some (span, text))
    (hcss : looksLikeCss text = true) : itemOfExpr e = declared span text := by
  unfold text? at h
  split at h
  · obtain ⟨rfl, rfl⟩ := Prod.mk.inj (Option.some.inj h)
    simp only [itemOfExpr, hcss, if_true]
  · obtain ⟨s, hs, heq⟩ := Option.map_eq_some_iff.mp h
    obtain ⟨rfl, rfl⟩ := Prod.mk.inj heq
    simp only [itemOfExpr, hs, hcss, if_true]
  · cases h

/-- A text with declarations in an attribute is read, and not passed on. -/
theorem item?_styleText {a : Attr} {span : Span} {text : String}
    (h : styleText? a = some (span, text)) (hcss : looksLikeCss text = true) :
    a.isNamed "style" = true ∧ isPassedOn a = false ∧ item? a = some (declared span text) := by
  unfold styleText? at h
  split at h
  · rename_i span' name s
    split at h
    · rename_i hname
      obtain ⟨rfl, rfl⟩ := Prod.mk.inj (Option.some.inj h)
      refine ⟨by simpa [Attr.isNamed, Attr.name?] using hname, by simp [isPassedOn, hcss], ?_⟩
      rw [item?, if_pos hname]
      exact congrArg some (itemOfExpr_text (e := .string span' s) rfl hcss)
    · cases h
  · rename_i span' name inside e
    split at h
    · rename_i hname
      refine ⟨by simpa [Attr.isNamed, Attr.name?] using hname, rfl, ?_⟩
      rw [item?, if_pos hname]
      exact congrArg some (itemOfExpr_text h hcss)
    · cases h
  · cases h

/-! ## Folding texts -/

/-- The properties of folded styles that are texts. -/
def texts (entries : List (String × Expr)) : List (String × Option String) :=
  entries.map (Prod.map id fun e => (text? e).map (·.2))

theorem texts_declared (span : Span) (source : String) :
    texts ((parse source).map fun (key, value) => (key, .string span value))
      = (parse source).map (Prod.map id some) := by
  rw [texts, List.map_map]
  rfl

theorem texts_putAll (run next : List (String × Expr)) :
    texts (Table.putAll run next) = Table.putAll (texts run) (texts next) :=
  Table.map_putAll _

/-- Constants can always be folded. -/
theorem canMerge_of_isEffectFree {run next : List (String × Expr)}
    (h : ∀ p ∈ run ++ next, isEffectFree p.2 = true) : canMerge run next = true := by
  have hnone : ∀ i, effectAt (run ++ next) i = false := by
    intro i
    rw [effectAt]
    split
    · rename_i hget
      rw [h _ (List.mem_of_getElem? hget)]
      rfl
    · rfl
  -- Only a value with effects keeps its slot from being overridden.
  have hslots : ∀ folded, ∃ out, slots (effectAt (run ++ next)) folded
      (positions next run.length) = some out := by
    generalize positions next run.length = ps
    induction ps with
    | nil => exact fun folded => ⟨folded, rfl⟩
    | cons p ps ih =>
      intro folded
      simp only [slots, hnone, Bool.false_eq_true, if_false]
      split
      · exact ih _
      · exact ih _
  obtain ⟨out, hout⟩ := hslots (positions run 0)
  have hempty : (out.map (·.2)).filter (effectAt (run ++ next)) = [] :=
    List.filter_eq_nil_iff.mpr fun i _ => by simp [hnone]
  unfold canMerge
  dsimp only
  split
  · rename_i folded hfolded
    obtain rfl := Option.some.inj (hout.symm.trans hfolded)
    exact congrArg isAscending hempty
  · rename_i hfolded
    exact absurd (hout.symm.trans hfolded) (Option.some_ne_none _)

/-- Properties that are texts are constants. -/
theorem isEffectFree_of_texts {run : List (String × Expr)} {properties : List (String × String)}
    (h : texts run = properties.map (Prod.map id some)) :
    ∀ p ∈ run, isEffectFree p.2 = true := by
  intro p hp
  have hmem : Prod.map id (fun e => (text? e).map (·.2)) p ∈ properties.map (Prod.map id some) :=
    h ▸ List.mem_map.mpr ⟨p, hp, rfl⟩
  obtain ⟨q, -, hq⟩ := List.mem_map.mp hmem
  obtain ⟨x, hx, -⟩ := Option.map_eq_some_iff.mp (Prod.mk.inj hq).2.symm
  unfold text? at hx
  split at hx
  · rename_i heq
    rw [heq]
    rfl
  · rename_i heq
    rw [heq]
    rfl
  · cases hx

/-- One more text is put in. -/
theorem addItem_declared {run : List (String × Expr)} {properties : List (String × String)}
    (h : texts run = properties.map (Prod.map id some)) (span : Span) (source : String) :
    ∃ run', addItem [.properties run] (declared span source) = [.properties run']
      ∧ texts run' = (Table.putAll properties (parse source)).map (Prod.map id some) := by
  have hnext := texts_declared span source
  refine ⟨_, if_pos (canMerge_of_isEffectFree ?_), ?_⟩
  · intro p hp
    rcases List.mem_append.mp hp with hp | hp
    · exact isEffectFree_of_texts h p hp
    · exact isEffectFree_of_texts hnext p hp
  · rw [texts_putAll, h, hnext, Table.map_putAll]

theorem foldl_declared {run : List (String × Expr)} {properties : List (String × String)}
    (h : texts run = properties.map (Prod.map id some)) (sources : List (Span × String)) :
    ∃ run', (sources.map fun p => declared p.1 p.2).foldl addItem [.properties run]
        = [.properties run']
      ∧ texts run' = (sources.foldl (fun found p => Table.putAll found (parse p.2)) properties).map
        (Prod.map id some) := by
  induction sources generalizing run properties with
  | nil => exact ⟨run, rfl, h⟩
  | cons p sources ih =>
    obtain ⟨run', hrun', htexts⟩ := addItem_declared h p.1 p.2
    rw [List.map_cons, List.foldl_cons, hrun', List.foldl_cons]
    exact ih htexts

/-- The declarations of several texts with semicolons between them. -/
theorem parse_intercalate (first : String) (rest : List String)
    (hrest : ∀ t ∈ rest, ¬ "base64".toList <+: t.toList) :
    parse (";".intercalate (first :: rest))
      = rest.foldl (fun found t => Table.putAll found (parse t)) (parse first) := by
  induction rest generalizing first with
  | nil => rw [String.intercalate_singleton, List.foldl_nil]
  | cons t rest ih =>
    have hjoined : ";".intercalate (first :: t :: rest)
        = ";".intercalate ((first ++ ";" ++ t) :: rest) := by
      cases rest with
      | nil => rw [String.intercalate_cons_cons, String.intercalate_singleton,
          String.intercalate_singleton]
      | cons u rest => simp only [String.intercalate_cons_cons, String.append_assoc]
    rw [hjoined, ih _ fun t' ht' => hrest t' (List.mem_cons_of_mem _ ht'), List.foldl_cons,
      parse_append first t (hrest t List.mem_cons_self)]

/-- **What attributes are folded to**: one `style` attribute, an object with the given properties,
all of them texts. The attributes that have nothing to do with styles stand around it. -/
def FoldsTo (attrs : List Attr) (properties : List (String × String)) : Prop :=
  ∀ (elementSpan : Span) (c : LoweringSetting) (s : Lowering), ∃ before after span entries,
    lowerAttrs elementSpan attrs c s
        = (before ++ Build.attr span "style" (Build.object span entries) :: after, s)
      ∧ before ++ after = attrs.filter isOther
      ∧ texts entries = properties.map (Prod.map id some)

theorem filterMap_item?_filter (attrs : List Attr) :
    (attrs.filter isSource).filterMap item? = attrs.filterMap item? := by
  rw [List.filterMap_filter]
  refine List.filterMap_congr fun a _ => ?_
  rw [← isSome_item?]
  cases item? a <;> rfl

/-- The items of attributes that have texts with declarations in them. -/
theorem filterMap_item?_of_hasText {sources : List Attr} {given : List String}
    (h : List.Forall₂ HasText sources given) (hcss : ∀ t ∈ given, looksLikeCss t = true) :
    ∃ placed : List (Span × String), placed.map (·.2) = given
      ∧ sources.filterMap item? = placed.map fun p => declared p.1 p.2 := by
  induction h with
  | nil => exact ⟨[], rfl, rfl⟩
  | @cons a t sources given hhas _ ih =>
    obtain ⟨span, htext⟩ := hhas
    obtain ⟨placed, rfl, hitems⟩ := ih fun t' ht' => hcss t' (List.mem_cons_of_mem _ ht')
    obtain ⟨-, -, hitem⟩ := item?_styleText htext (hcss t List.mem_cons_self)
    exact ⟨(span, t) :: placed, rfl, by rw [List.filterMap_cons_some hitem, hitems]; rfl⟩

/-- Attributes whose only styles are texts have no spread among them, and styles to merge. -/
theorem fires_of_hasText {attrs : List Attr} {first : String} {rest : List String}
    (h : List.Forall₂ HasText (attrs.filter isSource) (first :: rest))
    (hcss : ∀ t ∈ first :: rest, looksLikeCss t = true) :
    (∀ a ∈ attrs, isSpread a = false) ∧ fires attrs = true := by
  have hread : ∀ a ∈ attrs, isSource a = true →
      a.isNamed "style" = true ∧ isPassedOn a = false := by
    intro a ha hsource
    obtain ⟨i, hi, rfl⟩ := List.mem_iff_getElem.mp (List.mem_filter.mpr ⟨ha, hsource⟩)
    have hi' : i < (first :: rest).length := h.length_eq ▸ hi
    obtain ⟨span, htext⟩ := h.get hi hi'
    obtain ⟨hnamed, hpassed, -⟩ := item?_styleText htext (hcss _ (List.getElem_mem hi'))
    exact ⟨hnamed, hpassed⟩
  -- Every spread is a source, and no spread is named `style`.
  have hspread : ∀ a ∈ attrs, isSpread a = false := by
    intro a ha
    cases a with
    | named _ _ _ => rfl
    | spread _ _ => cases (hread _ ha rfl).1
  refine ⟨hspread, ?_⟩
  have hown : 0 < attrs.countP isOwn := by
    have hpos : 0 < (attrs.filter isSource).length := by
      rw [h.length_eq]
      exact Nat.succ_pos _
    obtain ⟨a, ha⟩ := List.exists_mem_of_length_pos hpos
    obtain ⟨ha, hsource⟩ := List.mem_filter.mp ha
    rw [isSource, hspread a ha, Bool.or_false] at hsource
    exact List.countP_pos_iff.mpr ⟨a, ha, hsource⟩
  -- The last `style` is a source too, so what it holds is a text and is not passed on.
  have hpassed : (((attrs.filter (·.isNamed "style")).getLast?).map isPassedOn).getD false
      = false := by
    cases hlast : (attrs.filter (·.isNamed "style")).getLast? with
    | none => rfl
    | some a =>
      obtain ⟨ha, hnamed⟩ := List.mem_filter.mp (List.mem_of_getLast? hlast)
      have hsource : isSource a = true := by
        cases a with
        | spread _ _ => rfl
        | named _ name _ => simp_all [isSource, isOwn, Attr.isNamed, Attr.name?]
      exact (hread a ha hsource).2
  have hnone : (attrs.countP isOwn == 0) = false := beq_eq_false_iff_ne.mpr (by omega)
  have hsum : (attrs.countP isOwn + attrs.countP isSpread == 0) = false :=
    beq_eq_false_iff_ne.mpr (by omega)
  simp only [fires, hpassed, hnone, hsum, Bool.and_false, Bool.false_and, Bool.or_false,
    Bool.not_false]

/-- **Texts are folded** one after the other, whatever other attributes stand between them. -/
theorem foldsTo_of_hasText {attrs : List Attr} {first : String} {rest : List String}
    (h : List.Forall₂ HasText (attrs.filter isSource) (first :: rest))
    (hcss : ∀ t ∈ first :: rest, looksLikeCss t = true) :
    FoldsTo attrs (rest.foldl (fun found t => Table.putAll found (parse t)) (parse first)) := by
  intro elementSpan c s
  obtain ⟨hspread, hfires⟩ := fires_of_hasText h hcss
  obtain ⟨placed, hplaced, hitems⟩ := filterMap_item?_of_hasText h hcss
  obtain ⟨p, placed, rfl⟩ : ∃ p placed', placed = p :: placed' := by
    cases placed with
    | nil => cases hplaced
    | cons p placed => exact ⟨p, placed, rfl⟩
  obtain ⟨rfl, rfl⟩ := List.cons.inj hplaced
  obtain ⟨entries, hentries, htexts⟩ := foldl_declared (texts_declared p.1 p.2) placed
  obtain ⟨span, heq⟩ := lowerAttrs_eq hfires elementSpan c s
  have hrun : mergeItems (attrs.filterMap item?) = [.properties entries] := by
    rw [← filterMap_item?_filter, hitems, mergeItems, List.map_cons, List.foldl_cons]
    exact hentries
  have hmerged : mergedValue span (attrs.filterMap item?) c s = (Build.object span entries, s) := by
    rw [mergedValue, hrun]
    rfl
  have hother : ∀ as : List Attr, as ⊆ attrs →
      as.filter isSpread = [] ∧ as.filter isKept = as.filter isOther := by
    intro as has
    refine ⟨List.filter_eq_nil_iff.mpr fun a ha => by simp [hspread a (has ha)],
      List.filter_congr fun a ha => ?_⟩
    rw [isKept_eq, hspread a (has ha), Bool.false_or]
  have hcut := beforeStyle_append_fromStyle attrs
  have hbefore := hother (beforeStyle attrs) fun a ha => hcut ▸ List.mem_append_left _ ha
  have hfrom := hother (fromStyle attrs) fun a ha => hcut ▸ List.mem_append_right _ ha
  rw [hmerged, hbefore.2, hfrom.1, List.append_nil] at heq
  refine ⟨_, _, span, entries, heq, ?_, ?_⟩
  · rw [← List.filter_append, hcut]
  · rw [htexts, List.foldl_map]

theorem looksLikeCss_intercalate {first : String} (h : looksLikeCss first = true)
    (rest : List String) : looksLikeCss (";".intercalate (first :: rest)) = true := by
  rw [looksLikeCss, List.contains_iff_mem] at h ⊢
  cases rest with
  | nil => rwa [String.intercalate_singleton]
  | cons t rest =>
    rw [String.intercalate_cons_cons, String.toList_append, String.toList_append]
    exact List.mem_append_left _ (List.mem_append_left _ h)

/-- **Reading is a homomorphism.** The declarations of two texts with a semicolon between them are
those of the first with those of the second put in, no two of them have the same key, and no key has
a hyphen. So attributes with several texts of declarations are folded to the same properties, in the
same order, as attributes with one text that has all of them. -/
theorem parse_semicolon :
    (∀ a b : String, ¬ "base64".toList <+: b.toList →
      parse (a ++ ";" ++ b) = Table.putAll (parse a) (parse b))
    ∧ (∀ source : String, ((parse source).map (·.1)).Nodup
      ∧ ∀ p ∈ parse source, '-' ∉ p.1.toList)
    ∧ ∀ (several one : List Attr) (first : String) (rest : List String),
      (∀ t ∈ first :: rest, looksLikeCss t = true) →
      (∀ t ∈ rest, ¬ "base64".toList <+: t.toList) →
      List.Forall₂ HasText (several.filter isSource) (first :: rest) →
      List.Forall₂ HasText (one.filter isSource) [";".intercalate (first :: rest)] →
      FoldsTo several (parse (";".intercalate (first :: rest)))
        ∧ FoldsTo one (parse (";".intercalate (first :: rest))) := by
  refine ⟨parse_append, fun source => ⟨nodup_parse source, fun p => hyphen_notMem_parse⟩, ?_⟩
  intro several one first rest hcss hrest hseveral hone
  constructor
  · rw [parse_intercalate first rest hrest]
    exact foldsTo_of_hasText hseveral hcss
  · refine foldsTo_of_hasText hone fun t ht => ?_
    rw [List.mem_singleton] at ht
    rw [ht]
    exact looksLikeCss_intercalate (hcss first List.mem_cons_self) rest

/-- Two texts, in which one property is given twice, with another attribute between them. -/
def split : List Attr :=
  [.named .none (.plain "style") (.string "margin-top: 0; color: red"),
    .named .none (.plain "id") (.string "x"),
    .named .none (.plain "style") (.container .none (some (.string .none "color: blue")))]

/-- The same declarations in one text. -/
def joined : List Attr :=
  [.named .none (.plain "id") (.string "x"),
    .named .none (.plain "style") (.string "margin-top: 0; color: red;color: blue")]

theorem parse_semicolon_split :
    parse ("margin-top: 0; color: red" ++ ";" ++ "color: blue")
        = Table.putAll (parse "margin-top: 0; color: red") (parse "color: blue")
      ∧ FoldsTo split [("marginTop", "0"), ("color", "blue")]
      ∧ FoldsTo joined [("marginTop", "0"), ("color", "blue")] := by
  have hrest : ∀ t ∈ ["color: blue"], ¬ "base64".toList <+: t.toList := by decide
  have hcss : ∀ t ∈ ["margin-top: 0; color: red", "color: blue"], looksLikeCss t = true := by
    decide
  have hsplit : List.Forall₂ HasText (split.filter isSource)
      ["margin-top: 0; color: red", "color: blue"] :=
    .cons ⟨.none, rfl⟩ (.cons ⟨.none, rfl⟩ .nil)
  have hjoined : List.Forall₂ HasText (joined.filter isSource)
      [";".intercalate ["margin-top: 0; color: red", "color: blue"]] :=
    .cons ⟨.none, by rfl⟩ .nil
  have hparse : parse (";".intercalate ["margin-top: 0; color: red", "color: blue"])
      = [("marginTop", "0"), ("color", "blue")] := by decide +kernel
  obtain ⟨hhom, -, hfold⟩ := parse_semicolon
  refine ⟨hhom _ _ (hrest _ List.mem_cons_self), ?_⟩
  rw [← hparse]
  exact hfold split joined _ ["color: blue"] hcss hrest hsplit hjoined

end Style

end JsxDialect
