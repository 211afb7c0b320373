import JsxDialect.Normal
import JsxDialect.Proofs.Contents

/-!
# Texts in markup

The normal form of a module has no text in its markup (`Listing.texts`). What brings a tree to
normal form goes through the whole of it, and wherever it meets the children of an element or
fragment it puts strings for the texts among them. So it also leaves a tree alone that has no text:
one pass is enough.

Both facts are shown together, part by part, as `Cleans`.
-/

namespace JsxDialect

/-- The texts in the markup of a module. -/
def Module.markupTexts (m : Module) : List String :=
  Listing.texts.ofStmts m.stmts

/-- The module whose text is the normal form. -/
def Module.normal (m : Module) : Module :=
  { m with stmts := Normal.stmts m.stmts }

/-! ## One pass is enough -/

/-- Bringing a part of a tree to normal form leaves no text in it, and changes nothing if there is
none. -/
structure Cleans {α : Type} (texts : α → List String) (normal : α → α) (a : α) : Prop where
  clean : texts (normal a) = []
  fixed : texts a = [] → normal a = a

namespace Cleans

variable {α β : Type} {texts : α → List String} {normal : α → α} {texts' : β → List String}
  {normal' : β → β} {a : α} {b : β}

/-- A part without parts. -/
theorem leaf (hclean : texts a = []) (hfixed : normal a = a) : Cleans texts normal a where
  clean := by rw [hfixed, hclean]
  fixed _ := hfixed

/-- Two parts after each other. -/
theorem and (ha : Cleans texts normal a) (hb : Cleans texts' normal' b) :
    Cleans (fun p : α × β => texts p.1 ++ texts' p.2) (Prod.map normal normal') (a, b) where
  clean := List.append_eq_nil_iff.mpr ⟨ha.clean, hb.clean⟩
  fixed h := by
    obtain ⟨h, h'⟩ := List.append_eq_nil_iff.mp h
    exact Prod.ext (ha.fixed h) (hb.fixed h')

/-- A part that has its texts from the parts it is made of. -/
theorem map (ha : Cleans texts normal a) (make : α → β) (hmade : make a = b := by rfl)
    (hnormal : normal' b = make (normal a) := by rfl)
    (htexts : ∀ a, texts' (make a) = texts a := by exact fun _ => rfl) :
    Cleans texts' normal' b where
  clean := by rw [hnormal, htexts, ha.clean]
  fixed h := by
    rw [← hmade, htexts] at h
    rw [hnormal, ha.fixed h, hmade]

end Cleans

namespace MarkupText

open Listing (texts)

/-- A string stands for a text of more than white space, and nothing for another one. -/
theorem ofChildren_textChild (value : String) (cs : List Child) :
    texts.ofChildren (Normal.textChild value ++ cs) = texts.ofChildren cs := by
  unfold Normal.textChild
  split <;> rfl

mutual

/-- **An expression comes clean**: every part of it does, and the parts are put together as they
were. There is one lemma for each part of the syntax. -/
theorem cleans_expr (e : Expr) : Cleans texts.ofExpr Normal.expr e := by
  cases e with
  | ident _ _ | «alias» _ _ _ | number _ _ | string _ _ | bigint _ _ | regex _ _ | bool _ _ | null _
  | this _ | super _ | metaProperty _ _ _ | hole => exact .leaf rfl rfl
  | template s qs es => exact (cleans_exprs es).map (.template s qs)
  | tagged s t qs es =>
    exact ((cleans_expr t).and (cleans_exprs es)).map (fun p => .tagged s p.1 qs p.2)
  | spread e => exact (cleans_expr e).map .spread
  | array s es => exact (cleans_exprs es).map (.array s)
  | object s ps => exact (cleans_properties ps).map (.object s)
  | function s f => exact (cleans_func .plain f).map (.function s)
  | arrow s f => exact (cleans_func .arrow f).map (.arrow s)
  | classExpr s c => exact (cleans_class c).map (.classExpr s)
  | unary s op e => exact (cleans_expr e).map (.unary s op)
  | update s op before e => exact (cleans_expr e).map (.update s op before)
  | binary s op l r =>
    exact ((cleans_expr l).and (cleans_expr r)).map (fun p => .binary s op p.1 p.2)
  | privateIn s n r => exact (cleans_expr r).map (.privateIn s n)
  | logical s op l r =>
    exact ((cleans_expr l).and (cleans_expr r)).map (fun p => .logical s op p.1 p.2)
  | assign s op l r =>
    exact ((cleans_pattern l).and (cleans_expr r)).map (fun p => .assign s op p.1 p.2)
  | conditional s t c e =>
    exact ((cleans_expr t).and ((cleans_expr c).and (cleans_expr e))).map
      (fun p => .conditional s p.1 p.2.1 p.2.2)
  | call s c as optional =>
    exact ((cleans_expr c).and (cleans_exprs as)).map (fun p => .call s p.1 p.2 optional)
  | new s c as => exact ((cleans_expr c).and (cleans_exprs as)).map (fun p => .new s p.1 p.2)
  | member s o n optional => exact (cleans_expr o).map (fun o => .member s o n optional)
  | privateMember s o n optional =>
    exact (cleans_expr o).map (fun o => .privateMember s o n optional)
  | index s o k optional =>
    exact ((cleans_expr o).and (cleans_expr k)).map (fun p => .index s p.1 p.2 optional)
  | chain s e => exact (cleans_expr e).map (.chain s)
  | sequence s es => exact (cleans_exprs es).map (.sequence s)
  | paren s e => exact (cleans_expr e).map (.paren s)
  | yield s delegate e => exact (cleans_option e).map (.yield s delegate)
  | await s e => exact (cleans_expr e).map (.await s)
  | importCall s as => exact (cleans_exprs as).map (.importCall s)
  | typed s test e t => exact (cleans_expr e).map (fun e => .typed s test e t)
  | nonNull s e => exact (cleans_expr e).map (.nonNull s)
  | element e => exact (cleans_element e).map .element
  | fragment s cs => exact (cleans_children cs).map (.fragment s)

/-- Several expressions. -/
theorem cleans_exprs (es : List Expr) : Cleans texts.ofExprs Normal.exprs es := by
  cases es with
  | nil => exact .leaf rfl rfl
  | cons e es => exact ((cleans_expr e).and (cleans_exprs es)).map (fun p => p.1 :: p.2)

/-- An expression that may be missing. -/
theorem cleans_option (e : Option Expr) : Cleans texts.ofOption Normal.optExpr e := by
  cases e with
  | none => exact .leaf rfl rfl
  | some e => exact (cleans_expr e).map some

/-- The key of a member. -/
theorem cleans_key (k : Key) : Cleans texts.ofKey Normal.key k := by
  cases k with
  | ident _ | string _ | number _ | bigint _ | privateName _ => exact .leaf rfl rfl
  | computed e => exact (cleans_expr e).map .computed

/-- The members of an object literal. -/
theorem cleans_properties (ps : List Property) :
    Cleans texts.ofProperties Normal.properties ps := by
  match ps with
  | [] => exact .leaf rfl rfl
  | .field k v shorthand :: ps =>
    exact (((cleans_key k).and (cleans_expr v)).and (cleans_properties ps)).map
      (fun p => .field p.1.1 p.1.2 shorthand :: p.2)
  | .method kind k f :: ps =>
    exact (((cleans_key k).and (cleans_func .plain f)).and (cleans_properties ps)).map
      (fun p => .method kind p.1.1 p.1.2 :: p.2)
  | .spread e :: ps =>
    exact ((cleans_expr e).and (cleans_properties ps)).map (fun p => .spread p.1 :: p.2)

/-- A function, whatever its role in the listing. -/
theorem cleans_func (role : FunctionRole) (f : Func) :
    Cleans (texts.ofFunc role) Normal.func f := by
  cases f with
  | mk name isAsync isGenerator thisParam span ps rest type b =>
    -- Nothing is listed of the function itself.
    exact ((cleans_params ps).and ((cleans_rest rest).and (cleans_body b))).map
      (fun p => .mk name isAsync isGenerator thisParam span p.1 p.2.1 type p.2.2)
      rfl rfl fun _ => List.append_nil _

/-- The body of a function, with all calls of the base constructor. -/
theorem cleans_body (b : Body) : Cleans (texts.ofBody false) Normal.body b := by
  cases b with
  | absent => exact .leaf rfl rfl
  | expr e => exact (cleans_expr e).map .expr
  | block directives ss => exact (cleans_stmts ss).map (.block directives)

/-- Parameters, with their decorators. -/
theorem cleans_params (ps : List Param) : Cleans texts.ofParams Normal.params ps := by
  match ps with
  | [] => exact .leaf rfl rfl
  | .mk ds p :: ps =>
    exact (((cleans_exprs ds).and (cleans_pattern p)).and (cleans_params ps)).map
      (fun p => .mk p.1.1 p.1.2 :: p.2)

/-- A pattern, with its defaults. -/
theorem cleans_pattern (p : Pattern) : Cleans texts.ofPattern Normal.pattern p := by
  cases p with
  | bind _ | hole => exact .leaf rfl rfl
  | target e => exact (cleans_expr e).map .target
  | object ps rest =>
    exact ((cleans_patternProperties ps).and (cleans_rest rest)).map (fun p => .object p.1 p.2)
  | array ps rest =>
    exact ((cleans_patterns ps).and (cleans_rest rest)).map (fun p => .array p.1 p.2)
  | withDefault p e =>
    exact ((cleans_pattern p).and (cleans_expr e)).map (fun p => .withDefault p.1 p.2)
  | typed p optional t => exact (cleans_pattern p).map (fun p => .typed p optional t)

theorem cleans_patterns (ps : List Pattern) : Cleans texts.ofPatterns Normal.patterns ps := by
  cases ps with
  | nil => exact .leaf rfl rfl
  | cons p ps => exact ((cleans_pattern p).and (cleans_patterns ps)).map (fun p => p.1 :: p.2)

theorem cleans_rest (p : Option Pattern) : Cleans texts.ofRest Normal.optPattern p := by
  cases p with
  | none => exact .leaf rfl rfl
  | some p => exact (cleans_pattern p).map some

theorem cleans_patternProperties (ps : List PatternProperty) :
    Cleans texts.ofPatternProperties Normal.patternProperties ps := by
  match ps with
  | [] => exact .leaf rfl rfl
  | .mk k p shorthand :: ps =>
    exact ((cleans_key k).and ((cleans_pattern p).and (cleans_patternProperties ps))).map
      (fun p => .mk p.1 p.2.1 shorthand :: p.2.2)

/-- **A statement comes clean.** -/
theorem cleans_stmt (s : Stmt) : Cleans texts.ofStmt Normal.stmt s := by
  cases s with
  | «break» _ | «continue» _ | empty | debugger | «import» _ _ | exportNamed _ _ | exportAll _ _ =>
    exact .leaf rfl rfl
  | expr e => exact (cleans_expr e).map .expr
  | varDecl kind ds => exact (cleans_declarators ds).map (.varDecl kind)
  | function f => exact (cleans_func .plain f).map .function
  | classDecl c => exact (cleans_class c).map .classDecl
  | «return» e => exact (cleans_option e).map .return
  | throw e => exact (cleans_expr e).map .throw
  | «if» t c e =>
    exact ((cleans_expr t).and ((cleans_stmt c).and (cleans_alternate e))).map
      (fun p => .if p.1 p.2.1 p.2.2)
  | «for» init t u b =>
    exact ((cleans_head init).and ((cleans_option t).and ((cleans_option u).and
      (cleans_stmt b)))).map (fun p => .for p.1 p.2.1 p.2.2.1 p.2.2.2)
  | forIn left r b =>
    exact ((cleans_head left).and ((cleans_expr r).and (cleans_stmt b))).map
      (fun p => .forIn p.1 p.2.1 p.2.2)
  | forOf isAwait left r b =>
    exact ((cleans_head left).and ((cleans_expr r).and (cleans_stmt b))).map
      (fun p => .forOf isAwait p.1 p.2.1 p.2.2)
  | «while» t b => exact ((cleans_expr t).and (cleans_stmt b)).map (fun p => .while p.1 p.2)
  | doWhile b t => exact ((cleans_stmt b).and (cleans_expr t)).map (fun p => .doWhile p.1 p.2)
  | block ss => exact (cleans_stmts ss).map .block
  | switch d cases =>
    exact ((cleans_expr d).and (cleans_cases cases)).map (fun p => .switch p.1 p.2)
  | «try» b handler finalizer =>
    exact ((cleans_stmts b).and ((cleans_handler handler).and (cleans_finalizer finalizer))).map
      (fun p => .try p.1 p.2.1 p.2.2)
  | labeled label b => exact (cleans_stmt b).map (.labeled label)
  | exportDecl d => exact (cleans_stmt d).map .exportDecl
  | exportDefaultFunction f => exact (cleans_func .plain f).map .exportDefaultFunction
  | exportDefaultClass c => exact (cleans_class c).map .exportDefaultClass
  | exportDefault e => exact (cleans_expr e).map .exportDefault

/-- Several statements. -/
theorem cleans_stmts (ss : List Stmt) : Cleans texts.ofStmts Normal.stmts ss := by
  cases ss with
  | nil => exact .leaf rfl rfl
  | cons s ss => exact ((cleans_stmt s).and (cleans_stmts ss)).map (fun p => p.1 :: p.2)

theorem cleans_alternate (s : Option Stmt) : Cleans texts.ofAlternate Normal.optStmt s := by
  cases s with
  | none => exact .leaf rfl rfl
  | some s => exact (cleans_stmt s).map some

theorem cleans_finalizer (ss : Option (List Stmt)) :
    Cleans texts.ofFinalizer Normal.optStmts ss := by
  cases ss with
  | none => exact .leaf rfl rfl
  | some ss => exact (cleans_stmts ss).map some

/-- A handler. -/
theorem cleans_handler (h : Option Catch) : Cleans texts.ofHandler Normal.optCatch h := by
  match h with
  | none => exact .leaf rfl rfl
  | some (.mk param ss) =>
    exact ((cleans_rest param).and (cleans_stmts ss)).map (fun p => some (.mk p.1 p.2))

theorem cleans_declarators (ds : List Declarator) :
    Cleans texts.ofDeclarators Normal.declarators ds := by
  match ds with
  | [] => exact .leaf rfl rfl
  | .mk p e :: ds =>
    exact ((cleans_pattern p).and ((cleans_option e).and (cleans_declarators ds))).map
      (fun p => .mk p.1 p.2.1 :: p.2.2)

/-- The head of a loop. -/
theorem cleans_head (h : ForHead) : Cleans texts.ofHead Normal.forHead h := by
  cases h with
  | absent => exact .leaf rfl rfl
  | decl kind ds => exact (cleans_declarators ds).map (.decl kind)
  | expr e => exact (cleans_expr e).map .expr
  | target p => exact (cleans_pattern p).map .target

/-- The cases of a `switch`. -/
theorem cleans_cases (cases : List SwitchCase) : Cleans texts.ofCases Normal.switchCases cases := by
  match cases with
  | [] => exact .leaf rfl rfl
  | .mk t ss :: cases =>
    exact ((cleans_option t).and ((cleans_stmts ss).and (cleans_cases cases))).map
      (fun p => .mk p.1 p.2.1 :: p.2.2)

/-- A class. -/
theorem cleans_class (c : Class) : Cleans texts.ofClass Normal.cls c := by
  cases c with
  | mk name ds superClass ms =>
    exact ((cleans_exprs ds).and ((cleans_option superClass).and (cleans_members ms))).map
      (fun p => .mk name p.1 p.2.1 p.2.2)

/-- The members of a class. -/
theorem cleans_members (ms : List Member) : Cleans texts.ofMembers Normal.members ms := by
  match ms with
  | [] => exact .leaf rfl rfl
  | .method ds isStatic kind k f :: ms =>
    exact ((cleans_exprs ds).and ((cleans_key k).and
      ((cleans_func (.method isStatic kind) f).and (cleans_members ms)))).map
      (fun p => .method p.1 isStatic kind p.2.1 p.2.2.1 :: p.2.2.2)
  | .field ds isStatic k optional t value :: ms =>
    exact ((cleans_exprs ds).and ((cleans_key k).and
      ((cleans_option value).and (cleans_members ms)))).map
      (fun p => .field p.1 isStatic p.2.1 optional t p.2.2.1 :: p.2.2.2)
  | .staticBlock ss :: ms =>
    exact ((cleans_stmts ss).and (cleans_members ms)).map (fun p => .staticBlock p.1 :: p.2)

/-- An element: its attributes and its children. -/
theorem cleans_element (e : Element) : Cleans texts.ofElement Normal.element e := by
  cases e with
  | mk span openSpan name as cs closed =>
    exact ((cleans_attrs as).and (cleans_children cs)).map
      (fun p => .mk span openSpan name p.1 p.2 closed)

/-- Attributes. -/
theorem cleans_attrs (as : List Attr) : Cleans texts.ofAttrs Normal.attrs as := by
  match as with
  | [] => exact .leaf rfl rfl
  | .named span name value :: as =>
    exact ((cleans_attrValue value).and (cleans_attrs as)).map
      (fun p => .named span name p.1 :: p.2)
  | .spread span e :: as =>
    exact ((cleans_expr e).and (cleans_attrs as)).map (fun p => .spread span p.1 :: p.2)

/-- The value of an attribute, which may be markup itself. -/
theorem cleans_attrValue (v : AttrValue) : Cleans texts.ofAttrValue Normal.attrValue v := by
  cases v with
  | absent | string _ => exact .leaf rfl rfl
  | container span e => exact (cleans_option e).map (.container span)
  | element e => exact (cleans_element e).map .element
  | fragment span cs => exact (cleans_children cs).map (.fragment span)

/-- **Children come clean**: strings stand for the texts among them. -/
theorem cleans_children (cs : List Child) : Cleans texts.ofChildren Normal.children cs := by
  match cs with
  | [] => exact .leaf rfl rfl
  | .text value :: cs =>
    -- The only place where something is put for another thing.
    exact ⟨(ofChildren_textChild value _).trans (cleans_children cs).clean, fun h => nomatch h⟩
  | .element e :: cs =>
    exact ((cleans_element e).and (cleans_children cs)).map (fun p => .element p.1 :: p.2)
  | .fragment span inner :: cs =>
    exact ((cleans_children inner).and (cleans_children cs)).map
      (fun p => .fragment span p.1 :: p.2)
  | .container e :: cs =>
    exact ((cleans_option e).and (cleans_children cs)).map (fun p => .container p.1 :: p.2)
  | .spread e :: cs =>
    exact ((cleans_expr e).and (cleans_children cs)).map (fun p => .spread p.1 :: p.2)

end

end MarkupText

/-- **No text is left** in the markup of a module, wherever it stood. -/
theorem Module.markupTexts_normal (m : Module) : m.normal.markupTexts = [] :=
  (MarkupText.cleans_stmts m.stmts).clean

/-- **A module without text in its markup is in normal form.** -/
theorem Module.normal_of_markupTexts {m : Module} (h : m.markupTexts = []) : m.normal = m := by
  obtain ⟨directives, stmts⟩ := m
  exact congrArg (Module.mk directives) ((MarkupText.cleans_stmts stmts).fixed h)

end JsxDialect
