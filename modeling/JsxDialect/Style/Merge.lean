import JsxDialect.Style.Declaration
import JsxDialect.Syntax.Inner

/-!
# Merging styles

The styles of an element come from several sources. Sources whose properties are known are folded
into one object where that keeps what runs and in which order; the others are merged where the
code runs.
-/

namespace JsxDialect.Style

/-- A source of styles: properties with their values, named in camel case, or an expression. -/
inductive Item where
  | properties (entries : List (String × Expr))
  | dynamic (expr : Expr)

/-- Whether leaving out an expression cannot change what the program does. -/
def isEffectFree (e : Expr) : Bool :=
  match e.inner with
  | .string .. | .number .. | .bool .. | .null _ | .bigint .. | .ident .. | .this _ => true
  | .template _ _ exprs => exprs.isEmpty
  | _ => false

/-- The position, among the values of both lists, of the value that each slot of the folded list
holds; nothing if a value with effects would be overridden. -/
def slots (effects : Nat → Bool) :
    List (String × Nat) → List (String × Nat) → Option (List (String × Nat))
  | folded, [] => some folded
  | folded, (key, origin) :: next =>
    match folded.lookup key with
    | some held => if effects held then none else slots effects (Table.put key origin folded) next
    | none => slots effects (folded ++ [(key, origin)]) next

/-- Whether numbers are in ascending order. -/
def isAscending : List Nat → Bool
  | [] => true
  | [_] => true
  | a :: b :: rest => a ≤ b && isAscending (b :: rest)

/-- Whether `next` can be folded into `run`: no value with effects is overridden, and those values
still run in the order they are written in. -/
def canMerge (run next : List (String × Expr)) : Bool :=
  let values := run ++ next
  let effects (i : Nat) : Bool :=
    match values[i]? with
    | some (_, e) => !isEffectFree e
    | none => false
  let positions (entries : List (String × Expr)) (start : Nat) : List (String × Nat) :=
    entries.zipIdx.map fun ((key, _), i) => (key, start + i)
  match slots effects (positions run 0) (positions next run.length) with
  | some folded => isAscending ((folded.map (·.2)).filter effects)
  | none => false

/-- The items with one more after them: it is folded into the last one if it can be. -/
def addItem (merged : List Item) (item : Item) : List Item :=
  match merged.getLast?, item with
  | some (.properties run), .properties next =>
    if canMerge run next then merged.dropLast ++ [.properties (Table.putAll run next)]
    else merged ++ [item]
  | _, _ => merged ++ [item]

/-- The items with neighbours folded where they can be. -/
def mergeItems (items : List Item) : List Item :=
  items.foldl addItem []

end JsxDialect.Style
