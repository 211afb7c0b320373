/-!
# Tables in order

Lists of keys with values, in the order in which the keys first came. Putting a value for a key that
is there keeps the place of the key.
-/

namespace JsxDialect.Table

variable {α : Type}

/-- The table with a value for a key. -/
def put (key : String) (value : α) : List (String × α) → List (String × α)
  | [] => [(key, value)]
  | (k, v) :: rest => if k == key then (k, value) :: rest else (k, v) :: put key value rest

/-- The table with further values put in one after the other. -/
def putAll (run next : List (String × α)) : List (String × α) :=
  next.foldl (fun acc (key, value) => put key value acc) run

end JsxDialect.Table
