import JsxDialect.Check.Declaration

/-!
# Members of classes

What a class may not have: two constructors, constructors that are no plain methods, fields of that
name, and private names that are declared twice.
-/

namespace JsxDialect.Check

/-- The name of a member that is not computed. -/
def keyName? : Key → Option String
  | .ident n => some n
  | .string v => some v
  | _ => none

/-- Whether a constructor has a body; other members are none. -/
def hasBody? : Member → Option Bool
  | .method _ _ .constructor _ f =>
    match f.body with
    | .absent => some false
    | _ => some true
  | _ => none

/-- Whether no constructor follows one with a body. -/
def oneConstructor (seen : Bool) : List Member → Bool
  | [] => true
  | m :: ms =>
    match hasBody? m with
    | some body => !seen && oneConstructor body ms
    | none => oneConstructor seen ms

/-- Whether a member of a class may have its name. -/
def memberNameValid : Member → Bool
  | .method _ isStatic kind key f =>
    match key, f with
    | .privateName n, _ => n != "constructor"
    | key, .mk _ isAsync isGenerator .. =>
      if isStatic then keyName? key != some "prototype"
      else keyName? key != some "constructor" || (kind == .constructor && !isAsync && !isGenerator)
  | .field _ isStatic key .. =>
    match key with
    | .privateName n => n != "constructor"
    | key =>
      keyName? key != some "constructor" && !(isStatic && keyName? key == some "prototype")
  | .staticBlock _ => true

/-- The private name that a member declares, with what it is. -/
def privateMember? : Member → Option (String × Bool × MethodKind)
  | .method _ isStatic kind (.privateName n) _ => some (n, isStatic, kind)
  | .field _ isStatic (.privateName n) .. => some (n, isStatic, .method)
  | _ => none

/-- Whether two private members of one name can stand in a class: a getter with its setter. -/
def arePair (x y : Bool × MethodKind) : Bool :=
  x.1 == y.1
    && ((x.2 == .getter && y.2 == .setter) || (x.2 == .setter && y.2 == .getter))

/-- Whether private names are declared once. -/
def privatesDistinct : List (String × Bool × MethodKind) → Bool
  | [] => true
  | (n, x) :: ms => ms.all (fun (m, y) => n != m || arePair x y) && privatesDistinct ms

/-- The private names that members declare. -/
def privateNames (members : List Member) : List String :=
  members.filterMap fun m => (privateMember? m).map (·.1)

/-- Whether a class may have its members. -/
def membersValid (members : List Member) : Bool :=
  oneConstructor false members && members.all memberNameValid
    && privatesDistinct (members.filterMap privateMember?)

/-- Whether a getter has no parameter, and a setter exactly one. -/
def accessorValid (kind : MethodKind) (f : Func) : Bool :=
  match kind with
  | .getter => f.params.isEmpty && f.rest.isNone
  | .setter => f.params.length == 1 && f.rest.isNone
  | _ => true

end JsxDialect.Check
