/-!
# Tags with a meaning

The tags that the dialect gives a meaning to. All other tags are ordinary elements.
-/

namespace JsxDialect

/-- The tags of control flow. -/
inductive ControlTag where
  | if | unless | elseIf | else | switch | repeat | using | group
deriving Repr, DecidableEq, Inhabited

/-- The tag of control flow that a text is. -/
def ControlTag.ofText? : String → Option ControlTag
  | "if" => some .if
  | "unless" => some .unless
  | "elseif" => some .elseIf
  | "else" => some .else
  | "switch" => some .switch
  | "repeat" => some .repeat
  | "using" => some .using
  | "g" => some .group
  | _ => none

/-- The children of a `<switch>` that are its arms. -/
inductive ArmTag where
  | case | default
deriving Repr, DecidableEq, Inhabited

/-- The arm that a text is the tag of. -/
def ArmTag.ofText? : String → Option ArmTag
  | "case" => some .case
  | "default" => some .default
  | _ => none

/-- The form controls with a value that users edit. -/
inductive FormTag where
  | input | textArea | select
deriving Repr, DecidableEq, Inhabited

/-- The form control that a text is the tag of. -/
def FormTag.ofText? : String → Option FormTag
  | "input" => some .input
  | "textarea" => some .textArea
  | "select" => some .select
  | _ => none

end JsxDialect
