import Scaffold.Model.Basic
import Scaffold.Model.TokenLine

/-! Reading a model from the tokens of a request: `Name field…`, with the flags `--node=` and
`--viewdata=` anywhere. Main definition: `Model.parse`; its errors know the token at fault. -/

namespace Scaffold

/-- The flags of a request for a model. -/
inductive Flag where
  | node | viewData
  deriving DecidableEq, Repr

namespace Flag

/-- Read a flag and its value; keys and values may be in any case. -/
def ofToken? (token : Text) : Option (Flag × Bool) := do
  let (key, value) ← Text.splitOnce? '=' (← Text.stripPrefix? "--" token)
  let flag ←
    if Text.asciiLower key = ("node" : Text) then some node
    else if Text.asciiLower key = ("viewdata" : Text) then some viewData
    else none
  let value ←
    if Text.asciiLower value = ("true" : Text) then some true
    else if Text.asciiLower value = ("false" : Text) then some false
    else none
  return (flag, value)

/-- Record the value of a flag. -/
def set (c : Conformances) : Flag × Bool → Conformances
  | (.node, b) => { c with node := b }
  | (.viewData, b) => { c with viewData := b }

end Flag

/-- Why tokens describe no model. Tokens are counted with the flags. -/
inductive ModelError where
  | insufficient (found : Nat)
  | malformedField (token : Text) (index : Nat)
  | unsupportedType (name : Text) (index : Nat)
  deriving DecidableEq, Repr

namespace Model

/-- The tokens that are no flags, with their places among all tokens. -/
def positional (tokens : List Text) : List (Text × Nat) :=
  tokens.zipIdx.filter fun (t, _) => (Flag.ofToken? t).isNone

/-- The conformances asked for: of several flags of one kind the last one counts. -/
def flagged (tokens : List Text) : Conformances :=
  (tokens.filterMap Flag.ofToken?).foldl Flag.set {}

/-- Read the field of the token at the given place. -/
def parseField : Text × Nat → Except ModelError Field
  | (token, index) =>
    match Field.ofToken token with
    | .ok f => .ok f
    | .error (.malformed t) => .error (.malformedField t index)
    | .error (.missingType n) => .error (.unsupportedType n index)

/-- Read a name and at least one field; the first token that is no field decides the error. -/
def parse (naming : Naming) (tokens : List Text) : Except ModelError Model :=
  match positional tokens with
  | (raw, _) :: t :: ts => do
    let fields ← (t :: ts).mapM parseField
    let name := naming.modelName raw
    return ⟨name, naming.entityName name, fields, flagged tokens⟩
  | ps => .error (.insufficient ps.length)

end Model

namespace ModelError

/-- What the user is told, with labels in the line of the tokens. -/
def diagnostic (tokens : List Text) : ModelError → Diagnostic
  | .insufficient found =>
    { message := "expected a model name and at least one field, found " ++ Text.ofNat found ++
        " argument(s)"
      code := some "vaporize::insufficient_arguments"
      help := some ("usage: vaporize model <Name> <field:type>... e.g. " ++
        Text.quoted "vaporize model User name:string age:int!")
      labels := [⟨"needs a name and a field", TokenLine.wholeSpan tokens⟩] }
  | .malformedField token index =>
    { message := "malformed field " ++ Text.quoted token
      code := some "vaporize::malformed_field"
      help := some "write fields as 'name:type', or 'name:type!' for an optional field"
      labels := [⟨"expected exactly one ':'", TokenLine.span tokens index⟩] }
  | .unsupportedType name index =>
    { message := "field " ++ Text.quoted name ++ " has no type"
      code := some "vaporize::unsupported_type"
      help := some "valid types are int, string, double, float, bool or the name of another model"
      labels := [⟨"type missing after ':'", TokenLine.span tokens index⟩] }

end ModelError
end Scaffold
