import Scaffold.Text.Upper
import Scaffold.Text.Lower

/-! How the name of a model is made from the name as typed, and the name of its table from
the name of the model. -/

namespace Scaffold

/-- The case of a model name. -/
inductive ModelCase where
  | verbatim | capitalize
  deriving DecidableEq, Repr

/-- Whether a model states the name of its table. -/
inductive EntityRule where
  | omit | plural
  deriving DecidableEq, Repr

/-- The naming rules of a project; by default names are kept and no table is named. -/
structure Naming where
  model : ModelCase := .verbatim
  entity : EntityRule := .omit
  deriving DecidableEq, Repr

/-- The plural of a noun is the noun with an `s`, and of nothing it is nothing. -/
def Text.plural (t : Text) : Text :=
  if t.isEmpty then [] else t ++ ['s']

namespace Naming

/-- The name of the model for a name as typed. -/
def modelName (n : Naming) (raw : Text) : Text :=
  match n.model with
  | .verbatim => raw
  | .capitalize => Text.capitalize raw

/-- The name of the table of a model: the lower-case plural of the model name. -/
def entityName (n : Naming) (model : Text) : Option Text :=
  match n.entity with
  | .omit => none
  | .plural => some (Text.plural (Text.lower model))

end Naming
end Scaffold
