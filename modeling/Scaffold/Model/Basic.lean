import Scaffold.Model.Field
import Scaffold.Naming

/-! The description of one model: its name, its table, its fields and two optional
conformances. -/

namespace Scaffold

/-- The conformances a model may ask for. -/
structure Conformances where
  node : Bool := false
  viewData : Bool := false
  deriving DecidableEq, Repr

/-- Everything that is known about a model to be generated. -/
structure Model where
  name : Text
  entity : Option Text
  fields : List Field
  conformances : Conformances
  deriving DecidableEq, Repr

namespace Model

/-- Name the model and its table anew by the given rules. -/
def rename (naming : Naming) (m : Model) : Model :=
  let name := naming.modelName m.name
  { m with name := name, entity := naming.entityName name }

/-- The fields that refer to other models, in order. -/
def relations (m : Model) : List Field :=
  m.fields.filter (·.isRelation)

/-- The names that occur for the second time, when those of `seen` came before. -/
def secondOccurrences (seen : List Text) : List Text → List Text
  | [] => []
  | n :: ns =>
    if seen.count n = 1 then n :: secondOccurrences (n :: seen) ns
    else secondOccurrences (n :: seen) ns

/-- Field names declared more than once, each at its first repetition. -/
def duplicateNames (m : Model) : List Text :=
  secondOccurrences [] (m.fields.map (·.name))

end Model
end Scaffold
