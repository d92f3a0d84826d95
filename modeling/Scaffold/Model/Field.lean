import Scaffold.Text.Upper

/-! Fields of a model and the tokens that describe them: `name:type`, with a final `!` for an
optional field. A type is one of five keywords or a reference to another model. -/

namespace Scaffold

/-- The column types known by keyword. -/
inductive Scalar where
  | int | string | double | float | bool
  deriving DecidableEq, Repr

namespace Scalar

def all : List Scalar := [.int, .string, .double, .float, .bool]

/-- The keyword in a field token. -/
def keyword : Scalar → Text
  | .int => "int"
  | .string => "string"
  | .double => "double"
  | .float => "float"
  | .bool => "bool"

/-- The scalar with exactly this keyword. -/
def ofKeyword? (t : Text) : Option Scalar :=
  all.find? (·.keyword = t)

/-- The type of a property. -/
def swiftType : Scalar → Text
  | .int => "Int"
  | .string => "String"
  | .double => "Double"
  | .float => "Float"
  | .bool => "Bool"

/-- The schema call that makes the column; there is no single-precision column. -/
def column : Scalar → Text
  | .int => "int"
  | .string => "string"
  | .double | .float => "double"
  | .bool => "bool"

end Scalar

/-- The type of a field. -/
inductive FieldType where
  | scalar (type : Scalar)
  | relation (reference : Text)
  deriving DecidableEq, Repr

namespace FieldType

/-- The type written by a keyword: a scalar if there is one of that keyword, else a relation. -/
def ofKeyword (t : Text) : FieldType :=
  match Scalar.ofKeyword? t with
  | some s => .scalar s
  | none => .relation t

/-- The type as written in a token. -/
def keyword : FieldType → Text
  | .scalar s => s.keyword
  | .relation r => r

/-- The type of a property; a relation is stored as an identifier. -/
def swiftType : FieldType → Text
  | .scalar s => s.swiftType
  | .relation _ => "Identifier"

/-- The model a relation refers to. -/
def target? : FieldType → Option Text
  | .scalar _ => none
  | .relation r => some (Text.capitalize r)

def isRelation : FieldType → Bool
  | .scalar _ => false
  | .relation _ => true

end FieldType

/-- One property of a model. -/
structure Field where
  name : Text
  type : FieldType
  isOptional : Bool
  deriving DecidableEq, Repr

/-- Why a token describes no field. -/
inductive FieldError where
  | malformed (token : Text)
  | missingType (name : Text)
  deriving DecidableEq, Repr

/-- The wording of a field error. -/
def FieldError.message : FieldError → Text
  | .malformed token => Text.quoted token ++ " is not of the form name:type"
  | .missingType name => "field " ++ Text.quoted name ++ " has no type"

namespace Field

/-- Separate the mark of an optional field from a type. -/
def splitMark (type : Text) : Text × Bool :=
  if type.getLast? = some '!' then (type.dropLast, true) else (type, false)

/-- Read a token: one colon, and a type after it. -/
def ofToken (token : Text) : Except FieldError Field :=
  match Text.splitOn ':' token with
  | [name, type] =>
    let (keyword, isOptional) := splitMark type
    if keyword = [] then .error (.missingType name)
    else .ok ⟨name, FieldType.ofKeyword keyword, isOptional⟩
  | _ => .error (.malformed token)

/-- The token of a field. -/
def token (f : Field) : Text :=
  f.name ++ ':' :: f.type.keyword ++ if f.isOptional then ['!'] else []

/-- The type in the declaration of the property. -/
def declaredType (f : Field) : Text :=
  f.type.swiftType ++ if f.isOptional then ['?'] else []

def isRelation (f : Field) : Bool :=
  f.type.isRelation

end Field
end Scaffold
