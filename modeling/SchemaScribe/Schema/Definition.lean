import SchemaScribe.Schema.TypeRef

/-!
The named definitions of a schema. Object types and input types have the same parts; what may be done with them
differs, so the two are different definitions over one record of parts.
-/

namespace SchemaScribe

structure Argument where
  name : String
  type : TypeRef
  defaultText : Option String := none
  description : Option String := none
  deriving DecidableEq

structure Field where
  name : String
  type : TypeRef
  arguments : List Argument := []
  description : Option String := none
  deriving DecidableEq

structure EnumValue where
  name : String
  description : Option String := none
  deriving DecidableEq

/-- A name with fields: an object type or an input type. -/
structure RecordType where
  name : String
  fields : List Field := []
  description : Option String := none
  deriving DecidableEq

structure EnumType where
  name : String
  values : List EnumValue := []
  description : Option String := none
  deriving DecidableEq

structure UnionType where
  name : String
  members : List String := []
  description : Option String := none
  deriving DecidableEq

inductive Definition
  | object (type : RecordType)
  | input (type : RecordType)
  | enum (type : EnumType)
  | union (type : UnionType)
  deriving DecidableEq

namespace Definition

def name : Definition → String
  | object type => type.name
  | input type => type.name
  | enum type => type.name
  | union type => type.name

def description : Definition → Option String
  | object type => type.description
  | input type => type.description
  | enum type => type.description
  | union type => type.description

/-- The names of the fields, values or members. -/
def memberNames : Definition → List String
  | object type => type.fields.map (·.name)
  | input type => type.fields.map (·.name)
  | enum type => type.values.map (·.name)
  | union type => type.members

def object? : Definition → Option RecordType
  | object type => some type
  | _ => none

def input? : Definition → Option RecordType
  | input type => some type
  | _ => none

def enum? : Definition → Option EnumType
  | enum type => some type
  | _ => none

def union? : Definition → Option UnionType
  | union type => some type
  | _ => none

/-- The fields of an object or input type; other definitions have none. -/
def fields : Definition → List Field
  | object type => type.fields
  | input type => type.fields
  | _ => []

end Definition

/-- Whether there is a text to show: a missing description and an empty one say the same. -/
def isDescribed (description : Option String) : Bool :=
  description.any (· ≠ "")

end SchemaScribe
