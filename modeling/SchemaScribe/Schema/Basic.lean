import SchemaScribe.Schema.Definition
import SchemaScribe.Table

/-!
A schema: its definitions in the order of declaration and the names given to its root operations. Names are
looked up among all definitions, so a definition of another kind hides an object type that comes after it.
-/

namespace SchemaScribe

inductive Operation
  | query
  | mutation
  | subscription
  deriving DecidableEq

namespace Operation

def keyword : Operation → String
  | query => "query"
  | mutation => "mutation"
  | subscription => "subscription"

/-- The object type that serves the operation when the schema names none. -/
def defaultRoot : Operation → String
  | query => "Query"
  | mutation => "Mutation"
  | subscription => "Subscription"

def ofKeyword? (word : String) : Option Operation :=
  [query, mutation, subscription].find? (·.keyword = word)

end Operation

structure RootNames where
  query : Option String := none
  mutation : Option String := none
  subscription : Option String := none
  deriving DecidableEq

namespace RootNames

def get (names : RootNames) : Operation → Option String
  | .query => names.query
  | .mutation => names.mutation
  | .subscription => names.subscription

def set (names : RootNames) (operation : Operation) (root : String) : RootNames :=
  match operation with
  | .query => { names with query := some root }
  | .mutation => { names with mutation := some root }
  | .subscription => { names with subscription := some root }

end RootNames

structure Schema where
  definitions : List Definition := []
  rootNames : Option RootNames := none
  deriving DecidableEq

namespace Schema

def isEmpty (schema : Schema) : Bool :=
  schema.definitions.isEmpty

def add (schema : Schema) (definition : Definition) : Schema :=
  { schema with definitions := schema.definitions ++ [definition] }

/-- The first definition of that name, of whatever kind. -/
def definition? (schema : Schema) (name : String) : Option Definition :=
  schema.definitions.find? (·.name = name)

/-- The object type of that name, provided that no other definition of the name stands before it. -/
def objectType? (schema : Schema) (name : String) : Option RecordType :=
  (schema.definition? name).bind Definition.object?

def objectTypes (schema : Schema) : Table RecordType :=
  Table.ofEntries ((schema.definitions.filterMap Definition.object?).map fun type => (type.name, type))

def inputTypes (schema : Schema) : Table RecordType :=
  Table.ofEntries ((schema.definitions.filterMap Definition.input?).map fun type => (type.name, type))

def enums (schema : Schema) : Table EnumType :=
  Table.ofEntries ((schema.definitions.filterMap Definition.enum?).map fun type => (type.name, type))

def unions (schema : Schema) : Table UnionType :=
  Table.ofEntries ((schema.definitions.filterMap Definition.union?).map fun type => (type.name, type))

/-- The members of the unions, of which only the last of each name counts. -/
def unionMembers (schema : Schema) : List String :=
  schema.unions.values.flatMap (·.members)

end Schema

end SchemaScribe
