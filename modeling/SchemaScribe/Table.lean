/-!
Tables keyed by name. A name keeps the place at which it first came, and the last value given for it.
-/

namespace SchemaScribe

abbrev Table (α : Type) := List (String × α)

namespace Table

def insert (name : String) (value : α) : Table α → Table α
  | [] => [(name, value)]
  | (other, old) :: rest =>
    if other = name then (name, value) :: rest else (other, old) :: insert name value rest

/-- Later entries override earlier ones. -/
def insertAll (table entries : Table α) : Table α :=
  entries.foldl (fun table (name, value) => table.insert name value) table

def ofEntries (entries : Table α) : Table α :=
  insertAll [] entries

def find? (table : Table α) (name : String) : Option α :=
  List.lookup name table

def values (table : Table α) : List α :=
  table.map Prod.snd

end Table

/-- Sorted by code point, each name once. -/
def sortedNames (names : List String) : List String :=
  (names.mergeSort (fun a b => decide (a ≤ b))).eraseDups

end SchemaScribe
