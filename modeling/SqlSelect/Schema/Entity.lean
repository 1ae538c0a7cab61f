/-!
Entities: a table, and for each property its column and kind of data.
-/

namespace SqlSelect

inductive DataKind where
  | int
  | decimal
  | text
  | char
  | datetime
  | bool
deriving DecidableEq

namespace DataKind

def name : DataKind → String
  | int => "int"
  | decimal => "decimal"
  | text => "text"
  | char => "char"
  | datetime => "datetime"
  | bool => "bool"

def all : List DataKind := [int, decimal, text, char, datetime, bool]

def ofName? (name : String) : Option DataKind :=
  all.find? (·.name == name)

def isNumeric : DataKind → Bool
  | int | decimal => true
  | _ => false

end DataKind

structure Field where
  name : String
  kind : DataKind
  -- The column, where it is not named like the property.
  column? : Option String := none
  primaryKey : Bool := false
deriving DecidableEq

def Field.column (f : Field) : String :=
  f.column?.getD f.name

structure Entity where
  name : String
  -- The table, where it is not named like the entity.
  table? : Option String := none
  fields : List Field := []
deriving DecidableEq

namespace Entity

def table (e : Entity) : String :=
  e.table?.getD e.name

-- Two descriptions of one name describe the same entity.
def same (a b : Entity) : Bool :=
  a.name == b.name

def find? (e : Entity) (property : String) : Option Field :=
  e.fields.find? (·.name == property)

def key? (e : Entity) : Option Field :=
  e.fields.find? (·.primaryKey)

def repeatedProperty? (e : Entity) : Option String :=
  go [] e.fields
where
  go (seen : List String) : List Field → Option String
    | [] => none
    | f :: fs => if seen.contains f.name then some f.name else go (f.name :: seen) fs

end Entity

end SqlSelect
