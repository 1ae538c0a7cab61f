import SqlSelect.Fault
import SqlSelect.Text.LetterCase
/-!
How tables and columns are named in the database.
-/

namespace SqlSelect

structure Resolver where
  tableName : Entity → String
  columnName : Entity → String → Except Fault String
  dataKind : Entity → String → Except Fault DataKind
  isPrimaryKey : Entity → String → Except Fault Bool
  -- The property that is the primary key.
  primaryKey : Entity → Except Fault String

def Entity.field (e : Entity) (property : String) : Except Fault Field :=
  match e.find? property with
  | some f => .ok f
  | none => .error (.propertyNotFound e.name property)

namespace Resolver

def declared : Resolver where
  tableName e := e.table
  columnName e property := Field.column <$> e.field property
  dataKind e property := Field.kind <$> e.field property
  isPrimaryKey e property := Field.primaryKey <$> e.field property
  primaryKey e :=
    match e.key? with
    | some f => .ok f.name
    | none => .error (.missingPrimaryKey e.name)

-- Upper-case letters in lower case, each but a first one behind `_`.
def snake (name : String) : String :=
  let word (c : Char) := if Text.isUpper c then '_' :: Text.lower c else [c]
  match name.toList with
  | [] => ""
  | c :: cs => String.ofList ((if Text.isUpper c then Text.lower c else [c]) ++ cs.flatMap word)

-- Tables and columns named by a convention, whatever the entities declare.
def snakeCase : Resolver :=
  { declared with
    tableName := fun e => "tbl_" ++ snake e.name
    columnName := fun e property => (fun _ => snake property) <$> declared.columnName e property }

end Resolver

end SqlSelect
