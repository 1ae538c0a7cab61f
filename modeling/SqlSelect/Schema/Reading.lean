import SqlSelect.Schema.Basic
import SqlSelect.Toml.Decode
import SqlSelect.Toml.Reader
/-!
Schemas written in TOML: one `[[entity]]` for each entity, one `[[entity.field]]` for each of its
properties.
-/

namespace SqlSelect

def DataKind.ofToml? (t : Toml) : Option DataKind := do
  ofName? (← t.choice?)

def Field.ofToml? (t : Toml) : Option Field :=
  match t.structure? ["name", "column", "kind", "primary_key"] with
  | some [name, column, kind, primaryKey] => do
    let name ← Toml.required? Toml.text? name
    let column? ← Toml.defaulted? none (some <$> ·.text?) column
    let kind ← Toml.required? DataKind.ofToml? kind
    let primaryKey ← Toml.defaulted? false Toml.flag? primaryKey
    pure { name, kind, column?, primaryKey }
  | _ => none

def Entity.ofToml? (t : Toml) : Option Entity :=
  match t.structure? ["name", "table", "field"] with
  | some [name, table, fields] => do
    let name ← Toml.required? Toml.text? name
    let table? ← Toml.defaulted? none (some <$> ·.text?) table
    let fields ← Toml.defaulted? [] (Toml.list? Field.ofToml?) fields
    pure { name, table?, fields }
  | _ => none

namespace Schema

def entitiesOfToml? (text : String) : Option (List Entity) := do
  let members ← Toml.parse? text
  Toml.defaulted? [] (Toml.list? Entity.ofToml?) (Toml.member? "entity" members)

-- Reads a schema. The entities are checked in order, once the whole text is read.
def parse (text : String) : Except Fault Schema :=
  match entitiesOfToml? text with
  | some es => ofEntities es
  | none => .error (.schema .malformed)

end Schema

end SqlSelect
