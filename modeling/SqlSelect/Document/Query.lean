import SqlSelect.Document.Filter
import SqlSelect.Query
import SqlSelect.Schema.Basic
/-!
The query that a document describes, over the entities of a schema.
-/

namespace SqlSelect

def WrittenSelect.toItem : WrittenSelect → Except Fault SelectItem
  | column path => .ok (.column (.path path))
  | captured name value => do
    let v ← Value.ofJson value
    pure (.captured ⟨name, v⟩)
  | null => .ok .null

def WrittenAlias.toPair (schema : Schema) (a : WrittenAlias) : Except Fault (Entity × String) := do
  let e ← schema.get a.entity
  pure (e, a.name)

def WrittenJoin.addTo (schema : Schema) (q : Query) : WrittenJoin → Except Fault Query
  | key kind source target foreignKey => do
    let s ← schema.get source
    let t ← schema.get target
    q.join kind (.key s foreignKey t)
  | text kind conditions => q.join kind (.text conditions)

namespace Document

def toQuery (d : Document) (schema : Schema) (options : BuildOptions) : Except Fault Query := do
  -- The filter is read first, so that its faults win over those of the other parts.
  let predicate ← d.predicate
  let pairs ← d.aliases.mapM (·.toPair schema)
  let q ← (Query.withOptions {} options).tableAliases pairs
  let q := if d.distinct then q.makeDistinct else q
  let items ← d.select.mapM (·.toItem)
  let q ← q.select items
  let q ← if d.columnAliases.isEmpty then pure q else q.columnAliases d.columnAliases
  let e ← schema.get d.source
  let q ← q.selectFrom e
  let q ← d.joins.foldlM (fun q j => j.addTo schema q) q
  let q := match predicate with
    | some p => q.setFilter p
    | none => q
  q.orderColumns (d.orderBy.map .path)

def build (d : Document) (schema : Schema) (options : BuildOptions) : Except Fault BuiltQuery := do
  let q ← d.toQuery schema options
  q.build

end Document

end SqlSelect
