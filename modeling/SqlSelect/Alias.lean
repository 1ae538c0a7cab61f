import SqlSelect.Path
import SqlSelect.Schema.Resolver
/-!
The table aliases of a query, and the columns that are named through them.
-/

namespace SqlSelect

structure Binding where
  name : String
  entity : Entity

structure AliasRegistry where
  bindings : List Binding := []

structure ResolvedColumn where
  -- The alias of the table.
  qualifier : String
  entity : Entity
  property : String
  column : String
  kind : DataKind

def ResolvedColumn.qualified (c : ResolvedColumn) : String :=
  c.qualifier ++ "." ++ c.column

namespace AliasRegistry

def find? (r : AliasRegistry) (name : String) : Option Binding :=
  r.bindings.find? (·.name == name)

-- A pair that is registered already changes nothing.
def register (r : AliasRegistry) (e : Entity) (name : String) : Except Fault Unit × AliasRegistry :=
  if !Text.isIdentifier name.toList then (.error (.invalidAlias name), r)
  else match r.find? name with
    | some b =>
      if b.entity.same e then (.ok (), r) else (.error (.aliasConflict name b.entity.name), r)
    | none => (.ok (), ⟨r.bindings ++ [⟨name, e⟩]⟩)

def aliasFor (r : AliasRegistry) (e : Entity) : Except Fault String :=
  match r.bindings.find? (·.entity.same e) with
  | some b => .ok b.name
  | none => .error (.unregisteredEntity e.name)

def entityFor (r : AliasRegistry) (name : String) : Except Fault Entity :=
  match r.find? name with
  | some b => .ok b.entity
  | none => .error (.unknownAlias name)

def locate (r : AliasRegistry) : ColumnRef → Except Fault (String × Entity × String)
  | .property e property => do
    let qualifier ← r.aliasFor e
    pure (qualifier, e, property)
  | .path text => do
    let p ← (ColumnPath.parse text).mapError .path
    let e ← r.entityFor p.qualifier
    pure (p.qualifier, e, p.property)

def resolve (r : AliasRegistry) (names : Resolver) (c : ColumnRef) :
    Except Fault ResolvedColumn := do
  let (qualifier, e, property) ← r.locate c
  let column ← names.columnName e property
  let kind ← names.dataKind e property
  pure ⟨qualifier, e, property, column, kind⟩

end AliasRegistry

end SqlSelect
