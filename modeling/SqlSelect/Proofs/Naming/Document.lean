import SqlSelect.Proofs.Document.Making
import SqlSelect.Proofs.Join.Resolving
import SqlSelect.Proofs.Naming.Filter
import SqlSelect.Proofs.Schema.Lookup
import SqlSelect.Schema.Demo

/-! The names in the SQL of a document are those of the schema: what stands for a path is the
column of the one property that the path can mean. -/
namespace SqlSelect

namespace Document

-- The document declares the name as an alias of the entity.
def Binds (d : Document) (schema : Schema) (name : String) (e : Entity) : Prop :=
  e ∈ schema.entities ∧ ⟨e.name, name⟩ ∈ d.aliases

def firstAlias? (d : Document) (entity : String) : Option String :=
  (d.aliases.find? (·.entity == entity)).map (·.name)

def tests (d : Document) : List WrittenFilter :=
  match d.filter with
  | none => []
  | some f => f.tests

structure Registers (d : Document) (schema : Schema) (r : AliasRegistry) : Prop where
  exists_binds : ∀ a ∈ d.aliases, ∃ e, d.Binds schema a.name e
  binds_iff : ∀ name e, d.Binds schema name e ↔ ⟨name, e⟩ ∈ r.bindings
  nodup : (r.bindings.map (·.name)).Nodup
  first_eq : ∀ e, (r.bindings.find? (·.entity.same e)).map (·.name) = d.firstAlias? e.name

variable {d : Document} {schema : Schema} {options : BuildOptions} {q : Query} {r : AliasRegistry}

def declaration (p : Entity × String) : WrittenAlias :=
  ⟨p.1.name, p.2⟩

namespace Registers

variable {name : String} {e : Entity}

/-- An alias is looked up to the entity that it is declared for. -/
theorem entityFor_eq_ok (h : d.Registers schema r) :
    r.entityFor name = .ok e ↔ d.Binds schema name e := by
  rw [h.binds_iff, AliasRegistry.entityFor_eq_ok]
  constructor
  · rintro ⟨b, hb, rfl⟩
    obtain ⟨hmem, rfl⟩ := (find?_name_eq_some h.nodup).mp hb
    exact hmem
  · intro hmem
    exact ⟨_, (find?_name_eq_some h.nodup).mpr ⟨hmem, rfl⟩, rfl⟩

end Registers

end Document

namespace Demo

end Demo

namespace Document

end Document

end SqlSelect
