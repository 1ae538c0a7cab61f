import SqlSelect.Proofs.Lists
import SqlSelect.Proofs.Outcome
import SqlSelect.Schema.Basic
import SqlSelect.Schema.Resolver

/-! What is looked up in a schema by name is the only thing of that name. -/
namespace SqlSelect

namespace Entity

variable {e : Entity} {f : Field} {property : String}

theorem repeatedProperty?_go_eq_none {seen : List String} {fs : List Field} :
    repeatedProperty?.go seen fs = none ↔
      (fs.map (·.name)).Nodup ∧ ∀ f ∈ fs, f.name ∉ seen := by
  induction fs generalizing seen with
  | nil => simp [repeatedProperty?.go]
  | cons f fs ih =>
    rw [repeatedProperty?.go, List.map_cons, List.nodup_cons, List.forall_mem_cons]
    split
    · next hseen =>
      have hmem : f.name ∈ seen := by simpa using hseen
      simp [hmem]
    · next hseen =>
      have hnew : f.name ∉ seen := by simpa using hseen
      have hlater : (∀ g ∈ fs, g.name ∉ f.name :: seen) ↔
          f.name ∉ fs.map (·.name) ∧ ∀ g ∈ fs, g.name ∉ seen := by
        simp only [List.mem_cons, List.mem_map, not_or, not_exists, not_and, ← forall_and]
      rw [ih, hlater]
      simp only [hnew, not_false_eq_true, true_and]
      tauto

/-- No property is repeated exactly if the names are distinct. -/
theorem repeatedProperty?_eq_none :
    e.repeatedProperty? = none ↔ (e.fields.map (·.name)).Nodup := by
  rw [repeatedProperty?, repeatedProperty?_go_eq_none]
  simp

end Entity

namespace Schema

structure Distinct (s : Schema) : Prop where
  entities : (s.entities.map (·.name)).Nodup
  fields : ∀ e ∈ s.entities, (e.fields.map (·.name)).Nodup

variable {s s' : Schema} {e : Entity} {name : String}

/-- An entity is inserted if its name is new and its properties are distinct. -/
theorem insert_eq_ok :
    s.insert e = .ok s' ↔ (e.fields.map (·.name)).Nodup ∧ e.name ∉ s.entities.map (·.name) ∧
      ⟨s.entities ++ [e]⟩ = s' := by
  have hfind : (s.find? e.name).isSome = true ↔ e.name ∈ s.entities.map (·.name) := by
    simp [find?, List.find?_isSome]
  rw [← Entity.repeatedProperty?_eq_none, ← hfind]
  unfold insert
  cases e.repeatedProperty? with
  | some property => simp
  | none => cases (s.find? e.name).isSome <;> simp

theorem Distinct.insert (h : s.Distinct) (hs : s.insert e = .ok s') : s'.Distinct := by
  obtain ⟨hfields, hnew, rfl⟩ := insert_eq_ok.mp hs
  constructor
  · rw [List.map_append, List.map_singleton]
    exact h.entities.append (List.nodup_singleton _) (by simpa using hnew)
  · intro e' he'
    rcases List.mem_append.mp he' with he' | he'
    · exact h.fields e' he'
    · obtain rfl := List.mem_singleton.mp he'
      exact hfields

end Schema

end SqlSelect
