import SqlSelect.Proofs.Alias.Registration
import SqlSelect.Proofs.Path.Reading

/-! A column named by its entity and property, and the same column named by a path. The one is found
by the first alias of the entity, the other by the alias in the path. -/
namespace SqlSelect

/-- The text has gaps around the path. -/
theorem ColumnPath.writtenIn_of_gaps {p : ColumnPath} (hp : p.Named) {before after : List Char}
    (hgaps : ∀ c ∈ before ++ after, Path.isGap c = true) :
    p.WrittenIn (String.ofList before ++ p.text ++ String.ofList after) := by
  refine ⟨hp, before, after, ?_, hgaps⟩
  simp only [String.toList_append, String.toList_ofList, List.append_assoc]

namespace AliasRegistry

variable {r : AliasRegistry} {names : Resolver} {c d : ColumnRef}

/-- References to one place resolve alike, to a column or with a fault. -/
theorem resolve_congr (h : r.locate c = r.locate d) : r.resolve names c = r.resolve names d := by
  rw [resolve, resolve, h]

/-- A property is located through the first binding of its entity. -/
theorem locate_property {e : Entity} {property : String} {b : Binding}
    (hb : r.bindings.find? (·.entity.same e) = some b) :
    r.locate (.property e property) = .ok (b.name, e, property) :=
  Except.bind_eq_ok.mpr ⟨b.name, aliasFor_eq_ok.mpr ⟨b, hb, rfl⟩, rfl⟩

/-- A path through a bound alias is located at the entity of the binding, whatever gaps are around
it. -/
theorem Consistent.locate_path (h : r.Consistent) {b : Binding} (hb : b ∈ r.bindings)
    {property text : String} (hwritten : ColumnPath.WrittenIn ⟨b.name, property⟩ text) :
    r.locate (.path text) = .ok (b.name, b.entity, property) := by
  have hparse := ColumnPath.parse_eq_ok.mpr hwritten
  refine Except.bind_eq_ok.mpr ⟨_, Except.mapError_eq_ok.mpr hparse, ?_⟩
  exact Except.bind_eq_ok.mpr ⟨b.entity, h.entityFor_name hb, rfl⟩

/-- Where the first binding of an entity has this very description, a property of the entity and the
path through the alias, with blanks, tabs and line breaks around it, are one place. So they resolve
alike: to the same column, or with the same fault. -/
theorem resolve_property_eq_path (calls : List (Entity × String)) (names : Resolver) (e : Entity)
    (b : Binding) (property : String) (before after : List Char)
    (hfirst : (attempts {} calls).bindings.find? (·.entity.same e) = some b) (hb : b.entity = e)
    (hproperty : Text.isIdentifier property.toList = true)
    (hgaps : ∀ c ∈ before ++ after, Path.isGap c = true) :
    (attempts {} calls).aliasFor e = .ok b.name ∧
      (attempts {} calls).locate (.property e property) = .ok (b.name, e, property) ∧
      (attempts {} calls).resolve names (.property e property) =
        (attempts {} calls).resolve names
          (.path (String.ofList before ++ (b.name ++ "." ++ property) ++ String.ofList after)) := by
  have h : (attempts {} calls).Consistent := consistent_empty.attempts calls
  have hmem : b ∈ (attempts {} calls).bindings := List.mem_of_find?_eq_some hfirst
  have hnamed : ColumnPath.Named ⟨b.name, property⟩ := ⟨h.identifiers b hmem, hproperty⟩
  have htyped : (attempts {} calls).locate (.property e property) = .ok (b.name, e, property) :=
    locate_property hfirst
  -- The path finds this binding by its name, since no other binding has that name.
  have hpath := h.locate_path hmem (ColumnPath.writtenIn_of_gaps hnamed hgaps)
  rw [hb] at hpath
  refine ⟨aliasFor_eq_ok.mpr ⟨b, hfirst, rfl⟩, htyped, ?_⟩
  exact resolve_congr (htyped.trans hpath.symm)

/-- A tab, a blank and a line break are around the path. -/
theorem resolve_property_eq_path_gaps :
    (attempts {} Demo.crossedAliases).resolve Resolver.declared
        (.property Demo.student "FirstName") =
      (attempts {} Demo.crossedAliases).resolve Resolver.declared (.path "\t s.FirstName\r\n") ∧
    ((attempts {} Demo.crossedAliases).resolve Resolver.declared
        (.path "\t s.FirstName\r\n")).toOption.map (·.qualified) = some "s.first_name" := by
  have htext : String.ofList ['\t', ' '] ++ ("s" ++ "." ++ "FirstName") ++
      String.ofList ['\r', '\n'] = "\t s.FirstName\r\n" := by
    decide
  have hgaps : ∀ c ∈ ['\t', ' '] ++ ['\r', '\n'], Path.isGap c = true := by simp [Path.isGap]
  obtain ⟨-, -, hsame⟩ := resolve_property_eq_path Demo.crossedAliases Resolver.declared
    Demo.student ⟨"s", Demo.student⟩ "FirstName" _ _ rfl rfl (by decide) hgaps
  rw [htext] at hsame
  exact ⟨hsame, by decide +kernel⟩

end AliasRegistry

end SqlSelect
