import SqlSelect.Alias
import SqlSelect.Proofs.Lists
import SqlSelect.Proofs.Outcome

/-! What registrations do to the aliases of a query: names are added at the end, and what was found
before is found again. -/
namespace SqlSelect.AliasRegistry

variable {r r' : AliasRegistry} {e e' : Entity} {name : String}

def registerAll (r : AliasRegistry) (pairs : List (Entity × String)) :
    Except Fault AliasRegistry :=
  pairs.foldlM (fun r p => Prod.snd <$> finished (r.register p.1 p.2)) r

theorem map_snd_finished_register :
    Prod.snd <$> finished (r.register e name) = .ok r' ↔ r.register e name = (.ok (), r') := by
  simp [Unique.exists_iff]

theorem registerAll_singleton :
    r.registerAll [(e, name)] = .ok r' ↔ r.register e name = (.ok (), r') := by
  rw [registerAll, List.foldlM_cons, ← map_snd_finished_register]
  simp

/-- What each registration keeps up holds after all of them. -/
theorem registerAll_induction {I : List (Entity × String) → AliasRegistry → Prop}
    {pairs : List (Entity × String)} (h : r.registerAll pairs = .ok r') (start : I [] r)
    (step : ∀ pairs r e name r', I pairs r → r.register e name = (.ok (), r') →
      I (pairs ++ [(e, name)]) r') : I pairs r' := by
  refine Except.foldlM_induction h start fun pairs p r r' hr hregister => ?_
  exact step pairs r p.1 p.2 r' hr (map_snd_finished_register.mp hregister)

theorem find?_eq_none : r.find? name = none ↔ name ∉ r.bindings.map (·.name) := by
  simp [find?]

/-- An alias is registered if it is an identifier that is free or stands for the entity already;
only a free one adds a binding. -/
theorem register_eq_ok :
    r.register e name = (.ok (), r') ↔ Text.isIdentifier name.toList = true ∧
      ((∃ b, r.find? name = some b ∧ b.entity.same e = true ∧ r = r') ∨
        (r.find? name = none ∧ ⟨r.bindings ++ [⟨name, e⟩]⟩ = r')) := by
  unfold register
  cases Text.isIdentifier name.toList with
  | false => simp
  | true =>
    cases hf : r.find? name with
    | none => simp
    | some b => by_cases hs : b.entity.same e = true <;> simp [hs]

/-- A call that fails changes nothing. -/
theorem register_snd_of_error {f : Fault} (h : (r.register e name).1 = .error f) :
    (r.register e name).2 = r := by
  unfold register at h ⊢
  split
  · rfl
  · next hname =>
    rw [if_neg hname] at h
    cases hf : r.find? name with
    | none =>
      rw [hf] at h
      cases h
    | some b =>
      dsimp only
      split <;> rfl

theorem exists_append_of_register (h : r.register e name = (.ok (), r')) :
    ∃ bs, r'.bindings = r.bindings ++ bs := by
  obtain ⟨-, ⟨_, -, -, rfl⟩ | ⟨-, rfl⟩⟩ := register_eq_ok.mp h
  · exact ⟨[], (List.append_nil _).symm⟩
  · exact ⟨_, rfl⟩

/-- A further registration still adds to what there was at first. -/
theorem exists_append_register {r'' : AliasRegistry} (h : ∃ bs, r'.bindings = r.bindings ++ bs)
    (hr : r'.register e name = (.ok (), r'')) : ∃ bs, r''.bindings = r.bindings ++ bs := by
  obtain ⟨bs, hbs⟩ := h
  obtain ⟨cs, hcs⟩ := exists_append_of_register hr
  exact ⟨bs ++ cs, by rw [hcs, hbs, List.append_assoc]⟩

/-- Registering pairs adds bindings behind those that are there. -/
theorem exists_append_of_registerAll {pairs : List (Entity × String)}
    (h : r.registerAll pairs = .ok r') : ∃ bs, r'.bindings = r.bindings ++ bs :=
  registerAll_induction (I := fun _ r' => ∃ bs, r'.bindings = r.bindings ++ bs) h
    ⟨[], (List.append_nil _).symm⟩ fun _ _ _ _ _ hr hregister =>
      exists_append_register hr hregister

theorem aliasFor_eq_ok :
    r.aliasFor e = .ok name ↔ ∃ b, r.bindings.find? (·.entity.same e) = some b ∧ b.name = name := by
  unfold aliasFor
  cases r.bindings.find? (·.entity.same e) <;> simp

theorem entityFor_eq_ok :
    r.entityFor name = .ok e ↔ ∃ b, r.find? name = some b ∧ b.entity = e := by
  unfold entityFor
  cases r.find? name <;> simp

/-- A reference resolves to a column of the place where it is located. -/
theorem resolve_eq_ok {names : Resolver} {c : ColumnRef} {column : ResolvedColumn} :
    r.resolve names c = .ok column ↔
      r.locate c = .ok (column.qualifier, column.entity, column.property) ∧
        names.columnName column.entity column.property = .ok column.column ∧
        names.dataKind column.entity column.property = .ok column.kind := by
  simp only [resolve, Except.bind_eq_ok, Except.pure_eq_ok]
  constructor
  · rintro ⟨⟨qualifier, e, property⟩, hplace, name, hname, kind, hkind, rfl⟩
    exact ⟨hplace, hname, hkind⟩
  · rintro ⟨hplace, hname, hkind⟩
    exact ⟨_, hplace, _, hname, _, hkind, rfl⟩

/-- An entity keeps its first alias. -/
theorem aliasFor_of_append {bs : List Binding} (hbs : r'.bindings = r.bindings ++ bs)
    (h : r.aliasFor e = .ok name) : r'.aliasFor e = .ok name := by
  obtain ⟨b, hb, rfl⟩ := aliasFor_eq_ok.mp h
  rw [aliasFor_eq_ok, hbs, List.find?_append, hb]
  exact ⟨b, rfl, rfl⟩

theorem entityFor_of_append {bs : List Binding} (hbs : r'.bindings = r.bindings ++ bs)
    (h : r.entityFor name = .ok e) : r'.entityFor name = .ok e := by
  obtain ⟨b, hb, rfl⟩ := entityFor_eq_ok.mp h
  have hb' : r'.find? name = some b := by
    rw [find?] at hb ⊢
    rw [hbs, List.find?_append, hb, Option.some_or]
  exact entityFor_eq_ok.mpr ⟨b, hb', rfl⟩

/-- Later bindings do not move what is located. -/
theorem locate_of_append {bs : List Binding} {c : ColumnRef} {place : String × Entity × String}
    (hbs : r'.bindings = r.bindings ++ bs) (h : r.locate c = .ok place) :
    r'.locate c = .ok place := by
  cases c with
  | property e property =>
    obtain ⟨name, hname, hplace⟩ := Except.bind_eq_ok.mp h
    exact Except.bind_eq_ok.mpr ⟨name, aliasFor_of_append hbs hname, hplace⟩
  | path text =>
    obtain ⟨p, hp, h⟩ := Except.bind_eq_ok.mp h
    obtain ⟨e, he, hplace⟩ := Except.bind_eq_ok.mp h
    refine Except.bind_eq_ok.mpr ⟨p, hp, ?_⟩
    exact Except.bind_eq_ok.mpr ⟨e, entityFor_of_append hbs he, hplace⟩

/-- A column that resolves means the same once more aliases are registered. -/
theorem resolve_of_append {bs : List Binding} {names : Resolver} {c : ColumnRef}
    {column : ResolvedColumn} (hbs : r'.bindings = r.bindings ++ bs)
    (h : r.resolve names c = .ok column) : r'.resolve names c = .ok column := by
  obtain ⟨place, hplace, hcolumn⟩ := Except.bind_eq_ok.mp h
  exact Except.bind_eq_ok.mpr ⟨place, locate_of_append hbs hplace, hcolumn⟩

structure Consistent (r : AliasRegistry) : Prop where
  identifiers : ∀ b ∈ r.bindings, Text.isIdentifier b.name.toList = true
  nodup : (r.bindings.map (·.name)).Nodup

theorem consistent_empty : Consistent {} where
  identifiers := by simp
  nodup := List.nodup_nil

/-- A registration keeps the aliases distinct identifiers. -/
theorem Consistent.register (h : r.Consistent) (hr : r.register e name = (.ok (), r')) :
    r'.Consistent := by
  obtain ⟨hname, ⟨_, -, -, rfl⟩ | ⟨hnone, rfl⟩⟩ := register_eq_ok.mp hr
  · exact h
  · have hfresh := find?_eq_none.mp hnone
    constructor
    · intro b hb
      rcases List.mem_append.mp hb with hb | hb
      · exact h.identifiers b hb
      · obtain rfl := List.mem_singleton.mp hb
        exact hname
    · rw [List.map_append]
      exact h.nodup.append (List.nodup_singleton _) (by simpa using hfresh)

theorem Consistent.registerAll {pairs : List (Entity × String)} (h : r.Consistent)
    (hr : r.registerAll pairs = .ok r') : r'.Consistent :=
  registerAll_induction (I := fun _ r => Consistent r) hr h
    fun _ _ _ _ _ hr hregister => hr.register hregister

/-- The binding of an alias is found by the alias. -/
theorem Consistent.find?_eq_some (h : r.Consistent) {b : Binding} :
    r.find? name = some b ↔ b ∈ r.bindings ∧ b.name = name :=
  find?_name_eq_some h.nodup

/-- An alias leads back to its own binding, since no other has the name. -/
theorem Consistent.entityFor_name (h : r.Consistent) {b : Binding} (hb : b ∈ r.bindings) :
    r.entityFor b.name = .ok b.entity :=
  entityFor_eq_ok.mpr ⟨b, h.find?_eq_some.mpr ⟨hb, rfl⟩, rfl⟩

end SqlSelect.AliasRegistry
