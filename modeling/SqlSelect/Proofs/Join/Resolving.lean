import SqlSelect.Join
import SqlSelect.Proofs.Alias.Registry
import SqlSelect.Proofs.Path.Reading

/-! What a join that resolves consists of. -/
namespace SqlSelect.JoinSpec

variable {aliases : AliasRegistry} {names : Resolver} {spec : JoinSpec} {kind : JoinKind}
  {clause : JoinClause}

def Resolves (aliases : AliasRegistry) (names : Resolver) (pair : ColumnRef × ColumnRef)
    (c : JoinCondition) : Prop :=
  aliases.resolve names pair.1 = .ok c.left ∧ aliases.resolve names pair.2 = .ok c.right

theorem resolveConditions_eq_ok {pairs : List (ColumnRef × ColumnRef)}
    {conditions : List JoinCondition} :
    resolveConditions aliases names pairs = .ok conditions ↔
      List.Forall₂ (Resolves aliases names) pairs conditions := by
  induction pairs generalizing conditions with
  | nil => simp [resolveConditions, eq_comm]
  | cons pair pairs ih =>
    obtain ⟨l, r⟩ := pair
    simp only [resolveConditions, Except.bind_eq_ok, Except.pure_eq_ok, ih,
      List.forall₂_cons_left_iff]
    constructor
    · rintro ⟨left, hl, right, hr, others, hothers, rfl⟩
      exact ⟨⟨left, right⟩, others, ⟨hl, hr⟩, hothers, rfl⟩
    · rintro ⟨⟨left, right⟩, others, ⟨hl, hr⟩, hothers, rfl⟩
      exact ⟨left, hl, right, hr, others, hothers, rfl⟩

/-- The joined table is the right-hand side of the first equality. -/
theorem resolve_eq_ok :
    spec.resolve kind aliases names = .ok clause ↔
      ∃ pairs first rest, spec.pairs names = .ok pairs ∧
        List.Forall₂ (Resolves aliases names) pairs (first :: rest) ∧
        ⟨kind, names.tableName first.right.entity, first.right.qualifier, first :: rest⟩ =
          clause := by
  simp only [resolve, Except.bind_eq_ok, resolveConditions_eq_ok]
  constructor
  · rintro ⟨pairs, hpairs, _ | ⟨first, rest⟩, hconditions, h⟩
    · simp at h
    · exact ⟨pairs, first, rest, hpairs, hconditions, Except.pure_eq_ok.mp h⟩
  · rintro ⟨pairs, first, rest, hpairs, hconditions, rfl⟩
    exact ⟨pairs, hpairs, first :: rest, hconditions, rfl⟩

/-- A join that resolves is the same once more aliases are registered. -/
theorem resolve_of_append {aliases' : AliasRegistry} {bs : List Binding}
    (hbs : aliases'.bindings = aliases.bindings ++ bs)
    (h : spec.resolve kind aliases names = .ok clause) :
    spec.resolve kind aliases' names = .ok clause := by
  obtain ⟨pairs, first, rest, hpairs, hconditions, rfl⟩ := resolve_eq_ok.mp h
  refine resolve_eq_ok.mpr ⟨pairs, first, rest, hpairs, ?_, rfl⟩
  apply hconditions.imp
  rintro pair condition ⟨hleft, hright⟩
  exact ⟨AliasRegistry.resolve_of_append hbs hleft, AliasRegistry.resolve_of_append hbs hright⟩

theorem pairs_text_eq_ok {conditions : String} {pairs : List (ColumnRef × ColumnRef)} :
    (text conditions).pairs names = .ok pairs ↔ ∃ es, PathEquality.parseAll conditions = .ok es ∧
      es.map (fun e => (.path e.left.text, .path e.right.text)) = pairs := by
  rw [JoinSpec.pairs]
  cases PathEquality.parseAll conditions <;> simp

/-- A key join is one pair: the foreign key, and the primary key of its target. -/
theorem pairs_key_eq_ok {source target : Entity} {foreignKey : String}
    {pairs : List (ColumnRef × ColumnRef)} :
    (key source foreignKey target).pairs names = .ok pairs ↔ ∃ k, names.primaryKey target = .ok k ∧
      [(.property source foreignKey, .property target k)] = pairs := by
  simp [JoinSpec.pairs]

end SqlSelect.JoinSpec
