import SqlSelect.Proofs.Join.Resolving
import SqlSelect.Proofs.Lists
import SqlSelect.Proofs.Predicate.Chain
import SqlSelect.Schema.Demo

/-! Predicates as joins: those that only conjoin equalities of columns are joins, whatever their
nesting, and any other is refused for the first of its parts that is neither. -/
namespace SqlSelect

def Condition.columnPair? : Condition → Option (ColumnRef × ColumnRef)
  | compare (.column l) .eq (.column r) => some (l, r)
  | _ => none

namespace Predicate

def equality (l r : ColumnRef) : Predicate :=
  condition (.compare (.column l) .eq (.column r))

-- The predicate and all its parts, each before its own parts and those from left to right.
def nodes : Predicate → List Predicate
  | condition c => [condition c]
  | logical op p q => logical op p q :: (p.nodes ++ q.nodes)

-- Joins are made of conjunctions and of equalities of two columns.
def fits : Predicate → Bool
  | condition c => c.columnPair?.isSome
  | logical op _ _ => op == .and

def columns (p : Predicate) : List ColumnRef :=
  (p.conditions.filterMap Condition.columnPair?).flatMap fun pair => [pair.1, pair.2]

variable {p q : Predicate}

theorem mem_nodes_of_mem_conditions {c : Condition} (h : c ∈ p.conditions) :
    condition c ∈ p.nodes := by
  induction p with
  | condition d =>
    rw [conditions, List.mem_singleton] at h
    rw [h]
    exact List.mem_singleton.mpr rfl
  | logical op p q ihp ihq =>
    rw [nodes]
    rcases List.mem_append.mp h with h | h
    · exact List.mem_cons_of_mem _ (List.mem_append_left _ (ihp h))
    · exact List.mem_cons_of_mem _ (List.mem_append_right _ (ihq h))

/-- A condition can be joined by exactly if it equates two columns. -/
theorem columnPairs_condition (c : Condition) :
    (condition c).columnPairs = match c.columnPair? with
      | some pair => .ok [pair]
      | none => .error (.invalidJoin (.notAnEquality (condition c))) := by
  unfold columnPairs Condition.columnPair?
  split <;> simp_all

theorem columnPairs_and {xs ys : List (ColumnRef × ColumnRef)} (hp : p.columnPairs = .ok xs)
    (hq : q.columnPairs = .ok ys) : (p.and q).columnPairs = .ok (xs ++ ys) := by
  rw [Predicate.and, columnPairs, hp, hq]
  rfl

/-- A conjunction of equalities gives its pairs from left to right. -/
theorem columnPairs_of_fits (h : ∀ q ∈ p.nodes, q.fits = true) :
    p.columnPairs = .ok (p.conditions.filterMap Condition.columnPair?) := by
  induction p with
  | condition c =>
    have hc : c.columnPair?.isSome = true := h _ (List.mem_singleton.mpr rfl)
    obtain ⟨pair, hpair⟩ := Option.isSome_iff_exists.mp hc
    rw [columnPairs_condition, conditions, hpair, List.filterMap_cons_some hpair,
      List.filterMap_nil]
  | logical op p q ihp ihq =>
    simp only [nodes, List.forall_mem_cons, List.forall_mem_append] at h
    obtain ⟨hop, hp, hq⟩ := h
    obtain rfl : op = .and := by simpa [fits] using hop
    rw [conditions, List.filterMap_append]
    exact columnPairs_and (ihp hp) (ihq hq)

theorem isSome_columnPair?_of_fits (h : ∀ q ∈ p.nodes, q.fits = true) :
    ∀ c ∈ p.conditions, c.columnPair?.isSome = true :=
  fun _ hc => h _ (mem_nodes_of_mem_conditions hc)

/-- The fault names the first part that does not fit, also where later ones do not fit either. -/
theorem columnPairs_of_find? (h : p.nodes.find? (!·.fits) = some q) :
    p.columnPairs = .error (.invalidJoin (.notAnEquality q)) := by
  induction p with
  | condition c =>
    obtain ⟨hnone, rfl⟩ := by simpa [nodes, fits] using h
    rw [columnPairs_condition, hnone]
  | logical op l r ihl ihr =>
    cases op with
    | or =>
      obtain rfl : logical .or l r = q := by simpa [nodes, fits] using h
      rfl
    | and =>
      have hparts : (l.nodes ++ r.nodes).find? (!·.fits) = some q := by
        simpa [nodes, fits] using h
      rw [List.find?_append] at hparts
      rw [columnPairs]
      cases hl : l.nodes.find? (!·.fits) with
      | some q' =>
        obtain rfl : q' = q := by simpa [hl] using hparts
        rw [ihl hl]
        rfl
      | none =>
        have hfits : ∀ q ∈ l.nodes, q.fits = true := by simpa using hl
        rw [columnPairs_of_fits hfits, ihr (by simpa [hl] using hparts)]
        rfl

/-- What gives pairs is a conjunction of equalities, down to every node. -/
theorem fits_of_columnPairs {pairs : List (ColumnRef × ColumnRef)} (h : p.columnPairs = .ok pairs) :
    ∀ q ∈ p.nodes, q.fits = true := by
  cases hfirst : p.nodes.find? (!·.fits) with
  | none => simpa using hfirst
  | some q => cases h.symm.trans (columnPairs_of_find? hfirst)

end Predicate

namespace JoinSpec

variable {aliases : AliasRegistry} {names : Resolver} {spec spec' : JoinSpec} {kind : JoinKind}
  {p q : Predicate} {clause : JoinClause}

theorem resolve_congr (h : spec.pairs names = spec'.pairs names) :
    spec.resolve kind aliases names = spec'.resolve kind aliases names := by
  rw [resolve, resolve, h]

-- The condition is the equality of columns, looked up.
def Equates (aliases : AliasRegistry) (names : Resolver) (c : Condition) (j : JoinCondition) :
    Prop :=
  ∃ pair, c.columnPair? = some pair ∧ Resolves aliases names pair j

/-- A predicate becomes a clause exactly if it is a conjunction of equalities whose columns resolve.
The joined table is the one on the right of the first. -/
theorem resolve_predicate_eq_ok :
    (predicate p).resolve kind aliases names = .ok clause ↔
      (∀ q ∈ p.nodes, q.fits = true) ∧ ∃ first rest,
        List.Forall₂ (Equates aliases names) p.conditions (first :: rest) ∧
        ⟨kind, names.tableName first.right.entity, first.right.qualifier, first :: rest⟩ =
          clause := by
  rw [resolve_eq_ok]
  constructor
  · rintro ⟨pairs, first, rest, hpairs, hconditions, rfl⟩
    have hfits := Predicate.fits_of_columnPairs hpairs
    have hpair := Predicate.isSome_columnPair?_of_fits hfits
    cases hpairs.symm.trans (Predicate.columnPairs_of_fits hfits)
    exact ⟨hfits, first, rest, (forall₂_filterMap_left hpair).mp hconditions, rfl⟩
  · rintro ⟨hfits, first, rest, hconditions, rfl⟩
    have hpair := Predicate.isSome_columnPair?_of_fits hfits
    exact ⟨_, first, rest, Predicate.columnPairs_of_fits hfits,
      (forall₂_filterMap_left hpair).mpr hconditions, rfl⟩

theorem exists_equates (hfits : ∀ q ∈ p.nodes, q.fits = true)
    (hcolumns : ∀ c ∈ p.columns, ∃ r, aliases.resolve names c = .ok r) :
    ∃ conditions, List.Forall₂ (Equates aliases names) p.conditions conditions := by
  refine exists_forall₂ fun c hc => ?_
  obtain ⟨pair, hpair⟩ :=
    Option.isSome_iff_exists.mp (Predicate.isSome_columnPair?_of_fits hfits c hc)
  have hmem : ∀ column ∈ [pair.1, pair.2], column ∈ p.columns := by
    intro column hcolumn
    exact List.mem_flatMap.mpr ⟨pair, List.mem_filterMap.mpr ⟨c, hc, hpair⟩, hcolumn⟩
  obtain ⟨left, hleft⟩ := hcolumns _ (hmem pair.1 (by simp))
  obtain ⟨right, hright⟩ := hcolumns _ (hmem pair.2 (by simp))
  exact ⟨⟨left, right⟩, pair, hpair, hleft, hright⟩

/-- The shape of a predicate and its columns decide whether it becomes a clause. -/
theorem exists_resolve_predicate_iff :
    (∃ clause, (predicate p).resolve kind aliases names = .ok clause) ↔
      (∀ q ∈ p.nodes, q.fits = true) ∧
        ∀ c ∈ p.columns, ∃ r, aliases.resolve names c = .ok r := by
  simp only [resolve_predicate_eq_ok]
  constructor
  · rintro ⟨clause, hfits, first, rest, hconditions, -⟩
    refine ⟨hfits, fun column hcolumn => ?_⟩
    obtain ⟨pair, hpair, hmem⟩ := List.mem_flatMap.mp hcolumn
    obtain ⟨c, hc, hpair⟩ := List.mem_filterMap.mp hpair
    have hequates : ∀ c ∈ p.conditions, ∃ j, Equates aliases names c j :=
      forall_of_forall₂ hconditions.flip fun j _ h => ⟨j, h⟩
    obtain ⟨j, pair', hpair', hleft, hright⟩ := hequates c hc
    obtain rfl := Option.some.inj (hpair.symm.trans hpair')
    rcases List.mem_pair.mp hmem with rfl | rfl
    · exact ⟨j.left, hleft⟩
    · exact ⟨j.right, hright⟩
  · rintro ⟨hfits, hcolumns⟩
    obtain ⟨_ | ⟨first, rest⟩, hconditions⟩ := exists_equates hfits hcolumns
    · exact absurd (List.forall₂_nil_right_iff.mp hconditions) p.conditions_ne_nil
    · exact ⟨_, hfits, first, rest, hconditions, rfl⟩

end JoinSpec

/-- The first equality has a line for itself, and the others begin with `and`. -/
theorem JoinClause.lines_tail (j : JoinClause) :
    j.lines.tail = j.conditions.mapIdx fun i c =>
      "\t\t\t" ++ (if i = 0 then "" else "and ") ++ c.text := by
  unfold lines
  cases j.conditions with
  | nil => rfl
  | cons c cs =>
    rw [List.mapIdx_cons]
    refine congrArg₂ List.cons rfl (List.ext_getElem (by simp) fun i _ _ => ?_)
    rw [List.getElem_map, List.getElem_mapIdx]
    rfl

/-- Just the conjunctions of equalities whose columns are all known are joins. Only the order of the
equalities matters, and each is a line of the join. Any other predicate is refused for the first
part that is neither a conjunction nor an equality, whatever its columns. -/
theorem JoinSpec.resolve_conjunction (p : Predicate) (kind : JoinKind) (aliases : AliasRegistry)
    (names : Resolver) :
    ((∃ clause, (predicate p).resolve kind aliases names = .ok clause) ↔
      (∀ q ∈ p.nodes, q.fits = true) ∧
        ∀ c ∈ p.columns, ∃ r, aliases.resolve names c = .ok r) ∧
    (∀ clause, (predicate p).resolve kind aliases names = .ok clause →
      List.Forall₂ (Equates aliases names) p.conditions clause.conditions ∧
        clause.lines.tail.length = p.conditions.length ∧
        clause.lines.tail = clause.conditions.mapIdx fun i c =>
          "\t\t\t" ++ (if i = 0 then "" else "and ") ++ c.text) ∧
    (∀ q, (∀ r ∈ p.nodes, r.fits = true) → (∀ r ∈ q.nodes, r.fits = true) →
      q.conditions = p.conditions →
        (predicate q).resolve kind aliases names = (predicate p).resolve kind aliases names) ∧
    ∀ q, p.nodes.find? (!·.fits) = some q →
      (predicate p).resolve kind aliases names = .error (.invalidJoin (.notAnEquality q)) := by
  refine ⟨exists_resolve_predicate_iff, ?_, ?_, ?_⟩
  · intro clause h
    obtain ⟨-, first, rest, hconditions, rfl⟩ := resolve_predicate_eq_ok.mp h
    have hlines := JoinClause.lines_tail
      ⟨kind, names.tableName first.right.entity, first.right.qualifier, first :: rest⟩
    refine ⟨hconditions, ?_, hlines⟩
    rw [hlines, List.length_mapIdx, hconditions.length_eq]
  · intro q hp hq hconditions
    apply resolve_congr
    rw [pairs, pairs, Predicate.columnPairs_of_fits hp, Predicate.columnPairs_of_fits hq,
      hconditions]
  · intro q h
    exact Except.bind_eq_error.mpr (.inl (Predicate.columnPairs_of_find? h))

/-- Three equalities are one join in either nesting; a disjunction among them is what is told, not
the comparison in it and not the unknown alias before it. -/
theorem JoinSpec.resolve_conjunction_nested :
    (∃ clause,
      (predicate (.and (.equality (.path "s.ClassRoomId") (.path "c.Id"))
        (.and (.equality (.path "s.Id") (.path "c.Grade"))
          (.equality (.property Demo.student "Id") (.path "c.Id"))))).resolve .left
        ⟨[⟨"s", Demo.student⟩, ⟨"c", Demo.classRoom⟩]⟩ .declared = .ok clause ∧
      (predicate (.and (.and (.equality (.path "s.ClassRoomId") (.path "c.Id"))
        (.equality (.path "s.Id") (.path "c.Grade")))
          (.equality (.property Demo.student "Id") (.path "c.Id")))).resolve .left
        ⟨[⟨"s", Demo.student⟩, ⟨"c", Demo.classRoom⟩]⟩ .declared = .ok clause ∧
      clause.lines.tail.length = 3) ∧
    (predicate (.and (.equality (.path "x.Id") (.path "c.Id"))
      (.or (.condition (.compare (.column (.path "s.Id")) .gt (.column (.path "c.Id"))))
        (.equality (.path "s.Id") (.path "c.Id"))))).resolve .left
      ⟨[⟨"s", Demo.student⟩, ⟨"c", Demo.classRoom⟩]⟩ .declared =
        .error (.invalidJoin (.notAnEquality
          (.or (.condition (.compare (.column (.path "s.Id")) .gt (.column (.path "c.Id"))))
            (.equality (.path "s.Id") (.path "c.Id"))))) := by
  constructor
  · obtain ⟨hexists, hclause, hnesting, -⟩ := resolve_conjunction
      (.and (.equality (.path "s.ClassRoomId") (.path "c.Id"))
        (.and (.equality (.path "s.Id") (.path "c.Grade"))
          (.equality (.property Demo.student "Id") (.path "c.Id")))) .left
      ⟨[⟨"s", Demo.student⟩, ⟨"c", Demo.classRoom⟩]⟩ .declared
    have hknown : ∀ c ∈ [ColumnRef.path "s.ClassRoomId", .path "c.Id", .path "s.Id",
        .path "c.Grade", .property Demo.student "Id", .path "c.Id"],
        ∃ r, AliasRegistry.resolve ⟨[⟨"s", Demo.student⟩, ⟨"c", Demo.classRoom⟩]⟩ .declared c =
          .ok r := by
      simp only [List.forall_mem_cons]
      exact ⟨⟨_, rfl⟩, ⟨_, rfl⟩, ⟨_, rfl⟩, ⟨_, rfl⟩, ⟨_, rfl⟩, ⟨_, rfl⟩, by simp⟩
    obtain ⟨clause, h⟩ := hexists.mpr ⟨by decide, hknown⟩
    exact ⟨clause, h, (hnesting _ (by decide) (by decide) rfl).trans h, (hclause clause h).2.1⟩
  · obtain ⟨-, -, -, hrefused⟩ := resolve_conjunction
      (.and (.equality (.path "x.Id") (.path "c.Id"))
        (.or (.condition (.compare (.column (.path "s.Id")) .gt (.column (.path "c.Id"))))
          (.equality (.path "s.Id") (.path "c.Id")))) .left
      ⟨[⟨"s", Demo.student⟩, ⟨"c", Demo.classRoom⟩]⟩ .declared
    exact hrefused _ rfl

end SqlSelect
