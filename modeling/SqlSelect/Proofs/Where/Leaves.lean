import SqlSelect.Proofs.Failing
import SqlSelect.Proofs.Where.Pruning

/-! A filter is compiled condition by condition. Its groups and connectives have no part in what is
rendered and bound, nor in where and how it fails. -/
namespace SqlSelect

open Rendering WhereLine

namespace LogicalTree

mutual

theorem conditions_linesAt : ∀ (d : Nat) (t : LogicalTree String),
    ((t.linesAt d).filterMap condition?).map (·.2) = t.leaves
  | d, leaf c text => rfl
  | d, group c ts => by
    have h := conditions_linesOfAll (d + 1) ts
    cases c <;> simpa [linesAt, leaves, List.filterMap_cons, condition?] using h

theorem conditions_linesOfAll : ∀ (d : Nat) (ts : List (LogicalTree String)),
    ((linesOfAll d ts).filterMap condition?).map (·.2) = leavesAll ts
  | d, [] => rfl
  | d, t :: ts => by
    rw [linesOfAll, List.filterMap_append, List.map_append, conditions_linesAt d t,
      conditions_linesOfAll d ts]
    rfl

end

/-- The conditions of a block are the leaves of its tree, in order. -/
theorem conditions_lines (t : LogicalTree String) :
    (t.lines.filterMap condition?).map (·.2) = t.leaves := by
  cases t with
  | leaf c text => rfl
  | group c ts => exact conditions_linesOfAll 1 ts

end LogicalTree

def WhereLine.texts (lines : List WhereLine) : List String :=
  (lines.filterMap condition?).map (·.2)

/-- The cleanup leaves the conditions that apply, in order. -/
theorem WhereLine.texts_stripAlwaysTrue (lines : List WhereLine) :
    texts (stripAlwaysTrue lines).1 = (texts lines).filter (· ≠ alwaysTrue) := by
  rw [stripAlwaysTrue_fst, texts, texts, filterMap_condition?_swept, List.filter_map]
  rfl

-- The conditions, each on its own, one after the other over one table, up to the first that fails.
def renderEach (s : Scope) : List Condition → ParameterTable →
    Except Fault (List String) × ParameterTable
  | [], t => (.ok [], t)
  | c :: cs, t =>
    match ((Predicate.condition c).renderCondition s).run t with
    | (.error f, u) => (.error f, u)
    | (.ok text, u) => ((renderEach s cs u).1.map (text :: ·), (renderEach s cs u).2)

theorem run_mapM_render (s : Scope) (cs : List Condition) (t : ParameterTable) :
    (cs.mapM (Condition.render s)).run t = renderEach s cs t := by
  induction cs generalizing t with
  | nil => rfl
  | cons c cs ih =>
    have hrest (text : String) (u : ParameterTable) :
        (cs.mapM (Condition.render s) >>= fun rest => pure (text :: rest)).run u =
          ((renderEach s cs u).1.map (text :: ·), (renderEach s cs u).2) := by
      rw [← map_eq_pure_bind, run_map, ih]
    rw [List.mapM_cons, run_bind, renderEach, Predicate.renderCondition]
    simp only [hrest]
    rcases (c.render s).run t with ⟨f | text, u⟩ <;> rfl

namespace Predicate

variable {s : Scope} {t u : ParameterTable}

/-- The lines of a filter hold the texts of its conditions in order. -/
theorem texts_compile (s : Scope) (p : Predicate) :
    texts <$> p.compile s = p.conditions.mapM (Condition.render s) := by
  have hlines : texts ∘ LogicalTree.lines = LogicalTree.leaves :=
    funext LogicalTree.conditions_lines
  calc
    texts <$> p.compile s = (texts ∘ LogicalTree.lines) <$> p.grouping.traverse (·.render s) := by
      simp [compile, Function.comp_def]
    _ = p.grouping.leaves.mapM (Condition.render s) := by rw [hlines, LogicalTree.leaves_traverse]
    _ = p.conditions.mapM (Condition.render s) := by rw [grouping, leaves_groupingBehind]

/-- A filter is compiled by rendering its conditions from left to right. -/
theorem yields_texts {p : Predicate} {ts : List String} :
    Yields (p.conditions.mapM (Condition.render s)) t ts u ↔
      ∃ lines, Yields (p.compile s) t lines u ∧ ts = texts lines := by
  rw [← texts_compile, yields_map]

/-- Compiling a filter ends as rendering its conditions one by one does. -/
theorem run_compile (s : Scope) (p : Predicate) (t : ParameterTable) :
    (((p.compile s).run t).1.map texts, ((p.compile s).run t).2) = renderEach s p.conditions t := by
  rw [← run_map, texts_compile, run_mapM_render]

/-- A filter ends like its conditions rendered one after the other: with their texts in its lines,
or with the fault of the first one that fails, and with the same parameters. Other groups and other
connectives make no difference. That a filter is taken for one condition is never its fault; only a
resolver could say so of a column. -/
theorem compile_eq_renderEach (s : Scope) (p : Predicate) (t : ParameterTable) :
    (((p.compile s).run t).1.map texts, ((p.compile s).run t).2) = renderEach s p.conditions t ∧
      (∀ q : Predicate, q.conditions = p.conditions →
        ((q.compile s).run t).1.map texts = ((p.compile s).run t).1.map texts ∧
          ((q.compile s).run t).2 = ((p.compile s).run t).2) ∧
      (((p.compile s).run t).1 = .error (.usage .logicalAsCondition) →
        ∃ e property, s.names.columnName e property = .error (.usage .logicalAsCondition) ∨
          s.names.dataKind e property = .error (.usage .logicalAsCondition)) := by
  refine ⟨run_compile s p t, ?_, ?_⟩
  · intro q hq
    have hsame := run_compile s q t
    rw [hq, ← run_compile s p t] at hsame
    exact Prod.mk.inj hsame
  · intro h
    have hraises := p.failsOnly_compile t (.usage .logicalAsCondition) _ (Prod.ext h rfl)
    -- No condition raises this fault, so the resolver does.
    rcases hraises with hcondition | hresolver
    · cases hcondition
    · exact hresolver

end Predicate

namespace Demo

open Condition Operand

def called : Predicate :=
  .condition (compare (column (.property student "FirstName")) .eq (literal (.text "Ann")))

def related : Predicate :=
  .condition (compare (column (.property student "LastName")) .ne (captured ⟨"kin", .text "Lee"⟩))

-- Nothing is ordered with null.
def aboveNull : Predicate :=
  .condition (compare (column (.property student "Id")) .gt (literal .null))

def failingLast : Predicate :=
  .or (.and called related) aboveNull

def failingInside : Predicate :=
  .and called (.or related aboveNull)

end Demo

theorem Predicate.compile_eq_renderEach_failingInside :
    Demo.failingInside.conditions = Demo.failingLast.conditions ∧
      ((Demo.failingInside.compile Demo.studentScope).run {}).1.map texts =
        .error (.usage (.nullOrdered .gt "s.student_id")) ∧
      ((Demo.failingInside.compile Demo.studentScope).run {}).2.parameters =
        [⟨"@param_value_1", "Ann", .nvarchar⟩, ⟨"@param_kin", "Lee", .nvarchar⟩] := by
  obtain ⟨heach, hgrouped, -⟩ := compile_eq_renderEach Demo.studentScope Demo.failingLast {}
  have hconditions : Demo.failingInside.conditions = Demo.failingLast.conditions := rfl
  obtain ⟨hresult, htable⟩ := hgrouped Demo.failingInside hconditions
  obtain ⟨hfault, hbound⟩ := Prod.mk.inj heach
  refine ⟨hconditions, ?_, ?_⟩
  · rw [hresult, hfault]
    rfl
  · rw [htable, hbound]
    rfl

end SqlSelect
