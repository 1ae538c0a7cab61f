import SqlSelect.Proofs.Outcome
import SqlSelect.Proofs.Statement.Printout
import SqlSelect.Proofs.Yielding
import SqlSelect.Query

/-! What a build that succeeds is made of. -/
namespace SqlSelect.Query

open Rendering

variable {q : Query} {b : BuiltQuery}

def written (q : Query) (st : SelectStatement) (parameters : List Parameter) : BuiltQuery :=
  let text := st.text q.options.lineEnding
  ⟨text, parameters, SqlSelect.script q.options parameters text⟩

-- The query is built to `b`, which says the statement `st` and has the parameters of `t`.
structure Builds (q : Query) (b : BuiltQuery) (st : SelectStatement) (t : ParameterTable) :
    Prop where
  kind : q.kind = some .select
  selects : q.columns ≠ []
  named : ∀ e ∈ q.columns, e.isNamelessNull = false
  source : ∃ e, q.source = some e ∧ st.table = q.names.tableName e ∧
    q.aliases.aliasFor e = .ok st.qualifier
  filter : q.compileFilter = .ok (st.filter, t)
  distinct_eq : st.distinct = q.distinct
  columns_eq : st.columns = q.columns
  joins_eq : st.joins = q.joins
  orderBy_eq : st.orderBy = q.orderBy
  built_eq : b = q.written st t.parameters

theorem Builds.parameters_eq {st : SelectStatement} {t : ParameterTable} (h : q.Builds b st t) :
    b.parameters = t.parameters := by
  rw [h.built_eq]
  rfl

/-- The text shows the statement, with the line ending of the options. -/
theorem Builds.shownIn {st : SelectStatement} {t : ParameterTable} (h : q.Builds b st t) :
    st.printout.ShownIn q.options.lineEnding.text b.text := by
  rw [h.built_eq]
  exact st.shownIn_text q.options.lineEnding

def statement (q : Query) (table qualifier : String) (filter : Option (List WhereLine)) :
    SelectStatement :=
  { distinct := q.distinct, columns := q.columns, table, qualifier, joins := q.joins, filter
    orderBy := q.orderBy }

/-- What it takes for a `select` to be built. -/
theorem buildSelect_eq_ok :
    q.buildSelect = .ok b ↔ q.columns ≠ [] ∧ (∀ e ∈ q.columns, e.isNamelessNull = false) ∧
      ∃ e filter t qualifier, q.source = some e ∧ q.compileFilter = .ok (filter, t) ∧
        q.aliases.aliasFor e = .ok qualifier ∧
          q.written (q.statement (q.names.tableName e) qualifier filter) t.parameters = b := by
  cases hs : q.source <;> simp [buildSelect, hs, written, statement]

/-- A query is built exactly if it says some statement. -/
theorem build_eq_ok : q.build = .ok b ↔ ∃ st t, q.Builds b st t := by
  constructor
  · intro h
    unfold build at h
    split at h
    · cases h
    · next hk =>
      obtain ⟨hselects, hnamed, e, filter, t, qualifier, hs, hf, ha, rfl⟩ := buildSelect_eq_ok.mp h
      exact ⟨q.statement (q.names.tableName e) qualifier filter, t,
        ⟨hk, hselects, hnamed, ⟨e, hs, rfl, ha⟩, hf, rfl, rfl, rfl, rfl, rfl⟩⟩
    · cases h
  · rintro ⟨st, t, h⟩
    obtain ⟨e, hs, htable, ha⟩ := h.source
    have hst : q.statement (q.names.tableName e) st.qualifier st.filter = st := by
      rw [statement, ← htable, ← h.distinct_eq, ← h.columns_eq, ← h.joins_eq, ← h.orderBy_eq]
    rw [build, h.kind]
    apply buildSelect_eq_ok.mpr
    refine ⟨h.selects, h.named, e, st.filter, t, st.qualifier, hs, h.filter, ha, ?_⟩
    rw [hst, h.built_eq]

/-- Without a filter there are no lines, and with one there are those that it is compiled to. -/
theorem compileFilter_eq_ok {filter : Option (List WhereLine)} {t : ParameterTable} :
    q.compileFilter = .ok (filter, t) ↔ (q.filter = none ∧ filter = none ∧ t = q.parameters) ∨
      ∃ p lines, q.filter = some p ∧ filter = some lines ∧
        Yields (p.compile q.scope) q.parameters lines t := by
  cases hf : q.filter with
  | none => simp [compileFilter, hf, eq_comm]
  | some p =>
    simp only [compileFilter, hf, Except.bind_eq_ok, Except.pure_eq_ok, Prod.exists,
      finished_eq_ok, Prod.mk.injEq]
    constructor
    · rintro ⟨lines, _, hrun, rfl, rfl⟩
      exact .inr ⟨p, lines, rfl, rfl, hrun⟩
    · rintro (⟨⟨⟩, -⟩ | ⟨_, lines, ⟨⟩, rfl, hrun⟩)
      exact ⟨lines, t, hrun, rfl, rfl⟩

end SqlSelect.Query
