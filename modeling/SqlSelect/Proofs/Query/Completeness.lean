import SqlSelect.Proofs.Failing
import SqlSelect.Proofs.Query.Build
import SqlSelect.Proofs.Query.Step
import SqlSelect.Schema.Demo

/-! When a query can be built. Whatever calls made it, nothing is missing but what the calls left
out: the entity that is selected from has an alias, and null columns that were labelled once keep a
label. -/
namespace SqlSelect

open Rendering

namespace Query

variable {q q' : Query}

structure Consistent (q : Query) : Prop where
  -- Statements of other kinds name entities without aliases.
  source : ∀ e, q.source = some e → q.kind = none ∨ q.kind = some .select →
    ∃ name, q.aliases.aliasFor e = .ok name
  labels : q.columnsNamed = true → ∀ e ∈ q.columns, e.isNamelessNull = false

theorem consistent_empty : Consistent {} where
  source := by simp
  labels := by simp

/-- No column is null and nameless once all have their labels. -/
theorem labelColumns_named {entries columns : List SelectEntry} {labels : List String}
    (hlength : labels.length = entries.length) (h : labelColumns entries labels = .ok columns) :
    ∀ e ∈ columns, e.isNamelessNull = false := by
  induction entries generalizing labels columns with
  | nil =>
    obtain rfl : [] = columns := by simpa [labelColumns] using h
    simp
  | cons e es ih =>
    cases labels with
    | nil => simp at hlength
    | cons label labels =>
      obtain ⟨hnull, rest, hrest, rfl⟩ := labelColumns_cons_eq_ok.mp h
      have hlater := ih (by simpa using hlength) hrest
      refine List.forall_mem_cons.mpr ⟨?_, hlater⟩
      by_cases hlabel : label = ""
      · simp [SelectEntry.isNamelessNull, hnull hlabel]
      · simp [SelectEntry.isNamelessNull, hlabel]

/-- Every call keeps these conditions. -/
theorem Consistent.step (h : q.Consistent) (hstep : q.Step q') : q'.Consistent := by
  cases hstep with
  | configured => exact ⟨h.source, h.labels⟩
  | registered haliases =>
    refine ⟨fun e he hkind => ?_, h.labels⟩
    obtain ⟨bs, hbs⟩ := AliasRegistry.exists_append_of_registerAll haliases
    obtain ⟨name, hname⟩ := h.source e he hkind
    exact ⟨name, AliasRegistry.aliasFor_of_append hbs hname⟩
  | selected columns parameters hkind hnamed =>
    refine ⟨fun e he _ => h.source e he hkind, fun hnamed' => ?_⟩
    exact absurd (hnamed.symm.trans hnamed') Bool.false_ne_true
  | labelled hlength hcolumns => exact ⟨h.source, fun _ => labelColumns_named hlength hcolumns⟩
  | sourced hname =>
    refine ⟨fun e he _ => ?_, h.labels⟩
    cases he
    exact hname
  | begun e hother hkind =>
    refine ⟨fun e' _ hselect => ?_, h.labels⟩
    rcases hselect with hselect | hselect <;> cases hselect
    exact absurd rfl hother

/-- A query stays of its kind. -/
theorem kind_of_step {kind : StatementKind} (h : q.kind = some kind) (hstep : q.Step q') :
    q'.kind = some kind := by
  cases hstep with
  | selected columns parameters hkind hnamed =>
    rcases hkind with hkind | hkind <;> cases h.symm.trans hkind
    rfl
  | begun e hother hkind =>
    rcases hkind with hkind | hkind <;> cases h.symm.trans hkind
    rfl
  | _ => exact h

theorem columnsNamed_of_step (h : q.columnsNamed = true) (hstep : q.Step q') :
    q'.columnsNamed = true := by
  cases hstep with
  | labelled => rfl
  | _ => exact h

theorem columnsNamed_of_run {calls : List Call} (h : q.run calls = .ok q')
    (hcalls : ∃ labels, Call.columnAliases labels ∈ calls) : q'.columnsNamed = true := by
  obtain ⟨labels, hmem⟩ := hcalls
  have hnamed : Call.columnAliases labels ∈ calls → q'.columnsNamed = true := by
    apply Except.foldlM_induction
      (I := fun calls q => Call.columnAliases labels ∈ calls → q.columnsNamed = true) h
    · simp
    · intro calls call q₁ q₂ hq₁ hcall hmem
      rcases List.mem_append.mp hmem with hmem | hmem
      · exact columnsNamed_of_step (hq₁ hmem) (step_of_apply hcall)
      · obtain rfl := List.mem_singleton.mp hmem
        obtain ⟨-, columns, -, rfl⟩ := columnAliases_eq_ok.mp hcall
        rfl
  exact hnamed hmem

/-- The parts that a build needs are those that a query can lack. -/
theorem Consistent.builds_iff (h : q.Consistent) :
    (∃ b, q.build = .ok b) ↔ q.kind = some .select ∧ q.columns ≠ [] ∧
      (∀ e ∈ q.columns, e.isNamelessNull = false) ∧ (∃ e, q.source = some e) ∧
      ∃ filter t, q.compileFilter = .ok (filter, t) := by
  constructor
  · rintro ⟨b, hb⟩
    obtain ⟨st, t, hst⟩ := build_eq_ok.mp hb
    obtain ⟨e, he, -, -⟩ := hst.source
    exact ⟨hst.kind, hst.selects, hst.named, ⟨e, he⟩, st.filter, t, hst.filter⟩
  · rintro ⟨hkind, hselects, hnamed, ⟨e, he⟩, filter, t, hfilter⟩
    obtain ⟨name, hname⟩ := h.source e he (.inr hkind)
    rw [build, hkind]
    exact ⟨_, buildSelect_eq_ok.mpr ⟨hselects, hnamed, e, filter, t, name, he, hfilter, hname, rfl⟩⟩

theorem exists_compileFilter_iff :
    (∃ filter t, q.compileFilter = .ok (filter, t)) ↔
      ∀ p, q.filter = some p → ∃ lines t, Yields (p.compile q.scope) q.parameters lines t := by
  constructor
  · rintro ⟨filter, t, h⟩ p hp
    rcases compileFilter_eq_ok.mp h with ⟨hnone, -⟩ | ⟨p', lines, hp', -, hlines⟩
    · cases hp.symm.trans hnone
    · cases hp.symm.trans hp'
      exact ⟨lines, t, hlines⟩
  · intro h
    cases hp : q.filter with
    | none => exact ⟨none, q.parameters, compileFilter_eq_ok.mpr (.inl ⟨hp, rfl, rfl⟩)⟩
    | some p =>
      obtain ⟨lines, t, hlines⟩ := h p hp
      exact ⟨some lines, t, compileFilter_eq_ok.mpr (.inr ⟨p, lines, hp, rfl, hlines⟩)⟩

/-- The faults of a filter are those of conditions. -/
theorem raises_of_compileFilter {f : Fault} (h : q.compileFilter = .error f) :
    q.scope.Raises f := by
  unfold compileFilter at h
  split at h
  · cases h
  · next p _ =>
    simp only [Except.bind_eq_error, finished_eq_error, Except.pure_ne_error, and_false,
      exists_false, or_false] at h
    exact p.failsOnly_compile _ _ _ (Prod.ext h rfl)

/-- Where null columns have labels, only a resolver can say that one has none. -/
theorem raises_of_build (hnamed : ∀ e ∈ q.columns, e.isNamelessNull = false)
    (h : q.build = .error (.usage .nullColumnWithoutAlias)) :
    q.scope.Raises (.usage .nullColumnWithoutAlias) := by
  have hnone : q.columns.any (·.isNamelessNull) = false := by simpa using hnamed
  unfold build at h
  split at h
  · cases h
  · cases hs : q.source with
    | none => simp [buildSelect, hs, hnone] at h
    | some e =>
      have hfault : q.columns ≠ [] ∧
          (q.compileFilter = .error (.usage .nullColumnWithoutAlias) ∨
            ∃ filter t, q.compileFilter = .ok (filter, t) ∧
              q.aliases.aliasFor e = .error (.usage .nullColumnWithoutAlias)) := by
        simpa [buildSelect, hs, hnone] using h
      obtain ⟨-, hfilter | ⟨_, _, -, halias⟩⟩ := hfault
      · exact raises_of_compileFilter hfilter
      · exact AliasRegistry.raises_aliasFor halias
  · cases h

end Query

namespace Demo

-- Labels are given twice, and an alias of the entity comes before the one that is used.
def labelledTwice : List Call :=
  [.tableAliases [(student, "s"), (student, "t")],
   .selectFrom student,
   .select [.column (.path "t.Id"), .null, .captured ⟨"school", .text "Oxford"⟩],
   .columnAliases ["Id", "Remarks", ""],
   .columnAliases ["", "Notes", "School"],
   .filter (.condition (.compare (.column (.path "t.Id")) .gt (.literal (.int 3))))]

theorem exists_build_labelledTwice :
    ∃ q b, Query.run {} labelledTwice = .ok q ∧ q.build = .ok b ∧
      b.parameters = [⟨"@param_school", "Oxford", .nvarchar⟩] :=
  Query.exists_build (by decide +kernel)

end Demo

namespace Query

/-- A query is built exactly if columns of a selection from some entity are selected, null columns
have labels, and the filter compiles. The entity then has an alias; the kind of the statement is
settled once; and null columns that were given labels have them for good. -/
theorem exists_build_iff (calls : List Call) (q : Query) (hrun : run {} calls = .ok q) :
    ((∃ b, q.build = .ok b) ↔
      q.kind = some .select ∧ q.columns ≠ [] ∧
        (∀ e ∈ q.columns, e.column.isNull = true → ∃ label, e.label = some label) ∧
        (∃ e, q.source = some e) ∧
        ∀ p, q.filter = some p → ∃ lines t, Yields (p.compile q.scope) q.parameters lines t) ∧
    (q.kind = some .select → ∀ e, q.source = some e → ∃ name, q.aliases.aliasFor e = .ok name) ∧
    (∀ kind, q.kind = some kind → ∀ later q', q.run later = .ok q' → q'.kind = some kind) ∧
    ((∃ labels, Call.columnAliases labels ∈ calls) →
      (∀ e ∈ q.columns, e.column.isNull = true → ∃ label, e.label = some label) ∧
      (q.build = .error (.usage .nullColumnWithoutAlias) →
        ∃ e property, q.names.columnName e property = .error (.usage .nullColumnWithoutAlias) ∨
          q.names.dataKind e property = .error (.usage .nullColumnWithoutAlias))) := by
  have hq : q.Consistent := run_induction hrun consistent_empty fun _ _ => Consistent.step
  have hlabels : (∀ e ∈ q.columns, e.isNamelessNull = false) ↔
      ∀ e ∈ q.columns, e.column.isNull = true → ∃ label, e.label = some label := by
    simp [SelectEntry.isNamelessNull, Option.isSome_iff_exists, ← Option.not_isSome]
  refine ⟨?_, fun hkind e he => hq.source e he (.inr hkind), ?_, fun hcalls => ?_⟩
  · rw [hq.builds_iff, hlabels, exists_compileFilter_iff]
  · intro kind hkind later q' hlater
    exact run_induction hlater hkind fun _ _ => kind_of_step
  · have hnamed := hq.labels (columnsNamed_of_run hrun hcalls)
    refine ⟨hlabels.mp hnamed, fun hbuild => ?_⟩
    -- The program itself raises this fault only in the place that the labels rule out.
    rcases raises_of_build hnamed hbuild with hown | hresolver
    · cases hown
    · exact hresolver

theorem exists_build_iff_labelledTwice :
    ∃ q b, run {} Demo.labelledTwice = .ok q ∧ q.build = .ok b ∧ q.kind = some .select ∧
      (∃ e name, q.source = some e ∧ q.aliases.aliasFor e = .ok name) ∧
      ∀ e ∈ q.columns, e.column.isNull = true → ∃ label, e.label = some label := by
  obtain ⟨q, b, hrun, hbuild, -⟩ := Demo.exists_build_labelledTwice
  obtain ⟨hbuilt, halias, -, hlabels⟩ := exists_build_iff _ q hrun
  obtain ⟨hkind, -, -, ⟨e, he⟩, -⟩ := hbuilt.mp ⟨b, hbuild⟩
  obtain ⟨name, hname⟩ := halias hkind e he
  refine ⟨q, b, hrun, hbuild, hkind, ⟨e, name, he, hname⟩, ?_⟩
  exact (hlabels ⟨["Id", "Remarks", ""], by simp [Demo.labelledTwice]⟩).1

end Query

end SqlSelect
