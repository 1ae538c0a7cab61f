import SqlSelect.Proofs.Query.Build
import SqlSelect.Proofs.Query.Call
import SqlSelect.Proofs.Script.Recovery

/-! The script of a query that is built. Its parameters are all bound, by the select list and the
filter. -/
namespace SqlSelect.Query

open ParameterTable

variable {q q' : Query} {b : BuiltQuery}

theorem reaches_of_selectItem {item : SelectItem} (h : q.selectItem item = .ok q') :
    Reaches q.parameters q'.parameters := by
  cases item with
  | column c =>
    obtain ⟨column, -, rfl⟩ := selectItem_column_eq_ok.mp h
    exact .refl
  | captured v =>
    obtain ⟨name, parameters, hbind, rfl⟩ := selectItem_captured_eq_ok.mp h
    exact .single (.captured hbind)
  | null =>
    obtain rfl : q.addColumn .null = q' := by simpa [selectItem] using h
    exact .refl

/-- A call does nothing to the parameters but bind variables. -/
theorem reaches_of_apply {call : Call} (h : q.apply call = .ok q') :
    Reaches q.parameters q'.parameters := by
  by_cases hcall : ∃ items, call = .select items
  · obtain ⟨items, rfl⟩ := hcall
    obtain ⟨-, -, hitems⟩ := select_eq_ok.mp h
    exact Except.foldlM_induction (I := fun _ r => Reaches q.parameters r.parameters) hitems .refl
      fun _ _ _ _ hr hitem => hr.trans (reaches_of_selectItem hitem)
  · push Not at hcall
    rw [(frame_of_apply h hcall).1]

theorem reaches_of_run {calls : List Call} (h : q.run calls = .ok q') :
    Reaches q.parameters q'.parameters :=
  Except.foldlM_induction (I := fun _ r => Reaches q.parameters r.parameters) h .refl
    fun _ _ _ _ hr hcall => hr.trans (reaches_of_apply hcall)

theorem reaches_of_compileFilter {filter : Option (List WhereLine)} {t : ParameterTable}
    (h : q.compileFilter = .ok (filter, t)) : Reaches q.parameters t := by
  obtain ⟨-, -, rfl⟩ | ⟨p, lines, -, -, hcompile⟩ := compileFilter_eq_ok.mp h
  · exact .refl
  · have hreach := reaches_of_composed (p.composed_compile (s := q.scope)) q.parameters
    rwa [hcompile] at hreach

/-- A statement begins with `select`, as no declaration does. -/
theorem select_prefix_text (st : SelectStatement) (ending : LineEnding) :
    "select".toList <+: (st.text ending).toList := by
  rw [SelectStatement.text, SelectStatement.lines, List.cons_append, Script.toList_terminate_cons]
  exact List.prefix_append _ _

/-- From the script of a built query, its parameters and its text are read back. -/
theorem read_script_of_build {calls : List Call} (hrun : run {} calls = .ok q)
    (hbuild : q.build = .ok b) :
    Script.read b.script.toList =
      some (b.parameters.map (·.inScript q.options), b.text.toList) := by
  obtain ⟨st, t, h⟩ := build_eq_ok.mp hbuild
  have hempty : ParameterTable.Legible {} := fun p hp => nomatch hp
  have ht : t.Legible :=
    hempty.reaches ((reaches_of_run hrun).trans (reaches_of_compileFilter h.filter))
  rw [h.built_eq]
  exact Script.read_script q.options ht (select_prefix_text st _)

end SqlSelect.Query
