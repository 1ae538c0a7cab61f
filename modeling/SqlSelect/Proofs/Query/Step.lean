import SqlSelect.Proofs.Query.Call

/-! The ways in which a call can change a query. -/
namespace SqlSelect.Query

inductive Step (q : Query) : Query → Prop
  | configured (options : BuildOptions) (names : Resolver) (distinct : Bool)
      (joins : List JoinClause) (filter : Option Predicate) (orderBy : List ResolvedColumn) :
      Step q { q with options, names, distinct, joins, filter, orderBy }
  | registered {pairs : List (Entity × String)} {aliases : AliasRegistry}
      (h : q.aliases.registerAll pairs = .ok aliases) : Step q { q with aliases }
  | selected (columns : List SelectEntry) (parameters : ParameterTable)
      (hkind : q.kind = none ∨ q.kind = some .select) (hnamed : q.columnsNamed = false) :
      Step q { q with kind := some .select, columns, parameters }
  | labelled {labels : List String} {columns : List SelectEntry}
      (hlength : labels.length = q.columns.length)
      (h : labelColumns q.columns labels = .ok columns) :
      Step q { q with columns, columnsNamed := true }
  | sourced {e : Entity} (h : ∃ name, q.aliases.aliasFor e = .ok name) :
      Step q { q with source := some e }
  | begun {kind : StatementKind} (e : Entity) (hother : kind ≠ .select)
      (hkind : q.kind = none ∨ q.kind = some kind) :
      Step q { q with kind := some kind, source := some e }

variable {q q' : Query}

/-- A successful call is one of these steps. -/
theorem step_of_apply {call : Call} (h : q.apply call = .ok q') : q.Step q' := by
  cases call with
  | withOptions options =>
    cases h
    exact .configured options q.names q.distinct q.joins q.filter q.orderBy
  | withResolver names =>
    cases h
    exact .configured q.options names q.distinct q.joins q.filter q.orderBy
  | tableAliases pairs =>
    obtain ⟨-, aliases, haliases, rfl⟩ := tableAliases_eq_ok.mp h
    exact .registered haliases
  | tableAlias e name =>
    obtain ⟨aliases, haliases, rfl⟩ := tableAlias_eq_ok.mp h
    exact .registered (AliasRegistry.registerAll_singleton.mpr haliases)
  | distinct =>
    cases h
    exact .configured q.options q.names true q.joins q.filter q.orderBy
  | select items =>
    obtain ⟨hkind, hnamed, hitems⟩ := select_eq_ok.mp h
    obtain ⟨columns, parameters, -, rfl⟩ := gives_of_selectItems hitems
    exact .selected _ parameters hkind hnamed
  | columnAliases labels =>
    obtain ⟨hlength, columns, hcolumns, rfl⟩ := columnAliases_eq_ok.mp h
    exact .labelled hlength hcolumns
  | selectFrom e =>
    obtain ⟨hname, rfl⟩ := selectFrom_eq_ok.mp h
    exact .sourced hname
  | join kind spec =>
    obtain ⟨clause, -, rfl⟩ := join_eq_ok.mp h
    exact .configured q.options q.names q.distinct _ q.filter q.orderBy
  | filter p =>
    cases h
    exact .configured q.options q.names q.distinct q.joins (some p) q.orderBy
  | orderBy columns =>
    obtain ⟨resolved, -, rfl⟩ := orderBy_of_orderColumns h
    exact .configured q.options q.names q.distinct q.joins q.filter _
  | insertInto e =>
    obtain ⟨hkind, rfl⟩ := startStatement_eq_ok.mp h
    exact .begun e (by simp) hkind
  | update e =>
    obtain ⟨hkind, rfl⟩ := startStatement_eq_ok.mp h
    exact .begun e (by simp) hkind
  | deleteFrom e =>
    obtain ⟨hkind, rfl⟩ := startStatement_eq_ok.mp h
    exact .begun e (by simp) hkind

/-- What every call keeps up holds after a run. -/
theorem run_induction {P : Query → Prop} {calls : List Call} (h : q.run calls = .ok q')
    (start : P q) (step : ∀ q q', P q → q.Step q' → P q') : P q' :=
  Except.foldlM_induction (I := fun _ q => P q) h start
    fun _ _ q q' hq hcall => step q q' hq (step_of_apply hcall)

end SqlSelect.Query
