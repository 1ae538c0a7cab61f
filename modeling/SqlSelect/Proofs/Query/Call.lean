import SqlSelect.Proofs.Alias.Registry
import SqlSelect.Proofs.Parameter.Binding
import SqlSelect.Query

/-! The calls that make a query, and what it is after each of them. -/
namespace SqlSelect

inductive Call where
  | withOptions (options : BuildOptions)
  | withResolver (names : Resolver)
  | tableAliases (pairs : List (Entity × String))
  | tableAlias (e : Entity) (name : String)
  | distinct
  | select (items : List SelectItem)
  | columnAliases (labels : List String)
  | selectFrom (e : Entity)
  | join (kind : JoinKind) (spec : JoinSpec)
  | filter (p : Predicate)
  | orderBy (columns : List ColumnRef)
  | insertInto (e : Entity)
  | update (e : Entity)
  | deleteFrom (e : Entity)

namespace Query

def apply (q : Query) : Call → Except Fault Query
  | .withOptions options => .ok (q.withOptions options)
  | .withResolver names => .ok (q.withResolver names)
  | .tableAliases pairs => q.tableAliases pairs
  | .tableAlias e name => q.tableAlias e name
  | .distinct => .ok q.makeDistinct
  | .select items => q.select items
  | .columnAliases labels => q.columnAliases labels
  | .selectFrom e => q.selectFrom e
  | .join kind spec => q.join kind spec
  | .filter p => .ok (q.setFilter p)
  | .orderBy columns => q.orderColumns columns
  | .insertInto e => q.startStatement .insert e
  | .update e => q.startStatement .update e
  | .deleteFrom e => q.startStatement .delete e

def run (q : Query) (calls : List Call) : Except Fault Query :=
  calls.foldlM apply q

variable {q q' : Query}

theorem tableAlias_eq_ok {e : Entity} {name : String} :
    q.tableAlias e name = .ok q' ↔
      ∃ aliases, q.aliases.register e name = (.ok (), aliases) ∧ { q with aliases } = q' := by
  simp [tableAlias, Unique.exists_iff]

/-- Registering pairs changes nothing but the aliases. -/
theorem registerAll_eq_map (pairs : List (Entity × String)) :
    q.registerAll pairs = (fun aliases => { q with aliases }) <$> q.aliases.registerAll pairs := by
  induction pairs generalizing q with
  | nil => rfl
  | cons p pairs ih =>
    rw [registerAll, AliasRegistry.registerAll, List.foldlM_cons, tableAlias]
    cases hregister : finished (q.aliases.register p.1 p.2) with
    | error f => rfl
    | ok registered => exact ih (q := { q with aliases := registered.2 })

theorem selectItems_eq_foldlM (items : List SelectItem) :
    q.selectItems items = items.foldlM selectItem q := by
  induction items generalizing q with
  | nil => rfl
  | cons item items ih => simp only [selectItems, List.foldlM_cons, ih]

/-- There must be an alias to register. -/
theorem tableAliases_eq_ok {pairs : List (Entity × String)} :
    q.tableAliases pairs = .ok q' ↔ pairs ≠ [] ∧
      ∃ aliases, q.aliases.registerAll pairs = .ok aliases ∧ { q with aliases } = q' := by
  cases pairs with
  | nil => simp [tableAliases]
  | cons p pairs => simp [tableAliases, registerAll_eq_map]

/-- A query can be of a kind if it is of this one or of none. -/
theorem ofKind_eq_ok {kind : StatementKind} :
    q.ofKind kind = .ok q' ↔
      (q.kind = none ∨ q.kind = some kind) ∧ { q with kind := some kind } = q' := by
  unfold ofKind
  split
  · next hk => simp [hk]
  · next current hk =>
    by_cases hc : current = kind
    · subst hc
      have hq : { q with kind := some current } = q := by
        rw [← hk]
      simp [hk, hq]
    · simp [hk, hc]

/-- Columns are selected in a `select`, and as long as they have no labels. -/
theorem select_eq_ok {items : List SelectItem} :
    q.select items = .ok q' ↔ (q.kind = none ∨ q.kind = some .select) ∧ q.columnsNamed = false ∧
      items.foldlM selectItem { q with kind := some .select } = .ok q' := by
  simp only [select, selectItems_eq_foldlM, Except.bind_eq_ok, ofKind_eq_ok]
  constructor
  · rintro ⟨_, ⟨hk, rfl⟩, h⟩
    have h' : q.columnsNamed = false ∧
        items.foldlM selectItem { q with kind := some .select } = .ok q' := by simpa using h
    exact ⟨hk, h'⟩
  · rintro ⟨hk, hnamed, h⟩
    exact ⟨_, ⟨hk, rfl⟩, by simpa [hnamed] using h⟩

@[simp] theorem parameters_addColumn (q : Query) (column : SelectColumn) :
    (q.addColumn column).parameters = q.parameters := rfl

@[simp] theorem columns_addColumn (q : Query) (column : SelectColumn) :
    (q.addColumn column).columns = q.columns ++ [⟨column, none⟩] := rfl

theorem selectItem_column_eq_ok {c : ColumnRef} :
    q.selectItem (.column c) = .ok q' ↔
      ∃ column, q.aliases.resolve q.names c = .ok column ∧ q.addColumn (.column column) = q' := by
  simp [selectItem]

theorem selectItem_captured_eq_ok {v : Variable} :
    q.selectItem (.captured v) = .ok q' ↔
      ∃ name parameters, q.parameters.bindCaptured v = (.ok name, parameters) ∧
        { q with parameters }.addColumn (.parameter name) = q' := by
  simp [selectItem]

inductive Gives (aliases : AliasRegistry) (names : Resolver) : SelectItem → SelectColumn → Prop
  | column {c : ColumnRef} {column : ResolvedColumn} (h : aliases.resolve names c = .ok column) :
      Gives aliases names (.column c) (.column column)
  | captured (v : Variable) :
      Gives aliases names (.captured v) (.parameter (ParameterTable.variablePrefix ++ v.name))
  | null : Gives aliases names .null .null

/-- An item adds one column, and perhaps a parameter. -/
theorem gives_of_selectItem {item : SelectItem} (h : q.selectItem item = .ok q') :
    ∃ column parameters, Gives q.aliases q.names item column ∧
      { q with columns := q.columns ++ [⟨column, none⟩], parameters } = q' := by
  cases item with
  | column c =>
    obtain ⟨column, hcolumn, rfl⟩ := selectItem_column_eq_ok.mp h
    exact ⟨.column column, q.parameters, .column hcolumn, rfl⟩
  | captured v =>
    obtain ⟨name, parameters, hbind, rfl⟩ := selectItem_captured_eq_ok.mp h
    obtain ⟨-, _, _, -, -, rfl, -⟩ := ParameterTable.bindCaptured_eq_ok.mp hbind
    exact ⟨_, parameters, .captured v, rfl⟩
  | null =>
    obtain rfl : q.addColumn .null = q' := by simpa [selectItem] using h
    exact ⟨.null, q.parameters, .null, rfl⟩

/-- A selection adds its columns in order, without labels. -/
theorem gives_of_selectItems {items : List SelectItem} (h : items.foldlM selectItem q = .ok q') :
    ∃ columns parameters, List.Forall₂ (Gives q.aliases q.names) items columns ∧
      { q with columns := q.columns ++ columns.map (⟨·, none⟩), parameters } = q' := by
  induction items generalizing q with
  | nil =>
    obtain rfl := Except.pure_eq_ok.mp h
    exact ⟨[], q.parameters, .nil, by simp⟩
  | cons item items ih =>
    rw [List.foldlM_cons, Except.bind_eq_ok] at h
    obtain ⟨q₁, hitem, hitems⟩ := h
    obtain ⟨column, _, hcolumn, rfl⟩ := gives_of_selectItem hitem
    obtain ⟨columns, parameters, hcolumns, rfl⟩ := ih hitems
    exact ⟨column :: columns, parameters, .cons hcolumn hcolumns, by simp⟩

/-- There are as many labels as columns. -/
theorem columnAliases_eq_ok {labels : List String} :
    q.columnAliases labels = .ok q' ↔ labels.length = q.columns.length ∧
      ∃ columns, labelColumns q.columns labels = .ok columns ∧
        { q with columns, columnsNamed := true } = q' := by
  simp [columnAliases]

theorem labelColumns_cons_eq_ok {e : SelectEntry} {es columns : List SelectEntry} {label : String}
    {labels : List String} :
    labelColumns (e :: es) (label :: labels) = .ok columns ↔
      (label = "" → e.column.isNull = false) ∧ ∃ rest, labelColumns es labels = .ok rest ∧
        { e with label := if label = "" then none else some label } :: rest = columns := by
  simp [labelColumns]

/-- Labels leave the columns as they are. -/
theorem map_column_labelColumns {entries columns : List SelectEntry} {labels : List String}
    (h : labelColumns entries labels = .ok columns) :
    columns.map (·.column) = entries.map (·.column) := by
  induction entries generalizing labels columns with
  | nil =>
    obtain rfl : [] = columns := by simpa [labelColumns] using h
    rfl
  | cons e es ih =>
    cases labels with
    | nil =>
      obtain rfl : e :: es = columns := by simpa [labelColumns] using h
      rfl
    | cons label labels =>
      obtain ⟨-, rest, hrest, rfl⟩ := labelColumns_cons_eq_ok.mp h
      rw [List.map_cons, List.map_cons, ih hrest]

theorem selectFrom_eq_ok {e : Entity} :
    q.selectFrom e = .ok q' ↔
      (∃ name, q.aliases.aliasFor e = .ok name) ∧ { q with source := some e } = q' := by
  simp [selectFrom]

/-- A join adds its clause to the others. -/
theorem join_eq_ok {kind : JoinKind} {spec : JoinSpec} :
    q.join kind spec = .ok q' ↔ ∃ clause, spec.resolve kind q.aliases q.names = .ok clause ∧
      { q with joins := q.joins ++ [clause] } = q' := by
  simp [join]

theorem startStatement_eq_ok {kind : StatementKind} {e : Entity} :
    q.startStatement kind e = .ok q' ↔ (q.kind = none ∨ q.kind = some kind) ∧
      { q with kind := some kind, source := some e } = q' := by
  simp only [startStatement, Except.bind_eq_ok, Except.pure_eq_ok, ofKind_eq_ok]
  constructor
  · rintro ⟨_, ⟨hk, rfl⟩, rfl⟩
    exact ⟨hk, rfl⟩
  · rintro ⟨hk, rfl⟩
    exact ⟨_, ⟨hk, rfl⟩, rfl⟩

/-- A column to order by must resolve and be selected. -/
theorem orderColumns_cons_eq_ok {c : ColumnRef} {cs : List ColumnRef} :
    q.orderColumns (c :: cs) = .ok q' ↔
      ∃ column, q.aliases.resolve q.names c = .ok column ∧ q.isSelected column = true ∧
        { q with orderBy := q.orderBy ++ [column] }.orderColumns cs = .ok q' := by
  simp [orderColumns]

/-- The columns are resolved, found among those that are selected, and added in order. -/
theorem selected_of_orderColumns {columns : List ColumnRef} (h : q.orderColumns columns = .ok q') :
    ∃ resolved, List.Forall₂ (fun c column => q.aliases.resolve q.names c = .ok column ∧
      q.isSelected column = true) columns resolved ∧
        { q with orderBy := q.orderBy ++ resolved } = q' := by
  induction columns generalizing q with
  | nil =>
    obtain rfl : q = q' := by simpa [orderColumns] using h
    exact ⟨[], .nil, by rw [List.append_nil]⟩
  | cons c cs ih =>
    obtain ⟨column, hcolumn, hselected, h⟩ := orderColumns_cons_eq_ok.mp h
    obtain ⟨resolved, hresolved, rfl⟩ := ih h
    exact ⟨column :: resolved, .cons ⟨hcolumn, hselected⟩ hresolved, by rw [List.append_cons]⟩

/-- The order goes on with what the references resolve to. -/
theorem orderBy_of_orderColumns {columns : List ColumnRef} (h : q.orderColumns columns = .ok q') :
    ∃ resolved, List.Forall₂ (fun c column => q.aliases.resolve q.names c = .ok column)
      columns resolved ∧ { q with orderBy := q.orderBy ++ resolved } = q' := by
  obtain ⟨resolved, hresolved, hq⟩ := selected_of_orderColumns h
  exact ⟨resolved, hresolved.imp fun _ _ hc => hc.1, hq⟩

/-- Only a selection binds parameters or adds columns. -/
theorem frame_of_apply {call : Call} (h : q.apply call = .ok q')
    (hcall : ∀ items, call ≠ .select items) :
    q'.parameters = q.parameters ∧
      q'.columns.map (·.column) = q.columns.map (·.column) := by
  cases call with
  | withOptions options =>
    cases h
    exact ⟨rfl, rfl⟩
  | withResolver names =>
    cases h
    exact ⟨rfl, rfl⟩
  | tableAliases pairs =>
    obtain ⟨-, aliases, -, rfl⟩ := tableAliases_eq_ok.mp h
    exact ⟨rfl, rfl⟩
  | tableAlias e name =>
    obtain ⟨aliases, -, rfl⟩ := tableAlias_eq_ok.mp h
    exact ⟨rfl, rfl⟩
  | distinct =>
    cases h
    exact ⟨rfl, rfl⟩
  | select items => exact absurd rfl (hcall items)
  | columnAliases labels =>
    obtain ⟨-, columns, hcolumns, rfl⟩ := columnAliases_eq_ok.mp h
    exact ⟨rfl, map_column_labelColumns hcolumns⟩
  | selectFrom e =>
    obtain ⟨-, rfl⟩ := selectFrom_eq_ok.mp h
    exact ⟨rfl, rfl⟩
  | join kind spec =>
    obtain ⟨clause, -, rfl⟩ := join_eq_ok.mp h
    exact ⟨rfl, rfl⟩
  | filter p =>
    cases h
    exact ⟨rfl, rfl⟩
  | orderBy columns =>
    obtain ⟨resolved, -, rfl⟩ := orderBy_of_orderColumns h
    exact ⟨rfl, rfl⟩
  | insertInto e =>
    obtain ⟨-, rfl⟩ := startStatement_eq_ok.mp h
    exact ⟨rfl, rfl⟩
  | update e =>
    obtain ⟨-, rfl⟩ := startStatement_eq_ok.mp h
    exact ⟨rfl, rfl⟩
  | deleteFrom e =>
    obtain ⟨-, rfl⟩ := startStatement_eq_ok.mp h
    exact ⟨rfl, rfl⟩

/-- A build that evaluates to a value succeeds with it. -/
theorem exists_build {α : Type} {x : Except Fault Query} {f : BuiltQuery → α} {a : α}
    (h : (x >>= build).toOption.map f = some a) :
    ∃ q b, x = .ok q ∧ q.build = .ok b ∧ f b = a := by
  obtain ⟨b, hb, rfl⟩ := Option.map_eq_some_iff.mp h
  have hok : x >>= build = .ok b := Except.toOption_eq_some.mp hb
  obtain ⟨q, hq, hbuild⟩ := Except.bind_eq_ok.mp hok
  exact ⟨q, b, hq, hbuild, rfl⟩

end Query

end SqlSelect
