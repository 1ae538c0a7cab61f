import SqlSelect.Proofs.Join.Resolving
import SqlSelect.Proofs.Query.Step
import SqlSelect.Schema.Demo

/-! Calls of different kinds can be made in either order. Each of them settles one part of a query.
Of the other parts it reads the aliases and the resolver at most, and aliases that are registered
later change nothing about what resolves already. -/
namespace SqlSelect

-- What is set by one kind of calls is a part. The columns have two kinds of calls, one that adds
-- them and one that labels them.
inductive Query.Part where
  | options
  | names
  | aliases
  | distinct
  | list
  | source
  | joins
  | filter
  | orderBy
deriving DecidableEq

inductive Call.Kind where
  | options
  | aliases
  | distinct
  | select
  | labels
  | source
  | join
  | filter
  | orderBy
deriving DecidableEq

namespace Call

def kind? : Call → Option Kind
  | withOptions _ => some .options
  | tableAliases _ => some .aliases
  | tableAlias .. => some .aliases
  | distinct => some .distinct
  | select _ => some .select
  | columnAliases _ => some .labels
  | selectFrom _ => some .source
  | join .. => some .join
  | filter _ => some .filter
  | orderBy _ => some .orderBy
  | withResolver _ => none
  | insertInto _ => none
  | update _ => none
  | deleteFrom _ => none

def Kind.part : Kind → Query.Part
  | options => .options
  | aliases => .aliases
  | distinct => .distinct
  | select => .list
  | labels => .list
  | source => .source
  | join => .joins
  | filter => .filter
  | orderBy => .orderBy

theorem Kind.part_ne_names (k : Kind) : k.part ≠ .names := by
  cases k <;> nofun

/-- Only selections and labels are of different kinds and set the same part. -/
theorem Kind.eq_of_part_eq {k l : Kind} (h : k.part = l.part) (hne : k ≠ l) :
    (k = select ∧ l = labels) ∨ (k = labels ∧ l = select) := by
  cases k <;> cases l <;> simp_all [part]

theorem eq_select_of_kind? {call : Call} (h : call.kind? = some .select) :
    ∃ items, call = select items := by
  cases call <;> cases h
  exact ⟨_, rfl⟩

theorem eq_columnAliases_of_kind? {call : Call} (h : call.kind? = some .labels) :
    ∃ labels, call = columnAliases labels := by
  cases call <;> cases h
  exact ⟨_, rfl⟩

end Call

namespace Query

def only (q : Query) : Part → Query
  | .options => { options := q.options }
  | .names => { names := q.names }
  | .aliases => { aliases := q.aliases }
  | .distinct => { distinct := q.distinct }
  | .list =>
    { kind := q.kind, columns := q.columns, columnsNamed := q.columnsNamed
      parameters := q.parameters }
  | .source => { source := q.source }
  | .joins => { joins := q.joins }
  | .filter => { filter := q.filter }
  | .orderBy => { orderBy := q.orderBy }

variable {q q' p p' : Query} {call : Call} {k : Call.Kind}

/-- A query is the sum of its parts. -/
theorem eq_of_only (h : ∀ part, q.only part = p.only part) : q = p := by
  have hoptions := h .options
  have hnames := h .names
  have haliases := h .aliases
  have hdistinct := h .distinct
  have hlist := h .list
  have hsource := h .source
  have hjoins := h .joins
  have hfilter := h .filter
  have horder := h .orderBy
  cases q
  cases p
  simp_all [only]

theorem only_names_eq : p.only .names = q.only .names ↔ p.names = q.names := by
  simp [only]

theorem only_aliases_eq : p.only .aliases = q.only .aliases ↔ p.aliases = q.aliases := by
  simp [only]

theorem only_joins_eq : p.only .joins = q.only .joins ↔ p.joins = q.joins := by
  simp [only]

theorem only_orderBy_eq : p.only .orderBy = q.only .orderBy ↔ p.orderBy = q.orderBy := by
  simp [only]

theorem only_list_eq : p.only .list = q.only .list ↔ p.kind = q.kind ∧ p.columns = q.columns ∧
    p.columnsNamed = q.columnsNamed ∧ p.parameters = q.parameters := by
  simp [only]

/-- A call changes no part but its own. -/
theorem only_of_apply (hk : call.kind? = some k) (h : q.apply call = .ok q') {part : Part}
    (hpart : part ≠ k.part) : q'.only part = q.only part := by
  -- With the call and the part both known, either the fields are the same or the part is its own.
  cases call with
  | withOptions options =>
    cases hk
    cases h
    cases part <;> trivial
  | withResolver names => cases hk
  | tableAliases pairs =>
    cases hk
    obtain ⟨-, aliases, -, rfl⟩ := tableAliases_eq_ok.mp h
    cases part <;> trivial
  | tableAlias e name =>
    cases hk
    obtain ⟨aliases, -, rfl⟩ := tableAlias_eq_ok.mp h
    cases part <;> trivial
  | distinct =>
    cases hk
    cases h
    cases part <;> trivial
  | select items =>
    cases hk
    obtain ⟨-, -, hitems⟩ := select_eq_ok.mp h
    obtain ⟨columns, parameters, -, rfl⟩ := gives_of_selectItems hitems
    cases part <;> trivial
  | columnAliases labels =>
    cases hk
    obtain ⟨-, columns, -, rfl⟩ := columnAliases_eq_ok.mp h
    cases part <;> trivial
  | selectFrom e =>
    cases hk
    obtain ⟨-, rfl⟩ := selectFrom_eq_ok.mp h
    cases part <;> trivial
  | join kind spec =>
    cases hk
    obtain ⟨clause, -, rfl⟩ := join_eq_ok.mp h
    cases part <;> trivial
  | filter f =>
    cases hk
    cases h
    cases part <;> trivial
  | orderBy columns =>
    cases hk
    obtain ⟨resolved, -, rfl⟩ := orderBy_of_orderColumns h
    cases part <;> trivial
  | insertInto e => cases hk
  | update e => cases hk
  | deleteFrom e => cases hk

/-- A call adds aliases behind those that are there, if any. -/
theorem exists_append_of_apply (h : q.apply call = .ok q') :
    ∃ bs, q'.aliases.bindings = q.aliases.bindings ++ bs := by
  cases step_of_apply h with
  | registered haliases => exact AliasRegistry.exists_append_of_registerAll haliases
  | _ => exact ⟨[], (List.append_nil _).symm⟩

-- The query `p` has all that calls on `q` look up: the same names, and the aliases of `q` with
-- perhaps some more behind them.
structure Covers (p q : Query) : Prop where
  names_eq : p.names = q.names
  aliases : ∃ bs, p.aliases.bindings = q.aliases.bindings ++ bs

/-- After a call of these kinds, all can be looked up that could be before. -/
theorem covers_of_apply (hk : call.kind? = some k) (h : q.apply call = .ok q') : q'.Covers q where
  names_eq := only_names_eq.mp (only_of_apply hk h k.part_ne_names.symm)
  aliases := exists_append_of_apply h

/-- What resolves resolves alike in a query that covers it. -/
theorem Covers.resolve (h : p.Covers q) {c : ColumnRef} {column : ResolvedColumn}
    (hc : q.aliases.resolve q.names c = .ok column) :
    p.aliases.resolve p.names c = .ok column := by
  obtain ⟨bs, hbs⟩ := h.aliases
  rw [h.names_eq]
  exact AliasRegistry.resolve_of_append hbs hc

/-- A column is resolved by what both queries have, and a variable is bound in the same table. -/
theorem Covers.selectItem (h : p.Covers q) (hlist : p.only .list = q.only .list)
    {item : SelectItem} (hq : q.selectItem item = .ok q') (hp : p.selectItem item = .ok p') :
    p'.Covers q' ∧ p'.only .list = q'.only .list := by
  obtain ⟨hkind, hcolumns, hnamed, hparameters⟩ := only_list_eq.mp hlist
  cases item with
  | column c =>
    obtain ⟨column, hcolumn, rfl⟩ := selectItem_column_eq_ok.mp hq
    obtain ⟨column', hcolumn', rfl⟩ := selectItem_column_eq_ok.mp hp
    obtain rfl : column = column' := Except.ok.inj ((h.resolve hcolumn).symm.trans hcolumn')
    refine ⟨⟨h.names_eq, h.aliases⟩, only_list_eq.mpr ⟨hkind, ?_, hnamed, hparameters⟩⟩
    rw [columns_addColumn, columns_addColumn, hcolumns]
  | captured v =>
    obtain ⟨name, parameters, hbind, rfl⟩ := selectItem_captured_eq_ok.mp hq
    obtain ⟨name', parameters', hbind', rfl⟩ := selectItem_captured_eq_ok.mp hp
    -- One table gives the variable one name.
    rw [hparameters, hbind] at hbind'
    cases hbind'
    refine ⟨⟨h.names_eq, h.aliases⟩, only_list_eq.mpr ⟨hkind, ?_, hnamed, rfl⟩⟩
    rw [columns_addColumn, columns_addColumn, hcolumns]
  | null =>
    obtain rfl : q.addColumn .null = q' := by simpa [Query.selectItem] using hq
    obtain rfl : p.addColumn .null = p' := by simpa [Query.selectItem] using hp
    refine ⟨⟨h.names_eq, h.aliases⟩, only_list_eq.mpr ⟨hkind, ?_, hnamed, hparameters⟩⟩
    rw [columns_addColumn, columns_addColumn, hcolumns]

theorem Covers.selectItems (h : p.Covers q) (hlist : p.only .list = q.only .list)
    {items : List SelectItem} (hq : items.foldlM Query.selectItem q = .ok q')
    (hp : items.foldlM Query.selectItem p = .ok p') : p'.only .list = q'.only .list := by
  -- Both runs go on from queries that again cover one another and have one list.
  induction items generalizing q p with
  | nil =>
    obtain rfl := Except.pure_eq_ok.mp hq
    obtain rfl := Except.pure_eq_ok.mp hp
    exact hlist
  | cons item items ih =>
    rw [List.foldlM_cons, Except.bind_eq_ok] at hq hp
    obtain ⟨q₁, hitem, hitems⟩ := hq
    obtain ⟨p₁, hitem', hitems'⟩ := hp
    obtain ⟨hcovers, hlist₁⟩ := h.selectItem hlist hitem hitem'
    exact ih hcovers hlist₁ hitems hitems'

/-- What a call makes of its part depends on that part and on what it reads. -/
theorem Covers.only_eq (h : p.Covers q) (hk : call.kind? = some k)
    (hown : p.only k.part = q.only k.part) (hq : q.apply call = .ok q')
    (hp : p.apply call = .ok p') : p'.only k.part = q'.only k.part := by
  cases call with
  | withOptions options =>
    cases hk
    cases hq
    cases hp
    rfl
  | withResolver names => cases hk
  | tableAliases pairs =>
    cases hk
    have haliases := only_aliases_eq.mp hown
    obtain ⟨-, r, hr, rfl⟩ := tableAliases_eq_ok.mp hq
    obtain ⟨-, r', hr', rfl⟩ := tableAliases_eq_ok.mp hp
    rw [haliases, hr] at hr'
    cases hr'
    rfl
  | tableAlias e name =>
    cases hk
    have haliases := only_aliases_eq.mp hown
    obtain ⟨r, hr, rfl⟩ := tableAlias_eq_ok.mp hq
    obtain ⟨r', hr', rfl⟩ := tableAlias_eq_ok.mp hp
    rw [haliases, hr] at hr'
    cases hr'
    rfl
  | distinct =>
    cases hk
    cases hq
    cases hp
    rfl
  | select items =>
    cases hk
    obtain ⟨-, -, hitems⟩ := select_eq_ok.mp hq
    obtain ⟨-, -, hitems'⟩ := select_eq_ok.mp hp
    obtain ⟨-, hcolumns, hnamed, hparameters⟩ := only_list_eq.mp hown
    -- The kind of the statement is set before the first item is read.
    have hbegun : Covers { p with kind := some .select } { q with kind := some .select } :=
      ⟨h.names_eq, h.aliases⟩
    exact hbegun.selectItems (only_list_eq.mpr ⟨rfl, hcolumns, hnamed, hparameters⟩) hitems hitems'
  | columnAliases labels =>
    cases hk
    -- The columns to be labelled are the same, since no call of another kind adds any.
    obtain ⟨-, columns, hlabel, rfl⟩ := columnAliases_eq_ok.mp hq
    obtain ⟨-, columns', hlabel', rfl⟩ := columnAliases_eq_ok.mp hp
    obtain ⟨hkind, hcolumns, -, hparameters⟩ := only_list_eq.mp hown
    rw [hcolumns, hlabel] at hlabel'
    cases hlabel'
    exact only_list_eq.mpr ⟨hkind, rfl, rfl, hparameters⟩
  | selectFrom e =>
    cases hk
    obtain ⟨-, rfl⟩ := selectFrom_eq_ok.mp hq
    obtain ⟨-, rfl⟩ := selectFrom_eq_ok.mp hp
    rfl
  | join kind spec =>
    cases hk
    obtain ⟨clause, hclause, rfl⟩ := join_eq_ok.mp hq
    obtain ⟨clause', hclause', rfl⟩ := join_eq_ok.mp hp
    -- The condition resolves to one clause, which goes to the end of one list.
    obtain ⟨bs, hbs⟩ := h.aliases
    rw [h.names_eq, JoinSpec.resolve_of_append hbs hclause] at hclause'
    cases hclause'
    exact only_joins_eq.mpr (congrArg (· ++ [clause]) (only_joins_eq.mp hown))
  | filter f =>
    cases hk
    cases hq
    cases hp
    rfl
  | orderBy columns =>
    cases hk
    obtain ⟨resolved, hresolved, rfl⟩ := orderBy_of_orderColumns hq
    obtain ⟨resolved', hresolved', rfl⟩ := orderBy_of_orderColumns hp
    -- What resolved before resolves alike, and nothing resolves in two ways.
    have hsame := Except.mapM_eq_ok.mpr (hresolved.imp fun _ _ hc => h.resolve hc)
    rw [Except.mapM_eq_ok.mpr hresolved'] at hsame
    cases hsame
    exact only_orderBy_eq.mpr (congrArg (· ++ resolved) (only_orderBy_eq.mp hown))
  | insertInto e => cases hk
  | update e => cases hk
  | deleteFrom e => cases hk

/-- Nothing is selected once the columns have their labels. -/
theorem select_ne_ok_of_columnAliases {labels : List String} {items : List SelectItem}
    (h : q.apply (.columnAliases labels) = .ok q') : q'.apply (.select items) ≠ .ok p := by
  intro hselect
  obtain ⟨-, columns, -, rfl⟩ := columnAliases_eq_ok.mp h
  obtain ⟨-, hnamed, -⟩ := select_eq_ok.mp hselect
  cases hnamed

/-- Calls of different kinds that succeed in both orders settle different parts. -/
theorem part_ne_of_swap {c d : Call} {l : Call.Kind} {q₁ q₂ : Query} (hc : c.kind? = some k)
    (hd : d.kind? = some l) (hkl : k ≠ l) (hqc : q.apply c = .ok p) (hcd : p.apply d = .ok q₁)
    (hqd : q.apply d = .ok p') (hdc : p'.apply c = .ok q₂) : k.part ≠ l.part := by
  intro hpart
  rcases Call.Kind.eq_of_part_eq hpart hkl with ⟨rfl, rfl⟩ | ⟨rfl, rfl⟩
  · obtain ⟨items, rfl⟩ := Call.eq_select_of_kind? hc
    obtain ⟨labels, rfl⟩ := Call.eq_columnAliases_of_kind? hd
    exact select_ne_ok_of_columnAliases hqd hdc
  · obtain ⟨labels, rfl⟩ := Call.eq_columnAliases_of_kind? hc
    obtain ⟨items, rfl⟩ := Call.eq_select_of_kind? hd
    exact select_ne_ok_of_columnAliases hqc hcd

/-- In which order two calls of different kinds are made does not matter to the query. -/
theorem eq_of_swap {c d : Call} {l : Call.Kind} {q₁ q₂ : Query} (hc : c.kind? = some k)
    (hd : d.kind? = some l) (hkl : k ≠ l) (hqc : q.apply c = .ok p) (hcd : p.apply d = .ok q₁)
    (hqd : q.apply d = .ok p') (hdc : p'.apply c = .ok q₂) : q₁ = q₂ := by
  have hparts : k.part ≠ l.part := part_ne_of_swap hc hd hkl hqc hcd hqd hdc
  apply eq_of_only
  intro part
  by_cases hk : part = k.part
  · -- The first call does in `p'` what it did in `q`.
    subst hk
    have hother : p'.only k.part = q.only k.part := only_of_apply hd hqd hparts
    have hsame := (covers_of_apply hd hqd).only_eq hc hother hqc hdc
    exact (only_of_apply hd hcd hparts).trans hsame.symm
  · by_cases hl : part = l.part
    · -- So did the second one in `p`.
      subst hl
      have hother : p.only l.part = q.only l.part := only_of_apply hc hqc hparts.symm
      have hsame := (covers_of_apply hc hqc).only_eq hd hother hqd hcd
      exact hsame.trans (only_of_apply hc hdc hparts.symm).symm
    · -- Neither of the calls has to do with this part.
      calc q₁.only part = p.only part := only_of_apply hd hcd hl
        _ = q.only part := only_of_apply hc hqc hk
        _ = p'.only part := (only_of_apply hd hqd hl).symm
        _ = q₂.only part := (only_of_apply hc hdc hk).symm

end Query

namespace Demo

-- Students are selected from, but no columns yet.
def begun : List Call :=
  [.tableAlias student "s", .selectFrom student]

-- One alias of students is used while they get a second one.
def selection : Call :=
  .select [.column (.property student "Id"), .captured ⟨"school", .text "Oxford"⟩]

def secondAlias : Call :=
  .tableAliases [(classRoom, "c"), (student, "t")]

end Demo

namespace Query

/-- Two calls of different kinds that succeed in both orders make the same of a query, however it
was made: it is built to the same, or with the same fault, and all later calls do the same to it. -/
theorem build_eq_of_swap (q q₁ q₂ : Query) (c d : Call) (k l : Call.Kind)
    (hc : c.kind? = some k) (hd : d.kind? = some l) (hkl : k ≠ l)
    (h₁ : q.run [c, d] = .ok q₁) (h₂ : q.run [d, c] = .ok q₂) :
    q₁.build = q₂.build ∧ ∀ later, q₁.run later = q₂.run later := by
  simp only [run, List.foldlM_cons, List.foldlM_nil, Except.bind_eq_ok, Except.pure_eq_ok] at h₁ h₂
  obtain ⟨qc, hqc, _, hcd, rfl⟩ := h₁
  obtain ⟨qd, hqd, _, hdc, rfl⟩ := h₂
  obtain rfl := eq_of_swap hc hd hkl hqc hcd hqd hdc
  exact ⟨rfl, fun _ => rfl⟩

/-- The alias that is used stays the first one of its entity. -/
theorem build_eq_of_swap_secondAlias :
    ∃ q q₁ q₂ b, run {} Demo.begun = .ok q ∧ q.run [Demo.selection, Demo.secondAlias] = .ok q₁ ∧
      q.run [Demo.secondAlias, Demo.selection] = .ok q₂ ∧ q₁.build = .ok b ∧ q₂.build = .ok b ∧
      b.text = "select\n\ts.student_id,\n\t@param_school\nfrom\n\tPQ_Student as s\n" := by
  obtain ⟨q, hq⟩ : ∃ q, run {} Demo.begun = .ok q := ⟨_, rfl⟩
  obtain ⟨q₁, b, hq₁, hb, htext⟩ : ∃ q₁ b, q.run [Demo.selection, Demo.secondAlias] = .ok q₁ ∧
      q₁.build = .ok b ∧ b.text =
        "select\n\ts.student_id,\n\t@param_school\nfrom\n\tPQ_Student as s\n" := by
    cases hq
    exact exists_build (by decide +kernel)
  obtain ⟨q₂, b₂, hq₂, hb₂, -⟩ : ∃ q₂ b₂, q.run [Demo.secondAlias, Demo.selection] = .ok q₂ ∧
      q₂.build = .ok b₂ ∧ b₂.parameters.length = 1 := by
    cases hq
    exact exists_build (by decide +kernel)
  obtain ⟨hsame, -⟩ := build_eq_of_swap q q₁ q₂ Demo.selection Demo.secondAlias .select .aliases
    rfl rfl (by decide) hq₁ hq₂
  exact ⟨q, q₁, q₂, b, hq, hq₁, hq₂, hb, hsame ▸ hb, htext⟩

end Query

end SqlSelect
