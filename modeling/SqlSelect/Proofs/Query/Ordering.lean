import SqlSelect.Proofs.Query.Build
import SqlSelect.Proofs.Query.Step
import SqlSelect.Schema.Demo

/-! The columns that a query is ordered by. Each is a selected one by its alias and property; what
they are called in the database is looked up when they are named in a call. -/
namespace SqlSelect

def ColumnRef.entity? : ColumnRef → Option Entity
  | property e _ => some e
  | path _ => none

def SelectItem.reference? : SelectItem → Option ColumnRef
  | column c => some c
  | _ => none

def SelectColumn.column? : SelectColumn → Option ResolvedColumn
  | column c => some c
  | _ => none

def SelectEntry.resolved (entries : List SelectEntry) : List ResolvedColumn :=
  (entries.map (·.column)).filterMap (·.column?)

theorem SelectEntry.resolved_append (entries entries' : List SelectEntry) :
    resolved (entries ++ entries') = resolved entries ++ resolved entries' := by
  simp [resolved]

theorem SelectEntry.mem_resolved {entries : List SelectEntry} {c : ResolvedColumn} :
    c ∈ resolved entries ↔ ∃ e ∈ entries, e.column = .column c := by
  simp only [resolved, List.mem_filterMap, List.mem_map, exists_exists_and_eq_and]
  refine exists_congr fun e => and_congr_right fun _ => ?_
  cases e.column <;> simp [SelectColumn.column?]

/-- Behind one alias, texts are equal exactly if columns are. -/
theorem ResolvedColumn.qualified_eq_qualified {c d : ResolvedColumn}
    (h : d.qualifier = c.qualifier) : d.qualified = c.qualified ↔ d.column = c.column := by
  rw [qualified, qualified, h, String.append_right_inj]

namespace Call

def references : Call → List ColumnRef
  | select items => items.filterMap (·.reference?)
  | orderBy columns => columns
  | _ => []

-- The descriptions of entities that columns are looked up in.
def entities : Call → List Entity
  | tableAliases pairs => pairs.map (·.1)
  | tableAlias e _ => [e]
  | call => call.references.filterMap (·.entity?)

def DescribeAlike (calls : List Call) : Prop :=
  ∀ e ∈ calls.flatMap entities, ∀ e' ∈ calls.flatMap entities, e.name = e'.name → e = e'

theorem mem_entities_of_mem_references {call : Call} {ref : ColumnRef} {e : Entity}
    (href : ref ∈ call.references) (he : ref.entity? = some e) : e ∈ call.entities := by
  cases call with
  | select items => exact List.mem_filterMap.mpr ⟨ref, href, he⟩
  | orderBy columns => exact List.mem_filterMap.mpr ⟨ref, href, he⟩
  | _ => cases href

end Call

namespace AliasRegistry

variable {r r' : AliasRegistry} {calls : List Call} {name : String} {e e' : Entity}

structure Registers (r : AliasRegistry) (calls : List Call) : Prop where
  consistent : r.Consistent
  described : ∀ b ∈ r.bindings, b.entity ∈ calls.flatMap Call.entities

theorem Registers.mono (h : r.Registers calls) (later : List Call) :
    r.Registers (calls ++ later) := by
  refine ⟨h.consistent, fun b hb => ?_⟩
  rw [List.flatMap_append]
  exact List.mem_append_left _ (h.described b hb)

structure Knows (r : AliasRegistry) (calls : List Call) (name : String) (e : Entity) : Prop where
  bound : ∃ b ∈ r.bindings, b.name = name ∧ b.entity.name = e.name
  described : e ∈ calls.flatMap Call.entities

/-- What is known of an alias stays known. -/
theorem Knows.mono (h : r.Knows calls name e) {bs : List Binding}
    (hbs : r'.bindings = r.bindings ++ bs) (later : List Call) :
    r'.Knows (calls ++ later) name e := by
  obtain ⟨b, hb, hname⟩ := h.bound
  refine ⟨⟨b, ?_, hname⟩, ?_⟩
  · rw [hbs]
    exact List.mem_append_left _ hb
  · rw [List.flatMap_append]
    exact List.mem_append_left _ h.described

/-- Where entities of one name are described alike, an alias has one description. -/
theorem Registers.eq_of_knows (h : r.Registers calls) (halike : Call.DescribeAlike calls)
    (he : r.Knows calls name e) (he' : r.Knows calls name e') : e = e' := by
  obtain ⟨b, hb, rfl, hname⟩ := he.bound
  obtain ⟨b', hb', hsame, hname'⟩ := he'.bound
  -- No two bindings have one alias, so what is bound describes both.
  obtain rfl : b = b' := List.inj_on_of_nodup_map h.consistent.nodup hb hb' hsame.symm
  have hfirst : b.entity = e := halike _ (h.described b hb) e he.described hname
  have hsecond : b.entity = e' := halike _ (h.described b hb) e' he'.described hname'
  exact hfirst.symm.trans hsecond

/-- A registration binds what its call describes. -/
theorem mem_of_registerAll {pairs : List (Entity × String)} (h : r.registerAll pairs = .ok r') :
    ∀ b ∈ r'.bindings, b ∈ r.bindings ∨ b.entity ∈ pairs.map (·.1) := by
  apply registerAll_induction (I := fun pairs r' =>
    ∀ b ∈ r'.bindings, b ∈ r.bindings ∨ b.entity ∈ pairs.map (·.1)) h
  · exact fun b hb => .inl hb
  · intro done r₁ e name r₂ hdone hregister b hb
    rw [List.map_append, List.mem_append]
    obtain ⟨-, ⟨_, -, -, rfl⟩ | ⟨-, rfl⟩⟩ := register_eq_ok.mp hregister
    · exact (hdone b hb).imp_right .inl
    · rcases List.mem_append.mp hb with hb | hb
      · exact (hdone b hb).imp_right .inl
      · obtain rfl := List.mem_singleton.mp hb
        exact .inr (.inr (List.mem_singleton_self e))

/-- A reference is found through a binding of its alias. It is either itself an entity of that name
or of the entity that is bound. -/
theorem exists_binding_of_locate {c : ColumnRef} {property : String}
    (h : r.locate c = .ok (name, e, property)) :
    ∃ b ∈ r.bindings, b.name = name ∧ b.entity.name = e.name ∧
      (b.entity = e ∨ c.entity? = some e) := by
  cases c with
  | property e' p =>
    obtain ⟨alias', ha, hplace⟩ := Except.bind_eq_ok.mp h
    obtain ⟨b, hb, rfl⟩ := aliasFor_eq_ok.mp ha
    cases hplace
    have hsame := List.find?_some hb
    exact ⟨b, List.mem_of_find?_eq_some hb, rfl, beq_iff_eq.mp hsame, .inr rfl⟩
  | path text =>
    obtain ⟨p, -, h⟩ := Except.bind_eq_ok.mp h
    obtain ⟨e', he', hplace⟩ := Except.bind_eq_ok.mp h
    obtain ⟨b, hb, rfl⟩ := entityFor_eq_ok.mp he'
    cases hplace
    have hname := List.find?_some hb
    exact ⟨b, List.mem_of_find?_eq_some hb, beq_iff_eq.mp hname, rfl, .inl rfl⟩

theorem Registers.registerAll (h : r.Registers calls) {pairs : List (Entity × String)} {call : Call}
    (hr : r.registerAll pairs = .ok r') (hcall : call.entities = pairs.map (·.1)) :
    r'.Registers (calls ++ [call]) := by
  refine ⟨h.consistent.registerAll hr, fun b hb => ?_⟩
  rw [List.flatMap_append, List.flatMap_singleton, List.mem_append, hcall]
  exact (mem_of_registerAll hr b hb).imp_left (h.described b)

/-- A column that resolves has an alias that is known for its entity. -/
theorem Registers.knows_of_resolve (h : r.Registers calls) (call : Call) {names : Resolver}
    {c : ColumnRef} {column : ResolvedColumn} (hc : r.resolve names c = .ok column)
    (hcall : ∀ e, c.entity? = some e → e ∈ call.entities) :
    r.Knows (calls ++ [call]) column.qualifier column.entity := by
  obtain ⟨hplace, -⟩ := resolve_eq_ok.mp hc
  obtain ⟨b, hb, hname, hentity, hsource⟩ := exists_binding_of_locate hplace
  refine ⟨⟨b, hb, hname, hentity⟩, ?_⟩
  rw [List.flatMap_append, List.flatMap_singleton, List.mem_append]
  rcases hsource with hbound | hhandle
  · exact .inl (hbound ▸ h.described b hb)
  · exact .inr (hcall _ hhandle)

end AliasRegistry

namespace Query

open SelectEntry Call

-- The column is what a reference of the call stands for.
def LooksUp (q : Query) (call : Call) (c : ResolvedColumn) : Prop :=
  ∃ ref ∈ call.references, q.aliases.resolve q.names ref = .ok c

-- The calls `before` give the query `p`, and the next one is this call.
structure ComesTo (calls before : List Call) (call : Call) (p : Query) : Prop where
  front : before ++ [call] <+: calls
  run_eq : run {} before = .ok p

def Selects (calls : List Call) (d : ResolvedColumn) : Prop :=
  ∃ before items p, ComesTo calls before (.select items) p ∧ p.LooksUp (.select items) d

-- The column was looked up for an ordering by what was selected then.
def Orders (calls : List Call) (selected : List ResolvedColumn) (c : ResolvedColumn) : Prop :=
  ∃ before columns p, ComesTo calls before (.orderBy columns) p ∧ p.LooksUp (.orderBy columns) c ∧
    p.isSelected c = true ∧ resolved p.columns ⊆ selected

variable {q q' p : Query} {calls before : List Call} {call : Call} {c d : ResolvedColumn}

theorem ComesTo.later (h : ComesTo calls before call p) (later : List Call) :
    ComesTo (calls ++ later) before call p :=
  ⟨h.front.trans (List.prefix_append calls later), h.run_eq⟩

theorem comesTo_last (h : run {} calls = .ok q) (call : Call) :
    ComesTo (calls ++ [call]) calls call q :=
  ⟨List.prefix_rfl, h⟩

theorem Selects.later (h : Selects calls d) (later : List Call) : Selects (calls ++ later) d := by
  obtain ⟨before, items, p, hcomes, hlooks⟩ := h
  exact ⟨before, items, p, hcomes.later later, hlooks⟩

theorem Orders.later {selected more : List ResolvedColumn} (h : Orders calls selected c)
    (later : List Call) (hmore : selected ⊆ more) : Orders (calls ++ later) more c := by
  obtain ⟨before, columns, p, hcomes, hlooks, hselected, hsub⟩ := h
  exact ⟨before, columns, p, hcomes.later later, hlooks, hselected, List.Subset.trans hsub hmore⟩

structure Traced (q : Query) (calls : List Call) : Prop where
  aliases : q.aliases.Registers calls
  selected : ∀ d ∈ resolved q.columns, q.aliases.Knows calls d.qualifier d.entity ∧ Selects calls d
  ordered : ∀ c ∈ q.orderBy, Orders calls (resolved q.columns) c

theorem traced_empty : Traced {} [] where
  aliases := ⟨AliasRegistry.consistent_empty, by simp⟩
  selected := by simp [resolved]
  ordered := by simp

/-- What was selected stays selected, and its aliases known. -/
theorem Traced.selected_later (h : q.Traced calls) (call : Call) {r : AliasRegistry}
    {bs : List Binding} (hbs : r.bindings = q.aliases.bindings ++ bs) :
    ∀ d ∈ resolved q.columns, r.Knows (calls ++ [call]) d.qualifier d.entity ∧
      Selects (calls ++ [call]) d := by
  intro d hd
  obtain ⟨hknows, hselects⟩ := h.selected d hd
  exact ⟨hknows.mono hbs [call], hselects.later [call]⟩

theorem Traced.ordered_later (h : q.Traced calls) (call : Call) {more : List ResolvedColumn}
    (hmore : resolved q.columns ⊆ more) : ∀ c ∈ q.orderBy, Orders (calls ++ [call]) more c :=
  fun c hc => (h.ordered c hc).later [call] hmore

/-- A call that concerns none of this. -/
theorem Traced.of_eq (h : q.Traced calls) (call : Call) (haliases : q'.aliases = q.aliases)
    (hcolumns : resolved q'.columns = resolved q.columns) (horder : q'.orderBy = q.orderBy) :
    q'.Traced (calls ++ [call]) where
  aliases := haliases ▸ h.aliases.mono [call]
  selected := by
    rw [hcolumns, haliases]
    exact h.selected_later call (List.append_nil _).symm
  ordered := by
    rw [hcolumns, horder]
    exact h.ordered_later call (List.Subset.refl _)

/-- Later aliases change nothing about the columns that are selected. -/
theorem Traced.registerAll (h : q.Traced calls) {pairs : List (Entity × String)}
    {aliases : AliasRegistry} (hr : q.aliases.registerAll pairs = .ok aliases)
    (hcall : call.entities = pairs.map (·.1)) :
    { q with aliases }.Traced (calls ++ [call]) where
  aliases := h.aliases.registerAll hr hcall
  selected := by
    obtain ⟨bs, hbs⟩ := AliasRegistry.exists_append_of_registerAll hr
    exact h.selected_later call hbs
  ordered := h.ordered_later call (List.Subset.refl _)

/-- A selected column of a table was resolved for one of the items. -/
theorem looksUp_of_gives {items : List SelectItem} {columns : List SelectColumn}
    (h : List.Forall₂ (Gives q.aliases q.names) items columns) (hd : .column d ∈ columns) :
    q.LooksUp (.select items) d := by
  obtain ⟨item, hitem, hgives⟩ := exists_of_forall₂ h hd
  cases hgives with
  | column hc => exact ⟨_, List.mem_filterMap.mpr ⟨_, hitem, rfl⟩, hc⟩

/-- A column that is looked up has an alias that is known for its entity. -/
theorem Traced.knows_of_looksUp (h : q.Traced calls) (hc : q.LooksUp call c) :
    q.aliases.Knows (calls ++ [call]) c.qualifier c.entity := by
  obtain ⟨ref, href, hresolve⟩ := hc
  exact h.aliases.knows_of_resolve call hresolve fun e => mem_entities_of_mem_references href

/-- An alias that is shared stands for one description. -/
theorem Traced.entity_eq (h : q.Traced calls) (hc : q.LooksUp call c)
    (hd : d ∈ resolved q.columns) (hqualifier : d.qualifier = c.qualifier)
    (halike : DescribeAlike (calls ++ [call])) : d.entity = c.entity := by
  obtain ⟨hd', -⟩ := h.selected_later call (List.append_nil _).symm d hd
  rw [hqualifier] at hd'
  exact (h.aliases.mono [call]).eq_of_knows halike hd' (h.knows_of_looksUp hc)

theorem mem_resolved_map {columns : List SelectColumn} {d : ResolvedColumn} :
    d ∈ resolved (columns.map (⟨·, none⟩)) ↔ .column d ∈ columns := by
  simp [mem_resolved]

/-- A selection adds columns that its own items were looked up for. -/
theorem Traced.select (h : q.Traced calls) (hrun : run {} calls = .ok q)
    {items : List SelectItem} (hselect : q.select items = .ok q') :
    q'.Traced (calls ++ [.select items]) := by
  obtain ⟨-, -, hitems⟩ := select_eq_ok.mp hselect
  obtain ⟨columns, parameters, hgives, rfl⟩ := gives_of_selectItems hitems
  constructor
  case aliases => exact h.aliases.mono _
  case selected =>
    intro d hd
    -- The column was selected before, or comes from an item of this call.
    rw [resolved_append, List.mem_append, mem_resolved_map] at hd
    rcases hd with hd | hd
    · exact h.selected_later _ (List.append_nil _).symm d hd
    · have hlooks : q.LooksUp (.select items) d := looksUp_of_gives hgives hd
      exact ⟨h.knows_of_looksUp hlooks, calls, items, q, comesTo_last hrun _, hlooks⟩
  case ordered =>
    refine h.ordered_later _ ?_
    rw [resolved_append]
    exact List.subset_append_left _ _

/-- The test before an ordering is one of aliases and properties. -/
theorem isSelected_iff {c : ResolvedColumn} : q.isSelected c = true ↔
    ∃ d ∈ resolved q.columns, d.qualifier = c.qualifier ∧ d.property = c.property := by
  simp only [isSelected, List.any_eq_true, mem_resolved]
  constructor
  · rintro ⟨e, he, hc⟩
    split at hc
    · next d hd => exact ⟨d, ⟨e, he, hd⟩, by simpa using hc⟩
    · cases hc
  · rintro ⟨d, ⟨e, he, hd⟩, hc⟩
    refine ⟨e, he, ?_⟩
    rw [hd]
    simpa using hc

/-- An ordering adds columns that passed its test. -/
theorem Traced.orderBy (h : q.Traced calls) (hrun : run {} calls = .ok q)
    {columns : List ColumnRef} (horder : q.orderColumns columns = .ok q') :
    q'.Traced (calls ++ [.orderBy columns]) := by
  obtain ⟨added, hadded, rfl⟩ := selected_of_orderColumns horder
  refine ⟨h.aliases.mono _, h.selected_later _ (List.append_nil _).symm, fun c hc => ?_⟩
  rcases List.mem_append.mp hc with hc | hc
  · exact h.ordered_later _ (List.Subset.refl _) c hc
  · obtain ⟨ref, hmem, hresolve, hselected⟩ := exists_of_forall₂ hadded hc
    exact ⟨calls, columns, q, comesTo_last hrun _, ⟨ref, hmem, hresolve⟩, hselected,
      List.Subset.refl _⟩

/-- Every call carries the trace on. -/
theorem Traced.apply (h : q.Traced calls) (hrun : run {} calls = .ok q)
    (hcall : q.apply call = .ok q') : q'.Traced (calls ++ [call]) := by
  -- Most calls concern neither what columns are looked up in nor the columns themselves.
  cases call with
  | withOptions options =>
    cases hcall
    exact h.of_eq _ rfl rfl rfl
  | withResolver names =>
    cases hcall
    exact h.of_eq _ rfl rfl rfl
  | tableAliases pairs =>
    obtain ⟨-, aliases, haliases, rfl⟩ := tableAliases_eq_ok.mp hcall
    exact h.registerAll haliases rfl
  | tableAlias e name =>
    obtain ⟨aliases, haliases, rfl⟩ := tableAlias_eq_ok.mp hcall
    exact h.registerAll (AliasRegistry.registerAll_singleton.mpr haliases) rfl
  | distinct =>
    cases hcall
    exact h.of_eq _ rfl rfl rfl
  | select items => exact h.select hrun hcall
  | columnAliases labels =>
    obtain ⟨-, columns, hcolumns, rfl⟩ := columnAliases_eq_ok.mp hcall
    have hresolved : resolved columns = resolved q.columns := by
      rw [resolved, resolved, map_column_labelColumns hcolumns]
    exact h.of_eq _ rfl hresolved rfl
  | selectFrom e =>
    obtain ⟨-, rfl⟩ := selectFrom_eq_ok.mp hcall
    exact h.of_eq _ rfl rfl rfl
  | join kind spec =>
    obtain ⟨clause, -, rfl⟩ := join_eq_ok.mp hcall
    exact h.of_eq _ rfl rfl rfl
  | filter p =>
    cases hcall
    exact h.of_eq _ rfl rfl rfl
  | orderBy columns => exact h.orderBy hrun hcall
  | insertInto e =>
    obtain ⟨-, rfl⟩ := startStatement_eq_ok.mp hcall
    exact h.of_eq _ rfl rfl rfl
  | update e =>
    obtain ⟨-, rfl⟩ := startStatement_eq_ok.mp hcall
    exact h.of_eq _ rfl rfl rfl
  | deleteFrom e =>
    obtain ⟨-, rfl⟩ := startStatement_eq_ok.mp hcall
    exact h.of_eq _ rfl rfl rfl

/-- The trace of a whole run. -/
theorem traced_of_run (h : run {} calls = .ok q) : q.Traced calls := by
  have htraced : run {} calls = .ok q ∧ q.Traced calls := Except.foldlM_induction
    (I := fun calls q => run {} calls = .ok q ∧ q.Traced calls) h ⟨rfl, traced_empty⟩ ?_
  · exact htraced.2
  · intro calls call q q' hq hcall
    refine ⟨?_, hq.2.apply hq.1 hcall⟩
    rw [run, List.foldlM_append]
    exact Except.bind_eq_ok.mpr ⟨q, hq.1, by simpa using hcall⟩

/-- It was the resolver of the call that named the column. -/
theorem LooksUp.columnName_eq (h : q.LooksUp call c) :
    q.names.columnName c.entity c.property = .ok c.column := by
  obtain ⟨ref, -, hresolve⟩ := h
  obtain ⟨-, hname, -⟩ := AliasRegistry.resolve_eq_ok.mp hresolve
  exact hname

/-- Columns behind one alias are one text exactly if they were given one name. -/
theorem qualified_eq_iff_of_looksUp {call' : Call} (hd : p.LooksUp call' d) (hc : q.LooksUp call c)
    (h : d.qualifier = c.qualifier) : d.qualified = c.qualified ↔
      p.names.columnName d.entity d.property = q.names.columnName c.entity c.property := by
  rw [ResolvedColumn.qualified_eq_qualified h, hd.columnName_eq, hc.columnName_eq,
    Except.ok.injEq]

end Query

namespace Demo

-- The convention comes between two selections; the ordering is by what follows it.
def selectedTwice : List Call :=
  [.tableAlias student "s",
   .select [.column (.path "s.Id")],
   .withResolver Resolver.snakeCase,
   .select [.column (.property student "FirstName")],
   .selectFrom student,
   .orderBy [.path " s.FirstName "]]

-- The convention comes between the selection and the ordering.
def renamed : List Call :=
  [.tableAlias student "s",
   .select [.column (.path "s.Id")],
   .selectFrom student,
   .withResolver Resolver.snakeCase,
   .orderBy [.path "s.Id"]]

def numberedStudent : Entity where
  name := "Student"
  fields := [{ name := "Id", kind := .int, column? := "number" }]

def redescribed : List Call :=
  [.tableAlias student "s",
   .select [.column (.property numberedStudent "Id")],
   .selectFrom student,
   .orderBy [.path "s.Id"]]

end Demo

namespace Query

open SelectEntry

/-- A built query is ordered by columns that have the alias and the property of a selected one. The
two are one text exactly if the resolver of the ordering gives the property, as it is described
there, the column that the resolver of the selection gave it. -/
theorem selected_of_orderBy (calls : List Call) (q : Query) (b : BuiltQuery)
    (hrun : run {} calls = .ok q) (hbuild : q.build = .ok b) :
    ∃ st t, q.Builds b st t ∧
      (∃ o : Printout, o.ShownIn q.options.lineEnding.text b.text ∧
        o.ordered = st.orderBy.map (·.qualified) ∧
        ∀ d ∈ resolved st.columns, d.qualified ∈ o.items) ∧
      ∀ c ∈ st.orderBy, ∃ before columns p, ComesTo calls before (.orderBy columns) p ∧
        p.LooksUp (.orderBy columns) c ∧
        (∃ d ∈ resolved p.columns, d.qualifier = c.qualifier ∧ d.property = c.property) ∧
        ∀ d ∈ resolved p.columns, d.qualifier = c.qualifier → d.property = c.property →
          d ∈ resolved st.columns ∧
          (Call.DescribeAlike (before ++ [.orderBy columns]) → d.entity = c.entity) ∧
          ∃ start items p₀, ComesTo before start (.select items) p₀ ∧
            p₀.LooksUp (.select items) d ∧ (d.qualified = c.qualified ↔
              p₀.names.columnName d.entity d.property =
                p.names.columnName c.entity c.property) := by
  obtain ⟨st, t, hst⟩ := build_eq_ok.mp hbuild
  refine ⟨st, t, hst, ⟨st.printout, hst.shownIn, rfl, fun d hd => ?_⟩, fun c hc => ?_⟩
  · obtain ⟨e, he, hcolumn⟩ := mem_resolved.mp hd
    refine List.mem_map.mpr ⟨e, he, ?_⟩
    rw [hcolumn]
    rfl
  · rw [hst.orderBy_eq] at hc
    rw [hst.columns_eq]
    obtain ⟨before, columns, p, hcomes, hlooks, hselected, hsub⟩ :=
      (traced_of_run hrun).ordered c hc
    have htraced := traced_of_run hcomes.run_eq
    refine ⟨before, columns, p, hcomes, hlooks, isSelected_iff.mp hselected, ?_⟩
    intro d hd hqualifier hproperty
    obtain ⟨-, start, items, p₀, hstart, hbefore⟩ := htraced.selected d hd
    exact ⟨hsub hd, htraced.entity_eq hlooks hd hqualifier, start, items, p₀, hstart, hbefore,
      qualified_eq_iff_of_looksUp hbefore hlooks hqualifier⟩

/-- The resolver is replaced between the two selections, and the order is that of the second. -/
theorem selected_of_orderBy_selectedTwice :
    ∃ q b st t, run {} Demo.selectedTwice = .ok q ∧ q.build = .ok b ∧ q.Builds b st t ∧
      b.text = "select\n\ts.student_id,\n\ts.first_name\nfrom\n\ttbl_student as s\n" ++
        "order by\n\ts.first_name\n" ∧
      ∀ c ∈ st.orderBy, ∃ before columns p,
        ComesTo Demo.selectedTwice before (.orderBy columns) p ∧
        p.LooksUp (.orderBy columns) c ∧
        ∃ d ∈ resolved p.columns, d.qualifier = c.qualifier ∧ d.property = c.property := by
  obtain ⟨q, b, hrun, hbuild, htext⟩ : ∃ q b, run {} Demo.selectedTwice = .ok q ∧
      q.build = .ok b ∧
      b.text = "select\n\ts.student_id,\n\ts.first_name\nfrom\n\ttbl_student as s\n" ++
        "order by\n\ts.first_name\n" :=
    exists_build (by decide +kernel)
  obtain ⟨st, t, hst, -, hordered⟩ := selected_of_orderBy _ q b hrun hbuild
  refine ⟨q, b, st, t, hrun, hbuild, hst, htext, fun c hc => ?_⟩
  obtain ⟨before, columns, p, hcomes, hlooks, hselected, -⟩ := hordered c hc
  exact ⟨before, columns, p, hcomes, hlooks, hselected⟩

-- The query of the calls is built, and ordered by a column whose text is none of those it selects.
def OrdersUnselected (calls : List Call) : Prop :=
  ∃ q b st t c, run {} calls = .ok q ∧ q.build = .ok b ∧ q.Builds b st t ∧ c ∈ st.orderBy ∧
    c.qualified ∉ (resolved st.columns).map (·.qualified)

theorem ordersUnselected_of_texts {calls : List Call} (ordered : String) (selected : List String)
    (h : ((run {} calls).toOption.bind fun q => q.build.toOption.map fun _ =>
      (q.orderBy.map (·.qualified), (resolved q.columns).map (·.qualified))) =
        some ([ordered], selected))
    (hnot : ordered ∉ selected) : OrdersUnselected calls := by
  obtain ⟨q, hrun, h⟩ := Option.bind_eq_some_iff.mp h
  obtain ⟨b, hbuild, h⟩ := Option.map_eq_some_iff.mp h
  obtain ⟨hordered, hselected⟩ := Prod.mk.inj h
  obtain ⟨st, t, hst⟩ := build_eq_ok.mp (Except.toOption_eq_some.mp hbuild)
  have hmem : ordered ∈ q.orderBy.map (·.qualified) := hordered ▸ List.mem_singleton_self ordered
  obtain ⟨c, hc, rfl⟩ := List.mem_map.mp hmem
  refine ⟨q, b, st, t, c, Except.toOption_eq_some.mp hrun, Except.toOption_eq_some.mp hbuild, hst,
    hst.orderBy_eq ▸ hc, ?_⟩
  rw [hst.columns_eq, hselected]
  exact hnot

/-- After another resolver, and with another description of the entity, one property has two
columns, and the query is ordered by the one that it does not select. -/
theorem ordersUnselected_renamed_redescribed :
    OrdersUnselected Demo.renamed ∧ OrdersUnselected Demo.redescribed := by
  have hrenamed : OrdersUnselected Demo.renamed :=
    ordersUnselected_of_texts "s.id" ["s.student_id"] (by decide +kernel)
      (by decide)
  have hredescribed : OrdersUnselected Demo.redescribed :=
    ordersUnselected_of_texts "s.student_id" ["s.number"] (by decide +kernel)
      (by decide)
  exact ⟨hrenamed, hredescribed⟩

end Query

end SqlSelect
