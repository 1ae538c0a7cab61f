import SqlSelect.Proofs.Predicate.Unbroken
import SqlSelect.Proofs.Query.Build
import SqlSelect.Proofs.SelectList.Alignment

/-! One query built with either line ending. The ending stands behind each line and nowhere else:
other line breaks are in the texts that the query was made of. -/
namespace SqlSelect

open Rendering Script

theorem oneLine_replicate (n : Nat) {c : Char} (hc : isBreak c = false) :
    OneLine (String.ofList (List.replicate n c)) := by
  refine .ofList fun d hd => ?_
  rw [List.eq_of_mem_replicate hd, hc]
  rfl

/-- Commas add no line breaks. -/
theorem oneLine_commaLines {ls : List String} (h : ∀ l ∈ ls, OneLine l) :
    ∀ l ∈ commaLines ls, OneLine l := by
  rw [commaLines_eq]
  refine List.forall_mem_append.mpr ⟨List.forall_mem_map.mpr fun l hl => ?_, fun l hl => ?_⟩
  · exact .append (h l (List.mem_of_mem_dropLast hl)) (by decide)
  · exact h l (List.mem_of_getLast? (Option.mem_toList.mp hl))

structure SelectEntry.Unbroken (e : SelectEntry) : Prop where
  column : OneLine e.column.text
  label : ∀ label ∈ e.label, OneLine label

/-- A line of the select list has no break if its entry has none. -/
theorem SelectEntry.Unbroken.line {e : SelectEntry} (he : e.Unbroken) (width : Nat) :
    OneLine (e.line width) := by
  have hspaces (n : Nat) : OneLine (Text.spaces n) := oneLine_replicate n rfl
  have hcolumn : OneLine ("\t" ++ e.column.text) := .append (by decide) he.column
  unfold SelectEntry.line
  split
  · next label _ hlabel =>
    exact .append (.append (.append (by decide) (hspaces _)) (by decide)) (he.label label hlabel)
  · next label hlabel _ =>
    exact .append (.append (.append hcolumn (hspaces _)) (by decide)) (he.label label hlabel)
  · exact hcolumn

structure JoinClause.Unbroken (j : JoinClause) : Prop where
  table : OneLine j.table
  qualifier : OneLine j.qualifier
  conditions : ∀ c ∈ j.conditions, OneLine c.left.qualified ∧ OneLine c.right.qualified

theorem JoinClause.Unbroken.lines {j : JoinClause} (hj : j.Unbroken) :
    ∀ line ∈ j.lines, OneLine line := by
  have hkeyword : OneLine ("\t\t" ++ j.kind.keyword) := by cases j.kind <;> decide
  have htable : OneLine ("\t\t" ++ j.kind.keyword ++ " join " ++ j.table) :=
    .append (.append hkeyword (by decide)) hj.table
  have hhead : OneLine ("\t\t" ++ j.kind.keyword ++ " join " ++ j.table ++ " as " ++ j.qualifier ++
      " on") := .append (.append (.append htable (by decide)) hj.qualifier) (by decide)
  have htext : ∀ c ∈ j.conditions, OneLine c.text := by
    intro c hc
    obtain ⟨hleft, hright⟩ := hj.conditions c hc
    exact .append (.append hleft (by decide)) hright
  unfold JoinClause.lines
  cases hconditions : j.conditions with
  | nil => exact List.forall_mem_singleton.mpr hhead
  | cons c cs =>
    rw [hconditions] at htext
    obtain ⟨hc, hcs⟩ := List.forall_mem_cons.mp htext
    refine List.forall_mem_cons.mpr ⟨hhead, List.forall_mem_cons.mpr ⟨.append (by decide) hc, ?_⟩⟩
    exact List.forall_mem_map.mpr fun c hc => .append (by decide) (hcs c hc)

/-- A line of the filter has no break if the texts of the conditions have none. -/
theorem WhereLine.oneLine_text {lines : List WhereLine} (h : ∀ text ∈ texts lines, OneLine text)
    {l : WhereLine} (hl : l ∈ lines) : OneLine l.text := by
  have htabs : OneLine (Text.tabs l.depth) := oneLine_replicate _ rfl
  have hop (op : LogicalOp) : OneLine op.sql := by cases op <;> decide
  refine .append htabs ?_
  cases l with
  | condition d op text =>
    have htext : OneLine text :=
      h text (List.mem_map.mpr ⟨(d, text), List.mem_filterMap.mpr ⟨_, hl, rfl⟩, rfl⟩)
    cases op with
    | none => exact htext
    | some op => exact .append (.append (hop op) (by decide)) htext
  | connective d op => exact hop op
  | opening d => exact (by decide : OneLine "(")
  | closing d => exact (by decide : OneLine ")")

namespace SelectStatement

structure Unbroken (st : SelectStatement) : Prop where
  columns : ∀ e ∈ st.columns, e.Unbroken
  table : OneLine st.table
  qualifier : OneLine st.qualifier
  joins : ∀ j ∈ st.joins, j.Unbroken
  filter : ∀ lines ∈ st.filter, ∀ text ∈ WhereLine.texts lines, OneLine text
  orderBy : ∀ c ∈ st.orderBy, OneLine c.qualified

variable {st : SelectStatement}

theorem Unbroken.selectLines (h : st.Unbroken) :
    ∀ line ∈ selectLines st.distinct st.columns, OneLine line := by
  have hdistinct : ∀ line ∈ (if st.distinct then ["\tdistinct"] else []), OneLine line := by
    cases st.distinct <;> decide
  refine List.forall_mem_append.mpr ⟨hdistinct, oneLine_commaLines ?_⟩
  exact List.forall_mem_map.mpr fun e he => (h.columns e he).line _

theorem Unbroken.whereLines (h : st.Unbroken) : ∀ line ∈ st.whereLines, OneLine line := by
  unfold SelectStatement.whereLines
  split
  · simp
  · next lines hlines =>
    have hkept : ∀ text ∈ WhereLine.texts (WhereLine.stripAlwaysTrue lines).1, OneLine text := by
      rw [WhereLine.texts_stripAlwaysTrue]
      exact fun text htext => h.filter lines hlines text (List.mem_of_mem_filter htext)
    split
    · simp
    · refine List.forall_mem_cons.mpr ⟨by decide, ?_⟩
      exact List.forall_mem_map.mpr fun l hl => WhereLine.oneLine_text hkept hl

theorem Unbroken.orderLines (h : st.Unbroken) : ∀ line ∈ st.orderLines, OneLine line := by
  unfold SelectStatement.orderLines
  split
  · simp
  · refine List.forall_mem_cons.mpr ⟨by decide, oneLine_commaLines ?_⟩
    exact List.forall_mem_map.mpr fun c hc => .append (by decide) (h.orderBy c hc)

/-- The lines of a statement have no breaks in them. -/
theorem Unbroken.lines (h : st.Unbroken) : ∀ line ∈ st.lines, OneLine line := by
  have hfrom : OneLine ("\t" ++ st.table ++ " as " ++ st.qualifier) :=
    .append (.append (.append (by decide) h.table) (by decide)) h.qualifier
  have hjoins : ∀ line ∈ st.joins.flatMap JoinClause.lines, OneLine line := by
    intro line hline
    obtain ⟨j, hj, hline⟩ := List.mem_flatMap.mp hline
    exact (h.joins j hj).lines line hline
  refine List.forall_mem_append.mpr ⟨List.forall_mem_cons.mpr ⟨by decide, h.selectLines⟩, ?_⟩
  refine List.forall_mem_cons.mpr ⟨by decide, List.forall_mem_cons.mpr ⟨hfrom, ?_⟩⟩
  refine List.forall_mem_append.mpr ⟨List.forall_mem_append.mpr ⟨hjoins, h.whereLines⟩, ?_⟩
  exact h.orderLines

end SelectStatement

/-- A parameter in one line is assigned in one line. -/
theorem Parameter.Unbroken.literal {p : Parameter} (hp : p.Unbroken) : OneLine p.literal := by
  have hquoted : OneLine (String.ofList (Text.doubleQuotes p.value.toList)) :=
    .ofList (oneLine_doubleQuotes hp.value)
  unfold Parameter.literal
  cases p.kind with
  | bigint => exact hp.value
  | decimal => exact hp.value
  | nchar => exact .append (.append (by decide) hquoted) (by decide)
  | nvarchar => exact .append (.append (by decide) hquoted) (by decide)
  | datetime => exact .append (.append (by decide) hp.value) (by decide)

namespace Query

def withLineEnding (q : Query) (ending : LineEnding) : Query :=
  q.withOptions { q.options with lineEnding := ending }

-- No line break is in the names of tables, columns and labels, in the texts of the filter, and in
-- the parameters of the select list.
structure Unbroken (q : Query) : Prop where
  columns : ∀ e ∈ q.columns, e.Unbroken
  table : ∀ e ∈ q.source, OneLine (q.names.tableName e)
  qualifier : ∀ e ∈ q.source, ∀ name, q.aliases.aliasFor e = .ok name → OneLine name
  joins : ∀ j ∈ q.joins, j.Unbroken
  filter : ∀ p ∈ q.filter, ∀ c ∈ p.conditions, c.Unbroken q.scope
  orderBy : ∀ c ∈ q.orderBy, OneLine c.qualified
  parameters : q.parameters.Unbroken

variable {q : Query} {b : BuiltQuery} {st : SelectStatement} {t : ParameterTable} {f : Fault}

/-- The filter does not look at the ending. -/
theorem compileFilter_withLineEnding (q : Query) (ending : LineEnding) :
    (q.withLineEnding ending).compileFilter = q.compileFilter := rfl

/-- The same statement is built with another line ending. -/
theorem Builds.withLineEnding (h : q.Builds b st t) (ending : LineEnding) :
    (q.withLineEnding ending).Builds ((q.withLineEnding ending).written st t.parameters) st t :=
  { h with built_eq := rfl, filter := (compileFilter_withLineEnding q ending).trans h.filter }

/-- A filter in one line is compiled to lines in one line. -/
theorem Unbroken.compileFilter {filter : Option (List WhereLine)} (hq : q.Unbroken)
    (h : q.compileFilter = .ok (filter, t)) :
    (∀ lines ∈ filter, ∀ text ∈ WhereLine.texts lines, OneLine text) ∧ t.Unbroken := by
  obtain ⟨-, rfl, rfl⟩ | ⟨p, lines, hp, rfl, hcompile⟩ := compileFilter_eq_ok.mp h
  · exact ⟨by simp, hq.parameters⟩
  · obtain ⟨htexts, ht⟩ := Predicate.keeps_compile (hq.filter p hp) _ _ _ hq.parameters hcompile
    exact ⟨by simpa using htexts, ht⟩

/-- The statement of a query without breaks has none. -/
theorem Unbroken.statement (hq : q.Unbroken) (h : q.Builds b st t) : st.Unbroken := by
  obtain ⟨e, he, htable, hqualifier⟩ := h.source
  refine ⟨?_, ?_, hq.qualifier e he _ hqualifier, ?_, (hq.compileFilter h.filter).1, ?_⟩
  · rw [h.columns_eq]
    exact hq.columns
  · rw [htable]
    exact hq.table e he
  · rw [h.joins_eq]
    exact hq.joins
  · rw [h.orderBy_eq]
    exact hq.orderBy

end Query

namespace Demo

end Demo

end SqlSelect
