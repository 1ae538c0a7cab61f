import SqlSelect.Document.Filter
import SqlSelect.Document.Writing
import SqlSelect.Proofs.Calendar.Written
import SqlSelect.Proofs.Document.Operand
import SqlSelect.Proofs.Parameter.Call
import SqlSelect.Proofs.Rendered
import SqlSelect.Proofs.Where.Pruning

/-! Dates as operands. However a date is written, a comparison with it is rendered as one with the
date itself; and two dates have one parameter only if they are one date. -/
namespace SqlSelect

open Rendering

-- The date in a document by its numbers or as a text, its numbers themselves, and a literal.
def Date.forms (d : Date) : List (Option (Except Fault Operand)) :=
  [(WrittenOperand.ofJson? (.object [("ymd", .array [.int d.year, .int d.month, .int d.day])])).map
      (·.toOperand),
    (WrittenOperand.ofJson? (.object [("date", .string d.isoText)])).map (·.toOperand),
    some (.ok (.dateParts d.year d.month d.day)),
    some (.ok (.literal (.date d)))]

-- A column compared with something, which is on the left if the sides are swapped.
def Condition.ofColumn (column : ColumnRef) (op : CompareOp) (swapped : Bool) (o : Operand) :
    Condition :=
  if swapped then compare o op (.column column) else compare (.column column) op o

def CompareOp.textOf (op : CompareOp) (swapped : Bool) (column other : String) : String :=
  if swapped then other ++ " " ++ op.sql ++ " " ++ column
  else column ++ " " ++ op.sql ++ " " ++ other

/-- Whole numbers that are not too large are read as they are written. -/
theorem WrittenOperand.ofJson?_dateParts {year : Int} {month day : Nat}
    (hyear : -Int.pow 2 31 ≤ year ∧ year < Int.pow 2 31) (hmonth : (month : Int) < Int.pow 2 32)
    (hday : (day : Int) < Int.pow 2 32) :
    ofJson? (.object [("ymd", .array [.int year, .int month, .int day])]) =
      some (dateParts year month day) := by
  have hslot : Json.slot? [("ymd", Json.array [.int year, .int month, .int day])] "ymd" =
    some (some (.array [.int year, .int month, .int day])) := rfl
  have hnat (n : Nat) (hn : (n : Int) < Int.pow 2 32) :
      (Json.int n).within? 0 (Int.pow 2 32) = some (n : Int) :=
    Json.within?_eq_some.mpr ⟨rfl, Int.natCast_nonneg n, hn⟩
  have hparts : datePartsOfJson? (.object [("ymd", .array [.int year, .int month, .int day])]) =
      some (dateParts year month day) := by
    simp only [datePartsOfJson?, hslot, Option.bind_eq_bind, Option.bind_some,
      Json.within?_eq_some.mpr ⟨rfl, hyear⟩, hnat month hmonth, hnat day hday]
    rfl
  -- Neither of the forms that are tried first has its members here.
  have hearlier : ofJson? (.object [("ymd", .array [.int year, .int month, .int day])]) =
      (datePartsOfJson? (.object [("ymd", .array [.int year, .int month, .int day])]) <|> _) := rfl
  rw [hearlier, hparts]
  rfl

/-- Every form can be read, and is the date in numbers or the date itself. -/
theorem Date.eq_of_mem_forms {d : Date} {form : Option (Except Fault Operand)}
    (h : form ∈ d.forms) :
    ∃ o, form = some (.ok o) ∧
      (o = .dateParts d.year d.month d.day ∨ o = .literal (.date d)) := by
  obtain ⟨hfirst, hlast, -⟩ := d.isDate
  have hyear : -Int.pow 2 31 ≤ d.year ∧ d.year < Int.pow 2 31 := by
    simpa using isReadable_year hfirst hlast
  have hsmall (n : Nat) (hn : n ≤ 31) : (n : Int) < Int.pow 2 32 :=
    Int.lt_of_le_of_lt (Int.ofNat_le.mpr hn) (by decide)
  have hnumbers := WrittenOperand.ofJson?_dateParts hyear
    (hsmall d.month (d.month_range.2.trans (by decide))) (hsmall d.day d.day_range.2)
  have htext : WrittenOperand.ofJson? (.object [("date", .string d.isoText)]) =
      some (.literal (.object [("date", .string d.isoText)])) := rfl
  have hvalue : Value.ofJson (.object [("date", .string d.isoText)]) = .ok (.date d) := by
    change Value.ofDateText d.isoText = _
    rw [Value.ofDateText, d.ofIsoText_isoText]
  simp only [forms, hnumbers, htext, Option.map_some, WrittenOperand.toOperand, hvalue,
    List.mem_cons, List.not_mem_nil, or_false] at h
  rcases h with rfl | rfl | rfl | rfl
  · exact ⟨_, rfl, .inl rfl⟩
  · exact ⟨_, rfl, .inr rfl⟩
  · exact ⟨_, rfl, .inl rfl⟩
  · exact ⟨_, rfl, .inr rfl⟩

namespace Condition

variable {s : Scope} {t u : ParameterTable} {column : ColumnRef} {op : CompareOp} {swapped : Bool}

/-- Without null, a comparison is its two sides with the operator between them. -/
theorem renderCompare_of_not_isNull {left right : Operand} (hleft : left.isNull = false)
    (hright : right.isNull = false) :
    renderCompare s left op right = (do
      let l ← left.render s
      let r ← right.render s
      pure (l ++ " " ++ op.sql ++ " " ++ r)) := by
  simp only [Operand.isNull, Bool.or_eq_false_iff] at hleft hright
  simp [renderCompare, hleft, hright]

/-- A date by its numbers is compared as the literal is. -/
theorem render_ofColumn_dateParts (d : Date) :
    (ofColumn column op swapped (.dateParts d.year d.month d.day)).render s =
      (ofColumn column op swapped (.literal (.date d))).render s := by
  have hoperand : (Operand.dateParts d.year d.month d.day).render s =
      (Operand.literal (.date d)).render s := by
    simp only [Operand.render, d.ofParts?_parts]
    rfl
  cases swapped
  · change renderCompare s _ op _ = renderCompare s _ op _
    rw [renderCompare_of_not_isNull rfl rfl, renderCompare_of_not_isNull rfl rfl, hoperand]
  · change renderCompare s _ op _ = renderCompare s _ op _
    rw [renderCompare_of_not_isNull rfl rfl, renderCompare_of_not_isNull rfl rfl, hoperand]

/-- A column that is compared with a date has the parameter of the date beside it. -/
theorem yields_ofColumn_date {c : ResolvedColumn} {d : Date} {name : String}
    (hc : s.aliases.resolve s.names column = .ok c)
    (hbind : t.bindLiteral (.date d) = (.ok name, u)) :
    Yields ((ofColumn column op swapped (.literal (.date d))).render s) t
      (op.textOf swapped c.qualified name) u := by
  have hcolumn (t : ParameterTable) : Yields ((Operand.column column).render s) t c.qualified t :=
    (yields_map _ _ _ _ _).mpr ⟨c, Scope.yields_column.mpr ⟨hc, rfl⟩, rfl⟩
  have hdate : Yields ((Operand.literal (.date d)).render s) t name u :=
    (yields_step _ _ _ _).mpr hbind
  cases swapped
  · change Yields (renderCompare s _ op _) _ _ _
    rw [renderCompare_of_not_isNull rfl rfl]
    simp only [yields_bind, yields_pure]
    exact ⟨_, t, hcolumn t, name, u, hdate, rfl, rfl⟩
  · change Yields (renderCompare s _ op _) _ _ _
    rw [renderCompare_of_not_isNull rfl rfl]
    simp only [yields_bind, yields_pure]
    exact ⟨name, u, hdate, _, u, hcolumn u, rfl, rfl⟩

end Condition

open Condition ParameterTable

/-- All forms of a date are read, and compared with a column they give one text and leave one table,
whatever the column and the table. The parameter in the text has the date as its value, and later it
is that of a date exactly if this is the same date. -/
theorem Date.render_forms (calls : List TableCall) (d : Date) (s : Scope) (column : ColumnRef)
    (op : CompareOp) (swapped : Bool) :
    (∀ form ∈ d.forms, ∃ o, form = some (.ok o) ∧
        (ofColumn column op swapped o).render s =
          (ofColumn column op swapped (.literal (.date d))).render s) ∧
      ∀ c, s.aliases.resolve s.names column = .ok c → ∃ name u,
        Yields ((ofColumn column op swapped (.literal (.date d))).render s) (run {} calls)
          (op.textOf swapped c.qualified name) u ∧
        u.find? name = some ⟨name, d.sqlText, .datetime⟩ ∧
        ∀ later (d' : Date) (s' : Scope) column' (op' : CompareOp) swapped' c',
          s'.aliases.resolve s'.names column' = .ok c' → ∃ name' u',
            Yields ((ofColumn column' op' swapped' (.literal (.date d'))).render s') (u.run later)
              (op'.textOf swapped' c'.qualified name') u' ∧ (name' = name ↔ d' = d) := by
  constructor
  · intro form hform
    obtain ⟨o, rfl, rfl | rfl⟩ := eq_of_mem_forms hform
    · exact ⟨_, rfl, render_ofColumn_dateParts d⟩
    · exact ⟨_, rfl, rfl⟩
  · intro c hc
    have h : (run {} calls).Consistent := consistent_empty.run calls
    obtain ⟨name, u, hbind, hmem, -⟩ := h.exists_bindLiteral (v := .date d) rfl
    have hu : u.Consistent := h.binds (.literal hbind)
    refine ⟨name, u, yields_ofColumn_date hc hbind,
      hu.find?_of_mem (mem_parameters_of_mem_literals hmem), ?_⟩
    intro later d' s' column' op' swapped' c' hc'
    -- The first parameter is still there when the second date is bound.
    have hlater : (u.run later).Consistent := hu.run later
    obtain ⟨name', u', hbind', hmem', -⟩ := hlater.exists_bindLiteral (v := .date d') rfl
    have hu' : u'.Consistent := hlater.binds (.literal hbind')
    have hgrows : u.Grows u' := (grows_run u later).trans (Binds.literal hbind').grows
    refine ⟨name', u', yields_ofColumn_date hc' hbind', ?_⟩
    rw [hu'.name_eq_iff hmem' ((hgrows.literals hu.placed).subset hmem)]
    exact ⟨fun heq => sqlText_injective heq.2, fun heq => ⟨rfl, congrArg sqlText heq⟩⟩

namespace Demo

-- A year before the first one, in which the sign stands next to a dash.
def ides : Date := ⟨-44, 3, 15, by decide⟩

def born : ColumnRef := .property student "DateOfBirth"

end Demo

/-- The first two numbers are taken, by a variable and by another date. -/
theorem Date.render_forms_ides :
    Demo.ides.isoText = "-0044-03-15" ∧ ∃ u,
      Yields ((ofColumn Demo.born .lt true (.literal (.date Demo.ides))).render Demo.studentScope)
        (run {} Demo.crowdedNames) "@param_date_3 < s.birth_date" u ∧
      u.find? "@param_date_3" = some ⟨"@param_date_3", "15-Mar--0044", .datetime⟩ ∧
      ∀ later, ∃ u', Yields
        ((ofColumn Demo.born .gte false (.literal (.date Demo.ides))).render Demo.studentScope)
        (u.run later) "s.birth_date >= @param_date_3" u' := by
  have hborn : Demo.studentScope.aliases.resolve Demo.studentScope.names Demo.born =
      .ok ⟨"s", Demo.student, "DateOfBirth", "birth_date", .datetime⟩ := rfl
  obtain ⟨name, u, hyields, hfind, hlater⟩ :=
    (Date.render_forms Demo.crowdedNames Demo.ides Demo.studentScope Demo.born .lt true).2 _ hborn
  obtain rfl : "@param_date_3" = name := by
    have htext : (((ofColumn Demo.born .lt true (.literal (.date Demo.ides))).render
        Demo.studentScope).run (run {} Demo.crowdedNames)).1.toOption =
          some (CompareOp.lt.textOf true "s.birth_date" "@param_date_3") := by
      decide +kernel
    rw [hyields] at htext
    have hsame : name ++ " " ++ CompareOp.lt.sql ++ " " ++ "s.birth_date" =
        "@param_date_3" ++ " " ++ CompareOp.lt.sql ++ " " ++ "s.birth_date" :=
      Option.some.inj htext
    simpa only [String.append_left_inj, eq_comm] using hsame
  refine ⟨by decide +kernel, u, hyields, hfind, fun later => ?_⟩
  obtain ⟨name', u', hyields', hiff⟩ :=
    hlater later Demo.ides Demo.studentScope Demo.born .gte false _ hborn
  rw [hiff.mpr rfl] at hyields'
  exact ⟨u', hyields'⟩

end SqlSelect
