import Mathlib.Data.List.Forall2
import Mathlib.Data.List.Induction
import Mathlib.Order.Bounds.Basic
import SqlSelect.SelectList

/-! Labels in the select list stand below each other. The width that is reserved exceeds that of
every entry, so no padding is cut short. -/
namespace SqlSelect

namespace Text

/-- Sizes are those of the encoded text. -/
theorem byteLength_toList (s : String) : byteLength s.toList = s.utf8ByteSize := by
  rw [← String.ofList_toList (s := s), String.toList_ofList]
  induction s.toList with
  | nil => rfl
  | cons c cs ih =>
    rw [String.ofList_cons, String.utf8ByteSize_append, String.utf8ByteSize_singleton, ← ih]
    rfl

@[simp] theorem utf8ByteSize_spaces (n : Nat) : (spaces n).utf8ByteSize = n := by
  rw [← byteLength_toList, spaces, String.toList_ofList]
  induction n with
  | zero => rfl
  | succ n ih =>
    rw [List.replicate_succ, byteLength_cons, ih]
    exact Nat.add_comm 1 n

theorem spaces_succ (n : Nat) : spaces (n + 1) = spaces n ++ " " := by
  rw [spaces, List.replicate_succ', String.ofList_append]
  rfl

end Text

/-- The bytes of a column are those of its alias, of a point and of its name. -/
theorem ResolvedColumn.utf8ByteSize_qualified (c : ResolvedColumn) :
    c.qualified.utf8ByteSize = c.qualifier.utf8ByteSize + 1 + c.column.utf8ByteSize := by
  have hdot : ".".utf8ByteSize = 1 := rfl
  rw [qualified, String.utf8ByteSize_append, String.utf8ByteSize_append, hdot]

/-- The widths, which are added up from the parts of a column, are those of the printed texts. -/
theorem SelectColumn.width_eq (c : SelectColumn) :
    c.width = if c.isNull then 15 else c.text.utf8ByteSize + 4 := by
  cases c with
  | null => rfl
  | column c =>
    calc width (column c)
      _ = c.qualifier.utf8ByteSize + 1 + c.column.utf8ByteSize + 4 := by
        rw [width, Text.byteLength_toList, Text.byteLength_toList]
      _ = c.qualified.utf8ByteSize + 4 := by rw [c.utf8ByteSize_qualified]
  | parameter name => exact congrArg (· + 4) (Text.byteLength_toList name)

/-- All lines but the last end in a comma. -/
theorem commaLines_eq (ls : List String) :
    commaLines ls = ls.dropLast.map (· ++ ",") ++ ls.getLast?.toList := by
  fun_induction commaLines ls with
  | case1 => rfl
  | case2 l => rfl
  | case3 l ls hne ih =>
    obtain ⟨l', ls, rfl⟩ := List.exists_cons_of_ne_nil hne
    simp [ih]

namespace SelectEntry

variable {entries : List SelectEntry}

def widest (entries : List SelectEntry) : Nat :=
  (entries.map (·.column.width)).foldl max 0

theorem widest_le_iff {n : Nat} : widest entries ≤ n ↔ ∀ e ∈ entries, e.column.width ≤ n := by
  induction entries using List.reverseRecOn with
  | nil => simp [widest]
  | append_singleton entries e ih =>
    have hlast : widest (entries ++ [e]) = max (widest entries) e.column.width := by
      simp [widest]
    simp [hlast, ih, or_imp, forall_and]

/-- The greatest width is the least bound of all. -/
theorem isLUB_widest (entries : List SelectEntry) :
    IsLUB {n | ∃ e ∈ entries, n = e.column.width} (widest entries) := by
  rw [isLUB_iff_le_iff]
  intro n
  rw [widest_le_iff]
  constructor
  · rintro h _ ⟨e, he, rfl⟩
    exact h e he
  · intro h e he
    exact h ⟨e, he, rfl⟩

def labelStart (entries : List SelectEntry) : Nat :=
  (widest entries / 10 + 1) * 10

theorem alignedWidth_eq (entries : List SelectEntry) :
    alignedWidth entries = labelStart entries + 2 := rfl

/-- Labels start at the first multiple of ten that is above every width. -/
theorem isLeast_labelStart (entries : List SelectEntry) :
    IsLeast {n | 10 ∣ n ∧ widest entries < n} (labelStart entries) := by
  rw [labelStart]
  refine ⟨⟨⟨_, Nat.mul_comm _ _⟩, by omega⟩, ?_⟩
  rintro _ ⟨⟨k, rfl⟩, hlt⟩
  omega

theorem ten_le_labelStart (entries : List SelectEntry) : 10 ≤ labelStart entries := by
  obtain ⟨⟨hten, hpos⟩, -⟩ := isLeast_labelStart entries
  exact Nat.le_of_dvd (Nat.zero_lt_of_lt hpos) hten

/-- Every entry ends before the labels start. -/
theorem width_lt_labelStart {e : SelectEntry} (he : e ∈ entries) :
    e.column.width < labelStart entries :=
  (widest_le_iff.mp (Nat.le_refl _) e he).trans_lt (isLeast_labelStart entries).1.2

-- A line of the select list whose label, if it has one, starts at this byte behind a space.
inductive Row (start : Nat) (e : SelectEntry) : String → Prop
  | plain (h : e.label = none) : Row start e ("\t" ++ e.column.text)
  | labelled {label : String} (h : e.label = some label) (gap : Nat) (hgap : 0 < gap)
      (hstart : ("\t" ++ e.column.text ++ Text.spaces gap).utf8ByteSize = start) :
      Row start e ("\t" ++ e.column.text ++ Text.spaces gap ++ "as " ++ label)

/-- The space in front of a label that is behind a column or a parameter belongs to the gap. -/
theorem row_padded {start : Nat} {c : SelectColumn} {label : String} (hnull : c.isNull = false)
    (h : c.width < start) :
    Row start ⟨c, some label⟩
      ("\t" ++ c.text ++ Text.spaces (start + 2 - c.width) ++ " as " ++ label) := by
  have hwidth : c.width = c.text.utf8ByteSize + 4 := by
    rw [c.width_eq, hnull]
    rfl
  have hbytes :
      ("\t" ++ c.text ++ Text.spaces (start + 2 - c.width + 1)).utf8ByteSize = start := by
    rw [String.utf8ByteSize_append, String.utf8ByteSize_append, Text.utf8ByteSize_spaces]
    change 1 + c.text.utf8ByteSize + _ = start
    omega
  have hspace : " as " = " " ++ "as " := rfl
  have hline : "\t" ++ c.text ++ Text.spaces (start + 2 - c.width) ++ " as " ++ label =
      "\t" ++ c.text ++ Text.spaces (start + 2 - c.width + 1) ++ "as " ++ label := by
    simp only [hspace, Text.spaces_succ, String.append_assoc]
  rw [hline]
  exact .labelled rfl _ (Nat.succ_pos _) hbytes

/-- The two ways of padding end at one byte, although a null is counted wider than it is. -/
theorem row_line {start : Nat} (e : SelectEntry) (h : e.column.width < start) (hstart : 5 < start) :
    e.Row start (e.line (start + 2)) := by
  obtain ⟨c, label⟩ := e
  cases label with
  | none => cases c <;> exact .plain rfl
  | some label =>
    cases c with
    | null =>
      have hgap : start + 2 - 7 = start - 5 := by omega
      have hbytes : ("\t" ++ "null" ++ Text.spaces (start - 5)).utf8ByteSize = start := by
        rw [String.utf8ByteSize_append, Text.utf8ByteSize_spaces]
        exact Nat.add_sub_cancel' (Nat.le_of_lt hstart)
      rw [line, hgap]
      exact .labelled rfl (start - 5) (by omega) hbytes
    | column c => exact row_padded rfl h
    | parameter name => exact row_padded rfl h

/-- Each entry has its row in the select list. -/
theorem forall₂_row (entries : List SelectEntry) :
    List.Forall₂ (Row (labelStart entries)) entries
      (entries.map (·.line (alignedWidth entries))) := by
  have hten := ten_le_labelStart entries
  rw [List.forall₂_map_right_iff, List.forall₂_same]
  intro e he
  exact row_line e (width_lt_labelStart he) (by omega)

end SelectEntry

open SelectEntry

/-- The select list has one line for each entry, in order and behind that of `distinct`, and a comma
behind all but the last. Every label starts at one byte, two before the width, which is the least
multiple of ten above all widths; no width exceeds what it is subtracted from. -/
theorem selectLines_aligned (distinct : Bool) (entries : List SelectEntry) :
    ∃ widest start rows,
      IsLUB {n | ∃ e ∈ entries, n = e.column.width} widest ∧
      IsLeast {n | 10 ∣ n ∧ widest < n} start ∧ alignedWidth entries = start + 2 ∧
      7 ≤ alignedWidth entries ∧
      (∀ e ∈ entries, e.column.width ≤ alignedWidth entries ∧
        e.column.width = if e.column.isNull then 15 else e.column.text.utf8ByteSize + 4) ∧
      List.Forall₂ (Row start) entries rows ∧
      selectLines distinct entries = (if distinct then ["\tdistinct"] else []) ++
        (rows.dropLast.map (· ++ ",") ++ rows.getLast?.toList) := by
  have hten := ten_le_labelStart entries
  refine ⟨_, _, entries.map (·.line (alignedWidth entries)), isLUB_widest entries,
    isLeast_labelStart entries, alignedWidth_eq entries, ?_, ?_, forall₂_row entries, ?_⟩
  · rw [alignedWidth_eq]
    omega
  · intro e he
    refine ⟨?_, e.column.width_eq⟩
    have hlt := width_lt_labelStart he
    rw [alignedWidth_eq]
    omega
  · rw [selectLines, commaLines_eq]

-- The widest entry counts as nineteen, so that twenty bytes are in front of the labels.
example :
    selectLines true [⟨.null, some "Remarks"⟩, ⟨.parameter "@param_who", none⟩,
        ⟨.parameter "@param_value_10", some "Größe"⟩] =
      ["\tdistinct", "\tnull               as Remarks,", "\t@param_who,",
        "\t@param_value_10    as Größe"] := by
  decide +kernel

end SqlSelect
