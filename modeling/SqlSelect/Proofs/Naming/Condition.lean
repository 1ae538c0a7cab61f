import SqlSelect.Proofs.Query.References

/-! The columns that a condition names in its text. -/
namespace SqlSelect

open Rendering

-- A comparison shows the columns among its sides, or tests its only column for null.
def CompareOp.Names {α : Type} (shows : α → String → Prop) (op : CompareOp) (left right : Option α)
    (text : String) : Prop :=
  (∃ l r, text = l ++ " " ++ op.sql ++ " " ++ r ∧ (∀ c ∈ left, shows c l) ∧
      ∀ c ∈ right, shows c r) ∨
    ∃ c column, left.toList ++ right.toList = [c] ∧ shows c column ∧
      (text = column ++ " is null" ∨ text = column ++ " is not null")

-- The text begins with the column, unless it is that of a comparison.
def Condition.Names (shows : ColumnRef → String → Prop) : Condition → String → Prop
  | compare left op right, text => op.Names shows left.column? right.column? text
  | inList c negated _, text => ∃ column items, shows c column ∧
      text = column ++ (if negated then " not in (" else " in (") ++ items ++ ")"
  | pattern c shape _, text => ∃ column pattern, shows c column ∧
      text = column ++ " " ++ shape.test pattern
  | isNull c negated, text => ∃ column, shows c column ∧
      text = column ++ (if negated then " is not null" else " is null")

theorem CompareOp.Names.imp {α β : Type} {shows : α → String → Prop} {shows' : β → String → Prop}
    {f : β → α} {op : CompareOp} {left right : Option β} {text : String}
    (hshows : ∀ b text, shows (f b) text → shows' b text)
    (h : op.Names shows (left.map f) (right.map f) text) : op.Names shows' left right text := by
  rcases h with ⟨l, r, htext, hl, hr⟩ | ⟨c, column, hone, hc, htext⟩
  · refine .inl ⟨l, r, htext, fun b hb => ?_, fun b hb => ?_⟩
    · exact hshows b l (hl (f b) (Option.mem_map_of_mem f hb))
    · exact hshows b r (hr (f b) (Option.mem_map_of_mem f hb))
  · rw [Option.toList_map, Option.toList_map, ← List.map_append, List.map_eq_singleton_iff] at hone
    obtain ⟨b, hone, rfl⟩ := hone
    exact .inr ⟨b, column, hone, hshows b column hc, htext⟩

variable {s : Scope} {t u : ParameterTable} {text : String}

namespace Condition

end Condition

end SqlSelect
