import Mathlib.Data.List.Chain
import SqlSelect.Where.Cleanup

/-! One pass of the cleanup over any lines: what it removes, what it keeps, and that a second pass
finds nothing to remove. -/
namespace SqlSelect.WhereLine

-- The lines after a pass that has passed those before, last first, and has the others ahead.
def swept (before after : List WhereLine) : List WhereLine :=
  (sweepFrom before after false).1

theorem sweepFrom_fst (before after : List WhereLine) (changed : Bool) :
    (sweepFrom before after changed).1 = swept before after := by
  have hany : ∀ c d, (sweepFrom before after c).1 = (sweepFrom before after d).1 := by
    fun_induction sweepFrom before after changed with
    | case1 before changed => intro c d; simp [sweepFrom]
    | case2 before changed line rest _ next ih =>
      intro c d
      rw [sweepFrom, sweepFrom]
      exact ih _ _
  exact hany changed false

theorem swept_nil (before : List WhereLine) : swept before [] = before.reverse := by
  simp [swept, sweepFrom]

theorem swept_cons (before : List WhereLine) (line : WhereLine) (rest : List WhereLine) :
    swept before (line :: rest) =
      swept (sweepStep before line rest).1.1 (sweepStep before line rest).1.2 := by
  rw [swept, sweepFrom]
  exact sweepFrom_fst _ _ _

/-- What holds in every position of a pass holds at its end. -/
theorem swept_induction (P : List WhereLine → List WhereLine → Prop)
    (hstep : ∀ before line rest, P before (line :: rest) →
      P (sweepStep before line rest).1.1 (sweepStep before line rest).1.2)
    (before after : List WhereLine) (h : P before after) : P (swept before after).reverse [] := by
  have hany : ∀ changed, P (sweepFrom before after changed).1.reverse [] := by
    intro changed
    fun_induction sweepFrom before after changed with
    | case1 before changed => simpa using h
    | case2 before changed line rest _ next ih => exact ih (hstep before line rest h)
  exact hany false

def EmptyGroup : WhereLine → WhereLine → Prop
  | opening _, closing _ => True
  | _, _ => False

/-- What one step does: it removes a condition, it removes an empty group, or it goes on. -/
theorem sweepStep_cases (before : List WhereLine) (line : WhereLine) (rest : List WhereLine) :
    (∃ depth op, line = condition depth op alwaysTrue ∧
      sweepStep before line rest = (afterFilter depth op before rest, true)) ∨
    (∃ depth d after, line = opening depth ∧ rest = closing d :: after ∧
      sweepStep before line rest = (afterGroup depth before after, true)) ∨
    (line.isAlwaysTrue = false ∧ (∀ next ∈ rest.head?, ¬ EmptyGroup line next) ∧
      sweepStep before line rest = ((line :: before, rest), false)) := by
  cases line with
  | condition depth op text =>
    by_cases ht : text = alwaysTrue
    · exact Or.inl ⟨depth, op, by rw [ht], by simp [sweepStep, ht]⟩
    · have happlies : (condition depth op text).isAlwaysTrue = false := by
        simp [isAlwaysTrue, ht]
      exact Or.inr (Or.inr ⟨happlies, by simp [EmptyGroup], by simp [sweepStep, ht]⟩)
  | opening depth =>
    rcases rest with _ | ⟨next, after⟩
    · exact Or.inr (Or.inr ⟨rfl, by simp, rfl⟩)
    · cases next with
      | closing d => exact Or.inr (Or.inl ⟨depth, d, after, rfl, rfl, rfl⟩)
      | _ => exact Or.inr (Or.inr ⟨rfl, by simp [EmptyGroup], rfl⟩)
  | _ => exact Or.inr (Or.inr ⟨rfl, by simp [EmptyGroup], rfl⟩)

structure Clean (lines : List WhereLine) : Prop where
  applies : ∀ l ∈ lines, l.isAlwaysTrue = false
  noEmptyGroup : lines.IsChain fun a b => ¬ EmptyGroup a b

/-- No group is empty in clean lines. -/
theorem not_infix_of_clean {lines : List WhereLine} (h : Clean lines) (d e : Nat) :
    ¬ [opening d, closing e] <:+: lines := by
  rintro ⟨front, back, rfl⟩
  exact List.isChain_iff_forall_rel_of_append_cons_cons.mp h.noEmptyGroup
    (List.append_assoc front _ back) trivial

-- The lines passed are clean, up to the line ahead.
structure Passed (before after : List WhereLine) : Prop where
  applies : ∀ l ∈ before, l.isAlwaysTrue = false
  noEmptyGroup : (after.head?.toList ++ before).IsChain fun b a => ¬ EmptyGroup a b

theorem passed_stepBack {before : List WhereLine} (after : List WhereLine)
    (ha : ∀ l ∈ before, l.isAlwaysTrue = false)
    (hc : before.IsChain fun b a => ¬ EmptyGroup a b) :
    Passed (stepBack before after).1 (stepBack before after).2 := by
  cases before with
  | nil =>
    refine ⟨ha, ?_⟩
    cases after <;> simp [stepBack]
  | cons l before => exact ⟨fun k hk => ha k (List.mem_cons_of_mem l hk), hc⟩

theorem passed_afterFilter {before : List WhereLine} (depth : Nat) (op : Option LogicalOp)
    (after : List WhereLine) (ha : ∀ l ∈ before, l.isAlwaysTrue = false)
    (hc : before.IsChain fun b a => ¬ EmptyGroup a b) :
    Passed (afterFilter depth op before after).1 (afterFilter depth op before after).2 := by
  cases op with
  | none => exact passed_stepBack _ ha hc
  | some op => exact passed_stepBack _ ha hc

theorem passed_afterGroup {before : List WhereLine} (depth : Nat) (after : List WhereLine)
    (ha : ∀ l ∈ before, l.isAlwaysTrue = false)
    (hc : before.IsChain fun b a => ¬ EmptyGroup a b) :
    Passed (afterGroup depth before after).1 (afterGroup depth before after).2 := by
  unfold afterGroup
  split
  · split
    · exact passed_stepBack _ (fun l hl => ha l (List.mem_cons_of_mem _ hl)) hc.tail
    · exact passed_stepBack _ ha hc
  · exact passed_stepBack _ ha hc

/-- Every step keeps the lines that are passed clean. -/
theorem passed_sweepStep (before : List WhereLine) (line : WhereLine) (rest : List WhereLine)
    (h : Passed before (line :: rest)) :
    Passed (sweepStep before line rest).1.1 (sweepStep before line rest).1.2 := by
  have hc : (line :: before).IsChain fun b a => ¬ EmptyGroup a b := h.noEmptyGroup
  rcases sweepStep_cases before line rest with
    ⟨depth, op, rfl, hs⟩ | ⟨depth, d, after, rfl, rfl, hs⟩ | ⟨hline, hnext, hs⟩
  · rw [hs]
    exact passed_afterFilter _ _ _ h.applies hc.tail
  · rw [hs]
    exact passed_afterGroup _ _ h.applies hc.tail
  · rw [hs]
    refine ⟨List.forall_mem_cons.mpr ⟨hline, h.applies⟩, ?_⟩
    cases rest with
    | nil => exact hc
    | cons next rest => exact List.isChain_cons_cons.mpr ⟨hnext next rfl, hc⟩

/-- A single pass leaves nothing to remove, whatever the lines. -/
theorem clean_swept (lines : List WhereLine) : Clean (swept [] lines) := by
  have h : Passed (swept [] lines).reverse [] := by
    refine swept_induction Passed passed_sweepStep [] lines ⟨by simp, ?_⟩
    cases lines <;> simp
  refine ⟨fun l hl => h.applies l (List.mem_reverse.mpr hl), ?_⟩
  exact List.isChain_reverse.mp h.noEmptyGroup

/-- A pass over clean lines changes nothing. -/
theorem sweepFrom_clean (before after : List WhereLine) (changed : Bool) (h : Clean after) :
    sweepFrom before after changed = (before.reverse ++ after, changed) := by
  induction after generalizing before with
  | nil => simp [sweepFrom]
  | cons line rest ih =>
    have hrest : Clean rest :=
      ⟨fun l hl => h.applies l (List.mem_cons_of_mem line hl), h.noEmptyGroup.tail⟩
    have hs : sweepStep before line rest = ((line :: before, rest), false) := by
      rcases sweepStep_cases before line rest with
        ⟨depth, op, rfl, _⟩ | ⟨depth, d, after, rfl, rfl, _⟩ | ⟨_, _, hs⟩
      · have hline := h.applies _ List.mem_cons_self
        simp [isAlwaysTrue] at hline
      · exact absurd trivial (List.isChain_cons_cons.mp h.noEmptyGroup).1
      · exact hs
    rw [sweepFrom, hs]
    simpa using ih (line :: before) hrest

theorem sweep_clean {lines : List WhereLine} (h : Clean lines) : sweep lines = (lines, false) :=
  sweepFrom_clean [] lines false h

/-- Two passes are enough: the one that is needed, and the one that finds nothing. -/
theorem cleanWithin_add_two (limit : Nat) (lines : List WhereLine) :
    cleanWithin (limit + 2) lines = ((sweep lines).1, if (sweep lines).2 then 2 else 1) := by
  have hsecond : sweep (sweep lines).1 = ((sweep lines).1, false) := sweep_clean (clean_swept lines)
  rw [cleanWithin]
  rcases hs : sweep lines with ⟨once, changed⟩
  rw [hs] at hsecond
  cases changed with
  | false => rfl
  | true => simp [cleanWithin, hsecond]

/-- The first pass leaves nothing to the later ones. -/
theorem stripAlwaysTrue_fst (lines : List WhereLine) :
    (stripAlwaysTrue lines).1 = swept [] lines :=
  congrArg Prod.fst (cleanWithin_add_two 13 lines)

def condition? : WhereLine → Option (Nat × String)
  | condition d _ text => some (d, text)
  | _ => none

-- The same of a condition that is not always true.
def applied? (l : WhereLine) : Option (Nat × String) :=
  l.condition?.filter fun c => c.2 ≠ alwaysTrue

theorem filterMap_applied?_openGroup (depth : Nat) (lines : List WhereLine) :
    (openGroup depth lines).filterMap applied? = lines.filterMap applied? := by
  unfold openGroup
  split
  · split <;> simp [applied?, condition?]
  · simp [List.filterMap_cons, applied?, condition?]
  · rfl

theorem filterMap_applied?_stepBack (before after : List WhereLine) :
    ((stepBack before after).1.reverse ++ (stepBack before after).2).filterMap applied? =
      (before.reverse ++ after).filterMap applied? := by
  cases before <;> simp [stepBack]

theorem filterMap_applied?_afterGroup (depth d : Nat) (before after : List WhereLine) :
    ((afterGroup depth before after).1.reverse ++ (afterGroup depth before after).2).filterMap
      applied? = (before.reverse ++ opening depth :: closing d :: after).filterMap applied? := by
  unfold afterGroup
  split
  · split <;> rw [filterMap_applied?_stepBack] <;>
      simp [filterMap_applied?_openGroup, applied?, condition?]
  · rw [filterMap_applied?_stepBack]
    simp [filterMap_applied?_openGroup, applied?, condition?]

theorem filterMap_applied?_afterFilter (depth : Nat) (op : Option LogicalOp)
    (before after : List WhereLine) :
    ((afterFilter depth op before after).1.reverse ++ (afterFilter depth op before after).2).filterMap
      applied? = (before.reverse ++ condition depth op alwaysTrue :: after).filterMap applied? := by
  cases op <;> simp only [afterFilter] <;> rw [filterMap_applied?_stepBack] <;>
    simp [filterMap_applied?_openGroup, applied?, condition?]

/-- A step keeps the conditions that apply. -/
theorem filterMap_applied?_sweepStep (before : List WhereLine) (line : WhereLine)
    (rest : List WhereLine) :
    ((sweepStep before line rest).1.1.reverse ++ (sweepStep before line rest).1.2).filterMap applied?
      = (before.reverse ++ line :: rest).filterMap applied? := by
  rcases sweepStep_cases before line rest with
    ⟨depth, op, rfl, hs⟩ | ⟨depth, d, after, rfl, rfl, hs⟩ | ⟨_, _, hs⟩
  · rw [hs]
    exact filterMap_applied?_afterFilter depth op before rest
  · rw [hs]
    exact filterMap_applied?_afterGroup depth d before after
  · simp [hs]

/-- A pass keeps the conditions that apply, in order. -/
theorem filterMap_applied?_swept (lines : List WhereLine) :
    (swept [] lines).filterMap applied? = lines.filterMap applied? := by
  have h := swept_induction
    (fun before after => (before.reverse ++ after).filterMap applied? = lines.filterMap applied?)
    (fun before line rest h => (filterMap_applied?_sweepStep before line rest).trans h)
    [] lines rfl
  simpa using h

theorem filterMap_applied? (lines : List WhereLine) :
    lines.filterMap applied? = (lines.filterMap condition?).filter (·.2 ≠ alwaysTrue) := by
  rw [List.filter_filterMap]
  rfl

/-- All conditions of clean lines apply. -/
theorem filterMap_condition?_of_clean {lines : List WhereLine} (h : Clean lines) :
    lines.filterMap condition? = lines.filterMap applied? := by
  apply List.filterMap_congr
  intro l hl
  have hl' := h.applies l hl
  cases l with
  | condition d op text =>
    have ht : text ≠ alwaysTrue := by simpa [isAlwaysTrue] using hl'
    simp [applied?, condition?, Option.filter, ht]
  | _ => rfl

/-- No other condition is lost, repeated, moved or indented anew. -/
theorem filterMap_condition?_swept (lines : List WhereLine) :
    (swept [] lines).filterMap condition? =
      (lines.filterMap condition?).filter (·.2 ≠ alwaysTrue) := by
  rw [filterMap_condition?_of_clean (clean_swept lines), filterMap_applied?_swept,
    filterMap_applied?]

end SqlSelect.WhereLine
