import SqlSelect.Proofs.Where.Sweep

/-! The cleanup of any lines, balanced or not: a pass ends, one pass finds all that there is to
remove, and the next one only confirms it. -/
namespace SqlSelect.WhereLine

variable {lines before after rest : List WhereLine} {line : WhereLine} {changed : Bool}

-- A pass that is given up after so many steps.
def sweepWithin : (steps : Nat) → (before after : List WhereLine) → (changed : Bool) →
    Option (List WhereLine × Bool)
  | _, before, [], changed => some (before.reverse, changed)
  | 0, _, _ :: _, _ => none
  | steps + 1, before, line :: rest, changed =>
    let next := sweepStep before line rest
    sweepWithin steps next.1.1 next.1.2 (changed || next.2)

/-- Steps back included, a pass makes no more steps than its size. -/
theorem sweepWithin_eq_some {steps : Nat} (h : sweepSize (before, after) ≤ steps) :
    sweepWithin steps before after changed = some (sweepFrom before after changed) := by
  induction steps generalizing before after changed with
  | zero =>
    cases after with
    | nil => simp [sweepWithin, sweepFrom]
    | cons line rest => simp [sweepSize] at h
  | succ steps ih =>
    cases after with
    | nil => simp [sweepWithin, sweepFrom]
    | cons line rest =>
      have hless := sweepSize_sweepStep before line rest
      rw [sweepWithin, sweepFrom]
      exact ih (Nat.le_of_lt_succ (Nat.lt_of_lt_of_le hless h))

/-- A step that removes nothing passes its line. -/
theorem sweepStep_of_unchanged (h : (sweepStep before line rest).2 = false) :
    sweepStep before line rest = ((line :: before, rest), false) := by
  rcases sweepStep_cases before line rest with
    ⟨depth, op, rfl, hs⟩ | ⟨depth, d, after, rfl, rfl, hs⟩ | ⟨-, -, hs⟩
  · rw [hs] at h
    cases h
  · rw [hs] at h
    cases h
  · exact hs

/-- A pass that removes nothing gives its lines back. -/
theorem sweepFrom_of_unchanged (h : (sweepFrom before after changed).2 = false) :
    changed = false ∧ (sweepFrom before after changed).1 = before.reverse ++ after := by
  fun_induction sweepFrom before after changed with
  | case1 before changed => exact ⟨h, (List.append_nil _).symm⟩
  | case2 before changed line rest _ next ih =>
    obtain ⟨hchanged, hlines⟩ := ih h
    rw [Bool.or_eq_false_iff] at hchanged
    have hnext : next = ((line :: before, rest), false) := sweepStep_of_unchanged hchanged.2
    refine ⟨hchanged.1, ?_⟩
    rw [hlines, hnext]
    simp

/-- A pass reports no removal just where there was nothing to remove. -/
theorem sweep_snd_eq_false_iff : (sweep lines).2 = false ↔ Clean lines := by
  constructor
  · intro h
    obtain ⟨-, hlines⟩ := sweepFrom_of_unchanged h
    have hclean := clean_swept lines
    rwa [swept, hlines, List.reverse_nil, List.nil_append] at hclean
  · intro h
    rw [sweep_clean h]

/-- Any lines are cleaned by one pass, which ends within twice as many steps as there are lines. The
second pass finds nothing, so the limit on the passes is never reached, and cleaning again changes
nothing. -/
theorem stripAlwaysTrue_of_any (lines : List WhereLine) :
    sweepWithin (2 * lines.length) [] lines false = some (sweep lines) ∧
      Clean (sweep lines).1 ∧
      sweep (sweep lines).1 = ((sweep lines).1, false) ∧
      (stripAlwaysTrue lines).2 ≤ 2 ∧
      ((stripAlwaysTrue lines).2 = 1 ↔ Clean lines) ∧
      (∀ limit, 2 ≤ limit → cleanWithin limit lines = stripAlwaysTrue lines) ∧
      (stripAlwaysTrue (stripAlwaysTrue lines).1).1 = (stripAlwaysTrue lines).1 := by
  have hstrip : stripAlwaysTrue lines = ((sweep lines).1, if (sweep lines).2 then 2 else 1) :=
    cleanWithin_add_two 13 lines
  refine ⟨?_, clean_swept lines, sweep_clean (clean_swept lines), ?_, ?_, ?_, ?_⟩
  · exact sweepWithin_eq_some (by simp [sweepSize])
  · rw [hstrip]
    split <;> simp
  · rw [hstrip, ← sweep_snd_eq_false_iff]
    cases (sweep lines).2 <;> simp
  · intro limit hlimit
    obtain ⟨more, rfl⟩ := Nat.exists_eq_add_of_le' hlimit
    rw [hstrip, cleanWithin_add_two]
  · have hagain := congrArg Prod.fst (sweep_clean (clean_swept lines))
    rw [stripAlwaysTrue_fst, stripAlwaysTrue_fst]
    exact hagain

/-- Neither the order of these lines nor their depths are those of a filter. -/
theorem stripAlwaysTrue_of_any_unbalanced :
    sweep [closing 3, opening 1, opening 4, condition 2 (some .or) alwaysTrue, closing 0,
        connective 4 .and, closing 5] = ([closing 3], true) ∧
      cleanWithin 2 [closing 3, opening 1, opening 4, condition 2 (some .or) alwaysTrue, closing 0,
          connective 4 .and, closing 5] =
        stripAlwaysTrue [closing 3, opening 1, opening 4, condition 2 (some .or) alwaysTrue,
          closing 0, connective 4 .and, closing 5] := by
  obtain ⟨hsteps, -, -, -, -, hlimit, -⟩ := stripAlwaysTrue_of_any [closing 3, opening 1, opening 4,
    condition 2 (some .or) alwaysTrue, closing 0, connective 4 .and, closing 5]
  exact ⟨Option.some.inj (hsteps.symm.trans (by decide)), hlimit 2 (Nat.le_refl 2)⟩

end SqlSelect.WhereLine
