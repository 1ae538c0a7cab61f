import SqlSelect.Where.Line
/-!
Removal of conditions that are always true, and of the groups that they leave empty. What follows a
removed first member of a group loses its connective.
-/

namespace SqlSelect.WhereLine

-- The line at the front opens its group: at that depth it has no connective.
def openGroup (depth : Nat) : List WhereLine → List WhereLine
  | connective d op :: rest => if d = depth then rest else connective d op :: rest
  | condition d op text :: rest => condition d (if d = depth then none else op) text :: rest
  | lines => lines

theorem length_openGroup_le (depth : Nat) (lines : List WhereLine) :
    (openGroup depth lines).length ≤ lines.length := by
  unfold openGroup
  split
  · split <;> simp
  · simp
  · exact Nat.le_refl _

def stepBack : List WhereLine → List WhereLine → List WhereLine × List WhereLine
  | [], after => ([], after)
  | l :: before, after => (before, l :: after)

def afterFilter (depth : Nat) (op : Option LogicalOp) (before after : List WhereLine) :
    List WhereLine × List WhereLine :=
  match op with
  | none => stepBack before (openGroup depth after)
  | some _ => stepBack before after

-- Goes on after an empty group was removed, with the connective that it had on a line before it.
def afterGroup (depth : Nat) (before after : List WhereLine) : List WhereLine × List WhereLine :=
  match before with
  | connective d op :: before =>
    -- The group was not the first of its own group, so what follows keeps its connective.
    if d = depth then stepBack before after
    else stepBack (connective d op :: before) (openGroup depth after)
  | before => stepBack before (openGroup depth after)

-- The lines before the next position, last first, those after it, and whether something was
-- removed.
def sweepStep (before : List WhereLine) (line : WhereLine) (rest : List WhereLine) :
    (List WhereLine × List WhereLine) × Bool :=
  match line, rest with
  | condition depth op text, rest =>
    if text = alwaysTrue then (afterFilter depth op before rest, true)
    else ((condition depth op text :: before, rest), false)
  | opening depth, closing _ :: rest => (afterGroup depth before rest, true)
  | line, rest => ((line :: before, rest), false)

-- Twice the lines ahead and once those behind: removals shrink it although they step back.
def sweepSize (p : List WhereLine × List WhereLine) : Nat :=
  p.1.length + 2 * p.2.length

theorem sweepSize_stepBack_le (before after : List WhereLine) :
    sweepSize (stepBack before after) ≤ before.length + 2 * after.length + 1 := by
  cases before with
  | nil => simp [stepBack, sweepSize]
  | cons l before =>
    simp only [stepBack, sweepSize, List.length_cons]
    omega

theorem sweepSize_afterFilter_le (depth : Nat) (op : Option LogicalOp)
    (before after : List WhereLine) :
    sweepSize (afterFilter depth op before after) ≤ before.length + 2 * after.length + 1 := by
  cases op with
  | none =>
    have h1 := length_openGroup_le depth after
    have h2 := sweepSize_stepBack_le before (openGroup depth after)
    simp only [afterFilter]
    omega
  | some _ => exact sweepSize_stepBack_le before after

theorem sweepSize_afterGroup_le (depth : Nat) (before after : List WhereLine) :
    sweepSize (afterGroup depth before after) ≤ before.length + 2 * after.length + 1 := by
  have h1 := length_openGroup_le depth after
  unfold afterGroup
  split
  · next d op before =>
    split
    · have h2 := sweepSize_stepBack_le before after
      simp only [List.length_cons]
      omega
    · have h2 := sweepSize_stepBack_le (connective d op :: before) (openGroup depth after)
      omega
  · have h2 := sweepSize_stepBack_le before (openGroup depth after)
    omega

/-- Every step leaves less to do, though it may step back. -/
theorem sweepSize_sweepStep (before : List WhereLine) (line : WhereLine) (rest : List WhereLine) :
    sweepSize (sweepStep before line rest).1 < sweepSize (before, line :: rest) := by
  unfold sweepStep
  split
  · next depth op text =>
    have h := sweepSize_afterFilter_le depth op before rest
    split <;> simp only [sweepSize, List.length_cons] at h ⊢ <;> omega
  · next depth _ rest =>
    have h := sweepSize_afterGroup_le depth before rest
    simp only [sweepSize, List.length_cons] at h ⊢
    omega
  · simp only [sweepSize, List.length_cons]
    omega

-- One pass; `before` holds the lines passed, last first.
def sweepFrom (before after : List WhereLine) (changed : Bool) : List WhereLine × Bool :=
  match after with
  | [] => (before.reverse, changed)
  | line :: rest =>
    have := sweepSize_sweepStep before line rest
    let next := sweepStep before line rest
    sweepFrom next.1.1 next.1.2 (changed || next.2)
termination_by before.length + 2 * after.length
decreasing_by simpa [sweepSize] using this

-- The lines after one pass, and whether it removed any.
def sweep (lines : List WhereLine) : List WhereLine × Bool :=
  sweepFrom [] lines false

-- Passes until one removes nothing, at most `limit`; with their number.
def cleanWithin : (limit : Nat) → List WhereLine → List WhereLine × Nat
  | 0, lines => (lines, 0)
  | limit + 1, lines =>
    let (swept, changed) := sweep lines
    if changed then
      let (cleaned, passes) := cleanWithin limit swept
      (cleaned, passes + 1)
    else (swept, 1)

def maxPasses : Nat := 15

-- The lines without conditions that are always true, and the number of passes made.
def stripAlwaysTrue (lines : List WhereLine) : List WhereLine × Nat :=
  cleanWithin maxPasses lines

end SqlSelect.WhereLine
