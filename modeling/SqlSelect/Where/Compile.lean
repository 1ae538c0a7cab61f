import SqlSelect.Where.Line
import SqlSelect.Where.Tree
/-!
The lines of a filter: its leaves rendered from left to right, its groups in parentheses one tab
deeper than what is around them. The outermost group has no parentheses.
-/

namespace SqlSelect

namespace LogicalTree

mutual

def linesAt (depth : Nat) : LogicalTree String → List WhereLine
  | leaf c text => [.condition depth c text]
  | group c ts =>
    (c.map (WhereLine.connective depth)).toList ++
      .opening depth :: linesOfAll (depth + 1) ts ++ [.closing depth]

def linesOfAll (depth : Nat) : List (LogicalTree String) → List WhereLine
  | [] => []
  | t :: ts => t.linesAt depth ++ linesOfAll depth ts

end

def lines : LogicalTree String → List WhereLine
  | leaf c text => (leaf c text).linesAt 1
  | group _ ts => linesOfAll 1 ts

end LogicalTree

-- The lines of a filter, filters that do not apply included.
def Predicate.compile (s : Scope) (p : Predicate) : Rendering (List WhereLine) := do
  let rendered ← p.grouping.traverse (·.render s)
  pure rendered.lines

end SqlSelect
