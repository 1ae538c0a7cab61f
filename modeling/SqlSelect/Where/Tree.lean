import SqlSelect.Predicate.Text
/-!
The grouping of a filter: every `and` and `or` is a group of two, whose second member carries the
connective.
-/

namespace SqlSelect

-- A tree of groups over leaves of any kind. The connective joins a node to the one before it in its
-- group.
inductive LogicalTree (α : Type) where
  | leaf (connective : Option LogicalOp) (content : α)
  | group (connective : Option LogicalOp) (children : List (LogicalTree α))

namespace LogicalTree

variable {α β : Type}

def connective : LogicalTree α → Option LogicalOp
  | leaf c _ => c
  | group c _ => c

mutual

def leaves : LogicalTree α → List α
  | leaf _ a => [a]
  | group _ ts => leavesAll ts

def leavesAll : List (LogicalTree α) → List α
  | [] => []
  | t :: ts => t.leaves ++ leavesAll ts

end

mutual

def traverse {m : Type → Type} [Monad m] (f : α → m β) : LogicalTree α → m (LogicalTree β)
  | leaf c a => do
    let b ← f a
    pure (leaf c b)
  | group c ts => do
    let ts ← traverseAll f ts
    pure (group c ts)

def traverseAll {m : Type → Type} [Monad m] (f : α → m β) :
    List (LogicalTree α) → m (List (LogicalTree β))
  | [] => pure []
  | t :: ts => do
    let t ← traverse f t
    let ts ← traverseAll f ts
    pure (t :: ts)

end

end LogicalTree

namespace Predicate

def groupingBehind (connective : Option LogicalOp) : Predicate → LogicalTree Condition
  | condition c => .leaf connective c
  | logical op p q => .group connective [p.groupingBehind none, q.groupingBehind (some op)]

def grouping (p : Predicate) : LogicalTree Condition :=
  p.groupingBehind none

end Predicate

-- One line of an outline; a group has no condition of its own.
structure OutlineEntry where
  depth : Nat
  connective : Option LogicalOp
  condition? : Option Condition

def OutlineEntry.text (e : OutlineEntry) : String :=
  let connective := match e.connective with
    | some op => op.sql
    | none => "-"
  let content := match e.condition? with
    | some c => c.explain
    | none => "group"
  Text.spaces (2 * e.depth) ++ "[" ++ connective ++ "] " ++ content

namespace LogicalTree

mutual

-- The nodes in order, children one level deeper than their group.
def outlineFrom (depth : Nat) : LogicalTree Condition → List OutlineEntry
  | leaf c a => [⟨depth, c, some a⟩]
  | group c ts => ⟨depth, c, none⟩ :: outlineAll (depth + 1) ts

def outlineAll (depth : Nat) : List (LogicalTree Condition) → List OutlineEntry
  | [] => []
  | t :: ts => t.outlineFrom depth ++ outlineAll depth ts

end

def outline (t : LogicalTree Condition) : List OutlineEntry :=
  t.outlineFrom 0

end LogicalTree

def Predicate.outlineText (p : Predicate) : String :=
  String.join (p.grouping.outline.map (·.text ++ "\n"))

end SqlSelect
