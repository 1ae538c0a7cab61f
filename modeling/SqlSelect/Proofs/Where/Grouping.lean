import SqlSelect.Proofs.Yielding
import SqlSelect.Where.Compile

/-! The grouping of a filter with its conditions rendered: the same tree, over the texts. -/
namespace SqlSelect

namespace LogicalTree

variable {α β : Type}

def behind (c : Option LogicalOp) : LogicalTree α → LogicalTree α
  | leaf _ a => leaf c a
  | group _ ts => group c ts

@[simp] theorem behind_leaf (c k : Option LogicalOp) (a : α) :
    (leaf k a).behind c = leaf c a := rfl

@[simp] theorem behind_group (c k : Option LogicalOp) (ts : List (LogicalTree α)) :
    (group k ts).behind c = group c ts := rfl

@[simp] theorem connective_behind (t : LogicalTree α) (c : Option LogicalOp) :
    (t.behind c).connective = c := by
  cases t <;> rfl

@[simp] theorem behind_connective (t : LogicalTree α) : t.behind t.connective = t := by
  cases t <;> rfl

@[simp] theorem behind_behind (t : LogicalTree α) (c k : Option LogicalOp) :
    (t.behind c).behind k = t.behind k := by
  cases t <;> rfl

mutual

def shape : LogicalTree α → LogicalTree Unit
  | leaf c _ => leaf c ()
  | group c ts => group c (shapes ts)

def shapes : List (LogicalTree α) → List (LogicalTree Unit)
  | [] => []
  | t :: ts => t.shape :: shapes ts

end

-- Every group has members, and a member has a connective if it is not the first of its group.
inductive Linked : LogicalTree α → Prop
  | leaf (c : Option LogicalOp) (a : α) : Linked (leaf c a)
  | group (c : Option LogicalOp) {t : LogicalTree α} {ts : List (LogicalTree α)}
      (hfirst : t.connective = none) (hlater : ∀ u ∈ ts, u.connective.isSome)
      (ht : Linked t) (hts : ∀ u ∈ ts, Linked u) : Linked (group c (t :: ts))

theorem mem_leavesAll {ts : List (LogicalTree α)} {a : α} :
    a ∈ leavesAll ts ↔ ∃ t ∈ ts, a ∈ t.leaves := by
  induction ts with
  | nil => simp [leavesAll]
  | cons t ts ih => simp [leavesAll, ih]

section Traverse

variable {m : Type → Type} [Monad m] [LawfulMonad m] (f : α → m β)

mutual

/-- A traversal deals with the leaves from left to right and with nothing else. -/
theorem leaves_traverse : ∀ t : LogicalTree α, leaves <$> t.traverse f = t.leaves.mapM f
  | leaf c a => by simp [traverse, leaves]
  | group c ts => by
    rw [leaves, ← leavesAll_traverseAll ts]
    simp [traverse, leaves]

theorem leavesAll_traverseAll :
    ∀ ts : List (LogicalTree α), leavesAll <$> traverseAll f ts = (leavesAll ts).mapM f
  | [] => by simp [traverseAll, leavesAll]
  | t :: ts => by
    rw [leavesAll, List.mapM_append, ← leaves_traverse t, ← leavesAll_traverseAll ts]
    simp [traverseAll, leavesAll]

end

end Traverse

end LogicalTree

open LogicalTree Rendering

namespace Predicate

variable {f : Condition → Rendering String} {c : Option LogicalOp} {t u : ParameterTable}
  {tree : LogicalTree String}

/-- The leaves of a grouping are the conditions of the predicate. -/
@[simp] theorem leaves_groupingBehind (p : Predicate) (c : Option LogicalOp) :
    (p.groupingBehind c).leaves = p.conditions := by
  induction p generalizing c with
  | condition a => rfl
  | logical op p q ihp ihq => simp [groupingBehind, leaves, leavesAll, conditions, ihp, ihq]

theorem yields_traverse_condition (a : Condition) :
    Yields (((condition a).groupingBehind c).traverse f) t tree u ↔
      ∃ text, Yields (f a) t text u ∧ tree = leaf c text := by
  simp [groupingBehind, LogicalTree.traverse]

/-- In a group, the left side is rendered before the right one. -/
theorem yields_traverse_logical (op : LogicalOp) (p q : Predicate) :
    Yields (((logical op p q).groupingBehind c).traverse f) t tree u ↔
      ∃ l r v, Yields ((p.groupingBehind none).traverse f) t l v ∧
        Yields ((q.groupingBehind (some op)).traverse f) v r u ∧ tree = group c [l, r] := by
  simp only [groupingBehind, LogicalTree.traverse, traverseAll, yields_bind, yields_pure]
  constructor
  · rintro ⟨_, _, ⟨l, v, hl, _, _, ⟨r, _, hr, _, _, ⟨rfl, rfl⟩, rfl, rfl⟩, rfl, rfl⟩, rfl, rfl⟩
    exact ⟨l, r, v, hl, hr, rfl⟩
  · rintro ⟨l, r, v, hl, hr, rfl⟩
    exact ⟨_, _, ⟨l, v, hl, _, _, ⟨r, _, hr, _, _, ⟨rfl, rfl⟩, rfl, rfl⟩, rfl, rfl⟩, rfl, rfl⟩

/-- A filter is compiled by rendering the leaves of its grouping. -/
theorem yields_compile {s : Scope} {p : Predicate} {lines : List WhereLine} :
    Yields (p.compile s) t lines u ↔
      ∃ tree, Yields (p.grouping.traverse (·.render s)) t tree u ∧ lines = tree.lines := by
  simp only [compile, yields_bind, yields_pure]
  constructor
  · rintro ⟨tree, _, ht, rfl, rfl⟩
    exact ⟨tree, ht, rfl⟩
  · rintro ⟨tree, ht, rfl⟩
    exact ⟨tree, u, ht, rfl, rfl⟩

/-- Rendering keeps the grouping. -/
theorem linked_of_traverse {p : Predicate}
    (h : Yields ((p.groupingBehind c).traverse f) t tree u) :
    Linked tree ∧ tree.connective = c ∧ tree.shape = (p.groupingBehind c).shape := by
  induction p generalizing c t tree u with
  | condition a =>
    obtain ⟨text, -, rfl⟩ := (yields_traverse_condition a).mp h
    exact ⟨.leaf c text, rfl, rfl⟩
  | logical op p q ihp ihq =>
    obtain ⟨l, r, v, hl, hr, rfl⟩ := (yields_traverse_logical op p q).mp h
    obtain ⟨hll, hlc, hls⟩ := ihp hl
    obtain ⟨hrl, hrc, hrs⟩ := ihq hr
    refine ⟨.group c hlc ?_ hll ?_, rfl, ?_⟩
    · simp [hrc]
    · simpa using hrl
    · simp [groupingBehind, shape, shapes, hls, hrs]

end Predicate

end SqlSelect
