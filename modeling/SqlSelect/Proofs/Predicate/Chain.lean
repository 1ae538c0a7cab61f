import Mathlib.Data.List.Induction
import SqlSelect.Predicate.Basic
import SqlSelect.Proofs.Where.BooleanGrammar

/-! Chains of predicates that are joined one by one from the left, and their truth values. -/
namespace SqlSelect

def LogicalOp.among : LogicalOp → List Bool → Bool
  | and, bs => bs.all id
  | or, bs => bs.any id

theorem LogicalOp.among_singleton (op : LogicalOp) (b : Bool) : op.among [b] = b := by
  cases op <;> simp [among]

theorem LogicalOp.among_concat (op : LogicalOp) (bs : List Bool) (b : Bool) :
    op.among (bs ++ [b]) = op.apply (op.among bs) b := by
  cases op <;> simp [among, apply]

namespace Predicate

/-- A predicate has at least one condition. -/
theorem conditions_ne_nil (p : Predicate) : p.conditions ≠ [] := by
  induction p with
  | condition c => exact List.cons_ne_nil c []
  | logical op p q ihp _ =>
    intro h
    exact ihp (List.append_eq_nil_iff.mp h).1

inductive Chain (op : LogicalOp) : List Predicate → Predicate → Prop
  | single (p : Predicate) : Chain op [p] p
  | join {ps : List Predicate} {p : Predicate} (h : Chain op ps p) (q : Predicate) :
      Chain op (ps ++ [q]) (logical op p q)

/-- Predicates that are joined one by one are a chain. -/
theorem chain_of_chain? {op : LogicalOp} {ps : List Predicate} {p : Predicate}
    (h : chain? op ps = some p) : Chain op ps p := by
  cases ps with
  | nil => cases h
  | cons first ps =>
    cases h
    induction ps using List.reverseRecOn with
    | nil => exact .single first
    | append_singleton ps last ih =>
      rw [List.foldl_append]
      exact .join ih last

/-- The conditions of a chain are those of its members, in order. -/
theorem Chain.conditions {op : LogicalOp} {ps : List Predicate} {p : Predicate}
    (h : Chain op ps p) : p.conditions = ps.flatMap (·.conditions) := by
  induction h with
  | single p => simp
  | join h q ih => simp [Predicate.conditions, ih]

-- The value, the conditions from the `n`-th on having the values that are given by number.
def valueAt (v : Nat → Bool) : Nat → Predicate → Bool
  | n, condition _ => v n
  | n, logical op p q => op.apply (p.valueAt v n) (q.valueAt v (n + p.conditions.length))

def valuesFrom (v : Nat → Bool) : Nat → List Predicate → List Bool
  | _, [] => []
  | n, p :: ps => p.valueAt v n :: valuesFrom v (n + p.conditions.length) ps

theorem valuesFrom_concat (v : Nat → Bool) (n : Nat) (ps : List Predicate) (q : Predicate) :
    valuesFrom v n (ps ++ [q]) =
      valuesFrom v n ps ++ [q.valueAt v (n + (ps.flatMap (·.conditions)).length)] := by
  induction ps generalizing n with
  | nil => rfl
  | cons p ps ih =>
    rw [List.cons_append, valuesFrom, valuesFrom, ih, List.flatMap_cons, List.length_append,
      Nat.add_assoc]
    rfl

/-- How a chain nests does not matter to its value. -/
theorem Chain.valueAt {op : LogicalOp} {ps : List Predicate} {p : Predicate} (h : Chain op ps p)
    (v : Nat → Bool) (n : Nat) : p.valueAt v n = op.among (valuesFrom v n ps) := by
  induction h with
  | single p => exact (op.among_singleton _).symm
  | join h q ih =>
    rw [Predicate.valueAt, valuesFrom_concat, LogicalOp.among_concat, ih, h.conditions]

end Predicate

end SqlSelect
