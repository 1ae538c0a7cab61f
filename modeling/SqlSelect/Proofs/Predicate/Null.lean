import SqlSelect.Proofs.Where.Absence

/-! Null in conditions. It is never compared as a value: the condition is dropped, becomes a test
for null, or fails, and in none of these cases is a parameter bound. -/
namespace SqlSelect

open Rendering

namespace Rendering

variable {α β : Type}

-- Whether it succeeds or fails, the rendering leaves the table as it was.
def LeavesTable (m : Rendering α) : Prop :=
  ∀ t, (m.run t).2 = t

theorem leavesTable_pure (a : α) : LeavesTable (pure a) :=
  fun _ => rfl

theorem leavesTable_throw (f : Fault) : LeavesTable (throw f : Rendering α) :=
  fun _ => rfl

theorem leavesTable_ofExcept (x : Except Fault α) : LeavesTable (ofExcept x) := by
  cases x with
  | error f => exact leavesTable_throw f
  | ok a => exact leavesTable_pure a

/-- A sequence leaves the table alone if its parts do. -/
theorem LeavesTable.bind {m : Rendering α} {k : α → Rendering β} (hm : LeavesTable m)
    (hk : ∀ a, LeavesTable (k a)) : LeavesTable (m >>= k) := by
  intro t
  have hfirst := hm t
  rw [run_bind]
  rcases hr : m.run t with ⟨f | a, u⟩
  · rwa [hr] at hfirst
  · obtain rfl : u = t := by rwa [hr] at hfirst
    exact hk a u

end Rendering

theorem Operand.column?_of_isNull {o : Operand} (h : o.isNull = true) : o.column? = none := by
  cases o with
  | column c => cases h
  | _ => rfl

theorem Operand.column?_eq_some {o : Operand} {c : ColumnRef} :
    o.column? = some c ↔ o = column c := by
  cases o <;> simp [column?]

/-- Only equality and inequality have tests for null. -/
theorem CompareOp.nullTest_eq_ok {op : CompareOp} {column text : String} :
    op.nullTest column = .ok text ↔
      (op = .eq ∧ text = column ++ " is null") ∨ (op = .ne ∧ text = column ++ " is not null") := by
  cases op <;> simp [nullTest, eq_comm]

namespace Condition

-- Null decides what becomes of the condition: it is compared with, it stands for the list, or there
-- is no text to look for.
def concernsNull : Condition → Bool
  | compare left _ right => left.isNull || right.isNull
  | inList _ _ (.captured v) => v.value.isNull
  | pattern _ _ source => source.isBlank
  | _ => false

-- The column on one side of a comparison with null on the other.
def BesideNull (left right : Operand) (c : ColumnRef) : Prop :=
  (left.isNull = true ∧ right = .column c) ∨ (left = .column c ∧ right.isNull = true)

variable {s : Scope} {left right : Operand} {op : CompareOp}

/-- An absent condition is one that null decides. -/
theorem concernsNull_of_isAbsent {options : BuildOptions} {c : Condition}
    (h : c.isAbsent options = true) : c.concernsNull = true := by
  cases c with
  | compare left op right =>
    simp only [isAbsent, Bool.and_eq_true, Bool.or_eq_true] at h
    simp only [concernsNull, Operand.isNull, Bool.or_eq_true]
    exact h.2.imp .inl .inl
  | inList column negated source =>
    cases source with
    | values items => cases h
    | captured v => exact (Bool.and_eq_true_iff.mp h).2
  | pattern column shape source => exact h
  | isNull column negated => cases h

/-- With null on one side, the column of the comparison is that of the other side. -/
theorem column_eq_some_iff (h : (left.isNull || right.isNull) = true) {c : ColumnRef} :
    (left.column? <|> right.column?) = some c ↔ BesideNull left right c := by
  have hne (o : Operand) (ho : o.isNull = true) : o ≠ .column c := by
    rintro rfl
    cases ho
  rcases Bool.or_eq_true_iff.mp h with hnull | hnull
  · have hnone := Operand.column?_of_isNull hnull
    simp [BesideNull, hnone, hnull, hne left hnull, Operand.column?_eq_some]
  · have hnone := Operand.column?_of_isNull hnull
    simp [BesideNull, hnone, hnull, hne right hnull, Operand.column?_eq_some]

/-- The column among the sides is the same when they are swapped. -/
theorem column_comm (h : (left.isNull || right.isNull) = true) :
    (left.column? <|> right.column?) = (right.column? <|> left.column?) := by
  rcases Bool.or_eq_true_iff.mp h with hnull | hnull
  · simp [Operand.column?_of_isNull hnull]
  · simp [Operand.column?_of_isNull hnull]

/-- A comparison with null never comes to its operands. -/
theorem renderCompare_of_isNull (h : (left.isNull || right.isNull) = true) :
    renderCompare s left op right =
      if s.options.ignoreNullFilters && (left.isCapturedNull || right.isCapturedNull) then
        pure alwaysTrue
      else renderNullTest s left op right := by
  unfold renderCompare
  cases hcaptured : left.isCapturedNull || right.isCapturedNull with
  | true => simp
  | false =>
    have hliteral : (left.isLiteralNull || right.isLiteralNull) = true := by
      simp only [Operand.isNull, Bool.or_eq_true, Bool.or_eq_false_iff] at h hcaptured ⊢
      simpa [hcaptured] using h
    simp [hliteral]

/-- It makes no difference on which side the null is. -/
theorem renderCompare_comm (h : (left.isNull || right.isNull) = true) :
    renderCompare s right op left = renderCompare s left op right := by
  have h' : (right.isNull || left.isNull) = true := by rwa [Bool.or_comm]
  rw [renderCompare_of_isNull h, renderCompare_of_isNull h', renderNullTest, renderNullTest,
    column_comm h, Bool.or_comm right.isCapturedNull]

theorem leavesTable_column (c : ColumnRef) : LeavesTable (s.column c) :=
  leavesTable_ofExcept _

theorem leavesTable_renderNullTest : LeavesTable (renderNullTest s left op right) := by
  unfold renderNullTest
  cases left.column? <|> right.column? with
  | none => exact leavesTable_throw _
  | some c => exact (leavesTable_column c).bind fun column => leavesTable_ofExcept _

/-- A comparison with null binds nothing, be it successful or not. -/
theorem leavesTable_renderCompare (h : (left.isNull || right.isNull) = true) :
    LeavesTable (renderCompare s left op right) := by
  rw [renderCompare_of_isNull h]
  split
  · exact leavesTable_pure _
  · exact leavesTable_renderNullTest

/-- A pattern is written into the condition, so it needs no parameter whatever the text is. -/
theorem leavesTable_renderPattern (column : ColumnRef) (shape : PatternShape)
    (source : PatternSource) : LeavesTable (renderPattern s column shape source) := by
  refine (leavesTable_column column).bind fun c => ?_
  refine (leavesTable_ofExcept _).bind fun text? => ?_
  split
  · exact leavesTable_pure _
  · split <;> exact leavesTable_pure _

theorem leavesTable_renderList (column : ColumnRef) (negated : Bool) {v : Variable}
    (hv : v.value.isNull = true) : LeavesTable (renderList s column negated (.captured v)) := by
  refine (leavesTable_column column).bind fun c => ?_
  have hitems : (ListSource.captured v).items? s.options =
      if s.options.ignoreNullFilters then .ok none
      else .error (.usage (.notAList v.name v.value.kind)) := by
    cases hvalue : v.value with
    | null => simp [ListSource.items?, hvalue, Value.isNull]
    | _ => simp [hvalue, Value.isNull] at hv
  rw [hitems]
  split
  · exact leavesTable_pure _
  · exact leavesTable_throw _

/-- A condition that null decides binds nothing, be it successful or not. -/
theorem leavesTable_render {c : Condition} (h : c.concernsNull = true) :
    LeavesTable (c.render s) := by
  cases c with
  | compare left op right => exact leavesTable_renderCompare h
  | inList column negated source =>
    cases source with
    | values items => cases h
    | captured v => exact leavesTable_renderList column negated h
  | pattern column shape source => exact leavesTable_renderPattern column shape source
  | isNull column negated => cases h

/-- A comparison with null that is not dropped says whether the column on the other side is null;
only equality and inequality can say so. -/
theorem yields_renderCompare_of_isNull {t u : ParameterTable} {text : String}
    (h : (left.isNull || right.isNull) = true)
    (hkeep : (compare left op right).isAbsent s.options = false) :
    Yields (renderCompare s left op right) t text u ↔
      u = t ∧ ∃ c column, BesideNull left right c ∧ s.aliases.resolve s.names c = .ok column ∧
        ((op = .eq ∧ text = column.qualified ++ " is null") ∨
          (op = .ne ∧ text = column.qualified ++ " is not null")) := by
  have hnot : ¬(s.options.ignoreNullFilters &&
      (left.isCapturedNull || right.isCapturedNull)) = true := ne_true_of_eq_false hkeep
  rw [renderCompare_of_isNull h, if_neg hnot, yields_renderNullTest]
  simp only [column_eq_some_iff h, CompareOp.nullTest_eq_ok]

end Condition

/-- The text of a filter that does not apply is that of no other condition. Null is never compared
as a value: unless it drops its comparison, it makes a test for null of the column on the other
side, the same on either side, and fails with any other operand or operator. No parameter is bound
where null decides, not even before a fault. -/
theorem Condition.rendered_where_null_decides (s : Scope) (c : Condition) (t : ParameterTable) :
    (∀ text u, Yields ((Predicate.condition c).renderCondition s) t text u →
      (text = alwaysTrue ↔ c.isAbsent s.options = true)) ∧
    (∀ left op right, c = compare left op right → (left.isNull || right.isNull) = true →
      ((Predicate.condition (compare right op left)).renderCondition s).run t =
          ((Predicate.condition c).renderCondition s).run t ∧
        (c.isAbsent s.options = false → ∀ text u,
          Yields ((Predicate.condition c).renderCondition s) t text u ↔
            u = t ∧ ∃ other column, BesideNull left right other ∧
              s.aliases.resolve s.names other = .ok column ∧
              ((op = .eq ∧ text = column.qualified ++ " is null") ∨
                (op = .ne ∧ text = column.qualified ++ " is not null")))) ∧
    (c.isAbsent s.options = true → c.concernsNull = true) ∧
    (c.concernsNull = true → (((Predicate.condition c).renderCondition s).run t).2 = t) := by
  refine ⟨?_, ?_, concernsNull_of_isAbsent, ?_⟩
  · intro text u h
    exact (rendered_of_render h).iff
  · rintro left op right rfl hnull
    refine ⟨?_, ?_⟩
    · exact congrArg (·.run t) (renderCompare_comm hnull)
    · intro hkeep text u
      exact yields_renderCompare_of_isNull hnull hkeep
  · intro h
    exact leavesTable_render h t

namespace Demo

open Condition Operand

-- Captured nulls are compared here, not dropped.
def keepingScope : Scope where
  aliases := ⟨[⟨"s", student⟩]⟩
  names := .declared
  options := { ignoreNullFilters := false }

def captive : Operand :=
  captured ⟨"name", .null⟩

def surname : Operand :=
  column (.property student "LastName")

end Demo

theorem Condition.rendered_where_null_decides_captive :
    (compare Demo.captive .ne Demo.surname).isAbsent Demo.keepingScope.options = false ∧
      Yields ((Predicate.condition (compare Demo.captive .ne Demo.surname)).renderCondition
        Demo.keepingScope) {} "s.last_name is not null" {} ∧
      Yields ((Predicate.condition (compare Demo.surname .ne Demo.captive)).renderCondition
        Demo.keepingScope) {} "s.last_name is not null" {} ∧
      "s.last_name is not null" ≠ alwaysTrue := by
  obtain ⟨hplaceholder, hnull, -, -⟩ :=
    rendered_where_null_decides Demo.keepingScope (compare Demo.captive .ne Demo.surname) {}
  obtain ⟨hswap, htest⟩ := hnull _ _ _ rfl rfl
  have hyields := (htest rfl "s.last_name is not null" {}).mpr
    ⟨rfl, .property Demo.student "LastName", _, .inl ⟨rfl, rfl⟩, rfl, .inr ⟨rfl, rfl⟩⟩
  refine ⟨rfl, hyields, hswap.trans hyields, ?_⟩
  intro htext
  cases (hplaceholder _ _ hyields).mp htext

end SqlSelect
