import SqlSelect.Proofs.Alike.Parameter

/-! Conditions that are alike but for the values that they bind. They render to the same text, or
none of them does. -/
namespace SqlSelect

open Rendering

variable (L : LiteralPairing)

inductive Operand.Alike : Operand → Operand → Prop
  | column (c : ColumnRef) : Alike (.column c) (.column c)
  | captured {v w : Variable} (h : v.Alike w) : Alike (.captured v) (.captured w)
  | bound {v w : Value} (h : L.Pairs v w) : Alike (.literal v) (.literal w)
  -- Numbers and flags are written into the text.
  | inlined {v : Value} (h : v.boundSource? = none) : Alike (.literal v) (.literal v)
  | dateParts {year year' : Int} {month day month' day' : Nat} {d d' : Date}
      (hd : Date.ofParts? year month day = some d) (hd' : Date.ofParts? year' month' day' = some d')
      (h : L.Pairs (.date d) (.date d')) :
      Alike (.dateParts year month day) (.dateParts year' month' day')
  | noDate {year : Int} {month day : Nat} (h : Date.ofParts? year month day = none) :
      Alike (.dateParts year month day) (.dateParts year month day)

-- Items of lists of values. Dates in them are written into the text, as numbers are.
inductive Value.AlikeItem : Value → Value → Prop
  | bound {v w : Value} (h : L.Pairs v w) (hdate : v.isDate = false) : AlikeItem v w
  | inlined {v : Value} (h : v.itemSource? = none) : AlikeItem v v

inductive Condition.Alike : Condition → Condition → Prop
  | compare {left right left' right' : Operand} (op : CompareOp) (hl : left.Alike L left')
      (hr : right.Alike L right') : Alike (.compare left op right) (.compare left' op right')
  | values (column : ColumnRef) (negated : Bool) {items items' : List Value}
      (h : List.Forall₂ (Value.AlikeItem L) items items') :
      Alike (.inList column negated (.values items)) (.inList column negated (.values items'))
  | captured (column : ColumnRef) (negated : Bool) (v : Variable) :
      Alike (.inList column negated (.captured v)) (.inList column negated (.captured v))
  | pattern (column : ColumnRef) (shape : PatternShape) (source : PatternSource) :
      Alike (.pattern column shape source) (.pattern column shape source)
  | isNull (column : ColumnRef) (negated : Bool) :
      Alike (.isNull column negated) (.isNull column negated)

inductive Predicate.Alike : Predicate → Predicate → Prop
  | condition {c c' : Condition} (h : c.Alike L c') : Alike (.condition c) (.condition c')
  | logical (op : LogicalOp) {p q p' q' : Predicate} (hp : Alike p p') (hq : Alike q q') :
      Alike (.logical op p q) (.logical op p' q')

variable {L} {s : Scope}

theorem Value.SameForm.isNull_eq {v w : Value} (h : v.SameForm w) : v.isNull = w.isNull := by
  cases h <;> rfl

theorem Variable.Alike.isNull_eq {v w : Variable} (h : v.Alike w) :
    v.value.isNull = w.value.isNull := by
  have hkind (x : Value) : x.isNull = (x.kind == .null) := by
    cases x <;> rfl
  rw [hkind, hkind, h.kind_eq]

namespace Operand.Alike

variable {o o' : Operand}

theorem isCapturedNull_eq (h : o.Alike L o') : o.isCapturedNull = o'.isCapturedNull := by
  cases h with
  | captured h => exact h.isNull_eq
  | _ => rfl

theorem isLiteralNull_eq (h : o.Alike L o') : o.isLiteralNull = o'.isLiteralNull := by
  cases h with
  | bound h => exact (L.sameForm h).isNull_eq
  | _ => rfl

theorem column?_eq (h : o.Alike L o') : o.column? = o'.column? := by
  cases h <;> rfl

end Operand.Alike

/-- A step of the table, taken on tables that are alike. -/
theorem agree_step {f g : ParameterTable → Except Fault String × ParameterTable}
    (h : ∀ t u, ParameterTable.Alike L t u →
      Except.Agree (fun p q => p.1 = q.1 ∧ ParameterTable.Alike L p.2 q.2) (finished (f t))
        (finished (g u))) :
    Agree (ParameterTable.Alike L) (Rendering.bind f) (Rendering.bind g) := by
  intro t u ht
  rw [outcome_step, outcome_step]
  exact h t u ht

/-- Partners are bound alike: both share an earlier parameter, or both get a new one. -/
theorem agree_bindLiteral {v w : Value} (h : L.Pairs v w) :
    Agree (ParameterTable.Alike L) (Rendering.bind (·.bindLiteral v))
      (Rendering.bind (·.bindLiteral w)) :=
  agree_step fun _ _ ht => ht.bindLiteral h

theorem agree_column (c : ColumnRef) :
    Agree (ParameterTable.Alike L) (s.column c) (s.column c) :=
  agree_ofExcept _

theorem Value.agree_renderLiteral {v w : Value} (h : L.Pairs v w) :
    Agree (ParameterTable.Alike L) v.renderLiteral w.renderLiteral := by
  cases L.sameForm h <;> exact agree_bindLiteral h

theorem Value.agree_renderLiteral_self {v : Value} (h : v.boundSource? = none) :
    Agree (ParameterTable.Alike L) v.renderLiteral v.renderLiteral := by
  cases v with
  | int n => exact agree_pure _
  | float x => exact agree_ofExcept _
  | bool b => exact agree_pure _
  | list items => exact agree_throw _ _
  | null => exact agree_throw _ _
  | _ => cases h

/-- Partners are rendered to the same text, over tables that stay alike. -/
theorem Operand.Alike.agree_render {o o' : Operand} (h : o.Alike L o') :
    Agree (ParameterTable.Alike L) (o.render s) (o'.render s) := by
  cases h with
  | column c => exact (agree_column c).map _
  | captured h => exact agree_step fun _ _ ht => ht.bindCaptured h
  | bound h => exact Value.agree_renderLiteral h
  | inlined h => exact Value.agree_renderLiteral_self h
  | dateParts hd hd' h =>
    rw [render, render, hd, hd']
    exact agree_bindLiteral h
  | noDate h =>
    rw [render, h]
    exact agree_throw _ _

/-- The kind of the column decides whether the item is one. -/
theorem ResolvedColumn.agree_renderItem (c : ResolvedColumn) {v w : Value}
    (h : v.AlikeItem L w) :
    Agree (ParameterTable.Alike L) (c.renderItem v) (c.renderItem w) := by
  obtain ⟨qualifier, e, property, column, kind⟩ := c
  cases h with
  | bound h hdate =>
    cases L.sameForm h with
    | date d d' => cases hdate
    | char a a' =>
      cases kind <;> first | exact agree_bindLiteral h | exact agree_throw _ _
    | text a a' =>
      cases kind <;> first | exact agree_bindLiteral h | exact agree_throw _ _
  | inlined h =>
    cases v with
    | char a => cases h
    | text a => cases h
    | _ =>
      cases kind <;>
        first | exact agree_pure _ | exact agree_throw _ _ | exact agree_ofExcept _

theorem ResolvedColumn.agree_renderItems (c : ResolvedColumn) {items items' : List Value}
    (h : List.Forall₂ (Value.AlikeItem L) items items') :
    Agree (ParameterTable.Alike L) (c.renderItems items) (c.renderItems items') := by
  induction h with
  | nil => exact agree_pure _
  | cons hitem _ ih =>
    refine (c.agree_renderItem hitem).bind fun text => ?_
    exact ih.bind fun texts => agree_pure _

namespace Condition

theorem agree_renderNullTest {left right left' right' : Operand} (op : CompareOp)
    (hl : left.column? = left'.column?) (hr : right.column? = right'.column?) :
    Agree (ParameterTable.Alike L) (renderNullTest s left op right)
      (renderNullTest s left' op right') := by
  unfold renderNullTest
  rw [hl, hr]
  cases left'.column? <|> right'.column? with
  | none => exact agree_throw _ _
  | some c => exact (agree_column c).bind fun column => agree_ofExcept _

/-- Comparisons of partners agree, with null and without it. -/
theorem agree_renderCompare {left right left' right' : Operand} (op : CompareOp)
    (hl : left.Alike L left') (hr : right.Alike L right') :
    Agree (ParameterTable.Alike L) (renderCompare s left op right)
      (renderCompare s left' op right') := by
  have hnull := agree_renderNullTest (L := L) (s := s) op hl.column?_eq hr.column?_eq
  unfold renderCompare
  rw [hl.isCapturedNull_eq, hr.isCapturedNull_eq, hl.isLiteralNull_eq, hr.isLiteralNull_eq]
  refine .ite _ (.ite _ (agree_pure _) hnull) (.ite _ hnull ?_)
  refine hl.agree_render.bind fun l => ?_
  exact hr.agree_render.bind fun r => agree_pure _

theorem agree_renderPattern (column : ColumnRef) (shape : PatternShape) (source : PatternSource) :
    Agree (ParameterTable.Alike L) (renderPattern s column shape source)
      (renderPattern s column shape source) := by
  refine (agree_column column).bind fun c => ?_
  refine (agree_ofExcept source.text?).bind fun text? => ?_
  cases text? with
  | none => exact agree_pure _
  | some text => exact .ite _ (agree_pure _) (agree_pure _)

/-- Lists agree if their items are partners. -/
theorem agree_renderList (column : ColumnRef) (negated : Bool) {source source' : ListSource}
    (h : Except.Agree (Option.Rel (List.Forall₂ (Value.AlikeItem L))) (source.items? s.options)
      (source'.items? s.options)) :
    Agree (ParameterTable.Alike L) (renderList s column negated source)
      (renderList s column negated source') := by
  unfold renderList
  generalize source.items? s.options = x at h ⊢
  generalize source'.items? s.options = y at h ⊢
  refine (agree_column column).bind fun c => ?_
  cases h with
  | error f f' => exact agree_throw f f'
  | ok h =>
    cases h with
    | none => exact agree_pure _
    | @some items items' h =>
      have hempty : items.isEmpty = items'.isEmpty := by
        cases h <;> rfl
      simp only [Rendering.ofExcept, pure_bind, hempty]
      refine .ite _ (agree_throw _ _) ?_
      exact (c.agree_renderItems h).bind fun texts => agree_pure _

end Condition

/-- A captured list is of dates, which are written into the text. -/
theorem ListSource.agree_captured (options : BuildOptions) (v : Variable) :
    Except.Agree (Option.Rel (List.Forall₂ (Value.AlikeItem L)))
      (items? options (.captured v)) (items? options (.captured v)) := by
  have hdates {items : List Value} (h : items.all Value.isDate = true) :
      List.Forall₂ (Value.AlikeItem L) items items := by
    apply List.forall₂_same.mpr
    intro item hitem
    have hdate := List.all_eq_true.mp h item hitem
    cases item <;> cases hdate
    exact .inlined rfl
  unfold items?
  dsimp only
  split
  · split
    · next h => exact .ok (.some (hdates h))
    · exact .error _ _
  · split
    · exact .ok .none
    · exact .error _ _

/-- Conditions that are alike have the same text. -/
theorem Condition.Alike.agree_render {c c' : Condition} (h : c.Alike L c') :
    Agree (ParameterTable.Alike L) (c.render s) (c'.render s) := by
  cases h with
  | compare op hl hr => exact agree_renderCompare op hl hr
  | values column negated h => exact agree_renderList column negated (.ok (.some h))
  | captured column negated v =>
    exact agree_renderList column negated (ListSource.agree_captured s.options v)
  | pattern column shape source => exact agree_renderPattern column shape source
  | isNull column negated => exact (agree_column column).map _

open LogicalTree in
theorem Predicate.Alike.agree_traverse {p p' : Predicate} (h : p.Alike L p')
    (connective : Option LogicalOp) :
    Agree (ParameterTable.Alike L) ((p.groupingBehind connective).traverse (·.render s))
      ((p'.groupingBehind connective).traverse (·.render s)) := by
  induction h generalizing connective with
  | condition h => exact h.agree_render.bind fun text => agree_pure _
  | logical op _ _ ihp ihq =>
    refine Agree.bind ?_ fun ts => agree_pure _
    refine (ihp none).bind fun left => ?_
    refine Agree.bind ?_ fun ts => agree_pure _
    exact (ihq (some op)).bind fun right => agree_pure _

/-- Filters that are alike are compiled to the same lines. -/
theorem Predicate.Alike.agree_compile {p p' : Predicate} (h : p.Alike L p') :
    Agree (ParameterTable.Alike L) (p.compile s) (p'.compile s) :=
  (h.agree_traverse none).bind fun _ => agree_pure _

end SqlSelect
