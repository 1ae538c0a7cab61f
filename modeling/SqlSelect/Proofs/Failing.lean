import SqlSelect.Proofs.Parameter.Binding
import SqlSelect.Proofs.Where.Grouping

/-! What the rendering of a filter is made of: bindings, and steps that leave the table alone. Hence
the faults that it can end in. -/
namespace SqlSelect

namespace Rendering

variable {α β : Type} {P : Fault → Prop}

-- Made of bindings and of what leaves the table alone, with no other faults than these.
inductive Composed (P : Fault → Prop) : {α : Type} → Rendering α → Prop
  | pure {α : Type} (a : α) : Composed P (pure a : Rendering α)
  | throw {α : Type} {f : Fault} (hf : P f) : Composed P (throw f : Rendering α)
  | bind {α β : Type} {m : Rendering α} {k : α → Rendering β} (hm : Composed P m)
      (hk : ∀ a, Composed P (k a)) : Composed P (m >>= k)
  | captured (v : Variable)
      (hv : ∀ (t : ParameterTable) (f : Fault), (t.bindCaptured v).1 = .error f → P f) :
      Composed P (Rendering.bind (·.bindCaptured v))
  | literal (v : Value)
      (hv : ∀ (t : ParameterTable) (f : Fault), (t.bindLiteral v).1 = .error f → P f) :
      Composed P (Rendering.bind (·.bindLiteral v))

theorem Composed.map {m : Rendering α} (g : α → β) (hm : Composed P m) : Composed P (g <$> m) := by
  rw [map_eq_pure_bind]
  exact .bind hm fun a => .pure _

theorem composed_ofExcept {x : Except Fault α} (hx : ∀ f, x = .error f → P f) :
    Composed P (ofExcept x) := by
  cases x with
  | error f => exact .throw (hx f rfl)
  | ok a => exact .pure a

def FailsOnly (P : Fault → Prop) (m : Rendering α) : Prop :=
  ∀ t f u, m.run t = (.error f, u) → P f

theorem failsOnly_step {step : ParameterTable → Except Fault String × ParameterTable}
    (hstep : ∀ t f, (step t).1 = .error f → P f) : FailsOnly P (Rendering.bind step) := by
  intro t f u h
  rw [run_step] at h
  exact hstep t f (congrArg Prod.fst h)

/-- A rendering fails with nothing but the faults that it is composed of. -/
theorem Composed.failsOnly {m : Rendering α} (h : Composed P m) : FailsOnly P m := by
  induction h with
  | pure a =>
    intro t f u h
    cases h
  | throw hf =>
    intro t f' u h
    cases h
    exact hf
  | @bind _ _ m k _ _ hm hk =>
    intro t f u h
    rw [run_bind] at h
    rcases hr : m.run t with ⟨f' | a, v⟩
    · rw [hr] at h
      cases h
      exact hm t f u hr
    · rw [hr] at h
      exact hk a v f u h
  | captured v hv => exact failsOnly_step hv
  | literal v hv => exact failsOnly_step hv

end Rendering

def Fault.isOfCondition : Fault → Bool
  | usage cause =>
    match cause with
    | .nullWithoutColumn | .nullOrdered .. | .nullUncompared | .listCompared | .notAList ..
    | .emptyList .. | .nameTaken .. => true
    | _ => false
  | unknownAlias _ | unregisteredEntity _ | path _ | invalidValue _ | notImplemented _ => true
  | _ => false

-- What a condition can end in: a fault of its own, or what the resolver says of a column.
def Scope.Raises (s : Scope) (f : Fault) : Prop :=
  f.isOfCondition = true ∨ ∃ e property, s.names.columnName e property = .error f ∨
    s.names.dataKind e property = .error f

open Rendering

variable {s : Scope} {f : Fault}

theorem Binary64.raises_sqlNumber {x : Binary64} (h : x.sqlNumber = .error f) : s.Raises f := by
  unfold sqlNumber at h
  split at h <;> cases h
  exact .inl rfl

/-- Values that cannot be parameters are at fault as parts of conditions. -/
theorem Value.raises_classify {v : Value} (h : v.classify = .error f) : s.Raises f := by
  cases v with
  | float x =>
    rw [classify, map_eq_pure_bind, Except.bind_eq_error] at h
    obtain h | ⟨_, -, h⟩ := h
    · exact x.raises_sqlNumber h
    · cases h
  | _ =>
    cases h <;> exact .inl rfl

theorem ParameterTable.raises_bindCaptured {t : ParameterTable} {v : Variable}
    (h : (t.bindCaptured v).1 = .error f) : s.Raises f := by
  unfold bindCaptured at h
  split at h
  · cases h
    exact .inl rfl
  · cases hv : v.value.classify with
    | error f' =>
      simp only [hv] at h
      cases h
      exact v.value.raises_classify hv
    | ok p =>
      simp only [hv] at h
      split at h <;> cases h
      exact .inl rfl

theorem ParameterTable.raises_bindLiteral {t : ParameterTable} {v : Value}
    (h : (t.bindLiteral v).1 = .error f) : s.Raises f :=
  v.raises_classify (bindLiteral_of_error h).1

theorem AliasRegistry.raises_aliasFor {r : AliasRegistry} {e : Entity}
    (h : r.aliasFor e = .error f) : s.Raises f := by
  unfold aliasFor at h
  split at h <;> cases h
  exact .inl rfl

theorem AliasRegistry.raises_locate {r : AliasRegistry} {c : ColumnRef}
    (h : r.locate c = .error f) : s.Raises f := by
  cases c with
  | property e property =>
    simp only [locate, Except.bind_eq_error, Except.pure_ne_error, and_false, exists_false,
      or_false] at h
    exact raises_aliasFor h
  | path text =>
    simp only [locate, Except.bind_eq_error, Except.pure_ne_error, and_false, exists_false,
      or_false] at h
    obtain h | ⟨p, -, h⟩ := h
    · cases hp : ColumnPath.parse text with
      | error cause =>
        rw [hp] at h
        cases h
        exact .inl rfl
      | ok p =>
        rw [hp] at h
        cases h
    · unfold entityFor at h
      split at h <;> cases h
      exact .inl rfl

/-- A column fails to resolve for a reason of its own or for one of the resolver. -/
theorem AliasRegistry.raises_resolve {c : ColumnRef} (h : s.aliases.resolve s.names c = .error f) :
    s.Raises f := by
  simp only [resolve, Except.bind_eq_error, Except.pure_ne_error, and_false, exists_false,
    or_false] at h
  obtain h | ⟨⟨qualifier, e, property⟩, -, h | ⟨_, -, h⟩⟩ := h
  · exact raises_locate h
  · exact .inr ⟨e, property, .inl h⟩
  · exact .inr ⟨e, property, .inr h⟩

theorem Scope.composed_column (c : ColumnRef) : Composed s.Raises (s.column c) :=
  composed_ofExcept fun _ h => AliasRegistry.raises_resolve h

theorem Value.composed_renderLiteral (v : Value) : Composed s.Raises v.renderLiteral := by
  cases v with
  | int n => exact .pure _
  | float x => exact composed_ofExcept fun _ h => x.raises_sqlNumber h
  | bool b => exact .pure _
  | list items => exact .throw (.inl rfl)
  | null => exact .throw (.inl rfl)
  | _ => exact .literal _ fun _ _ h => ParameterTable.raises_bindLiteral h

theorem Operand.composed_render (o : Operand) : Composed s.Raises (o.render s) := by
  cases o with
  | column c => exact .map _ (s.composed_column c)
  | captured v => exact .captured _ fun _ _ h => ParameterTable.raises_bindCaptured h
  | literal v => exact v.composed_renderLiteral
  | dateParts year month day =>
    rw [render]
    split
    · exact .literal _ fun _ _ h => ParameterTable.raises_bindLiteral h
    · exact .throw (.inl rfl)

theorem ResolvedColumn.composed_renderItem (c : ResolvedColumn) (item : Value) :
    Composed s.Raises (c.renderItem item) := by
  unfold renderItem
  split
  · exact .pure _
  · exact .pure _
  · exact composed_ofExcept fun _ h => Binary64.raises_sqlNumber h
  · exact composed_ofExcept fun _ h => Binary64.raises_sqlNumber h
  · exact .literal _ fun _ _ h => ParameterTable.raises_bindLiteral h
  · exact .literal _ fun _ _ h => ParameterTable.raises_bindLiteral h
  · exact .literal _ fun _ _ h => ParameterTable.raises_bindLiteral h
  · exact .literal _ fun _ _ h => ParameterTable.raises_bindLiteral h
  · exact .pure _
  · exact .throw (.inl rfl)
  · exact .throw (.inl rfl)

theorem ResolvedColumn.composed_renderItems (c : ResolvedColumn) (items : List Value) :
    Composed s.Raises (c.renderItems items) := by
  induction items with
  | nil => exact .pure _
  | cons item items ih =>
    rw [renderItems]
    refine .bind (c.composed_renderItem item) fun text => ?_
    exact .bind ih fun texts => .pure _

namespace Condition

theorem composed_renderNullTest (left : Operand) (op : CompareOp) (right : Operand) :
    Composed s.Raises (renderNullTest s left op right) := by
  unfold renderNullTest
  split
  · exact .throw (.inl rfl)
  · refine .bind (s.composed_column _) fun column => ?_
    refine composed_ofExcept fun f h => ?_
    cases op <;> cases h <;> exact .inl rfl

theorem composed_renderCompare (left : Operand) (op : CompareOp) (right : Operand) :
    Composed s.Raises (renderCompare s left op right) := by
  unfold renderCompare
  split
  · split
    · exact .pure _
    · exact composed_renderNullTest left op right
  · split
    · exact composed_renderNullTest left op right
    · refine .bind left.composed_render fun l => ?_
      exact .bind right.composed_render fun r => .pure _

theorem raises_text? {source : PatternSource} (h : source.text? = .error f) : s.Raises f := by
  unfold PatternSource.text? at h
  split at h
  · cases h
  · split at h <;> cases h
    exact .inl rfl

theorem raises_items? {options : BuildOptions} {source : ListSource}
    (h : source.items? options = .error f) : s.Raises f := by
  unfold ListSource.items? at h
  split at h
  · cases h
  · split at h <;> split at h <;> cases h <;> exact .inl rfl

theorem composed_renderPattern (column : ColumnRef) (shape : PatternShape)
    (source : PatternSource) : Composed s.Raises (renderPattern s column shape source) := by
  unfold renderPattern
  refine .bind (s.composed_column column) fun c => ?_
  refine .bind (composed_ofExcept fun _ h => raises_text? h) fun text? => ?_
  split
  · exact .pure _
  · split <;> exact .pure _

theorem composed_renderList (column : ColumnRef) (negated : Bool) (source : ListSource) :
    Composed s.Raises (renderList s column negated source) := by
  unfold renderList
  refine .bind (s.composed_column column) fun c => ?_
  refine .bind (composed_ofExcept fun _ h => raises_items? h) fun items? => ?_
  split
  · exact .pure _
  · next items =>
    by_cases hempty : (items.isEmpty && s.options.emptyInList = .fail) = true
    · simp only [hempty]
      exact .throw (.inl rfl)
    · simp only [hempty]
      exact .bind (c.composed_renderItems items) fun texts => .pure _

/-- A condition fails for a reason of its own or for one of the resolver. -/
theorem composed_render (c : Condition) : Composed s.Raises (c.render s) := by
  cases c with
  | compare left op right => exact composed_renderCompare left op right
  | inList column negated source => exact composed_renderList column negated source
  | pattern column shape source => exact composed_renderPattern column shape source
  | isNull column negated =>
    exact .bind (s.composed_column column) fun c => .pure _

end Condition

namespace LogicalTree

variable {α β : Type} {g : α → Rendering β} {P : Fault → Prop}

mutual

theorem composed_traverse (hg : ∀ a, Composed P (g a)) :
    ∀ t : LogicalTree α, Composed P (t.traverse g)
  | leaf _ a => .bind (hg a) fun _ => .pure _
  | group _ ts => .bind (composed_traverseAll hg ts) fun _ => .pure _

theorem composed_traverseAll (hg : ∀ a, Composed P (g a)) :
    ∀ ts : List (LogicalTree α), Composed P (traverseAll g ts)
  | [] => .pure _
  | t :: ts => .bind (composed_traverse hg t) fun _ =>
    .bind (composed_traverseAll hg ts) fun _ => .pure _

end

end LogicalTree

/-- A filter fails to be compiled for a reason of one of its conditions. -/
theorem Predicate.composed_compile (p : Predicate) : Composed s.Raises (p.compile s) :=
  .bind (LogicalTree.composed_traverse (fun c => c.composed_render) p.grouping) fun _ => .pure _

/-- A filter ends in a fault of a condition or of the resolver, and in no other. -/
theorem Predicate.failsOnly_compile (p : Predicate) : FailsOnly s.Raises (p.compile s) :=
  p.composed_compile.failsOnly

end SqlSelect
