import SqlSelect.Proofs.Parameter.Account
import SqlSelect.Proofs.Query.Call

/-! The variables that a query selects, which are bound before those of its filter. -/
namespace SqlSelect

open ParameterTable

def SelectItem.captured? : SelectItem → Option Variable
  | captured v => some v
  | _ => none

def SelectColumn.parameter? : SelectColumn → Option String
  | parameter name => some name
  | _ => none

theorem SelectColumn.text_of_parameter {c : SelectColumn} {name : String}
    (h : name ∈ c.parameter?) : c.text = name := by
  cases c with
  | column c => cases h
  | parameter name' => exact Option.some.inj h
  | null => cases h

def Call.selected : Call → List Variable
  | select items => items.filterMap (·.captured?)
  | _ => []

def Variable.parameterName (v : Variable) : String :=
  variablePrefix ++ v.name

def Variable.reference (v : Variable) : Reference :=
  ⟨.captured v, v.parameterName⟩

theorem capturedBy_reference (vs : List Variable) :
    capturedBy (vs.map Variable.reference) = vs := by
  induction vs with
  | nil => rfl
  | cons v vs ih => simpa [capturedBy, Variable.reference, Source.captured?] using ih

def SelectEntry.parameterNames (entries : List SelectEntry) : List String :=
  (entries.map (·.column)).filterMap (·.parameter?)

theorem SelectEntry.parameterNames_append (entries : List SelectEntry) (column : SelectColumn) :
    parameterNames (entries ++ [⟨column, none⟩]) =
      parameterNames entries ++ column.parameter?.toList := by
  cases column <;> simp [parameterNames, SelectColumn.parameter?]

namespace Query

-- The query has selected these variables and bound nothing else.
structure HasSelected (q : Query) (vs : List Variable) : Prop where
  accounts : q.parameters.Accounts (vs.map Variable.reference)
  columns_eq : SelectEntry.parameterNames q.columns = vs.map Variable.parameterName

variable {q q' : Query} {vs : List Variable}

theorem hasSelected_empty : HasSelected {} [] where
  accounts := accounts_empty
  columns_eq := rfl

theorem HasSelected.of_eq (h : q.HasSelected vs) (hp : q'.parameters = q.parameters)
    (hc : q'.columns.map (·.column) = q.columns.map (·.column)) : q'.HasSelected vs where
  accounts := hp ▸ h.accounts
  columns_eq := by
    rw [SelectEntry.parameterNames, hc]
    exact h.columns_eq

/-- A further column, with the variables that it binds. -/
theorem HasSelected.addColumn (h : q.HasSelected vs) (column : SelectColumn) (ws : List Variable)
    (parameters : ParameterTable)
    (haccounts : parameters.Accounts ((vs ++ ws).map Variable.reference))
    (hcolumn : column.parameter?.toList = ws.map Variable.parameterName) :
    ({ q with parameters }.addColumn column).HasSelected (vs ++ ws) where
  accounts := haccounts
  columns_eq := by
    rw [columns_addColumn, SelectEntry.parameterNames_append, h.columns_eq, hcolumn,
      List.map_append]

/-- An item selects its variable, if it has one. -/
theorem HasSelected.selectItem {item : SelectItem} (h : q.HasSelected vs)
    (hitem : q.selectItem item = .ok q') : q'.HasSelected (vs ++ item.captured?.toList) := by
  cases item with
  | column c =>
    obtain ⟨column, -, rfl⟩ := selectItem_column_eq_ok.mp hitem
    have haccounts := h.accounts
    rw [← List.append_nil vs] at haccounts
    exact h.addColumn (.column column) [] q.parameters haccounts rfl
  | captured v =>
    obtain ⟨name, parameters, hb, rfl⟩ := selectItem_captured_eq_ok.mp hitem
    have haccounts := h.accounts.bindCaptured hb
    obtain ⟨-, _, _, -, -, rfl, -⟩ := bindCaptured_eq_ok.mp hb
    apply h.addColumn _ [v] parameters
    · rw [List.map_append]
      exact haccounts
    · rfl
  | null =>
    obtain rfl : q.addColumn .null = q' := by simpa [Query.selectItem] using hitem
    have haccounts := h.accounts
    rw [← List.append_nil vs] at haccounts
    exact h.addColumn .null [] q.parameters haccounts rfl

theorem HasSelected.apply {call : Call} (h : q.HasSelected vs) (hcall : q.apply call = .ok q') :
    q'.HasSelected (vs ++ call.selected) := by
  cases call with
  | select items =>
    obtain ⟨-, -, hitems⟩ := select_eq_ok.mp hcall
    have hrun : q'.HasSelected (vs ++ items.filterMap (·.captured?)) := by
      apply Except.foldlM_induction
        (I := fun items q => q.HasSelected (vs ++ items.filterMap (·.captured?))) hitems
      · have hkind : HasSelected { q with kind := some .select } vs := h.of_eq rfl rfl
        simpa using hkind
      · intro items item q q' hq hitem
        have hq' := hq.selectItem hitem
        rw [List.filterMap_append, ← List.append_assoc]
        cases item <;> exact hq'
    exact hrun
  | _ =>
    obtain ⟨hparameters, hcolumns⟩ := frame_of_apply hcall (by simp)
    simpa [Call.selected] using h.of_eq hparameters hcolumns

/-- A run selects the variables of its calls, in order. -/
theorem hasSelected_of_run {calls : List Call} (h : run {} calls = .ok q) :
    q.HasSelected (calls.flatMap Call.selected) := by
  apply Except.foldlM_induction (I := fun calls q => HasSelected q (calls.flatMap Call.selected)) h
  · exact hasSelected_empty
  · intro calls call q q' hq hcall
    rw [List.flatMap_append, List.flatMap_singleton]
    exact hq.apply hcall

end Query

end SqlSelect
