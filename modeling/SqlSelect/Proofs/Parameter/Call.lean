import SqlSelect.Proofs.Parameter.Growth
import SqlSelect.Schema.Demo

/-! Calls on a table of parameters, in any order and with any outcome: what all of them keep up, and
which names literals get. -/
namespace SqlSelect

inductive TableCall where
  | add (p : Parameter)
  | captured (v : Variable)
  | literal (v : Value)
  | date (d : Date)
  | compile (s : Scope) (p : Predicate)
  | condition (s : Scope) (p : Predicate)

inductive TableAnswer where
  | added (new : Bool)
  | bound (name : String)
  | lines (ls : List WhereLine)
  | text (text : String)

namespace TableCall

def apply : TableCall → Rendering TableAnswer
  | add p => do
    let (t, new) := (← get).add p
    set t
    pure (.added new)
  | captured v => .bound <$> Rendering.bind (·.bindCaptured v)
  | literal v => .bound <$> Rendering.bind (·.bindLiteral v)
  | date d => .bound <$> Rendering.bind (·.bindDate d)
  | compile s p => .lines <$> p.compile s
  | condition s p => .text <$> p.renderCondition s

def answer (call : TableCall) (t : ParameterTable) : Except Fault TableAnswer :=
  (call.apply.run t).1

-- The table that the call leaves, be it successful or not.
def after (call : TableCall) (t : ParameterTable) : ParameterTable :=
  (call.apply.run t).2

-- One parameter that is not added, or one value that is not bound.
def isRefused (call : TableCall) (t : ParameterTable) : Bool :=
  match call, call.answer t with
  | add _, .ok (.added new) => !new
  | captured _, .error _ => true
  | literal _, .error _ => true
  | date _, .error _ => true
  | _, _ => false

end TableCall

namespace ParameterTable

def run (t : ParameterTable) (calls : List TableCall) : ParameterTable :=
  calls.foldl (fun t call => call.after t) t

variable {t : ParameterTable}

/-- What every call keeps up holds after a run. -/
theorem run_induction {I : ParameterTable → Prop} (start : I t)
    (step : ∀ t (call : TableCall), I t → I (call.after t)) (calls : List TableCall) :
    I (t.run calls) := by
  induction calls generalizing t with
  | nil => exact start
  | cons call calls ih => exact ih (step t call start)

end ParameterTable

namespace TableCall

open ParameterTable

variable {t : ParameterTable}

theorem after_add (p : Parameter) (t : ParameterTable) : (add p).after t = (t.add p).1 := rfl

/-- Every other call only binds variables and literals. -/
theorem reaches_after {call : TableCall} (h : ∀ p, call ≠ add p) (t : ParameterTable) :
    Reaches t (call.after t) := by
  cases call with
  | add p => exact absurd rfl (h p)
  | captured v =>
    exact reaches_of_composed (.map _ (.captured (P := fun _ => True) v fun _ _ _ => trivial)) t
  | literal v =>
    exact reaches_of_composed (.map _ (.literal (P := fun _ => True) v fun _ _ _ => trivial)) t
  | date d =>
    exact reaches_of_composed
      (.map _ (.literal (P := fun _ => True) (.date d) fun _ _ _ => trivial)) t
  | compile s p => exact reaches_of_composed (.map _ p.composed_compile) t
  | condition s p =>
    cases p with
    | condition c => exact reaches_of_composed (.map _ c.composed_render) t
    | logical op p q => exact .refl

/-- No call changes or removes a parameter. -/
theorem grows_after (call : TableCall) (t : ParameterTable) : t.Grows (call.after t) := by
  by_cases h : ∃ p, call = add p
  · obtain ⟨p, rfl⟩ := h
    rcases eq_or_step_add t p with hsame | hstep
    · rw [after_add, hsame]
      exact .refl t
    · exact hstep.grows
  · push Not at h
    exact (reaches_after h t).grows

/-- Every call keeps the table consistent, be it successful or not. -/
theorem consistent_after (call : TableCall) (h : t.Consistent) : (call.after t).Consistent := by
  by_cases hadd : ∃ p, call = add p
  · obtain ⟨p, rfl⟩ := hadd
    rcases eq_or_step_add t p with hsame | hstep
    · rw [after_add, hsame]
      exact h
    · exact h.step hstep
  · push Not at hadd
    exact h.reaches (reaches_after hadd t)

/-- A call that is one step of the table leaves it alone if the step does when it fails. -/
theorem after_of_step_error {step : ParameterTable → Except Fault String × ParameterTable}
    (hstep : ∀ f, (step t).1 = .error f → (step t).2 = t) {call : TableCall}
    (hcall : call.apply = .bound <$> Rendering.bind step) {f : Fault}
    (h : call.answer t = .error f) : call.after t = t := by
  rw [answer, hcall, Rendering.run_map, Rendering.run_step] at h
  rw [after, hcall, Rendering.run_map, Rendering.run_step]
  cases hs : (step t).1 with
  | error f => exact hstep f hs
  | ok name =>
    rw [hs] at h
    cases h

/-- A call that is refused leaves the table as it is. -/
theorem after_of_isRefused {call : TableCall} (h : call.isRefused t = true) :
    call.after t = t := by
  unfold isRefused at h
  split at h
  · next p new hnew =>
    have hadded : (t.add p).2 = new := by
      cases hnew
      rfl
    rw [after_add]
    rw [ParameterTable.add] at hadded ⊢
    split
    · rfl
    · next hfree =>
      rw [if_neg hfree] at hadded
      rw [← hadded] at h
      cases h
  · next hf => exact after_of_step_error (fun _ => bindCaptured_snd_of_error) rfl hf
  · next hf => exact after_of_step_error (fun _ hs => (bindLiteral_of_error hs).2) rfl hf
  · next hf => exact after_of_step_error (fun _ hs => (bindLiteral_of_error hs).2) rfl hf
  · cases h

end TableCall

namespace ParameterTable

variable {t : ParameterTable}

theorem Consistent.run (h : t.Consistent) (calls : List TableCall) : (t.run calls).Consistent :=
  run_induction h (fun _ call => call.consistent_after) calls

/-- A run only adds parameters. -/
theorem grows_run (t : ParameterTable) (calls : List TableCall) : t.Grows (t.run calls) :=
  run_induction (I := t.Grows) (.refl t) (fun u call h => h.trans (call.grows_after u)) calls

end ParameterTable

namespace Demo

open Predicate Condition Operand in
-- Names are taken beforehand, and the filter fails when two of its literals are bound.
def crowdedNames : List TableCall :=
  [.add ⟨"@param_value_2", "7", .bigint⟩,
   .captured ⟨"date_1", .text "soon"⟩,
   .literal (.text "Ann"),
   .captured ⟨"value_1", .text "Bob"⟩,
   .compile ⟨{}, Resolver.declared, {}⟩
     (.and
       (condition (compare (literal (.text "Bob")) .ne (dateParts 2000 2 29)))
       (condition (compare (literal (.text "Ann")) .eq (literal .null))))]

end Demo

namespace ParameterTable

/-- After any calls, names are distinct and literals' parameters are theirs alone. A further call
only puts parameters at the end, and one that is refused leaves everything as it was. -/
theorem invariant_of_run (calls : List TableCall) :
    (run {} calls).names.Nodup ∧ (run {} calls).generated.Nodup ∧
      (∀ i ∈ (run {} calls).generated, ∃ p n, (run {} calls).parameters[i]? = some p ∧ 0 < n ∧
        p.name = literalName (p.kind = .datetime) n) ∧
      ∀ call : TableCall,
        (run {} calls).parameters <+: (call.after (run {} calls)).parameters ∧
          (call.isRefused (run {} calls) = true → call.after (run {} calls) = run {} calls) := by
  have h : (run {} calls).Consistent := consistent_empty.run calls
  refine ⟨h.names, h.generated, fun i hi => ?_, fun call => ⟨?_, ?_⟩⟩
  · obtain ⟨p, hp⟩ : ∃ p, (run {} calls).parameters[i]? = some p :=
      ⟨_, List.getElem?_eq_getElem (h.placed i hi)⟩
    obtain ⟨n, hn, hname⟩ := h.named p (List.mem_filterMap.mpr ⟨i, hi, hp⟩)
    exact ⟨p, n, hp, hn, hname⟩
  · exact (call.grows_after _).parameters
  · exact TableCall.after_of_isRefused

/-- The name is that of a literal, so that the variable is refused. -/
theorem invariant_of_run_crowdedNames :
    (TableCall.captured ⟨"value_3", .text "Eve"⟩).isRefused (run {} Demo.crowdedNames) = true ∧
      ((TableCall.captured ⟨"value_3", .text "Eve"⟩).after (run {} Demo.crowdedNames)).parameters =
        [⟨"@param_value_2", "7", .bigint⟩, ⟨"@param_date_1", "soon", .nvarchar⟩,
          ⟨"@param_value_1", "Ann", .nvarchar⟩, ⟨"@param_value_3", "Bob", .nvarchar⟩,
          ⟨"@param_date_2", "29-Feb-2000", .datetime⟩] := by
  have hrefused : (TableCall.captured ⟨"value_3", .text "Eve"⟩).isRefused
      (run {} Demo.crowdedNames) = true := by
    decide +kernel
  obtain ⟨-, -, -, hcall⟩ := invariant_of_run Demo.crowdedNames
  refine ⟨hrefused, ?_⟩
  rw [(hcall _).2 hrefused]
  decide +kernel

/-- Every literal of a kind that can be bound is bound, whatever calls came before: to a parameter
of its type and text, which is new only if no earlier literal has it, and then has the least number
that is free. Two literals have one name exactly if they are equal as parameters. -/
theorem bindLiteral_of_run (calls : List TableCall) (v : Value) (kind : ParameterKind)
    (value : String) (hv : v.classify = .ok (kind, value)) :
    ∃ name u, (run {} calls).bindLiteral v = (.ok name, u) ∧ ⟨name, value, kind⟩ ∈ u.parameters ∧
      ((⟨name, value, kind⟩ ∈ (run {} calls).literals ∧ u = run {} calls) ∨
        ∃ n, name = literalName (kind = .datetime) n ∧
          u.parameters = (run {} calls).parameters ++ [⟨name, value, kind⟩] ∧
          Finds (fun n => ((run {} calls).find? (literalName (kind = .datetime) n)).isSome)
            ((run {} calls).counter (kind = .datetime) + 1) n ∧
          IsLeast {n | 0 < n ∧ literalName (kind = .datetime) n ∉ (run {} calls).names} n) ∧
      ∀ later v' kind' value', Value.classify v' = .ok (kind', value') →
        ∃ name' u', (run u later).bindLiteral v' = (.ok name', u') ∧
          (name' = name ↔ kind' = kind ∧ value' = value) := by
  have h : (run {} calls).Consistent := consistent_empty.run calls
  obtain ⟨name, u, hbind, hmem, hcases⟩ := h.exists_bindLiteral hv
  have hu : u.Consistent := h.binds (.literal hbind)
  refine ⟨name, u, hbind, mem_parameters_of_mem_literals hmem, hcases, ?_⟩
  intro later v' kind' value' hv'
  -- The parameter of the first literal is still there when the second one is bound.
  have hlater : (run u later).Consistent := hu.run later
  obtain ⟨name', u', hbind', hmem', -⟩ := hlater.exists_bindLiteral hv'
  have hu' : u'.Consistent := hlater.binds (.literal hbind')
  have hgrows : u.Grows u' := (grows_run u later).trans (Binds.literal hbind').grows
  exact ⟨name', u', hbind', hu'.name_eq_iff hmem' ((hgrows.literals hu.placed).subset hmem)⟩

theorem bindLiteral_of_run_crowdedNames :
    Value.classify (.text "Tom") = .ok (.nvarchar, "Tom") ∧
      ∃ u, (run {} Demo.crowdedNames).bindLiteral (.text "Tom") = (.ok "@param_value_4", u) ∧
        ∀ later, ∃ u', (run u later).bindLiteral (.text "Tom") = (.ok "@param_value_4", u') := by
  obtain ⟨name, u, hbind, -, -, hlater⟩ :=
    bindLiteral_of_run Demo.crowdedNames (.text "Tom") .nvarchar "Tom" rfl
  obtain rfl : "@param_value_4" = name := by
    have hname : ((run {} Demo.crowdedNames).bindLiteral (.text "Tom")).1.toOption =
        some "@param_value_4" := by
      decide +kernel
    rw [hbind] at hname
    exact (Option.some.inj hname).symm
  refine ⟨rfl, u, hbind, fun later => ?_⟩
  obtain ⟨name', u', hbind', hiff⟩ := hlater later (.text "Tom") .nvarchar "Tom" rfl
  rw [hiff.mpr ⟨rfl, rfl⟩] at hbind'
  exact ⟨u', hbind'⟩

end ParameterTable

end SqlSelect
