import SqlSelect.Document.Value
import SqlSelect.Proofs.Outcome

/-! What the values of a document stand for, and everything that is wrong with them, in the order in
which they are written: the first of it is raised, and a value is converted if there is none. -/
namespace SqlSelect

section Reports

variable {ε α β : Type} {x : Except ε α} {faults faults' : List ε}

-- Of all the faults, in order, the first is the one that is raised.
def Reports (x : Except ε α) (faults : List ε) : Prop :=
  ∀ f, x = .error f ↔ faults.head? = some f

theorem reports_ok (a : α) : Reports (.ok a : Except ε α) [] := by
  simp [Reports]

theorem reports_error (f : ε) (faults : List ε) :
    Reports (.error f : Except ε α) (f :: faults) := by
  simp [Reports]

/-- There is a result exactly if there are no faults. -/
theorem Reports.exists_ok_iff (h : Reports x faults) : (∃ a, x = .ok a) ↔ faults = [] := by
  cases x with
  | ok a =>
    cases faults with
    | nil => simp
    | cons f faults => cases (h f).mpr rfl
  | error f =>
    have hf : faults.head? = some f := (h f).mp rfl
    constructor
    · rintro ⟨a, ⟨⟩⟩
    · rintro rfl
      cases hf

/-- The second part has a say only if the first one succeeds. -/
theorem Reports.bind {k : α → Except ε β} (h : Reports x faults)
    (hk : ∀ a, x = .ok a → Reports (k a) faults') : Reports (x >>= k) (faults ++ faults') := by
  cases x with
  | ok a =>
    obtain rfl := h.exists_ok_iff.mp ⟨a, rfl⟩
    exact hk a rfl
  | error f =>
    intro e
    rw [List.head?_append, (h f).mp rfl, Option.some_or, Except.bind_eq_error]
    simp

theorem Reports.map (f : α → β) (h : Reports x faults) : Reports (f <$> x) faults := by
  intro e
  rw [Except.map_eq_error]
  exact h e

end Reports

namespace Json

def dateFaults (text : String) : List Fault :=
  match Date.ofIsoText text with
  | .ok _ => []
  | .error cause => [.invalidValue (.dateText text cause)]

def charFaults (text : String) : List Fault :=
  if text.length = 1 then [] else [.invalidValue (.notOneCharacter text)]

-- An object with a text for a date is no character, whatever else it has.
def objectFaults (members : List (String × Json)) : List Fault :=
  match member? "date" members, member? "char" members with
  | some (.string text), _ => dateFaults text
  | _, some (.string text) => charFaults text
  | _, _ => [.invalidValue (.unsupported (Json.object members).compact)]

mutual

def valueFaults : Json → List Fault
  | .array items => valueFaultsOfAll items
  | .object members => objectFaults members
  | .unreadable => [.document .malformed]
  | _ => []

def valueFaultsOfAll : List Json → List Fault
  | [] => []
  | j :: js => j.valueFaults ++ valueFaultsOfAll js

end

-- What the value stands for. An object is a date or a character, and a date first of all.
inductive Denotes : Json → Value → Prop
  | null : Denotes .null .null
  | bool (b : Bool) : Denotes (.bool b) (.bool b)
  | int {n : Int} (h : n < Int.pow 2 63) : Denotes (.int n) (.int n)
  | large {n : Int} (h : ¬ n < Int.pow 2 63) : Denotes (.int n) (.float (Binary64.ofInt n))
  | float (x : Binary64) : Denotes (.float x) (.float x)
  | text (s : String) : Denotes (.string s) (.text s)
  | list {items : List Json} {vs : List Value} (h : List.Forall₂ Denotes items vs) :
      Denotes (.array items) (.list vs)
  | date {members : List (String × Json)} {text : String} {d : Date}
      (hdate : member? "date" members = some (.string text)) (hd : Date.ofIsoText text = .ok d) :
      Denotes (.object members) (.date d)
  | char {members : List (String × Json)} {c : Char}
      (hdate : ∀ text, member? "date" members ≠ some (.string text))
      (hchar : member? "char" members = some (.string (String.singleton c))) :
      Denotes (.object members) (.char c)

def Converts (j : Json) : Prop :=
  ∃ v, j.Denotes v

end Json

theorem reports_ofDateText (text : String) :
    Reports (Value.ofDateText text) (Json.dateFaults text) := by
  unfold Value.ofDateText Json.dateFaults
  cases Date.ofIsoText text with
  | ok d => exact reports_ok _
  | error cause => exact reports_error _ []

theorem reports_ofCharText (text : String) :
    Reports (Value.ofCharText text) (Json.charFaults text) := by
  unfold Value.ofCharText Json.charFaults
  rw [← String.length_toList]
  split
  · next c hc =>
    rw [hc, if_pos List.length_singleton]
    exact reports_ok _
  · next hother =>
    rw [if_neg fun hone => ?_]
    · exact reports_error _ []
    · obtain ⟨c, hc⟩ := List.length_eq_one_iff.mp hone
      exact hother c hc

/-- An object is a date if it has a text for one, and else a character. -/
theorem reports_ofObject (members : List (String × Json)) :
    Reports (Value.ofObject members) (Json.objectFaults members) := by
  rw [Value.ofObject]
  split
  · next text hdate =>
    simp only [Json.objectFaults, hdate]
    exact reports_ofDateText text
  · next text hchar hdate =>
    simp only [Json.objectFaults, hchar]
    exact reports_ofCharText text
  · next hdate hchar =>
    simp only [Json.objectFaults]
    exact reports_error _ []

mutual

/-- Converting a value raises the first of its faults. -/
theorem reports_ofJson : ∀ j : Json, Reports (Value.ofJson j) j.valueFaults
  | .null => reports_ok _
  | .bool _ => reports_ok _
  | .int _ => reports_ok _
  | .float _ => reports_ok _
  | .string _ => reports_ok _
  | .array items => .map _ (reports_allOfJson items)
  | .object members => reports_ofObject members
  | .unreadable => reports_error _ []

theorem reports_allOfJson : ∀ js : List Json,
    Reports (Value.allOfJson js) (Json.valueFaultsOfAll js)
  | [] => reports_ok _
  | j :: js => .bind (reports_ofJson j) fun _ _ => .map _ (reports_allOfJson js)

end

theorem ofDateText_eq_ok_iff {text : String} {v : Value} :
    Value.ofDateText text = .ok v ↔ ∃ d, Date.ofIsoText text = .ok d ∧ v = .date d := by
  unfold Value.ofDateText
  cases Date.ofIsoText text <;> simp [eq_comm]

theorem ofCharText_eq_ok_iff {text : String} {v : Value} :
    Value.ofCharText text = .ok v ↔ ∃ c, text = String.singleton c ∧ v = .char c := by
  unfold Value.ofCharText
  simp only [← String.toList_inj, String.toList_singleton]
  split
  · next c hc => simp [hc, eq_comm]
  · next hother =>
    constructor
    · rintro ⟨⟩
    · rintro ⟨c, hc, -⟩
      exact absurd hc (hother c)

/-- An object is converted to what it denotes, and to nothing else. -/
theorem ofObject_eq_ok_iff {members : List (String × Json)} {v : Value} :
    Value.ofObject members = .ok v ↔ (Json.object members).Denotes v := by
  rw [Value.ofObject]
  split
  · next text hdate =>
    rw [ofDateText_eq_ok_iff]
    constructor
    · rintro ⟨d, hd, rfl⟩
      exact .date hdate hd
    · intro h
      cases h with
      | date hdate' hd =>
        cases hdate.symm.trans hdate'
        exact ⟨_, hd, rfl⟩
      | char hnone => exact absurd hdate (hnone text)
  · next text hchar hnone =>
    rw [ofCharText_eq_ok_iff]
    constructor
    · rintro ⟨c, rfl, rfl⟩
      exact .char hnone hchar
    · intro h
      cases h with
      | date hdate => exact absurd hdate (hnone _)
      | char _ hchar' =>
        cases hchar.symm.trans hchar'
        exact ⟨_, rfl, rfl⟩
  · next hdate hchar =>
    constructor
    · rintro ⟨⟩
    · intro h
      cases h with
      | date hdate' => exact absurd hdate' (hdate _)
      | char _ hchar' => exact absurd hchar' (hchar _)

mutual

/-- A value is converted to what it denotes, and to nothing else. -/
theorem ofJson_eq_ok_iff : ∀ {j : Json} {v : Value}, Value.ofJson j = .ok v ↔ j.Denotes v
  | .null, v => by
    constructor
    · rintro ⟨⟩
      exact .null
    · rintro ⟨⟩
      rfl
  | .bool b, v => by
    constructor
    · rintro ⟨⟩
      exact .bool b
    · rintro ⟨⟩
      rfl
  | .int n, v => by
    change Except.ok (if n < Int.pow 2 63 then Value.int n else _) = _ ↔ _
    constructor
    · intro h
      split at h
      · next hn =>
        cases h
        exact .int hn
      · next hn =>
        cases h
        exact .large hn
    · rintro (_ | _ | hn | hn)
      · rw [if_pos hn]
      · rw [if_neg hn]
  | .float x, v => by
    constructor
    · rintro ⟨⟩
      exact .float x
    · rintro ⟨⟩
      rfl
  | .string s, v => by
    constructor
    · rintro ⟨⟩
      exact .text s
    · rintro ⟨⟩
      rfl
  | .array items, v => by
    constructor
    · intro h
      obtain ⟨vs, hvs, h⟩ := Except.bind_eq_ok.mp h
      cases h
      exact .list (allOfJson_eq_ok_iff.mp hvs)
    · intro h
      cases h with
      | list h => exact Except.bind_eq_ok.mpr ⟨_, allOfJson_eq_ok_iff.mpr h, rfl⟩
  | .object members, v => ofObject_eq_ok_iff
  | .unreadable, v => by constructor <;> rintro ⟨⟩

theorem allOfJson_eq_ok_iff : ∀ {js : List Json} {vs : List Value},
    Value.allOfJson js = .ok vs ↔ List.Forall₂ Json.Denotes js vs
  | [], vs => by
    constructor
    · rintro ⟨⟩
      exact .nil
    · rintro ⟨⟩
      rfl
  | j :: js, vs => by
    simp only [Value.allOfJson, Except.bind_eq_ok, Except.pure_eq_ok,
      List.forall₂_cons_left_iff]
    constructor
    · rintro ⟨v, hv, vs, hvs, rfl⟩
      exact ⟨v, vs, ofJson_eq_ok_iff.mp hv, allOfJson_eq_ok_iff.mp hvs, rfl⟩
    · rintro ⟨v, vs, hv, hvs, rfl⟩
      exact ⟨v, ofJson_eq_ok_iff.mpr hv, vs, allOfJson_eq_ok_iff.mpr hvs, rfl⟩

end

namespace Json

/-- A value has no faults exactly if it converts. -/
theorem valueFaults_eq_nil_iff {j : Json} : j.valueFaults = [] ↔ j.Converts := by
  rw [← (reports_ofJson j).exists_ok_iff]
  exact exists_congr fun v => ofJson_eq_ok_iff

theorem valueFaultsOfAll_eq_nil_iff {js : List Json} :
    valueFaultsOfAll js = [] ↔ ∀ j ∈ js, j.Converts := by
  induction js with
  | nil => simp [valueFaultsOfAll]
  | cons j js ih =>
    rw [valueFaultsOfAll, List.append_eq_nil_iff, valueFaults_eq_nil_iff, ih,
      List.forall_mem_cons]

end Json

end SqlSelect
