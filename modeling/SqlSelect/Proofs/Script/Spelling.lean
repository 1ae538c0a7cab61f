import SqlSelect.Proofs.Parameter.Call
import SqlSelect.Proofs.Path.Reading
import SqlSelect.Proofs.Script.Reader

/-! What the names and values of bound parameters are spelled with. Names, numbers and dates need no
quotes or escapes in a script. -/
namespace SqlSelect

open ParameterTable Script

def SpelledWith (q : Char → Bool) (text : String) : Prop :=
  ∀ c ∈ text.toList, q c = true

namespace SpelledWith

variable {q r : Char → Bool} {a b : String}

instance : Decidable (SpelledWith q a) :=
  decidable_of_iff (a.toList.all q = true) List.all_eq_true

theorem mono (h : SpelledWith q a) (hq : ∀ c, q c = true → r c = true) : SpelledWith r a :=
  fun c hc => hq c (h c hc)

theorem append (ha : SpelledWith q a) (hb : SpelledWith q b) : SpelledWith q (a ++ b) := by
  intro c hc
  rw [String.toList_append, List.mem_append] at hc
  exact hc.elim (ha c) (hb c)

theorem ofList {cs : List Char} (h : ∀ c ∈ cs, q c = true) : SpelledWith q (String.ofList cs) := by
  rwa [SpelledWith, String.toList_ofList]

theorem repr (hdigit : ∀ c, c.isDigit = true → q c = true) (n : Nat) :
    SpelledWith q (Nat.repr n) := by
  intro c hc
  rw [Nat.toList_repr] at hc
  exact hdigit c (Nat.isDigit_of_mem_toDigits (by decide) (by decide) hc)

theorem padded (hdigit : ∀ c, c.isDigit = true → q c = true) (width n : Nat) :
    SpelledWith q (Text.padded width n) := by
  refine append (ofList ?_) (repr hdigit n)
  intro c hc
  rw [List.eq_of_mem_replicate hc]
  exact hdigit '0' rfl

end SpelledWith

namespace Script

theorem isNumberPart_of_isDigit (c : Char) (h : c.isDigit = true) : isNumberPart c = true := by
  simp [isNumberPart, h]

theorem isWordPart_of_isIdentifierRest {c : Char} (h : Text.isIdentifierRest c = true) :
    isWordPart c = true := by
  -- Blanks and line breaks are in no identifier.
  have hne (d : Char) (hd : Text.isIdentifierRest d = false) : c ≠ d := by
    rintro rfl
    rw [hd] at h
    cases h
  simp [isWordPart, isBreak, hne ' ' rfl, hne '\r' rfl, hne '\n' rfl]

theorem isWordPart_of_isDigit (c : Char) (h : c.isDigit = true) : isWordPart c = true :=
  isWordPart_of_isIdentifierRest (by simp [Text.isIdentifierRest, Char.isAlphanum, h])

end Script

theorem spelled_decimal (n : Int) : SpelledWith isNumberPart (Text.decimal n) := by
  unfold Text.decimal
  split
  · exact .append (by decide) (.repr isNumberPart_of_isDigit _)
  · exact .repr isNumberPart_of_isDigit _

/-- A decimal without an exponent has the characters of a number. -/
theorem Binary64.spelled_positional (d : Decimal) : SpelledWith isNumberPart d.positional := by
  have hdigits : SpelledWith isNumberPart (Nat.repr d.digits) := .repr isNumberPart_of_isDigit _
  have hzeros (n : Nat) : SpelledWith isNumberPart (zeros n) := by
    refine .ofList fun c hc => ?_
    rw [List.eq_of_mem_replicate hc]
    rfl
  unfold Decimal.positional
  dsimp only
  split
  · exact .append hdigits (hzeros _)
  · split
    · refine .append (.append ?_ (by decide)) ?_
      · exact .ofList fun c hc => hdigits c (List.mem_of_mem_take hc)
      · exact .ofList fun c hc => hdigits c (List.mem_of_mem_drop hc)
    · exact .append (.append (by decide) (hzeros _)) hdigits

theorem Binary64.spelled_sqlNumber {x : Binary64} {text : String} (h : x.sqlNumber = .ok text) :
    SpelledWith isNumberPart text := by
  have hsign : SpelledWith isNumberPart x.signText := by
    unfold signText
    split <;> decide
  unfold sqlNumber at h
  split at h <;> cases h
  · next hfinite =>
    -- Neither `NaN` nor an infinity is left, so that the text is made of digits.
    have hnumber : x.isNaN = false := by
      simp only [isFinite, bne_iff_ne, ne_eq] at hfinite
      simp [isNaN, hfinite]
    rw [text, hnumber, hfinite]
    simp only [Bool.false_eq_true, if_false, Bool.not_true]
    split
    · exact .append hsign (by decide)
    · exact .append hsign (spelled_positional _)

theorem Date.spelled_sqlText (d : Date) :
    SpelledWith (fun c => isWordPart c && c != '\'') d.sqlText := by
  let isDatePart (c : Char) : Bool := isWordPart c && c != '\''
  have hdigit (c : Char) (hc : c.isDigit = true) : isDatePart c = true := by
    have hquote : c ≠ '\'' := by
      rintro rfl
      cases hc
    simp [isDatePart, isWordPart_of_isDigit c hc, hquote]
  have hmonth : SpelledWith isDatePart (monthName d.month) := by
    unfold monthName
    split <;> decide
  have hyear : SpelledWith isDatePart (yearText d.year) := by
    have hpadded := SpelledWith.padded hdigit 4 d.year.natAbs
    unfold yearText
    split
    · exact .append (by decide) hpadded
    · split
      · exact .append (by decide) hpadded
      · exact hpadded
  have hday : SpelledWith isDatePart (Text.padded 2 d.day) := .padded hdigit 2 d.day
  exact .append (.append (.append (.append hday (by decide)) hmonth) (by decide)) hyear

-- What is written in a script as it is can be.
structure Parameter.Legible (p : Parameter) : Prop where
  name : SpelledWith isWordPart p.name
  number : p.kind = .bigint ∨ p.kind = .decimal → SpelledWith isNumberPart p.value
  date : p.kind = .datetime → SpelledWith (· != '\'') p.value

/-- Whatever can be a parameter is legible. -/
theorem Value.legible_of_classify {v : Value} {name value : String} {kind : ParameterKind}
    (hv : v.classify = .ok (kind, value)) (hname : SpelledWith isWordPart name) :
    Parameter.Legible ⟨name, value, kind⟩ := by
  cases v with
  | int n =>
    cases hv
    exact ⟨hname, fun _ => spelled_decimal n, by simp⟩
  | float x =>
    rw [classify, map_eq_pure_bind] at hv
    obtain ⟨text, htext, hv⟩ := Except.bind_eq_ok.mp hv
    cases hv
    exact ⟨hname, fun _ => x.spelled_sqlNumber htext, by simp⟩
  | char c =>
    cases hv
    exact ⟨hname, by simp, by simp⟩
  | text s =>
    cases hv
    exact ⟨hname, by simp, by simp⟩
  | date d =>
    cases hv
    have hvalue : SpelledWith (· != '\'') d.sqlText :=
      d.spelled_sqlText.mono fun _ hc => (Bool.and_eq_true_iff.mp hc).2
    exact ⟨hname, by simp, fun _ => hvalue⟩
  | _ => cases hv

namespace ParameterTable

variable {t u : ParameterTable}

def Legible (t : ParameterTable) : Prop :=
  ∀ p ∈ t.parameters, p.Legible

theorem spelled_variable {name : String} (h : Text.isIdentifier name.toList = true) :
    SpelledWith isWordPart (variablePrefix ++ name) := by
  have hname : SpelledWith isWordPart name := by
    intro c hc
    exact isWordPart_of_isIdentifierRest (Path.isIdentifierRest_of_mem h hc)
  exact .append (by decide) hname

theorem spelled_literalName (date : Bool) (n : Nat) :
    SpelledWith isWordPart (literalName date n) := by
  refine .append (.append (by decide) ?_) (.repr isWordPart_of_isDigit n)
  cases date <;> decide

theorem Legible.append (h : t.Legible) {p : Parameter} (hp : p.Legible)
    (hu : u.parameters = t.parameters ++ [p]) : u.Legible := by
  intro q hq
  rw [hu, List.mem_append, List.mem_singleton] at hq
  rcases hq with hq | rfl
  · exact h q hq
  · exact hp

theorem Legible.binds (h : t.Legible) (hb : Binds t u) : u.Legible := by
  cases hb with
  | @captured v name hbind =>
    obtain ⟨hname, kind, value, hv, -, rfl, rfl⟩ := bindCaptured_eq_ok.mp hbind
    rw [add_fst]
    split
    · exact h
    · exact h.append (v.value.legible_of_classify hv (spelled_variable hname)) rfl
  | @literal v name hbind =>
    obtain ⟨kind, value, hv⟩ := exists_classify_of_bindLiteral hbind
    cases hr : t.reusable? kind value with
    | some p =>
      cases hbind.symm.trans (bindLiteral_of_reusable hv hr).1
      exact h
    | none =>
      cases hbind.symm.trans (bindLiteral_of_new hv hr)
      exact h.append (v.legible_of_classify hv (spelled_literalName _ _)) rfl

/-- What is reached from legible parameters is legible. -/
theorem Legible.reaches (h : t.Legible) (hr : Reaches t u) : u.Legible := by
  induction hr with
  | refl => exact h
  | tail _ hb ih => exact ih.binds hb

/-- A run without additions does nothing but bind. -/
theorem reaches_run {calls : List TableCall} (h : ∀ p, .add p ∉ calls) (t : ParameterTable) :
    Reaches t (t.run calls) := by
  induction calls generalizing t with
  | nil => exact .refl
  | cons call calls ih =>
    have hcall : ∀ p, call ≠ .add p := fun p hp => h p (hp ▸ List.mem_cons_self ..)
    exact (TableCall.reaches_after hcall t).trans
      (ih (fun p hp => h p (List.mem_cons_of_mem _ hp)) _)

end ParameterTable

end SqlSelect
