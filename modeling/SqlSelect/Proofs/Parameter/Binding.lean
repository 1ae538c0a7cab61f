import Mathlib.Data.List.Nodup
import Mathlib.Data.List.Perm.Subperm
import Std.Data.String.ToNat
import SqlSelect.Parameter
import SqlSelect.Proofs.Outcome

/-! What a binding does to the table of parameters. A new name is always free, so nothing that is
in the table is changed. -/
namespace SqlSelect.ParameterTable

def names (t : ParameterTable) : List String :=
  t.parameters.map (·.name)

@[simp] theorem length_names (t : ParameterTable) : t.names.length = t.size := by
  simp [names, size]

theorem find?_isSome_iff (t : ParameterTable) (name : String) :
    (t.find? name).isSome = true ↔ name ∈ t.names := by
  simp [find?, names, List.find?_isSome]

/-- Other numbers make other names. -/
theorem literalName_injective (date : Bool) : Function.Injective (literalName date) := by
  intro m n h
  exact Nat.repr_injective ((String.append_right_inj _).mp h)

-- Counting on from the first number, one number at a time, the search stops at the second: it is
-- the first that is not taken.
inductive Finds (taken : Nat → Bool) : Nat → Nat → Prop
  | free {n : Nat} (h : taken n = false) : Finds taken n n
  | next {n m : Nat} (h : taken n = true) (hm : Finds taken (n + 1) m) : Finds taken n m

/-- The search stops at the first number that is free. -/
theorem Finds.first {taken : Nat → Bool} {n m : Nat} (h : Finds taken n m) :
    n ≤ m ∧ taken m = false ∧ ∀ k, n ≤ k → k < m → taken k = true := by
  induction h with
  | free h => exact ⟨Nat.le_refl _, h, fun k hk hk' => by omega⟩
  | @next n m h hm ih =>
    obtain ⟨hle, hfree, htaken⟩ := ih
    refine ⟨by omega, hfree, fun k hk hkm => ?_⟩
    rcases Nat.eq_or_lt_of_le hk with rfl | hlt
    · exact h
    · exact htaken k hlt hkm

/-- The search stops if there is a free number that its fuel reaches. -/
theorem finds_firstFree {taken : Nat → Bool} {fuel n : Nat}
    (h : ∃ k, k ≤ fuel ∧ taken (n + k) = false) : Finds taken n (firstFree taken fuel n) := by
  induction fuel generalizing n with
  | zero =>
    obtain ⟨k, hk, ht⟩ := h
    obtain rfl : k = 0 := by omega
    exact .free ht
  | succ fuel ih =>
    rw [firstFree]
    split
    · next hn =>
      obtain ⟨k, hk, ht⟩ := h
      have hk0 : k ≠ 0 := by
        rintro rfl
        rw [Nat.add_zero, hn] at ht
        cases ht
      apply Finds.next hn
      apply ih
      exact ⟨k - 1, by omega, by rwa [show n + 1 + (k - 1) = n + k by omega]⟩
    · next hn => exact .free (by simpa using hn)

/-- Among more numbers than the table has names, one makes a new name. -/
theorem exists_literalName_not_mem (t : ParameterTable) (date : Bool) (n : Nat) :
    ∃ k, k ≤ t.size ∧ literalName date (n + k) ∉ t.names := by
  by_contra hall
  push Not at hall
  have hnodup : ((List.range (t.size + 1)).map fun k => literalName date (n + k)).Nodup := by
    apply List.nodup_range.map
    intro a b hab
    exact Nat.add_left_cancel (literalName_injective date hab)
  have hsubset : (List.range (t.size + 1)).map (fun k => literalName date (n + k)) ⊆ t.names := by
    intro name hname
    obtain ⟨k, hk, rfl⟩ := List.mem_map.mp hname
    exact hall k (by simpa [Nat.lt_succ_iff] using hk)
  have hlength := (hnodup.subperm hsubset).length_le
  simp only [List.length_map, List.length_range, length_names] at hlength
  omega

/-- The search for a new number ends, and ends where it is said to. -/
theorem finds_freshNumber (t : ParameterTable) (date : Bool) :
    Finds (fun n => (t.find? (literalName date n)).isSome) (t.counter date + 1)
      (t.freshNumber date) := by
  obtain ⟨k, hk, hfree⟩ := exists_literalName_not_mem t date (t.counter date + 1)
  rw [← find?_isSome_iff, Bool.not_eq_true] at hfree
  exact finds_firstFree ⟨k, hk, hfree⟩

/-- The next name is not taken. -/
theorem literalName_freshNumber_not_mem (t : ParameterTable) (date : Bool) :
    literalName date (t.freshNumber date) ∉ t.names := by
  obtain ⟨-, hfree, -⟩ := (t.finds_freshNumber date).first
  rwa [← find?_isSome_iff, Bool.not_eq_true]

theorem add_fst (t : ParameterTable) (p : Parameter) :
    (t.add p).1 = if p.name ∈ t.names then t else { t with parameters := t.parameters ++ [p] } := by
  rw [add]
  simp only [find?_isSome_iff]
  split <;> rfl

/-- A variable is bound if its name is an identifier and not that of a literal, and if its value can
be a parameter. An earlier value of the name stays. -/
theorem bindCaptured_eq_ok {t u : ParameterTable} {v : Variable} {name : String} :
    t.bindCaptured v = (.ok name, u) ↔
      Text.isIdentifier v.name.toList = true ∧ ∃ kind value, v.value.classify = .ok (kind, value) ∧
        t.isGenerated (variablePrefix ++ v.name) = false ∧ variablePrefix ++ v.name = name ∧
          (t.add ⟨variablePrefix ++ v.name, value, kind⟩).1 = u := by
  unfold bindCaptured
  cases Text.isIdentifier v.name.toList with
  | false => simp
  | true =>
    cases v.value.classify with
    | error f => simp
    | ok p =>
      obtain ⟨kind, value⟩ := p
      cases hg : t.isGenerated (variablePrefix ++ v.name) <;> simp [hg]

/-- The checks of a variable come before the table is changed. -/
theorem bindCaptured_snd_of_error {t : ParameterTable} {v : Variable} {f : Fault}
    (h : (t.bindCaptured v).1 = .error f) : (t.bindCaptured v).2 = t := by
  unfold bindCaptured at h ⊢
  split
  · rfl
  · next hname =>
    rw [if_neg hname] at h
    cases hv : v.value.classify with
    | error f => rfl
    | ok p =>
      simp only [hv] at h ⊢
      split
      · rfl
      · next hg =>
        rw [if_neg hg] at h
        cases h

-- The parameter that a literal without an equal one gets.
def newLiteral (t : ParameterTable) (kind : ParameterKind) (value : String) : Parameter :=
  ⟨literalName (kind = .datetime) (t.freshNumber (kind = .datetime)), value, kind⟩

def withLiteral (t : ParameterTable) (kind : ParameterKind) (value : String) : ParameterTable where
  parameters := t.parameters ++ [t.newLiteral kind value]
  generated := t.generated ++ [t.size]
  valueCounter := if kind = .datetime then t.valueCounter else t.freshNumber false
  dateCounter := if kind = .datetime then t.freshNumber true else t.dateCounter

theorem newLiteral_name_not_mem (t : ParameterTable) (kind : ParameterKind) (value : String) :
    (t.newLiteral kind value).name ∉ t.names :=
  literalName_freshNumber_not_mem t _

/-- The next name is that of a new literal, and the counter moves on to it. -/
theorem freshName_eq (t : ParameterTable) (kind : ParameterKind) (value : String) :
    t.freshName (kind = .datetime) =
      ((t.newLiteral kind value).name,
        { t.withLiteral kind value with
          parameters := t.parameters, generated := t.generated }) := by
  by_cases hdate : kind = .datetime <;> simp [freshName, newLiteral, withLiteral, hdate]

/-- The new name is free, so that adding the parameter takes effect. -/
theorem add_newLiteral (t : ParameterTable) (kind : ParameterKind) (value : String) :
    ({ t.withLiteral kind value with parameters := t.parameters }).add (t.newLiteral kind value) =
      (t.withLiteral kind value, true) := by
  have hfree := t.newLiteral_name_not_mem kind value
  rw [← find?_isSome_iff] at hfree
  exact if_neg hfree

/-- A literal that is there already shares its parameter. -/
theorem bindLiteral_of_reusable {t : ParameterTable} {v : Value} {kind : ParameterKind}
    {value : String} {p : Parameter} (hv : v.classify = .ok (kind, value))
    (hp : t.reusable? kind value = some p) :
    t.bindLiteral v = (.ok p.name, t) ∧ p = ⟨p.name, value, kind⟩ ∧ p ∈ t.literals := by
  obtain ⟨rfl, rfl⟩ : p.kind = kind ∧ p.value = value := by simpa using List.find?_some hp
  refine ⟨?_, rfl, List.mem_of_find?_eq_some hp⟩
  simp only [bindLiteral, hv, hp]

/-- A new literal is put at the end. -/
theorem bindLiteral_of_new {t : ParameterTable} {v : Value} {kind : ParameterKind} {value : String}
    (hv : v.classify = .ok (kind, value)) (hnew : t.reusable? kind value = none) :
    t.bindLiteral v = (.ok (t.newLiteral kind value).name, t.withLiteral kind value) := by
  have hadd := t.add_newLiteral kind value
  simp only [bindLiteral, hv, hnew, t.freshName_eq kind value]
  exact Prod.ext rfl (congrArg Prod.fst hadd)

/-- A literal is refused before the table is looked at. -/
theorem bindLiteral_of_error {t : ParameterTable} {v : Value} {f : Fault}
    (h : (t.bindLiteral v).1 = .error f) : v.classify = .error f ∧ (t.bindLiteral v).2 = t := by
  cases hv : v.classify with
  | error f' =>
    have hbind : t.bindLiteral v = (.error f', t) := by simp only [bindLiteral, hv]
    rw [hbind] at h ⊢
    exact ⟨congrArg Except.error (Except.error.inj h), rfl⟩
  | ok p =>
    cases hr : t.reusable? p.1 p.2 with
    | some p' =>
      rw [(bindLiteral_of_reusable hv hr).1] at h
      cases h
    | none =>
      rw [bindLiteral_of_new hv hr] at h
      cases h

theorem exists_classify_of_bindLiteral {t u : ParameterTable} {v : Value} {name : String}
    (h : t.bindLiteral v = (.ok name, u)) : ∃ kind value, v.classify = .ok (kind, value) := by
  cases hv : v.classify with
  | error f =>
    simp only [bindLiteral, hv] at h
    cases h
  | ok p => exact ⟨p.1, p.2, rfl⟩

/-- A literal has the parameter of an equal one, or else a new one. -/
theorem bindLiteral_eq_ok {t u : ParameterTable} {v : Value} {name : String}
    (h : t.bindLiteral v = (.ok name, u)) :
    ∃ kind value, v.classify = .ok (kind, value) ∧
      ((⟨name, value, kind⟩ ∈ t.literals ∧ u = t) ∨
        (t.reusable? kind value = none ∧ name ∉ t.names ∧
          u.parameters = t.parameters ++ [⟨name, value, kind⟩] ∧
          u.generated = t.generated ++ [t.size])) := by
  obtain ⟨kind, value, hv⟩ := exists_classify_of_bindLiteral h
  refine ⟨kind, value, hv, ?_⟩
  cases hr : t.reusable? kind value with
  | some p =>
    obtain ⟨hp, hname, hmem⟩ := bindLiteral_of_reusable hv hr
    cases h.symm.trans hp
    exact .inl ⟨hname ▸ hmem, rfl⟩
  | none =>
    cases h.symm.trans (bindLiteral_of_new hv hr)
    exact .inr ⟨rfl, t.newLiteral_name_not_mem kind value, rfl, rfl⟩

theorem mem_parameters_of_mem_literals {t : ParameterTable} {p : Parameter}
    (h : p ∈ t.literals) : p ∈ t.parameters := by
  obtain ⟨i, -, hi⟩ := List.mem_filterMap.mp h
  exact List.mem_of_getElem? hi

theorem isGenerated_iff (t : ParameterTable) (name : String) :
    t.isGenerated name = true ↔ ∃ p ∈ t.literals, p.name = name := by
  simp [isGenerated]

def Placed (t : ParameterTable) : Prop :=
  ∀ i ∈ t.generated, i < t.size

theorem literals_append {t : ParameterTable} (ht : t.Placed) (ps : List Parameter) :
    t.generated.filterMap ((t.parameters ++ ps)[·]?) = t.literals := by
  apply List.filterMap_congr
  intro i hi
  exact List.getElem?_append_left (ht i hi)

section Appending

variable {t u : ParameterTable}

theorem names_of_append {p : Parameter} (hp : u.parameters = t.parameters ++ [p]) :
    u.names = t.names ++ [p.name] := by
  simp [names, hp]

theorem placed_of_append {p : Parameter} (ht : t.Placed) (hp : u.parameters = t.parameters ++ [p])
    (hg : ∀ i ∈ u.generated, i ∈ t.generated ∨ i = t.size) : u.Placed := by
  intro i hi
  have hsize : u.size = t.size + 1 := by simp [size, hp]
  rcases hg i hi with hi | rfl
  · have := ht i hi
    omega
  · omega

/-- The new parameter is the last one of a literal. -/
theorem literals_of_generated (ht : t.Placed) {p : Parameter}
    (hp : u.parameters = t.parameters ++ [p]) (hg : u.generated = t.generated ++ [t.size]) :
    u.literals = t.literals ++ [p] := by
  rw [literals, hp, hg, List.filterMap_append, literals_append ht]
  simp [size]

end Appending

end SqlSelect.ParameterTable
