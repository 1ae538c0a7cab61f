import SqlSelect.Document.Reading
import SqlSelect.Proofs.Json.Canonical

/-! Members that are read from an object without repeated keys are those of its canonical form. -/
namespace SqlSelect.Json

inductive DistinctKeys : Json → Prop
  | null : DistinctKeys null
  | bool (b : Bool) : DistinctKeys (bool b)
  | int (n : Int) : DistinctKeys (int n)
  | float (x : Binary64) : DistinctKeys (float x)
  | string (s : String) : DistinctKeys (string s)
  | array {items : List Json} (h : ∀ j ∈ items, DistinctKeys j) : DistinctKeys (array items)
  | object {members : List (String × Json)} (hkeys : (members.map (·.1)).Nodup)
      (h : ∀ m ∈ members, DistinctKeys m.2) : DistinctKeys (object members)
  | unreadable : DistinctKeys unreadable

attribute [simp] DistinctKeys.null DistinctKeys.bool DistinctKeys.int DistinctKeys.float
  DistinctKeys.string DistinctKeys.unreadable

@[simp] theorem distinctKeys_array {items : List Json} :
    DistinctKeys (array items) ↔ ∀ j ∈ items, DistinctKeys j := by
  constructor
  · rintro ⟨⟩
    assumption
  · exact .array

@[simp] theorem distinctKeys_object {members : List (String × Json)} :
    DistinctKeys (object members) ↔
      (members.map (·.1)).Nodup ∧ ∀ m ∈ members, DistinctKeys m.2 := by
  constructor
  · rintro ⟨⟩
    exact ⟨‹_›, ‹_›⟩
  · rintro ⟨hkeys, h⟩
    exact .object hkeys h

variable {key : String} {members result : List (String × Json)}

def SameMember (m m' : String × Json) : Prop :=
  m.1 = m'.1 ∧ m.2.canonical? = some m'.2

/-- Where no key is repeated, canonical form puts the members in another order and no more. -/
theorem perm_of_canonicalMembers? {done : List (String × Json)}
    (hkeys : ((done ++ members).map (·.1)).Nodup)
    (h : canonicalMembers? done members = some result) :
    ∃ ms, List.Forall₂ SameMember members ms ∧ result.Perm (done ++ ms) := by
  induction members generalizing done with
  | nil =>
    cases h
    exact ⟨[], .nil, by rw [List.append_nil]⟩
  | cons m rest ih =>
    obtain ⟨k, j⟩ := m
    obtain ⟨v, hv, h⟩ := canonicalMembers?_cons_eq_some.mp h
    have hfirst : ((done ++ (k, j) :: rest).map (·.1)).Perm (k :: (done ++ rest).map (·.1)) :=
      List.perm_middle.map Prod.fst
    obtain ⟨hk, hothers⟩ := List.nodup_cons.mp (hfirst.nodup_iff.mp hkeys)
    have hperm : (insertMember k v done).Perm ((k, v) :: done) := by
      refine perm_insertMember fun hdone => hk ?_
      rw [List.map_append]
      exact List.mem_append_left _ hdone
    have hkeys' : ((insertMember k v done ++ rest).map (·.1)).Nodup :=
      ((hperm.append_right rest).map Prod.fst).nodup_iff.mpr (List.nodup_cons.mpr ⟨hk, hothers⟩)
    obtain ⟨ms, hms, hresult⟩ := ih hkeys' h
    refine ⟨(k, v) :: ms, .cons ⟨rfl, hv⟩ hms, hresult.trans ?_⟩
    exact (hperm.append_right ms).trans List.perm_middle.symm

theorem membersNamed_cons (k : String) (j : Json) :
    membersNamed key ((k, j) :: members) =
      if k = key then j :: membersNamed key members else membersNamed key members := by
  by_cases hk : k = key <;> simp [membersNamed, hk]

theorem membersNamed_eq_nil (h : key ∉ members.map (·.1)) : membersNamed key members = [] := by
  induction members with
  | nil => rfl
  | cons m rest ih =>
    obtain ⟨k, j⟩ := m
    obtain ⟨hne, hrest⟩ : key ≠ k ∧ key ∉ rest.map (·.1) := by simpa using h
    rw [membersNamed_cons, if_neg hne.symm]
    exact ih hrest

/-- A key that is not repeated has at most one value. -/
theorem length_membersNamed_le (h : (members.map (·.1)).Nodup) :
    (membersNamed key members).length ≤ 1 := by
  induction members with
  | nil => simp [membersNamed]
  | cons m rest ih =>
    obtain ⟨k, j⟩ := m
    obtain ⟨hk, hrest⟩ := List.nodup_cons.mp h
    rw [membersNamed_cons]
    split
    · next heq =>
      subst heq
      rw [membersNamed_eq_nil hk]
      exact Nat.le_refl 1
    · exact ih hrest

/-- A key has the same values in canonical form. -/
theorem forall₂_membersNamed {ms : List (String × Json)} (h : List.Forall₂ SameMember members ms) :
    List.Forall₂ (fun j v => j.canonical? = some v) (membersNamed key members)
      (membersNamed key ms) := by
  induction h with
  | nil => exact .nil
  | @cons m m' _ _ hm _ ih =>
    obtain ⟨k, j⟩ := m
    obtain ⟨k', v⟩ := m'
    obtain ⟨rfl, hv⟩ : k = k' ∧ _ := hm
    rw [membersNamed_cons, membersNamed_cons]
    split
    · exact .cons hv ih
    · exact ih

/-- A member is there in the canonical form if it is in the object. -/
theorem rel_slot? (hkeys : (members.map (·.1)).Nodup)
    (h : canonicalMembers? [] members = some result) (key : String) :
    Option.Rel (Option.Rel fun j v => j.canonical? = some v) (slot? members key)
      (slot? result key) := by
  obtain ⟨ms, hms, hperm⟩ := perm_of_canonicalMembers? (by simpa using hkeys) h
  have hlength : (membersNamed key members).length ≤ 1 := length_membersNamed_le hkeys
  have hnamed : List.Forall₂ _ (membersNamed key members) (membersNamed key ms) :=
    forall₂_membersNamed hms
  -- The canonical form has its members in another order, which does not matter for a single one.
  have hperm' : (membersNamed key result).Perm (membersNamed key ms) :=
    (hperm.filter _).map _
  unfold slot?
  generalize membersNamed key members = js at hlength hnamed ⊢
  generalize membersNamed key ms = vs at hperm' hnamed
  rcases hnamed with _ | ⟨hv, _ | _⟩
  · rw [List.perm_nil.mp hperm']
    exact .some .none
  · rw [List.perm_singleton.mp hperm']
    exact .some (.some hv)
  · simp at hlength

theorem distinctKeys_of_slot? {j : Json} (hmembers : ∀ m ∈ members, m.2.DistinctKeys)
    (h : slot? members key = some (some j)) : j.DistinctKeys := by
  unfold slot? at h
  split at h
  · cases h
  · next heq =>
    cases h
    have hj : j ∈ membersNamed key members := heq ▸ List.mem_singleton_self j
    obtain ⟨m, hm, rfl⟩ := List.mem_map.mp hj
    exact hmembers m (List.mem_of_mem_filter hm)
  · cases h

/-- What is read from a structure repeats no keys. -/
theorem distinctKeys_of_structure? {keys : List String} {j : Json} {slots : List (Option Json)}
    (hj : j.DistinctKeys) (h : j.structure? keys = some slots) :
    ∀ a, some a ∈ slots → a.DistinctKeys := by
  intro a ha
  cases j with
  | object members =>
    obtain ⟨-, hmembers⟩ := distinctKeys_object.mp hj
    have hread := Option.mapM_eq_some.mp h
    have hslots := forall_of_forall₂ hread fun key slot hslot a (hslot' : slot = some a) =>
      distinctKeys_of_slot? hmembers (hslot' ▸ hslot)
    exact hslots (some a) ha a rfl
  | array items =>
    simp only [structure?] at h
    split at h
    · cases h
      have hmem : a ∈ items := by simpa [List.mem_replicate] using ha
      exact distinctKeys_array.mp hj a hmem
    · cases h
  | _ => cases h

end SqlSelect.Json
