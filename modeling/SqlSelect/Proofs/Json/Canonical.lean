import Mathlib.Data.List.Perm.Basic
import SqlSelect.Json.Basic
import SqlSelect.Proofs.Lists

/-! The canonical form of a JSON value: its keys ascend, it is its own canonical form, and an object
without repeated keys has the same members in it. -/
namespace SqlSelect.Json

variable {key : String} {value : Json} {members : List (String × Json)}

def Ascending (members : List (String × Json)) : Prop :=
  members.Pairwise (·.1 < ·.1)

theorem mem_insertMember {m : String × Json} (h : m ∈ insertMember key value members) :
    m = (key, value) ∨ m ∈ members := by
  induction members with
  | nil => simpa [insertMember] using h
  | cons m' rest ih =>
    obtain ⟨k, v⟩ := m'
    rw [insertMember] at h
    split at h
    · rcases List.mem_cons.mp h with rfl | h
      · exact .inl rfl
      · exact .inr (List.mem_cons_of_mem _ h)
    · split at h
      · exact List.mem_cons.mp h
      · rcases List.mem_cons.mp h with rfl | h
        · exact .inr List.mem_cons_self
        · exact (ih h).imp_right (List.mem_cons_of_mem _)

/-- An inserted member keeps the keys in order. -/
theorem ascending_insertMember (h : Ascending members) :
    Ascending (insertMember key value members) := by
  induction members with
  | nil => simp [insertMember, Ascending]
  | cons m rest ih =>
    obtain ⟨k, v⟩ := m
    obtain ⟨hlater, hrest⟩ := List.pairwise_cons.mp h
    rw [insertMember]
    split
    · next hkey =>
      subst hkey
      exact List.pairwise_cons.mpr ⟨hlater, hrest⟩
    · next hne =>
      split
      · next hlt =>
        refine List.pairwise_cons.mpr ⟨fun m hm => ?_, h⟩
        rcases List.mem_cons.mp hm with rfl | hm
        · exact hlt
        · exact String.lt_trans hlt (hlater m hm)
      · next hnlt =>
        refine List.pairwise_cons.mpr ⟨fun m hm => ?_, ih hrest⟩
        rcases mem_insertMember hm with rfl | hm
        · have hle := String.not_lt.mp hnlt
          refine String.not_le.mp fun hle' => hne (String.le_antisymm hle' hle)
        · exact hlater m hm

/-- A key behind all others goes to the end. -/
theorem insertMember_of_lt (h : ∀ m ∈ members, m.1 < key) :
    insertMember key value members = members ++ [(key, value)] := by
  induction members with
  | nil => rfl
  | cons m rest ih =>
    obtain ⟨k, v⟩ := m
    obtain ⟨hk, hrest⟩ := List.forall_mem_cons.mp h
    have hne : key ≠ k := by
      rintro rfl
      exact String.lt_irrefl key hk
    rw [insertMember, if_neg hne, if_neg (String.lt_asymm hk), ih hrest]
    rfl

/-- A new key is one more member. -/
theorem perm_insertMember (h : key ∉ members.map (·.1)) :
    (insertMember key value members).Perm ((key, value) :: members) := by
  induction members with
  | nil => exact .refl _
  | cons m rest ih =>
    obtain ⟨k, v⟩ := m
    obtain ⟨hne, hrest⟩ : key ≠ k ∧ key ∉ rest.map (·.1) := by simpa using h
    rw [insertMember, if_neg hne]
    split
    · exact .refl _
    · exact ((ih hrest).cons (k, v)).trans (.swap _ _ _)

def Canonical (j : Json) : Prop :=
  j.canonical? = some j

theorem canonicalAll?_eq_mapM (js : List Json) : canonicalAll? js = js.mapM canonical? := by
  induction js with
  | nil => rfl
  | cons j js ih => rw [canonicalAll?, ih, List.mapM_cons]

theorem canonicalAll?_eq_some {js vs : List Json} :
    canonicalAll? js = some vs ↔ List.Forall₂ (fun j v => j.canonical? = some v) js vs := by
  rw [canonicalAll?_eq_mapM, Option.mapM_eq_some]

theorem canonical?_array_eq_some {items : List Json} {v : Json} :
    canonical? (array items) = some v ↔ ∃ vs, canonicalAll? items = some vs ∧ array vs = v := by
  simp [canonical?, Option.bind_eq_some_iff]

theorem canonical?_object_eq_some {v : Json} :
    canonical? (object members) = some v ↔
      ∃ ms, canonicalMembers? [] members = some ms ∧ object ms = v := by
  simp [canonical?, Option.bind_eq_some_iff]

theorem canonicalMembers?_cons_eq_some {done rest result : List (String × Json)} {j : Json} :
    canonicalMembers? done ((key, j) :: rest) = some result ↔
      ∃ v, j.canonical? = some v ∧
        canonicalMembers? (insertMember key v done) rest = some result := by
  simp [canonicalMembers?, Option.bind_eq_some_iff]

/-- Members in order are put together as they are. -/
theorem canonicalMembers?_of_ascending {done : List (String × Json)}
    (h : Ascending (done ++ members)) (hmembers : ∀ m ∈ members, m.2.Canonical) :
    canonicalMembers? done members = some (done ++ members) := by
  -- What is done already comes before all that is left.
  induction members generalizing done with
  | nil => simp [canonicalMembers?]
  | cons m rest ih =>
    obtain ⟨k, v⟩ := m
    obtain ⟨hv, hrest⟩ := List.forall_mem_cons.mp hmembers
    have hlast : ∀ m ∈ done, m.1 < k := by
      intro m hm
      exact (List.pairwise_append.mp h).2.2 m hm (k, v) List.mem_cons_self
    refine canonicalMembers?_cons_eq_some.mpr ⟨v, hv, ?_⟩
    have happend : done ++ (k, v) :: rest = done ++ [(k, v)] ++ rest := List.append_cons ..
    rw [insertMember_of_lt hlast, happend]
    exact ih (happend ▸ h) hrest

mutual

/-- A canonical form is its own canonical form. -/
theorem canonical_of_canonical? : ∀ {j v : Json}, j.canonical? = some v → v.Canonical
  | null, v, h | bool _, v, h | int _, v, h | float _, v, h | string _, v, h => by
    cases h
    rfl
  | array items, v, h => by
    obtain ⟨vs, hvs, rfl⟩ := canonical?_array_eq_some.mp h
    exact canonical?_array_eq_some.mpr ⟨vs, canonicalAll_of_canonicalAll? hvs, rfl⟩
  | object members, v, h => by
    obtain ⟨ms, hms, rfl⟩ := canonical?_object_eq_some.mp h
    obtain ⟨hascending, hcanonical⟩ :=
      canonicalMembers_of_canonicalMembers? .nil (by simp) hms
    exact canonical?_object_eq_some.mpr
      ⟨ms, canonicalMembers?_of_ascending hascending hcanonical, rfl⟩
  | unreadable, v, h => by cases h

theorem canonicalAll_of_canonicalAll? : ∀ {js vs : List Json},
    canonicalAll? js = some vs → canonicalAll? vs = some vs
  | [], vs, h => by
    cases h
    rfl
  | j :: js, vs, h => by
    obtain ⟨v, vs, hv, hvs, rfl⟩ :=
      List.forall₂_cons_left_iff.mp (canonicalAll?_eq_some.mp h)
    have hrest := canonicalAll_of_canonicalAll? (canonicalAll?_eq_some.mpr hvs)
    exact canonicalAll?_eq_some.mpr
      (.cons (canonical_of_canonical? hv) (canonicalAll?_eq_some.mp hrest))

/-- Members in order stay in order, and their values canonical. -/
theorem canonicalMembers_of_canonicalMembers? : ∀ {done members result : List (String × Json)},
    Ascending done → (∀ m ∈ done, m.2.Canonical) → canonicalMembers? done members = some result →
      Ascending result ∧ ∀ m ∈ result, m.2.Canonical
  | done, [], result, hdone, hvalues, h => by
    cases h
    exact ⟨hdone, hvalues⟩
  | done, (key, j) :: rest, result, hdone, hvalues, h => by
    obtain ⟨v, hv, h⟩ := canonicalMembers?_cons_eq_some.mp h
    apply canonicalMembers_of_canonicalMembers? (ascending_insertMember hdone) ?_ h
    intro m hm
    rcases mem_insertMember hm with rfl | hm
    · exact canonical_of_canonical? hv
    · exact hvalues m hm

end

end SqlSelect.Json
