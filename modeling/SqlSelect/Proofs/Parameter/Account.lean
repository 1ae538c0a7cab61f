import SqlSelect.Proofs.Lists
import SqlSelect.Proofs.Parameter.Binding

/-! The references to parameters that have been made so far account for the whole table: its names
are theirs, in the order of first use, and each of them has the value that it was made for. -/
namespace SqlSelect

inductive Source where
  | captured (v : Variable)
  | literal (v : Value)

structure Reference where
  source : Source
  name : String

def Source.captured? : Source → Option Variable
  | captured v => some v
  | literal _ => none

def capturedBy (refs : List Reference) : List Variable :=
  refs.filterMap (·.source.captured?)

@[simp] theorem capturedBy_append (refs refs' : List Reference) :
    capturedBy (refs ++ refs') = capturedBy refs ++ capturedBy refs' :=
  List.filterMap_append

theorem mem_capturedBy {refs : List Reference} {v : Variable} :
    v ∈ capturedBy refs ↔ ∃ name, ⟨.captured v, name⟩ ∈ refs := by
  constructor
  · intro h
    obtain ⟨⟨source, name⟩, hr, hs⟩ := List.mem_filterMap.mp h
    cases source <;> cases hs
    exact ⟨name, hr⟩
  · rintro ⟨name, hr⟩
    exact List.mem_filterMap.mpr ⟨_, hr, rfl⟩

namespace ParameterTable

-- The name is the variable's and no literal's; it has the value of the first variable so named.
def HoldsCaptured (t : ParameterTable) (refs : List Reference) (v : Variable) (name : String) :
    Prop :=
  name = variablePrefix ++ v.name ∧ t.isGenerated name = false ∧
    ∃ w kind value, (capturedBy refs).find? (·.name == v.name) = some w ∧
      w.value.classify = .ok (kind, value) ∧ ⟨name, value, kind⟩ ∈ t.parameters

def HoldsLiteral (t : ParameterTable) (v : Value) (name : String) : Prop :=
  ∃ kind value, v.classify = .ok (kind, value) ∧ ⟨name, value, kind⟩ ∈ t.literals

structure Accounts (t : ParameterTable) (refs : List Reference) : Prop where
  names_eq : t.names = (refs.map (·.name)).eraseDups
  placed : t.Placed
  captured : ∀ v name, ⟨.captured v, name⟩ ∈ refs → t.HoldsCaptured refs v name
  literal : ∀ v name, ⟨.literal v, name⟩ ∈ refs → t.HoldsLiteral v name

-- Whatever is in the first table is also in the second, and counts there as it did.
structure Extends (u t : ParameterTable) : Prop where
  parameters : t.parameters ⊆ u.parameters
  literals : t.literals ⊆ u.literals
  isGenerated : ∀ name ∈ t.names, t.isGenerated name = false → u.isGenerated name = false

theorem Extends.refl (t : ParameterTable) : t.Extends t where
  parameters := List.Subset.refl _
  literals := List.Subset.refl _
  isGenerated _ _ h := h

variable {t u : ParameterTable} {refs : List Reference} {name : String}

theorem accounts_empty : Accounts {} [] where
  names_eq := rfl
  placed := by simp [Placed]
  captured := by simp
  literal := by simp

/-- The names of a table are those that are referred to. -/
theorem Accounts.mem_names_iff (h : t.Accounts refs) :
    name ∈ t.names ↔ ∃ r ∈ refs, r.name = name := by
  simp [h.names_eq]

theorem Accounts.nodup_names (h : t.Accounts refs) : t.names.Nodup :=
  h.names_eq ▸ nodup_eraseDups _

/-- A name has one parameter. -/
theorem Accounts.filter_name (h : t.Accounts refs) {p : Parameter} (hp : p ∈ t.parameters) :
    t.parameters.filter (·.name == p.name) = [p] := by
  obtain ⟨before, after, hsplit⟩ := List.append_of_mem hp
  have hnodup := h.nodup_names
  rw [names, hsplit, List.map_append, List.map_cons, List.nodup_middle, List.nodup_cons] at hnodup
  have hother : ∀ p' ∈ before ++ after, p'.name ≠ p.name := by
    intro p' hp' hname
    apply hnodup.1
    rw [← List.map_append, ← hname]
    exact List.mem_map_of_mem hp'
  have hbefore : before.filter (·.name == p.name) = [] :=
    List.filter_eq_nil_iff.mpr fun p' hp' => by simpa using hother p' (List.mem_append_left _ hp')
  have hafter : after.filter (·.name == p.name) = [] :=
    List.filter_eq_nil_iff.mpr fun p' hp' => by simpa using hother p' (List.mem_append_right _ hp')
  rw [hsplit, List.filter_append, List.filter_cons_of_pos (by simp), hbefore, hafter]
  rfl

/-- One more reference, to a parameter of the table. -/
theorem Accounts.concat (h : t.Accounts refs) {r : Reference} (hext : u.Extends t)
    (hnames : u.names = if r.name ∈ t.names then t.names else t.names ++ [r.name])
    (hplaced : u.Placed)
    (hcaptured : ∀ v, r.source = .captured v → u.HoldsCaptured (refs ++ [r]) v r.name)
    (hliteral : ∀ v, r.source = .literal v → u.HoldsLiteral v r.name) :
    u.Accounts (refs ++ [r]) where
  names_eq := by
    rw [hnames, List.map_append, List.map_singleton, eraseDups_concat, ← h.names_eq]
    simp only [h.mem_names_iff, List.mem_map]
  placed := hplaced
  captured v name hr := by
    rcases List.mem_append.mp hr with hr | hr
    · obtain ⟨hname, hg, w, kind, value, hw, hclass, hmem⟩ := h.captured v name hr
      have ht : name ∈ t.names := h.mem_names_iff.mpr ⟨_, hr, rfl⟩
      refine ⟨hname, hext.isGenerated name ht hg, w, kind, value, ?_, hclass, hext.parameters hmem⟩
      rw [capturedBy_append, List.find?_append, hw, Option.some_or]
    · obtain rfl := List.mem_singleton.mp hr
      exact hcaptured v rfl
  literal v name hr := by
    rcases List.mem_append.mp hr with hr | hr
    · obtain ⟨kind, value, hclass, hmem⟩ := h.literal v name hr
      exact ⟨kind, value, hclass, hext.literals hmem⟩
    · obtain rfl := List.mem_singleton.mp hr
      exact hliteral v rfl

/-- A new parameter that is not for a literal. -/
theorem extends_append (ht : t.Placed) (p : Parameter) :
    Extends { t with parameters := t.parameters ++ [p] } t := by
  have hliterals : literals { t with parameters := t.parameters ++ [p] } = t.literals :=
    literals_append ht [p]
  refine ⟨List.subset_append_left _ _, hliterals ▸ List.Subset.refl _, ?_⟩
  intro name _ hg
  rwa [isGenerated, hliterals]

/-- A new parameter for a literal, under a new name. -/
theorem extends_generated (ht : t.Placed) {p : Parameter} (hfresh : p.name ∉ t.names)
    (hp : u.parameters = t.parameters ++ [p]) (hg : u.generated = t.generated ++ [t.size]) :
    u.Extends t := by
  have hliterals := literals_of_generated ht hp hg
  refine ⟨hp ▸ List.subset_append_left _ _, hliterals ▸ List.subset_append_left _ _, ?_⟩
  intro name hname hold
  have hne : p.name ≠ name := by
    rintro rfl
    exact hfresh hname
  simpa [isGenerated, hliterals, hne] using hold

/-- A name that is not a literal's and not new is that of a variable before. -/
theorem Accounts.exists_captured (h : t.Accounts refs) (hname : name ∈ t.names)
    (hg : t.isGenerated name = false) : ∃ v, ⟨.captured v, name⟩ ∈ refs := by
  obtain ⟨⟨source, name⟩, hr, rfl⟩ := h.mem_names_iff.mp hname
  cases source with
  | captured v => exact ⟨v, hr⟩
  | literal v =>
    obtain ⟨kind, value, -, hmem⟩ := h.literal v name hr
    have hg' : t.isGenerated name = true := (isGenerated_iff t name).mpr ⟨_, hmem, rfl⟩
    rw [hg] at hg'
    cases hg'

/-- Binding a variable. -/
theorem Accounts.bindCaptured {v : Variable} (h : t.Accounts refs)
    (hb : t.bindCaptured v = (.ok name, u)) : u.Accounts (refs ++ [⟨.captured v, name⟩]) := by
  obtain ⟨-, kind, value, hclass, hg, rfl, rfl⟩ := bindCaptured_eq_ok.mp hb
  rw [add_fst]
  by_cases hname : variablePrefix ++ v.name ∈ t.names
  · -- An earlier variable has the name, and so the value is that of the first one.
    rw [if_pos hname]
    apply h.concat (Extends.refl t) (if_pos hname).symm h.placed
    · rintro v' ⟨⟩
      refine ⟨rfl, hg, ?_⟩
      obtain ⟨v', hr⟩ := h.exists_captured hname hg
      obtain ⟨hv', -, w, kind', value', hw, hclass', hmem⟩ := h.captured v' _ hr
      have hsame : v.name = v'.name := (String.append_right_inj _).mp hv'
      refine ⟨w, kind', value', ?_, hclass', hmem⟩
      rw [capturedBy_append, List.find?_append, hsame, hw, Option.some_or]
    · rintro v' ⟨⟩
  · -- The variable is the first of its name.
    rw [if_neg hname]
    have hext := extends_append h.placed ⟨variablePrefix ++ v.name, value, kind⟩
    apply h.concat hext
    · rw [if_neg hname]
      exact names_of_append (p := ⟨variablePrefix ++ v.name, value, kind⟩) rfl
    · exact placed_of_append h.placed rfl fun i hi => .inl hi
    · rintro v' ⟨⟩
      have hnone : (capturedBy refs).find? (·.name == v.name) = none := by
        rw [List.find?_eq_none]
        intro w hw hsame
        obtain ⟨name, hr⟩ := mem_capturedBy.mp hw
        obtain ⟨rfl, -⟩ := h.captured w name hr
        rw [← beq_iff_eq.mp hsame] at hname
        exact hname (h.mem_names_iff.mpr ⟨_, hr, rfl⟩)
      refine ⟨rfl, ?_, v, kind, value, ?_, hclass, ?_⟩
      · rwa [isGenerated, literals, literals_append h.placed]
      · rw [capturedBy_append, List.find?_append, hnone, Option.none_or]
        simp [capturedBy, Source.captured?]
      · exact List.mem_append_right _ (List.mem_singleton_self _)
    · rintro v' ⟨⟩

/-- Binding a literal. -/
theorem Accounts.bindLiteral {v : Value} (h : t.Accounts refs)
    (hb : t.bindLiteral v = (.ok name, u)) : u.Accounts (refs ++ [⟨.literal v, name⟩]) := by
  obtain ⟨kind, value, hclass, ⟨hmem, rfl⟩ | ⟨-, hfresh, hp, hg⟩⟩ := bindLiteral_eq_ok hb
  · -- An equal literal was bound before.
    have hname : name ∈ u.names :=
      List.mem_map.mpr ⟨_, mem_parameters_of_mem_literals hmem, rfl⟩
    apply h.concat (Extends.refl u) (if_pos hname).symm h.placed
    · rintro v' ⟨⟩
    · rintro v' ⟨⟩
      exact ⟨kind, value, hclass, hmem⟩
  · apply h.concat (extends_generated h.placed hfresh hp hg)
    · rw [if_neg hfresh]
      exact names_of_append hp
    · exact placed_of_append h.placed hp fun i hi => by simpa [hg] using hi
    · rintro v' ⟨⟩
    · rintro v' ⟨⟩
      refine ⟨kind, value, hclass, ?_⟩
      rw [literals_of_generated h.placed hp hg]
      exact List.mem_append_right _ (List.mem_singleton_self _)

end ParameterTable

end SqlSelect
