import SqlSelect.Proofs.Agreement
import SqlSelect.Proofs.Lists
import SqlSelect.Proofs.Marking.Text

/-! Parameter tables that are alike but for the values in them: the names and kinds are the same,
and literals share parameters in the one where they do in the other. -/
namespace SqlSelect

inductive Value.SameForm : Value → Value → Prop
  | char (c c' : Char) : SameForm (.char c) (.char c')
  | text (s s' : String) : SameForm (.text s) (.text s')
  | date (d d' : Date) : SameForm (.date d) (.date d')

-- Which literal of one query stands where which one of another does. Two of them are the same as
-- parameters in the one query exactly if they are in the other.
structure LiteralPairing where
  Pairs : Value → Value → Prop
  sameForm : ∀ {v w : Value}, Pairs v w → v.SameForm w
  classify_eq_iff : ∀ {v w v' w' : Value}, Pairs v w → Pairs v' w' →
    (v.classify = v'.classify ↔ w.classify = w'.classify)

def Value.Bindable (v : Value) : Prop :=
  ∃ p, v.classify = .ok p

-- The same variable, with the same value or with one of the same kind that can be bound too.
inductive Variable.Alike : Variable → Variable → Prop
  | same (v : Variable) : Alike v v
  | bound (name : String) {v w : Value} (hkind : v.kind = w.kind) (hv : v.Bindable)
      (hw : w.Bindable) : Alike ⟨name, v⟩ ⟨name, w⟩

/-- Literals of one form are classified alike, but for their texts. -/
theorem Value.SameForm.classify {v w : Value} (h : v.SameForm w) :
    ∃ kind text text', v.classify = .ok (kind, text) ∧ w.classify = .ok (kind, text') := by
  cases h <;> exact ⟨_, _, _, rfl, rfl⟩

def ValueKind.parameterKind? : ValueKind → Option ParameterKind
  | int => some .bigint
  | float => some .decimal
  | char => some .nchar
  | text => some .nvarchar
  | date => some .datetime
  | _ => none

/-- The kind of a value decides the type of its parameter. -/
theorem Value.parameterKind?_of_classify {v : Value} {kind : ParameterKind} {text : String}
    (h : v.classify = .ok (kind, text)) : v.kind.parameterKind? = some kind := by
  cases v with
  | float x =>
    obtain ⟨_, -, heq⟩ := Except.map_eq_ok.mp h
    cases heq
    rfl
  | _ =>
    cases h
    try rfl

theorem Variable.Alike.name_eq {v w : Variable} (h : v.Alike w) : v.name = w.name := by
  cases h <;> rfl

theorem Variable.Alike.kind_eq {v w : Variable} (h : v.Alike w) : v.value.kind = w.value.kind := by
  cases h with
  | same => rfl
  | bound _ hkind => exact hkind

/-- Variables that are alike have the same type of parameter, or both none. -/
theorem Variable.Alike.classify {v w : Variable} (h : v.Alike w) :
    Except.Agree (fun p p' => p.1 = p'.1) v.value.classify w.value.classify := by
  cases h with
  | same v =>
    cases v.value.classify with
    | ok p => exact .ok rfl
    | error f => exact .error f f
  | bound name hkind hv hw =>
    obtain ⟨⟨kind, text⟩, hclass⟩ := hv
    obtain ⟨⟨kind', text'⟩, hclass'⟩ := hw
    rw [hclass, hclass']
    apply Except.Agree.ok
    apply Option.some.inj
    rw [← Value.parameterKind?_of_classify hclass, ← Value.parameterKind?_of_classify hclass']
    exact congrArg _ hkind

namespace ParameterTable

variable {L : LiteralPairing} {t u : ParameterTable}

def StandsFor (L : LiteralPairing) (p p' : Parameter) : Prop :=
  p.name = p'.name ∧ ∃ v v', L.Pairs v v' ∧ v.classify = .ok (p.kind, p.value) ∧
    v'.classify = .ok (p'.kind, p'.value)

structure Alike (L : LiteralPairing) (t u : ParameterTable) : Prop where
  entries : List.Forall₂ (fun p p' => p.name = p'.name ∧ p.kind = p'.kind) t.parameters u.parameters
  literals : List.Forall₂ (StandsFor L) t.literals u.literals
  placed : t.Placed
  generated_eq : t.generated = u.generated
  valueCounter_eq : t.valueCounter = u.valueCounter
  dateCounter_eq : t.dateCounter = u.dateCounter

theorem alike_empty : Alike L {} {} where
  entries := .nil
  literals := .nil
  placed := by simp [Placed]
  generated_eq := rfl
  valueCounter_eq := rfl
  dateCounter_eq := rfl

theorem Alike.names_eq (h : Alike L t u) : t.names = u.names :=
  map_eq_of_forall₂ h.entries fun _ _ hp => hp.1

theorem Alike.size_eq (h : Alike L t u) : t.size = u.size :=
  h.entries.length_eq

theorem Alike.placed' (h : Alike L t u) : u.Placed := by
  intro i hi
  rw [← h.size_eq]
  exact h.placed i (h.generated_eq ▸ hi)

/-- A name is that of a literal in both tables or in neither. -/
theorem Alike.isGenerated_eq (h : Alike L t u) (name : String) :
    t.isGenerated name = u.isGenerated name := by
  have hnames : t.literals.map (·.name) = u.literals.map (·.name) :=
    map_eq_of_forall₂ h.literals fun _ _ hp => hp.1
  have hany (v : ParameterTable) :
      v.isGenerated name = (v.literals.map (·.name)).any (· == name) := by
    rw [isGenerated, List.any_map]
    rfl
  rw [hany, hany, hnames]

theorem Alike.isSome_find? (h : Alike L t u) (name : String) :
    (t.find? name).isSome = (u.find? name).isSome := by
  rw [Bool.eq_iff_iff, find?_isSome_iff, find?_isSome_iff, h.names_eq]

/-- The next literal gets the same number in both tables. -/
theorem Alike.freshNumber_eq (h : Alike L t u) (date : Bool) :
    t.freshNumber date = u.freshNumber date := by
  have hcounter : t.counter date = u.counter date := by
    rw [counter, counter, h.valueCounter_eq, h.dateCounter_eq]
  simp only [freshNumber, h.isSome_find?, h.size_eq, hcounter]

/-- Of two lists of entries that stand for each other, an entry of a value and one of its partner
are found at the same place. -/
theorem find?_of_standsFor {ps ps' : List Parameter} (h : List.Forall₂ (StandsFor L) ps ps')
    {v v' : Value} (hv : L.Pairs v v') {kind kind' : ParameterKind} {text text' : String}
    (hclass : v.classify = .ok (kind, text)) (hclass' : v'.classify = .ok (kind', text')) :
    (ps.find? fun p => p.kind == kind && p.value == text).map (·.name) =
      (ps'.find? fun p => p.kind == kind' && p.value == text').map (·.name) := by
  induction h with
  | nil => rfl
  | @cons p p' ps ps' hp _ ih =>
    obtain ⟨hname, w, w', hw, hwclass, hwclass'⟩ := hp
    have hsame : (p.kind = kind ∧ p.value = text) ↔ (p'.kind = kind' ∧ p'.value = text') := by
      have hiff := L.classify_eq_iff hw hv
      rw [hwclass, hwclass', hclass, hclass'] at hiff
      simpa using hiff
    have hsame' : (p.kind == kind && p.value == text) =
        (p'.kind == kind' && p'.value == text') := by
      rw [Bool.eq_iff_iff]
      simpa using hsame
    rw [List.find?_cons, List.find?_cons, hsame']
    split
    · rw [Option.map_some, Option.map_some, hname]
    · exact ih

/-- A literal finds an earlier equal one exactly if its partner does, under the same name. -/
theorem Alike.reusable?_eq (h : Alike L t u) {v v' : Value} (hv : L.Pairs v v')
    {kind kind' : ParameterKind} {text text' : String} (hclass : v.classify = .ok (kind, text))
    (hclass' : v'.classify = .ok (kind', text')) :
    (t.reusable? kind text).map (·.name) = (u.reusable? kind' text').map (·.name) :=
  find?_of_standsFor h.literals hv hclass hclass'

/-- One more parameter on both sides, which is not made for a literal. -/
theorem Alike.append (h : Alike L t u) {p p' : Parameter} (hname : p.name = p'.name)
    (hkind : p.kind = p'.kind) :
    Alike L { t with parameters := t.parameters ++ [p] }
      { u with parameters := u.parameters ++ [p'] } where
  entries := List.rel_append h.entries (.cons ⟨hname, hkind⟩ .nil)
  literals := by
    have ht : ParameterTable.literals { t with parameters := t.parameters ++ [p] } = t.literals :=
      literals_append h.placed [p]
    have hu : ParameterTable.literals { u with parameters := u.parameters ++ [p'] } = u.literals :=
      literals_append h.placed' [p']
    rw [ht, hu]
    exact h.literals
  placed := placed_of_append h.placed rfl fun i hi => .inl hi
  generated_eq := h.generated_eq
  valueCounter_eq := h.valueCounter_eq
  dateCounter_eq := h.dateCounter_eq

/-- Parameters of one name and kind are added alike. -/
theorem Alike.add (h : Alike L t u) {p p' : Parameter} (hname : p.name = p'.name)
    (hkind : p.kind = p'.kind) : Alike L (t.add p).1 (u.add p').1 := by
  rw [add_fst, add_fst, hname, h.names_eq]
  split
  · exact h
  · exact h.append hname hkind

/-- A new parameter on both sides for a literal and its partner. -/
theorem Alike.generated (h : Alike L t u) {v v' : Value} (hv : L.Pairs v v') {kind : ParameterKind}
    {name text text' : String} (hclass : v.classify = .ok (kind, text))
    (hclass' : v'.classify = .ok (kind, text')) {t' u' : ParameterTable}
    (ht : t'.parameters = t.parameters ++ [⟨name, text, kind⟩])
    (htg : t'.generated = t.generated ++ [t.size])
    (hu : u'.parameters = u.parameters ++ [⟨name, text', kind⟩])
    (hug : u'.generated = u.generated ++ [u.size]) (hvalue : t'.valueCounter = u'.valueCounter)
    (hdate : t'.dateCounter = u'.dateCounter) : Alike L t' u' where
  entries := by
    rw [ht, hu]
    exact List.rel_append h.entries (.cons ⟨rfl, rfl⟩ .nil)
  literals := by
    rw [literals_of_generated h.placed ht htg, literals_of_generated h.placed' hu hug]
    exact List.rel_append h.literals (.cons ⟨rfl, v, v', hv, hclass, hclass'⟩ .nil)
  placed := placed_of_append h.placed ht fun i hi => by simpa [htg] using hi
  generated_eq := by rw [htg, hug, h.generated_eq, h.size_eq]
  valueCounter_eq := hvalue
  dateCounter_eq := hdate

/-- Variables that are alike are bound alike. -/
theorem Alike.bindCaptured (h : Alike L t u) {v v' : Variable} (hv : v.Alike v') :
    Except.Agree (fun p q => p.1 = q.1 ∧ Alike L p.2 q.2) (finished (t.bindCaptured v))
      (finished (u.bindCaptured v')) := by
  have hclass := hv.classify
  unfold ParameterTable.bindCaptured
  rw [hv.name_eq]
  split
  · exact .error _ _
  · generalize v.value.classify = x, v'.value.classify = y at hclass
    cases hclass with
    | error f f' => exact .error _ _
    | ok hkind =>
      simp only [h.isGenerated_eq]
      split
      · exact .error _ _
      · exact .ok ⟨rfl, h.add rfl hkind⟩

/-- A literal and its partner get parameters of one name: those of earlier literals that are equal
to them, or else new ones. -/
theorem Alike.bindLiteral (h : Alike L t u) {v v' : Value} (hv : L.Pairs v v') :
    Except.Agree (fun p q => p.1 = q.1 ∧ Alike L p.2 q.2) (finished (t.bindLiteral v))
      (finished (u.bindLiteral v')) := by
  obtain ⟨kind, text, text', hclass, hclass'⟩ := (L.sameForm hv).classify
  have hreuse := h.reusable?_eq hv hclass hclass'
  cases ht : t.reusable? kind text with
  | some p =>
    obtain ⟨p', hu, hname⟩ : ∃ p', u.reusable? kind text' = some p' ∧ p'.name = p.name := by
      simpa [ht] using hreuse.symm
    rw [(bindLiteral_of_reusable hclass ht).1, (bindLiteral_of_reusable hclass' hu).1]
    exact .ok ⟨hname.symm, h⟩
  | none =>
    have hu : u.reusable? kind text' = none := by
      simpa [ht] using hreuse.symm
    rw [bindLiteral_of_new hclass ht, bindLiteral_of_new hclass' hu]
    have hname : (t.newLiteral kind text).name = (u.newLiteral kind text').name := by
      simp only [newLiteral, h.freshNumber_eq]
    refine .ok ⟨hname, h.generated hv hclass hclass' rfl rfl ?_ rfl ?_ ?_⟩
    · exact congrArg (fun name => u.parameters ++ [⟨name, text', kind⟩]) hname.symm
    · simp only [withLiteral, h.valueCounter_eq, h.freshNumber_eq]
    · simp only [withLiteral, h.dateCounter_eq, h.freshNumber_eq]

end ParameterTable

end SqlSelect
