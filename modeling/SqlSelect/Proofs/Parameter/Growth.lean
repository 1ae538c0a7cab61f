import Mathlib.Logic.Relation
import Mathlib.Order.Bounds.Defs
import SqlSelect.Proofs.Failing
import SqlSelect.Proofs.Lists
import SqlSelect.Proofs.Parameter.Binding

/-! How a table of parameters grows. What can be done to it puts at most one parameter at its end,
under a new name; from that follows all that holds of every table that can be reached. -/
namespace SqlSelect

namespace ParameterTable

variable {t u w : ParameterTable}

-- A parameter is put at the end: any one of a new name, or that of a literal.
inductive Step (t : ParameterTable) : ParameterTable → Prop
  | appended (p : Parameter) (hname : p.name ∉ t.names) :
      Step t { t with parameters := t.parameters ++ [p] }
  | generated (kind : ParameterKind) (value : String) (hnew : t.reusable? kind value = none) :
      Step t (t.withLiteral kind value)

inductive Binds (t u : ParameterTable) : Prop
  | captured {v : Variable} {name : String} (h : t.bindCaptured v = (.ok name, u))
  | literal {v : Value} {name : String} (h : t.bindLiteral v = (.ok name, u))

theorem eq_or_step_add (t : ParameterTable) (p : Parameter) :
    (t.add p).1 = t ∨ Step t (t.add p).1 := by
  rw [add_fst]
  split
  · exact .inl rfl
  · next hname => exact .inr (.appended p hname)

/-- Binding adds one parameter or none. -/
theorem Binds.eq_or_step (h : Binds t u) : u = t ∨ Step t u := by
  cases h with
  | captured h =>
    obtain ⟨-, kind, value, -, -, -, rfl⟩ := bindCaptured_eq_ok.mp h
    exact eq_or_step_add t _
  | @literal v name h =>
    obtain ⟨kind, value, hv⟩ := exists_classify_of_bindLiteral h
    cases hr : t.reusable? kind value with
    | some p =>
      cases h.symm.trans (bindLiteral_of_reusable hv hr).1
      exact .inl rfl
    | none =>
      cases h.symm.trans (bindLiteral_of_new hv hr)
      exact .inr (.generated kind value hr)

-- Nothing that is in the first table is changed, moved or removed.
structure Grows (t u : ParameterTable) : Prop where
  parameters : t.parameters <+: u.parameters
  generated : t.generated <+: u.generated

theorem Grows.refl (t : ParameterTable) : t.Grows t :=
  ⟨List.prefix_rfl, List.prefix_rfl⟩

theorem Grows.trans (h : t.Grows u) (h' : u.Grows w) : t.Grows w :=
  ⟨h.parameters.trans h'.parameters, h.generated.trans h'.generated⟩

theorem Step.grows (h : Step t u) : t.Grows u := by
  cases h with
  | appended => exact ⟨List.prefix_append _ _, List.prefix_rfl⟩
  | generated => exact ⟨List.prefix_append _ _, List.prefix_append _ _⟩

/-- The parameters of literals stay where they are among themselves, too. -/
theorem Grows.literals (ht : t.Placed) (h : t.Grows u) : t.literals <+: u.literals := by
  obtain ⟨ps, hps⟩ := h.parameters
  obtain ⟨is, his⟩ := h.generated
  refine ⟨is.filterMap (u.parameters[·]?), ?_⟩
  rw [ParameterTable.literals, ParameterTable.literals, ← his, List.filterMap_append, ← hps,
    literals_append ht]
  rfl

structure Consistent (t : ParameterTable) : Prop where
  names : t.names.Nodup
  generated : t.generated.Nodup
  placed : t.Placed
  -- The names of literals tell dates from other values, and have positive numbers.
  named : ∀ p ∈ t.literals, ∃ n, 0 < n ∧ p.name = literalName (p.kind = .datetime) n
  -- Equal literals share a parameter.
  unequal : (t.literals.map fun p => (p.kind, p.value)).Nodup
  -- No number up to the counter is free.
  counted : ∀ date n, 0 < n → n ≤ t.counter date → literalName date n ∈ t.names

theorem consistent_empty : Consistent {} where
  names := List.nodup_nil
  generated := List.nodup_nil
  placed := by simp [Placed]
  named := by simp [literals]
  unequal := List.nodup_nil
  counted date n hn hle := by
    cases date <;> simp [counter] at hle <;> omega

theorem nodup_concat_name (h : t.names.Nodup) {name : String} (hname : name ∉ t.names) :
    (t.names ++ [name]).Nodup := by
  rw [List.nodup_append]
  refine ⟨h, List.nodup_singleton name, ?_⟩
  rintro a ha b hb rfl
  rw [List.mem_singleton.mp hb] at ha
  exact hname ha

theorem consistent_append (h : t.Consistent) {p : Parameter} (hname : p.name ∉ t.names) :
    Consistent { t with parameters := t.parameters ++ [p] } := by
  have hnames : names { t with parameters := t.parameters ++ [p] } = t.names ++ [p.name] :=
    names_of_append rfl
  -- No position of a literal's parameter is that of the new one.
  have hliterals : literals { t with parameters := t.parameters ++ [p] } = t.literals :=
    literals_append h.placed [p]
  refine ⟨?_, h.generated, ?_, ?_, ?_, ?_⟩
  · rw [hnames]
    exact nodup_concat_name h.names hname
  · exact placed_of_append h.placed rfl fun i hi => .inl hi
  · rw [hliterals]
    exact h.named
  · rw [hliterals]
    exact h.unequal
  · intro date n hn hle
    rw [hnames]
    exact List.mem_append_left _ (h.counted date n hn hle)

theorem counter_withLiteral (t : ParameterTable) (kind : ParameterKind) (value : String)
    (date : Bool) : (t.withLiteral kind value).counter date =
      if date = decide (kind = .datetime) then t.freshNumber date else t.counter date := by
  cases date <;> by_cases hkind : kind = .datetime <;> simp [counter, withLiteral, hkind]

theorem lt_freshNumber (t : ParameterTable) (date : Bool) : t.counter date < t.freshNumber date :=
  (t.finds_freshNumber date).first.1

/-- Below the number of a new literal there are the counter's and those that the search passed. -/
theorem Consistent.mem_of_lt_freshNumber (h : t.Consistent) {date : Bool} {n : Nat} (hn : 0 < n)
    (hlt : n < t.freshNumber date) : literalName date n ∈ t.names := by
  by_cases hcounter : n ≤ t.counter date
  · exact h.counted date n hn hcounter
  · obtain ⟨-, -, htaken⟩ := (t.finds_freshNumber date).first
    exact (t.find?_isSome_iff _).mp (htaken n (by omega) hlt)

/-- A new literal keeps the table consistent, since its number is the least one that is free. -/
theorem consistent_withLiteral (h : t.Consistent) {kind : ParameterKind} {value : String}
    (hnew : t.reusable? kind value = none) : (t.withLiteral kind value).Consistent := by
  have hfree := t.newLiteral_name_not_mem kind value
  have hnames : (t.withLiteral kind value).names = t.names ++ [(t.newLiteral kind value).name] :=
    names_of_append rfl
  have hliterals : (t.withLiteral kind value).literals = t.literals ++ [t.newLiteral kind value] :=
    literals_of_generated h.placed rfl rfl
  refine ⟨?_, ?_, ?_, ?_, ?_, ?_⟩
  · rw [hnames]
    exact nodup_concat_name h.names hfree
  · -- The positions so far are those of parameters so far.
    have hlast : t.size ∉ t.generated := fun hmem => Nat.lt_irrefl _ (h.placed _ hmem)
    simpa [withLiteral, List.nodup_append, h.generated] using
      fun i hi => ne_of_mem_of_not_mem hi hlast
  · exact placed_of_append h.placed rfl fun i hi => by simpa [withLiteral] using hi
  · rw [hliterals]
    intro p hp
    rcases List.mem_append.mp hp with hp | hp
    · exact h.named p hp
    · obtain rfl := List.mem_singleton.mp hp
      exact ⟨_, Nat.zero_lt_of_lt (t.lt_freshNumber _), rfl⟩
  · rw [hliterals, List.map_append, List.nodup_append]
    refine ⟨h.unequal, List.nodup_singleton _, ?_⟩
    rintro a ha b hb rfl
    obtain ⟨p, hp, hpa⟩ := List.mem_map.mp ha
    have hother := List.find?_eq_none.mp hnew p hp
    rw [List.mem_singleton.mp hb] at hpa
    cases hpa
    simp at hother
  · intro date n hn hle
    rw [hnames]
    rw [counter_withLiteral] at hle
    -- Only one of the counters moves, past numbers that are taken to one that is taken now.
    split at hle
    · next hdate =>
      rcases Nat.eq_or_lt_of_le hle with rfl | hlt
      · rw [List.mem_append, List.mem_singleton, newLiteral, ← hdate]
        exact .inr rfl
      · exact List.mem_append_left _ (h.mem_of_lt_freshNumber hn hlt)
    · exact List.mem_append_left _ (h.counted date n hn hle)

/-- What is put at the end keeps the table consistent. -/
theorem Consistent.step (h : t.Consistent) (hstep : Step t u) : u.Consistent := by
  cases hstep with
  | appended p hname => exact consistent_append h hname
  | generated kind value hnew => exact consistent_withLiteral h hnew

/-- The number of a new literal is the least one that is free. -/
theorem Consistent.isLeast_freshNumber (h : t.Consistent) (date : Bool) :
    IsLeast {n | 0 < n ∧ literalName date n ∉ t.names} (t.freshNumber date) := by
  refine ⟨⟨Nat.zero_lt_of_lt (t.lt_freshNumber date), t.literalName_freshNumber_not_mem date⟩, ?_⟩
  rintro n ⟨hn, hfree⟩
  by_contra hlt
  exact hfree (h.mem_of_lt_freshNumber hn (by omega))

/-- Literals share a name exactly if they are equal as parameters. -/
theorem Consistent.name_eq_iff (h : t.Consistent) {p q : Parameter} (hp : p ∈ t.literals)
    (hq : q ∈ t.literals) : p.name = q.name ↔ p.kind = q.kind ∧ p.value = q.value := by
  constructor
  · intro hname
    obtain rfl : p = q := List.inj_on_of_nodup_map h.names (mem_parameters_of_mem_literals hp)
      (mem_parameters_of_mem_literals hq) hname
    exact ⟨rfl, rfl⟩
  · rintro ⟨hkind, hvalue⟩
    obtain rfl : p = q := List.inj_on_of_nodup_map h.unequal hp hq (by rw [hkind, hvalue])
    rfl

/-- A parameter is found by its name. -/
theorem Consistent.find?_of_mem (h : t.Consistent) {p : Parameter} (hp : p ∈ t.parameters) :
    t.find? p.name = some p :=
  (find?_name_eq_some h.names).mpr ⟨hp, rfl⟩

/-- A literal is always bound: to the parameter of an equal one, or to a new one, which has the
least number that is free. -/
theorem Consistent.exists_bindLiteral (h : t.Consistent) {v : Value} {kind : ParameterKind}
    {value : String} (hv : v.classify = .ok (kind, value)) :
    ∃ name u, t.bindLiteral v = (.ok name, u) ∧ ⟨name, value, kind⟩ ∈ u.literals ∧
      ((⟨name, value, kind⟩ ∈ t.literals ∧ u = t) ∨
        ∃ n, name = literalName (kind = .datetime) n ∧
          u.parameters = t.parameters ++ [⟨name, value, kind⟩] ∧
          Finds (fun n => (t.find? (literalName (kind = .datetime) n)).isSome)
            (t.counter (kind = .datetime) + 1) n ∧
          IsLeast {n | 0 < n ∧ literalName (kind = .datetime) n ∉ t.names} n) := by
  cases hr : t.reusable? kind value with
  | some p =>
    obtain ⟨hbind, hp, hmem⟩ := bindLiteral_of_reusable hv hr
    rw [hp] at hmem
    exact ⟨p.name, t, hbind, hmem, .inl ⟨hmem, rfl⟩⟩
  | none =>
    have hliterals : (t.withLiteral kind value).literals =
        t.literals ++ [t.newLiteral kind value] := literals_of_generated h.placed rfl rfl
    refine ⟨_, _, bindLiteral_of_new hv hr, ?_, .inr ⟨_, rfl, rfl, ?_, ?_⟩⟩
    · rw [hliterals]
      exact List.mem_append_right _ (List.mem_singleton_self _)
    · exact t.finds_freshNumber _
    · exact h.isLeast_freshNumber _

abbrev Reaches : ParameterTable → ParameterTable → Prop :=
  Relation.ReflTransGen Binds

/-- A rendering does nothing to its table but bind variables and literals. -/
theorem reaches_of_composed {α : Type} {P : Fault → Prop} {m : Rendering α}
    (h : Rendering.Composed P m) (t : ParameterTable) : Reaches t (m.run t).2 := by
  induction h generalizing t with
  | pure => exact .refl
  | throw => exact .refl
  | @bind _ _ m k _ _ hm hk =>
    rw [Rendering.run_bind]
    -- A fault keeps the table that the first part leaves.
    have hfirst := hm t
    cases hrun : m.run t with
    | mk result u =>
      rw [hrun] at hfirst
      cases result with
      | error f => exact hfirst
      | ok a => exact hfirst.trans (hk a u)
  | captured v =>
    rw [Rendering.run_step]
    cases hv : (t.bindCaptured v).1 with
    | error f => rw [bindCaptured_snd_of_error hv]
    | ok name => exact .single (.captured (Prod.ext hv rfl))
  | literal v =>
    rw [Rendering.run_step]
    cases hv : (t.bindLiteral v).1 with
    | error f => rw [(bindLiteral_of_error hv).2]
    | ok name => exact .single (.literal (Prod.ext hv rfl))

theorem Consistent.binds (h : t.Consistent) (hb : Binds t u) : u.Consistent := by
  rcases hb.eq_or_step with rfl | hstep
  · exact h
  · exact h.step hstep

theorem Binds.grows (h : Binds t u) : t.Grows u := by
  rcases h.eq_or_step with rfl | hstep
  · exact .refl u
  · exact hstep.grows

theorem Consistent.reaches (h : t.Consistent) (hr : Reaches t u) : u.Consistent := by
  induction hr with
  | refl => exact h
  | tail _ hb ih => exact ih.binds hb

/-- What is there stays there in every table that is reached. -/
theorem Reaches.grows (h : Reaches t u) : t.Grows u := by
  induction h with
  | refl => exact .refl t
  | tail _ hb ih => exact ih.trans hb.grows

end ParameterTable

end SqlSelect
