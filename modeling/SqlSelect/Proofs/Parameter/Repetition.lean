import SqlSelect.Proofs.Parameter.Account
import SqlSelect.Proofs.Parameter.Call

/-! What was bound is found again. A rendering that has succeeded once gives the same on every later
table, and binds nothing new there. -/
namespace SqlSelect

namespace ParameterTable

variable {t u w : ParameterTable} {name : String}

theorem Extends.names (h : u.Extends t) : t.names ⊆ u.names :=
  List.map_subset _ h.parameters

theorem Extends.trans (h : w.Extends u) (h' : u.Extends t) : w.Extends t where
  parameters := List.Subset.trans h'.parameters h.parameters
  literals := List.Subset.trans h'.literals h.literals
  isGenerated name hname hg :=
    h.isGenerated name (h'.names hname) (h'.isGenerated name hname hg)

/-- No name that is there becomes a literal's. -/
theorem Step.extends (ht : t.Placed) (h : Step t u) : u.Extends t := by
  cases h with
  | appended p hname => exact extends_append ht p
  | generated kind value hnew =>
    exact extends_generated ht (t.newLiteral_name_not_mem kind value) rfl rfl

theorem Consistent.extends_of_binds (h : t.Consistent) (hb : Binds t u) : u.Extends t := by
  rcases hb.eq_or_step with rfl | hstep
  · exact .refl u
  · exact hstep.extends h.placed

/-- What counts as the parameter of a literal counts as that later. -/
theorem Consistent.extends_of_reaches (h : t.Consistent) (hr : Reaches t u) : u.Extends t := by
  induction hr with
  | refl => exact .refl t
  | tail hr hb ih => exact ((h.reaches hr).extends_of_binds hb).trans ih

theorem Consistent.extends_after (h : t.Consistent) (call : TableCall) :
    (call.after t).Extends t := by
  -- A parameter that is added outright may have the name that a literal would be given next.
  by_cases hadd : ∃ p, call = .add p
  · obtain ⟨p, rfl⟩ := hadd
    rcases eq_or_step_add t p with hsame | hstep
    · rw [TableCall.after_add, hsame]
      exact .refl t
    · exact hstep.extends h.placed
  · push Not at hadd
    exact h.extends_of_reaches (TableCall.reaches_after hadd t)

theorem Consistent.extends_run (h : t.Consistent) (calls : List TableCall) :
    (t.run calls).Extends t := by
  have hboth : (t.run calls).Consistent ∧ (t.run calls).Extends t := by
    apply run_induction (I := fun u => u.Consistent ∧ u.Extends t) ⟨h, .refl t⟩
    intro u call hu
    exact ⟨call.consistent_after hu.1, (hu.1.extends_after call).trans hu.2⟩
  exact hboth.2

/-- After an addition the name is there, whoever has it. -/
theorem mem_names_add (t : ParameterTable) (p : Parameter) : p.name ∈ (t.add p).1.names := by
  rw [add_fst]
  split
  · next hname => exact hname
  · rw [names_of_append (t := t) (p := p) rfl]
    exact List.mem_append_right _ (List.mem_singleton_self _)

theorem isGenerated_add (ht : t.Placed) (p : Parameter) (name : String) :
    (t.add p).1.isGenerated name = t.isGenerated name := by
  rw [add_fst]
  split
  · rfl
  · rw [isGenerated, literals, literals_append ht]
    rfl

/-- The variable's name is taken, and not by a literal. -/
theorem bindCaptured_again {v : Variable} (ht : t.Placed) (hb : t.bindCaptured v = (.ok name, u))
    (hext : w.Extends u) : w.bindCaptured v = (.ok name, w) := by
  obtain ⟨hid, kind, value, hclass, hg, rfl, rfl⟩ := bindCaptured_eq_ok.mp hb
  have hname := t.mem_names_add ⟨variablePrefix ++ v.name, value, kind⟩
  have hg' := isGenerated_add ht ⟨variablePrefix ++ v.name, value, kind⟩ (variablePrefix ++ v.name)
  rw [hg] at hg'
  apply bindCaptured_eq_ok.mpr
  refine ⟨hid, kind, value, hclass, hext.isGenerated _ hname hg', rfl, ?_⟩
  rw [add_fst, if_pos (hext.names hname)]

/-- The literal's parameter is found, and no other one is equal to it. -/
theorem bindLiteral_again {v : Value} (ht : t.Placed) (hb : t.bindLiteral v = (.ok name, u))
    (hw : w.Consistent) (hext : w.Extends u) : w.bindLiteral v = (.ok name, w) := by
  obtain ⟨kind, value, hclass, hcases⟩ := bindLiteral_eq_ok hb
  -- Found or new, the parameter was among the literals, and the later table has them all.
  have hmem : ⟨name, value, kind⟩ ∈ u.literals := by
    rcases hcases with ⟨hmem, rfl⟩ | ⟨-, -, hp, hg⟩
    · exact hmem
    · rw [literals_of_generated ht hp hg]
      exact List.mem_append_right _ (List.mem_singleton_self _)
  have hlater : ⟨name, value, kind⟩ ∈ w.literals := hext.literals hmem
  cases hr : w.reusable? kind value with
  | none =>
    have hother := List.find?_eq_none.mp hr _ hlater
    simp at hother
  | some p =>
    obtain ⟨hbind, hp, hpmem⟩ := bindLiteral_of_reusable hclass hr
    rw [hp] at hpmem
    have hname : p.name = name := (hw.name_eq_iff hpmem hlater).mpr ⟨rfl, rfl⟩
    rw [hbind, hname]

end ParameterTable

namespace Rendering

open ParameterTable

variable {α β : Type} {P : Fault → Prop}

-- Once it has succeeded, it gives the same on every later table and leaves that as it is.
def Repeats (m : Rendering α) : Prop :=
  ∀ t a u, t.Consistent → Yields m t a u →
    ∀ w, w.Consistent → w.Extends u → Yields m w a w

/-- A rendering that succeeded once gives the same text again and binds nothing more. -/
theorem Composed.repeats {m : Rendering α} (h : Composed P m) : m.Repeats := by
  induction h with
  | pure a =>
    intro t b u _ hy w _ _
    obtain ⟨rfl, -⟩ := (yields_pure _ _ _ _).mp hy
    exact (yields_pure _ _ _ _).mpr ⟨rfl, rfl⟩
  | throw hf =>
    intro t b u _ hy
    exact absurd hy (yields_throw _ _ _ _)
  | @bind _ _ m k hm hk ihm ihk =>
    intro t b u ht hy w hw hext
    obtain ⟨a, v, hfirst, hrest⟩ := (yields_bind _ _ _ _ _).mp hy
    -- The table between the two parts is consistent, and the last one extends it.
    have hv : v.Consistent := by
      have hreach := reaches_of_composed hm t
      rw [hfirst] at hreach
      exact ht.reaches hreach
    have hu : u.Extends v := by
      have hreach := reaches_of_composed (hk a) v
      rw [hrest] at hreach
      exact hv.extends_of_reaches hreach
    have hfirst' : Yields m w a w := ihm t a v ht hfirst w hw (hext.trans hu)
    have hrest' : Yields (k a) w b w := ihk a v b u hv hrest w hw hext
    exact (yields_bind _ _ _ _ _).mpr ⟨a, w, hfirst', hrest'⟩
  | captured v hv =>
    intro t name u ht hy w _ hext
    exact (yields_step _ _ _ _).mpr
      (bindCaptured_again ht.placed ((yields_step _ _ _ _).mp hy) hext)
  | literal v hv =>
    intro t name u ht hy w hw hext
    exact (yields_step _ _ _ _).mpr
      (bindLiteral_again ht.placed ((yields_step _ _ _ _).mp hy) hw hext)

end Rendering

open Rendering ParameterTable

/-- A filter that is compiled once more has the same lines and leaves the parameters as they are,
whether this is done at once or after other calls. -/
theorem Predicate.compile_again (calls : List TableCall) (s : Scope) (p : Predicate)
    (lines : List WhereLine) (u : ParameterTable)
    (h : Yields (p.compile s) (run {} calls) lines u) :
    Yields (p.compile s) u lines u ∧
      ∀ later, Yields (p.compile s) (u.run later) lines (u.run later) := by
  have ht : (run {} calls).Consistent := consistent_empty.run calls
  have hu : u.Consistent := by
    have hreach := reaches_of_composed (p.composed_compile (s := s)) (run {} calls)
    rw [h] at hreach
    exact ht.reaches hreach
  have hagain := (p.composed_compile (s := s)).repeats (run {} calls) lines u ht h
  refine ⟨hagain u hu (.refl u), ?_⟩
  intro later
  exact hagain (u.run later) (hu.run later) (hu.extends_run later)

namespace Demo

open Condition Operand

-- A text that a literal has already, a variable that is used twice, and a new date.
def annOrAfter : Predicate :=
  .or
    (.condition (compare (literal (.text "Ann")) .eq (captured ⟨"who", .text "Zoe"⟩)))
    (.condition (compare (dateParts 2001 3 1) .lt (captured ⟨"who", .text "Zoe"⟩)))

def annOrAfterLines : List WhereLine :=
  [.condition 1 none "@param_value_1 = @param_who",
   .condition 1 (some .or) "@param_date_3 < @param_who"]

end Demo

theorem Predicate.compile_again_annOrAfter :
    ∃ u, Yields (Demo.annOrAfter.compile ⟨{}, Resolver.declared, {}⟩) (run {} Demo.crowdedNames)
        Demo.annOrAfterLines u ∧
      u.names = (run {} Demo.crowdedNames).names ++ ["@param_who", "@param_date_3"] ∧
      ∀ later, Yields (Demo.annOrAfter.compile ⟨{}, Resolver.declared, {}⟩) (u.run later)
        Demo.annOrAfterLines (u.run later) := by
  have hfirst : Yields (Demo.annOrAfter.compile ⟨{}, Resolver.declared, {}⟩)
      (run {} Demo.crowdedNames) Demo.annOrAfterLines _ := rfl
  obtain ⟨-, hlater⟩ := compile_again Demo.crowdedNames _ _ _ _ hfirst
  exact ⟨_, hfirst, by decide +kernel, hlater⟩

end SqlSelect
