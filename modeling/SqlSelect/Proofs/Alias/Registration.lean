import SqlSelect.Proofs.Alias.Registry
import SqlSelect.Schema.Demo

/-! Registrations one after the other, be they successful or not: which of them succeed, and what
they leave as it was. -/
namespace SqlSelect

/-- Entities are told apart by their names alone. -/
theorem Entity.same_iff {e e' : Entity} : e.same e' = true ↔ e.name = e'.name := beq_iff_eq

namespace AliasRegistry

def after (r : AliasRegistry) (call : Entity × String) : AliasRegistry :=
  (r.register call.1 call.2).2

def attempts (r : AliasRegistry) (calls : List (Entity × String)) : AliasRegistry :=
  calls.foldl after r

variable {r r' : AliasRegistry} {e e' : Entity} {name : String}

/-- What each registration that succeeds keeps up holds after any calls. -/
theorem attempts_induction {I : AliasRegistry → Prop} (start : I r)
    (step : ∀ r r' e name, I r → r.register e name = (.ok (), r') → I r')
    (calls : List (Entity × String)) : I (r.attempts calls) := by
  -- The first call leads to another registry, so the start has to vary.
  induction calls generalizing r with
  | nil => exact start
  | cons call calls ih =>
    have hafter : I (r.after call) := by
      unfold after
      cases hr : (r.register call.1 call.2).1 with
      | ok => exact step r _ call.1 call.2 start (Prod.ext hr rfl)
      | error f =>
        rw [register_snd_of_error hr]
        exact start
    exact ih hafter

/-- No attempt breaks what registrations keep up. -/
theorem Consistent.attempts (h : r.Consistent) (calls : List (Entity × String)) :
    (r.attempts calls).Consistent :=
  attempts_induction h (fun _ _ _ _ hr hregister => hr.register hregister) calls

/-- Attempts only add bindings, behind those that are there. -/
theorem exists_append_attempts (r : AliasRegistry) (calls : List (Entity × String)) :
    ∃ bs, (r.attempts calls).bindings = r.bindings ++ bs :=
  attempts_induction (I := fun r' => ∃ bs, r'.bindings = r.bindings ++ bs)
    ⟨[], (List.append_nil _).symm⟩ (fun _ _ _ _ hr hregister => exists_append_register hr hregister)
    calls

/-- A free identifier can become an alias, and an alias of an entity can do so again. -/
theorem exists_register_iff :
    (∃ r', r.register e name = (.ok (), r')) ↔ Text.isIdentifier name.toList = true ∧
      (name ∉ r.bindings.map (·.name) ∨ ∃ e', r.entityFor name = .ok e' ∧ e'.same e = true) := by
  constructor
  · rintro ⟨r', hr⟩
    obtain ⟨hname, ⟨b, hb, hsame, -⟩ | ⟨hnone, -⟩⟩ := register_eq_ok.mp hr
    · exact ⟨hname, .inr ⟨b.entity, entityFor_eq_ok.mpr ⟨b, hb, rfl⟩, hsame⟩⟩
    · exact ⟨hname, .inl (find?_eq_none.mp hnone)⟩
  · rintro ⟨hname, hfree | ⟨e', he', hsame⟩⟩
    · exact ⟨_, register_eq_ok.mpr ⟨hname, .inr ⟨find?_eq_none.mpr hfree, rfl⟩⟩⟩
    · obtain ⟨b, hb, rfl⟩ := entityFor_eq_ok.mp he'
      exact ⟨r, register_eq_ok.mpr ⟨hname, .inl ⟨b, hb, hsame, rfl⟩⟩⟩

/-- An alias that stands for the entity can be registered again, to no effect. -/
theorem register_of_entityFor (hname : Text.isIdentifier name.toList = true)
    (h : r.entityFor name = .ok e') (hsame : e'.same e = true) :
    r.register e name = (.ok (), r) := by
  obtain ⟨b, hb, rfl⟩ := entityFor_eq_ok.mp h
  exact register_eq_ok.mpr ⟨hname, .inl ⟨b, hb, hsame, rfl⟩⟩

/-- The alias then stands for an entity of that name. -/
theorem Consistent.exists_entityFor_of_register (h : r.Consistent)
    (hr : r.register e name = (.ok (), r')) :
    ∃ e', r'.entityFor name = .ok e' ∧ e'.same e = true := by
  have h' := h.register hr
  -- The alias was taken by an entity of this name already, or the call has added it.
  obtain ⟨-, ⟨b, hb, hsame, rfl⟩ | ⟨-, rfl⟩⟩ := register_eq_ok.mp hr
  · exact ⟨b.entity, entityFor_eq_ok.mpr ⟨b, hb, rfl⟩, hsame⟩
  · have hnew := h'.entityFor_name (List.mem_append_right r.bindings (List.mem_singleton_self _))
    exact ⟨e, hnew, beq_self_eq_true e.name⟩

/-- The first alias of an entity stands for an entity of its name. -/
theorem Consistent.entityFor_of_aliasFor (h : r.Consistent) (ha : r.aliasFor e = .ok name) :
    ∃ e', r.entityFor name = .ok e' ∧ e'.same e = true := by
  obtain ⟨b, hb, rfl⟩ := aliasFor_eq_ok.mp ha
  have hsame := List.find?_some hb
  exact ⟨b.entity, h.entityFor_name (List.mem_of_find?_eq_some hb), hsame⟩

end AliasRegistry

namespace Demo

-- An entity gets a second alias, and two calls fail: an alias is taken, and a text is none.
def crossedAliases : List (Entity × String) :=
  [(student, "s"), (classRoom, "s"), (student, "t"), (teacher, "1x"), (student, "s")]

end Demo

namespace AliasRegistry

-- What a registry promises to those who look things up in it, now and after further calls.
structure Stable (r : AliasRegistry) : Prop where
  -- An alias is an identifier. It is free, or stands for an entity of the same name already.
  exists_register_iff : ∀ e name, (∃ r', r.register e name = (.ok (), r')) ↔
    Text.isIdentifier name.toList = true ∧
      (name ∉ r.bindings.map (·.name) ∨ ∃ e', r.entityFor name = .ok e' ∧ e'.name = e.name)
  after_of_error : ∀ e name fault, (r.register e name).1 = .error fault → r.after (e, name) = r
  register_again : ∀ e name r', r.register e name = (.ok (), r') →
    (∃ e', r'.entityFor name = .ok e' ∧ e'.name = e.name) ∧
      ∀ later e', e'.name = e.name →
        (r'.attempts later).register e' name = (.ok (), r'.attempts later)
  nodup : (r.bindings.map (·.name)).Nodup
  aliasFor_later : ∀ later e name,
    r.aliasFor e = .ok name → (r.attempts later).aliasFor e = .ok name
  entityFor_later : ∀ later e name,
    r.entityFor name = .ok e → (r.attempts later).entityFor name = .ok e
  entityFor_of_aliasFor : ∀ e name, r.aliasFor e = .ok name →
    ∃ e', r.entityFor name = .ok e' ∧ e'.name = e.name
  resolve_later : ∀ later names c column, r.resolve names c = .ok column →
    (r.attempts later).resolve names c = .ok column

/-- After any registrations, successful or failing, aliases are distinct and lead from an entity to
one of the same name. Further registrations take nothing back. -/
theorem stable_of_attempts (calls : List (Entity × String)) : (attempts {} calls).Stable := by
  have h : (attempts {} calls).Consistent := consistent_empty.attempts calls
  constructor
  case exists_register_iff =>
    intro e name
    simpa only [Entity.same_iff] using exists_register_iff
  case after_of_error =>
    intro e name fault hfault
    exact register_snd_of_error hfault
  case register_again =>
    intro e name r' hregister
    obtain ⟨bound, hbound, hsame⟩ := h.exists_entityFor_of_register hregister
    rw [Entity.same_iff] at hsame
    refine ⟨⟨bound, hbound, hsame⟩, fun later e' hname => ?_⟩
    -- The alias is still bound to that entity when it is registered again.
    obtain ⟨bs, hbs⟩ := exists_append_attempts r' later
    obtain ⟨hidentifier, -⟩ := register_eq_ok.mp hregister
    apply register_of_entityFor hidentifier (entityFor_of_append hbs hbound)
    exact Entity.same_iff.mpr (hsame.trans hname.symm)
  case nodup => exact h.nodup
  case aliasFor_later =>
    intro later e name ha
    obtain ⟨bs, hbs⟩ := exists_append_attempts (attempts {} calls) later
    exact aliasFor_of_append hbs ha
  case entityFor_later =>
    intro later e name he
    obtain ⟨bs, hbs⟩ := exists_append_attempts (attempts {} calls) later
    exact entityFor_of_append hbs he
  case entityFor_of_aliasFor =>
    intro e name ha
    simpa only [Entity.same_iff] using h.entityFor_of_aliasFor ha
  case resolve_later =>
    intro later names c column hc
    obtain ⟨bs, hbs⟩ := exists_append_attempts (attempts {} calls) later
    exact resolve_of_append hbs hc

theorem stable_of_attempts_crossedAliases :
    (attempts {} Demo.crossedAliases).bindings.map (·.name) = ["s", "t"] ∧
      ∀ later,
        ((attempts {} Demo.crossedAliases).attempts later).aliasFor Demo.student = .ok "s" := by
  have h : (attempts {} Demo.crossedAliases).Stable := stable_of_attempts Demo.crossedAliases
  refine ⟨by decide +kernel, fun later => ?_⟩
  exact h.aliasFor_later later Demo.student "s" rfl

end AliasRegistry

end SqlSelect
