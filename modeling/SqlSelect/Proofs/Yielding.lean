import Mathlib.Data.List.Forall2
import SqlSelect.Condition

/-! When a rendering succeeds: what it gives, and the parameters that it leaves. -/
namespace SqlSelect.Rendering

variable {α β : Type}

-- Rendering over the table `t` gives `a` and leaves the table `u`.
def Yields (m : Rendering α) (t : ParameterTable) (a : α) (u : ParameterTable) : Prop :=
  m.run t = (.ok a, u)

/-- A rendering has one result over a table. -/
theorem yields_unique {m : Rendering α} {t u u' : ParameterTable} {a a' : α}
    (h : Yields m t a u) (h' : Yields m t a' u') : a = a' ∧ u = u' := by
  have he : (Except.ok a, u) = ((.ok a', u') : Except Fault α × ParameterTable) := h.symm.trans h'
  simpa only [Prod.mk.injEq, Except.ok.injEq] using he

@[simp] theorem yields_pure (a b : α) (t u : ParameterTable) :
    Yields (pure a) t b u ↔ b = a ∧ u = t := by
  constructor
  · intro h
    exact yields_unique h rfl
  · rintro ⟨rfl, rfl⟩
    rfl

@[simp] theorem yields_throw (f : Fault) (a : α) (t u : ParameterTable) :
    ¬ Yields (throw f) t a u := by
  intro h
  cases h

theorem run_bind (m : Rendering α) (k : α → Rendering β) (t : ParameterTable) :
    (m >>= k).run t = match m.run t with
      | (.ok a, u) => (k a).run u
      | (.error f, u) => (.error f, u) := by
  change (ExceptT.bindCont k (m.run t).1).run (m.run t).2 = _
  rcases m.run t with ⟨a | f, u⟩ <;> rfl

theorem run_map (f : α → β) (m : Rendering α) (t : ParameterTable) :
    (f <$> m).run t = ((m.run t).1.map f, (m.run t).2) := by
  rw [map_eq_pure_bind, run_bind]
  rcases m.run t with ⟨a | f, u⟩ <;> rfl

/-- In a sequence, the second part goes on from the value and the table of the first. -/
@[simp] theorem yields_bind (m : Rendering α) (k : α → Rendering β) (t u : ParameterTable)
    (b : β) : Yields (m >>= k) t b u ↔ ∃ a v, Yields m t a v ∧ Yields (k a) v b u := by
  constructor
  · intro h
    unfold Yields at h
    rw [run_bind] at h
    rcases hm : m.run t with ⟨f | a, v⟩
    · rw [hm] at h
      cases h
    · rw [hm] at h
      exact ⟨a, v, hm, h⟩
  · rintro ⟨a, v, hm, hk⟩
    unfold Yields at hm ⊢
    rw [run_bind, hm]
    exact hk

@[simp] theorem yields_map (m : Rendering α) (f : α → β) (t u : ParameterTable) (b : β) :
    Yields (f <$> m) t b u ↔ ∃ a, Yields m t a u ∧ b = f a := by
  rw [map_eq_pure_bind, yields_bind]
  constructor
  · rintro ⟨a, v, hm, hp⟩
    obtain ⟨rfl, rfl⟩ := (yields_pure _ _ _ _).mp hp
    exact ⟨a, hm, rfl⟩
  · rintro ⟨a, hm, rfl⟩
    exact ⟨a, u, hm, rfl⟩

@[simp] theorem yields_ofExcept (e : Except Fault α) (a : α) (t u : ParameterTable) :
    Yields (ofExcept e) t a u ↔ e = .ok a ∧ u = t := by
  rcases e with f | b
  · simp [ofExcept]
  · simp [ofExcept, eq_comm]

theorem run_step (step : ParameterTable → Except Fault String × ParameterTable)
    (t : ParameterTable) : (Rendering.bind step).run t = step t := rfl

@[simp] theorem yields_step (step : ParameterTable → Except Fault String × ParameterTable)
    (t u : ParameterTable) (name : String) :
    Yields (Rendering.bind step) t name u ↔ step t = (.ok name, u) := Iff.rfl

section Runs

variable {γ : Type} {f : α → Rendering β} {t u : ParameterTable} {bs : List β}

theorem map_mapM (g : β → γ) (f : α → Rendering β) (xs : List α) :
    List.map g <$> xs.mapM f = xs.mapM fun x => g <$> f x := by
  induction xs with
  | nil => simp
  | cons x xs ih =>
    rw [List.mapM_cons, List.mapM_cons, ← ih]
    simp

theorem yields_mapM_nil : Yields (([] : List α).mapM f) t bs u ↔ bs = [] ∧ u = t :=
  yields_pure _ _ _ _

theorem yields_mapM_cons {x : α} {xs : List α} :
    Yields ((x :: xs).mapM f) t bs u ↔
      ∃ b v bs', Yields (f x) t b v ∧ Yields (xs.mapM f) v bs' u ∧ bs = b :: bs' := by
  simp only [List.mapM_cons, yields_bind, yields_pure]
  constructor
  · rintro ⟨b, v, hb, bs', _, hbs, rfl, rfl⟩
    exact ⟨b, v, bs', hb, hbs, rfl⟩
  · rintro ⟨b, v, bs', hb, hbs, rfl⟩
    exact ⟨b, v, hb, bs', u, hbs, rfl, rfl⟩

/-- A traversal relates its inputs to its outputs as its steps do. -/
theorem forall₂_of_mapM {R : α → β → Prop} (step : ∀ a t b u, Yields (f a) t b u → R a b)
    {xs : List α} (h : Yields (xs.mapM f) t bs u) : List.Forall₂ R xs bs := by
  induction xs generalizing t bs with
  | nil =>
    obtain ⟨rfl, -⟩ := yields_mapM_nil.mp h
    exact .nil
  | cons x xs ih =>
    obtain ⟨b, v, bs, hb, hbs, rfl⟩ := yields_mapM_cons.mp h
    exact .cons (step x t b v hb) (ih hbs)

theorem forall_of_mapM {P : β → Prop} (step : ∀ a t b u, Yields (f a) t b u → P b)
    {xs : List α} (h : Yields (xs.mapM f) t bs u) : ∀ b ∈ bs, P b := by
  induction xs generalizing t bs with
  | nil =>
    obtain ⟨rfl, -⟩ := yields_mapM_nil.mp h
    simp
  | cons x xs ih =>
    obtain ⟨b, v, bs, hb, hbs, rfl⟩ := yields_mapM_cons.mp h
    exact List.forall_mem_cons.mpr ⟨step x t b v hb, ih hbs⟩

end Runs

end SqlSelect.Rendering
