import SqlSelect.Proofs.Outcome
import SqlSelect.Proofs.Where.Grouping

/-! Two computations that agree: either both fail, or both succeed and their results are related.
What they fail with does not matter. -/
namespace Except

variable {ε α β γ δ : Type}

inductive Agree (R : α → β → Prop) : Except ε α → Except ε β → Prop
  | ok {a : α} {b : β} (h : R a b) : Agree R (.ok a) (.ok b)
  | error (e e' : ε) : Agree R (.error e) (.error e')

variable {R : α → β → Prop} {S : γ → δ → Prop} {x : Except ε α} {y : Except ε β}

/-- Two results agree if both are given or neither is, and if those that are given are related. -/
theorem agree_iff :
    Agree R x y ↔ ((∃ a, x = .ok a) ↔ ∃ b, y = .ok b) ∧ ∀ a b, x = .ok a → y = .ok b → R a b := by
  constructor
  · rintro (h | ⟨e, e'⟩)
    · refine ⟨by simp, ?_⟩
      rintro _ _ ⟨⟩ ⟨⟩
      exact h
    · simp
  · rintro ⟨hiff, hrel⟩
    cases x with
    | ok a =>
      obtain ⟨b, rfl⟩ := hiff.mp ⟨a, rfl⟩
      exact .ok (hrel a b rfl rfl)
    | error e =>
      cases y with
      | ok b =>
        obtain ⟨a, ha⟩ := hiff.mpr ⟨b, rfl⟩
        cases ha
      | error e' => exact .error e e'

theorem Agree.refl {R : α → α → Prop} (hR : ∀ a, R a a) (x : Except ε α) : Agree R x x := by
  cases x with
  | ok a => exact .ok (hR a)
  | error e => exact .error e e

/-- Steps that agree on related values agree in sequence. -/
theorem Agree.bind {f : α → Except ε γ} {g : β → Except ε δ} (h : Agree R x y)
    (hfg : ∀ a b, R a b → Agree S (f a) (g b)) : Agree S (x >>= f) (y >>= g) := by
  cases h with
  | ok hab => exact hfg _ _ hab
  | error e e' => exact .error e e'

/-- What starts with the same computation agrees if what follows it does. -/
theorem Agree.bind_same {f : α → Except ε γ} {g : α → Except ε δ} (x : Except ε α)
    (hfg : ∀ a, Agree S (f a) (g a)) : Agree S (x >>= f) (x >>= g) := by
  cases x with
  | ok a => exact hfg a
  | error e => exact .error e e

theorem Agree.map {f : α → γ} {g : β → δ} (h : Agree R x y) (hfg : ∀ a b, R a b → S (f a) (g b)) :
    Agree S (f <$> x) (g <$> y) := by
  cases h with
  | ok hab => exact .ok (hfg _ _ hab)
  | error e e' => exact .error e e'

theorem Agree.ite (p : Prop) [Decidable p] {x' : Except ε α} {y' : Except ε β} (h : Agree R x y)
    (h' : Agree R x' y') : Agree R (if p then x else x') (if p then y else y') := by
  split
  · exact h
  · exact h'

/-- Runs over the two lists agree if their steps do. -/
theorem agree_foldlM {f : α → γ → Except ε α} {g : β → δ → Except ε β} {cs : List γ} {ds : List δ}
    (h : List.Forall₂ S cs ds)
    (hstep : ∀ a b c d, R a b → S c d → Agree R (f a c) (g b d)) {a : α} {b : β} (hab : R a b) :
    Agree R (cs.foldlM f a) (ds.foldlM g b) := by
  induction h generalizing a b with
  | nil => exact .ok hab
  | cons hcd _ ih =>
    rw [List.foldlM_cons, List.foldlM_cons]
    exact (hstep _ _ _ _ hab hcd).bind fun _ _ hab => ih hab

end Except

namespace SqlSelect.Rendering

variable {α β : Type}

def outcome (m : Rendering α) (t : ParameterTable) : Except Fault (α × ParameterTable) :=
  finished (m.run t)

@[simp] theorem outcome_pure (a : α) (t : ParameterTable) :
    outcome (pure a) t = .ok (a, t) := rfl

@[simp] theorem outcome_throw (f : Fault) (t : ParameterTable) :
    outcome (throw f : Rendering α) t = .error f := rfl

/-- In a sequence, the second part goes on from the table of the first. -/
theorem outcome_bind (m : Rendering α) (k : α → Rendering β) (t : ParameterTable) :
    outcome (m >>= k) t = outcome m t >>= fun p => outcome (k p.1) p.2 := by
  unfold outcome
  rw [run_bind]
  rcases m.run t with ⟨f | a, u⟩ <;> rfl

theorem outcome_step (step : ParameterTable → Except Fault String × ParameterTable)
    (t : ParameterTable) : outcome (Rendering.bind step) t = finished (step t) := rfl

-- Over tables that are related, the two renderings give the same or both fail.
def Agree (T : ParameterTable → ParameterTable → Prop) (m n : Rendering α) : Prop :=
  ∀ t u, T t u → Except.Agree (fun p q => p.1 = q.1 ∧ T p.2 q.2) (outcome m t) (outcome n u)

variable {T : ParameterTable → ParameterTable → Prop}

theorem agree_pure (a : α) : Agree T (pure a) (pure a) :=
  fun _ _ ht => .ok ⟨rfl, ht⟩

theorem agree_throw (f f' : Fault) : Agree T (throw f : Rendering α) (throw f') :=
  fun _ _ _ => .error f f'

theorem agree_ofExcept (x : Except Fault α) : Agree T (ofExcept x) (ofExcept x) := by
  cases x with
  | ok a => exact agree_pure a
  | error f => exact agree_throw f f

/-- Renderings agree in sequence, whatever tables the first part leaves. -/
theorem Agree.bind {m n : Rendering α} {k l : α → Rendering β} (h : Agree T m n)
    (hkl : ∀ a, Agree T (k a) (l a)) : Agree T (m >>= k) (n >>= l) := by
  intro t u ht
  rw [outcome_bind, outcome_bind]
  refine (h t u ht).bind ?_
  rintro ⟨a, t'⟩ ⟨_, u'⟩ ⟨rfl, ht'⟩
  exact hkl a t' u' ht'

theorem Agree.ite (p : Prop) [Decidable p] {m n m' n' : Rendering α} (h : Agree T m n)
    (h' : Agree T m' n') : Agree T (if p then m else m') (if p then n else n') := by
  split
  · exact h
  · exact h'

theorem Agree.map {m n : Rendering α} (g : α → β) (h : Agree T m n) :
    Agree T (g <$> m) (g <$> n) := by
  rw [map_eq_pure_bind, map_eq_pure_bind]
  exact h.bind fun a => agree_pure (g a)

end SqlSelect.Rendering
