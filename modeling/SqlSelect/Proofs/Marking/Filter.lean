import SqlSelect.Proofs.Marking.Source
import SqlSelect.Proofs.Where.Leaves

/-! The references of a whole filter: those of the conditions that are left in it. -/
namespace SqlSelect

open Rendering WhereLine

-- The text is not that of a condition that does not apply.
def MarkedText.applies (m : MarkedText) : Bool :=
  m.text ≠ alwaysTrue

variable {s : Scope} {p : Predicate} {t u : ParameterTable} {refs : List Reference}
  {lines : List WhereLine}

/-- The lines of a filter hold its conditions in order. -/
theorem Predicate.yields_marks (h : Yields (p.compile s) t lines u) :
    ∃ conditions, Yields (p.conditions.mapM (·.mark s)) t conditions u ∧
      texts lines = conditions.map MarkedText.text := by
  have hleaves : Yields (p.conditions.mapM (·.render s)) t (texts lines) u :=
    yields_texts.mpr ⟨lines, h, rfl⟩
  simp only [← Condition.text_mark, ← map_mapM] at hleaves
  exact (yields_map _ _ _ _ _).mp hleaves

/-- The texts that are left in a block are those of the conditions that apply. -/
theorem texts_of_applies {conditions : List MarkedText}
    (h : texts lines = conditions.map MarkedText.text) :
    texts (stripAlwaysTrue lines).1 = (conditions.filter (·.applies)).map MarkedText.text := by
  rw [texts_stripAlwaysTrue, h]
  exact List.filter_map

/-- Conditions that do not apply have no references to lose. -/
theorem flatMap_references_filter {conditions : List MarkedText}
    (h : ∀ m ∈ conditions, m.applies = false → m.references = []) :
    (conditions.filter (·.applies)).flatMap MarkedText.references =
      conditions.flatMap MarkedText.references := by
  induction conditions with
  | nil => rfl
  | cons m ms ih =>
    have hms := ih fun m' hm' => h m' (List.mem_cons_of_mem _ hm')
    cases hm : m.applies with
    | true => rw [List.filter_cons_of_pos hm, List.flatMap_cons, List.flatMap_cons, hms]
    | false =>
      have hnil := h m List.mem_cons_self hm
      rw [List.filter_cons_of_neg (by simp [hm]), List.flatMap_cons, hnil, hms, List.nil_append]

/-- What the compilation binds is what the conditions that are left refer to. -/
theorem ParameterTable.Accounts.compile (ht : t.Accounts refs)
    (h : Yields (p.compile s) t lines u) :
    ∃ conditions, Yields (p.conditions.mapM (·.mark s)) t conditions u ∧
      texts (stripAlwaysTrue lines).1 = (conditions.filter (·.applies)).map MarkedText.text ∧
      List.Forall₂ (fun c m => m.applies = true → m.references.map (·.source) = c.sources)
        p.conditions conditions ∧
      u.Accounts (refs ++ (conditions.filter (·.applies)).flatMap MarkedText.references) := by
  obtain ⟨conditions, hmarks, htexts⟩ := Predicate.yields_marks h
  refine ⟨conditions, hmarks, texts_of_applies htexts, ?_, ?_⟩
  · apply forall₂_of_mapM ?_ hmarks
    intro c t m u hm happlies
    exact (Condition.sources_mark hm).2 (of_decide_eq_true happlies)
  · have hu := ht.mapM (fun c t m u refs h ht => Condition.accounts_mark h ht) hmarks
    rw [flatMap_references_filter]
    · exact hu
    · apply forall_of_mapM (P := fun m => m.applies = false → m.references = []) ?_ hmarks
      intro c t m u hm habsent
      exact (Condition.sources_mark hm).1 (by simpa [MarkedText.applies] using habsent)

end SqlSelect
