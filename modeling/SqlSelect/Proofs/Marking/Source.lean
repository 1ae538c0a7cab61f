import SqlSelect.Proofs.Marking.Text

/-! The references of a condition stand for its operands, and account for what it binds. A condition
that turns out not to apply has bound nothing. -/
namespace SqlSelect

open Rendering

/-- If each step accounts for what it binds, then so does a run of them. -/
theorem ParameterTable.Accounts.mapM {α β : Type} {f : α → Rendering β} {g : β → List Reference}
    (step : ∀ a t b u refs, Yields (f a) t b u → t.Accounts refs → u.Accounts (refs ++ g b))
    {xs : List α} {t u : ParameterTable} {bs : List β} {refs : List Reference}
    (ht : t.Accounts refs) (h : Yields (xs.mapM f) t bs u) : u.Accounts (refs ++ bs.flatMap g) := by
  induction xs generalizing t bs refs with
  | nil =>
    obtain ⟨rfl, rfl⟩ := yields_mapM_nil.mp h
    simpa using ht
  | cons x xs ih =>
    obtain ⟨b, v, bs, hb, hbs, rfl⟩ := yields_mapM_cons.mp h
    have hv : v.Accounts (refs ++ g b) := step x t b v refs hb ht
    rw [List.flatMap_cons, ← List.append_assoc]
    exact ih hv hbs

-- Binding what there is to bind, under the given name.
def Source.Binds : Option Source → ParameterTable → String → ParameterTable → Prop
  | none, t, _, u => u = t
  | some (captured v), t, name, u => t.bindCaptured v = (.ok name, u)
  | some (literal v), t, name, u => t.bindLiteral v = (.ok name, u)

open Source

variable {s : Scope} {t u : ParameterTable} {refs : List Reference} {name : String}

/-- What is bound is accounted for by one more reference, if anything is bound. -/
theorem ParameterTable.Accounts.binds {source? : Option Source} (ht : t.Accounts refs)
    (h : Binds source? t name u) : u.Accounts (refs ++ (Piece.of source? name).references) := by
  rcases source? with _ | v | v
  · obtain rfl : u = t := h
    simpa [Piece.of, Piece.references] using ht
  · exact ht.bindCaptured h
  · exact ht.bindLiteral h

theorem Value.binds_renderLiteral {v : Value} (h : Yields v.renderLiteral t name u) :
    Binds v.boundSource? t name u := by
  cases v with
  | char c => exact (yields_step _ _ _ _).mp h
  | text s => exact (yields_step _ _ _ _).mp h
  | date d => exact (yields_step _ _ _ _).mp h
  | int n => exact ((yields_pure _ _ _ _).mp h).2
  | bool b => exact ((yields_pure _ _ _ _).mp h).2
  | float x => exact ((yields_ofExcept _ _ _ _).mp h).2
  | null => cases h
  | list items => cases h

/-- An operand is bound for what it is the source of. -/
theorem Operand.binds_render {o : Operand} (h : Yields (o.render s) t name u) :
    Binds o.source? t name u := by
  cases o with
  | column c =>
    simp only [render, Scope.column, yields_map, yields_ofExcept] at h
    obtain ⟨_, ⟨-, hu⟩, -⟩ := h
    exact hu
  | captured v =>
    have hb := (yields_step _ _ _ _).mp h
    have hv : v.value.isNull = false := by
      obtain ⟨-, kind, value, hclass, -⟩ := ParameterTable.bindCaptured_eq_ok.mp hb
      cases hval : v.value <;> simp [hval, Value.classify, Value.isNull] at hclass ⊢
    rw [source?, hv]
    exact hb
  | literal v => exact Value.binds_renderLiteral h
  | dateParts year month day =>
    rw [render] at h
    cases hd : Date.ofParts? year month day with
    | none => simp [hd] at h
    | some d =>
      have hb : t.bindDate d = (.ok name, u) := by simpa [hd] using h
      rw [source?, hd]
      exact hb

theorem ResolvedColumn.binds_renderItem {c : ResolvedColumn} {item : Value}
    (h : Yields (c.renderItem item) t name u) : Binds item.itemSource? t name u := by
  unfold renderItem at h
  split at h
  -- Numbers are written out.
  · exact ((yields_pure _ _ _ _).mp h).2
  · exact ((yields_pure _ _ _ _).mp h).2
  · exact ((yields_ofExcept _ _ _ _).mp h).2
  · exact ((yields_ofExcept _ _ _ _).mp h).2
  -- Texts and characters are bound.
  · exact (yields_step _ _ _ _).mp h
  · exact (yields_step _ _ _ _).mp h
  · exact (yields_step _ _ _ _).mp h
  · exact (yields_step _ _ _ _).mp h
  -- Dates are written out too; nothing else is an item.
  · exact ((yields_pure _ _ _ _).mp h).2
  · cases h
  · cases h

theorem ParameterTable.Accounts.markItem {c : ResolvedColumn} {item : Value} {p : Piece}
    (ht : t.Accounts refs) (h : Yields (c.markItem item) t p u) :
    u.Accounts (refs ++ p.references) := by
  obtain ⟨name, hitem, rfl⟩ := (yields_map _ _ _ _ _).mp h
  exact ht.binds (ResolvedColumn.binds_renderItem hitem)

/-- The references of a list stand for the items that are bound, in order. -/
theorem ResolvedColumn.sources_markItems {c : ResolvedColumn} {items : List Value}
    {pieces : MarkedText} (h : Yields (items.mapM c.markItem) t pieces u) :
    pieces.references.map (·.source) = items.flatMap (·.itemSource?.toList) := by
  have hpieces := forall₂_of_mapM
    (R := fun item p => p.references.map (·.source) = item.itemSource?.toList) ?_ h
  · clear h
    induction hpieces with
    | nil => rfl
    | cons hp _ ih => rw [MarkedText.references_cons, List.map_append, hp, ih, List.flatMap_cons]
  · intro item t p u hp
    obtain ⟨name, -, rfl⟩ := (yields_map _ _ _ _ _).mp hp
    exact Piece.sources_of _ _

namespace Operand

theorem source?_of_isNull {o : Operand} (h : o.isNull = true) :
    o.source? = none ∧ o.column? = none := by
  cases o with
  | captured v =>
    have hv : v.value.isNull = true := by simpa [isNull, isCapturedNull, isLiteralNull] using h
    simp [source?, column?, hv]
  | literal v =>
    have hv : v.isNull = true := by simpa [isNull, isCapturedNull, isLiteralNull] using h
    cases v <;> simp [Value.isNull] at hv
    exact ⟨rfl, rfl⟩
  | _ => simp [isNull, isCapturedNull, isLiteralNull] at h

theorem source?_of_column? {o : Operand} {c : ColumnRef} (h : o.column? = some c) :
    o.source? = none := by
  cases o <;> cases h
  rfl

end Operand

namespace Condition

/-- No comparison is spelled like a filter that does not apply. -/
theorem compareText_ne_alwaysTrue (l r : String) (op : CompareOp) :
    l ++ " " ++ op.sql ++ " " ++ r ≠ alwaysTrue := by
  intro h
  have hchars := congrArg String.toList h
  -- The operator would have to stand at one of the two blanks.
  rcases hl : l.toList with _ | ⟨a, _ | ⟨b, _ | ⟨c, _ | ⟨d, _ | ⟨e, _ | ⟨f, ls⟩⟩⟩⟩⟩⟩ <;>
    cases op <;> simp [alwaysTrue, CompareOp.sql, hl] at hchars

/-- The placeholder ends in its own way. -/
theorem append_ne_alwaysTrue (text ending : String)
    (hending : ending.toList.getLast?.any (· != '1') = true) : text ++ ending ≠ alwaysTrue := by
  intro h
  obtain ⟨c, hlast, hc⟩ := Option.any_eq_true _ _ |>.mp hending
  have hsame : (text ++ ending).toList.getLast? = alwaysTrue.toList.getLast? := by rw [h]
  have hone : alwaysTrue.toList.getLast? = some '1' := rfl
  rw [String.toList_append, List.getLast?_append, hlast, hone] at hsame
  cases Option.some.inj hsame
  cases hc

-- What the references of the condition stand for, unless it does not apply.
def sources : Condition → List Source
  | compare left _ right => left.source?.toList ++ right.source?.toList
  | inList _ _ (.values items) => items.flatMap (·.itemSource?.toList)
  | inList _ _ (.captured _) => []
  | pattern .. => []
  | isNull .. => []

variable {m : MarkedText}

/-- A null test has a null on one side and a column on the other. -/
theorem sources_of_renderNullTest {left right : Operand} {op : CompareOp} {text : String}
    (hnull : (left.isNull || right.isNull) = true)
    (h : Yields (renderNullTest s left op right) t text u) :
    left.source? = none ∧ right.source? = none ∧ u = t := by
  obtain ⟨hu, c, column, hc, -, -⟩ := yields_renderNullTest.mp h
  rcases Bool.or_eq_true_iff.mp hnull with hl | hr
  · obtain ⟨hsource, hcolumn⟩ := Operand.source?_of_isNull hl
    rw [hcolumn] at hc
    exact ⟨hsource, Operand.source?_of_column? hc, hu⟩
  · obtain ⟨hsource, hcolumn⟩ := Operand.source?_of_isNull hr
    have hleft : left.column? = some c := by simpa [hcolumn] using hc
    exact ⟨Operand.source?_of_column? hleft, hsource, hu⟩

/-- A comparison with null refers to nothing and binds nothing. -/
theorem markCompare_of_isNull {left right : Operand} {op : CompareOp}
    (hnull : (left.isNull || right.isNull) = true)
    (h : Yields (markCompare s left op right) t m u) :
    m.references = [] ∧ u = t ∧
      (m.text ≠ alwaysTrue → left.source? = none ∧ right.source? = none) := by
  rw [markCompare, if_pos hnull] at h
  simp only [yields_bind, yields_pure] at h
  obtain ⟨text, _, h, rfl, rfl⟩ := h
  cases compared_of_renderCompare h with
  | dropped hdrop htext hu => simp [htext, hu]
  | nullTest hkeep hnull htest =>
    obtain ⟨hl, hr, hu⟩ := sources_of_renderNullTest hnull htest
    simp [hl, hr, hu]
  | operands hkeep hnone hl hr htext =>
    rw [hnull] at hnone
    cases hnone

theorem markCompare_of_not_isNull {left right : Operand} {op : CompareOp}
    (hnull : (left.isNull || right.isNull) = false)
    (h : Yields (markCompare s left op right) t m u) :
    ∃ l r v, Yields (left.render s) t l v ∧ Yields (right.render s) v r u ∧
      m = [.of left.source? l, .plain (" " ++ op.sql ++ " "), .of right.source? r] := by
  rw [markCompare, if_neg (by simp [hnull])] at h
  simp only [Operand.mark, yields_bind, yields_map, yields_pure] at h
  obtain ⟨_, v, ⟨l, hl, rfl⟩, _, _, ⟨r, hr, rfl⟩, rfl, rfl⟩ := h
  exact ⟨l, r, v, hl, hr, rfl⟩

/-- A list test is dropped, or refers to its items. -/
theorem markList_cases {column : ColumnRef} {negated : Bool} {source : ListSource}
    (h : Yields (markList s column negated source) t m u) :
    (m = [.plain alwaysTrue] ∧ u = t) ∨
      ∃ (c : ResolvedColumn) (items : List Value) (pieces : MarkedText),
        source.items? s.options = .ok (some items) ∧ Yields (items.mapM c.markItem) t pieces u ∧
          m = .plain (c.qualified ++ (if negated then " not in (" else " in (")) ::
            pieces.intersperse (.plain ", ") ++ [.plain ")"] := by
  simp only [markList, Scope.column, yields_bind, yields_ofExcept] at h
  obtain ⟨c, _, ⟨-, rfl⟩, items?, _, ⟨hitems, rfl⟩, h⟩ := h
  cases items? with
  | none => exact .inl ((yields_pure _ _ _ _).mp h)
  | some items =>
    by_cases hempty : (items.isEmpty && s.options.emptyInList = .fail) = true
    · simp [hempty] at h
    · simp only [hempty, Bool.false_eq_true, if_false, yields_bind, yields_pure] at h
      obtain ⟨pieces, _, hpieces, rfl, rfl⟩ := h
      exact .inr ⟨c, items, pieces, hitems, hpieces, rfl⟩

/-- A captured list has dates alone. -/
theorem itemSources_of_items? {options : BuildOptions} {source : ListSource} {items : List Value}
    (column : ColumnRef) (negated : Bool) (h : source.items? options = .ok (some items)) :
    items.flatMap (·.itemSource?.toList) = (inList column negated source).sources := by
  cases source with
  | values items' =>
    cases h
    rfl
  | captured v =>
    rw [ListSource.items?] at h
    split at h
    · next items' hv =>
      split at h
      · next hdates =>
        cases h
        rw [sources, List.flatMap_eq_nil_iff]
        intro item hitem
        have hdate := List.all_eq_true.mp hdates item hitem
        cases item <;> cases hdate
        rfl
      · cases h
    · split at h <;> cases h

/-- What a condition binds is accounted for by its references. -/
theorem accounts_mark {c : Condition} (h : Yields (c.mark s) t m u) (ht : t.Accounts refs) :
    u.Accounts (refs ++ m.references) := by
  cases c with
  | compare left op right =>
    cases hnull : left.isNull || right.isNull with
    | true =>
      obtain ⟨hm, rfl, -⟩ := markCompare_of_isNull hnull h
      simpa [hm] using ht
    | false =>
      obtain ⟨l, r, v, hl, hr, rfl⟩ := markCompare_of_not_isNull hnull h
      have hv := ht.binds (Operand.binds_render hl)
      have hu := hv.binds (Operand.binds_render hr)
      simpa [MarkedText.references, Piece.references] using hu
  | inList column negated source =>
    rcases markList_cases h with ⟨rfl, rfl⟩ | ⟨c, items, pieces, -, hitems, rfl⟩
    · simpa using ht
    · have hu := ht.mapM (fun item t p u refs h ht => ht.markItem h) hitems
      have hm : MarkedText.references pieces = pieces.flatMap (·.references) := rfl
      simpa [MarkedText.references_intersperse, hm] using hu
  | pattern column shape source =>
    simp only [mark, render, yields_bind, yields_pure] at h
    obtain ⟨text, _, htext, rfl, rfl⟩ := h
    obtain rfl := (matched_of_renderPattern htext).2
    simpa using ht
  | isNull column negated =>
    simp only [mark, render, Scope.column, yields_bind, yields_ofExcept, yields_pure] at h
    obtain ⟨text, _, ⟨_, _, ⟨-, rfl⟩, -, rfl⟩, rfl, rfl⟩ := h
    simpa using ht

/-- The references of a condition stand for its operands or items, in order. -/
theorem sources_mark {c : Condition} (h : Yields (c.mark s) t m u) :
    (m.text = alwaysTrue → m.references = []) ∧
      (m.text ≠ alwaysTrue → m.references.map (·.source) = c.sources) := by
  cases c with
  | compare left op right =>
    cases hnull : left.isNull || right.isNull with
    | true =>
      obtain ⟨hm, -, hsources⟩ := markCompare_of_isNull hnull h
      refine ⟨fun _ => hm, fun htext => ?_⟩
      obtain ⟨hl, hr⟩ := hsources htext
      simp [hm, sources, hl, hr]
    | false =>
      obtain ⟨l, r, v, hl, hr, rfl⟩ := markCompare_of_not_isNull hnull h
      refine ⟨fun htext => ?_, fun _ => ?_⟩
      · exact absurd (by simpa [String.append_assoc] using htext) (compareText_ne_alwaysTrue l r op)
      · simp [sources]
  | inList column negated source =>
    rcases markList_cases h with ⟨rfl, -⟩ | ⟨c, items, pieces, hitems, hpieces, rfl⟩
    · simp
    · refine ⟨fun htext => ?_, fun _ => ?_⟩
      · rw [MarkedText.text_append] at htext
        exact absurd (by simpa using htext) (append_ne_alwaysTrue _ ")" rfl)
      · rw [← itemSources_of_items? column negated hitems]
        simpa [MarkedText.references_intersperse] using ResolvedColumn.sources_markItems hpieces
  | pattern column shape source =>
    simp only [mark, yields_bind, yields_pure] at h
    obtain ⟨text, _, -, rfl, -⟩ := h
    simp [sources]
  | isNull column negated =>
    simp only [mark, yields_bind, yields_pure] at h
    obtain ⟨text, _, -, rfl, -⟩ := h
    simp [sources]

end Condition

end SqlSelect
