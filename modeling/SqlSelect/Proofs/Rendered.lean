import SqlSelect.Proofs.Yielding

/-! The ways in which a condition of each kind is rendered. -/
namespace SqlSelect

open Rendering

def Operand.isNull (o : Operand) : Bool :=
  o.isCapturedNull || o.isLiteralNull

variable {s : Scope} {t u : ParameterTable} {text : String}

theorem Scope.yields_column {c : ColumnRef} {column : ResolvedColumn} :
    Yields (s.column c) t column u ↔ s.aliases.resolve s.names c = .ok column ∧ u = t :=
  yields_ofExcept _ _ _ _

namespace Condition

/-- A null test is of the only column among its sides. -/
theorem yields_renderNullTest {left right : Operand} {op : CompareOp} :
    Yields (renderNullTest s left op right) t text u ↔
      u = t ∧ ∃ c column, (left.column? <|> right.column?) = some c ∧
        s.aliases.resolve s.names c = .ok column ∧ op.nullTest column.qualified = .ok text := by
  unfold renderNullTest
  cases left.column? <|> right.column? with
  | none => simp
  | some c =>
    simp only [yields_bind, Scope.yields_column, yields_ofExcept]
    constructor
    · rintro ⟨column, _, ⟨hcolumn, rfl⟩, htest, rfl⟩
      exact ⟨rfl, c, column, rfl, hcolumn, htest⟩
    · rintro ⟨rfl, _, column, hc, hcolumn, htest⟩
      cases hc
      exact ⟨column, u, ⟨hcolumn, rfl⟩, htest, rfl⟩

-- A comparison is dropped for a captured null, it tests for null, or it is of two texts.
inductive Compared (s : Scope) (left : Operand) (op : CompareOp) (right : Operand)
    (t : ParameterTable) (text : String) (u : ParameterTable) : Prop
  | dropped
      (hdrop : (s.options.ignoreNullFilters &&
        (left.isCapturedNull || right.isCapturedNull)) = true)
      (htext : text = alwaysTrue) (hu : u = t)
  | nullTest
      (hkeep : (s.options.ignoreNullFilters &&
        (left.isCapturedNull || right.isCapturedNull)) = false)
      (hnull : (left.isNull || right.isNull) = true)
      (htest : Yields (renderNullTest s left op right) t text u)
  | operands
      (hkeep : (s.options.ignoreNullFilters &&
        (left.isCapturedNull || right.isCapturedNull)) = false)
      (hnull : (left.isNull || right.isNull) = false) {l r : String} {v : ParameterTable}
      (hl : Yields (left.render s) t l v) (hr : Yields (right.render s) v r u)
      (htext : text = l ++ " " ++ op.sql ++ " " ++ r)

/-- A comparison is rendered in one of three ways. -/
theorem compared_of_renderCompare {left right : Operand} {op : CompareOp}
    (h : Yields (renderCompare s left op right) t text u) :
    Compared s left op right t text u := by
  have hnull_eq : (left.isNull || right.isNull) =
      ((left.isCapturedNull || right.isCapturedNull) ||
        (left.isLiteralNull || right.isLiteralNull)) := by
    simp only [Operand.isNull]
    ac_rfl
  unfold renderCompare at h
  split at h
  · next hcaptured =>
    split at h
    · next hignore =>
      obtain ⟨htext, hu⟩ := (yields_pure _ _ _ _).mp h
      exact .dropped (by rw [hignore, hcaptured]; rfl) htext hu
    · next hkeep => exact .nullTest (by simp [hkeep]) (by rw [hnull_eq, hcaptured]; rfl) h
  · next hcaptured =>
    rw [Bool.not_eq_true] at hcaptured
    split at h
    · next hliteral =>
      exact .nullTest (by simp [hcaptured]) (by rw [hnull_eq, hliteral, Bool.or_true]) h
    · next hliteral =>
      simp only [yields_bind, yields_pure] at h
      obtain ⟨l, v, hl, r, _, hr, htext, rfl⟩ := h
      have hnull : (left.isNull || right.isNull) = false := by
        simp [hnull_eq, hcaptured, hliteral]
      exact .operands (by simp [hcaptured]) hnull hl hr htext

-- A pattern test is dropped if there is no text to look for.
inductive Matched (s : Scope) (column : ColumnRef) (shape : PatternShape) (source : PatternSource)
    (text : String) : Prop
  | dropped {c : ResolvedColumn} {given? : Option String}
      (hcolumn : s.aliases.resolve s.names column = .ok c) (hsource : source.text? = .ok given?)
      (hblank : given?.all String.isEmpty = true) (htext : text = alwaysTrue)
  | given {c : ResolvedColumn} {given : String}
      (hcolumn : s.aliases.resolve s.names column = .ok c)
      (hsource : source.text? = .ok (some given)) (hgiven : given.isEmpty = false)
      (htext : text = c.qualified ++ " " ++ shape.test given)

/-- A pattern test binds nothing. -/
theorem matched_of_renderPattern {column : ColumnRef} {shape : PatternShape}
    {source : PatternSource} (h : Yields (renderPattern s column shape source) t text u) :
    Matched s column shape source text ∧ u = t := by
  simp only [renderPattern, yields_bind, Scope.yields_column, yields_ofExcept] at h
  obtain ⟨c, _, ⟨hcolumn, rfl⟩, given?, _, ⟨hsource, rfl⟩, h⟩ := h
  cases given? with
  | none =>
    obtain ⟨htext, hu⟩ := (yields_pure _ _ _ _).mp h
    exact ⟨.dropped hcolumn hsource rfl htext, hu⟩
  | some given =>
    dsimp only at h
    split at h
    · next hblank =>
      obtain ⟨htext, hu⟩ := (yields_pure _ _ _ _).mp h
      exact ⟨.dropped hcolumn hsource hblank htext, hu⟩
    · next hgiven =>
      obtain ⟨htext, hu⟩ := (yields_pure _ _ _ _).mp h
      exact ⟨.given hcolumn hsource (Bool.eq_false_iff.mpr hgiven) htext, hu⟩

-- A list test is dropped for a captured null.
inductive Listed (s : Scope) (column : ColumnRef) (negated : Bool) (source : ListSource)
    (t : ParameterTable) (text : String) (u : ParameterTable) : Prop
  | dropped {c : ResolvedColumn} (hcolumn : s.aliases.resolve s.names column = .ok c)
      (hsource : source.items? s.options = .ok none) (htext : text = alwaysTrue) (hu : u = t)
  | items {c : ResolvedColumn} {items : List Value} {texts : List String}
      (hcolumn : s.aliases.resolve s.names column = .ok c)
      (hsource : source.items? s.options = .ok (some items))
      (htexts : Yields (c.renderItems items) t texts u)
      (htext : text = c.qualified ++ (if negated then " not in (" else " in (") ++
        String.intercalate ", " texts ++ ")")

theorem listed_of_renderList {column : ColumnRef} {negated : Bool} {source : ListSource}
    (h : Yields (renderList s column negated source) t text u) :
    Listed s column negated source t text u := by
  simp only [renderList, yields_bind, Scope.yields_column, yields_ofExcept] at h
  obtain ⟨c, _, ⟨hcolumn, rfl⟩, items?, _, ⟨hsource, rfl⟩, h⟩ := h
  cases items? with
  | none =>
    obtain ⟨htext, hu⟩ := (yields_pure _ _ _ _).mp h
    exact .dropped hcolumn hsource htext hu
  | some items =>
    dsimp only at h
    split at h
    · simp at h
    · simp only [yields_bind, yields_pure] at h
      obtain ⟨texts, _, htexts, htext, rfl⟩ := h
      exact .items hcolumn hsource htexts htext

end Condition

end SqlSelect
