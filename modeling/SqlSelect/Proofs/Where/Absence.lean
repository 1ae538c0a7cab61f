import SqlSelect.Proofs.Marking.Source
import SqlSelect.Proofs.Where.Leaves
import SqlSelect.Proofs.Where.Pruning

/-! Which conditions do not apply can be told before anything is rendered. They bind nothing, so a
filter that is written without them has the same parameters and the same conditions left. -/
namespace SqlSelect

open Rendering WhereLine

def PatternSource.isBlank : PatternSource → Bool
  | text none => true
  | text (some t) => t.isEmpty
  | captured v =>
    match v.value with
    | .null => true
    | .text t => t.isEmpty
    | _ => false

-- The condition does not apply: it compares with a captured null or looks in one, and such filters
-- are dropped, or it looks for no text.
def Condition.isAbsent (options : BuildOptions) : Condition → Bool
  | compare left _ right =>
    options.ignoreNullFilters && (left.isCapturedNull || right.isCapturedNull)
  | inList _ _ (.captured v) => options.ignoreNullFilters && v.value.isNull
  | pattern _ _ source => source.isBlank
  | _ => false

-- The filter without its absent conditions. Where one side is left, it stands for both.
def Predicate.present? (options : BuildOptions) : Predicate → Option Predicate
  | condition c => if c.isAbsent options then none else some (condition c)
  | logical op p q =>
    match p.present? options, q.present? options with
    | some p, some q => some (logical op p q)
    | some p, none => some p
    | none, q => q

/-- The conditions that are present stay in their order. -/
theorem Predicate.conditions_present? (options : BuildOptions) (p : Predicate) :
    (p.present? options).elim [] conditions = p.conditions.filter (!·.isAbsent options) := by
  induction p with
  | condition c => cases h : c.isAbsent options <;> simp [present?, conditions, h]
  | logical op p q ihp ihq =>
    rw [conditions, List.filter_append, ← ihp, ← ihq, present?]
    cases p.present? options <;> cases q.present? options <;> simp [conditions]

theorem PatternShape.exists_test_eq (shape : PatternShape) (text : String) :
    ∃ start, shape.test text = start ++ "'" := by
  have hquote : "%'" = "%" ++ "'" := rfl
  cases shape with
  | endsWith => exact ⟨_, rfl⟩
  | _ =>
    rw [test, hquote, ← String.append_assoc]
    exact ⟨_, rfl⟩

/-- No test for null is spelled like a filter that does not apply. -/
theorem CompareOp.ne_alwaysTrue_of_nullTest {op : CompareOp} {column text : String}
    (h : op.nullTest column = .ok text) : text ≠ alwaysTrue := by
  cases op with
  | eq =>
    cases h
    exact Condition.append_ne_alwaysTrue column " is null" rfl
  | ne =>
    cases h
    exact Condition.append_ne_alwaysTrue column " is not null" rfl
  | _ => cases h

theorem PatternSource.isBlank_eq {source : PatternSource} {text? : Option String}
    (h : source.text? = .ok text?) : source.isBlank = text?.all String.isEmpty := by
  unfold PatternSource.text? at h
  split at h
  · next t =>
    cases h
    cases text? <;> rfl
  · next v =>
    unfold isBlank
    split at h <;> cases h <;> simp [*]

theorem ListSource.isAbsent_eq {options : BuildOptions} {source : ListSource}
    {items? : Option (List Value)} (h : source.items? options = .ok items?) (column : ColumnRef)
    (negated : Bool) :
    (Condition.inList column negated source).isAbsent options = items?.isNone := by
  unfold ListSource.items? at h
  split at h
  · cases h
    rfl
  · next v =>
    unfold Condition.isAbsent
    split at h
    · next items hv =>
      split at h <;> cases h
      simp [hv, Value.isNull]
    · split at h
      · next hnull =>
        cases h
        simpa [and_comm] using hnull
      · cases h

namespace Condition

-- A condition was rendered: it is absent, and was dropped before any of its operands was bound, or
-- it is not, and is not spelled like one that is.
inductive Rendered (options : BuildOptions) (c : Condition) (t : ParameterTable) (text : String)
    (u : ParameterTable) : Prop
  | absent (h : c.isAbsent options = true) (htext : text = alwaysTrue) (hu : u = t)
  | present (h : c.isAbsent options = false) (htext : text ≠ alwaysTrue)

variable {s : Scope} {t u : ParameterTable} {text : String}

theorem ne_alwaysTrue_of_renderNullTest {left right : Operand} {op : CompareOp}
    (h : Yields (renderNullTest s left op right) t text u) : text ≠ alwaysTrue := by
  obtain ⟨-, c, column, -, -, htest⟩ := yields_renderNullTest.mp h
  exact CompareOp.ne_alwaysTrue_of_nullTest htest

/-- A comparison is dropped exactly if it is absent. -/
theorem rendered_compare {left right : Operand} {op : CompareOp}
    (h : Yields (renderCompare s left op right) t text u) :
    Rendered s.options (compare left op right) t text u := by
  cases compared_of_renderCompare h with
  | dropped hdrop htext hu => exact .absent hdrop htext hu
  | nullTest hkeep hnull htest => exact .present hkeep (ne_alwaysTrue_of_renderNullTest htest)
  | operands hkeep hnull hl hr htext =>
    rw [htext]
    exact .present hkeep (compareText_ne_alwaysTrue _ _ op)

theorem rendered_inList {column : ColumnRef} {negated : Bool} {source : ListSource}
    (h : Yields (renderList s column negated source) t text u) :
    Rendered s.options (inList column negated source) t text u := by
  cases listed_of_renderList h with
  | dropped hcolumn hsource htext hu =>
    exact .absent (ListSource.isAbsent_eq hsource column negated) htext hu
  | items hcolumn hsource htexts htext =>
    have hpresent := ListSource.isAbsent_eq hsource column negated
    rw [htext]
    exact .present hpresent (append_ne_alwaysTrue _ ")" rfl)

theorem rendered_pattern {column : ColumnRef} {shape : PatternShape} {source : PatternSource}
    (h : Yields (renderPattern s column shape source) t text u) :
    Rendered s.options (pattern column shape source) t text u := by
  obtain ⟨hmatched, hu⟩ := matched_of_renderPattern h
  cases hmatched with
  | dropped hcolumn hsource hblank htext =>
    exact .absent ((PatternSource.isBlank_eq hsource).trans hblank) htext hu
  | @given c given hcolumn hsource hgiven htext =>
    have hpresent : source.isBlank = false := (PatternSource.isBlank_eq hsource).trans hgiven
    obtain ⟨start, hstart⟩ := shape.exists_test_eq given
    rw [htext, hstart, ← String.append_assoc]
    exact .present hpresent (append_ne_alwaysTrue _ "'" rfl)

/-- A condition is dropped exactly if it is absent. -/
theorem rendered_of_render {c : Condition} (h : Yields (c.render s) t text u) :
    Rendered s.options c t text u := by
  cases c with
  | compare left op right => exact rendered_compare h
  | inList column negated source => exact rendered_inList h
  | pattern column shape source => exact rendered_pattern h
  | isNull column negated =>
    simp only [render, yields_bind, yields_pure] at h
    obtain ⟨c, _, -, rfl, -⟩ := h
    apply Rendered.present rfl
    cases negated with
    | false => exact append_ne_alwaysTrue _ " is null" rfl
    | true => exact append_ne_alwaysTrue _ " is not null" rfl

/-- The text is that of a dropped filter exactly if the condition is absent. -/
theorem Rendered.iff {options : BuildOptions} {c : Condition} (h : Rendered options c t text u) :
    text = alwaysTrue ↔ c.isAbsent options = true := by
  cases h with
  | absent habsent htext hu => exact iff_of_true htext habsent
  | present habsent htext => exact iff_of_false htext (by simp [habsent])

end Condition

variable {s : Scope} {t u : ParameterTable}

/-- Absent conditions can be left out of a run. -/
theorem yields_mapM_present {cs : List Condition} {ts : List String}
    (h : Yields (cs.mapM (Condition.render s)) t ts u) :
    Yields ((cs.filter (!·.isAbsent s.options)).mapM (Condition.render s)) t
      (ts.filter (· ≠ alwaysTrue)) u := by
  induction cs generalizing t ts with
  | nil =>
    obtain ⟨rfl, rfl⟩ := yields_mapM_nil.mp h
    exact yields_mapM_nil.mpr ⟨rfl, rfl⟩
  | cons c cs ih =>
    obtain ⟨text, v, ts, htext, hts, rfl⟩ := yields_mapM_cons.mp h
    have hrest := ih hts
    cases Condition.rendered_of_render htext with
    | absent habsent hplaceholder hv =>
      -- The rest of the run starts from the table that the condition was given.
      subst hv
      have hcs : (c :: cs).filter (!·.isAbsent s.options) = cs.filter (!·.isAbsent s.options) :=
        List.filter_cons_of_neg (by simp [habsent])
      rw [hcs, List.filter_cons_of_neg (by simp [hplaceholder])]
      exact hrest
    | present hpresent hplaceholder =>
      have hcs : (c :: cs).filter (!·.isAbsent s.options) =
          c :: cs.filter (!·.isAbsent s.options) :=
        List.filter_cons_of_pos (by simp [hpresent])
      rw [hcs, List.filter_cons_of_pos (by simp [hplaceholder])]
      exact yields_mapM_cons.mpr ⟨text, v, _, htext, hrest, rfl⟩

/-- A block is empty after the cleanup exactly if none of its conditions applies. -/
theorem Predicate.stripAlwaysTrue_eq_nil_iff {p : Predicate} {lines : List WhereLine}
    (h : Yields (p.compile s) t lines u) :
    (stripAlwaysTrue lines).1 = [] ↔ ∀ text ∈ texts lines, text = alwaysTrue := by
  obtain ⟨tree, htree, rfl⟩ := yields_compile.mp h
  obtain ⟨hlinked, hconn, -⟩ := linked_of_traverse htree
  rw [stripAlwaysTrue_fst, LogicalTree.swept_lines hlinked hconn,
    LogicalTree.prunedLines_eq_nil_iff hlinked, texts, LogicalTree.conditions_lines]

/-- Conditions that do not apply leave no trace. Without them a filter is compiled to the same
parameters, and its conditions are those that the cleanup leaves of the whole filter; if there are
no others, nothing is bound and no lines are left. -/
theorem Predicate.compile_present (s : Scope) (p : Predicate) (t u : ParameterTable)
    (lines : List WhereLine) (h : Yields (p.compile s) t lines u) :
    List.Forall₂ (fun c text => text = alwaysTrue ↔ c.isAbsent s.options = true) p.conditions
        (texts lines) ∧
      (∀ q, p.present? s.options = some q →
        ∃ kept, Yields (q.compile s) t kept u ∧ texts kept = texts (stripAlwaysTrue lines).1) ∧
      (p.present? s.options = none → u = t ∧ (stripAlwaysTrue lines).1 = []) := by
  have hrun : Yields (p.conditions.mapM (Condition.render s)) t (texts lines) u :=
    yields_texts.mpr ⟨lines, h, rfl⟩
  have hpresent := yields_mapM_present hrun
  rw [← conditions_present?, ← texts_stripAlwaysTrue] at hpresent
  refine ⟨?_, ?_, ?_⟩
  · apply forall₂_of_mapM ?_ hrun
    intro c t text u hc
    exact (Condition.rendered_of_render hc).iff
  · intro q hq
    rw [hq] at hpresent
    obtain ⟨kept, hkept, htexts⟩ := yields_texts.mp hpresent
    exact ⟨kept, hkept, htexts.symm⟩
  · intro hnone
    rw [hnone] at hpresent
    obtain ⟨hnil, hu⟩ := yields_mapM_nil.mp hpresent
    refine ⟨hu, (stripAlwaysTrue_eq_nil_iff h).mpr ?_⟩
    rw [texts_stripAlwaysTrue, List.filter_eq_nil_iff] at hnil
    intro text htext
    simpa using hnil text htext

namespace Demo

open Condition Operand

-- The other side of an absent comparison would be a literal of its own.
def strangers : Predicate :=
  .condition (compare (literal (.text "Zoe")) .ne (captured ⟨"nobody", .null⟩))

def noPattern : Predicate :=
  .condition (pattern (.property student "LastName") .like (.text none))

def noDates : Predicate :=
  .condition (inList (.property student "DateOfBirth") true (.captured ⟨"dates", .null⟩))

def notLee : Predicate :=
  .condition (compare (column (.property student "LastName")) .ne (literal (.text "Lee")))

-- Three of the conditions are absent, in front of each of the others and between them.
def partlyPresent : Predicate :=
  .and (.or strangers called) (.and noPattern (.or noDates (.and notLee called)))

def partlyPresentLines : List WhereLine :=
  [.opening 1, .condition 2 none alwaysTrue,
   .condition 2 (some .or) "s.first_name = @param_value_1", .closing 1,
   .connective 1 .and, .opening 1, .condition 2 none alwaysTrue,
   .connective 2 .and, .opening 2, .condition 3 none alwaysTrue,
   .connective 3 .or, .opening 3, .condition 4 none "s.last_name != @param_value_2",
   .condition 4 (some .and) "s.first_name = @param_value_1", .closing 3, .closing 2, .closing 1]

end Demo

theorem Predicate.compile_present_partlyPresent :
    ∃ u kept, Yields (Demo.partlyPresent.compile Demo.studentScope) {} Demo.partlyPresentLines u ∧
      u.parameters = [⟨"@param_value_1", "Ann", .nvarchar⟩, ⟨"@param_value_2", "Lee", .nvarchar⟩] ∧
      Demo.partlyPresent.present? {} = some (.and Demo.called (.and Demo.notLee Demo.called)) ∧
      Yields ((and Demo.called (and Demo.notLee Demo.called)).compile Demo.studentScope) {} kept u ∧
      texts kept =
        ["s.first_name = @param_value_1", "s.last_name != @param_value_2",
          "s.first_name = @param_value_1"] := by
  obtain ⟨-, hpresent, -⟩ :=
    compile_present Demo.studentScope Demo.partlyPresent {} _ Demo.partlyPresentLines rfl
  obtain ⟨kept, hkept, htexts⟩ := hpresent _ rfl
  refine ⟨_, kept, rfl, rfl, rfl, hkept, htexts.trans ?_⟩
  decide +kernel

end SqlSelect
