import SqlSelect.Proofs.Statement.Printout
import SqlSelect.Proofs.Where.Pruning

/-! What a filter means, given the truth of its conditions, and that the lines which the cleanup
leaves say just that. -/
namespace SqlSelect

open WhereLine Rendering

-- A side that does not apply leaves the other one.
def LogicalOp.applySides (op : LogicalOp) : Option Bool → Option Bool → Option Bool
  | some a, some b => some (op.apply a b)
  | some a, none => some a
  | none, side => side

-- The truth of a filter whose conditions are rendered on the way; none if no condition applies.
def Predicate.meaning (s : Scope) (v : String → Bool) : Predicate → Rendering (Option Bool)
  | condition c => do
    let text ← c.render s
    pure (if text = alwaysTrue then none else some (v text))
  | logical op p q => do
    let left ← p.meaning s v
    let right ← q.meaning s v
    pure (op.applySides left right)

namespace LogicalTree

-- The tokens of a tree, its own connective left out.
def tokensAt (d : Nat) (t : LogicalTree String) : List BooleanToken :=
  ((t.behind none).linesAt d).flatMap WhereLine.tokens

/-- A member of a group is read as its connective and its own tokens. -/
theorem flatMap_tokens_linesAt {t : LogicalTree String} {op : LogicalOp}
    (hc : t.connective = some op) (d : Nat) :
    (t.linesAt d).flatMap WhereLine.tokens = .connective op :: t.tokensAt d := by
  rcases t with ⟨k, text⟩ | ⟨k, ts⟩
  · cases hc
    rfl
  · cases hc
    simp [tokensAt, linesAt, WhereLine.tokens]

/-- A group is read as its members in parentheses. -/
theorem tokensAt_group (d : Nat) (c : Option LogicalOp) (ts : List (LogicalTree String)) :
    (group c ts).tokensAt d =
      .opening :: ((linesOfAll (d + 1) ts).flatMap WhereLine.tokens ++ [.closing]) := by
  simp [tokensAt, linesAt, WhereLine.tokens]

-- The tree stands for one operand of this value, wherever it is written.
def Says (v : String → Bool) (t : LogicalTree String) (b : Bool) : Prop :=
  ∃ e : BooleanExpr, e.value v = b ∧ ∀ d, BooleanExpr.Reading .operand (t.tokensAt d) e

variable {v : String → Bool} {a b : Bool} {t u : LogicalTree String}

/-- A group of one member has the value of this one. -/
theorem says_group_one (c : Option LogicalOp) (h : Says v t b) :
    Says v (group c [t.behind none]) b := by
  obtain ⟨e, he, hr⟩ := h
  refine ⟨.enclosed e, he, fun d => ?_⟩
  rw [tokensAt_group, linesOfAll, linesOfAll, List.append_nil]
  exact .enclosed (.conjunction (.operand (hr (d + 1))))

/-- A group of two members has the value that its operator gives them. -/
theorem says_group_two (c : Option LogicalOp) {op : LogicalOp} (hop : u.connective = some op)
    (ht : Says v t a) (hu : Says v u b) :
    Says v (group c [t.behind none, u]) (op.apply a b) := by
  obtain ⟨l, rfl, hl⟩ := ht
  obtain ⟨r, rfl, hr⟩ := hu
  refine ⟨.enclosed (.joined op l r), rfl, fun d => ?_⟩
  rw [tokensAt_group, linesOfAll, linesOfAll, linesOfAll, List.append_nil, List.flatMap_append,
    flatMap_tokens_linesAt hop]
  exact .enclosed (BooleanExpr.reading_joined op (hl (d + 1)) (hr (d + 1)))

/-- A whole block has no parentheses around it. -/
theorem reading_lines_of_says (hc : t.connective = none) (h : Says v t b) :
    ∃ e : BooleanExpr, e.value v = b ∧
      BooleanExpr.Reading .disjunction (t.lines.flatMap WhereLine.tokens) e := by
  obtain ⟨e, he, hr⟩ := h
  rcases t with ⟨k, text⟩ | ⟨k, ts⟩
  · cases hc
    exact ⟨e, he, .conjunction (.operand (hr 1))⟩
  · have h0 := hr 0
    rw [tokensAt_group] at h0
    generalize hts : (linesOfAll (0 + 1) ts).flatMap WhereLine.tokens ++ [.closing] = ts' at h0
    cases h0 with
    | @enclosed inner e h =>
      have hinner : (group k ts).lines.flatMap WhereLine.tokens = inner :=
        List.append_cancel_right hts
      exact ⟨e, he, by rw [hinner]; exact h⟩

end LogicalTree

open LogicalTree

/-- What is left of a rendered filter and what the filter means go together. -/
theorem meaning_of_traverse {s : Scope} {c : Option LogicalOp} {p : Predicate}
    {t u : ParameterTable} {tree : LogicalTree String} (v : String → Bool)
    (h : Yields ((p.groupingBehind c).traverse (·.render s)) t tree u) :
    ∃ m, Yields (p.meaning s v) t m u ∧ (tree.prune? = none → m = none) ∧
      ∀ w, tree.prune? = some w → w.connective = c ∧ ∃ b, m = some b ∧ Says v w b := by
  induction p generalizing c t u tree with
  | condition a =>
    obtain ⟨text, htext, rfl⟩ := (Predicate.yields_traverse_condition a).mp h
    refine ⟨if text = alwaysTrue then none else some (v text), ?_, ?_, ?_⟩
    · simpa [Predicate.meaning] using ⟨text, htext, rfl⟩
    · simp [prune?]
    · intro w hw
      rw [prune?] at hw
      split at hw
      · cases hw
      · next ht =>
        cases hw
        exact ⟨rfl, v text, if_neg ht, .condition text, rfl, fun d => .condition text⟩
  | logical op p q ihp ihq =>
    obtain ⟨l, r, w, hl, hr, rfl⟩ := (Predicate.yields_traverse_logical op p q).mp h
    obtain ⟨left, hleft, hlnone, hlsome⟩ := ihp hl
    obtain ⟨right, hright, hrnone, hrsome⟩ := ihq hr
    refine ⟨op.applySides left right, ?_, ?_⟩
    · simpa [Predicate.meaning] using ⟨left, w, hleft, right, hright, rfl⟩
    · -- Four cases: each side either applies or does not.
      cases hpl : l.prune? with
      | none =>
        rw [hlnone hpl]
        cases hpr : r.prune? with
        | none => simp [prune?, survivors, hpl, hpr, hrnone hpr, LogicalOp.applySides]
        | some wr =>
          obtain ⟨-, b, rfl, hb⟩ := hrsome wr hpr
          have hp : (group c [l, r]).prune? = some (group c [wr.behind none]) := by
            simp [prune?, survivors, hpl, hpr]
          simpa [hp, LogicalOp.applySides, LogicalTree.connective] using says_group_one c hb
      | some wl =>
        obtain ⟨-, a, rfl, ha⟩ := hlsome wl hpl
        cases hpr : r.prune? with
        | none =>
          have hp : (group c [l, r]).prune? = some (group c [wl.behind none]) := by
            simp [prune?, survivors, hpl, hpr]
          rw [hrnone hpr]
          simpa [hp, LogicalOp.applySides, LogicalTree.connective] using says_group_one c ha
        | some wr =>
          obtain ⟨hop, b, rfl, hb⟩ := hrsome wr hpr
          have hp : (group c [l, r]).prune? = some (group c [wl.behind none, wr]) := by
            simp [prune?, survivors, hpl, hpr]
          simpa [hp, LogicalOp.applySides, LogicalTree.connective] using says_group_two c hop ha hb

/-- The lines of a filter that the cleanup leaves have exactly one reading, and its value is what
the filter means, whatever the truth of the conditions; none are left exactly if it means
nothing. What is read is what is printed: in the text of a statement with this filter, the block
has these lines, token by token, and it is missing if there are none. -/
theorem reading_of_compile (s : Scope) (p : Predicate) (t u : ParameterTable)
    (lines : List WhereLine) (h : Yields (p.compile s) t lines u) (v : String → Bool) :
    ∃ m, Yields (p.meaning s v) t m u ∧
      ((stripAlwaysTrue lines).1 = [] ↔ m = none) ∧
      (∀ b, m = some b → ∃ e : BooleanExpr, e.value v = b ∧
        ∀ e', BooleanExpr.Reading .disjunction
          ((stripAlwaysTrue lines).1.flatMap WhereLine.tokens) e' ↔ e' = e) ∧
      ∀ st : SelectStatement, st.filter = some lines →
        (st.whereLines = if m = none then [] else
          "where" :: (stripAlwaysTrue lines).1.map fun l => BooleanToken.line l.depth l.tokens) ∧
        ∀ ending : LineEnding, ∃ printed : Printout,
          printed.ShownIn ending.text (st.text ending) ∧
          printed.filter = (stripAlwaysTrue lines).1.map fun l => (l.depth, l.tokens) := by
  obtain ⟨tree, htree, rfl⟩ := Predicate.yields_compile.mp h
  obtain ⟨hlinked, hconn, -⟩ := Predicate.linked_of_traverse htree
  obtain ⟨m, hm, hnone, hsome⟩ := meaning_of_traverse v htree
  have hstrip : (stripAlwaysTrue tree.lines).1 = tree.prunedLines := by
    rw [stripAlwaysTrue_fst, swept_lines hlinked hconn]
  have hempty : (stripAlwaysTrue tree.lines).1 = [] ↔ m = none := by
    rw [hstrip, prunedLines]
    cases hp : tree.prune? with
    | none => simp [hnone hp]
    | some w =>
      obtain ⟨-, b, rfl, -⟩ := hsome w hp
      simp [lines_ne_nil hp]
  refine ⟨m, hm, hempty, ?_, ?_⟩
  · rintro b rfl
    rw [hstrip, prunedLines]
    cases hp : tree.prune? with
    | none => cases hnone hp
    | some w =>
      obtain ⟨hc, b', hb', hsays⟩ := hsome w hp
      cases hb'
      obtain ⟨e, he, hread⟩ := reading_lines_of_says hc hsays
      refine ⟨e, he, fun e' => ⟨fun h' => BooleanExpr.reading_unique hread h', ?_⟩⟩
      rintro rfl
      exact hread
  · intro st hst
    have hkept : st.keptLines = (stripAlwaysTrue tree.lines).1 := by
      rw [SelectStatement.keptLines, hst]
    refine ⟨?_, fun ending => ⟨st.printout, st.shownIn_text ending, ?_⟩⟩
    · rw [st.whereLines_eq_headed, hkept]
      cases hl : (stripAlwaysTrue tree.lines).1 with
      | nil => simp [headed, hempty.mp hl]
      | cons line rest =>
        have hm : m ≠ none := fun hn => by simp [hempty.mpr hn] at hl
        simp [headed, hm]
    · rw [SelectStatement.printout, hkept]

theorem reading_of_compile_partlyAbsent :
    Yields (Demo.partlyAbsent.compile Demo.studentScope) {} Demo.partlyAbsentLines {} ∧
      (∃ e : BooleanExpr, e.value (fun _ => true) = true ∧
        ∀ e', BooleanExpr.Reading .disjunction
          ((stripAlwaysTrue Demo.partlyAbsentLines).1.flatMap WhereLine.tokens) e' ↔ e' = e) ∧
      ∀ st : SelectStatement, st.filter = some Demo.partlyAbsentLines → st.whereLines =
        ["where", "\t(", "\t\t(", "\t\t\ts.last_name is null", "\t\t)", "\t)"] := by
  obtain ⟨m, hm, -, hread, hprinted⟩ := reading_of_compile Demo.studentScope Demo.partlyAbsent {} {}
    Demo.partlyAbsentLines rfl fun _ => true
  have hvalue :
      Yields (Demo.partlyAbsent.meaning Demo.studentScope fun _ => true) {} (some true) {} := rfl
  have hm : m = some true := (yields_unique hm hvalue).1
  refine ⟨rfl, hread true hm, fun st hst => ?_⟩
  rw [(hprinted st hst).1, hm]
  decide +kernel

end SqlSelect
