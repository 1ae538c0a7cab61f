import SqlSelect.Proofs.SelectList.Alignment
import SqlSelect.Proofs.Where.BooleanGrammar
import SqlSelect.Proofs.Where.Leaves
import SqlSelect.Statement

/-! Statements in print. A printout says what stands in the lines of a text, block by block and
without a word on how the text was made. -/
namespace SqlSelect

def separated (lines : List String) : List String :=
  lines.dropLast.map (· ++ ",") ++ lines.getLast?.toList

-- A block without lines has no word either.
def headed (word : String) : List String → List String
  | [] => []
  | lines => word :: lines

inductive ItemLine (item : String) : String → Prop
  | plain : ItemLine item ("\t" ++ item)
  | labelled (blanks : Nat) (label : String) :
      ItemLine item ("\t" ++ item ++ String.ofList (List.replicate blanks ' ') ++ "as " ++ label)

structure Printout where
  distinct : Bool
  items : List String
  source : String
  joins : List (List String)
  -- Each line by its tabs and its tokens.
  filter : List (Nat × List BooleanToken)
  ordered : List String

namespace Printout

def lines (p : Printout) (rows : List String) : List String :=
  "select" :: (if p.distinct then ["\tdistinct"] else []) ++ separated rows ++
    ("from" :: ("\t" ++ p.source) :: p.joins.flatten) ++
    headed "where" (p.filter.map fun l => BooleanToken.line l.1 l.2) ++
    headed "order by" (separated (p.ordered.map ("\t" ++ ·)))

def ShownIn (p : Printout) (ending text : String) : Prop :=
  ∃ rows, List.Forall₂ ItemLine p.items rows ∧
    text = String.join ((p.lines rows).map (· ++ ending))

def conditions (p : Printout) : List String :=
  (p.filter.flatMap (·.2)).filterMap BooleanToken.condition?

end Printout

namespace SelectStatement

def keptLines (st : SelectStatement) : List WhereLine :=
  match st.filter with
  | none => []
  | some lines => (WhereLine.stripAlwaysTrue lines).1

def printout (st : SelectStatement) : Printout where
  distinct := st.distinct
  items := st.columns.map (·.column.text)
  source := st.table ++ " as " ++ st.qualifier
  joins := st.joins.map JoinClause.lines
  filter := st.keptLines.map fun l => (l.depth, l.tokens)
  ordered := st.orderBy.map (·.qualified)

variable (st : SelectStatement)

theorem itemLine_of_row {start : Nat} {e : SelectEntry} {line : String} (h : e.Row start line) :
    ItemLine e.column.text line := by
  cases h with
  | plain hlabel => exact .plain
  | labelled hlabel gap hgap hstart => exact .labelled gap _

/-- Lines of tokens are what the block consists of, and without them there is none. -/
theorem whereLines_eq_headed : st.whereLines =
    headed "where" (st.keptLines.map fun l => BooleanToken.line l.depth l.tokens) := by
  have htexts : (fun l : WhereLine => BooleanToken.line l.depth l.tokens) = WhereLine.text :=
    funext fun l => l.text_eq_line.symm
  rw [htexts, whereLines, keptLines]
  cases st.filter with
  | none => rfl
  | some lines => cases hkept : (WhereLine.stripAlwaysTrue lines).1 <;> simp [headed, hkept]

theorem orderLines_eq_headed : st.orderLines =
    headed "order by" (separated (st.orderBy.map fun c => "\t" ++ c.qualified)) := by
  rw [orderLines]
  cases hcolumns : st.orderBy with
  | nil => rfl
  | cons c cs =>
    have hlines := commaLines_eq ((c :: cs).map fun c => "\t" ++ c.qualified)
    dsimp only
    rw [hlines]
    cases cs <;> simp [separated, headed]

/-- The lines of the printout are those of the statement. -/
theorem lines_printout : st.printout.lines
    (st.columns.map (·.line (SelectEntry.alignedWidth st.columns))) = st.lines := by
  rw [lines, whereLines_eq_headed, orderLines_eq_headed, selectLines, commaLines_eq]
  simp [printout, Printout.lines, separated, Function.comp_def, List.flatMap_def,
    String.append_assoc]

/-- The text of a statement shows its parts, each in its place. -/
theorem shownIn_text (ending : LineEnding) : st.printout.ShownIn ending.text (st.text ending) := by
  have hrows : List.Forall₂ ItemLine (st.columns.map (·.column.text))
      (st.columns.map (·.line (SelectEntry.alignedWidth st.columns))) := by
    rw [List.forall₂_map_left_iff]
    exact (SelectEntry.forall₂_row st.columns).imp fun e line => itemLine_of_row
  refine ⟨_, hrows, ?_⟩
  rw [lines_printout]
  rfl

/-- The conditions in print are the texts of the lines that are left. -/
theorem conditions_printout : st.printout.conditions = WhereLine.texts st.keptLines := by
  rw [Printout.conditions, printout, WhereLine.texts]
  induction st.keptLines with
  | nil => rfl
  | cons l lines ih =>
    rw [List.map_cons, List.flatMap_cons, List.filterMap_append, ih]
    cases l with
    | condition d op text => cases op <;> rfl
    | connective d op => rfl
    | opening d => rfl
    | closing d => rfl

end SelectStatement

end SqlSelect
