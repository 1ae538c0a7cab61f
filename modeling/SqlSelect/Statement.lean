import SqlSelect.Join
import SqlSelect.SelectList
import SqlSelect.Where.Cleanup
/-!
A `select` statement of resolved parts, and its text.
-/

namespace SqlSelect

structure SelectStatement where
  distinct : Bool := false
  columns : List SelectEntry
  table : String
  qualifier : String
  joins : List JoinClause := []
  filter : Option (List WhereLine) := none
  orderBy : List ResolvedColumn := []

namespace SelectStatement

def whereLines (s : SelectStatement) : List String :=
  match s.filter with
  | none => []
  | some lines =>
    match (WhereLine.stripAlwaysTrue lines).1 with
    | [] => []
    | lines => "where" :: lines.map (·.text)

def orderLines (s : SelectStatement) : List String :=
  match s.orderBy with
  | [] => []
  | columns => "order by" :: commaLines (columns.map ("\t" ++ ·.qualified))

def lines (s : SelectStatement) : List String :=
  "select" :: selectLines s.distinct s.columns ++
    "from" :: ("\t" ++ s.table ++ " as " ++ s.qualifier) ::
      (s.joins.flatMap JoinClause.lines ++ s.whereLines ++ s.orderLines)

def text (s : SelectStatement) (ending : LineEnding) : String :=
  ending.terminate s.lines

end SelectStatement

end SqlSelect
