import SqlSelect.Alias
/-!
Joins: three ways to declare one, all resolved into equalities of columns.
-/

namespace SqlSelect

inductive JoinKind where
  | inner
  | left
  | right
  | fullOuter
deriving DecidableEq

def JoinKind.keyword : JoinKind → String
  | inner => "inner"
  | left => "left"
  | right => "right"
  | fullOuter => "full outer"

inductive JoinSpec where
  -- The foreign key equals the target's primary key.
  | key (source : Entity) (foreignKey : String) (target : Entity)
  -- Equalities of paths, joined by `&&`.
  | text (conditions : String)
  -- A conjunction of equalities of columns.
  | predicate (p : Predicate)

structure JoinCondition where
  left : ResolvedColumn
  right : ResolvedColumn

structure JoinClause where
  kind : JoinKind
  table : String
  qualifier : String
  conditions : List JoinCondition

def Predicate.columnPairs : Predicate → Except Fault (List (ColumnRef × ColumnRef))
  | .logical .and p q => do
    let left ← p.columnPairs
    let right ← q.columnPairs
    pure (left ++ right)
  | .condition (.compare (.column l) .eq (.column r)) => .ok [(l, r)]
  | p => .error (.invalidJoin (.notAnEquality p))

namespace JoinSpec

def pairs (names : Resolver) : JoinSpec → Except Fault (List (ColumnRef × ColumnRef))
  | key source foreignKey target => do
    let k ← names.primaryKey target
    pure [(.property source foreignKey, .property target k)]
  | text conditions =>
    match PathEquality.parseAll conditions with
    | .ok es => .ok (es.map fun e => (.path e.left.text, .path e.right.text))
    | .error cause => .error (.invalidJoin (.text cause))
  | predicate p => p.columnPairs

def resolveConditions (aliases : AliasRegistry) (names : Resolver) :
    List (ColumnRef × ColumnRef) → Except Fault (List JoinCondition)
  | [] => .ok []
  | (l, r) :: rest => do
    let left ← aliases.resolve names l
    let right ← aliases.resolve names r
    let others ← resolveConditions aliases names rest
    pure (⟨left, right⟩ :: others)

-- The joined table is the right-hand side of the first equality.
def resolve (spec : JoinSpec) (kind : JoinKind) (aliases : AliasRegistry) (names : Resolver) :
    Except Fault JoinClause := do
  let conditions ← resolveConditions aliases names (← spec.pairs names)
  match conditions with
  | [] => throw (.invalidJoin .noConditions)
  | first :: _ =>
    pure ⟨kind, names.tableName first.right.entity, first.right.qualifier, conditions⟩

end JoinSpec

def JoinCondition.text (c : JoinCondition) : String :=
  c.left.qualified ++ " = " ++ c.right.qualified

def JoinClause.lines (j : JoinClause) : List String :=
  let head := "\t\t" ++ j.kind.keyword ++ " join " ++ j.table ++ " as " ++ j.qualifier ++ " on"
  match j.conditions with
  | [] => [head]
  | c :: cs => head :: ("\t\t\t" ++ c.text) :: cs.map ("\t\t\tand " ++ ·.text)

end SqlSelect
