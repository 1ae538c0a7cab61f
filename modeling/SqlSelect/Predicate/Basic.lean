import SqlSelect.Schema.Entity
import SqlSelect.Value
/-!
Filters: conditions on columns, joined by `and` and `or`.
-/

namespace SqlSelect

inductive ColumnRef where
  | property (entity : Entity) (name : String)
  -- `alias.Property`, read when the column is resolved.
  | path (text : String)

inductive Operand where
  | column (c : ColumnRef)
  | captured (v : Variable)
  | literal (v : Value)
  -- A date given by numbers, which need not exist.
  | dateParts (year : Int) (month day : Nat)

inductive CompareOp where
  | eq
  | ne
  | gt
  | gte
  | lt
  | lte
deriving DecidableEq

def CompareOp.sql : CompareOp → String
  | eq => "="
  | ne => "!="
  | gt => ">"
  | gte => ">="
  | lt => "<"
  | lte => "<="

inductive LogicalOp where
  | and
  | or
deriving DecidableEq

def LogicalOp.sql : LogicalOp → String
  | and => "and"
  | or => "or"

inductive ListSource where
  | values (items : List Value)
  | captured (v : Variable)

inductive PatternSource where
  | text (t : Option String)
  | captured (v : Variable)

inductive PatternShape where
  | like
  | notLike
  | startsWith
  | endsWith
deriving DecidableEq

inductive Condition where
  | compare (left : Operand) (op : CompareOp) (right : Operand)
  | inList (column : ColumnRef) (negated : Bool) (items : ListSource)
  | pattern (column : ColumnRef) (shape : PatternShape) (source : PatternSource)
  | isNull (column : ColumnRef) (negated : Bool)

inductive Predicate where
  | condition (c : Condition)
  | logical (op : LogicalOp) (left right : Predicate)

namespace Predicate

def and (p q : Predicate) : Predicate := logical .and p q

def or (p q : Predicate) : Predicate := logical .or p q

-- The left-nested chain of the predicates; none of an empty list.
def chain? (op : LogicalOp) : List Predicate → Option Predicate
  | [] => none
  | p :: ps => some (ps.foldl (logical op) p)

def all? (ps : List Predicate) : Option Predicate := chain? .and ps

def any? (ps : List Predicate) : Option Predicate := chain? .or ps

def conditions : Predicate → List Condition
  | condition c => [c]
  | logical _ p q => p.conditions ++ q.conditions

end Predicate

end SqlSelect
