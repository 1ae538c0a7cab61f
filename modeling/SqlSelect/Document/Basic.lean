import SqlSelect.Join
import SqlSelect.Json.Basic
/-!
Queries as written in a document: names and values are texts and JSON, not yet looked up or
converted.
-/

namespace SqlSelect

structure WrittenAlias where
  entity : String
  name : String

inductive WrittenSelect where
  | column (path : String)
  | captured (variableName : String) (value : Json)
  | null

inductive WrittenJoin where
  | key (kind : JoinKind) (source target foreignKey : String)
  | text (kind : JoinKind) (conditions : String)

inductive WrittenOperand where
  | column (path : String)
  | captured (variableName : String) (value : Json)
  | dateParts (year : Int) (month day : Nat)
  | literal (value : Json)

structure WrittenList where
  column : String
  values? : Option (List Json)
  variableName? : Option String
  value : Json

structure WrittenPattern where
  column : String
  pattern? : Option String
  variableName? : Option String
  value : Json

inductive WrittenFilter where
  | group (op : LogicalOp) (items : List WrittenFilter)
  | compare (op : CompareOp) (left right : WrittenOperand)
  | inList (negated : Bool) (test : WrittenList)
  | pattern (shape : PatternShape) (test : WrittenPattern)
  | isNull (negated : Bool) (column : String)

structure Document where
  aliases : List WrittenAlias
  distinct : Bool
  select : List WrittenSelect
  columnAliases : List String
  -- The entity of the `from` clause.
  source : String
  joins : List WrittenJoin
  filter : Option WrittenFilter
  orderBy : List String

def CompareOp.tag : CompareOp → String
  | eq => "eq"
  | ne => "ne"
  | gt => "gt"
  | gte => "gte"
  | lt => "lt"
  | lte => "lte"

def CompareOp.all : List CompareOp := [eq, ne, gt, gte, lt, lte]

def PatternShape.tag : PatternShape → String
  | like => "like"
  | notLike => "not_like"
  | startsWith => "starts_with"
  | endsWith => "ends_with"

def PatternShape.all : List PatternShape := [like, notLike, startsWith, endsWith]

def JoinKind.tag : JoinKind → String
  | inner => "inner"
  | left => "left"
  | right => "right"
  | fullOuter => "full_outer"

def JoinKind.all : List JoinKind := [inner, left, right, fullOuter]

def JoinKind.ofTag? (tag : String) : Option JoinKind :=
  all.find? (·.tag == tag)

end SqlSelect
