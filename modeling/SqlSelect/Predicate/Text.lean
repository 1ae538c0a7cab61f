import SqlSelect.Predicate.Basic
/-!
Filters as outlines show them.
-/

namespace SqlSelect

def ColumnRef.explain : ColumnRef → String
  | property e name => e.name ++ "." ++ name
  | path text => text

def Operand.explain : Operand → String
  | column c => c.explain
  | captured v => v.name
  | literal v => v.explain
  | dateParts year month day =>
    "date(" ++ Text.decimal year ++ ", " ++ Nat.repr month ++ ", " ++ Nat.repr day ++ ")"

def CompareOp.symbol : CompareOp → String
  | eq => "=="
  | op => op.sql

def LogicalOp.symbol : LogicalOp → String
  | and => "&&"
  | or => "||"

def ListSource.explain : ListSource → String
  | values items => (Value.list items).explain
  | captured v => v.name

def PatternSource.explain : PatternSource → String
  | text (some s) => "\"" ++ s ++ "\""
  | text none => "null"
  | captured v => v.name

def PatternShape.method : PatternShape → String
  | like => "like"
  | notLike => "not_like"
  | startsWith => "starts_with"
  | endsWith => "ends_with"

def Condition.explain : Condition → String
  | compare l op r => l.explain ++ " " ++ op.symbol ++ " " ++ r.explain
  | inList c negated items => c.explain ++ (if negated then " not in " else " in ") ++ items.explain
  | pattern c shape source =>
    c.explain ++ "." ++ shape.method ++ "(" ++ source.explain ++ ")"
  | isNull c negated => c.explain ++ (if negated then " is not null" else " is null")

def Predicate.explain : Predicate → String
  | condition c => c.explain
  | logical op p q => "(" ++ p.explain ++ " " ++ op.symbol ++ " " ++ q.explain ++ ")"

end SqlSelect
