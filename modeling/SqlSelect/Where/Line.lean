import SqlSelect.Condition
/-!
Lines of a `where` block.
-/

namespace SqlSelect

-- The depth is the number of leading tabs.
inductive WhereLine where
  | condition (depth : Nat) (connective : Option LogicalOp) (text : String)
  -- The connective of a group in parentheses, on a line of its own.
  | connective (depth : Nat) (op : LogicalOp)
  | opening (depth : Nat)
  | closing (depth : Nat)
deriving DecidableEq

namespace WhereLine

def depth : WhereLine → Nat
  | condition d _ _ => d
  | connective d _ => d
  | opening d => d
  | closing d => d

def isAlwaysTrue : WhereLine → Bool
  | condition _ _ text => text == alwaysTrue
  | _ => false

def text (l : WhereLine) : String :=
  Text.tabs l.depth ++
    match l with
    | condition _ (some op) text => op.sql ++ " " ++ text
    | condition _ none text => text
    | connective _ op => op.sql
    | opening _ => "("
    | closing _ => ")"

end WhereLine

end SqlSelect
