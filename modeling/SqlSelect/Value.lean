import SqlSelect.Number.Shortest
import SqlSelect.Calendar.Date
/-!
Values that filters compare with, and captured variables.
-/

namespace SqlSelect

inductive Value where
  | null
  | bool (b : Bool)
  | int (n : Int)
  | float (x : Binary64)
  | char (c : Char)
  | text (s : String)
  | date (d : Date)
  | list (items : List Value)

inductive ValueKind where
  | null
  | bool
  | int
  | float
  | char
  | text
  | date
  | list
deriving DecidableEq

def ValueKind.name : ValueKind → String
  | null => "null"
  | bool => "bool"
  | int => "int"
  | float => "float"
  | char => "char"
  | text => "text"
  | date => "date"
  | list => "list"

namespace Value

def kind : Value → ValueKind
  | null => .null
  | bool _ => .bool
  | int _ => .int
  | float _ => .float
  | char _ => .char
  | text _ => .text
  | date _ => .date
  | list _ => .list

def isNull : Value → Bool
  | null => true
  | _ => false

def isDate : Value → Bool
  | date _ => true
  | _ => false

mutual

def explain : Value → String
  | null => "null"
  | bool b => if b then "true" else "false"
  | int n => Text.decimal n
  | float x => x.text
  | char c => "'" ++ String.singleton c ++ "'"
  | text s => "\"" ++ s ++ "\""
  | date d => d.isoText
  | list items => "[" ++ String.intercalate ", " (explainAll items) ++ "]"

def explainAll : List Value → List String
  | [] => []
  | v :: vs => v.explain :: explainAll vs

end

end Value

-- A variable of the calling program, with the value it had.
structure Variable where
  name : String
  value : Value

end SqlSelect
