import SqlSelect.Number.Binary64
/-!
TOML values.
-/

namespace SqlSelect

inductive Toml where
  | string (s : String)
  | int (n : Int)
  | float (x : Binary64)
  | bool (b : Bool)
  -- A date, a time or both, as written.
  | datetime (written : String)
  | array (items : List Toml)
  | table (members : List (String × Toml))

namespace Toml

def member? (key : String) (members : List (String × Toml)) : Option Toml :=
  (members.find? (·.1 == key)).map (·.2)

end Toml

end SqlSelect
