import SqlSelect.Toml.Basic
/-!
Structures and simple values out of TOML.
-/

namespace SqlSelect.Toml

def slots (members : List (String × Toml)) (keys : List String) : List (Option Toml) :=
  keys.map fun key => member? key members

-- The members of a structure with the given keys; others are passed over. An array has them in
-- order, and a date and time has none of them.
def structure? (keys : List String) : Toml → Option (List (Option Toml))
  | table members => some (slots members keys)
  | array items =>
    let given := items.take keys.length
    some (given.map some ++ List.replicate (keys.length - given.length) none)
  | datetime _ => some (keys.map fun _ => none)
  | _ => none

def text? : Toml → Option String
  | string s => some s
  | _ => none

def flag? : Toml → Option Bool
  | bool b => some b
  | _ => none

def nat? (bound : Nat) : Toml → Option Nat
  | int n => if 0 ≤ n && n < bound then some n.toNat else none
  | _ => none

-- A name, or a table with it as only key over something empty.
def choice? : Toml → Option String
  | string name => some name
  | table [(name, .table [])] => some name
  | table [(name, .array [])] => some name
  | _ => none

def list? {α : Type} (read : Toml → Option α) : Toml → Option (List α)
  | array items => items.mapM read
  | _ => none

def required? {α : Type} (read : Toml → Option α) (t : Option Toml) : Option α :=
  t.bind read

def defaulted? {α : Type} (missing : α) (read : Toml → Option α) : Option Toml → Option α
  | none => some missing
  | some t => read t

end SqlSelect.Toml
