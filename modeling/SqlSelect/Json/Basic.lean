import SqlSelect.Number.Shortest
import SqlSelect.Text.Basic
/-!
JSON values. An object keeps its members as they were written, repeated keys included; the
canonical form has each key once, in order.
-/

namespace SqlSelect

inductive Json where
  | null
  | bool (b : Bool)
  -- From `-2 ^ 63` to `2 ^ 64 - 1`.
  | int (n : Int)
  | float (x : Binary64)
  | string (s : String)
  | array (items : List Json)
  | object (members : List (String × Json))
  -- A value that can be passed over and not read: a number beyond all floats, a text with half of a
  -- surrogate pair, or arrays and objects that are nested too deeply.
  | unreadable

namespace Json

-- Keeps the keys in order; a key that is there gets the new value.
def insertMember (key : String) (value : Json) :
    List (String × Json) → List (String × Json)
  | [] => [(key, value)]
  | (k, v) :: rest =>
    if key = k then (key, value) :: rest
    else if key < k then (key, value) :: (k, v) :: rest
    else (k, v) :: insertMember key value rest

mutual

-- The value with the keys of its objects in order, of a repeated key the last. There is none if a
-- part cannot be read.
def canonical? : Json → Option Json
  | unreadable => none
  | array items => do
    let items ← canonicalAll? items
    pure (array items)
  | object members => do
    let members ← canonicalMembers? [] members
    pure (object members)
  | j => some j

def canonicalAll? : List Json → Option (List Json)
  | [] => some []
  | j :: js => do
    let j ← j.canonical?
    let js ← canonicalAll? js
    pure (j :: js)

def canonicalMembers? (done : List (String × Json)) :
    List (String × Json) → Option (List (String × Json))
  | [] => some done
  | (key, j) :: rest => do
    let j ← j.canonical?
    canonicalMembers? (insertMember key j done) rest

end

def isReadable (j : Json) : Bool :=
  j.canonical?.isSome

-- The last value of a key.
def member? (key : String) (members : List (String × Json)) : Option Json :=
  (members.reverse.find? (·.1 == key)).map (·.2)

def membersNamed (key : String) (members : List (String × Json)) : List Json :=
  (members.filter (·.1 == key)).map (·.2)

end Json

end SqlSelect
