import SqlSelect.Calendar.Reading
import SqlSelect.Fault
import SqlSelect.Json.Printer
import SqlSelect.Json.Reader
/-!
Values of filters written in JSON. `{"date": "2000-01-31"}` and `{"char": "A"}` write the kinds
that JSON lacks.
-/

namespace SqlSelect

namespace Value

def ofDateText (text : String) : Except Fault Value :=
  match Date.ofIsoText text with
  | .ok d => .ok (date d)
  | .error cause => .error (.invalidValue (.dateText text cause))

def ofCharText (text : String) : Except Fault Value :=
  match text.toList with
  | [c] => .ok (char c)
  | _ => .error (.invalidValue (.notOneCharacter text))

-- An object is a date or else a character; its other members do not matter.
def ofObject (members : List (String × Json)) : Except Fault Value :=
  match Json.member? "date" members, Json.member? "char" members with
  | some (.string written), _ => ofDateText written
  | _, some (.string written) => ofCharText written
  | _, _ => .error (.invalidValue (.unsupported (Json.object members).compact))

mutual

-- The value that JSON in canonical form stands for. A whole number of more than 64 bits, sign
-- included, is a float.
def ofJson : Json → Except Fault Value
  | .null => .ok null
  | .bool b => .ok (bool b)
  | .int n => .ok (if n < 2 ^ 63 then int n else float (Binary64.ofInt n))
  | .float x => .ok (float x)
  | .string s => .ok (text s)
  | .array items => do
    let values ← allOfJson items
    pure (list values)
  | .object members => ofObject members
  | .unreadable => .error (.document .malformed)

def allOfJson : List Json → Except Fault (List Value)
  | [] => .ok []
  | j :: js => do
    let value ← ofJson j
    let values ← allOfJson js
    pure (value :: values)

end

def parseJson (text : String) : Except Fault Value :=
  match (Json.parse? text).bind Json.canonical? with
  | some j => ofJson j
  | none => .error (.document .malformed)

end Value

end SqlSelect
