import SqlSelect.Fault
/-!
Parameters and the table that collects them. Names are distinct, and the first value bound under
a name stays.
-/

namespace SqlSelect

inductive ParameterKind where
  | bigint
  | decimal
  | nchar
  | nvarchar
  | datetime
deriving DecidableEq

def ParameterKind.name : ParameterKind → String
  | bigint => "bigint"
  | decimal => "decimal"
  | nchar => "nchar"
  | nvarchar => "nvarchar"
  | datetime => "datetime"

def ParameterKind.all : List ParameterKind :=
  [bigint, decimal, nchar, nvarchar, datetime]

def ParameterKind.ofName? (name : String) : Option ParameterKind :=
  all.find? (·.name == name)

structure Parameter where
  name : String
  -- The value as text; a date is written `dd-Mmm-yyyy`.
  value : String
  kind : ParameterKind
deriving DecidableEq

-- A float as an SQL number; `NaN` and infinities have none.
def Binary64.sqlNumber (x : Binary64) : Except Fault String :=
  if x.isFinite then .ok x.text else .error (.invalidValue (.notANumber x))

def Value.classify : Value → Except Fault (ParameterKind × String)
  | .int n => .ok (.bigint, Text.decimal n)
  | .float x => (.decimal, ·) <$> x.sqlNumber
  | .char c => .ok (.nchar, String.singleton c)
  | .text s => .ok (.nvarchar, s)
  | .date d => .ok (.datetime, d.sqlText)
  | v => .error (.notImplemented (.boundValue v.kind))

structure ParameterTable where
  parameters : List Parameter := []
  -- Positions of the parameters made for literals, which later equal literals share.
  generated : List Nat := []
  valueCounter : Nat := 0
  dateCounter : Nat := 0

namespace ParameterTable

def find? (t : ParameterTable) (name : String) : Option Parameter :=
  t.parameters.find? (·.name == name)

def size (t : ParameterTable) : Nat :=
  t.parameters.length

-- Adds nothing, and says so, when the name is taken.
def add (t : ParameterTable) (p : Parameter) : ParameterTable × Bool :=
  if (t.find? p.name).isSome then (t, false)
  else ({ t with parameters := t.parameters ++ [p] }, true)

def literals (t : ParameterTable) : List Parameter :=
  t.generated.filterMap (t.parameters[·]?)

def isGenerated (t : ParameterTable) (name : String) : Bool :=
  t.literals.any (·.name == name)

def reusable? (t : ParameterTable) (kind : ParameterKind) (value : String) : Option Parameter :=
  t.literals.find? fun p => p.kind == kind && p.value == value

def variablePrefix : String := "@param_"

def bindCaptured (t : ParameterTable) (v : Variable) : Except Fault String × ParameterTable :=
  if !Text.isIdentifier v.name.toList then (.error (.invalidValue (.parameterName v.name)), t)
  else match v.value.classify with
    | .error f => (.error f, t)
    | .ok (kind, value) =>
      let name := variablePrefix ++ v.name
      if t.isGenerated name then (.error (.usage (.nameTaken v.name name)), t)
      else (.ok name, (t.add ⟨name, value, kind⟩).1)

def literalName (date : Bool) (n : Nat) : String :=
  variablePrefix ++ (if date then "date_" else "value_") ++ Nat.repr n

-- The first number from `n` on that is not taken, if one of the next `fuel` is free.
def firstFree (taken : Nat → Bool) : (fuel n : Nat) → Nat
  | 0, n => n
  | fuel + 1, n => if taken n then firstFree taken fuel (n + 1) else n

def counter (t : ParameterTable) (date : Bool) : Nat :=
  if date then t.dateCounter else t.valueCounter

-- The number of the next parameter made for a literal. A table of `k` names leaves one of `k + 1`
-- numbers free.
def freshNumber (t : ParameterTable) (date : Bool) : Nat :=
  firstFree (fun n => (t.find? (literalName date n)).isSome) t.size (t.counter date + 1)

-- The name of the next parameter made for a literal, which moves the counter on.
def freshName (t : ParameterTable) (date : Bool) : String × ParameterTable :=
  let n := t.freshNumber date
  (literalName date n, if date then { t with dateCounter := n } else { t with valueCounter := n })

-- Binds a literal, sharing the parameter of an earlier equal one.
def bindLiteral (t : ParameterTable) (v : Value) : Except Fault String × ParameterTable :=
  match v.classify with
  | .error f => (.error f, t)
  | .ok (kind, value) =>
    match t.reusable? kind value with
    | some p => (.ok p.name, t)
    | none =>
      let (name, t) := t.freshName (kind = .datetime)
      let t := { t with generated := t.generated ++ [t.size] }
      -- A new name is free, so that the answer of `add` says nothing.
      (.ok name, (t.add ⟨name, value, kind⟩).1)

def bindDate (t : ParameterTable) (d : Date) : Except Fault String × ParameterTable :=
  t.bindLiteral (.date d)

end ParameterTable

end SqlSelect
