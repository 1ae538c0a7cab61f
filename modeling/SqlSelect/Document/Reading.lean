import SqlSelect.Document.Basic
import SqlSelect.Json.Reader
/-!
Reading documents from JSON. A structure is an object, whose unknown members are passed over, or
an array of its members in order. Select items, joins and operands have several forms; the first
that fits is taken.
-/

namespace SqlSelect

namespace Json

-- A member of a structure: `some none` where it is missing. A repeated member fits nothing.
def slot? (members : List (String × Json)) (key : String) : Option (Option Json) :=
  match membersNamed key members with
  | [] => some none
  | [j] => some (some j)
  | _ => none

def slots? (members : List (String × Json)) (keys : List String) : Option (List (Option Json)) :=
  keys.mapM (slot? members)

-- The members of a structure with the given keys. An array may lack members at its end.
def structure? (keys : List String) : Json → Option (List (Option Json))
  | object members => slots? members keys
  | array items =>
    if items.length ≤ keys.length then
      some (items.map some ++ List.replicate (keys.length - items.length) none)
    else none
  | _ => none

def text? : Json → Option String
  | string s => some s
  | _ => none

def flag? : Json → Option Bool
  | bool b => some b
  | _ => none

def items? : Json → Option (List Json)
  | array items => some items
  | _ => none

-- A null is nothing.
def orNull? {α : Type} (read : Json → Option α) : Json → Option (Option α)
  | null => some none
  | j => some <$> read j

def required? {α : Type} (read : Json → Option α) (j : Option Json) : Option α :=
  j.bind read

def defaulted? {α : Type} (missing : α) (read : Json → Option α) : Option Json → Option α
  | none => some missing
  | some j => read j

-- A whole number from `low` to below `high`.
def within? (low high : Int) : Json → Option Int
  | int n => if low ≤ n && n < high then some n else none
  | _ => none

end Json

namespace WrittenAlias

def keys : List String := ["entity", "alias"]

def ofJson? (j : Json) : Option WrittenAlias :=
  match j.structure? keys with
  | some [entity, name] => do
    let entity ← Json.required? Json.text? entity
    let name ← Json.required? Json.text? name
    pure ⟨entity, name⟩
  | _ => none

end WrittenAlias

def capturedOfJson? {α : Type} (make : String → Json → α) : Json → Option α
  | .object members =>
    match Json.slots? members ["var", "value"] with
    | some [name, value] => do
      let name ← Json.required? Json.text? name
      let value ← Json.defaulted? .null Json.canonical? value
      pure (make name value)
    | _ => none
  | _ => none

def WrittenSelect.ofJson? (j : Json) : Option WrittenSelect :=
  if !j.isReadable then none
  else match j with
    | .string path => some (.column path)
    | .null => some .null
    | j => capturedOfJson? .captured j

-- A kind of join, as its name or as an object with the name over a null.
def JoinKind.ofJson? : Json → Option JoinKind
  | .string tag => ofTag? tag
  | .object [(tag, .null)] => ofTag? tag
  | _ => none

namespace WrittenJoin

def keyOfJson? (members : List (String × Json)) : Option WrittenJoin :=
  match Json.slots? members ["kind", "from", "to", "key"] with
  | some [kind, source, target, foreignKey] => do
    let kind ← Json.required? JoinKind.ofJson? kind
    let source ← Json.required? Json.text? source
    let target ← Json.required? Json.text? target
    let foreignKey ← Json.required? Json.text? foreignKey
    pure (.key kind source target foreignKey)
  | _ => none

def textOfJson? (members : List (String × Json)) : Option WrittenJoin :=
  match Json.slots? members ["kind", "on"] with
  | some [kind, conditions] => do
    let kind ← Json.required? JoinKind.ofJson? kind
    let conditions ← Json.required? Json.text? conditions
    pure (.text kind conditions)
  | _ => none

def ofJson? (j : Json) : Option WrittenJoin :=
  if !j.isReadable then none
  else match j with
    | .object members => keyOfJson? members <|> textOfJson? members
    | _ => none

end WrittenJoin

namespace WrittenOperand

def columnOfJson? : Json → Option WrittenOperand
  | .object members => do
    let col ← Json.slot? members "col"
    column <$> Json.required? Json.text? col
  | _ => none

def datePartsOfJson? : Json → Option WrittenOperand
  | .object members => do
    match ← Json.slot? members "ymd" with
    | some (.array [year, month, day]) =>
      let year ← year.within? (-Int.pow 2 31) (Int.pow 2 31)
      let month ← month.within? 0 (Int.pow 2 32)
      let day ← day.within? 0 (Int.pow 2 32)
      pure (dateParts year month.toNat day.toNat)
    | _ => none
  | _ => none

def ofJson? (j : Json) : Option WrittenOperand :=
  match j.canonical? with
  | none => none
  | some value =>
    columnOfJson? j <|> capturedOfJson? captured j <|> datePartsOfJson? j <|>
      some (literal value)

end WrittenOperand

def WrittenList.ofJson? (j : Json) : Option WrittenList :=
  match j.structure? ["column", "values", "var", "value"] with
  | some [column, values, name, value] => do
    let column ← Json.required? Json.text? column
    let values ← Json.defaulted? none
      (Json.orNull? fun j => do Json.canonicalAll? (← j.items?)) values
    let name ← Json.defaulted? none (Json.orNull? Json.text?) name
    let value ← Json.defaulted? .null Json.canonical? value
    pure ⟨column, values, name, value⟩
  | _ => none

def WrittenPattern.ofJson? (j : Json) : Option WrittenPattern :=
  match j.structure? ["column", "pattern", "var", "value"] with
  | some [column, pattern, name, value] => do
    let column ← Json.required? Json.text? column
    let pattern ← Json.defaulted? none (Json.orNull? Json.text?) pattern
    let name ← Json.defaulted? none (Json.orNull? Json.text?) name
    let value ← Json.defaulted? .null Json.canonical? value
    pure ⟨column, pattern, name, value⟩
  | _ => none

namespace WrittenFilter

def testOfJson? (tag : String) (j : Json) : Option WrittenFilter :=
  match CompareOp.all.find? (·.tag == tag), PatternShape.all.find? (·.tag == tag) with
  | some op, _ =>
    match j with
    | .array [left, right] => do
      let left ← WrittenOperand.ofJson? left
      let right ← WrittenOperand.ofJson? right
      pure (compare op left right)
    | _ => none
  | none, some shape => pattern shape <$> WrittenPattern.ofJson? j
  | none, none =>
    match tag with
    | "in" => inList false <$> WrittenList.ofJson? j
    | "not_in" => inList true <$> WrittenList.ofJson? j
    | "is_null" => isNull false <$> j.text?
    | "is_not_null" => isNull true <$> j.text?
    | _ => none

mutual

-- An object with one member, whose key is the tag of the filter.
def ofJson? : Json → Option WrittenFilter
  | .object [("and", .array items)] => group .and <$> allOfJson? items
  | .object [("or", .array items)] => group .or <$> allOfJson? items
  | .object [(tag, j)] => testOfJson? tag j
  | _ => none

def allOfJson? : List Json → Option (List WrittenFilter)
  | [] => some []
  | j :: js => do
    let filter ← ofJson? j
    let filters ← allOfJson? js
    pure (filter :: filters)

end

end WrittenFilter

namespace Document

def keys : List String :=
  ["aliases", "distinct", "select", "column_aliases", "from", "joins", "filter", "order_by"]

def list? {α : Type} (read : Json → Option α) (j : Json) : Option (List α) := do
  (← j.items?).mapM read

def ofJson? (j : Json) : Option Document :=
  match j.structure? keys with
  | some [aliases, distinct, select, columnAliases, source, joins, filter, orderBy] => do
    let aliases ← Json.required? (list? WrittenAlias.ofJson?) aliases
    let distinct ← Json.defaulted? false Json.flag? distinct
    let select ← Json.required? (list? WrittenSelect.ofJson?) select
    let columnAliases ← Json.defaulted? [] (list? Json.text?) columnAliases
    let source ← Json.required? Json.text? source
    let joins ← Json.defaulted? [] (list? WrittenJoin.ofJson?) joins
    let filter ← Json.defaulted? none (Json.orNull? WrittenFilter.ofJson?) filter
    let orderBy ← Json.defaulted? [] (list? Json.text?) orderBy
    pure ⟨aliases, distinct, select, columnAliases, source, joins, filter, orderBy⟩
  | _ => none

def parse (text : String) : Except Fault Document :=
  match (Json.parse? text).bind ofJson? with
  | some d => .ok d
  | none => .error (.document .malformed)

end Document

end SqlSelect
