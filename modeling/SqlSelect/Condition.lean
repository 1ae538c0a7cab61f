import SqlSelect.Alias
import SqlSelect.Options
import SqlSelect.Parameter
/-!
Conditions as SQL text. Numbers are written into the text; every other compared value is bound as a
parameter on the way. The parameters bound before a fault stay in the table.
-/

namespace SqlSelect

-- Making text while binding parameters.
abbrev Rendering (α : Type) := ExceptT Fault (StateM ParameterTable) α

structure Scope where
  aliases : AliasRegistry
  names : Resolver
  options : BuildOptions := {}

-- The text of a filter that does not apply.
def alwaysTrue : String := "1 == 1"

namespace Rendering

def ofExcept {α : Type} : Except Fault α → Rendering α
  | .ok a => pure a
  | .error f => throw f

def bind (step : ParameterTable → Except Fault String × ParameterTable) : Rendering String :=
  ExceptT.mk step

end Rendering

def Scope.column (s : Scope) (c : ColumnRef) : Rendering ResolvedColumn :=
  Rendering.ofExcept (s.aliases.resolve s.names c)

def Value.renderLiteral : Value → Rendering String
  | .int n => pure (Text.decimal n)
  | .float x => Rendering.ofExcept x.sqlNumber
  | .bool b => pure (if b then "1" else "0")
  | .list _ => throw (.usage .listCompared)
  | .null => throw (.usage .nullUncompared)
  | v => Rendering.bind (·.bindLiteral v)

namespace Operand

def isCapturedNull : Operand → Bool
  | captured v => v.value.isNull
  | _ => false

def isLiteralNull : Operand → Bool
  | literal v => v.isNull
  | _ => false

def column? : Operand → Option ColumnRef
  | column c => some c
  | _ => none

def render (s : Scope) : Operand → Rendering String
  | column c => ResolvedColumn.qualified <$> s.column c
  | captured v => Rendering.bind (·.bindCaptured v)
  | literal v => v.renderLiteral
  | dateParts year month day =>
    match Date.ofParts? year month day with
    | some d => Rendering.bind (·.bindDate d)
    | none => throw (.invalidValue (.noSuchDate year month day))

end Operand

-- The test for null that a comparison with null stands for.
def CompareOp.nullTest (op : CompareOp) (column : String) : Except Fault String :=
  match op with
  | .eq => .ok (column ++ " is null")
  | .ne => .ok (column ++ " is not null")
  | op => .error (.usage (.nullOrdered op column))

namespace Condition

def renderNullTest (s : Scope) (left : Operand) (op : CompareOp) (right : Operand) :
    Rendering String := do
  match left.column? <|> right.column? with
  | none => throw (.usage .nullWithoutColumn)
  | some c =>
    let column ← s.column c
    Rendering.ofExcept (op.nullTest column.qualified)

def renderCompare (s : Scope) (left : Operand) (op : CompareOp) (right : Operand) :
    Rendering String := do
  -- A captured null comes before a literal one on the other side.
  if left.isCapturedNull || right.isCapturedNull then
    if s.options.ignoreNullFilters then pure alwaysTrue
    else renderNullTest s left op right
  else if left.isLiteralNull || right.isLiteralNull then renderNullTest s left op right
  else
    -- The left operand binds its parameter first.
    let l ← left.render s
    let r ← right.render s
    pure (l ++ " " ++ op.sql ++ " " ++ r)

end Condition

-- The text to look for; none when there is nothing to test.
def PatternSource.text? : PatternSource → Except Fault (Option String)
  | .text t => .ok t
  | .captured v =>
    match v.value with
    | .null => .ok none
    | .text s => .ok (some s)
    | .char c => .ok (some (String.singleton c))
    | other => .error (.notImplemented (.patternValue v.name other.kind))

namespace PatternShape

def wildcards (cs : List Char) : List Char :=
  Text.substitute '?' ['_'] (Text.substitute '*' ['%'] cs)

def test (shape : PatternShape) (text : String) : String :=
  let quoted := Text.doubleQuotes text.toList
  match shape with
  | startsWith => "like '" ++ String.ofList quoted ++ "%'"
  | endsWith => "like '%" ++ String.ofList quoted ++ "'"
  | like => "like '%" ++ String.ofList (wildcards quoted) ++ "%'"
  | notLike => "not like '%" ++ String.ofList (wildcards quoted) ++ "%'"

end PatternShape

-- The items of a list test; none when the test is to be dropped. A captured list holds dates.
def ListSource.items? (options : BuildOptions) : ListSource → Except Fault (Option (List Value))
  | .values items => .ok (some items)
  | .captured v =>
    match v.value with
    | .list items =>
      if items.all Value.isDate then .ok (some items)
      else .error (.notImplemented (.listNotOfDates v.name))
    | other =>
      if other.isNull && options.ignoreNullFilters then .ok none
      else .error (.usage (.notAList v.name other.kind))

namespace ResolvedColumn

def mismatch (c : ResolvedColumn) (item : Value) : Fault :=
  .invalidValue (.listItem item.kind c.kind c.qualified)

-- An item of a list test, if it is of a kind that the column can hold.
def renderItem (c : ResolvedColumn) (item : Value) : Rendering String :=
  match c.kind, item with
  | .int, .int n | .decimal, .int n => pure (Text.decimal n)
  | .int, .float x | .decimal, .float x => Rendering.ofExcept x.sqlNumber
  | .text, .text _ | .text, .char _ | .char, .text _ | .char, .char _ =>
    Rendering.bind (·.bindLiteral item)
  | .datetime, .date d => pure ("convert(datetime, '" ++ d.sqlText ++ "', 106)")
  | .bool, _ => throw (.notImplemented (.listOverBool c.qualified))
  | _, item => throw (c.mismatch item)

def renderItems (c : ResolvedColumn) : List Value → Rendering (List String)
  | [] => pure []
  | item :: items => do
    let text ← c.renderItem item
    let texts ← c.renderItems items
    pure (text :: texts)

end ResolvedColumn

namespace Condition

def renderPattern (s : Scope) (column : ColumnRef) (shape : PatternShape)
    (source : PatternSource) : Rendering String := do
  let column ← s.column column
  match ← Rendering.ofExcept source.text? with
  | none => pure alwaysTrue
  | some text =>
    if text.isEmpty then pure alwaysTrue
    else pure (column.qualified ++ " " ++ shape.test text)

def renderList (s : Scope) (column : ColumnRef) (negated : Bool) (source : ListSource) :
    Rendering String := do
  let column ← s.column column
  match ← Rendering.ofExcept (source.items? s.options) with
  | none => pure alwaysTrue
  | some items =>
    if items.isEmpty && s.options.emptyInList = .fail then
      throw (.usage (.emptyList column.qualified))
    let texts ← column.renderItems items
    pure (column.qualified ++ (if negated then " not in (" else " in (") ++
      String.intercalate ", " texts ++ ")")

def render (s : Scope) : Condition → Rendering String
  | compare left op right => renderCompare s left op right
  | inList column negated source => renderList s column negated source
  | pattern column shape source => renderPattern s column shape source
  | isNull column negated => do
    let c ← s.column column
    pure (c.qualified ++ (if negated then " is not null" else " is null"))

end Condition

def Predicate.renderCondition (s : Scope) : Predicate → Rendering String
  | .condition c => c.render s
  | .logical .. => throw (.usage .logicalAsCondition)

end SqlSelect
