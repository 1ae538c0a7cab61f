import SqlSelect.Calendar.Reading
import SqlSelect.Predicate.Text
/-!
Why a query cannot be made. A fault says what happened; its wording is `Fault.message`.
-/

namespace SqlSelect

-- The kinds of statement that can be begun; only `select` can be built.
inductive StatementKind where
  | select
  | insert
  | update
  | delete
deriving DecidableEq

def StatementKind.keyword : StatementKind → String
  | select => "SELECT"
  | insert => "INSERT"
  | update => "UPDATE"
  | delete => "DELETE"

inductive UsageFault where
  | noTableAlias
  | selectAfterAliases
  | nullColumnWithoutAlias
  | orderByUnselected
  | noStatementKind
  | noColumns
  | noFromTable
  | logicalAsCondition
  | nullWithoutColumn
  | nullOrdered (op : CompareOp) (column : String)
  | nullUncompared
  | listCompared
  | notAList (variableName : String) (kind : ValueKind)
  | emptyList (column : String)
  | nameTaken (variableName parameter : String)

def UsageFault.message : UsageFault → String
  | noTableAlias => "at least one table alias must be given"
  | selectAfterAliases => "columns cannot be selected after their aliases were given"
  | nullColumnWithoutAlias =>
    "A NULL column mentioned in the SELECT clause must have a valid alias specified."
  | orderByUnselected =>
    "Only column names present in the \"select\" clause are allowed in the \"order by\" clause."
  | noStatementKind => "The type of the SQL query could not be identified."
  | noColumns => "no columns were selected"
  | noFromTable => "the FROM table was not given"
  | logicalAsCondition => "a logical expression cannot be rendered as a single condition"
  | nullWithoutColumn => "a null comparison needs a column on one side"
  | nullOrdered op column =>
    "'" ++ op.sql ++ "' cannot be applied to null (column " ++ column ++ ")"
  | nullUncompared => "null must be compared with a column"
  | listCompared => "a list cannot be compared; use is_in / not_in"
  | notAList name kind =>
    "captured variable '" ++ name ++ "' holds a " ++ kind.name ++ " value, not a list"
  | emptyList column => "the IN list for " ++ column ++ " is empty"
  | nameTaken name parameter =>
    "variable '" ++ name ++ "' collides with the generated parameter " ++ parameter ++
      "; rename the variable"

inductive Unsupported where
  | boundValue (kind : ValueKind)
  | patternValue (variableName : String) (kind : ValueKind)
  | listNotOfDates (variableName : String)
  | listOverBool (column : String)
  | statement (kind : StatementKind)

def Unsupported.message : Unsupported → String
  | boundValue kind => "a " ++ kind.name ++ " value cannot be bound as a parameter"
  | patternValue name kind => "pattern variable '" ++ name ++ "' holds a " ++ kind.name ++ " value"
  | listNotOfDates name => "captured list '" ++ name ++ "' must hold dates"
  | listOverBool column => "IN lists over bool column " ++ column
  | statement kind => kind.keyword ++ " statements"

inductive ValueFault where
  | notANumber (x : Binary64)
  | parameterName (name : String)
  | noSuchDate (year : Int) (month day : Nat)
  | listItem (kind : ValueKind) (columnKind : DataKind) (column : String)
  | dateText (text : String) (cause : DateFault)
  | notOneCharacter (text : String)
  -- An object of no known meaning, by its JSON text.
  | unsupported (json : String)

def ValueFault.message : ValueFault → String
  | notANumber x => x.text ++ " cannot be written as a SQL number"
  | parameterName name => "'" ++ name ++ "' cannot be used as a parameter name"
  | noSuchDate year month day =>
    Text.decimal year ++ "-" ++ Nat.repr month ++ "-" ++ Nat.repr day ++ " is not a valid date"
  | listItem kind columnKind column =>
    "a " ++ kind.name ++ " value cannot be listed for " ++ columnKind.name ++ " column " ++ column
  | dateText text cause => "date '" ++ text ++ "': " ++ cause.message
  | notOneCharacter text => "'" ++ text ++ "' is not a single character"
  | unsupported json => "unsupported value " ++ json

inductive PathRule where
  | columnPath
  | equalities
  | conjunctionOnly
deriving DecidableEq

def PathRule.message : PathRule → String
  | columnPath => "expected 'alias.Property'"
  | equalities => "expected equalities of the form 'a.X == b.Y' joined by '&&'"
  | conjunctionOnly => "a disjunction ('||') is not allowed"

structure PathFault where
  position : Nat
  rule : PathRule
deriving DecidableEq

def PathFault.message (f : PathFault) : String :=
  "Parse error at position " ++ Nat.repr f.position ++ ": " ++ f.rule.message

inductive JoinFault where
  | text (cause : PathFault)
  | notAnEquality (p : Predicate)
  | noConditions

def JoinFault.message : JoinFault → String
  | text cause => cause.message
  | notAnEquality p => "'" ++ p.explain ++ "' is not an equality between two columns"
  | noConditions => "no conditions"

inductive SchemaFault where
  -- The text is not TOML, or its members are not those of a schema or configuration.
  | malformed
  | repeatedProperty (entity property : String)
  | repeatedEntity (entity : String)
  | unknownEntity (entity : String)
deriving DecidableEq

def SchemaFault.message : SchemaFault → String
  | malformed => ""
  | repeatedProperty entity property =>
    "Entity \"" ++ entity ++ "\" declares property \"" ++ property ++ "\" more than once"
  | repeatedEntity entity => "Entity \"" ++ entity ++ "\" is defined more than once"
  | unknownEntity entity => "Entity \"" ++ entity ++ "\" is not defined in the schema"

inductive DocumentFault where
  -- The text is not JSON, or its members are not those of a document.
  | malformed
  | emptyList (op : LogicalOp)
  | listSource (column : String)
  | patternSource (column : String)
deriving DecidableEq

def DocumentFault.message : DocumentFault → String
  | malformed => ""
  | emptyList op => "empty \"" ++ op.sql ++ "\" list"
  | listSource column =>
    "list on '" ++ column ++ "' needs exactly one of \"values\" or \"var\""
  | patternSource column =>
    "pattern on '" ++ column ++ "' cannot have both \"pattern\" and \"var\""

inductive Fault where
  | usage (cause : UsageFault)
  | aliasConflict (name existing : String)
  | invalidAlias (name : String)
  | unknownAlias (name : String)
  | unregisteredEntity (entity : String)
  | propertyNotFound (entity property : String)
  | missingPrimaryKey (entity : String)
  | invalidJoin (cause : JoinFault)
  | columnAliasCount (aliases columns : Nat)
  | statementConflict (current requested : StatementKind)
  | path (cause : PathFault)
  | invalidValue (cause : ValueFault)
  | notImplemented (cause : Unsupported)
  | schema (cause : SchemaFault)
  | document (cause : DocumentFault)

namespace Fault

def message : Fault → String
  | usage cause => "Usage error: " ++ cause.message
  | aliasConflict name existing =>
    "The specified alias, \"" ++ name ++
      "\" has already been used for a different table entity (" ++ existing ++ ")."
  | invalidAlias name => "Invalid alias: '" ++ name ++ "'. Aliases must be non-empty identifiers"
  | unknownAlias name =>
    "The specified alias, \"" ++ name ++
      "\" does not correspond to any of the registered aliases for tables."
  | unregisteredEntity entity =>
    "The entity \"" ++ entity ++ "\" has not been registered with a table alias."
  | propertyNotFound entity property =>
    "Property \"" ++ property ++ "\" could not be located on entity, \"" ++ entity ++ "\"."
  | missingPrimaryKey entity =>
    "The entity \"" ++ entity ++ "\" does not have a property that is marked as \"primary key\"."
  | invalidJoin cause =>
    "Invalid join condition: " ++ cause.message ++ ". The expected format is: " ++
      "\"a.ForeignKeyId == b.PrimaryKeyId && a.SomeColumnName == b.SomeOtherColumnName\""
  | columnAliasCount aliases columns =>
    "The number of aliases (" ++ Nat.repr aliases ++
      ") does not match with the count of SELECT clause columns (" ++ Nat.repr columns ++ ")."
  | statementConflict current requested =>
    "Cannot accept a " ++ requested.keyword ++ " clause once another query type (" ++
      current.keyword ++ ") has already started."
  | path cause => cause.message
  | invalidValue cause => "Invalid value: " ++ cause.message
  | notImplemented cause => "Not implemented: " ++ cause.message
  | schema cause => "Configuration error: " ++ cause.message
  | document cause => "Document error: " ++ cause.message

-- A malformed text is refused without a word on where it is wrong.
def isMalformed : Fault → Bool
  | schema .malformed | document .malformed => true
  | _ => false

end Fault

-- What a run ends with if it succeeds: its value, and the state that it leaves.
def finished {α σ : Type} : Except Fault α × σ → Except Fault (α × σ)
  | (.ok a, s) => .ok (a, s)
  | (.error f, _) => .error f

/-- A run ends with a value and a state exactly if it gives both. -/
@[simp] theorem finished_eq_ok {α σ : Type} {r : Except Fault α × σ} {a : α} {s : σ} :
    finished r = .ok (a, s) ↔ r = (.ok a, s) := by
  obtain ⟨f | a', s'⟩ := r <;> simp [finished]

/-- A fault ends a run, whatever the state that it leaves. -/
@[simp] theorem finished_eq_error {α σ : Type} {r : Except Fault α × σ} {f : Fault} :
    finished r = .error f ↔ r.1 = .error f := by
  obtain ⟨f' | a, s⟩ := r <;> simp [finished]

end SqlSelect
