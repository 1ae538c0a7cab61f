import SqlSelect.Script
import SqlSelect.Statement
import SqlSelect.Where.Compile
/-!
A query under construction. A step that fails gives its fault and no query.
-/

namespace SqlSelect

inductive SelectItem where
  | column (c : ColumnRef)
  | captured (v : Variable)
  | null

structure Query where
  options : BuildOptions := {}
  names : Resolver := Resolver.declared
  aliases : AliasRegistry := {}
  kind : Option StatementKind := none
  distinct : Bool := false
  columns : List SelectEntry := []
  -- The columns have their labels and stay as they are.
  columnsNamed : Bool := false
  source : Option Entity := none
  joins : List JoinClause := []
  filter : Option Predicate := none
  orderBy : List ResolvedColumn := []
  parameters : ParameterTable := {}

structure BuiltQuery where
  text : String
  parameters : List Parameter
  script : String

namespace Query

def withOptions (q : Query) (options : BuildOptions) : Query :=
  { q with options }

def withResolver (q : Query) (names : Resolver) : Query :=
  { q with names }

def tableAlias (q : Query) (e : Entity) (name : String) : Except Fault Query := do
  let (_, aliases) ← finished (q.aliases.register e name)
  pure { q with aliases }

def registerAll (q : Query) : List (Entity × String) → Except Fault Query
  | [] => .ok q
  | (e, name) :: pairs => do
    let q ← q.tableAlias e name
    q.registerAll pairs

def tableAliases (q : Query) (pairs : List (Entity × String)) : Except Fault Query := do
  let q ← q.registerAll pairs
  if pairs.isEmpty then throw (.usage .noTableAlias)
  pure q

-- A query is of one kind from the first step that needs one.
def ofKind (q : Query) (requested : StatementKind) : Except Fault Query :=
  match q.kind with
  | none => .ok { q with kind := some requested }
  | some current =>
    if current = requested then .ok q else .error (.statementConflict current requested)

def makeDistinct (q : Query) : Query :=
  { q with distinct := true }

def addColumn (q : Query) (column : SelectColumn) : Query :=
  { q with columns := q.columns ++ [{ column }] }

-- Captured values are bound at once, ahead of those of the filter.
def selectItem (q : Query) : SelectItem → Except Fault Query
  | .column c => do
    let column ← q.aliases.resolve q.names c
    pure (q.addColumn (.column column))
  | .captured v => do
    let (name, parameters) ← finished (q.parameters.bindCaptured v)
    pure ({ q with parameters }.addColumn (.parameter name))
  | .null => pure (q.addColumn .null)

def selectItems (q : Query) : List SelectItem → Except Fault Query
  | [] => .ok q
  | item :: items => do
    let q ← q.selectItem item
    q.selectItems items

def select (q : Query) (items : List SelectItem) : Except Fault Query := do
  let q ← q.ofKind .select
  if q.columnsNamed then throw (.usage .selectAfterAliases)
  q.selectItems items

-- Labels columns in order; an empty label is none.
def labelColumns : List SelectEntry → List String → Except Fault (List SelectEntry)
  | e :: es, label :: labels => do
    if label.isEmpty && e.column.isNull then throw (.usage .nullColumnWithoutAlias)
    let rest ← labelColumns es labels
    pure ({ e with label := if label.isEmpty then none else some label } :: rest)
  | es, _ => .ok es

def columnAliases (q : Query) (labels : List String) : Except Fault Query := do
  if labels.length ≠ q.columns.length then
    throw (.columnAliasCount labels.length q.columns.length)
  let columns ← labelColumns q.columns labels
  pure { q with columns, columnsNamed := true }

def selectFrom (q : Query) (e : Entity) : Except Fault Query := do
  let _ ← q.aliases.aliasFor e
  pure { q with source := some e }

def join (q : Query) (kind : JoinKind) (spec : JoinSpec) : Except Fault Query := do
  let clause ← spec.resolve kind q.aliases q.names
  pure { q with joins := q.joins ++ [clause] }

def setFilter (q : Query) (p : Predicate) : Query :=
  { q with filter := some p }

def isSelected (q : Query) (c : ResolvedColumn) : Bool :=
  q.columns.any fun e =>
    match e.column with
    | .column d => d.qualifier == c.qualifier && d.property == c.property
    | _ => false

def orderColumns (q : Query) : List ColumnRef → Except Fault Query
  | [] => .ok q
  | c :: cs => do
    let column ← q.aliases.resolve q.names c
    unless q.isSelected column do throw (.usage .orderByUnselected)
    { q with orderBy := q.orderBy ++ [column] }.orderColumns cs

def startStatement (q : Query) (kind : StatementKind) (e : Entity) : Except Fault Query := do
  let q ← q.ofKind kind
  pure { q with source := some e }

def scope (q : Query) : Scope :=
  ⟨q.aliases, q.names, q.options⟩

def compileFilter (q : Query) : Except Fault (Option (List WhereLine) × ParameterTable) :=
  match q.filter with
  | none => .ok (none, q.parameters)
  | some p => do
    let (lines, t) ← finished ((p.compile q.scope).run q.parameters)
    pure (some lines, t)

def buildSelect (q : Query) : Except Fault BuiltQuery := do
  if q.columns.isEmpty then throw (.usage .noColumns)
  if q.columns.any (·.isNamelessNull) then throw (.usage .nullColumnWithoutAlias)
  let some e := q.source | throw (.usage .noFromTable)
  -- The faults of the filter come before that of the `from` entity.
  let (filter, table) ← q.compileFilter
  let qualifier ← q.aliases.aliasFor e
  let statement : SelectStatement :=
    { distinct := q.distinct, columns := q.columns, table := q.names.tableName e, qualifier
      joins := q.joins, filter, orderBy := q.orderBy }
  let text := statement.text q.options.lineEnding
  pure ⟨text, table.parameters, SqlSelect.script q.options table.parameters text⟩

def build (q : Query) : Except Fault BuiltQuery :=
  match q.kind with
  | none => .error (.usage .noStatementKind)
  | some .select => q.buildSelect
  | some kind => .error (.notImplemented (.statement kind))

end Query

end SqlSelect
