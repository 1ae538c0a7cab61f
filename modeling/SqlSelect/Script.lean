import SqlSelect.Options
import SqlSelect.Parameter
/-!
A script that declares the parameters of a query, assigns them and runs it.
-/

namespace SqlSelect

def ParameterKind.declaredType (options : BuildOptions) : ParameterKind → String
  | bigint => "bigint"
  | decimal => "decimal(38, 10)"
  | nchar => "nchar"
  | nvarchar => "nvarchar(" ++ Nat.repr options.textParameterLength ++ ")"
  | datetime => "datetime"

namespace Parameter

def literal (p : Parameter) : String :=
  match p.kind with
  | .bigint | .decimal => p.value
  | .nchar | .nvarchar => "'" ++ String.ofList (Text.doubleQuotes p.value.toList) ++ "'"
  | .datetime => "convert(datetime, '" ++ p.value ++ "', 106)"

def declaration (options : BuildOptions) (p : Parameter) : String :=
  "declare " ++ p.name ++ " " ++ p.kind.declaredType options

def assignment (p : Parameter) : String :=
  "select " ++ p.name ++ " = " ++ p.literal

end Parameter

-- The lines before the query: declarations and assignments, a blank line behind each block.
def scriptLines (options : BuildOptions) (parameters : List Parameter) : List String :=
  parameters.map (·.declaration options) ++ "" :: parameters.map (·.assignment) ++ [""]

-- A query without parameters is a script already.
def script (options : BuildOptions) (parameters : List Parameter) (query : String) : String :=
  match parameters with
  | [] => query
  | parameters => options.lineEnding.terminate (scriptLines options parameters) ++ query

end SqlSelect
