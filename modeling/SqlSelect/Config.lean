import SqlSelect.Fault
import SqlSelect.Options
import SqlSelect.Toml.Decode
import SqlSelect.Toml.Reader
/-!
The configuration file of the command line.
-/

namespace SqlSelect

structure Config where
  schemaPath : Option String := none
  build : BuildOptions := {}

def EmptyListPolicy.ofToml? (t : Toml) : Option EmptyListPolicy := do
  match ← t.choice? with
  | "fail" => some .fail
  | "render" => some .render
  | _ => none

def LineEnding.ofToml? (t : Toml) : Option LineEnding := do
  match ← t.choice? with
  | "lf" => some .lf
  | "crlf" => some .crlf
  | _ => none

-- Members that are missing have their defaults.
def BuildOptions.ofToml? (t : Toml) : Option BuildOptions :=
  let missing : BuildOptions := {}
  let keys := ["ignore_null_filter_values", "empty_in_list", "line_ending", "text_parameter_length"]
  match t.structure? keys with
  | some [ignore, empty, ending, length] => do
    let ignoreNullFilters ← Toml.defaulted? missing.ignoreNullFilters Toml.flag? ignore
    let emptyInList ← Toml.defaulted? missing.emptyInList EmptyListPolicy.ofToml? empty
    let lineEnding ← Toml.defaulted? missing.lineEnding LineEnding.ofToml? ending
    let textParameterLength ←
      Toml.defaulted? missing.textParameterLength (Toml.nat? (Nat.pow 2 32)) length
    pure { ignoreNullFilters, emptyInList, lineEnding, textParameterLength }
  | _ => none

namespace Config

def ofToml? (members : List (String × Toml)) : Option Config := do
  let schemaPath ←
    Toml.defaulted? none (some <$> ·.text?) (Toml.member? "schema_path" members)
  let build ← Toml.defaulted? {} BuildOptions.ofToml? (Toml.member? "build" members)
  pure { schemaPath, build }

def parse (text : String) : Except Fault Config :=
  match (Toml.parse? text).bind ofToml? with
  | some c => .ok c
  | none => .error (.schema .malformed)

end Config

end SqlSelect
