/-!
Options of a build.
-/

namespace SqlSelect

inductive EmptyListPolicy where
  | fail
  | render
deriving DecidableEq

inductive LineEnding where
  | lf
  | crlf
deriving DecidableEq

def LineEnding.text : LineEnding → String
  | lf => "\n"
  | crlf => "\r\n"

structure BuildOptions where
  -- A filter against a captured null is dropped.
  ignoreNullFilters : Bool := true
  emptyInList : EmptyListPolicy := .fail
  lineEnding : LineEnding := .lf
  textParameterLength : Nat := 300
deriving DecidableEq

def LineEnding.terminate (ending : LineEnding) (lines : List String) : String :=
  String.join (lines.map (· ++ ending.text))

end SqlSelect
