import SqlSelect.Alias
/-!
The select list, with its `as` clauses aligned.
-/

namespace SqlSelect

inductive SelectColumn where
  | column (c : ResolvedColumn)
  -- A bound parameter, by its name.
  | parameter (name : String)
  | null

namespace SelectColumn

def text : SelectColumn → String
  | column c => c.qualified
  | parameter name => name
  | null => "null"

-- Room that the column takes, in bytes; a null is counted as fifteen.
def width : SelectColumn → Nat
  | null => 15
  | column c => Text.byteLength c.qualifier.toList + 1 + Text.byteLength c.column.toList + 4
  | parameter name => Text.byteLength name.toList + 4

def isNull : SelectColumn → Bool
  | null => true
  | _ => false

end SelectColumn

structure SelectEntry where
  column : SelectColumn
  label : Option String := none

namespace SelectEntry

-- Two more than the first multiple of ten above every width.
def alignedWidth (entries : List SelectEntry) : Nat :=
  let widest := (entries.map (·.column.width)).foldl max 0
  (widest / 10 + 1) * 10 + 2

def line (width : Nat) (e : SelectEntry) : String :=
  match e.column, e.label with
  | .null, some label => "\tnull" ++ Text.spaces (width - 7) ++ "as " ++ label
  | c, some label => "\t" ++ c.text ++ Text.spaces (width - c.width) ++ " as " ++ label
  | c, none => "\t" ++ c.text

def isNamelessNull (e : SelectEntry) : Bool :=
  e.column.isNull && e.label.isNone

end SelectEntry

def commaLines : List String → List String
  | [] => []
  | [l] => [l]
  | l :: ls => (l ++ ",") :: commaLines ls

def selectLines (distinct : Bool) (entries : List SelectEntry) : List String :=
  (if distinct then ["\tdistinct"] else []) ++
    commaLines (entries.map (·.line (SelectEntry.alignedWidth entries)))

end SqlSelect
