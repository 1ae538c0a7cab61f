import SqlSelect.Toml.Basic
/-!
Tables under construction. A table is defined once, by a header or by dotted keys; a table that
only stands on the way to another one may still be defined by a header.
-/

namespace SqlSelect.Toml

inductive Node where
  | leaf (value : Toml)
  -- An implicit table stands on the way to another; a dotted one was made by a dotted key.
  | table (implicit dotted : Bool) (members : List (String × Node))
  -- Tables under one header in double brackets.
  | tables (elements : List (List (String × Node)))

abbrev Members := List (String × Node)

namespace Node

def find? (key : String) (members : Members) : Option Node :=
  (members.find? (·.1 == key)).map (·.2)

-- Sets a key, in its place if it is there.
def put (key : String) (node : Node) : Members → Members
  | [] => [(key, node)]
  | (k, n) :: rest => if k = key then (key, node) :: rest else (k, n) :: put key node rest

-- Changes the table at the end of a path, making the tables on the way. `change` also learns
-- whether its table was made by a dotted key. A path of a dotted key does not enter tables that are
-- defined already; of tables in double brackets, the last is meant.
def updateAt (dotted : Bool) (change : Bool → Members → Option Members) :
    (path : List String) → (isDotted : Bool) → Members → Option Members
  | [], isDotted, members => change isDotted members
  | key :: path, _, members =>
    match find? key members with
    | none => do
      let inner ← updateAt dotted change path dotted []
      pure (put key (table true dotted inner) members)
    | some (leaf _) => none
    | some (table implicit isDotted inner) =>
      if dotted && !implicit then none
      else do
        let inner ← updateAt dotted change path isDotted inner
        pure (put key (table implicit isDotted inner) members)
    | some (tables elements) => do
      let last ← elements.getLast?
      let last ← updateAt dotted change path false last
      pure (put key (tables (elements.dropLast ++ [last])) members)

def assign (members : Members) (assignment : List String × Toml) : Option Members := do
  let path := assignment.1.dropLast
  let key ← assignment.1.getLast?
  updateAt true (fun isDotted inner =>
    -- Only dotted keys add to a table that a dotted key made, and to no other one.
    if isDotted == path.isEmpty then none
    else match find? key inner with
      | some _ => none
      | none => some (put key (leaf assignment.2) inner)) path false members

def addTable (root : Members) (path : List String) (assignments : List (List String × Toml)) :
    Option Members := do
  let key ← path.getLast?
  updateAt false (fun _ outer => do
    let start ← match find? key outer with
      | none => some []
      | some (table true false inner) => some inner
      | some _ => none
    let inner ← assignments.foldlM assign start
    pure (put key (table false false inner) outer)) path.dropLast false root

def addElement (root : Members) (path : List String) (assignments : List (List String × Toml)) :
    Option Members := do
  let key ← path.getLast?
  updateAt false (fun _ outer => do
    let elements ← match find? key outer with
      | none => some []
      | some (tables elements) => some elements
      | some _ => none
    let inner ← assignments.foldlM assign []
    pure (put key (tables (elements ++ [inner])) outer)) path.dropLast false root

mutual

def toToml : Node → Toml
  | leaf value => value
  | table _ _ members => .table (membersToToml members)
  | tables elements => .array (elementsToToml elements)

def membersToToml : List (String × Node) → List (String × Toml)
  | [] => []
  | (key, node) :: rest => (key, node.toToml) :: membersToToml rest

def elementsToToml : List (List (String × Node)) → List Toml
  | [] => []
  | members :: rest => .table (membersToToml members) :: elementsToToml rest

end

end Node

def ofAssignments? (assignments : List (List String × Toml)) : Option Toml := do
  let members ← assignments.foldlM Node.assign []
  pure (.table (Node.membersToToml members))

end SqlSelect.Toml
