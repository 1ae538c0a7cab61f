import SqlSelect.Toml.Atom
import SqlSelect.Toml.Tree
/-!
Reading TOML text.
-/

namespace SqlSelect.Toml

-- Blanks, line breaks and comments between the items of an array.
def skipLines? : (fuel : Nat) → List Char → Option (List Char)
  | 0, _ => none
  | fuel + 1, cs =>
    match skipBlanks cs with
    | '#' :: rest => do
      let rest ← newline? (skipComment ('#' :: rest))
      skipLines? fuel rest
    | '\n' :: rest => skipLines? fuel rest
    | '\r' :: rest => do
      let rest ← newline? ('\r' :: rest)
      skipLines? fuel rest
    | cs => some cs

mutual

-- A value at the front. `depth` more arrays and tables may be nested, and `fuel` bounds the steps;
-- two for each character are enough.
def readValue? : (fuel depth : Nat) → List Char → Option (Toml × List Char)
  | 0, _, _ => none
  | fuel + 1, depth, cs =>
    match cs with
    | '[' :: rest =>
      if depth = 0 then none
      else do
        let (items, rest) ← readItems? fuel (depth - 1) rest
        pure (array items, rest)
    | '\x7b' :: rest =>
      if depth = 0 then none
      else do
        let (assignments, rest) ← match skipBlanks rest with
          | '\x7d' :: rest => pure ([], rest)
          | rest => readAssignments? fuel (depth - 1) rest
        let t ← ofAssignments? assignments
        pure (t, rest)
    | cs => readScalar? cs

-- The items of an array up to its closing bracket; a comma may stand before that.
def readItems? : (fuel depth : Nat) → List Char → Option (List Toml × List Char)
  | 0, _, _ => none
  | fuel + 1, depth, cs => do
    match ← skipLines? (cs.length + 1) cs with
    | ']' :: rest => pure ([], rest)
    | cs =>
      let (item, rest) ← readValue? fuel depth cs
      match ← skipLines? (rest.length + 1) rest with
      | ']' :: rest => pure ([item], rest)
      | ',' :: rest =>
        let (items, rest) ← readItems? fuel depth rest
        pure (item :: items, rest)
      | _ => none

-- The assignments of a table in braces, on one line, up to the closing brace.
def readAssignments? : (fuel depth : Nat) → List Char →
    Option (List (List String × Toml) × List Char)
  | 0, _, _ => none
  | fuel + 1, depth, cs => do
    let (key, rest) ← readKey? maxNames cs
    let rest ← readMark? '=' rest
    let (value, rest) ← readValue? fuel depth (skipBlanks rest)
    match skipBlanks rest with
    | '\x7d' :: rest => pure ([(key, value)], rest)
    | ',' :: rest =>
      let (others, rest) ← readAssignments? fuel depth rest
      pure ((key, value) :: others, rest)
    | _ => none

end

def maxDepth : Nat := 79

structure Section where
  -- The header has double brackets.
  repeated : Bool
  path : List String
  assignments : List (List String × Toml)

inductive Line where
  | blank
  | header (repeated : Bool) (path : List String)
  | assignment (key : List String) (value : Toml)

def readHeader? (repeated : Bool) (cs : List Char) : Option (Line × List Char) := do
  let (path, rest) ← readKey? maxNames cs
  let rest ← readMark? ']' rest
  let rest ← if repeated then readMark? ']' rest else some rest
  pure (.header repeated path, ← endLine? rest)

def readLine? (cs : List Char) : Option (Line × List Char) :=
  match skipBlanks cs with
  | [] => some (.blank, [])
  | '#' :: rest => do
    let rest ← endLine? ('#' :: rest)
    pure (.blank, rest)
  | '\n' :: rest => some (.blank, rest)
  | '\r' :: rest => do
    let rest ← newline? ('\r' :: rest)
    pure (.blank, rest)
  | '[' :: '[' :: rest => readHeader? true rest
  | '[' :: rest => readHeader? false rest
  | cs => do
    let (key, rest) ← readKey? maxNames cs
    let rest ← readMark? '=' rest
    let rest := skipBlanks rest
    let (value, rest) ← readValue? (2 * rest.length + 2) maxDepth rest
    pure (.assignment key value, ← endLine? rest)

-- All lines; each takes at least one character.
def readLines? : (fuel : Nat) → List Char → Option (List Line)
  | _, [] => some []
  | 0, _ => none
  | fuel + 1, cs => do
    let (line, rest) ← readLine? cs
    let lines ← readLines? fuel rest
    pure (line :: lines)

-- The assignments in front of the first header, and the sections behind it.
def sections : List Line → List (List String × Toml) × List Section
  | [] => ([], [])
  | .blank :: lines => sections lines
  | .assignment key value :: lines =>
    let (first, rest) := sections lines
    ((key, value) :: first, rest)
  | .header repeated path :: lines =>
    let (first, rest) := sections lines
    ([], ⟨repeated, path, first⟩ :: rest)

def addSection (root : Members) (s : Section) : Option Members :=
  if s.repeated then Node.addElement root s.path s.assignments
  else Node.addTable root s.path s.assignments

-- The members of the table that the whole text writes; a byte order mark may stand in front.
def parse? (text : String) : Option (List (String × Toml)) := do
  let cs := match text.toList with
    | '\uFEFF' :: rest => rest
    | cs => cs
  let lines ← readLines? cs.length cs
  let (first, rest) := sections lines
  let root ← first.foldlM Node.assign []
  let root ← rest.foldlM addSection root
  pure (Node.membersToToml root)

end SqlSelect.Toml
