import Mathlib.Data.List.Infix
import SqlSelect.Script

/-! A reader of scripts, which knows nothing of the options of a build: declarations up to a blank
line, as many assignments up to another one, and the query. -/
namespace SqlSelect

structure ScriptParameter where
  name : String
  declaredType : String
  value : String
deriving DecidableEq

def Parameter.inScript (options : BuildOptions) (p : Parameter) : ScriptParameter :=
  ⟨p.name, p.kind.declaredType options, p.value⟩

namespace Script

def isBreak (c : Char) : Bool :=
  c == '\r' || c == '\n'

def isWordPart (c : Char) : Bool :=
  c != ' ' && !isBreak c

def isNumberPart (c : Char) : Bool :=
  c.isDigit || c == '-' || c == '.'

def readBreak : List Char → Option (List Char)
  | '\n' :: cs => some cs
  | '\r' :: '\n' :: cs => some cs
  | _ => none

-- A quoted text behind its first quote, and the rest behind its last one. Two quotes in a row are
-- one of the text.
def readQuoted : List Char → Option (List Char × List Char)
  | [] => none
  | '\'' :: '\'' :: cs => do
    let (text, cs) ← readQuoted cs
    pure ('\'' :: text, cs)
  | '\'' :: cs => some ([], cs)
  | c :: cs => do
    let (text, cs) ← readQuoted cs
    pure (c :: text, cs)

-- A quoted text, the quoted text of a date that is converted, or else a number.
def readLiteral : List Char → Option (List Char × List Char)
  | '\'' :: cs => readQuoted cs
  | cs =>
    match cs.dropPrefix? "convert(datetime, '".toList with
    | some cs => do
      let (value, cs) ← readQuoted cs
      let cs ← cs.dropPrefix? ", 106)".toList
      pure (value, cs)
    | none => some (cs.takeWhile isNumberPart, cs.dropWhile isNumberPart)

def readDeclaration (cs : List Char) : Option ((String × String) × List Char) := do
  let cs ← cs.dropPrefix? "declare ".toList
  let name := String.ofList (cs.takeWhile isWordPart)
  let cs ← (cs.dropWhile isWordPart).dropPrefix? [' ']
  let type := String.ofList (cs.takeWhile (!isBreak ·))
  let cs ← readBreak (cs.dropWhile (!isBreak ·))
  pure ((name, type), cs)

-- The name and the value of a line, or of the lines that a value with line breaks takes.
def readAssignment (cs : List Char) : Option ((String × String) × List Char) := do
  let cs ← cs.dropPrefix? "select ".toList
  let name := String.ofList (cs.takeWhile isWordPart)
  let cs ← (cs.dropWhile isWordPart).dropPrefix? " = ".toList
  let (value, cs) ← readLiteral cs
  let cs ← readBreak cs
  pure ((name, String.ofList value), cs)

theorem length_of_dropPrefix? {pre cs rest : List Char} (h : cs.dropPrefix? pre = some rest) :
    cs.length = pre.length + rest.length := by
  obtain ⟨pre', rfl, hpre⟩ := List.dropPrefix?_eq_some_iff.mp h
  rw [List.length_append, eq_of_beq hpre]

theorem length_lt_of_readBreak {cs rest : List Char} (h : readBreak cs = some rest) :
    rest.length < cs.length := by
  unfold readBreak at h
  split at h <;> cases h
  · exact Nat.lt_succ_self _
  · exact Nat.lt_succ_of_lt (Nat.lt_succ_self _)

/-- A declaration takes at least one character, so that reading ends. -/
theorem length_lt_of_readDeclaration {cs rest : List Char} {d : String × String}
    (h : readDeclaration cs = some (d, rest)) : rest.length < cs.length := by
  simp only [readDeclaration, Option.bind_eq_bind, Option.bind_eq_some_iff, Option.pure_def,
    Option.some.injEq, Prod.mk.injEq] at h
  obtain ⟨line, hline, named, hnamed, behind, hbehind, -, rfl⟩ := h
  have hline := length_of_dropPrefix? hline
  have hnamed := length_of_dropPrefix? hnamed
  have hbehind := length_lt_of_readBreak hbehind
  have hname := (line.dropWhile_sublist isWordPart).length_le
  have htype := (named.dropWhile_sublist (!isBreak ·)).length_le
  omega

-- The declarations up to a blank line, and the rest behind it.
def readDeclarations (cs : List Char) : Option (List (String × String) × List Char) :=
  match readBreak cs with
  | some cs => some ([], cs)
  | none =>
    match _h : readDeclaration cs with
    | none => none
    | some (d, rest) => do
      let (ds, rest) ← readDeclarations rest
      pure (d :: ds, rest)
termination_by cs.length
decreasing_by exact length_lt_of_readDeclaration _h

def readAssignments : Nat → List Char → Option (List (String × String) × List Char)
  | 0, cs => some ([], cs)
  | n + 1, cs => do
    let (a, cs) ← readAssignment cs
    let (as, cs) ← readAssignments n cs
    pure (a :: as, cs)

-- The parameters of a script and its query; a text that begins with no declaration is a query.
def read (cs : List Char) : Option (List ScriptParameter × List Char) :=
  if "declare".toList <+: cs then do
    let (ds, cs) ← readDeclarations cs
    let (as, cs) ← readAssignments ds.length cs
    let cs ← readBreak cs
    if as.map (·.1) = ds.map (·.1) then
      pure (List.zipWith (fun d a => ⟨d.1, d.2, a.2⟩) ds as, cs)
    else none
  else some ([], cs)

end Script

end SqlSelect
