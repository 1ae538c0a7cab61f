import SqlSelect.Fault
/-!
Column paths `alias.Property`, and the conditions of a textual join: equalities of paths joined by
`&&`, with parentheses around single equalities or around all of them.
-/

namespace SqlSelect

structure ColumnPath where
  qualifier : String
  property : String
deriving DecidableEq

def ColumnPath.text (p : ColumnPath) : String :=
  p.qualifier ++ "." ++ p.property

structure PathEquality where
  left : ColumnPath
  right : ColumnPath
deriving DecidableEq

namespace Path

-- Takes something from the front of a text. A failure keeps the text at which it stopped.
abbrev Reader (α : Type) := List Char → Except (List Char) (α × List Char)

def isGap (c : Char) : Bool :=
  c == ' ' || c == '\t' || c == '\r' || c == '\n'

def skipGap (cs : List Char) : List Char :=
  cs.dropWhile isGap

theorem length_skipGap_le (cs : List Char) : (skipGap cs).length ≤ cs.length :=
  (List.dropWhile_suffix _).length_le

def readIdentifier : Reader String
  | [] => .error []
  | c :: cs =>
    if Text.isIdentifierStart c then
      .ok (String.ofList (c :: cs.takeWhile Text.isIdentifierRest),
        cs.dropWhile Text.isIdentifierRest)
    else .error (c :: cs)

/-- An identifier takes at least one character. -/
theorem length_readIdentifier {cs rest : List Char} {s : String}
    (h : readIdentifier cs = .ok (s, rest)) : rest.length < cs.length := by
  cases cs with
  | nil => simp [readIdentifier] at h
  | cons c cs =>
    simp only [readIdentifier] at h
    split at h
    · simp only [Except.ok.injEq, Prod.mk.injEq] at h
      rw [← h.2]
      exact Nat.lt_succ_of_le (List.dropWhile_suffix _).length_le
    · simp at h

def readPath : Reader ColumnPath := fun cs =>
  match readIdentifier cs with
  | .error stop => .error stop
  | .ok (qualifier, '.' :: rest) =>
    match readIdentifier rest with
    | .error stop => .error stop
    | .ok (property, rest) => .ok (⟨qualifier, property⟩, rest)
  | .ok (_, rest) => .error rest

theorem length_readPath {cs rest : List Char} {p : ColumnPath}
    (h : readPath cs = .ok (p, rest)) : rest.length < cs.length := by
  unfold readPath at h
  split at h
  · simp at h
  · next hq =>
    split at h
    · simp at h
    · next hp =>
      simp only [Except.ok.injEq, Prod.mk.injEq] at h
      have h1 := length_readIdentifier hq
      have h2 := length_readIdentifier hp
      simp only [List.length_cons] at h1
      rw [← h.2]
      omega
  · simp at h

def readTerm : Reader ColumnPath := fun cs =>
  match readPath (skipGap cs) with
  | .error stop => .error stop
  | .ok (p, rest) => .ok (p, skipGap rest)

theorem length_readTerm {cs rest : List Char} {p : ColumnPath}
    (h : readTerm cs = .ok (p, rest)) : rest.length < cs.length := by
  unfold readTerm at h
  split at h
  · simp at h
  · next hp =>
    simp only [Except.ok.injEq, Prod.mk.injEq] at h
    have h1 := length_readPath hp
    have h2 := length_skipGap_le cs
    rw [← h.2]
    exact Nat.lt_of_le_of_lt (length_skipGap_le _) (Nat.lt_of_lt_of_le h1 h2)

def readComparison : Reader PathEquality := fun cs =>
  match readTerm cs with
  | .error stop => .error stop
  | .ok (left, '=' :: '=' :: rest) =>
    match readTerm rest with
    | .error stop => .error stop
    | .ok (right, rest) => .ok (⟨left, right⟩, rest)
  | .ok (_, rest) => .error rest

theorem length_readComparison {cs rest : List Char} {e : PathEquality}
    (h : readComparison cs = .ok (e, rest)) : rest.length < cs.length := by
  unfold readComparison at h
  split at h
  · simp at h
  · next hl =>
    split at h
    · simp at h
    · next hr =>
      simp only [Except.ok.injEq, Prod.mk.injEq] at h
      have h1 := length_readTerm hl
      have h2 := length_readTerm hr
      simp only [List.length_cons] at h1
      rw [← h.2]
      omega
  · simp at h

theorem length_of_skipGap {cs rest : List Char} {c : Char} (h : skipGap cs = c :: rest) :
    (skipGap rest).length < cs.length := by
  have h1 := length_skipGap_le cs
  have h2 := length_skipGap_le rest
  rw [h] at h1
  simp only [List.length_cons] at h1
  omega

def readEquality (cs : List Char) : Except (List Char) (PathEquality × List Char) :=
  match h : skipGap cs with
  | '(' :: rest =>
    have := length_of_skipGap h
    match readEquality (skipGap rest) with
    -- No comparison begins with a parenthesis: this fails at the parenthesis.
    | .error _ => readComparison cs
    | .ok (e, rest) =>
      match skipGap rest with
      | ')' :: rest => .ok (e, skipGap rest)
      | _ => readComparison cs
  | _ => readComparison cs
termination_by cs.length

/-- An equality takes at least one character, in parentheses or without them. -/
theorem length_readEquality {cs rest : List Char} {e : PathEquality}
    (h : readEquality cs = .ok (e, rest)) : rest.length < cs.length := by
  fun_induction readEquality cs generalizing e rest with
  | case1 => exact length_readComparison h
  | case2 cs r hg hlt e' r' hr r'' hc ih =>
    simp only [Except.ok.injEq, Prod.mk.injEq] at h
    have h1 := ih hr
    have h2 := length_of_skipGap hc
    rw [← h.2]
    omega
  | case3 => exact length_readComparison h
  | case4 => exact length_readComparison h

-- Further equalities, each behind `&&`; an `&&` without one behind it is not taken.
def readFurther (cs : List Char) : List PathEquality × List Char :=
  match cs with
  | '&' :: '&' :: rest =>
    match h : readEquality rest with
    | .error _ => ([], '&' :: '&' :: rest)
    | .ok (e, rest') =>
      have := length_readEquality h
      let (es, last) := readFurther rest'
      (e :: es, last)
  | cs => ([], cs)
termination_by cs.length
decreasing_by simp only [List.length_cons]; omega

def readConjunction : Reader (List PathEquality) := fun cs =>
  match readEquality cs with
  | .error stop => .error stop
  | .ok (e, rest) =>
    let (es, last) := readFurther rest
    .ok (e :: es, last)

def wholeConjunction (cs : List Char) : Except (List Char) (List PathEquality) :=
  match readConjunction cs with
  | .error stop => .error stop
  | .ok (es, []) => .ok es
  | .ok (_, rest) => .error rest

def enclosedConjunction? (cs : List Char) : Option (List PathEquality) :=
  match skipGap cs with
  | '(' :: rest =>
    match readConjunction (skipGap rest) with
    | .error _ => none
    | .ok (es, rest) =>
      match skipGap rest with
      | ')' :: rest => if skipGap rest = [] then some es else none
      | _ => none
  | _ => none

-- The fault of a text that broke a rule where only `stop` was left of it.
def faultAt (cs stop : List Char) (rule : PathRule) : PathFault :=
  ⟨Text.byteLength cs - Text.byteLength stop, rule⟩

end Path

def ColumnPath.parse (text : String) : Except PathFault ColumnPath :=
  let cs := text.toList
  match Path.readTerm cs with
  | .error stop => .error (Path.faultAt cs stop .columnPath)
  | .ok (p, []) => .ok p
  | .ok (_, rest) => .error (Path.faultAt cs rest .columnPath)

-- Reads `a.X == b.Y && a.Z == b.W`. A disjunction is refused before anything else.
def PathEquality.parseAll (text : String) : Except PathFault (List PathEquality) :=
  let cs := text.toList
  match Text.before? ['|', '|'] cs with
  | some before => .error ⟨Text.byteLength before, .conjunctionOnly⟩
  | none =>
    match Path.enclosedConjunction? cs with
    | some es => .ok es
    | none =>
      match Path.wholeConjunction cs with
      | .ok es => .ok es
      | .error stop => .error (Path.faultAt cs stop .equalities)

end SqlSelect
