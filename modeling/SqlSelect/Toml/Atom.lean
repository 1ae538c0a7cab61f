import SqlSelect.Calendar.Date
import SqlSelect.Number.Reading
import SqlSelect.Toml.Basic
/-!
The parts of TOML text without parts of their own: gaps, comments, quoted texts, keys, numbers,
dates and times. A reader gives what it read and the rest.
-/

namespace SqlSelect.Toml

def skipBlanks (cs : List Char) : List Char :=
  cs.dropWhile fun c => c == ' ' || c == '\t'

-- Control characters other than the tab stand nowhere in a line.
def isControl (c : Char) : Bool :=
  (c.toNat < 0x20 && c != '\t') || c.toNat == 0x7F

def newline? : List Char → Option (List Char)
  | '\n' :: rest => some rest
  | '\r' :: '\n' :: rest => some rest
  | _ => none

def skipComment : List Char → List Char
  | '#' :: rest => rest.dropWhile fun c => !isControl c
  | cs => cs

-- Blanks, a comment if there is one, and the end of the line or of the text.
def endLine? (cs : List Char) : Option (List Char) :=
  match skipComment (skipBlanks cs) with
  | [] => some []
  | cs => newline? cs

def isHex (c : Char) : Bool :=
  c.isDigit || ('a' ≤ c && c ≤ 'f') || ('A' ≤ c && c ≤ 'F')

def hexDigit (c : Char) : Nat :=
  if c.isDigit then c.toNat - '0'.toNat
  else if 'a' ≤ c then c.toNat - 'a'.toNat + 10
  else c.toNat - 'A'.toNat + 10

def ofBase (base : Nat) (digits : List Char) : Nat :=
  digits.foldl (fun n c => n * base + hexDigit c) 0

def codePoint? (n : Nat) (cs : List Char) : Option (Char × List Char) :=
  let digits := cs.take n
  let code := ofBase 16 digits
  if digits.length = n && digits.all isHex && code.isValidChar then
    some (Char.ofNat code, cs.drop n)
  else none

def escape? : List Char → Option (Char × List Char)
  | 'b' :: rest => some ('\x08', rest)
  | 't' :: rest => some ('\t', rest)
  | 'n' :: rest => some ('\n', rest)
  | 'f' :: rest => some ('\x0c', rest)
  | 'r' :: rest => some ('\r', rest)
  | '"' :: rest => some ('"', rest)
  | '\\' :: rest => some ('\\', rest)
  | 'u' :: rest => codePoint? 4 rest
  | 'U' :: rest => codePoint? 8 rest
  | _ => none

theorem length_codePoint? {n : Nat} {cs rest : List Char} {c : Char}
    (h : codePoint? n cs = some (c, rest)) : rest.length ≤ cs.length := by
  simp only [codePoint?] at h
  split at h
  · simp only [Option.some.injEq, Prod.mk.injEq] at h
    rw [← h.2, List.length_drop]
    exact Nat.sub_le _ _
  · simp at h

theorem length_escape? {cs rest : List Char} {c : Char} (h : escape? cs = some (c, rest)) :
    rest.length < cs.length := by
  unfold escape? at h
  split at h <;>
    first
    | exact Nat.lt_succ_of_le (length_codePoint? h)
    | (simp only [Option.some.injEq, Prod.mk.injEq] at h; rw [← h.2]; exact Nat.lt_succ_self _)
    | simp at h

-- A text on one line, behind its opening quote. Only double quotes allow escapes.
def readShort? (quote : Char) (done : List Char) (cs : List Char) :
    Option (String × List Char) :=
  match cs with
  | [] => none
  | c :: rest =>
    if c = quote then some (String.ofList done.reverse, rest)
    else if c = '\\' ∧ quote = '"' then
      match h : escape? rest with
      | none => none
      | some (e, rest') =>
        have := length_escape? h
        readShort? quote (e :: done) rest'
    else if isControl c then none
    else readShort? quote (c :: done) rest
termination_by cs.length
decreasing_by all_goals simp only [List.length_cons]; omega

def skipBlankLines : List Char → List Char
  | ' ' :: rest => skipBlankLines rest
  | '\t' :: rest => skipBlankLines rest
  | '\n' :: rest => skipBlankLines rest
  | '\r' :: '\n' :: rest => skipBlankLines rest
  | cs => cs

theorem length_skipBlankLines_le (cs : List Char) : (skipBlankLines cs).length ≤ cs.length := by
  fun_induction skipBlankLines cs with
  | case1 rest ih => exact Nat.le_succ_of_le ih
  | case2 rest ih => exact Nat.le_succ_of_le ih
  | case3 rest ih => exact Nat.le_succ_of_le ih
  | case4 rest ih => exact Nat.le_succ_of_le (Nat.le_succ_of_le ih)
  | case5 => exact Nat.le_refl _

-- What follows a backslash at the end of a line, up to the next character that is not blank.
def skipLineBreak? (cs : List Char) : Option (List Char) :=
  match newline? (skipBlanks cs) with
  | none => none
  | some _ => some (skipBlankLines cs)

theorem length_skipLineBreak? {cs rest : List Char} (h : skipLineBreak? cs = some rest) :
    rest.length ≤ cs.length := by
  unfold skipLineBreak? at h
  split at h
  · simp at h
  · simp only [Option.some.injEq] at h
    rw [← h]
    exact length_skipBlankLines_le cs

-- A text over several lines, behind its opening quotes. Three quotes end it; up to two more in
-- front of those belong to the text.
def readLong? (quote : Char) (done : List Char) (cs : List Char) :
    Option (String × List Char) :=
  match cs with
  | [] => none
  | c :: rest =>
    if c = quote then
      let more := (rest.takeWhile (· == quote)).length
      let after := rest.drop more
      -- Up to two quotes are part of the text.
      if more < 2 then readLong? quote (List.replicate (more + 1) quote ++ done) after
      else
        let inside := min (more - 2) 2
        some (String.ofList (List.replicate inside quote ++ done).reverse, rest.drop (inside + 2))
    else if c = '\\' ∧ quote = '"' then
      match hb : skipLineBreak? rest with
      | some rest' =>
        have := length_skipLineBreak? hb
        readLong? quote done rest'
      | none =>
        match he : escape? rest with
        | none => none
        | some (e, rest') =>
          have := length_escape? he
          readLong? quote (e :: done) rest'
    else if c = '\r' then
      -- A line break of two characters is read as one.
      match rest with
      | '\n' :: rest => readLong? quote ('\n' :: done) rest
      | _ => none
    else if isControl c && c != '\n' then none
    else readLong? quote (c :: done) rest
termination_by cs.length
decreasing_by
  all_goals simp only [List.length_cons, List.length_drop]
  all_goals omega

-- A text over several lines begins behind a line break, if there is one at once.
def readLongBody? (quote : Char) (cs : List Char) : Option (String × List Char) :=
  readLong? quote [] ((newline? cs).getD cs)

def readQuoted? : List Char → Option (String × List Char)
  | '"' :: '"' :: '"' :: rest => readLongBody? '"' rest
  | '\'' :: '\'' :: '\'' :: rest => readLongBody? '\'' rest
  | '"' :: rest => readShort? '"' [] rest
  | '\'' :: rest => readShort? '\'' [] rest
  | _ => none

def isBareKey (c : Char) : Bool :=
  c.isAlphanum || c == '_' || c == '-'

def readName? : List Char → Option (String × List Char)
  | '"' :: rest => readShort? '"' [] rest
  | '\'' :: rest => readShort? '\'' [] rest
  | cs =>
    match cs.span isBareKey with
    | ([], _) => none
    | (name, rest) => some (String.ofList name, rest)

-- Names with points between them and blanks around them; `fuel` bounds their number.
def readKey? : (fuel : Nat) → List Char → Option (List String × List Char)
  | 0, _ => none
  | fuel + 1, cs => do
    let (name, rest) ← readName? (skipBlanks cs)
    match skipBlanks rest with
    | '.' :: rest =>
      let (names, rest) ← readKey? fuel rest
      pure (name :: names, rest)
    | rest => pure ([name], rest)

def maxNames : Nat := 79

/-! Numbers -/

-- Digits, each but the first perhaps behind `_`.
def furtherDigits (isDigit : Char → Bool) : List Char → List Char × List Char
  | '_' :: c :: rest =>
    if isDigit c then
      let (digits, rest) := furtherDigits isDigit rest
      (c :: digits, rest)
    else ([], '_' :: c :: rest)
  | c :: rest =>
    if isDigit c then
      let (digits, rest) := furtherDigits isDigit rest
      (c :: digits, rest)
    else ([], c :: rest)
  | [] => ([], [])

def readDigits? (isDigit : Char → Bool) : List Char → Option (List Char × List Char)
  | c :: rest =>
    if isDigit c then
      let (digits, rest) := furtherDigits isDigit rest
      some (c :: digits, rest)
    else none
  | [] => none

def readWhole? : List Char → Option (List Char × List Char)
  | '0' :: rest => some (['0'], rest)
  | cs => readDigits? Char.isDigit cs

def inRange (n : Int) : Bool :=
  -Int.pow 2 63 ≤ n && n < Int.pow 2 63

def readBased? (base : Nat) (isDigit : Char → Bool) (cs : List Char) :
    Option (Toml × List Char) := do
  let (digits, rest) ← readDigits? isDigit cs
  let n : Int := ofBase base digits
  if inRange n then pure (int n, rest) else none

def readInt? : List Char → Option (Toml × List Char)
  | '0' :: 'x' :: rest => readBased? 16 isHex rest
  | '0' :: 'o' :: rest => readBased? 8 (fun c => '0' ≤ c && c ≤ '7') rest
  | '0' :: 'b' :: rest => readBased? 2 (fun c => c == '0' || c == '1') rest
  | cs => do
    let (negative, cs) := Binary64.splitSign cs
    let (digits, rest) ← readWhole? cs
    let n : Int := ofBase 10 digits
    let n := if negative then -n else n
    if inRange n then pure (int n, rest) else none

def readExponent? : List Char → Option (Int × List Char)
  | c :: rest =>
    if c == 'e' || c == 'E' then do
      let (negative, rest) := Binary64.splitSign rest
      let (digits, rest) ← readDigits? Char.isDigit rest
      let n : Int := ofBase 10 digits
      pure (if negative then -n else n, rest)
    else none
  | [] => none

-- A positive float beyond all doubles is refused.
def ofNumeral? (n : Binary64.Numeral) : Option Toml :=
  let x := n.toDouble
  if x == Binary64.infinity false then none else some (float x)

def readFloat? (cs : List Char) : Option (Toml × List Char) :=
  let (negative, cs) := Binary64.splitSign cs
  match cs with
  | 'i' :: 'n' :: 'f' :: rest => some (float (Binary64.infinity negative), rest)
  | 'n' :: 'a' :: 'n' :: rest => some (float Binary64.nan, rest)
  | cs => do
    let (whole, rest) ← readWhole? cs
    match rest with
    | '.' :: rest =>
      let (fraction, rest) ← readDigits? Char.isDigit rest
      let (exponent, rest) ← match rest with
        | c :: _ => if c == 'e' || c == 'E' then readExponent? rest else some (0, rest)
        | [] => some (0, rest)
      pure (← ofNumeral? ⟨negative, whole, fraction, exponent⟩, rest)
    | rest =>
      let (exponent, rest) ← readExponent? rest
      pure (← ofNumeral? ⟨negative, whole, [], exponent⟩, rest)

/-! Dates and times -/

def readPart? (n low high : Nat) (cs : List Char) : Option (Nat × List Char) :=
  let digits := cs.take n
  let value := ofBase 10 digits
  if digits.length = n && digits.all Char.isDigit && low ≤ value && value ≤ high then
    some (value, cs.drop n)
  else none

def readMark? (mark : Char) : List Char → Option (List Char)
  | c :: rest => if c = mark then some rest else none
  | [] => none

-- `yyyy-mm-dd`, a day that exists.
def readDate? (cs : List Char) : Option (List Char) := do
  let (year, rest) ← readPart? 4 0 9999 cs
  let (month, rest) ← readPart? 2 1 12 (← readMark? '-' rest)
  let (_, rest) ← readPart? 2 1 (Calendar.daysIn year month) (← readMark? '-' rest)
  pure rest

-- `hh:mm:ss`, perhaps with a fraction of a second.
def readTime? (cs : List Char) : Option (List Char) := do
  let (_, rest) ← readPart? 2 0 23 cs
  let (_, rest) ← readPart? 2 0 59 (← readMark? ':' rest)
  let (_, rest) ← readPart? 2 0 60 (← readMark? ':' rest)
  match rest with
  | '.' :: rest =>
    match rest.span Char.isDigit with
    | ([], _) => none
    | (_, rest) => pure rest
  | rest => pure rest

def readOffset? : List Char → Option (List Char)
  | 'Z' :: rest => some rest
  | 'z' :: rest => some rest
  | c :: rest =>
    if c == '+' || c == '-' then do
      let (_, rest) ← readPart? 2 0 23 rest
      let (_, rest) ← readPart? 2 0 59 (← readMark? ':' rest)
      pure rest
    else some (c :: rest)
  | [] => some []

def readMoment? (cs : List Char) : Option (List Char) :=
  match readDate? cs with
  | none => readTime? cs
  | some rest =>
    match rest with
    | c :: after =>
      if c == 'T' || c == 't' || c == ' ' then
        match readTime? after with
        | some rest => readOffset? rest
        | none => some rest
      else some rest
    | [] => some []

def readDatetime? (cs : List Char) : Option (Toml × List Char) := do
  let rest ← readMoment? cs
  pure (datetime (String.ofList (cs.take (cs.length - rest.length))), rest)

def readScalar? : List Char → Option (Toml × List Char)
  | 't' :: 'r' :: 'u' :: 'e' :: rest => some (bool true, rest)
  | 'f' :: 'a' :: 'l' :: 's' :: 'e' :: rest => some (bool false, rest)
  | c :: rest =>
    if c == '"' || c == '\'' then do
      let (s, rest) ← readQuoted? (c :: rest)
      pure (string s, rest)
    else
      readDatetime? (c :: rest) <|> readFloat? (c :: rest) <|> readInt? (c :: rest)
  | [] => none

end SqlSelect.Toml
