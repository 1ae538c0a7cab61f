import SqlSelect.Json.Basic
import SqlSelect.Number.Stepwise
/-!
Reading JSON text.
-/

namespace SqlSelect.Json

def isSpace (c : Char) : Bool :=
  c == ' ' || c == '\t' || c == '\n' || c == '\r'

def skipSpace (cs : List Char) : List Char :=
  cs.dropWhile isSpace

def hexValue? (c : Char) : Option Nat :=
  if c.isDigit then some (c.toNat - '0'.toNat)
  else if 'a' ≤ c && c ≤ 'f' then some (c.toNat - 'a'.toNat + 10)
  else if 'A' ≤ c && c ≤ 'F' then some (c.toNat - 'A'.toNat + 10)
  else none

def hexQuad? (a b c d : Char) : Option Nat := do
  let a ← hexValue? a
  let b ← hexValue? b
  let c ← hexValue? c
  let d ← hexValue? d
  pure (((a * 16 + b) * 16 + c) * 16 + d)

def isHighSurrogate (n : Nat) : Bool := 0xD800 ≤ n && n < 0xDC00

def isLowSurrogate (n : Nat) : Bool := 0xDC00 ≤ n && n < 0xE000

def escaped? : Char → Option Char
  | '"' => some '"'
  | '\\' => some '\\'
  | '/' => some '/'
  | 'b' => some '\x08'
  | 'f' => some '\x0c'
  | 'n' => some '\n'
  | 'r' => some '\r'
  | 't' => some '\t'
  | _ => none

structure TextToken where
  -- None if half of a surrogate pair stands alone.
  text? : Option String
  rest : List Char

-- The characters up to the closing quote; those read are in `done`, last first.
def readText (readable : Bool) (done : List Char) : List Char → Option TextToken
  | '"' :: rest => some ⟨if readable then some (String.ofList done.reverse) else none, rest⟩
  | '\\' :: 'u' :: a :: b :: c :: d :: '\\' :: 'u' :: e :: f :: g :: h :: rest =>
    match hexQuad? a b c d with
    | none => none
    | some high =>
      if isHighSurrogate high then
        match hexQuad? e f g h with
        | none => none
        | some low =>
          if isLowSurrogate low then
            -- Both halves together are one character above U+FFFF.
            let code := 0x10000 + (high - 0xD800) * 0x400 + (low - 0xDC00)
            readText readable (Char.ofNat code :: done) rest
          else readText false done ('\\' :: 'u' :: e :: f :: g :: h :: rest)
      else
        -- The second escape is read again on its own: it may be the first half of a pair.
        readText (readable && !isLowSurrogate high) (Char.ofNat high :: done)
          ('\\' :: 'u' :: e :: f :: g :: h :: rest)
  | '\\' :: 'u' :: a :: b :: c :: d :: rest =>
    match hexQuad? a b c d with
    | none => none
    | some n =>
      readText (readable && !isHighSurrogate n && !isLowSurrogate n) (Char.ofNat n :: done) rest
  | '\\' :: c :: rest =>
    match escaped? c with
    | some c => readText readable (c :: done) rest
    | none => none
  | c :: rest => if c.toNat < 0x20 then none else readText readable (c :: done) rest
  | [] => none
termination_by cs => cs.length

def takeDigits? (cs : List Char) : Option (List Char × List Char) :=
  match cs.span Char.isDigit with
  | ([], _) => none
  | (digits, rest) => some (digits, rest)

-- The digits behind a point, which there must be; none where there is no point.
def takeFraction? : List Char → Option (List Char × List Char)
  | '.' :: rest => takeDigits? rest
  | cs => some ([], cs)

def takeExponent? : List Char → Option (Option Int × List Char)
  | c :: rest =>
    if c == 'e' || c == 'E' then do
      let (negative, rest) := Binary64.splitSign rest
      let (digits, rest) ← takeDigits? rest
      let n : Int := Text.ofDigits digits
      pure (some (if negative then -n else n), rest)
    else some (none, c :: rest)
  | [] => some (none, [])

-- A whole number within 64 bits is an integer, except a negative zero. Other numbers are floats,
-- read in steps.
def ofNumeral (n : Binary64.Numeral) (whole : Bool) : Json :=
  let magnitude : Int := n.digits
  let value := if n.negative then -magnitude else magnitude
  if whole && !(n.negative && magnitude = 0) && -Int.pow 2 63 ≤ value && value < Int.pow 2 64 then
    int value
  else
    let x := n.stepwise
    if x.isFinite then float x else unreadable

def readNumber? (cs : List Char) : Option (Json × List Char) := do
  let (negative, cs) := match cs with
    | '-' :: rest => (true, rest)
    | cs => (false, cs)
  let (digits, rest) ← match cs with
    | '0' :: rest => pure (['0'], rest)
    | cs => takeDigits? cs
  let (fraction, rest) ← takeFraction? rest
  let (exponent, rest) ← takeExponent? rest
  pure (ofNumeral ⟨negative, digits, fraction, exponent.getD 0⟩
    (fraction.isEmpty && exponent.isNone), rest)

mutual

-- A value at the front. `depth` more arrays and objects may be nested to be readable, and `fuel`
-- bounds the steps; two for each character are enough.
def readValue? : (fuel depth : Nat) → List Char → Option (Json × List Char)
  | 0, _, _ => none
  | fuel + 1, depth, cs =>
    match skipSpace cs with
    | 'n' :: 'u' :: 'l' :: 'l' :: rest => some (null, rest)
    | 't' :: 'r' :: 'u' :: 'e' :: rest => some (bool true, rest)
    | 'f' :: 'a' :: 'l' :: 's' :: 'e' :: rest => some (bool false, rest)
    | '"' :: rest => do
      let token ← readText true [] rest
      pure ((token.text?.map string).getD unreadable, token.rest)
    | '[' :: rest => do
      let (items, rest) ← match skipSpace rest with
        | ']' :: rest => pure ([], rest)
        | rest => readItems? fuel (depth - 1) rest
      pure (if depth = 0 then unreadable else array items, rest)
    | '{' :: rest => do
      let (members, rest) ← match skipSpace rest with
        | '}' :: rest => pure (some [], rest)
        | rest => readMembers? fuel (depth - 1) rest
      pure (if depth = 0 then unreadable else (members.map object).getD unreadable, rest)
    | cs => readNumber? cs

def readItems? : (fuel depth : Nat) → List Char → Option (List Json × List Char)
  | 0, _, _ => none
  | fuel + 1, depth, cs => do
    let (item, rest) ← readValue? fuel depth cs
    match skipSpace rest with
    | ']' :: rest => pure ([item], rest)
    | ',' :: rest =>
      let (items, rest) ← readItems? fuel depth rest
      pure (item :: items, rest)
    | _ => none

-- Members with commas between them, up to the closing brace. There is no object if a key cannot be
-- read.
def readMembers? : (fuel depth : Nat) → List Char →
    Option (Option (List (String × Json)) × List Char)
  | 0, _, _ => none
  | fuel + 1, depth, cs =>
    match skipSpace cs with
    | '"' :: rest => do
      let key ← readText true [] rest
      match skipSpace key.rest with
      | ':' :: rest =>
        let (value, rest) ← readValue? fuel depth rest
        let member := key.text?.map (·, value)
        match skipSpace rest with
        | '}' :: rest => pure (member.map ([·]), rest)
        | ',' :: rest =>
          let (members, rest) ← readMembers? fuel depth rest
          pure (do pure ((← member) :: (← members)), rest)
        | _ => none
      | _ => none
    | _ => none

end

def maxDepth : Nat := 127

def parse? (text : String) : Option Json := do
  let cs := text.toList
  let (value, rest) ← readValue? (2 * cs.length + 2) maxDepth cs
  if (skipSpace rest).isEmpty then pure value else none

end SqlSelect.Json
