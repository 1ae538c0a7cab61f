import SqlSelect.Calendar.Date
import SqlSelect.Text.Blank
/-!
Reading `yyyy-mm-dd`. The first rule that a text breaks, from left to right, decides its fault.
-/

namespace SqlSelect

inductive DateFault where
  -- The text ends where a number or a separator is needed.
  | tooShort
  | wrongCharacter
  | outOfRange
  | trailingText
deriving DecidableEq

def DateFault.message : DateFault → String
  | tooShort => "premature end of input"
  | wrongCharacter => "input contains invalid characters"
  | outOfRange => "input is out of range"
  | trailingText => "trailing input"

namespace Date

-- At least one digit, and of a run of digits at most `limit`.
def readDigits (limit : Nat) (cs : List Char) : Except DateFault (Nat × List Char) :=
  match cs with
  | [] => .error .tooShort
  | c :: _ =>
    if c.isDigit then
      let digits := (cs.takeWhile Char.isDigit).take limit
      .ok (Text.ofDigits digits, cs.drop digits.length)
    else .error .wrongCharacter

-- A signed year takes all its digits and an unsigned one at most four.
def readYear (cs : List Char) : Except DateFault (Int × List Char) := do
  let (year, rest) ← match cs.dropWhile Text.isBlank with
    | '-' :: cs =>
      let (n, rest) ← readDigits cs.length cs
      pure (-(n : Int), rest)
    | '+' :: cs =>
      let (n, rest) ← readDigits cs.length cs
      pure ((n : Int), rest)
    | cs =>
      let (n, rest) ← readDigits 4 cs
      pure ((n : Int), rest)
  if -Int.pow 2 31 ≤ year && year < Int.pow 2 31 then pure (year, rest) else throw .outOfRange

-- A number of one or two digits from 1 to `last`.
def readPart (last : Nat) (cs : List Char) : Except DateFault (Nat × List Char) := do
  let (n, rest) ← readDigits 2 (cs.dropWhile Text.isBlank)
  if 1 ≤ n && n ≤ last then pure (n, rest) else throw .outOfRange

def readDash : List Char → Except DateFault (List Char)
  | [] => .error .tooShort
  | '-' :: cs => .ok cs
  | _ => .error .wrongCharacter

-- Blanks may stand before each number.
def ofIsoText (text : String) : Except DateFault Date := do
  let (year, rest) ← readYear text.toList
  let (month, rest) ← readPart 12 (← readDash rest)
  let (day, rest) ← readPart 31 (← readDash rest)
  unless rest.isEmpty do throw .trailingText
  match ofParts? year month day with
  | some d => pure d
  | none => throw .outOfRange

end Date

end SqlSelect
