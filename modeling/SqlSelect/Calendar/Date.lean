import SqlSelect.Text.Basic
/-!
Calendar dates in the proleptic Gregorian calendar and their two written forms.
-/

namespace SqlSelect

namespace Calendar

def isLeap (year : Int) : Bool :=
  year % 4 = 0 && (year % 100 != 0 || year % 400 = 0)

def daysIn (year : Int) (month : Nat) : Nat :=
  match month with
  | 2 => if isLeap year then 29 else 28
  | 4 | 6 | 9 | 11 => 30
  | _ => 31

def firstYear : Int := -262143

def lastYear : Int := 262142

abbrev IsDate (year : Int) (month day : Nat) : Prop :=
  firstYear ≤ year ∧ year ≤ lastYear ∧ 1 ≤ month ∧ month ≤ 12 ∧ 1 ≤ day ∧ day ≤ daysIn year month

end Calendar

-- A date that exists; years before 1 are counted 0, -1, and so on.
structure Date where
  year : Int
  month : Nat
  day : Nat
  isDate : Calendar.IsDate year month day
deriving DecidableEq

namespace Date

def ofParts? (year : Int) (month day : Nat) : Option Date :=
  if h : Calendar.IsDate year month day then some ⟨year, month, day, h⟩ else none

/-- The parts of a date make it again. -/
theorem ofParts?_parts (d : Date) : ofParts? d.year d.month d.day = some d := by
  exact dif_pos d.isDate

-- Four digits; a year of more digits has a sign, and so has a negative one.
def yearText (year : Int) : String :=
  if year < 0 then "-" ++ Text.padded 4 year.natAbs
  else if 9999 < year then "+" ++ Text.padded 4 year.natAbs
  else Text.padded 4 year.natAbs

def monthName : Nat → String
  | 1 => "Jan" | 2 => "Feb" | 3 => "Mar" | 4 => "Apr" | 5 => "May" | 6 => "Jun"
  | 7 => "Jul" | 8 => "Aug" | 9 => "Sep" | 10 => "Oct" | 11 => "Nov" | _ => "Dec"

-- `yyyy-mm-dd`.
def isoText (d : Date) : String :=
  yearText d.year ++ "-" ++ Text.padded 2 d.month ++ "-" ++ Text.padded 2 d.day

-- `dd-Mmm-yyyy`, the form of the SQL conversion style 106.
def sqlText (d : Date) : String :=
  Text.padded 2 d.day ++ "-" ++ monthName d.month ++ "-" ++ yearText d.year

end Date

end SqlSelect
