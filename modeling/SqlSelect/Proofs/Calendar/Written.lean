import Mathlib.Algebra.Ring.Nat
import Mathlib.Data.List.TakeWhile
import SqlSelect.Calendar.Reading
import SqlSelect.Proofs.Outcome
import SqlSelect.Proofs.Path.Reading

/-! The two written forms of a date. The first is read back as the date, and neither is shared by
two dates, whatever the sign and the length of their years. -/
namespace SqlSelect

open SqlSelect.Path (Stops stops_cons span_iff)

namespace Text

/-- Padding puts zeros in front of the digits. -/
theorem toList_padded (width n : Nat) :
    (padded width n).toList =
      List.replicate (width - (Nat.toDigits 10 n).length) '0' ++ Nat.toDigits 10 n := by
  simp [padded, Nat.repr_eq_ofList_toDigits]

theorem isDigit_of_mem_padded {width n : Nat} {c : Char} (h : c ∈ (padded width n).toList) :
    c.isDigit = true := by
  rw [toList_padded, List.mem_append] at h
  rcases h with h | h
  · rw [List.eq_of_mem_replicate h]
    rfl
  · exact Nat.isDigit_of_mem_toDigits (by decide) (by decide) h

/-- A number that fits is padded to exactly the width. -/
theorem length_padded {width n : Nat} (hwidth : 0 < width) (hn : n < 10 ^ width) :
    (padded width n).toList.length = width := by
  have hlength := (Nat.length_toDigits_le_iff (b := 10) (by decide) hwidth).mpr hn
  rw [toList_padded, List.length_append, List.length_replicate]
  omega

/-- Leading zeros do not change a number. -/
theorem ofDigits_padded (width n : Nat) : ofDigits (padded width n).toList = n := by
  have hof (cs : List Char) : ofDigits cs = Nat.ofDigitChars 10 cs 0 := by
    rw [Nat.ofDigitChars_eq_foldl]
    simp only [ofDigits, digitValue, Nat.mul_comm]
  rw [hof, toList_padded, Nat.ofDigitChars_append, Nat.ofDigitChars_replicate_zero, Nat.mul_zero,
    Nat.ofDigitChars_ten_toDigits]

theorem exists_padded (width n : Nat) : ∃ c cs, (padded width n).toList = c :: cs := by
  refine List.exists_cons_of_ne_nil ?_
  rw [toList_padded]
  simp

theorem isBlank_of_isDigit {c : Char} (h : c.isDigit = true) : isBlank c = false := by
  obtain ⟨hlow, hhigh⟩ : 48 ≤ c.toNat ∧ c.toNat ≤ 57 := by
    simpa [Char.isDigit, UInt32.le_iff_toNat_le] using h
  simp only [isBlank, Bool.or_eq_false_iff, Bool.and_eq_false_iff, decide_eq_false_iff_not,
    beq_eq_false_iff_ne]
  omega

theorem dropWhile_isBlank {c : Char} (h : isBlank c = false) (cs : List Char) :
    (c :: cs).dropWhile isBlank = c :: cs :=
  List.dropWhile_cons_of_neg (by simp [h])

end Text

open Text

namespace Date

variable {rest : List Char}

/-- A run of digits is read as its number, up to a character that is no digit. -/
theorem readDigits_append {limit : Nat} {ds : List Char} (hds : ∀ c ∈ ds, c.isDigit = true)
    (hne : ds ≠ []) (hlimit : ds.length ≤ limit) (hrest : Stops Char.isDigit rest) :
    readDigits limit (ds ++ rest) = .ok (ofDigits ds, rest) := by
  obtain ⟨htake, -⟩ := (span_iff Char.isDigit).mpr ⟨rfl, hds, hrest⟩
  obtain ⟨c, cs, rfl⟩ := List.exists_cons_of_ne_nil hne
  have hc : c.isDigit = true := hds c List.mem_cons_self
  rw [List.cons_append] at htake ⊢
  simp only [readDigits, hc, if_true, htake, List.take_of_length_le hlimit]
  simp

theorem readDigits_padded {limit width n : Nat} (hlimit : (padded width n).toList.length ≤ limit)
    (hrest : Stops Char.isDigit rest) :
    readDigits limit ((padded width n).toList ++ rest) = .ok (n, rest) := by
  obtain ⟨c, cs, hcons⟩ := exists_padded width n
  rw [readDigits_append (fun _ => isDigit_of_mem_padded) (by simp [hcons]) hlimit hrest,
    ofDigits_padded]

theorem dropWhile_isBlank_padded (width n : Nat) (rest : List Char) :
    ((padded width n).toList ++ rest).dropWhile isBlank = (padded width n).toList ++ rest := by
  obtain ⟨c, cs, hcons⟩ := exists_padded width n
  have hc : c.isDigit = true := isDigit_of_mem_padded (hcons ▸ List.mem_cons_self)
  rw [hcons, List.cons_append]
  exact dropWhile_isBlank (isBlank_of_isDigit hc) _

/-- A padded part of a date is read back. -/
theorem readPart_padded {last n : Nat} (hn : 1 ≤ n) (hle : n ≤ last) (hlast : last < 100)
    (hrest : Stops Char.isDigit rest) :
    readPart last ((padded 2 n).toList ++ rest) = .ok (n, rest) := by
  have hlength : (padded 2 n).toList.length = 2 := length_padded (by decide) (by omega)
  rw [readPart, dropWhile_isBlank_padded, readDigits_padded (Nat.le_of_eq hlength) hrest,
    Except.ok_bind]
  simp [hn, hle]

theorem ne_cons_of_not_isDigit {width n : Nat} {c : Char} (hc : c.isDigit = false)
    (cs : List Char) : (padded width n).toList ++ rest ≠ c :: cs := by
  obtain ⟨d, ds, hcons⟩ := exists_padded width n
  intro h
  rw [hcons, List.cons_append] at h
  obtain ⟨rfl, -⟩ := List.cons.inj h
  have hd : d.isDigit = true := isDigit_of_mem_padded (hcons ▸ List.mem_cons_self)
  rw [hd] at hc
  cases hc

/-- The years of dates are among the years that can be read. -/
theorem isReadable_year {year : Int} (hlow : Calendar.firstYear ≤ year)
    (hhigh : year ≤ Calendar.lastYear) :
    (-Int.pow 2 31 ≤ year && year < Int.pow 2 31) = true := by
  have hfirst : -Int.pow 2 31 ≤ Calendar.firstYear := by decide
  have hlast : Calendar.lastYear < Int.pow 2 31 := by decide
  rw [Bool.and_eq_true, decide_eq_true_eq, decide_eq_true_eq]
  exact ⟨Int.le_trans hfirst hlow, Int.lt_of_le_of_lt hhigh hlast⟩

/-- A year is read to its end, with a sign or without. -/
theorem readYear_yearText {year : Int} (hlow : Calendar.firstYear ≤ year)
    (hhigh : year ≤ Calendar.lastYear) (hrest : Stops Char.isDigit rest) :
    readYear ((yearText year).toList ++ rest) = .ok (year, rest) := by
  -- Behind a sign as many digits are read as there are characters.
  have hdigits : readDigits ((padded 4 year.natAbs).toList ++ rest).length
      ((padded 4 year.natAbs).toList ++ rest) = .ok (year.natAbs, rest) :=
    readDigits_padded (by simp) hrest
  unfold yearText
  split
  · next hneg =>
    have hyear : -(year.natAbs : Int) = year := by omega
    have hsign : "-".toList = ['-'] := rfl
    rw [String.toList_append, hsign, List.append_assoc, List.singleton_append, readYear,
      dropWhile_isBlank rfl]
    simp only [hdigits]
    rw [Except.ok_bind, hyear, pure_bind]
    exact if_pos (isReadable_year hlow hhigh)
  · split
    · next hneg hlarge =>
      have hyear : (year.natAbs : Int) = year := by omega
      have hsign : "+".toList = ['+'] := rfl
      rw [String.toList_append, hsign, List.append_assoc, List.singleton_append, readYear,
        dropWhile_isBlank rfl]
      simp only [hdigits]
      rw [Except.ok_bind, hyear, pure_bind]
      exact if_pos (isReadable_year hlow hhigh)
    · next hneg hsmall =>
      have hyear : (year.natAbs : Int) = year := by omega
      have hlength : (padded 4 year.natAbs).toList.length = 4 :=
        length_padded (by decide) (by omega)
      rw [readYear, dropWhile_isBlank_padded]
      split
      · next heq => exact absurd heq (ne_cons_of_not_isDigit rfl _)
      · next heq => exact absurd heq (ne_cons_of_not_isDigit rfl _)
      · rw [readDigits_padded (Nat.le_of_eq hlength) hrest, Except.ok_bind]
        dsimp only
        rw [hyear, pure_bind]
        exact if_pos (isReadable_year hlow hhigh)

theorem stops_nil : Stops Char.isDigit [] := by simp [Stops]

theorem stops_dash (cs : List Char) : Stops Char.isDigit ('-' :: cs) :=
  stops_cons.mpr rfl

section Parts

variable (d : Date) (hrest : Stops Char.isDigit rest)

theorem month_range : 1 ≤ d.month ∧ d.month ≤ 12 := by
  obtain ⟨-, -, hlow, hhigh, -⟩ := d.isDate
  exact ⟨hlow, hhigh⟩

theorem day_range : 1 ≤ d.day ∧ d.day ≤ 31 := by
  obtain ⟨-, -, -, -, hlow, hhigh⟩ := d.isDate
  refine ⟨hlow, hhigh.trans ?_⟩
  unfold Calendar.daysIn
  split <;> try decide
  split <;> decide

include hrest

/-- The year is read back, with a sign or without one. -/
theorem readYear_year : readYear ((yearText d.year).toList ++ rest) = .ok (d.year, rest) := by
  obtain ⟨hfirst, hlast, -⟩ := d.isDate
  exact readYear_yearText hfirst hlast hrest

theorem readPart_month : readPart 12 ((padded 2 d.month).toList ++ rest) = .ok (d.month, rest) :=
  readPart_padded d.month_range.1 d.month_range.2 (by decide) hrest

theorem readPart_day : readPart 31 ((padded 2 d.day).toList ++ rest) = .ok (d.day, rest) :=
  readPart_padded d.day_range.1 d.day_range.2 (by decide) hrest

end Parts

/-- A written date is read back. -/
theorem ofIsoText_isoText (d : Date) : ofIsoText d.isoText = .ok d := by
  have htext : d.isoText.toList = (yearText d.year).toList ++
      '-' :: ((padded 2 d.month).toList ++ '-' :: ((padded 2 d.day).toList ++ [])) := by
    simp [isoText]
  have hdash (cs : List Char) : readDash ('-' :: cs) = .ok cs := rfl
  rw [ofIsoText, htext, d.readYear_year (stops_dash _), Except.ok_bind]
  dsimp only
  rw [hdash, Except.ok_bind, d.readPart_month (stops_dash _), Except.ok_bind]
  dsimp only
  rw [hdash, Except.ok_bind, d.readPart_day stops_nil, Except.ok_bind]
  dsimp only
  rw [ofParts?_parts]
  rfl

/-- No two months have one name. -/
theorem monthName_injective {m n : Nat} (hm : 1 ≤ m ∧ m ≤ 12) (hn : 1 ≤ n ∧ n ≤ 12)
    (h : monthName m = monthName n) : m = n := by
  have hall : ∀ m < 13, ∀ n < 13, 1 ≤ m → 1 ≤ n → monthName m = monthName n → m = n := by decide
  exact hall m (Nat.lt_succ_of_le hm.2) n (Nat.lt_succ_of_le hn.2) hm.1 hn.1 h

theorem length_monthName (m : Nat) : (monthName m).toList.length = 3 := by
  unfold monthName
  split <;> rfl

/-- Day, month and year are found again in the text. -/
theorem sqlText_injective : Function.Injective sqlText := by
  intro d d' h
  have htext (d : Date) : d.sqlText.toList = (padded 2 d.day).toList ++
      '-' :: ((monthName d.month).toList ++ '-' :: ((yearText d.year).toList ++ [])) := by
    simp [sqlText]
  have hread := congrArg (readPart 31 ·.toList) h
  simp only [htext, readPart_day _ (stops_dash _), Except.ok.injEq, Prod.mk.injEq,
    List.cons.injEq, true_and] at hread
  obtain ⟨hday, hrest⟩ := hread
  obtain ⟨hname, hyearText⟩ :=
    List.append_inj hrest ((length_monthName _).trans (length_monthName _).symm)
  have hmonth : d.month = d'.month :=
    monthName_injective d.month_range d'.month_range (String.toList_inj.mp hname)
  have hread := congrArg readYear (List.cons.inj hyearText).2
  rw [d.readYear_year stops_nil, d'.readYear_year stops_nil] at hread
  have hyear : d.year = d'.year := (Prod.mk.inj (Except.ok.inj hread)).1
  cases d
  cases d'
  cases hyear
  cases hmonth
  cases hday
  rfl

end Date

end SqlSelect
