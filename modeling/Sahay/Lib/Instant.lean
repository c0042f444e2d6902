import Mathlib.Tactic.NormNum
import Sahay.Lib.Format

/-!
# Instants and their ISO 8601 texts

Instants are milliseconds since 1970-01-01T00:00Z on the proleptic Gregorian calendar.  Their
texts are those of ECMAScript: `YYYY-MM-DDTHH:mm:ss.sssZ`, with a sign and six digits for the
years outside 0 to 9999.
-/

namespace Sahay

/-! ## The calendar -/

structure CivilDate where
  year : ℤ
  month : ℕ
  day : ℕ
  deriving DecidableEq

/-- A day in its periods of 400 years, of 100, of 4 and of one.  Years begin in March here, so
that a leap day is the last day of its year. -/
structure DayPeriods where
  era : ℤ
  century : ℤ
  quad : ℤ
  yearOfQuad : ℤ
  dayOfYear : ℤ

/-- The periods of a day counted from 1970-01-01. -/
def periods (n : ℤ) : DayPeriods :=
  let dayOfEra := (n + 719468) % 146097
  let century := min (dayOfEra / 36524) 3
  let dayOfCentury := dayOfEra - 36524 * century
  let dayOfQuad := dayOfCentury % 1461
  let yearOfQuad := min (dayOfQuad / 365) 3
  { era := (n + 719468) / 146097
    century := century
    quad := dayOfCentury / 1461
    yearOfQuad := yearOfQuad
    dayOfYear := dayOfQuad - 365 * yearOfQuad }

namespace DayPeriods

variable (p : DayPeriods)

def year : ℤ := 400 * p.era + 100 * p.century + 4 * p.quad + p.yearOfQuad

def fromMarch : ℤ := (5 * p.dayOfYear + 2) / 153

def month : ℤ := if p.fromMarch < 10 then p.fromMarch + 3 else p.fromMarch - 9

def day : ℤ := p.dayOfYear - (153 * p.fromMarch + 2) / 5 + 1

end DayPeriods

def civilOfDays (n : ℤ) : CivilDate :=
  let p := periods n
  { year := p.year + if p.month ≤ 2 then 1 else 0
    month := p.month.toNat
    day := p.day.toNat }

def daysOfCivil (d : CivilDate) : ℤ :=
  let year := d.year - if d.month ≤ 2 then 1 else 0
  let fromMarch : ℤ := if d.month ≤ 2 then d.month + 9 else d.month - 3
  365 * year + year / 4 - year / 100 + year / 400 + (153 * fromMarch + 2) / 5 + d.day - 1 - 719468

structure DayPeriods.Of (p : DayPeriods) (n : ℤ) : Prop where
  century : 0 ≤ p.century ∧ p.century ≤ 3
  quad : 0 ≤ p.quad ∧ p.quad ≤ 24
  yearOfQuad : 0 ≤ p.yearOfQuad ∧ p.yearOfQuad ≤ 3
  dayOfYear : 0 ≤ p.dayOfYear ∧ p.dayOfYear ≤ 365
  day : n + 719468 =
    146097 * p.era + 36524 * p.century + 1461 * p.quad + 365 * p.yearOfQuad + p.dayOfYear

theorem periods_of (n : ℤ) : (periods n).Of n := by
  constructor <;> simp only [periods] <;> omega

namespace DayPeriods.Of

variable {p : DayPeriods} {n : ℤ}

theorem days_before_year (h : p.Of n) :
    365 * p.year + p.year / 4 - p.year / 100 + p.year / 400 =
      146097 * p.era + 36524 * p.century + 1461 * p.quad + 365 * p.yearOfQuad := by
  have hcentury := h.century
  have hquad := h.quad
  have hyear := h.yearOfQuad
  unfold DayPeriods.year
  omega

theorem month_range (h : p.Of n) : 1 ≤ p.month ∧ p.month ≤ 12 := by
  have hday := h.dayOfYear
  unfold DayPeriods.month DayPeriods.fromMarch
  split_ifs <;> omega

theorem day_range (h : p.Of n) : 1 ≤ p.day ∧ p.day ≤ 31 := by
  have hday := h.dayOfYear
  unfold DayPeriods.day DayPeriods.fromMarch
  omega

theorem fromMarch_eq (h : p.Of n) :
    p.fromMarch = if p.month ≤ 2 then p.month + 9 else p.month - 3 := by
  have hday := h.dayOfYear
  have hrange : 0 ≤ p.fromMarch ∧ p.fromMarch ≤ 11 := by
    unfold DayPeriods.fromMarch
    omega
  unfold DayPeriods.month
  split_ifs <;> omega

end DayPeriods.Of

theorem daysOfCivil_civilOfDays (n : ℤ) : daysOfCivil (civilOfDays n) = n := by
  have h := periods_of n
  have hmonth := h.month_range
  have hday := h.day_range
  have hbefore := h.days_before_year
  have hmarch := h.fromMarch_eq
  have htotal := h.day
  have hmonthNat : ((periods n).month.toNat : ℤ) = (periods n).month := by omega
  have hdayNat : ((periods n).day.toNat : ℤ) = (periods n).day := by omega
  have hwinter : (periods n).month.toNat ≤ 2 ↔ (periods n).month ≤ 2 := by omega
  have hoffset : (153 * (periods n).fromMarch + 2) / 5 + (periods n).day - 1 =
      (periods n).dayOfYear := by
    unfold DayPeriods.day
    omega
  simp only [daysOfCivil, civilOfDays, hwinter, hmonthNat, hdayNat, ← hmarch, add_sub_cancel_right]
  omega

theorem civilOfDays_fits (n : ℤ) :
    (civilOfDays n).month < 10 ^ 2 ∧ (civilOfDays n).day < 10 ^ 2 := by
  have hmonth := (periods_of n).month_range
  have hday := (periods_of n).day_range
  simp only [civilOfDays]
  omega

theorem civilOfDays_year (n : ℤ) (h : -100000000 ≤ n ∧ n ≤ 100000000) :
    (civilOfDays n).year.natAbs < 10 ^ 6 := by
  have hp := periods_of n
  have hcentury := hp.century
  have hquad := hp.quad
  have hyear := hp.yearOfQuad
  have hday := hp.dayOfYear
  have htotal := hp.day
  simp only [civilOfDays, DayPeriods.year]
  split_ifs <;> omega

example : civilOfDays 0 = ⟨1970, 1, 1⟩ ∧ civilOfDays 19782 = ⟨2024, 2, 29⟩ ∧
    civilOfDays (-719529) = ⟨-1, 12, 31⟩ := by decide

/-! ## The texts -/

namespace Format

def printYear (y : ℤ) : List Char :=
  if 0 ≤ y ∧ y ≤ 9999 then digits 10 4 y.natAbs
  else (if y < 0 then '-' else '+') :: digits 10 6 y.natAbs

def readYear : List Char → Option (ℤ × List Char)
  | [] => none
  | c :: text =>
      if c = '-' then (readDigits 10 6 0 text).map fun r => (-(r.1 : ℤ), r.2)
      else if c = '+' then (readDigits 10 6 0 text).map fun r => ((r.1 : ℤ), r.2)
      else (readDigits 10 4 0 (c :: text)).map fun r => ((r.1 : ℤ), r.2)

theorem readYear_digits (sign : ℕ → ℤ) {width n : ℕ} {text rest : List Char} {y : ℤ}
    (hn : n < 10 ^ width) (hy : sign n = y) (htext : text = digits 10 width n ++ rest) :
    ((readDigits 10 width 0 text).map fun r => (sign r.1, r.2)) = some (y, rest) := by
  have hread : readDigits 10 width 0 text = some (n, rest) := by
    rw [htext]
    exact (decimal width).read_print n hn rest
  rw [hread, Option.map_some, hy]

theorem readYear_printYear {y : ℤ} (hy : y.natAbs < 10 ^ 6) (rest : List Char) :
    readYear (printYear y ++ rest) = some (y, rest) := by
  unfold printYear
  split_ifs with hfour hneg
  · -- A digit is no sign.
    have hfirst : isHexDigit (Nat.digitChar (y.natAbs / 10 ^ 3 % 10)) = true :=
      (decimal 4).print_alphabet y.natAbs _ List.mem_cons_self
    have hminus : Nat.digitChar (y.natAbs / 10 ^ 3 % 10) ≠ '-' := by
      intro h
      rw [h] at hfirst
      revert hfirst
      decide
    have hplus : Nat.digitChar (y.natAbs / 10 ^ 3 % 10) ≠ '+' := by
      intro h
      rw [h] at hfirst
      revert hfirst
      decide
    rw [digits, List.cons_append, readYear, if_neg hminus, if_neg hplus]
    exact readYear_digits (fun n => n) (n := y.natAbs) (by omega) (by omega) rfl
  · rw [List.cons_append, readYear, if_pos rfl]
    exact readYear_digits (fun n => -(n : ℤ)) hy (by omega) rfl
  · rw [List.cons_append, readYear, if_neg (by decide), if_pos rfl]
    exact readYear_digits (fun n => n) hy (by omega) rfl

def year : Format ℤ where
  print := printYear
  read := readYear
  Fits y := y.natAbs < 10 ^ 6
  alphabet c := isHexDigit c || c = '-' || c = '+'
  read_print _ := readYear_printYear
  print_alphabet y c hc := by
    have hdigit (width : ℕ) (h : c ∈ digits 10 width y.natAbs) : isHexDigit c = true :=
      (decimal width).print_alphabet _ c h
    unfold printYear at hc
    split_ifs at hc with hfour hneg
    · simp [hdigit 4 hc]
    · rcases List.mem_cons.mp hc with rfl | hc
      · decide
      · simp [hdigit 6 hc]
    · rcases List.mem_cons.mp hc with rfl | hc
      · decide
      · simp [hdigit 6 hc]

abbrev InstantParts := ℤ × ℕ × ℕ × ℕ × ℕ × ℕ × ℕ

/-- `YYYY-MM-DDTHH:mm:ss.sssZ`. -/
def instantParts : Format InstantParts :=
  year.sep '-' ((decimal 2).sep '-' ((decimal 2).sep 'T'
    ((decimal 2).sep ':' ((decimal 2).sep ':' ((decimal 2).sep '.' ((decimal 3).mark 'Z'))))))

end Format

def partsOfInstant (t : ℤ) : Format.InstantParts :=
  let date := civilOfDays (t / 86400000)
  let ms := (t % 86400000).toNat
  (date.year, date.month, date.day, ms / 3600000, ms / 60000 % 60, ms / 1000 % 60, ms % 1000)

def instantOfParts : Format.InstantParts → ℤ
  | (year, month, day, hour, minute, second, ms) =>
      daysOfCivil ⟨year, month, day⟩ * 86400000 + hour * 3600000 + minute * 60000 +
        second * 1000 + ms

/-- The instants that a `Date` can hold: 100 000 000 days to either side of 1970. -/
def IsDate (t : ℤ) : Prop := -8640000000000000 ≤ t ∧ t ≤ 8640000000000000

instance : DecidablePred IsDate := fun _ => inferInstanceAs (Decidable (_ ∧ _))

theorem instantOfParts_partsOfInstant (t : ℤ) : instantOfParts (partsOfInstant t) = t := by
  have hdays := daysOfCivil_civilOfDays (t / 86400000)
  have hms : ((t % 86400000).toNat : ℤ) = t % 86400000 := by omega
  simp only [instantOfParts, partsOfInstant, hdays]
  omega

theorem partsOfInstant_fits {t : ℤ} (h : IsDate t) :
    Format.instantParts.Fits (partsOfInstant t) := by
  have hrange : -100000000 ≤ t / 86400000 ∧ t / 86400000 ≤ 100000000 := by
    unfold IsDate at h
    omega
  obtain ⟨hmonth, hday⟩ := civilOfDays_fits (t / 86400000)
  have hhour : (t % 86400000).toNat / 3600000 < 10 ^ 2 := by omega
  have hminute : (t % 86400000).toNat / 60000 % 60 < 10 ^ 2 := by omega
  have hsecond : (t % 86400000).toNat / 1000 % 60 < 10 ^ 2 := by omega
  have hms : (t % 86400000).toNat % 1000 < 10 ^ 3 := by omega
  exact ⟨civilOfDays_year _ hrange, hmonth, hday, hhour, hminute, hsecond, hms⟩

namespace Format

def instant : Format ℤ :=
  instantParts.via partsOfInstant instantOfParts IsDate fun t ht =>
    ⟨partsOfInstant_fits ht, instantOfParts_partsOfInstant t⟩

example : instant.text 1709210096007 = "2024-02-29T12:34:56.007Z" ∧
    instant.text (-62198755200001) = "-000002-12-31T23:59:59.999Z" := by decide +kernel

end Format

/-- `Date.parse`: what `toISOString` writes is read back; which other texts denote an instant,
and which one, is left to the engine. -/
def dateParse (otherForms : String → Option ℤ) (text : String) : Option ℤ :=
  match Format.instant.parse text with
  | some t => if IsDate t ∧ Format.instant.text t = text then some t else otherForms text
  | none => otherForms text

theorem dateParse_text (otherForms : String → Option ℤ) {t : ℤ} (h : IsDate t) :
    dateParse otherForms (Format.instant.text t) = some t := by
  have hparse : Format.instant.parse (Format.instant.text t) = some t :=
    Format.instant.parse_text h
  rw [dateParse, hparse]
  exact if_pos ⟨h, rfl⟩

end Sahay
