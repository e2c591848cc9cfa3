import Mathlib.Algebra.Order.Ring.Nat
import Mathlib.Tactic.IntervalCases
import Mathlib.Tactic.Linarith

/-!
# The Gregorian calendar

Dates counted in days by the rule for leap years: the days of the years before,
the days of the months before, and the day of the month. `daysFromCivil` is the
closed form with years that begin in March and eras of four centuries; it agrees
with the count for every date.
-/

namespace Calendar

/-- Every fourth year, of the centuries every fourth. -/
def IsLeap (year : Nat) : Prop := year % 4 = 0 ∧ (year % 100 ≠ 0 ∨ year % 400 = 0)

instance (year : Nat) : Decidable (IsLeap year) := inferInstanceAs (Decidable (_ ∧ _))

def daysInYear (year : Nat) : Nat := if IsLeap year then 366 else 365

def daysInMonth (year month : Nat) : Nat :=
  if month = 2 then (if IsLeap year then 29 else 28)
  else if month = 4 ∨ month = 6 ∨ month = 9 ∨ month = 11 then 30 else 31

/-- The days of so many months of a year. -/
def daysOfMonths (year : Nat) : Nat → Nat
  | 0 => 0
  | months + 1 => daysOfMonths year months + daysInMonth year (months + 1)

/-- The days of so many years from one on. -/
def daysOfYears (first : Nat) : Nat → Nat
  | 0 => 0
  | years + 1 => daysOfYears first years + daysInYear (first + years)

structure Date where
  year : Nat
  month : Nat
  day : Nat
  month_pos : 1 ≤ month
  month_le : month ≤ 12
  day_pos : 1 ≤ day
  day_le : day ≤ daysInMonth year month
  deriving DecidableEq

/-- The days from the first of January of a year to a date, counted one year
and one month after the other. -/
def Date.dayCount (first : Nat) (date : Date) : Nat :=
  daysOfYears first (date.year - first) + daysOfMonths date.year (date.month - 1) + (date.day - 1)

-- ---------------------------------------------------------------------------
-- Counting
-- ---------------------------------------------------------------------------

theorem daysOfMonths_twelve (year : Nat) : daysOfMonths year 12 = daysInYear year := by
  by_cases h : IsLeap year <;> simp [daysOfMonths, daysInMonth, daysInYear, h]

theorem daysOfMonths_mono (year : Nat) (h : m ≤ n) : daysOfMonths year m ≤ daysOfMonths year n := by
  induction n, h using Nat.le_induction with
  | base => exact Nat.le_refl _
  | succ n _ ih => exact ih.trans (Nat.le_add_right _ _)

theorem daysOfYears_mono (first : Nat) (h : m ≤ n) : daysOfYears first m ≤ daysOfYears first n := by
  induction n, h using Nat.le_induction with
  | base => exact Nat.le_refl _
  | succ n _ ih => exact ih.trans (Nat.le_add_right _ _)

namespace Date

variable (date : Date)

/-- A date lies within its month. -/
theorem day_lt : daysOfMonths date.year (date.month - 1) + (date.day - 1) <
    daysOfMonths date.year date.month := by
  obtain ⟨months, hmonths⟩ := Nat.exists_eq_add_one.mpr date.month_pos
  have hpos := date.day_pos
  have hle := date.day_le
  simp only [hmonths, daysOfMonths, Nat.add_sub_cancel] at hle ⊢
  omega

/-- A date lies within its year. -/
theorem day_lt_year : daysOfMonths date.year (date.month - 1) + (date.day - 1) <
    daysInYear date.year := by
  have hmonths := daysOfMonths_mono date.year date.month_le
  rw [daysOfMonths_twelve] at hmonths
  exact Nat.lt_of_lt_of_le date.day_lt hmonths

/-- Earlier by year, month and day. -/
def Earlier (a b : Date) : Prop :=
  a.year < b.year ∨ a.year = b.year ∧ (a.month < b.month ∨ a.month = b.month ∧ a.day < b.day)

theorem dayCount_lt {a b : Date} (hfirst : first ≤ a.year) (h : a.Earlier b) :
    a.dayCount first < b.dayCount first := by
  have hday := a.day_lt
  have hyear := a.day_lt_year
  unfold dayCount
  rcases h with hlt | ⟨heq, hlt | ⟨hmonth, hlt⟩⟩
  · -- the whole of the earlier year comes before the later one
    have hyears := daysOfYears_mono first (show a.year - first + 1 ≤ b.year - first by omega)
    rw [daysOfYears, Nat.add_sub_cancel' hfirst] at hyears
    omega
  · have hmonths := daysOfMonths_mono a.year (show a.month ≤ b.month - 1 by omega)
    rw [heq] at hmonths hday ⊢
    omega
  · have hpos := a.day_pos
    rw [heq, hmonth]
    omega

end Date

-- ---------------------------------------------------------------------------
-- The closed form
-- ---------------------------------------------------------------------------

/-- The days of the years from the year one to a year. -/
def daysThrough (year : Nat) : Nat := year * 365 + year / 4 - year / 100 + year / 400

theorem daysThrough_succ (year : Nat) :
    daysThrough (year + 1) = daysThrough year + daysInYear (year + 1) := by
  have hle : year / 100 ≤ year := Nat.div_le_self ..
  simp only [daysThrough, daysInYear, IsLeap, Nat.succ_div, ← Nat.dvd_iff_mod_eq_zero, ne_eq]
  generalize year / 4 = fourths, year / 100 = centuries, year / 400 = eras at *
  by_cases hfour : 4 ∣ year + 1
  · by_cases hcentury : 100 ∣ year + 1
    · by_cases hera : 400 ∣ year + 1
      · simp [hfour, hcentury, hera]
        omega
      · simp [hfour, hcentury, hera]
        omega
    · have hera : ¬ 400 ∣ year + 1 := fun hera => hcentury (dvd_trans (by decide) hera)
      simp [hfour, hcentury, hera]
      omega
  · have hcentury : ¬ 100 ∣ year + 1 := fun hcentury => hfour (dvd_trans (by decide) hcentury)
    have hera : ¬ 400 ∣ year + 1 := fun hera => hfour (dvd_trans (by decide) hera)
    simp [hfour, hcentury, hera]
    omega

theorem daysOfYears_eq (first years : Nat) :
    daysThrough first + daysOfYears (first + 1) years = daysThrough (first + years) := by
  induction years with
  | zero => rfl
  | succ years ih =>
    rw [daysOfYears, ← Nat.add_assoc, ih, ← Nat.add_assoc, daysThrough_succ,
      Nat.add_right_comm first 1]

/-- The days from the first of March to the first of a month, counted from March. -/
def daysFromMarch (months : Nat) : Nat := (153 * months + 2) / 5

/-- The days from 1970-01-01, with years that begin in March. -/
def daysFromCivil (year month day : Nat) : Int :=
  let y := if month ≤ 2 then year - 1 else year
  let era := y / 400
  let yoe := y % 400
  let doy := daysFromMarch (if month > 2 then month - 3 else month + 9) + day - 1
  let doe := yoe * 365 + yoe / 4 - yoe / 100 + doy
  (era * 146097 + doe : Nat) - 719468

/-- The last ten months of a year begin after the days that come before March. -/
theorem daysOfMonths_march (year : Nat) (h : months ≤ 9) :
    daysOfMonths year (months + 2) + 306 = daysInYear year + daysFromMarch months := by
  by_cases hleap : IsLeap year <;> interval_cases months <;>
    simp [daysOfMonths, daysInMonth, daysInYear, daysFromMarch, hleap]

/-- Four centuries have as many days wherever they begin. -/
theorem daysThrough_era (year : Nat) :
    year / 400 * 146097 + (year % 400 * 365 + year % 400 / 4 - year % 400 / 100) =
      daysThrough year := by
  unfold daysThrough
  omega

theorem daysFromCivil_eq_count (hyear : 1970 ≤ year) (hmonth : 1 ≤ month) (hmonth' : month ≤ 12)
    (hday : 1 ≤ day) :
    daysFromCivil year month day =
      (daysOfYears 1970 (year - 1970) + daysOfMonths year (month - 1) + (day - 1) : Nat) := by
  obtain ⟨years, rfl⟩ : ∃ years, year = 1969 + years + 1 := ⟨year - 1970, by omega⟩
  have hyears : daysThrough 1969 + daysOfYears 1970 years = daysThrough (1969 + years) :=
    daysOfYears_eq 1969 years
  have hthrough := daysThrough_succ (1969 + years)
  have hbase : daysThrough 1969 = 719162 := by decide
  simp only [daysFromCivil, Nat.add_sub_cancel, show 1969 + years + 1 - 1970 = years by omega]
  by_cases hearly : month ≤ 2
  · -- January and February end the year that began in the March before
    have hera := daysThrough_era (1969 + years)
    have hmonths : daysFromMarch (month + 9) =
        306 + daysOfMonths (1969 + years + 1) (month - 1) := by
      interval_cases month <;> simp [daysOfMonths, daysInMonth, daysFromMarch]
    rw [if_pos hearly, if_neg (by omega)]
    omega
  · have hera := daysThrough_era (1969 + years + 1)
    have hmonths := daysOfMonths_march (1969 + years + 1) (show month - 3 ≤ 9 by omega)
    rw [show month - 3 + 2 = month - 1 by omega] at hmonths
    rw [if_neg hearly, if_pos (by omega)]
    omega

theorem Date.dayCount_eq (date : Date) (h : 1970 ≤ date.year) :
    (date.dayCount 1970 : Int) = daysFromCivil date.year date.month date.day :=
  (daysFromCivil_eq_count h date.month_pos date.month_le date.day_pos).symm

end Calendar
