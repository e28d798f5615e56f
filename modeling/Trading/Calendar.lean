import Mathlib.Tactic.Ring
import Mathlib.Order.Monotone.Basic

/-!
# The Gregorian calendar on day numbers

A day is an integer: day `0` is the first of January of year 1, and the calendar is
extended to all integers by its own rule; calendars with a change from the Julian rule agree
with it from that change on. The fields of a day are its `CivilDate`, a date whose month and
day of the month exist.

`CivilDate.number` leads back from the fields of a day to the day (`number_civil`) and tells
dates apart (`number_injective`), so moving by one day is addition of one whatever months and
years it crosses. A lenient calendar accepts a day of the month outside its range and carries it
into the neighbouring months; on day numbers this is again addition
(`lenient_civil`). Two consecutive days never have the same day of the month
(`day_civil_succ_ne`).
-/

set_option autoImplicit false

namespace Trading.Calendar

/-! ## Years and months -/

/-- Leap years of the Gregorian rule. -/
def isLeap (year : Int) : Bool :=
  year % 4 = 0 ∧ (year % 100 ≠ 0 ∨ year % 400 = 0)

/-- The length of a month, months being numbered from one. -/
def daysInMonth (year : Int) : Nat → Nat
  | 2 => if isLeap year then 29 else 28
  | 4 => 30
  | 6 => 30
  | 9 => 30
  | 11 => 30
  | _ => 31

/-- The days of all earlier years. -/
def daysBeforeYear (year : Int) : Int :=
  365 * (year - 1) + (year - 1) / 4 - (year - 1) / 100 + (year - 1) / 400

/-- The days of the earlier months of the year. -/
def daysBeforeMonth (year : Int) : Nat → Nat
  | 0 => 0
  | 1 => 0
  | month + 2 => daysBeforeMonth year (month + 1) + daysInMonth year (month + 1)

/-- The length of a year. -/
def daysInYear (year : Int) : Nat := if isLeap year then 366 else 365

theorem daysInMonth_ge (year : Int) (month : Nat) : 28 ≤ daysInMonth year month := by
  unfold daysInMonth
  split
  · split <;> omega
  all_goals omega

theorem daysBeforeMonth_succ (year : Int) {month : Nat} (positive : 1 ≤ month) :
    daysBeforeMonth year (month + 1) = daysBeforeMonth year month + daysInMonth year month := by
  obtain ⟨earlier, rfl⟩ := Nat.exists_eq_add_of_le' positive
  rfl

/-- After the twelve months the year is over. -/
theorem daysBeforeMonth_thirteen (year : Int) : daysBeforeMonth year 13 = daysInYear year := by
  simp only [daysBeforeMonth, daysInMonth, daysInYear]
  split <;> rfl

theorem daysBeforeMonth_mono (year : Int) : Monotone (daysBeforeMonth year) := by
  apply monotone_nat_of_le_succ
  intro month
  cases month with
  | zero => exact Nat.zero_le _
  | succ month =>
      rw [daysBeforeMonth_succ year (Nat.succ_le_succ (Nat.zero_le month))]
      exact Nat.le_add_right _ _

theorem daysBeforeYear_succ (year : Int) :
    daysBeforeYear (year + 1) = daysBeforeYear year + daysInYear year := by
  unfold daysBeforeYear daysInYear isLeap
  split
  · rename_i leap
    simp only [ne_eq, Bool.decide_and, Bool.decide_or, decide_not, Bool.and_eq_true,
      decide_eq_true_eq, Bool.or_eq_true, Bool.not_eq_eq_eq_not, Bool.not_true,
      decide_eq_false_iff_not] at leap
    omega
  · rename_i common
    simp only [ne_eq, Bool.decide_and, Bool.decide_or, decide_not, Bool.and_eq_true,
      decide_eq_true_eq, Bool.or_eq_true, Bool.not_eq_eq_eq_not, Bool.not_true,
      decide_eq_false_iff_not] at common
    omega

/-- A year begins only after every earlier year is over. -/
theorem daysBeforeYear_le {earlier later : Int} (before : earlier < later) :
    daysBeforeYear (earlier + 1) ≤ daysBeforeYear later := by
  unfold daysBeforeYear
  omega

/-! ## Dates -/

/-- A date of the calendar: the month exists, and the day exists in that month. -/
@[ext] structure CivilDate where
  year : Int
  month : Nat
  day : Nat
  month_pos : 1 ≤ month
  month_le : month ≤ 12
  day_pos : 1 ≤ day
  day_le : day ≤ daysInMonth year month
  deriving DecidableEq

/-- The day number of a day of a month; the day may lie outside the month. -/
def lenient (year : Int) (month : Nat) (day : Int) : Int :=
  daysBeforeYear year + daysBeforeMonth year month + (day - 1)

namespace CivilDate

/-- The day number of a date. -/
def number (date : CivilDate) : Int := lenient date.year date.month date.day

theorem number_def (date : CivilDate) :
    date.number =
      daysBeforeYear date.year + daysBeforeMonth date.year date.month + ((date.day : Int) - 1) :=
  rfl

/-- A date lies before the first day of the next month. -/
theorem dayOfYear_lt (date : CivilDate) :
    daysBeforeMonth date.year date.month + (date.day - 1) <
      daysBeforeMonth date.year (date.month + 1) := by
  have first := date.day_pos
  have last := date.day_le
  rw [daysBeforeMonth_succ date.year date.month_pos]
  omega

/-- A date lies in its year. -/
theorem number_bounds (date : CivilDate) :
    daysBeforeYear date.year ≤ date.number ∧ date.number < daysBeforeYear (date.year + 1) := by
  have first := date.day_pos
  have within := date.dayOfYear_lt
  have yearEnd : daysBeforeMonth date.year (date.month + 1) ≤ daysInYear date.year := by
    rw [← daysBeforeMonth_thirteen]
    exact daysBeforeMonth_mono date.year (Nat.succ_le_succ date.month_le)
  rw [daysBeforeYear_succ, number_def]
  omega

/-- **A day number has at most one date.** -/
theorem number_injective : Function.Injective number := by
  intro first second same
  have firstBounds := first.number_bounds
  have secondBounds := second.number_bounds
  have sameYear : first.year = second.year := by
    rcases lt_trichotomy first.year second.year with earlier | equal | later
    · have := daysBeforeYear_le earlier
      omega
    · exact equal
    · have := daysBeforeYear_le later
      omega
  have firstDay := first.day_pos
  have secondDay := second.day_pos
  have firstWithin := first.dayOfYear_lt
  have secondWithin := second.dayOfYear_lt
  rw [number_def, number_def, sameYear] at same
  rw [sameYear] at firstWithin
  have sameMonth : first.month = second.month := by
    rcases lt_trichotomy first.month second.month with earlier | equal | later
    · have := daysBeforeMonth_mono second.year (Nat.succ_le_of_lt earlier)
      rw [Nat.succ_eq_add_one] at this
      omega
    · exact equal
    · have := daysBeforeMonth_mono second.year (Nat.succ_le_of_lt later)
      rw [Nat.succ_eq_add_one] at this
      omega
  rw [sameMonth] at same
  exact CivilDate.ext sameYear sameMonth (by omega)

end CivilDate

/-! ## The date of a day -/

/-- The year of a day, from the cycles of 400, 100, 4 and 1 years before it. -/
def yearOf (n : Int) : Int :=
  let n400 := n / 146097
  let d1 := n % 146097
  let n100 := d1 / 36524
  let d2 := d1 % 36524
  let n4 := d2 / 1461
  let d3 := d2 % 1461
  let n1 := d3 / 365
  let year := 400 * n400 + 100 * n100 + 4 * n4 + n1
  if n100 = 4 ∨ n1 = 4 then year else year + 1

/-- Look for the month of a day of the year among the given number of months after
`month`. -/
def findMonth (year : Int) : Nat → Nat → Nat → Nat × Nat
  | 0, month, day => (month, day)
  | more + 1, month, day =>
      if day < daysInMonth year month then (month, day)
      else findMonth year more (month + 1) (day - daysInMonth year month)

/-- The days before a year, from its complete cycles. -/
theorem daysBeforeYear_cycles {a b c d : Int} (centuries : 0 ≤ b ∧ b ≤ 3)
    (quadrennia : 0 ≤ c ∧ c ≤ 24) (years : 0 ≤ d ∧ d ≤ 3) :
    daysBeforeYear (400 * a + 100 * b + 4 * c + d + 1) =
      146097 * a + 36524 * b + 1461 * c + 365 * d := by
  have byFour : (400 * a + 100 * b + 4 * c + d + 1 - 1) / 4 = 100 * a + 25 * b + c := by omega
  have byHundred : (400 * a + 100 * b + 4 * c + d + 1 - 1) / 100 = 4 * a + b := by omega
  have byFourHundred : (400 * a + 100 * b + 4 * c + d + 1 - 1) / 400 = a := by omega
  unfold daysBeforeYear
  rw [byFour, byHundred, byFourHundred]
  ring

theorem daysInYear_ge (year : Int) : 365 ≤ daysInYear year := by
  unfold daysInYear
  split <;> omega

theorem daysInYear_of_leap {year : Int} (leap : isLeap year = true) : daysInYear year = 366 := by
  simp only [daysInYear, leap, ↓reduceIte]

theorem isLeap_iff (year : Int) :
    isLeap year = true ↔ year % 4 = 0 ∧ (year % 100 ≠ 0 ∨ year % 400 = 0) := by
  simp [isLeap]

theorem yearOf_bounds (n : Int) :
    daysBeforeYear (yearOf n) ≤ n ∧ n < daysBeforeYear (yearOf n + 1) := by
  rw [daysBeforeYear_succ]
  simp only [yearOf]
  -- the digits of the cycles, with what bounds each of them
  obtain ⟨a, ha⟩ : ∃ a, n / 146097 = a := ⟨_, rfl⟩
  obtain ⟨d1, hd1⟩ : ∃ d1, n % 146097 = d1 := ⟨_, rfl⟩
  obtain ⟨b, hb⟩ : ∃ b, d1 / 36524 = b := ⟨_, rfl⟩
  obtain ⟨d2, hd2⟩ : ∃ d2, d1 % 36524 = d2 := ⟨_, rfl⟩
  obtain ⟨c, hc⟩ : ∃ c, d2 / 1461 = c := ⟨_, rfl⟩
  obtain ⟨d3, hd3⟩ : ∃ d3, d2 % 1461 = d3 := ⟨_, rfl⟩
  obtain ⟨d, hd⟩ : ∃ d, d3 / 365 = d := ⟨_, rfl⟩
  have whole : n = 146097 * a + d1 ∧ 0 ≤ d1 ∧ d1 < 146097 := by omega
  have century : d1 = 36524 * b + d2 ∧ 0 ≤ d2 ∧ d2 < 36524 := by omega
  have quadrennium : d2 = 1461 * c + d3 ∧ 0 ≤ d3 ∧ d3 < 1461 := by omega
  have remainder : 365 * d ≤ d3 ∧ d3 < 365 * d + 365 := by omega
  simp only [ha, hd1, hb, hd2, hc, hd3, hd]
  clear ha hd1 hb hd2 hc hd3 hd
  split
  · rename_i last
    rcases last with rfl | rfl
    · -- the last day of a cycle of 400 years
      obtain ⟨rfl, rfl⟩ : c = 0 ∧ d = 0 := by omega
      have start := daysBeforeYear_cycles (a := a) (b := 3) (c := 24) (d := 3)
        (by omega) (by omega) (by omega)
      have sameYear : 400 * a + 100 * 4 + 4 * 0 + 0 = 400 * a + 100 * 3 + 4 * 24 + 3 + 1 := by ring
      have leap : isLeap (400 * a + 100 * 3 + 4 * 24 + 3 + 1) = true := by
        rw [isLeap_iff]
        omega
      rw [sameYear, start, daysInYear_of_leap leap]
      omega
    · -- the last day of a cycle of 4 years
      have start := daysBeforeYear_cycles (a := a) (b := b) (c := c) (d := 3)
        (by omega) (by omega) (by omega)
      have sameYear : 400 * a + 100 * b + 4 * c + 4 = 400 * a + 100 * b + 4 * c + 3 + 1 := by ring
      have leap : isLeap (400 * a + 100 * b + 4 * c + 3 + 1) = true := by
        rw [isLeap_iff]
        omega
      rw [sameYear, start, daysInYear_of_leap leap]
      omega
  · rename_i regular
    rw [daysBeforeYear_cycles (by omega) (by omega) (by omega)]
    have long := daysInYear_ge (400 * a + 100 * b + 4 * c + d + 1)
    omega

theorem findMonth_spec (year : Int) : ∀ (more month day : Nat), 1 ≤ month → month + more = 12 →
    daysBeforeMonth year month + day < daysInYear year →
    1 ≤ (findMonth year more month day).1 ∧ (findMonth year more month day).1 ≤ 12 ∧
      (findMonth year more month day).2 <
        daysInMonth year (findMonth year more month day).1 ∧
      daysBeforeMonth year (findMonth year more month day).1 +
        (findMonth year more month day).2 = daysBeforeMonth year month + day
  | 0, month, day, positive, total, within => by
      obtain rfl : month = 12 := total
      have yearEnd := daysBeforeMonth_succ year positive
      rw [show 12 + 1 = 13 from rfl, daysBeforeMonth_thirteen] at yearEnd
      have inMonth : day < daysInMonth year 12 := by omega
      exact ⟨positive, le_rfl, inMonth, rfl⟩
  | more + 1, month, day, positive, total, within => by
      unfold findMonth
      split
      · rename_i here
        exact ⟨positive, by omega, here, rfl⟩
      · rename_i later
        have step := daysBeforeMonth_succ year positive
        have rest := findMonth_spec year more (month + 1) (day - daysInMonth year month)
          (by omega) (by omega) (by omega)
        omega

/-- The day of the year of a day, counted from zero. -/
def dayOfYear (n : Int) : Nat := (n - daysBeforeYear (yearOf n)).toNat

theorem dayOfYear_spec (n : Int) :
    daysBeforeYear (yearOf n) + dayOfYear n = n ∧ dayOfYear n < daysInYear (yearOf n) := by
  have bounds := yearOf_bounds n
  rw [daysBeforeYear_succ] at bounds
  unfold dayOfYear
  omega

theorem findMonth_dayOfYear (n : Int) :
    1 ≤ (findMonth (yearOf n) 11 1 (dayOfYear n)).1 ∧
      (findMonth (yearOf n) 11 1 (dayOfYear n)).1 ≤ 12 ∧
      (findMonth (yearOf n) 11 1 (dayOfYear n)).2 <
        daysInMonth (yearOf n) (findMonth (yearOf n) 11 1 (dayOfYear n)).1 ∧
      daysBeforeMonth (yearOf n) (findMonth (yearOf n) 11 1 (dayOfYear n)).1 +
        (findMonth (yearOf n) 11 1 (dayOfYear n)).2 = dayOfYear n := by
  have spec := findMonth_spec (yearOf n) 11 1 (dayOfYear n) le_rfl rfl
    (by rw [daysBeforeMonth, Nat.zero_add]; exact (dayOfYear_spec n).2)
  rwa [daysBeforeMonth, Nat.zero_add] at spec

/-- The fields of a day. -/
def civil (n : Int) : CivilDate where
  year := yearOf n
  month := (findMonth (yearOf n) 11 1 (dayOfYear n)).1
  day := (findMonth (yearOf n) 11 1 (dayOfYear n)).2 + 1
  month_pos := (findMonth_dayOfYear n).1
  month_le := (findMonth_dayOfYear n).2.1
  day_pos := Nat.succ_le_succ (Nat.zero_le _)
  day_le := (findMonth_dayOfYear n).2.2.1

/-- **The date of a day has the number of that day.** -/
theorem number_civil (n : Int) : (civil n).number = n := by
  have months := (findMonth_dayOfYear n).2.2.2
  have years := (dayOfYear_spec n).1
  rw [CivilDate.number_def]
  simp only [civil]
  omega

theorem civil_injective : Function.Injective civil := by
  intro first second same
  rw [← number_civil first, ← number_civil second, same]

/-- Years do not go back. -/
theorem year_civil_mono {first second : Int} (ordered : first ≤ second) :
    (civil first).year ≤ (civil second).year := by
  by_contra back
  have start := (yearOf_bounds first).1
  have finish := (yearOf_bounds second).2
  have years := daysBeforeYear_le (lt_of_not_ge back)
  simp only [civil] at years
  omega

/-- Days around a leap day and a year end. -/
example :
    ((civil 737118).year, (civil 737118).month, (civil 737118).day) = (2019, 3, 1) ∧
      ((civil 737483).year, (civil 737483).month, (civil 737483).day) = (2020, 2, 29) ∧
      ((civil 737424).year, (civil 737424).month, (civil 737424).day) = (2020, 1, 1) := by
  decide

/-- A later day has a later year, or a later month in the same year, or a later day in the
same month. -/
theorem civil_lt {n m : Int} (before : n < m) :
    (civil n).year < (civil m).year ∨ (civil n).year = (civil m).year ∧
      ((civil n).month < (civil m).month ∨ (civil n).month = (civil m).month ∧
        (civil n).day < (civil m).day) := by
  rcases (year_civil_mono before.le).lt_or_eq with earlierYear | sameYear
  · exact .inl earlierYear
  refine .inr ⟨sameYear, ?_⟩
  have numbers : (civil n).number < (civil m).number := by
    rw [number_civil, number_civil]
    exact before
  rw [CivilDate.number_def, CivilDate.number_def,
    show (civil n).year = (civil m).year from sameYear] at numbers
  rcases lt_trichotomy (civil n).month (civil m).month with earlierMonth | sameMonth | laterMonth
  · exact .inl earlierMonth
  · rw [sameMonth] at numbers
    exact .inr ⟨sameMonth, by omega⟩
  · have full := (civil m).dayOfYear_lt
    have later : daysBeforeMonth (civil m).year ((civil m).month + 1) ≤
        daysBeforeMonth (civil m).year (civil n).month := daysBeforeMonth_mono _ laterMonth
    have first := (civil n).day_pos
    have first' := (civil m).day_pos
    omega

/-- **Carrying a day of the month is addition of days.** -/
theorem lenient_civil (n shift : Int) :
    lenient (civil n).year (civil n).month ((civil n).day + shift) = n + shift := by
  have today := number_civil n
  rw [CivilDate.number_def] at today
  unfold lenient
  omega

/-- **Consecutive days have different days of the month.** -/
theorem day_civil_succ_ne (n : Int) : (civil (n + 1)).day ≠ (civil n).day := by
  intro same
  have today := number_civil n
  have tomorrow := number_civil (n + 1)
  rw [CivilDate.number_def] at today tomorrow
  rw [same] at tomorrow
  -- the month of tomorrow would begin on the second of the month of today
  have long := daysInMonth_ge (civil n).year (civil n).month
  have long' := daysInMonth_ge (civil (n + 1)).year (civil (n + 1)).month
  let second : CivilDate :=
    { civil n with day := 2, day_pos := by omega, day_le := by omega }
  let first : CivilDate :=
    { civil (n + 1) with day := 1, day_pos := le_rfl, day_le := by omega }
  have sameNumber : second.number = first.number := by
    rw [CivilDate.number_def, CivilDate.number_def]
    simp only [second, first]
    omega
  have sameDay := congrArg CivilDate.day (CivilDate.number_injective sameNumber)
  simp [second, first] at sameDay

end Trading.Calendar
