/-
Days are numbered in the order of their dates. So a timestamp that is not before the present is not old.
-/
import KanaTutor.Proofs.Time.Order
import Mathlib.Tactic.IntervalCases
import Mathlib.Tactic.SplitIfs

namespace KanaTutor

namespace Date

/-! ## Years that begin in March -/

/-- The year that a date is in if the year begins in March. -/
def marchYear (d : Date) : Int := if d.month ≤ 2 then d.year - 1 else d.year

/-- The month of a date, counted from March. -/
def marchMonth (d : Date) : Nat := if d.month ≤ 2 then d.month + 9 else d.month - 3

/-- The leap days up to a year. -/
def leapDays (year : Int) : Int := year / 4 - year / 100 + year / 400

theorem leapDays_mono {x y : Int} (h : x ≤ y) : leapDays x ≤ leapDays y := by
  have hparts : ∀ z : Int, leapDays z = (z / 4 - z / 4 / 25) + z / 100 / 4 := by
    intro z
    unfold leapDays
    omega
  have hquarters : x / 4 - x / 4 / 25 ≤ y / 4 - y / 4 / 25 := by
    have hle : x / 4 ≤ y / 4 := by omega
    rcases eq_or_lt_of_le hle with heq | hlt
    · rw [heq]
    · omega
  have hcenturies : x / 100 / 4 ≤ y / 100 / 4 := by omega
  rw [hparts, hparts]
  omega

/-- A year has a leap day more than the one before it if it is a leap year. -/
theorem leapDays_succ (year : Int) : leapDays year = leapDays (year - 1) + if isLeapYear year then 1 else 0 := by
  unfold leapDays isLeapYear
  split <;> rename_i hleap <;> simp at hleap <;> omega

theorem dayNumber_eq (d : Date) :
    d.dayNumber = 365 * d.marchYear + leapDays d.marchYear + (153 * (d.marchMonth : Int) + 2) / 5 + d.day - 1 := by
  unfold dayNumber leapDays
  show 365 * d.marchYear + d.marchYear / 4 - d.marchYear / 100 + d.marchYear / 400 +
    (153 * (d.marchMonth : Int) + 2) / 5 + d.day - 1 = _
  omega

/-- A day is before the first of the next month, or in February before the first of the next year. -/
theorem day_le_month (d : Date) :
    1 ≤ d.day ∧ (d.marchMonth < 11 ∧
        (153 * (d.marchMonth : Int) + 2) / 5 + d.day ≤ (153 * (d.marchMonth + 1 : Int) + 2) / 5 ∨
      d.marchMonth = 11 ∧ 337 + (d.day : Int) ≤ 365 + leapDays (d.marchYear + 1) - leapDays d.marchYear) := by
  obtain ⟨hpos, hday⟩ := d.day_bounds
  have hmonth := d.month_bounds
  have hleap := leapDays_succ d.year
  refine ⟨hpos, ?_⟩
  unfold marchMonth marchYear
  generalize d.month = month at hday hmonth
  obtain ⟨hfirst, hlast⟩ := hmonth
  interval_cases month <;> simp [daysIn] at hday ⊢
  all_goals try omega
  rw [hleap]
  split at hday <;> rename_i h <;> simp [h] <;> omega

/-- The days are numbered in the order of their dates. -/
theorem dayNumber_lt_of_before {d e : Date} (h : d.before e = true) : d.dayNumber < e.dayNumber := by
  have hd := d.day_le_month
  have he := e.day_le_month
  have horder : d.marchYear < e.marchYear ∨ d.marchYear = e.marchYear ∧
      (d.marchMonth < e.marchMonth ∨ d.marchMonth = e.marchMonth ∧ d.day < e.day) := by
    have hmonth := d.month_bounds
    have hmonth' := e.month_bounds
    rw [before_iff] at h
    unfold marchYear marchMonth
    split <;> split <;> omega
  rw [dayNumber_eq, dayNumber_eq]
  rcases horder with hyear | ⟨hyear, hmonth⟩
  · have := leapDays_mono (show d.marchYear + 1 ≤ e.marchYear by omega)
    have := leapDays_mono (show d.marchYear ≤ d.marchYear + 1 by omega)
    omega
  · rw [hyear]
    omega

theorem dayNumber_le_of_not_before {d e : Date} (h : e.before d = false) : d.dayNumber ≤ e.dayNumber := by
  cases hde : d.before e with
  | true => exact (dayNumber_lt_of_before hde).le
  | false => rw [eq_of_not_before hde h]

end Date

/-- A timestamp that does not come before the present is not two days old at its whole second. -/
theorem Timestamp.not_isOlderThan {t now : Timestamp} {days : Nat} (h : t.before now = false) (hdays : 1 < days) :
    t.toWholeSecond.isOlderThan days now = false := by
  have hdate : t.date.before now.date = false := by
    simp only [before, Bool.or_eq_false_iff] at h
    exact h.1
  have hday := Date.dayNumber_le_of_not_before hdate
  have hsecond := now.second_lt
  have hnano := now.nano_lt
  have hsince : now.nanosSince t.toWholeSecond < 2 * 86400 * 1000000000 := by
    unfold nanosSince
    show ((now.date.dayNumber - t.date.dayNumber) * 86400 + ((now.second : Int) - t.second) +
      (if t.second < now.second then (if 1000000000 ≤ 0 then (1 : Int) else 0)
        else if now.second < t.second then (if 1000000000 ≤ now.nano then -1 else 0) else 0)) * 1000000000 +
      ((now.nano : Int) - (0 : Nat)) < _
    split_ifs <;> omega
  refine decide_eq_false ?_
  omega

end KanaTutor
