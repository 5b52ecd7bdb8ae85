/-
The order of dates and timestamps: dates are ordered strictly and totally, and so are timestamps, in the order of their
dates. A timestamp is never before its whole second, and in a leap second it is after it.
-/
import KanaTutor.Time.Timestamp

namespace KanaTutor

namespace Date

/-! ## Parts of a date -/

theorem daysIn_le (year : Int) (month : Nat) : daysIn year month ≤ 31 := by
  unfold daysIn
  split
  · split <;> decide
  all_goals decide

theorem day_bounds (d : Date) : 1 ≤ d.day ∧ d.day ≤ daysIn d.year d.month := by
  have hvalid := d.valid
  simp only [isValid, Bool.and_eq_true, decide_eq_true_eq] at hvalid
  exact ⟨hvalid.1.2, hvalid.2⟩

theorem month_bounds (d : Date) : 1 ≤ d.month ∧ d.month ≤ 12 := by
  obtain ⟨hpos, hday⟩ := d.day_bounds
  have hnone : ∀ month, month = 0 ∨ 12 < month → daysIn d.year month = 0 := by
    intro month hmonth
    unfold daysIn
    split <;> first | rfl | omega
  by_cases hin : 1 ≤ d.month ∧ d.month ≤ 12
  · exact hin
  · rw [hnone d.month (by omega)] at hday
    omega

/-! ## Order -/

theorem before_iff (d e : Date) :
    d.before e = true ↔
      d.year < e.year ∨ d.year = e.year ∧ (d.month < e.month ∨ d.month = e.month ∧ d.day < e.day) := by
  simp [before]

theorem before_irrefl (d : Date) : d.before d = false := by
  rw [← Bool.not_eq_true, before_iff]
  omega

theorem before_trans {d e f : Date} (h : d.before e = true) (h' : e.before f = true) : d.before f = true := by
  rw [before_iff] at *
  omega

theorem eq_iff (d e : Date) : d = e ↔ d.year = e.year ∧ d.month = e.month ∧ d.day = e.day := by
  obtain ⟨year, month, day, _⟩ := d
  obtain ⟨year', month', day', _⟩ := e
  exact mk.injEq .. ▸ Iff.rfl

theorem eq_of_not_before {d e : Date} (h : d.before e = false) (h' : e.before d = false) : d = e := by
  rw [← Bool.not_eq_true, before_iff] at h h'
  obtain ⟨year, month, day, _⟩ := d
  obtain ⟨year', month', day', _⟩ := e
  simp only at h h'
  obtain rfl : year = year' := by omega
  obtain rfl : month = month' := by omega
  obtain rfl : day = day' := by omega
  rfl

/-- A date that comes before another one does not come after it. -/
theorem not_before_of_before {d e : Date} (h : d.before e = true) : e.before d = false := by
  cases h' : e.before d with
  | false => rfl
  | true => have := before_trans h h'; rw [before_irrefl] at this; cases this

theorem ne_of_before {d e : Date} (h : d.before e = true) : d ≠ e := by
  rintro rfl; rw [before_irrefl] at h; cases h

end Date

namespace Timestamp

/-! ## Order -/

theorem before_iff (s t : Timestamp) :
    s.before t = true ↔ s.date.before t.date = true ∨
      s.date = t.date ∧ (s.second < t.second ∨ s.second = t.second ∧ s.nano < t.nano) := by
  simp [before]

theorem before_irrefl (t : Timestamp) : t.before t = false := by
  rw [← Bool.not_eq_true, before_iff, Date.before_iff]
  omega

theorem before_trans {s t u : Timestamp} (h : s.before t = true) (h' : t.before u = true) : s.before u = true := by
  simp only [before_iff, Date.before_iff, Date.eq_iff] at *
  omega

theorem not_before_trans {s t u : Timestamp} (h : t.before s = false) (h' : u.before t = false) :
    u.before s = false := by
  simp only [← Bool.not_eq_true, before_iff, Date.before_iff, Date.eq_iff] at *
  omega

theorem not_before_of_before {s t : Timestamp} (h : s.before t = true) : t.before s = false := by
  rw [← Bool.not_eq_true]
  intro h'
  have hself := before_trans h h'
  rw [before_irrefl] at hself
  cases hself

/-- A timestamp that does not come before another one is not on a date before. -/
theorem date_not_before {s t : Timestamp} (h : t.before s = false) : t.date.before s.date = false := by
  rw [← Bool.not_eq_true, before_iff, not_or] at h
  exact eq_false_of_ne_true h.1

theorem later_eq (s t : Timestamp) : s.later t = s ∨ s.later t = t := by
  unfold later
  split
  · exact .inr rfl
  · exact .inl rfl

/-- The later of two timestamps comes before neither. -/
theorem later_not_before (s t : Timestamp) : (s.later t).before s = false ∧ (s.later t).before t = false := by
  unfold later
  split
  · rename_i h
    exact ⟨not_before_of_before h, before_irrefl t⟩
  · rename_i h
    exact ⟨before_irrefl s, eq_false_of_ne_true h⟩

/-! ## Whole seconds -/

theorem toWholeSecond_of_nano {t : Timestamp} (h : t.nano = 0) : t.toWholeSecond = t := by
  obtain ⟨date, second, nano, hsecond, hnano⟩ := t
  obtain rfl : nano = 0 := h
  rfl

theorem toWholeSecond_not_before {s t : Timestamp} (h : t.before s = false) :
    t.toWholeSecond.before s.toWholeSecond = false := by
  simp only [← Bool.not_eq_true, before_iff, Date.before_iff, Date.eq_iff, toWholeSecond] at *
  omega

theorem not_before_toWholeSecond (t : Timestamp) : t.before t.toWholeSecond = false := by
  simp only [← Bool.not_eq_true, before_iff, Date.before_iff, toWholeSecond]
  omega

/-- A whole second that is not before a timestamp within a second is after it. -/
theorem toWholeSecond_not_before_iff {s t : Timestamp} (h : s.nano ≠ 0) :
    t.toWholeSecond.before s = false ↔ s.before t.toWholeSecond = true := by
  simp only [← Bool.not_eq_true, before_iff, toWholeSecond, Date.before_iff, Date.eq_iff]
  omega

end Timestamp

end KanaTutor
