/-
The days of a list of records: they are in strict order, they are the dates of the records, and folding
the records succeeds as long as the time of every day stays below the greatest duration.

A record that is not earlier than the last day belongs to that day or to a new one after it, so nothing
but the end of the days has to be looked at to add it.
-/
import KanaTutor.Proofs.Time.Order
import KanaTutor.Stats.Log
import Mathlib.Algebra.GroupWithZero.Nat
import Mathlib.Tactic.Tauto

namespace KanaTutor

/-- A computation that succeeds, taken apart. -/
theorem ok_of_bind {α β : Type} {x : Except Fault α} {f : α → Except Fault β} {b : β} (h : x >>= f = .ok b) :
    ∃ a, x = .ok a ∧ f a = .ok b := by
  cases x with
  | error e => cases h
  | ok a => exact ⟨a, rfl, h⟩

/-- A computation that fails fails in one of its parts. -/
theorem error_of_bind {α β : Type} {x : Except Fault α} {f : α → Except Fault β} {fault : Fault}
    (h : x >>= f = .error fault) : x = .error fault ∨ ∃ a, x = .ok a ∧ f a = .error fault := by
  cases x with
  | error e => exact .inl (congrArg Except.error (Except.error.inj h))
  | ok a => exact .inr ⟨a, rfl, h⟩

theorem ok_bind {α β : Type} (a : α) (f : α → Except Fault β) : (Except.ok a >>= f) = f a := rfl

/-! ## Durations -/

/-- Durations stay below this many nanoseconds. -/
def Duration.limit : Nat := wordBound * perSecond

theorem Duration.add_ok {d e : Duration} (h : d.nanos + e.nanos < limit) :
    d.add e = .ok ⟨d.nanos + e.nanos⟩ := if_pos h

theorem Duration.eq_of_nanos {d e : Duration} (h : d.nanos = e.nanos) : d = e := by
  cases d; cases e; rw [mk.injEq]; exact h

namespace Day

theorem add_ok {d : Day} {r : Record} (h : d.duration.nanos + r.duration.nanos < Duration.limit) :
    ∃ day, d.add r = .ok day ∧ day.date = d.date ∧ day.duration.nanos = d.duration.nanos + r.duration.nanos := by
  unfold add
  rw [Duration.add_ok h]
  exact ⟨_, rfl, rfl, rfl⟩

theorem date_of_add {d day : Day} {r : Record} (h : d.add r = .ok day) : day.date = d.date := by
  unfold add at h
  cases hd : d.duration.add r.duration with
  | error f => rw [hd] at h; cases h
  | ok e => rw [hd] at h; cases h; rfl

/-- A day never gets shorter. -/
theorem nanos_le_of_add {d day : Day} {r : Record} (h : d.add r = .ok day) :
    d.duration.nanos ≤ day.duration.nanos := by
  unfold add Duration.add Duration.checked at h
  split at h
  · cases h; exact Nat.le_add_right _ _
  · cases h

end Day

namespace Log

/-! ## Time spent on a date -/

/-- The nanoseconds that the days give for a date. -/
def nanosOn (date : Date) (days : List Day) : Nat :=
  ((days.filter (·.date = date)).map (·.duration.nanos)).sum

/-- The nanoseconds that the records give for a date. -/
def nanosIn (date : Date) (records : List Record) : Nat :=
  ((records.filter (·.timestamp.date = date)).map (·.duration.nanos)).sum

/-- No date has more time in the records than a duration can hold. -/
def Fits (records : List Record) : Prop := ∀ date, nanosIn date records < Duration.limit

theorem nanosOn_cons (date : Date) (day : Day) (days : List Day) :
    nanosOn date (day :: days) = (if day.date = date then day.duration.nanos else 0) + nanosOn date days := by
  unfold nanosOn
  by_cases h : day.date = date <;> simp [h]

theorem nanosIn_cons (date : Date) (r : Record) (records : List Record) :
    nanosIn date (r :: records) =
      (if r.timestamp.date = date then r.duration.nanos else 0) + nanosIn date records := by
  unfold nanosIn
  by_cases h : r.timestamp.date = date <;> simp [h]

/-- A date has no more time than all records together. -/
theorem nanosIn_le (date : Date) (records : List Record) :
    nanosIn date records ≤ (records.map (·.duration.nanos)).sum := by
  induction records with
  | nil => exact Nat.le_refl 0
  | cons r records ih =>
    rw [nanosIn_cons, List.map_cons, List.sum_cons]
    split <;> omega

/-! ## Adding a record -/

/-- The days are in strict order, so each date has one entry at most. -/
def Ordered (days : List Day) : Prop := days.Pairwise fun d e => d.date.before e.date = true

/-- The entries of the days after a record has been added: the record's date is among them. -/
theorem mem_dates_addToDays {r : Record} {days days' : List Day} (h : addToDays r days = .ok days') (date : Date) :
    date ∈ days'.map (·.date) ↔ date ∈ days.map (·.date) ∨ date = r.timestamp.date := by
  induction days generalizing days' with
  | nil =>
    obtain ⟨day, hadd, h⟩ := ok_of_bind h
    cases h
    simp [Day.date_of_add hadd]
  | cons day days ih =>
    rw [addToDays] at h
    split at h
    · rename_i hday
      obtain ⟨day', hadd, h⟩ := ok_of_bind h
      cases h
      simp only [List.map_cons, List.mem_cons, Day.date_of_add hadd, hday]
      tauto
    · split at h
      · obtain ⟨first, hadd, h⟩ := ok_of_bind h
        cases h
        simp only [List.map_cons, List.mem_cons, Day.date_of_add hadd]
        tauto
      · obtain ⟨rest, hadd, h⟩ := ok_of_bind h
        cases h
        simp only [List.map_cons, List.mem_cons, ih hadd]
        tauto

/-- Adding a record keeps the days in order. -/
theorem ordered_addToDays {r : Record} {days days' : List Day} (hs : Ordered days)
    (h : addToDays r days = .ok days') : Ordered days' := by
  induction days generalizing days' with
  | nil =>
    obtain ⟨day, -, h⟩ := ok_of_bind h
    cases h
    exact List.pairwise_singleton ..
  | cons day days ih =>
    obtain ⟨hfirst, hrest⟩ := List.pairwise_cons.1 hs
    rw [addToDays] at h
    split at h
    · obtain ⟨day', hadd, h⟩ := ok_of_bind h
      cases h
      exact List.pairwise_cons.2 ⟨by rwa [Day.date_of_add hadd], hrest⟩
    · rename_i hday
      split at h
      · -- the record comes before all days
        rename_i hbefore
        obtain ⟨first, hadd, h⟩ := ok_of_bind h
        cases h
        refine List.pairwise_cons.2 ⟨fun e he => ?_, hs⟩
        rw [Day.date_of_add hadd]
        rcases List.mem_cons.1 he with rfl | he
        · exact hbefore
        · exact Date.before_trans hbefore (hfirst e he)
      · rename_i hbefore
        obtain ⟨rest, hadd, h⟩ := ok_of_bind h
        cases h
        refine List.pairwise_cons.2 ⟨fun e he => ?_, ih hrest hadd⟩
        rcases (mem_dates_addToDays hadd e.date).1 (List.mem_map_of_mem he) with hold | hnew
        · obtain ⟨e', he', hdate⟩ := List.mem_map.1 hold
          rw [← hdate]
          exact hfirst e' he'
        · rw [hnew]
          -- neither the same date nor an earlier one
          cases hafter : day.date.before r.timestamp.date with
          | true => rfl
          | false => exact absurd (Date.eq_of_not_before hafter (by simpa using hbefore)) hday

/-- A record can be added if its date has time left, and it adds its time to its date. -/
theorem addToDays_ok {r : Record} {days : List Day}
    (h : nanosOn r.timestamp.date days + r.duration.nanos < Duration.limit) :
    ∃ days', addToDays r days = .ok days' ∧ ∀ date, nanosOn date days' =
      nanosOn date days + if r.timestamp.date = date then r.duration.nanos else 0 := by
  induction days with
  | nil =>
    obtain ⟨day, hadd, hdate, hnanos⟩ := Day.add_ok (d := { date := r.timestamp.date }) (r := r)
      (by simpa [nanosOn, Duration.zero] using h)
    refine ⟨[day], by rw [addToDays, hadd]; rfl, fun date => ?_⟩
    rw [nanosOn_cons, hdate, hnanos]
    simp [Duration.zero, nanosOn]
  | cons day days ih =>
    rw [nanosOn_cons] at h
    rw [addToDays]
    split
    · rename_i hday
      rw [if_pos hday] at h
      obtain ⟨day', hadd, hdate, hnanos⟩ := Day.add_ok (d := day) (r := r) (by omega)
      refine ⟨day' :: days, by rw [hadd]; rfl, fun date => ?_⟩
      rw [nanosOn_cons, nanosOn_cons, hdate, hnanos, hday]
      split <;> omega
    · rename_i hday
      rw [if_neg hday] at h
      split
      · obtain ⟨first, hadd, hdate, hnanos⟩ := Day.add_ok (d := { date := r.timestamp.date }) (r := r)
          (by simp only [Duration.zero]; omega)
        refine ⟨first :: day :: days, by rw [hadd]; rfl, fun date => ?_⟩
        rw [nanosOn_cons, hdate, hnanos]
        simp only [Duration.zero]
        split <;> omega
      · obtain ⟨days', hadd, hnanos⟩ := ih (by omega)
        refine ⟨day :: days', by rw [hadd]; rfl, fun date => ?_⟩
        rw [nanosOn_cons, nanosOn_cons, hnanos]
        omega

/-! ## Folding records -/

/-- Adds the records one after the other. -/
def addAll (days : List Day) (records : List Record) : Except Fault (List Day) :=
  records.foldlM (fun days r => addToDays r days) days

theorem addAll_cons (days : List Day) (r : Record) (records : List Record) :
    addAll days (r :: records) = addToDays r days >>= fun days => addAll days records := rfl

theorem daysOf_append (a b : List Record) : daysOf (a ++ b) = daysOf a >>= fun days => addAll days b :=
  List.foldlM_append ..

theorem ordered_addAll {days days' : List Day} {records : List Record} (hs : Ordered days)
    (h : addAll days records = .ok days') : Ordered days' := by
  induction records generalizing days with
  | nil => cases h; exact hs
  | cons r records ih =>
    rw [addAll_cons] at h
    obtain ⟨next, hadd, h⟩ := ok_of_bind h
    exact ih (ordered_addToDays hs hadd) h

theorem mem_dates_addAll {days days' : List Day} {records : List Record} (h : addAll days records = .ok days')
    (date : Date) :
    date ∈ days'.map (·.date) ↔ date ∈ days.map (·.date) ∨ ∃ r ∈ records, date = r.timestamp.date := by
  induction records generalizing days with
  | nil => cases h; simp
  | cons r records ih =>
    rw [addAll_cons] at h
    obtain ⟨next, hadd, h⟩ := ok_of_bind h
    rw [ih h, mem_dates_addToDays hadd]
    simp only [List.mem_cons, exists_eq_or_imp]
    tauto

/-- Records can be added as long as every date has time left for all of them. -/
theorem addAll_ok {days : List Day} {records : List Record}
    (h : ∀ date, nanosOn date days + nanosIn date records < Duration.limit) :
    ∃ days', addAll days records = .ok days' := by
  induction records generalizing days with
  | nil => exact ⟨days, rfl⟩
  | cons r records ih =>
    have hr := h r.timestamp.date
    rw [nanosIn_cons, if_pos rfl] at hr
    have hfirst : nanosOn r.timestamp.date days + r.duration.nanos < Duration.limit := by omega
    obtain ⟨next, hadd, hnanos⟩ := addToDays_ok hfirst
    rw [addAll_cons, hadd]
    refine ih fun date => ?_
    have := h date
    rw [nanosIn_cons] at this
    rw [hnanos]
    omega

theorem daysOf_ok {records : List Record} (h : Fits records) : ∃ days, daysOf records = .ok days := by
  have hnone : ∀ date, nanosOn date [] + nanosIn date records < Duration.limit := fun date => by
    simpa [nanosOn] using h date
  exact addAll_ok hnone

end Log

end KanaTutor
