/-
The totals that a log keeps while rounds are recorded are those of all its records. A log only ever looks
at its last day. This is enough because the latest timestamp is on the last day and a record is never
stamped earlier than that, whatever the clock reads and in whatever order the records were when the log
was opened.
-/
import KanaTutor.Proofs.Stats.Days
import Mathlib.Data.List.Basic
import Mathlib.Data.List.Induction

namespace KanaTutor.Log

/-! ## Rounds recorded one after the other -/

/-- A round that is recorded: its lesson, its result, and what the clock reads. -/
structure Finish where
  lesson : Text
  result : RoundResult
  now : Timestamp

/-- Records rounds one after the other: their records, the log and the disk. -/
def appendAll (log : Log) (disk : Disk) : List Finish → Except Fault (List Record × Log × Disk)
  | [] => .ok ([], log, disk)
  | c :: rest => do
    let (r, log, disk) ← log.append disk c.lesson c.result c.now
    let (records, log, disk) ← appendAll log disk rest
    .ok (r :: records, log, disk)

/-- The record of a round, in a log with a latest timestamp. -/
def recordAfter (latest : Option Timestamp) (c : Finish) : Record :=
  .ofRound (stamp { path := [], latest } c.now) c.lesson c.result

/-- The records of rounds that are recorded one after the other. -/
def recordsAfter (latest : Option Timestamp) : List Finish → List Record
  | [] => []
  | c :: rest => recordAfter latest c :: recordsAfter (some (recordAfter latest c).timestamp) rest

/-! ## The longest day -/

/-- The longest time of a day. -/
def longest (days : List Day) : Duration := days.foldl (fun best day => best.max day.duration) .zero

theorem longest_append (days : List Day) (day : Day) : longest (days ++ [day]) = (longest days).max day.duration := by
  rw [longest, List.foldl_append]; rfl

theorem max_max_of_le {a b c : Duration} (h : b.nanos ≤ c.nanos) : (a.max b).max c = a.max c := by
  unfold Duration.max
  split
  · split
    · split
      · rfl
      · omega
    · have hbc : b = c := Duration.eq_of_nanos (by omega)
      subst hbc
      split <;> rfl
  · rfl

theorem foldl_raise (log : Log) (days : List Day) :
    (days.foldl raise log).days = log.days ∧ (days.foldl raise log).latest = log.latest ∧
      (days.foldl raise log).maxDuration = days.foldl (fun best day => best.max day.duration) log.maxDuration := by
  induction days generalizing log with
  | nil => exact ⟨rfl, rfl, rfl⟩
  | cons day days ih => exact ih (log.raise day)

/-! ## The day of a record -/

/-- The days before the one that a date belongs to, if it belongs to the last day or comes after it, and
that day so far. -/
def splitDay (date : Date) (days : List Day) : List Day × Day :=
  match days.getLast? with
  | some last => if last.date = date then (days.dropLast, last) else (days, { date })
  | none => ([], { date })

theorem count_eq (log : Log) (r : Record) :
    log.count r = (splitDay r.timestamp.date log.days).2.add r >>= fun day =>
      .ok (raise { log with
        latest := some r.timestamp
        days := (splitDay r.timestamp.date log.days).1 ++ [day] } day) := rfl

theorem splitDay_concat (date : Date) (front : List Day) (last : Day) :
    splitDay date (front ++ [last]) = if last.date = date then (front, last) else (front ++ [last], { date }) := by
  simp [splitDay]

theorem date_splitDay (date : Date) (days : List Day) : (splitDay date days).2.date = date := by
  unfold splitDay
  split
  · split
    · assumption
    · rfl
  · rfl

/-- Days before that of the record are passed over. -/
theorem addToDays_append {r : Record} {front : List Day} (h : ∀ d ∈ front, d.date.before r.timestamp.date = true)
    (rest : List Day) :
    addToDays r (front ++ rest) = addToDays r rest >>= fun days => .ok (front ++ days) := by
  induction front with
  | nil => cases hrest : addToDays r rest <;> simp [hrest] <;> rfl
  | cons d front ih =>
    obtain ⟨hd, hfront⟩ := List.forall_mem_cons.1 h
    rw [List.cons_append, addToDays, if_neg (Date.ne_of_before hd), Date.not_before_of_before hd, ih hfront]
    cases addToDays r rest <;> rfl

/-- In ordered days, a record that does not come before the last day is added at the end. -/
theorem addToDays_eq {r : Record} {days : List Day} (hs : Ordered days)
    (hr : ∀ last ∈ days.getLast?, r.timestamp.date.before last.date = false) :
    addToDays r days = (splitDay r.timestamp.date days).2.add r >>= fun day =>
      .ok ((splitDay r.timestamp.date days).1 ++ [day]) := by
  rcases List.eq_nil_or_concat' days with rfl | ⟨front, last, rfl⟩
  · rfl
  · obtain ⟨-, -, hlast⟩ := List.pairwise_append.1 hs
    rw [splitDay_concat]
    split
    · -- the record belongs to the last day
      rename_i hdate
      rw [addToDays_append fun d hd => hdate ▸ hlast d hd last (List.mem_singleton_self _), addToDays, if_pos hdate]
      cases last.add r <;> rfl
    · rename_i hdate
      have hafter : last.date.before r.timestamp.date = true := by
        cases h : last.date.before r.timestamp.date with
        | true => rfl
        | false => exact absurd (Date.eq_of_not_before h (hr last (by simp))) hdate
      have hall : ∀ d ∈ front ++ [last], d.date.before r.timestamp.date = true := fun d hd => by
        rcases List.mem_append.1 hd with hd | hd
        · exact Date.before_trans (hlast d hd last (List.mem_singleton_self _)) hafter
        · rw [List.mem_singleton.1 hd]; exact hafter
      have := addToDays_append hall []
      rw [List.append_nil] at this
      rw [this, addToDays]
      cases Day.add { date := r.timestamp.date } r <;> rfl

/-- A day that has become longer counts instead of what it was. -/
theorem longest_splitDay {date : Date} {days : List Day} {day : Day}
    (h : (splitDay date days).2.duration.nanos ≤ day.duration.nanos) :
    (longest days).max day.duration = longest ((splitDay date days).1 ++ [day]) := by
  rw [longest_append]
  rcases List.eq_nil_or_concat' days with rfl | ⟨front, last, rfl⟩
  · rfl
  · rw [splitDay_concat] at h ⊢
    split
    · rename_i hdate
      rw [if_pos hdate] at h
      rw [longest_append, max_max_of_le h]
    · rfl

/-! ## The invariant -/

/-- A log in step with its records: its days are in order, its latest timestamp is on the last of them,
and its longest time is that of the longest day. -/
structure InStep (log : Log) : Prop where
  ordered : Ordered log.days
  latest : log.latest.map (·.date) = log.days.getLast?.map (·.date)
  longest : log.maxDuration = longest log.days

/-- A record never comes before the last day. -/
theorem InStep.not_before {log : Log} (h : log.InStep) (c : Finish) :
    ∀ last ∈ log.days.getLast?, (recordAfter log.latest c).timestamp.date.before last.date = false := by
  intro last hlast
  have hdate := h.latest
  rw [hlast] at hdate
  obtain ⟨latest, hlatest, hdate⟩ := Option.map_eq_some_iff.1 hdate
  replace hdate : latest.date = last.date := hdate
  rw [hlatest, ← hdate]
  show (if c.now.before latest then latest else c.now).date.before latest.date = false
  split
  · exact Date.before_irrefl _
  · rename_i hnow
    simp only [Timestamp.before, Bool.or_eq_true, not_or, Bool.not_eq_true] at hnow
    exact hnow.1

/-- Counting a record adds it to the days, and the log stays in step. -/
theorem InStep.count {log : Log} {r : Record} {days : List Day} (h : log.InStep)
    (hr : ∀ last ∈ log.days.getLast?, r.timestamp.date.before last.date = false)
    (hadd : addToDays r log.days = .ok days) :
    ∃ log', log.count r = .ok log' ∧ log'.days = days ∧ log'.latest = some r.timestamp ∧ log'.InStep := by
  have hs := ordered_addToDays h.ordered hadd
  rw [addToDays_eq h.ordered hr] at hadd
  obtain ⟨day, hday, hdays⟩ := ok_of_bind hadd
  cases hdays
  refine ⟨_, by rw [count_eq, hday]; rfl, rfl, rfl, hs, ?_, ?_⟩
  · -- the record is on the last day
    show some r.timestamp.date = ((splitDay r.timestamp.date log.days).1 ++ [day]).getLast?.map (·.date)
    simp [Day.date_of_add hday, date_splitDay]
  · show log.maxDuration.max day.duration = Log.longest ((splitDay r.timestamp.date log.days).1 ++ [day])
    rw [h.longest, longest_splitDay (Day.nanos_le_of_add hday)]

/-- One round: its record is added to the days. -/
theorem InStep.append {log : Log} {c : Finish} {days : List Day} (h : log.InStep) (disk : Disk)
    (hadd : addToDays (recordAfter log.latest c) log.days = .ok days) :
    ∃ log' disk', log.append disk c.lesson c.result c.now = .ok (recordAfter log.latest c, log', disk') ∧
      log'.days = days ∧ log'.latest = some (recordAfter log.latest c).timestamp ∧ log'.InStep := by
  obtain ⟨log', hcount, hlog⟩ := h.count (h.not_before c) hadd
  exact ⟨log', _, by rw [Log.append]; exact congrArg (· >>= _) hcount, hlog⟩

/-- Any number of rounds: their records are added to the days. -/
theorem InStep.appendAll {log : Log} {days : List Day} (h : log.InStep) (disk : Disk) (calls : List Finish)
    (hadd : addAll log.days (recordsAfter log.latest calls) = .ok days) :
    ∃ log' disk', log.appendAll disk calls = .ok (recordsAfter log.latest calls, log', disk') ∧
      log'.days = days ∧ log'.InStep := by
  induction calls generalizing log disk with
  | nil => cases hadd; exact ⟨log, disk, rfl, rfl, h⟩
  | cons c rest ih =>
    rw [recordsAfter, addAll_cons] at hadd
    obtain ⟨next, hnext, hrest⟩ := ok_of_bind hadd
    obtain ⟨log₁, disk₁, happend, rfl, hlatest, hlog⟩ := h.append disk hnext
    rw [← hlatest] at hrest
    obtain ⟨log', disk', hall, hdays, hlog'⟩ := ih hlog disk₁ hrest
    refine ⟨log', disk', ?_, hdays, hlog'⟩
    rw [Log.appendAll, happend, recordsAfter, ← hlatest]
    show (log₁.appendAll disk₁ rest >>= _) = _
    rw [hall]
    rfl

/-! ## Opening -/

theorem latestOf_concat (records : List Record) (r : Record) :
    latestOf (records ++ [r]) = some (((latestOf records).map (·.later r.timestamp)).getD r.timestamp) := by
  rw [latestOf, List.foldl_append]
  rfl

theorem latestOf_eq_none {records : List Record} (h : latestOf records = none) : records = [] := by
  rcases List.eq_nil_or_concat' records with hnil | ⟨front, last, rfl⟩
  · exact hnil
  · rw [latestOf_concat] at h
    cases h

/-- The latest of some timestamps is one of them, and comes before none. -/
theorem latestOf_eq_some {records : List Record} {t : Timestamp} (h : latestOf records = some t) :
    (∃ r ∈ records, r.timestamp = t) ∧ ∀ r ∈ records, t.before r.timestamp = false := by
  induction records using List.reverseRecOn generalizing t with
  | nil => cases h
  | append_singleton records r ih =>
    rw [latestOf_concat] at h
    cases hlatest : latestOf records with
    | none =>
      -- there are no other records
      rw [hlatest] at h
      cases h
      simp [latestOf_eq_none hlatest, Timestamp.before_irrefl]
    | some latest =>
      rw [hlatest] at h
      obtain rfl : latest.later r.timestamp = t := Option.some.inj h
      obtain ⟨⟨r', hr', hmem⟩, hmax⟩ := ih hlatest
      obtain ⟨hnot, hlast⟩ := Timestamp.later_not_before latest r.timestamp
      refine ⟨?_, fun s hs => ?_⟩
      · rcases Timestamp.later_eq latest r.timestamp with heq | heq
        · exact ⟨r', List.mem_append_left _ hr', hmem.trans heq.symm⟩
        · exact ⟨r, by simp, heq.symm⟩
      · rcases List.mem_append.1 hs with hs | hs
        · exact Timestamp.not_before_trans (hmax s hs) hnot
        · rw [List.mem_singleton.1 hs]
          exact hlast

/-- In ordered days, a date that no other one comes after is the last. -/
theorem date_getLast? {days : List Day} {date : Date} (hs : Ordered days) (hmem : date ∈ days.map (·.date))
    (hmax : ∀ d ∈ days, date.before d.date = false) : days.getLast?.map (·.date) = some date := by
  rcases List.eq_nil_or_concat' days with rfl | ⟨front, last, rfl⟩
  · cases hmem
  · obtain ⟨-, -, hlast⟩ := List.pairwise_append.1 hs
    obtain ⟨d, hd, rfl⟩ := List.mem_map.1 hmem
    rcases List.mem_append.1 hd with hd | hd
    · have := hlast d hd last (List.mem_singleton_self _)
      rw [hmax last (by simp)] at this; cases this
    · simp [List.mem_singleton.1 hd]

/-- A log that has just been opened is in step with its records. -/
theorem inStep_ofRecords (path : Path) {records : List Record} {days : List Day} (h : daysOf records = .ok days) :
    ∃ log, ofRecords path records = .ok log ∧ log.days = days ∧ log.latest = latestOf records ∧ log.InStep := by
  have hs : Ordered days := ordered_addAll List.Pairwise.nil h
  obtain ⟨hdays, hlatest, hlongest⟩ := foldl_raise { path, days, latest := latestOf records } days
  refine ⟨_, by rw [ofRecords, h]; rfl, hdays, hlatest, by rwa [hdays], ?_, by rw [hdays]; exact hlongest⟩
  rw [hdays, hlatest]
  cases hlast : latestOf records with
  | none =>
    rw [latestOf_eq_none hlast] at h
    cases h
    rfl
  | some t =>
    obtain ⟨⟨r, hr, rfl⟩, hmax⟩ := latestOf_eq_some hlast
    refine (date_getLast? hs ?_ fun d hd => ?_).symm
    · exact (mem_dates_addAll h r.timestamp.date).2 (.inr ⟨r, hr, rfl⟩)
    · rcases (mem_dates_addAll h d.date).1 (List.mem_map_of_mem hd) with hnil | ⟨r', hr', hdate⟩
      · cases hnil
      · rw [hdate]
        exact Timestamp.date_not_before (hmax r' hr')

/-! ## Totals -/

theorem InStep.withFile {log : Log} (h : log.InStep) (file : Option Location) : InStep { log with file } :=
  ⟨h.ordered, h.latest, h.longest⟩

/-- A log that is opened with some records, to which rounds are added as time goes by whatever the clock
reads, has the days and the longest time of all these records, as long as the time of every day fits
into a duration. The days are in strict order and are the dates of the records. -/
theorem appendAll_ofRecords (path : Path) (loaded : List Record) (calls : List Finish)
    (h : Fits (loaded ++ recordsAfter (latestOf loaded) calls)) :
    ∃ base whole, ofRecords path loaded = .ok base ∧
      ofRecords path (loaded ++ recordsAfter (latestOf loaded) calls) = .ok whole ∧
      (∀ disk now, loadRecords disk path now = .ok loaded →
        ∃ file disk', openAt disk path now = .ok ({ base with file }, disk')) ∧
      ∀ file disk, ∃ log disk',
        appendAll { base with file } disk calls = .ok (recordsAfter (latestOf loaded) calls, log, disk') ∧
        log.days = whole.days ∧ log.maxDuration = whole.maxDuration ∧
        (log.days.map (·.date)).Pairwise (fun d e => d.before e = true) ∧
        ∀ date, date ∈ log.days.map (·.date) ↔
          ∃ r ∈ loaded ++ recordsAfter (latestOf loaded) calls, date = r.timestamp.date := by
  obtain ⟨allDays, hall⟩ := daysOf_ok h
  have hsplit := hall
  rw [daysOf_append] at hsplit
  obtain ⟨days, hdays, hrest⟩ := ok_of_bind hsplit
  obtain ⟨base, hbase, rfl, hlatest, hin⟩ := inStep_ofRecords path hdays
  obtain ⟨whole, hwhole, rfl, -, hinWhole⟩ := inStep_ofRecords path hall
  refine ⟨base, whole, hbase, hwhole, fun disk now hload => ?_, fun file disk => ?_⟩
  · unfold openAt
    rw [hload]
    simp only [hbase]
    exact ⟨_, _, rfl⟩
  · rw [← hlatest] at hrest
    obtain ⟨log, disk', happend, hlog, hinLog⟩ := (hin.withFile file).appendAll disk calls hrest
    rw [← hlatest]
    refine ⟨log, disk', happend, hlog, ?_, ?_, fun date => ?_⟩
    · rw [hinLog.longest, hinWhole.longest, hlog]
    · exact List.pairwise_map.2 hinLog.ordered
    · rw [hlog, mem_dates_addAll hall date, ← hlatest]
      simp

/-- A record of ten seconds. -/
def sampleRecord (timestamp : Timestamp) : Record := ⟨timestamp, ['a'], .ofWholeSeconds 10, 5, 6⟩

/-- The leap second at the end of a year. -/
def leapSecond : Timestamp := ⟨⟨2998, 12, 31, by decide⟩, 86399, 1000000000, by decide, by decide⟩

/-- A moment after a noon long before. -/
def earlierNoon : Timestamp := ⟨⟨2998, 5, 1, by decide⟩, 43200, 250000000, by decide, by decide⟩

/-- Records out of order, the latest in a leap second, and two rounds at a clock that has gone back. -/
theorem appendAll_ofRecords_leapSecond :
    Fits ([sampleRecord leapSecond, sampleRecord earlierNoon] ++
      recordsAfter (some leapSecond) (List.replicate 2 ⟨['b'], ⟨5, 6, .ofWholeSeconds 20⟩, earlierNoon⟩)) ∧
    ∃ base whole log disk',
      ofRecords [] [sampleRecord leapSecond, sampleRecord earlierNoon] = .ok base ∧
      ofRecords [] ([sampleRecord leapSecond, sampleRecord earlierNoon] ++
        recordsAfter (some leapSecond) (List.replicate 2 ⟨['b'], ⟨5, 6, .ofWholeSeconds 20⟩, earlierNoon⟩)) =
          .ok whole ∧
      base.appendAll ⟨[], []⟩ (List.replicate 2 ⟨['b'], ⟨5, 6, .ofWholeSeconds 20⟩, earlierNoon⟩) =
        .ok (recordsAfter (some leapSecond)
          (List.replicate 2 ⟨['b'], ⟨5, 6, .ofWholeSeconds 20⟩, earlierNoon⟩), log, disk') ∧
      log.days = whole.days ∧ log.maxDuration = whole.maxDuration ∧
      (log.days.map (·.date)).Pairwise (fun d e => d.before e = true) := by
  have hfits : Fits ([sampleRecord leapSecond, sampleRecord earlierNoon] ++
      recordsAfter (some leapSecond) (List.replicate 2 ⟨['b'], ⟨5, 6, .ofWholeSeconds 20⟩, earlierNoon⟩)) :=
    fun date => Nat.lt_of_le_of_lt (nanosIn_le date _) (by decide)
  obtain ⟨base, whole, hbase, hwhole, -, hall⟩ := appendAll_ofRecords [] _ _ hfits
  obtain ⟨log, disk', happend, hdays, hlongest, hpairwise, -⟩ := hall base.file ⟨[], []⟩
  exact ⟨hfits, base, whole, log, disk', hbase, hwhole, happend, hdays, hlongest, hpairwise⟩

end KanaTutor.Log
