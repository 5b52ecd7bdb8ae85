/-
The best of a log, whatever is recorded in it and whenever it is emptied. Its longest time is always that of the longest
day, because a day only gets longer. Its highest speed is that of the fastest day as the days have stood: a day that
becomes slower keeps the speed it once had there, although the series, and the log when it is opened again, no longer
know it.
-/
import KanaTutor.Proofs.Stats.Appending

namespace KanaTutor.Log

/-! ## The best of some days -/

/-- The largest of some numbers, zero if there are none. -/
def largest (ns : List Nat) : Nat := ns.max?.getD 0

/-- The highest speed of some days. -/
def fastest (days : List Day) : Nat := largest (days.map Day.wordsPerMinute)

theorem largest_eq_foldl (ns : List Nat) : largest ns = ns.foldl max 0 := by
  rw [List.foldl_max, Nat.zero_max, largest]

theorem le_largest {ns : List Nat} {n : Nat} (h : n ∈ ns) : n ≤ largest ns := List.le_max?_getD_of_mem h

theorem largest_le {ns : List Nat} {bound : Nat} (h : ∀ n ∈ ns, n ≤ bound) : largest ns ≤ bound := by
  unfold largest
  cases hmax : ns.max? with
  | none => exact Nat.zero_le bound
  | some n => exact h n (List.max?_eq_some_iff.1 hmax).1

theorem fastest_append (days : List Day) (day : Day) :
    fastest (days ++ [day]) = max (fastest days) day.wordsPerMinute := by
  rw [fastest, largest_eq_foldl, List.map_append, List.foldl_append, ← largest_eq_foldl, ← fastest]
  rfl

theorem le_fastest {days : List Day} {day : Day} (h : day ∈ days) : day.wordsPerMinute ≤ fastest days :=
  le_largest (List.mem_map_of_mem h)

theorem fastest_le {days : List Day} {bound : Nat} (h : ∀ day ∈ days, day.wordsPerMinute ≤ bound) :
    fastest days ≤ bound :=
  largest_le (List.forall_mem_map.2 h)

theorem nanos_max (d e : Duration) : (d.max e).nanos = max d.nanos e.nanos := by
  unfold Duration.max
  split <;> omega

theorem nanos_longest (days : List Day) : (longest days).nanos = largest (days.map (·.duration.nanos)) := by
  rw [largest_eq_foldl, List.foldl_map, longest]
  exact (List.foldl_hom Duration.nanos fun best day => (nanos_max best day.duration).symm).symm

theorem speed_foldl_raise (log : Log) (days : List Day) :
    (days.foldl raise log).maxWordsPerMinute = (days.map Day.wordsPerMinute).foldl max log.maxWordsPerMinute := by
  induction days generalizing log with
  | nil => rfl
  | cons day days ih => exact ih (log.raise day)

/-! ## Deeds -/

/-- What is done to an open log. -/
inductive Deed where
  | append (finish : Finish)
  | reset

/-- The log and the disk after a deed. -/
def perform (log : Log) (disk : Disk) : Deed → Except Fault (Log × Disk)
  | .append f => do
    let (_, log, disk) ← log.append disk f.lesson f.result f.now
    .ok (log, disk)
  | .reset => .ok (log.reset disk)

/-- What a log has seen since it was opened or last emptied: the records, those it was opened with first, and the days
as they have stood. -/
structure Chronicle where
  records : List Record := []
  standings : List Day := []
deriving DecidableEq

/-- The chronicle after a deed that leads from one log to another. -/
def Chronicle.add (seen : Chronicle) (log after : Log) : Deed → Chronicle
  | .append f =>
    { records := seen.records ++ [recordAfter log.latest f]
      standings := seen.standings ++ after.days.getLast?.toList }
  | .reset => {}

/-- Does one thing after the other: what the log has seen then, the log and the disk. -/
def performAll (seen : Chronicle) (log : Log) (disk : Disk) : List Deed → Except Fault (Chronicle × Log × Disk)
  | [] => .ok (seen, log, disk)
  | deed :: rest => do
    let (after, disk) ← log.perform disk deed
    performAll (seen.add log after deed) after disk rest

/-! ## The invariant -/

/-- The chronicle is that of the log. -/
structure Tells (seen : Chronicle) (log : Log) : Prop where
  inStep : log.InStep
  days : daysOf seen.records = .ok log.days
  standings : ∀ day ∈ log.days, day ∈ seen.standings
  speed : log.maxWordsPerMinute = fastest seen.standings

theorem Tells.withFile {seen : Chronicle} {log : Log} (h : Tells seen log) (file : Option Location) :
    Tells seen { log with file } :=
  ⟨h.inStep.withFile file, h.days, h.standings, h.speed⟩

/-- An empty log has seen nothing. -/
theorem tells_empty (path : Path) : Tells {} { path } :=
  ⟨⟨List.Pairwise.nil, rfl, rfl⟩, rfl, fun _ hday => hday, rfl⟩

theorem tells_ofRecords {path : Path} {records : List Record} {log : Log} (h : ofRecords path records = .ok log) :
    Tells ⟨records, log.days⟩ log := by
  obtain ⟨days, hdays, hlog⟩ := ok_of_bind h
  obtain ⟨log', hlog', rfl, -, hin⟩ := inStep_ofRecords path hdays
  rw [h] at hlog'
  cases hlog'
  refine ⟨hin, hdays, fun _ hday => hday, ?_⟩
  have hspeed := congrArg maxWordsPerMinute (Except.ok.inj hlog)
  rw [speed_foldl_raise, ← largest_eq_foldl] at hspeed
  exact hspeed.symm

theorem mem_splitDay {date : Date} {days : List Day} {day : Day} (h : day ∈ (splitDay date days).1) : day ∈ days := by
  rcases List.eq_nil_or_concat' days with rfl | ⟨front, last, rfl⟩
  · exact h
  · rw [splitDay_concat] at h
    split at h
    · exact List.mem_append_left _ h
    · exact h

/-- A round that is recorded adds its record, and its day as it stands then. -/
theorem Tells.append {seen : Chronicle} {log after : Log} {disk disk' : Disk} {f : Finish} (h : Tells seen log)
    (hperform : log.perform disk (.append f) = .ok (after, disk')) : Tells (seen.add log after (.append f)) after := by
  obtain ⟨⟨r, log', disk''⟩, happend, hrest⟩ := ok_of_bind hperform
  cases hrest
  obtain ⟨counted, hcount, hlast⟩ := ok_of_bind happend
  cases hlast
  have hnot := h.inStep.not_before f
  replace hcount : log.count (recordAfter log.latest f) = .ok after := hcount
  have hday := hcount
  rw [count_eq] at hday
  obtain ⟨day, hadd, hafter⟩ := ok_of_bind hday
  have hdays : addToDays (recordAfter log.latest f) log.days =
      .ok ((splitDay (recordAfter log.latest f).timestamp.date log.days).1 ++ [day]) := by
    rw [addToDays_eq h.inStep.ordered hnot, hadd]
    rfl
  obtain ⟨log', hcount', -, -, hin⟩ := h.inStep.count hnot hdays
  rw [hcount] at hcount'
  cases hcount'
  have hafter := Except.ok.inj hafter
  have hstanding : seen.add log after (.append f) =
      ⟨seen.records ++ [recordAfter log.latest f], seen.standings ++ [day]⟩ := by
    rw [Chronicle.add, ← hafter]
    simp [raise]
  rw [hstanding]
  refine ⟨hin, ?_, fun d hd => ?_, ?_⟩
  · show daysOf (seen.records ++ [recordAfter log.latest f]) = _
    rw [daysOf_append, h.days, ok_bind, addAll_cons, hdays, ok_bind, ← hafter]
    rfl
  · rw [← hafter] at hd
    refine List.mem_append.2 ((List.mem_append.1 hd).imp_left fun hd => ?_)
    exact h.standings d (mem_splitDay hd)
  · show _ = fastest (seen.standings ++ [day])
    rw [fastest_append, ← h.speed, ← hafter]
    rfl

theorem Tells.perform {seen : Chronicle} {log after : Log} {disk disk' : Disk} {deed : Deed} (h : Tells seen log)
    (hperform : log.perform disk deed = .ok (after, disk')) : Tells (seen.add log after deed) after := by
  cases deed with
  | append f => exact h.append hperform
  | reset =>
    cases hperform
    exact (tells_empty log.path).withFile _

theorem Tells.performAll {seen last : Chronicle} {log after : Log} {disk disk' : Disk} {deeds : List Deed}
    (h : Tells seen log) (hall : Log.performAll seen log disk deeds = .ok (last, after, disk')) :
    Tells last after := by
  induction deeds generalizing seen log disk with
  | nil =>
    cases hall
    exact h
  | cons deed rest ih =>
    obtain ⟨⟨next, disk₁⟩, hnext, hrest⟩ := ok_of_bind hall
    exact ih (h.perform hnext) hrest

/-! ## Opening -/

/-- The records that a log is opened with. -/
def loaded (disk : Disk) (path : Path) (now : Timestamp) : List Record :=
  match loadRecords disk path now with
  | .ok records => records
  | .error _ => []

/-- A log that is opened has the totals of these records, and its file is opened to write after its end. -/
theorem exists_of_openAt {disk disk' : Disk} {path : Path} {now : Timestamp} {log : Log}
    (h : openAt disk path now = .ok (log, disk')) :
    ∃ base file, ofRecords path (loaded disk path now) = .ok base ∧ openFile disk path false = (file, disk') ∧
      log = { base with file } := by
  unfold openAt at h
  unfold loaded
  cases hload : loadRecords disk path now with
  | ok records =>
    rw [hload] at h
    obtain ⟨base, hbase, hrest⟩ := ok_of_bind h
    cases hrest
    exact ⟨base, _, hbase, rfl, rfl⟩
  | error e =>
    rw [hload] at h
    cases e with
    | unreadable =>
      cases h
      exact ⟨{ path }, _, rfl, rfl, rfl⟩
    | fault f => cases h

theorem tells_openAt {disk disk' : Disk} {path : Path} {now : Timestamp} {log : Log}
    (h : openAt disk path now = .ok (log, disk')) : Tells ⟨loaded disk path now, log.days⟩ log := by
  obtain ⟨base, file, hbase, -, rfl⟩ := exists_of_openAt h
  exact (tells_ofRecords hbase).withFile file

/-! ## The best of the series -/

/-- For every log that is opened, and all that is done to it: its longest time is that of the longest day of the series.
Its highest speed is that of the fastest day as the days have stood since it was opened or last emptied; this is never
less than that of the series, and it is that of the series exactly if no day of it was ever faster than its fastest is
now. A log that is opened with the same records has the same days and the same longest time, and its highest speed is
that of the series. -/
theorem best_of_performAll {disk disk₁ disk₂ : Disk} {path : Path} {now : Timestamp} {log after : Log}
    {deeds : List Deed} {seen : Chronicle} (hopen : openAt disk path now = .ok (log, disk₁))
    (hall : performAll ⟨loaded disk path now, log.days⟩ log disk₁ deeds = .ok (seen, after, disk₂)) :
    after.maxDuration.nanos = largest (after.days.map (·.duration.nanos)) ∧
    after.maxWordsPerMinute = fastest seen.standings ∧ (∀ day ∈ after.days, day ∈ seen.standings) ∧
    fastest after.days ≤ after.maxWordsPerMinute ∧
    (after.maxWordsPerMinute = fastest after.days ↔
      ∀ day ∈ seen.standings, day.wordsPerMinute ≤ fastest after.days) ∧
    ∃ again, ofRecords path seen.records = .ok again ∧ again.days = after.days ∧
      again.maxDuration = after.maxDuration ∧ again.maxWordsPerMinute = fastest after.days := by
  have htells := (tells_openAt hopen).performAll hall
  have hle : fastest after.days ≤ after.maxWordsPerMinute := by
    rw [htells.speed]
    exact fastest_le fun day hday => le_fastest (htells.standings day hday)
  refine ⟨?_, htells.speed, htells.standings, hle, ?_, ?_⟩
  · rw [htells.inStep.longest, nanos_longest]
  · constructor
    · intro heq day hday
      rw [← heq, htells.speed]
      exact le_fastest hday
    · intro hslow
      refine Nat.le_antisymm ?_ hle
      rw [htells.speed]
      exact fastest_le hslow
  · obtain ⟨again, hagain, hdays, -, hin⟩ := inStep_ofRecords path htells.days
    refine ⟨again, hagain, hdays, ?_, ?_⟩
    · rw [hin.longest, htells.inStep.longest, hdays]
    · rw [(tells_ofRecords hagain).speed, hdays]

namespace SlowerRound

def place : Path := "log".toList

/-- A disk without a log, and with an empty one. -/
def blank : Disk := ⟨[], []⟩

def emptied : Disk := ⟨[([place], .file [])], []⟩

def day : Date := ⟨2024, 6, 3, by decide⟩

def morning : Timestamp := ⟨day, 34200, 62500000, by decide, by decide⟩

def afternoon : Timestamp := ⟨day, 46800, 62500000, by decide, by decide⟩

/-- A fast round in the morning, and a slow one in the afternoon. -/
def fast : Finish := ⟨['a'], ⟨100, 100, .ofWholeSeconds 12⟩, morning⟩

def slow : Finish := ⟨['a'], ⟨100, 100, .ofWholeSeconds 48⟩, afternoon⟩

def opened : Log := { path := place, file := some [place] }

/-- The day after the fast round, and after both. -/
def early : Day := ⟨day, .ofWholeSeconds 12, 100, 100⟩

def late : Day := ⟨day, .ofWholeSeconds 60, 200, 200⟩

def seen : Chronicle :=
  ⟨[.ofRound morning ['a'] fast.result, .ofRound afternoon ['a'] slow.result], [early, late]⟩

def after : Log := ⟨place, some [place], [late], 100, .ofWholeSeconds 60, some afternoon.toWholeSecond⟩

def written : Disk :=
  ⟨[([place], .file (Utf8.encode
    "2024-06-03 09:30:00,\"a\",00:12.0,100,100\n2024-06-03 13:00:00,\"a\",00:48.0,100,100\n".toList))], []⟩

theorem openAt_blank : openAt blank place morning = .ok (opened, emptied) := by decide +kernel

theorem performAll_opened :
    performAll ⟨loaded blank place morning, opened.days⟩ opened emptied [.append fast, .append slow] =
      .ok (seen, after, written) := by
  decide +kernel

end SlowerRound

open SlowerRound in
theorem best_of_performAll_twoRounds :
    openAt blank place morning = .ok (opened, emptied) ∧
    performAll ⟨loaded blank place morning, opened.days⟩ opened emptied [.append fast, .append slow] =
      .ok (seen, after, written) ∧
    after.maxDuration.nanos = largest (after.days.map (·.duration.nanos)) ∧
    after.maxWordsPerMinute = fastest seen.standings ∧ fastest after.days ≤ after.maxWordsPerMinute := by
  obtain ⟨hlongest, hspeed, -, hle, -⟩ := best_of_performAll openAt_blank performAll_opened
  exact ⟨openAt_blank, performAll_opened, hlongest, hspeed, hle⟩

open SlowerRound in
/-- A round makes its day slower. The log keeps the speed of the day before it, which no day of the series has, and a
log with the same records does not know. -/
theorem maxWordsPerMinute_after_slower :
    performAll ⟨loaded blank place morning, opened.days⟩ opened emptied [.append fast, .append slow] =
      .ok (seen, after, written) ∧
    after.maxWordsPerMinute = 100 ∧ fastest after.days = 40 ∧
    ∃ again, ofRecords place seen.records = .ok again ∧ again.days = after.days ∧ again.maxWordsPerMinute = 40 := by
  refine ⟨performAll_opened, rfl, by decide +kernel, { after with file := none, maxWordsPerMinute := 40 }, ?_, rfl, rfl⟩
  decide +kernel

end KanaTutor.Log
