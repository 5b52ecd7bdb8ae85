/-
Whether a log goes back in time. A round is stamped no earlier than the latest record, and the stamp is cut to its whole
second afterwards. So the rounds that are recorded are in order, whatever the clock reads, and none of them is before the
whole second of a record that was there; but a record in a leap second is after its whole second, and a round that is
stamped in this leap second comes before the record. The induction is along the rounds. What carries it is that the
latest timestamp of the log is that of the last record, and is at a whole second.
-/
import KanaTutor.Proofs.Stats.Best
import KanaTutor.Proofs.Stats.Opening

namespace KanaTutor

/-! ## Timestamps that are read -/

/-- A timestamp that is read is at a whole second or at the beginning of a leap second. -/
theorem Timestamp.nano_of_read? {t : Text} {s : Timestamp} (h : read? t = some s) :
    s.nano = 0 ∨ s.nano = 1000000000 := by
  simp only [read?, Option.bind_eq_bind, Option.bind_eq_some_iff, Prod.exists] at h
  obtain ⟨year, _, -, _, -, month, _, -, _, -, day, _, -, hour, _, -, _, -, minute, _, -, _, -, second, _, -, date, -,
    hof⟩ := h
  split at hof
  · unfold of? at hof
    split at hof
    · cases hof
      dsimp only
      split
      · exact .inr rfl
      · exact .inl rfl
    · cases hof
  · cases hof

theorem Record.exists_read?_of_read {line : Text} {r : Record} (h : read line = .ok r) :
    ∃ t, Timestamp.read? t = some r.timestamp := by
  unfold read at h
  dsimp only at h
  split at h
  · cases h
  · cases h
  · rename_i timestamp lesson duration correct touches hparts
    cases h
    simp only [Option.bind_eq_bind, Option.bind_eq_some_iff, Prod.exists] at hparts
    obtain ⟨t, _, _, _, _, -, found, hfound, _, -, hrest⟩ := hparts
    obtain rfl : found = timestamp := (Prod.mk.inj (Option.some.inj hrest)).1
    exact ⟨t, hfound⟩
  · cases h

namespace Log

/-! ## The records at the start -/

section

variable {disk disk' : Disk} {path : Path} {now : Timestamp} {log : Log}

theorem latest_of_openAt (h : openAt disk path now = .ok (log, disk')) :
    log.latest = latestOf (loaded disk path now) := by
  obtain ⟨base, file, hbase, -, rfl⟩ := exists_of_openAt h
  obtain ⟨days, hdays, -⟩ := ok_of_bind hbase
  obtain ⟨base', hbase', -, hlatest, -⟩ := inStep_ofRecords path hdays
  obtain rfl := Except.ok.inj (hbase.symm.trans hbase')
  exact hlatest

theorem nano_of_loaded (disk : Disk) (path : Path) (now : Timestamp) :
    ∀ r ∈ loaded disk path now, r.timestamp.nano = 0 ∨ r.timestamp.nano = 1000000000 := by
  intro r hr
  unfold loaded at hr
  by_cases hshort : ∀ line ∈ splitLines (contentAt disk path), ¬TooLong line
  · rcases loadRecords_of_not_tooLong hshort with hload | ⟨hload, -⟩
    · rw [hload] at hr
      obtain ⟨line, -, hline⟩ := List.mem_filterMap.1 hr
      obtain ⟨text, -, hread⟩ := exists_read_of_recordOn hline
      obtain ⟨t, ht⟩ := Record.exists_read?_of_read hread
      exact Timestamp.nano_of_read? ht
    · rw [hload] at hr
      cases hr
  · rw [loadRecords_of_tooLong (by simpa using hshort)] at hr
    cases hr

end

/-! ## Rounds in order -/

/-- Records are in order if none of them is after one that follows it. -/
def InOrder (records : List Record) : Prop := records.Pairwise fun r s => s.timestamp.before r.timestamp = false

theorem stamp_not_before_latest {log : Log} {latest : Timestamp} (h : log.latest = some latest) (now : Timestamp) :
    (log.stamp now).before latest = false := by
  rw [stamp, h]
  dsimp only
  split
  · exact Timestamp.before_irrefl latest
  · rename_i hnow
    exact eq_false_of_ne_true hnow

/-- Rounds are recorded in order, and none before the whole second of the latest record. -/
theorem inOrder_of_appendAll {log log' : Log} {disk disk' : Disk} {finishes : List Finish} {records : List Record}
    (h : log.appendAll disk finishes = .ok (records, log', disk')) :
    InOrder records ∧
      ∀ latest ∈ log.latest, ∀ r ∈ records, r.timestamp.before latest.toWholeSecond = false := by
  induction finishes generalizing log disk records with
  | nil =>
    cases h
    exact ⟨.nil, fun _ _ r hr => absurd hr List.not_mem_nil⟩
  | cons f rest ih =>
    obtain ⟨⟨r, log₁, disk₁⟩, hfirst, hrest⟩ := ok_of_bind h
    obtain ⟨⟨records', log₂, disk₂⟩, hall, hlast⟩ := ok_of_bind hrest
    cases hlast
    obtain ⟨rfl, -, -, hlatest, -⟩ := append_ok hfirst
    obtain ⟨horder, hafter⟩ := ih hall
    -- the record is at a whole second
    replace hafter : ∀ s ∈ records', s.timestamp.before (log.stamp f.now).toWholeSecond = false :=
      hafter (log.stamp f.now).toWholeSecond hlatest
    refine ⟨List.pairwise_cons.2 ⟨hafter, horder⟩, fun latest hsome => ?_⟩
    have hstamp : (log.stamp f.now).toWholeSecond.before latest.toWholeSecond = false :=
      Timestamp.toWholeSecond_not_before (stamp_not_before_latest hsome f.now)
    exact List.forall_mem_cons.2 ⟨hstamp, fun s hs => Timestamp.not_before_trans hstamp (hafter s hs)⟩

/-- No round is before the latest record exactly if that is not in a leap second, or the clock has left its second when
the first round is recorded. -/
theorem not_before_latest_iff {log log' : Log} {disk disk' : Disk} {f : Finish} {rest : List Finish}
    {records : List Record} {latest : Timestamp} (hlatest : log.latest = some latest)
    (h : log.appendAll disk (f :: rest) = .ok (records, log', disk')) :
    (∀ r ∈ records, r.timestamp.before latest = false) ↔
      latest.nano = 0 ∨ latest.before f.now.toWholeSecond = true := by
  obtain ⟨horder, hafter⟩ := inOrder_of_appendAll h
  obtain ⟨⟨r, log₁, disk₁⟩, hfirst, hrest⟩ := ok_of_bind h
  obtain ⟨⟨records', log₂, disk₂⟩, -, hlast⟩ := ok_of_bind hrest
  cases hlast
  obtain ⟨rfl, -⟩ := append_ok hfirst
  have hstamp : log.stamp f.now = if f.now.before latest then latest else f.now := by
    rw [stamp, hlatest]
  constructor
  · intro hnot
    replace hnot : (log.stamp f.now).toWholeSecond.before latest = false := hnot _ (List.mem_cons_self ..)
    by_cases hnano : latest.nano = 0
    · exact .inl hnano
    · refine .inr ?_
      rw [hstamp] at hnot
      split at hnot
      · -- the whole second of a leap second is before it
        rw [Timestamp.toWholeSecond_not_before_iff hnano, Timestamp.not_before_toWholeSecond] at hnot
        cases hnot
      · exact (Timestamp.toWholeSecond_not_before_iff hnano).1 hnot
  · rintro (hnano | hbefore)
    · intro s hs
      have hwhole := hafter latest hlatest s hs
      rwa [Timestamp.toWholeSecond_of_nano hnano] at hwhole
    · have hclock : f.now.before latest = false :=
        Timestamp.not_before_trans (Timestamp.not_before_of_before hbefore) (Timestamp.not_before_toWholeSecond f.now)
      rw [hclock, if_neg Bool.false_ne_true] at hstamp
      have hfirst : (Record.ofRound (log.stamp f.now) f.lesson f.result).timestamp.before latest = false := by
        rw [hstamp]
        exact Timestamp.not_before_of_before hbefore
      refine List.forall_mem_cons.2 ⟨hfirst, fun s hs => ?_⟩
      exact Timestamp.not_before_trans hfirst ((List.pairwise_cons.1 horder).1 s hs)

/-! ## Retained and recorded -/

/-- For every log that is opened and every clock: the rounds are recorded in order, and no round is before the whole
second of a record that was there. None is before such a record itself exactly if the latest of them is not in a leap
second, or the clock has left its second when the first round is recorded. If so, all records are in order as soon as
those that were there are. -/
theorem inOrder_loaded_append {disk disk₁ disk₂ : Disk} {path : Path} {now : Timestamp} {log log' : Log}
    {finishes : List Finish} {records : List Record} (hopen : openAt disk path now = .ok (log, disk₁))
    (happend : log.appendAll disk₁ finishes = .ok (records, log', disk₂)) :
    InOrder records ∧
    (∀ s ∈ loaded disk path now, s.timestamp.nano = 0 ∨ s.timestamp.nano = 1000000000) ∧
    (∀ r ∈ records, ∀ s ∈ loaded disk path now, r.timestamp.before s.timestamp.toWholeSecond = false) ∧
    (∀ f rest, finishes = f :: rest →
      ((∀ r ∈ records, ∀ s ∈ loaded disk path now, r.timestamp.before s.timestamp = false) ↔
        ∀ latest ∈ latestOf (loaded disk path now),
          latest.nano = 0 ∨ latest.before f.now.toWholeSecond = true)) ∧
    ((∀ r ∈ records, ∀ s ∈ loaded disk path now, r.timestamp.before s.timestamp = false) →
      InOrder (loaded disk path now) → InOrder (loaded disk path now ++ records)) := by
  have hlatest := latest_of_openAt hopen
  obtain ⟨horder, hafter⟩ := inOrder_of_appendAll happend
  refine ⟨horder, nano_of_loaded disk path now, ?_, ?_, ?_⟩
  · intro r hr s hs
    cases hlast : latestOf (loaded disk path now) with
    | none =>
      rw [latestOf_eq_none hlast] at hs
      cases hs
    | some latest =>
      have hmax := (latestOf_eq_some hlast).2 s hs
      exact Timestamp.not_before_trans (Timestamp.toWholeSecond_not_before hmax)
        (hafter latest (hlatest.trans hlast) r hr)
  · rintro f rest rfl
    cases hlast : latestOf (loaded disk path now) with
    | none =>
      rw [latestOf_eq_none hlast]
      simp
    | some latest =>
      obtain ⟨⟨s, hs, hmem⟩, hmax⟩ := latestOf_eq_some hlast
      have hiff := not_before_latest_iff (hlatest.trans hlast) happend
      constructor
      · rintro hnot _ ⟨⟩
        exact hiff.1 fun r hr => hmem ▸ hnot r hr s hs
      · intro hleft r hr s' hs'
        exact Timestamp.not_before_trans (hmax s' hs') (hiff.2 (hleft latest rfl) r hr)
  · intro hnot hloaded
    exact List.pairwise_append.2 ⟨hloaded, horder, fun s hs r hr => hnot r hr s hs⟩

namespace LeapSecond

open TwoRounds

/-- A leap second in the morning, and a time before it. -/
def sixtieth : Timestamp := { leapSecond with date := day, second := 36059, second_lt := by decide }

def early : Timestamp := { midday with second := 32400, second_lt := by decide }

def line : Text := "2024-05-01 10:00:60,\"a\",00:30.0,50,60\n".toList

def opened : Log :=
  ⟨place, some [place], [⟨day, .ofWholeSeconds 30, 50, 60⟩], 20, .ofWholeSeconds 30, some sixtieth⟩

/-- The record of a round that is finished before the leap second, by the clock. -/
def stamped : Record := { second with timestamp := sixtieth.toWholeSecond }

def logged : Log := { opened with
  days := [⟨day, .ofWholeSeconds 120, 200, 220⟩]
  maxDuration := .ofWholeSeconds 120
  latest := some sixtieth.toWholeSecond }

def written : Disk := disk (line ++ "2024-05-01 10:00:59,\"b\",01:30.0,150,160\n".toList)

/-- The log at whole seconds, with two rounds, the second by a clock that has gone back. -/
def loggedTwice : Log := { TwoRounds.opened with
  days := [⟨day, .ofWholeSeconds 210, 350, 380⟩]
  maxDuration := .ofWholeSeconds 210
  latest := some midday.toWholeSecond }

end LeapSecond

open TwoRounds LeapSecond in
theorem inOrder_loaded_append_clockBack :
    openAt (disk (firstLine ++ ['\n'])) place midday = .ok (TwoRounds.opened, disk (firstLine ++ ['\n'])) ∧
    TwoRounds.opened.appendAll (disk (firstLine ++ ['\n'])) [finish, { finish with now := early }] =
      .ok ([second, second], loggedTwice, disk (firstLine ++ ['\n'] ++ secondLine ++ secondLine)) ∧
    loaded (disk (firstLine ++ ['\n'])) place midday = [first] ∧ first.timestamp.nano = 0 ∧
    InOrder (loaded (disk (firstLine ++ ['\n'])) place midday ++ [second, second]) := by
  have hopen : openAt (disk (firstLine ++ ['\n'])) place midday =
      .ok (TwoRounds.opened, disk (firstLine ++ ['\n'])) := by
    decide +kernel
  have happend : TwoRounds.opened.appendAll (disk (firstLine ++ ['\n'])) [finish, { finish with now := early }] =
      .ok ([second, second], loggedTwice, disk (firstLine ++ ['\n'] ++ secondLine ++ secondLine)) := by
    decide +kernel
  have hloaded : loaded (disk (firstLine ++ ['\n'])) place midday = [first] := by decide +kernel
  obtain ⟨-, -, -, hiff, hall⟩ := inOrder_loaded_append hopen happend
  have hlatest : latestOf [first] = some first.timestamp := rfl
  have hnot := (hiff finish [{ finish with now := early }] rfl).2 (by
    rw [hloaded, hlatest]
    rintro _ ⟨⟩
    exact .inl rfl)
  refine ⟨hopen, happend, hloaded, rfl, hall hnot ?_⟩
  rw [hloaded]
  exact List.pairwise_singleton ..

open TwoRounds LeapSecond in
/-- A record in a leap second is retained, and the clock has gone back behind it. The round that is recorded then is
before the record, so the log is no longer in order. -/
theorem not_inOrder_leapSecond :
    openAt (disk line) place midday = .ok (LeapSecond.opened, disk line) ∧
    LeapSecond.opened.appendAll (disk line) [{ finish with now := early }] =
      .ok ([stamped], LeapSecond.logged, written) ∧
    loaded (disk line) place midday = [{ first with timestamp := sixtieth }] ∧
    stamped.timestamp.before sixtieth = true ∧ InOrder (loaded (disk line) place midday) ∧
    ¬InOrder (loaded (disk line) place midday ++ [stamped]) := by
  have hloaded : loaded (disk line) place midday = [{ first with timestamp := sixtieth }] := by decide +kernel
  have hbefore : stamped.timestamp.before sixtieth = true := by decide +kernel
  refine ⟨by decide +kernel, by decide +kernel, hloaded, hbefore, ?_, ?_⟩
  · rw [hloaded]
    exact List.pairwise_singleton ..
  · rw [hloaded]
    intro horder
    have hnot := (List.pairwise_append.1 horder).2.2 _ (List.mem_singleton_self _) _ (List.mem_singleton_self _)
    rw [hbefore] at hnot
    cases hnot

end Log

end KanaTutor
