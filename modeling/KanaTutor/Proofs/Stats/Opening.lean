/-
Which logs can be opened. Whatever stands in the file, a line that is no record is passed over, and what is left is
added to the days. Two things keep the log from being opened, and both are times that no duration can hold: the time on
one line, also on that of a record that is too old to count, and the times of one date together. Counts keep no log from
being opened. They are summed in words, as the minutes of a time are turned into seconds, and wrap where they do not fit.
-/
import KanaTutor.Proofs.Number.Bounds
import KanaTutor.Proofs.Stats.Reopening

namespace KanaTutor

/-! ## Times -/

theorem Double.ne_infinity_of_isFinite {x : Float} (h : x.isFinite = true) : (x == 1.0 / 0.0) = false := by
  have hinfinity : (1.0 / 0.0 : Float).toModel.unpack = .infinity .positive := rfl
  show x.toModel.unpack.beq (1.0 / 0.0 : Float).toModel.unpack = false
  have hfinite : x.toModel.unpack.isFinite = true := h
  rw [hinfinity]
  generalize x.toModel.unpack = f at hfinite
  match f with
  | .zero _ => rfl
  | .finite _ _ _ _ => rfl

namespace Duration

theorem checked_eq_ok_iff {d e : Duration} : d.checked = .ok e ↔ d = e ∧ d.nanos < limit := by
  unfold checked limit
  split <;> simp [*]

theorem checked_eq_error_iff {d : Duration} {f : Fault} :
    d.checked = .error f ↔ f = .durationOverflow ∧ limit ≤ d.nanos := by
  unfold checked
  split
  · rename_i hshort
    exact ⟨nofun, fun h => absurd hshort (Nat.not_lt.2 h.2)⟩
  · rename_i hlong
    refine ⟨fun h => ?_, fun h => by rw [h.1]⟩
    cases h
    exact ⟨rfl, Nat.not_lt.1 hlong⟩

/-- A summand that is too long by itself is too long in the sum. -/
theorem checked_bind_add (d : Duration) (n : Nat) : (checked ⟨n⟩ >>= fun e => d.add e) = checked ⟨d.nanos + n⟩ := by
  cases h : checked ⟨n⟩ with
  | ok e =>
    obtain ⟨rfl, -⟩ := checked_eq_ok_iff.1 h
    rfl
  | error f =>
    obtain ⟨rfl, hlong⟩ := checked_eq_error_iff.1 h
    exact (checked_eq_error_iff.2 ⟨rfl, Nat.le_trans hlong (Nat.le_add_left ..)⟩).symm

theorem ofSeconds_of_isFinite {x : Float} (h : x.isFinite = true) :
    ofSeconds x = checked ⟨(roundHalfEven (Double.magnitude x * (perSecond : Rat))).toNat⟩ := by
  rw [ofSeconds, Double.ne_infinity_of_isFinite h, if_neg Bool.false_ne_true]

end Duration

namespace Record

/-- The minutes and the seconds in the field of a time. -/
def numbers? (t : Text) : Option (Nat × Float) := do
  let (minutes, seconds) ← t.cutAt ':'
  if seconds.contains ':' then none
  else
    let minutes ← Natural.readWord? minutes.trim
    let seconds ← Double.read? seconds.trim
    if seconds.isFinite && 0.0 ≤ seconds then some (minutes, seconds) else none

/-- The nanoseconds of minutes and seconds. The minutes are counted in seconds by a word, the seconds are rounded. -/
def nanosOf (minutes : Nat) (seconds : Float) : Nat :=
  (Duration.ofWholeSeconds (minutes * 60 % wordBound)).nanos +
    (roundHalfEven (Double.magnitude seconds * (Duration.perSecond : Rat))).toNat

/-- The nanoseconds of minutes and seconds, however many minutes there are. -/
def exactNanosOf (minutes : Nat) (seconds : Float) : Nat :=
  (Duration.ofWholeSeconds (minutes * 60)).nanos +
    (roundHalfEven (Double.magnitude seconds * (Duration.perSecond : Rat))).toNat

/-- The minutes wrap exactly if their seconds are no word. -/
theorem nanosOf_eq_exact_iff {minutes : Nat} {seconds : Float} :
    nanosOf minutes seconds = exactNanosOf minutes seconds ↔ minutes * 60 < wordBound := by
  rw [nanosOf, exactNanosOf, Nat.add_left_inj]
  show minutes * 60 % wordBound * Duration.perSecond = minutes * 60 * Duration.perSecond ↔ _
  rw [Nat.mul_left_inj (by decide), Nat.mod_eq_iff_lt (by decide)]

theorem readTime?_eq (t : Text) :
    readTime? t = (numbers? t).map fun (minutes, seconds) => Duration.checked ⟨nanosOf minutes seconds⟩ := by
  unfold readTime? numbers?
  cases t.cutAt ':' with
  | none => rfl
  | some parts =>
    obtain ⟨minutes, seconds⟩ := parts
    simp only [Option.bind_eq_bind, Option.bind_some]
    split
    · rfl
    · cases Natural.readWord? minutes.trim with
      | none => rfl
      | some m =>
        cases Double.read? seconds.trim with
        | none => rfl
        | some s =>
          simp only [Option.bind_some]
          split
          · rename_i hfinite
            rw [Duration.ofSeconds_of_isFinite (Bool.and_eq_true_iff.1 hfinite).1, Duration.checked_bind_add]
            rfl
          · rfl

theorem readTime?_eq_error_iff {t : Text} {f : Fault} : readTime? t = some (.error f) ↔
    f = .durationOverflow ∧ ∃ minutes seconds, numbers? t = some (minutes, seconds) ∧
      Duration.limit ≤ nanosOf minutes seconds := by
  rw [readTime?_eq]
  cases numbers? t with
  | none => simp
  | some numbers =>
    obtain ⟨minutes, seconds⟩ := numbers
    rw [Option.map_some, Option.some.injEq, Duration.checked_eq_error_iff]
    simp

theorem nanos_of_readTime? {t : Text} {d : Duration} (h : readTime? t = some (.ok d)) :
    ∃ minutes seconds, numbers? t = some (minutes, seconds) ∧ d.nanos = nanosOf minutes seconds := by
  rw [readTime?_eq] at h
  obtain ⟨⟨minutes, seconds⟩, hnumbers, hchecked⟩ := Option.map_eq_some_iff.1 h
  obtain ⟨rfl, -⟩ := Duration.checked_eq_ok_iff.1 hchecked
  exact ⟨minutes, seconds, hnumbers, rfl⟩

/-- The field of the time in a line that starts with a timestamp. -/
def time? (line : Text) : Option Text := do
  let (timestamp, _, time, _, _) ← fields? line.trim
  let _ ← Timestamp.read? timestamp
  some time

/-- What a line is read as, by its time: the time may be missing or too long, and a line with a time may have counts
that are no words. -/
theorem read_cases (line : Text) :
    ((time? line).bind readTime? = none ∧ read line = .error (.malformed line.trim)) ∨
    (∃ f, (time? line).bind readTime? = some (.error f) ∧ read line = .error (.fault f)) ∨
    ∃ d, (time? line).bind readTime? = some (.ok d) ∧
      (read line = .error (.malformed line.trim) ∨ ∃ r, read line = .ok r ∧ r.duration = d) := by
  unfold read time?
  dsimp only
  cases fields? line.trim with
  | none => exact .inl ⟨rfl, rfl⟩
  | some fields =>
    obtain ⟨timestamp, lesson, time, correct, touches⟩ := fields
    simp only [Option.bind_eq_bind, Option.bind_some]
    cases Timestamp.read? timestamp with
    | none => exact .inl ⟨rfl, rfl⟩
    | some timestamp =>
      simp only [Option.bind_some]
      cases readTime? time with
      | none => exact .inl ⟨rfl, rfl⟩
      | some duration =>
        cases duration with
        | error f => exact .inr (.inl ⟨f, rfl, rfl⟩)
        | ok d =>
          refine .inr (.inr ⟨d, rfl, ?_⟩)
          simp only [Option.bind_some]
          -- a record is made only of counts that are words
          cases Natural.readWord? correct.trim with
          | none => exact .inl rfl
          | some correct =>
            cases Natural.readWord? touches.trim with
            | none => exact .inl rfl
            | some touches => exact .inr ⟨_, rfl, rfl⟩

theorem read_eq_fault_iff_time {line : Text} {f : Fault} :
    read line = .error (.fault f) ↔ (time? line).bind readTime? = some (.error f) := by
  rcases read_cases line with ⟨htime, hread⟩ | ⟨g, htime, hread⟩ | ⟨d, htime, hread | ⟨r, hread, -⟩⟩ <;>
    simp [htime, hread]

/-- The time of a record is that on its line. -/
theorem nanos_of_read {line : Text} {r : Record} (h : read line = .ok r) :
    ∃ minutes seconds, (time? line).bind numbers? = some (minutes, seconds) ∧
      r.duration.nanos = nanosOf minutes seconds := by
  rcases read_cases line with ⟨-, hread⟩ | ⟨f, -, hread⟩ | ⟨d, htime, hread | ⟨r', hread, hd⟩⟩
  · cases hread.symm.trans h
  · cases hread.symm.trans h
  · cases hread.symm.trans h
  · obtain rfl := Except.ok.inj (hread.symm.trans h)
    obtain ⟨t, ht, hd'⟩ := Option.bind_eq_some_iff.1 htime
    rw [ht, hd]
    exact nanos_of_readTime? hd'

/-- The line has a time that no duration can hold. -/
def TooLong (line : Text) : Prop :=
  ∃ minutes seconds, (time? line).bind numbers? = some (minutes, seconds) ∧ Duration.limit ≤ nanosOf minutes seconds

/-- A line is a fault exactly if its time is too long, whatever its counts are. -/
theorem read_eq_fault_iff {line : Text} {f : Fault} :
    read line = .error (.fault f) ↔ f = .durationOverflow ∧ TooLong line := by
  rw [read_eq_fault_iff_time, TooLong]
  cases time? line with
  | none => simp
  | some t => exact readTime?_eq_error_iff

end Record

namespace Log

/-! ## Lines -/

/-- The line has a time that no duration can hold. -/
def TooLong (line : Octets) : Prop := ∃ text, Utf8.decode? line = some text ∧ Record.TooLong text

/-- The record on a line, unless the line is none or the record is too old. -/
def recordOn (now : Timestamp) (line : Octets) : Option Record :=
  (Utf8.decode? line).bind fun text =>
    (Record.read text).toOption.filter fun r => !r.timestamp.isOlderThan maxDays now

/-- The minutes and the seconds on a line. -/
def numbersOn (line : Octets) : Option (Nat × Float) :=
  (Utf8.decode? line).bind fun text => (Record.time? text).bind Record.numbers?

/-- The records in a file that count at a time. -/
def recordsAt (now : Timestamp) (content : Octets) : List Record := (splitLines content).filterMap (recordOn now)

theorem readLine_of_tooLong {line : Octets} (h : TooLong line) (now : Timestamp) :
    readLine now line = .error .durationOverflow := by
  obtain ⟨text, hdecode, hlong⟩ := h
  rw [readLine, hdecode]
  dsimp only
  rw [Record.read_eq_fault_iff.2 ⟨rfl, hlong⟩]

theorem readLine_of_not_tooLong {line : Octets} (h : ¬TooLong line) (now : Timestamp) :
    readLine now line = .ok (recordOn now line) := by
  unfold readLine recordOn
  cases hdecode : Utf8.decode? line with
  | none => rfl
  | some text =>
    simp only [Option.bind_some]
    cases hread : Record.read text with
    | ok r => cases hage : r.timestamp.isOlderThan maxDays now <;> simp [Except.toOption, Option.filter, hage]
    | error e =>
      cases e with
      | malformed _ => rfl
      | fault f => exact absurd ⟨text, hdecode, (Record.read_eq_fault_iff.1 hread).2⟩ h

theorem exists_read_of_recordOn {now : Timestamp} {line : Octets} {r : Record} (h : recordOn now line = some r) :
    ∃ text, Utf8.decode? line = some text ∧ Record.read text = .ok r := by
  obtain ⟨text, hdecode, hfound⟩ := Option.bind_eq_some_iff.1 h
  refine ⟨text, hdecode, ?_⟩
  cases hread : Record.read text with
  | error e =>
    rw [hread] at hfound
    cases hfound
  | ok r' =>
    rw [hread] at hfound
    rw [Option.some.inj (Option.filter_eq_some_iff.1 hfound).1]

theorem nanos_of_recordOn {now : Timestamp} {line : Octets} {r : Record} (h : recordOn now line = some r) :
    ∃ minutes seconds, numbersOn line = some (minutes, seconds) ∧
      r.duration.nanos = Record.nanosOf minutes seconds := by
  obtain ⟨text, hdecode, hread⟩ := exists_read_of_recordOn h
  obtain ⟨minutes, seconds, hnumbers, hnanos⟩ := Record.nanos_of_read hread
  refine ⟨minutes, seconds, ?_, hnanos⟩
  rw [numbersOn, hdecode, Option.bind_some, hnumbers]

theorem foldlM_readOn {now : Timestamp} {lines : List Octets} (h : ∀ line ∈ lines, ¬TooLong line)
    (records : List Record) :
    lines.foldlM (readOn now) records = .ok (records ++ lines.filterMap (recordOn now)) := by
  induction lines generalizing records with
  | nil => rw [List.filterMap_nil, List.append_nil]; rfl
  | cons line lines ih =>
    obtain ⟨hline, hlines⟩ := List.forall_mem_cons.1 h
    rw [List.foldlM_cons, readOn, readLine_of_not_tooLong hline, ok_bind, ok_bind, ih hlines, List.append_assoc]
    cases hrecord : recordOn now line with
    | none => rw [List.filterMap_cons_none hrecord]; rfl
    | some r => rw [List.filterMap_cons_some hrecord]; rfl

theorem foldlM_readOn_of_tooLong {now : Timestamp} {lines : List Octets} (h : ∃ line ∈ lines, TooLong line)
    (records : List Record) : lines.foldlM (readOn now) records = .error .durationOverflow := by
  induction lines generalizing records with
  | nil =>
    obtain ⟨line, hline, -⟩ := h
    cases hline
  | cons line lines ih =>
    rw [List.foldlM_cons, readOn]
    by_cases hline : TooLong line
    · rw [readLine_of_tooLong hline]
      rfl
    · rw [readLine_of_not_tooLong hline, ok_bind, ok_bind]
      obtain ⟨other, hother, hlong⟩ := h
      rcases List.mem_cons.1 hother with rfl | hother
      · exact absurd hlong hline
      · exact ih ⟨other, hother, hlong⟩ _

/-! ## Totals -/

/-- The records of a date. -/
def recordsOf (date : Date) (records : List Record) : List Record := records.filter (·.timestamp.date = date)

/-- The totals of the records of a date. -/
def total (date : Date) (records : List Record) : Day where
  date
  duration := ⟨nanosIn date records⟩
  correct := ((recordsOf date records).map (·.correct)).sum % wordBound
  touches := ((recordsOf date records).map fun r => max r.touches r.correct).sum % wordBound

/-- The keystrokes that the rounds of a date needed, however many there were. -/
def correctIn (date : Date) (records : List Record) : Nat := ((recordsOf date records).map (·.correct)).sum

/-- The keystrokes that the rounds of a date took, however many there were. -/
def touchesIn (date : Date) (records : List Record) : Nat :=
  ((recordsOf date records).map fun r => max r.touches r.correct).sum

theorem total_append_of_ne {date : Date} {r : Record} (h : r.timestamp.date ≠ date) (records : List Record) :
    total date (records ++ [r]) = total date records := by
  simp [total, recordsOf, nanosIn, h]

theorem total_of_forall_ne {date : Date} {records : List Record} (h : ∀ r ∈ records, r.timestamp.date ≠ date) :
    total date records = { date } := by
  have hnone : records.filter (·.timestamp.date = date) = [] := List.filter_eq_nil_iff.2 (by simpa using h)
  simp [total, recordsOf, nanosIn, hnone, Duration.zero]

/-- A record that is added to the totals of its date makes them those of one record more. -/
theorem total_add {r : Record} {records : List Record} {day : Day}
    (h : (total r.timestamp.date records).add r = .ok day) :
    day = total r.timestamp.date (records ++ [r]) ∧ day.duration.nanos < Duration.limit := by
  obtain ⟨duration, hduration, hday⟩ := ok_of_bind h
  obtain ⟨rfl, hshort⟩ := Duration.checked_eq_ok_iff.1 hduration
  cases hday
  refine ⟨?_, hshort⟩
  simp [total, recordsOf, nanosIn, Nat.add_mod]

/-- The day of a date, empty if it is not among the days. -/
def dayOf (date : Date) (days : List Day) : Day := (days.find? (·.date = date)).getD { date }

/-- A record is added to the day of its date, and no other day is touched. -/
theorem addToDays_eq_ok {r : Record} {days days' : List Day} (hs : Ordered days) (h : addToDays r days = .ok days') :
    ∃ day, (dayOf r.timestamp.date days).add r = .ok day ∧
      ∀ d, d ∈ days' ↔ d = day ∨ d ∈ days ∧ d.date ≠ r.timestamp.date := by
  induction days generalizing days' with
  | nil =>
    obtain ⟨day, hadd, h⟩ := ok_of_bind h
    cases h
    exact ⟨day, hadd, by simp⟩
  | cons first days ih =>
    obtain ⟨hfirst, hrest⟩ := List.pairwise_cons.1 hs
    rw [addToDays] at h
    split at h
    · rename_i hdate
      obtain ⟨day, hadd, h⟩ := ok_of_bind h
      cases h
      refine ⟨day, by simpa [dayOf, hdate] using hadd, fun d => ?_⟩
      -- the days after the first have other dates
      have hother : d ∈ days → d.date ≠ r.timestamp.date := fun hd => hdate ▸ (Date.ne_of_before (hfirst d hd)).symm
      grind
    · rename_i hdate
      split at h
      · rename_i hbefore
        obtain ⟨day, hadd, h⟩ := ok_of_bind h
        cases h
        -- the record comes before all days
        have hother : ∀ d ∈ first :: days, d.date ≠ r.timestamp.date := fun d hd => by
          rcases List.mem_cons.1 hd with rfl | hd
          · exact hdate
          · exact (Date.ne_of_before (Date.before_trans hbefore (hfirst d hd))).symm
        have hnone : (first :: days).find? (·.date = r.timestamp.date) = none :=
          List.find?_eq_none.2 (by simpa using hother)
        refine ⟨day, by rwa [dayOf, hnone], fun d => ?_⟩
        grind
      · obtain ⟨rest, hadd, h⟩ := ok_of_bind h
        cases h
        obtain ⟨day, hday, hmem⟩ := ih hrest hadd
        refine ⟨day, by simpa [dayOf, hdate] using hday, fun d => ?_⟩
        grind

/-- The days are those of the records, with their totals. -/
structure Totals (records : List Record) (days : List Day) : Prop where
  ordered : Ordered days
  mem : ∀ day, day ∈ days ↔ (∃ r ∈ records, r.timestamp.date = day.date) ∧ day = total day.date records
  short : ∀ day ∈ days, day.duration.nanos < Duration.limit

theorem totals_nil : Totals [] [] := ⟨.nil, by simp, by simp⟩

section

variable {records : List Record} {days days' : List Day}

theorem Totals.dayOf (h : Totals records days) (date : Date) : Log.dayOf date days = total date records := by
  unfold Log.dayOf
  cases hfind : days.find? (·.date = date) with
  | some day =>
    have hdate : day.date = date := by simpa using List.find?_some hfind
    have htotal := ((h.mem day).1 (List.mem_of_find?_eq_some hfind)).2
    rwa [hdate] at htotal
  | none =>
    rw [Option.getD_none, total_of_forall_ne fun r hr hdate => ?_]
    -- a record of the date would have a day
    have hday := (h.mem (total date records)).2 ⟨⟨r, hr, hdate⟩, rfl⟩
    exact List.find?_eq_none.1 hfind _ hday (decide_eq_true rfl)

/-- Adding a record keeps the days those of the records. -/
theorem Totals.add (h : Totals records days) {r : Record} (hadd : addToDays r days = .ok days') :
    Totals (records ++ [r]) days' := by
  obtain ⟨day, hday, hmem⟩ := addToDays_eq_ok h.ordered hadd
  rw [h.dayOf] at hday
  obtain ⟨rfl, hshort⟩ := total_add hday
  refine ⟨ordered_addToDays h.ordered hadd, fun d => ?_, fun d hd => ?_⟩
  · rw [hmem d, h.mem d]
    by_cases hdate : r.timestamp.date = d.date
    · rw [hdate]
      simp [hdate]
    · rw [total_append_of_ne hdate]
      have hne : d ≠ total r.timestamp.date (records ++ [r]) := fun heq => hdate (congrArg Day.date heq).symm
      simp [hne, hdate, Ne.symm hdate]
  · rcases (hmem d).1 hd with rfl | ⟨hd, -⟩
    · exact hshort
    · exact h.short d hd

theorem Totals.addAll (h : Totals records days) {more : List Record} (hadd : Log.addAll days more = .ok days') :
    Totals (records ++ more) days' := by
  induction more generalizing records days with
  | nil =>
    cases hadd
    rwa [List.append_nil]
  | cons r more ih =>
    rw [addAll_cons] at hadd
    obtain ⟨next, hnext, hrest⟩ := ok_of_bind hadd
    have := ih (h.add hnext) hrest
    rwa [List.append_assoc] at this

theorem totals_daysOf (h : daysOf records = .ok days) : Totals records days := totals_nil.addAll h

/-- The counts of a day wrap exactly if they are no words together. -/
theorem Totals.exact_iff (h : Totals records days) {day : Day} (hday : day ∈ days) :
    (day.correct = correctIn day.date records ↔ correctIn day.date records < wordBound) ∧
      (day.touches = touchesIn day.date records ↔ touchesIn day.date records < wordBound) := by
  obtain ⟨-, htotal⟩ := (h.mem day).1 hday
  have hcorrect : day.correct = correctIn day.date records % wordBound := congrArg Day.correct htotal
  have htouches : day.touches = touchesIn day.date records % wordBound := congrArg Day.touches htotal
  rw [hcorrect, htouches]
  exact ⟨Nat.mod_eq_iff_lt (by decide), Nat.mod_eq_iff_lt (by decide)⟩

/-- The time of a date with a day is that of the day, and other dates have no time. -/
theorem Totals.fits (h : Totals records days) : Fits records := by
  intro date
  by_cases hdate : ∃ r ∈ records, r.timestamp.date = date
  · exact h.short (total date records) ((h.mem _).2 ⟨hdate, rfl⟩)
  · have hnone : nanosIn date records = 0 :=
      congrArg (·.duration.nanos) (total_of_forall_ne fun r hr heq => hdate ⟨r, hr, heq⟩)
    rw [hnone]
    decide

end

/-! ## Opening -/

/-- What stands in the file of a log: nothing, if the file does not exist or cannot be read. -/
def contentAt (disk : Disk) (path : Path) : Octets :=
  match disk.read path with
  | .ok content => content
  | .error _ => []

section

variable {disk disk' : Disk} {path : Path} {now : Timestamp}

theorem loadRecords_of_tooLong (h : ∃ line ∈ splitLines (contentAt disk path), TooLong line) :
    loadRecords disk path now = .error (.fault .durationOverflow) := by
  unfold contentAt at h
  cases hread : disk.read path with
  | ok content =>
    rw [hread] at h
    exact loadRecords_of_fault hread (foldlM_readOn_of_tooLong h [])
  | error e =>
    -- there are no lines
    rw [hread] at h
    obtain ⟨line, hline, -⟩ := h
    cases hline

theorem loadRecords_of_not_tooLong (h : ∀ line ∈ splitLines (contentAt disk path), ¬TooLong line) :
    loadRecords disk path now = .ok (recordsAt now (contentAt disk path)) ∨
      loadRecords disk path now = .error .unreadable ∧ recordsAt now (contentAt disk path) = [] := by
  unfold contentAt at h ⊢
  cases hread : disk.read path with
  | ok content =>
    rw [hread] at h
    exact .inl (loadRecords_of_read hread (foldlM_readOn h []))
  | error e =>
    unfold loadRecords
    rw [hread]
    cases e with
    | notFound => exact .inl rfl
    | unusable => exact .inr ⟨rfl, rfl⟩

theorem openAt_ok (hshort : ∀ line ∈ splitLines (contentAt disk path), ¬TooLong line)
    (hfits : Fits (recordsAt now (contentAt disk path))) : ∃ log disk', openAt disk path now = .ok (log, disk') := by
  unfold openAt
  rcases loadRecords_of_not_tooLong hshort with hload | ⟨hload, -⟩
  · obtain ⟨days, hdays⟩ := daysOf_ok hfits
    obtain ⟨log, hlog, -⟩ := inStep_ofRecords path hdays
    rw [hload]
    simp only [hlog]
    exact ⟨_, _, rfl⟩
  · rw [hload]
    exact ⟨_, _, rfl⟩

theorem totals_of_openAt {log : Log} (h : openAt disk path now = .ok (log, disk')) :
    (∀ line ∈ splitLines (contentAt disk path), ¬TooLong line) ∧
      Totals (recordsAt now (contentAt disk path)) log.days := by
  unfold openAt at h
  by_cases hshort : ∀ line ∈ splitLines (contentAt disk path), ¬TooLong line
  · refine ⟨hshort, ?_⟩
    rcases loadRecords_of_not_tooLong hshort with hload | ⟨hload, hnone⟩
    · rw [hload] at h
      obtain ⟨base, hbase, hrest⟩ := ok_of_bind h
      cases hrest
      obtain ⟨days, hdays, -⟩ := ok_of_bind hbase
      obtain ⟨base', hbase', rfl, -⟩ := inStep_ofRecords path hdays
      obtain rfl := Except.ok.inj (hbase.symm.trans hbase')
      exact totals_daysOf hdays
    · rw [hload] at h
      cases h
      rw [hnone]
      exact totals_nil
  · rw [loadRecords_of_tooLong (by simpa using hshort)] at h
    cases h

end

/-- For every disk, every content of a log and every time: the log can be opened exactly if no line has a time that is
too long and the times of no date are too long together. All other lines are passed over or added to their days: the
days are the dates of the records that are read and are not too old, in order, each with the totals of its records.
What wraps is told as well: the counts of a day are those of its records together exactly if these are words, and the
time of a record is that of the minutes and the seconds on its line exactly if the minutes make a word of seconds. -/
theorem openAt_ok_iff (disk : Disk) (path : Path) (now : Timestamp) :
    ((∃ log disk', openAt disk path now = .ok (log, disk')) ↔
      (∀ line ∈ splitLines (contentAt disk path), ¬TooLong line) ∧ Fits (recordsAt now (contentAt disk path))) ∧
    (∀ log disk', openAt disk path now = .ok (log, disk') →
      Totals (recordsAt now (contentAt disk path)) log.days ∧
      ∀ day ∈ log.days,
        (day.correct = correctIn day.date (recordsAt now (contentAt disk path)) ↔
          correctIn day.date (recordsAt now (contentAt disk path)) < wordBound) ∧
        (day.touches = touchesIn day.date (recordsAt now (contentAt disk path)) ↔
          touchesIn day.date (recordsAt now (contentAt disk path)) < wordBound)) ∧
    ∀ line ∈ splitLines (contentAt disk path), ∀ r, recordOn now line = some r →
      ∃ minutes seconds, numbersOn line = some (minutes, seconds) ∧
        r.duration.nanos = Record.nanosOf minutes seconds ∧
        (r.duration.nanos = Record.exactNanosOf minutes seconds ↔ minutes * 60 < wordBound) := by
  refine ⟨⟨?_, fun ⟨hshort, hfits⟩ => openAt_ok hshort hfits⟩, ?_, ?_⟩
  · rintro ⟨log, disk', h⟩
    obtain ⟨hshort, htotals⟩ := totals_of_openAt h
    exact ⟨hshort, htotals.fits⟩
  · intro log disk' h
    obtain ⟨-, htotals⟩ := totals_of_openAt h
    exact ⟨htotals, fun day hday => htotals.exact_iff hday⟩
  · intro line _ r hrecord
    obtain ⟨minutes, seconds, hnumbers, hnanos⟩ := nanos_of_recordOn hrecord
    refine ⟨minutes, seconds, hnumbers, hnanos, ?_⟩
    rw [hnanos]
    exact Record.nanosOf_eq_exact_iff

open TwoRounds in
/-- A log with one record is opened with the day of that record, and nothing wraps. -/
theorem openAt_oneRound :
    openAt (disk firstLine) place midday = .ok (opened, disk firstLine) ∧
    Totals (recordsAt midday (contentAt (disk firstLine) place)) opened.days ∧
    (∀ day ∈ opened.days,
      day.correct = correctIn day.date (recordsAt midday (contentAt (disk firstLine) place)) ∧
      day.touches = touchesIn day.date (recordsAt midday (contentAt (disk firstLine) place))) ∧
    Utf8.encode firstLine ∈ splitLines (contentAt (disk firstLine) place) ∧
    recordOn midday (Utf8.encode firstLine) = some first ∧
    ∃ seconds, numbersOn (Utf8.encode firstLine) = some (0, seconds) ∧
      first.duration.nanos = Record.exactNanosOf 0 seconds := by
  have hopen : openAt (disk firstLine) place midday = .ok (opened, disk firstLine) := by decide +kernel
  have hline : Utf8.encode firstLine ∈ splitLines (contentAt (disk firstLine) place) := by decide +kernel
  have hrecord : recordOn midday (Utf8.encode firstLine) = some first := by decide +kernel
  have hminutes : (numbersOn (Utf8.encode firstLine)).map Prod.fst = some 0 := by decide +kernel
  obtain ⟨-, hdays, hrecords⟩ := openAt_ok_iff (disk firstLine) place midday
  obtain ⟨htotals, hexact⟩ := hdays opened (disk firstLine) hopen
  obtain ⟨minutes, seconds, hnumbers, -, htime⟩ := hrecords (Utf8.encode firstLine) hline first hrecord
  rw [hnumbers] at hminutes
  cases hminutes
  refine ⟨hopen, htotals, ?_, hline, hrecord, seconds, hnumbers, htime.2 (by decide)⟩
  intro day hday
  obtain ⟨hcorrect, htouches⟩ := hexact day hday
  obtain rfl := List.mem_singleton.1 hday
  exact ⟨hcorrect.2 (by decide +kernel), htouches.2 (by decide +kernel)⟩

/-! ## Times that are too long -/

open TwoRounds in
/-- A log cannot be opened with a record of `1e20` seconds, also if that is years old, nor with two records of `1e19`
seconds on one day. -/
theorem openAt_longTimes :
    openAt (disk "2024-05-01 10:00:00,\"a\",00:1e20,50,60\n".toList) place midday = .error .durationOverflow ∧
    openAt (disk "2004-05-01 10:00:00,\"a\",00:1e20,50,60\n".toList) place midday = .error .durationOverflow ∧
    openAt (disk ("2024-05-01 10:00:00,\"a\",00:1e19,50,60\n".toList ++
      "2024-05-01 11:00:00,\"a\",00:1e19,50,60\n".toList)) place midday = .error .durationOverflow := by
  refine ⟨?_, ?_, ?_⟩
  · decide +kernel
  · decide +kernel
  · decide +kernel

end Log

end KanaTutor
