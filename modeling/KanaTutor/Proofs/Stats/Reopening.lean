/-
A log that is opened again, after rounds have been recorded in it: what is read from its file are the records that were
in it before, and after them those of the rounds. This takes a file whose last line is finished. A record is written on
after whatever the file ends with, so a line that was cut off becomes one with the record after it.
-/
import KanaTutor.Proofs.Disk.Files
import KanaTutor.Proofs.Stats.Appending
import KanaTutor.Proofs.Stats.Lines
import KanaTutor.Proofs.Text.Octets
import KanaTutor.Proofs.Time.Ages

namespace KanaTutor

/-- Only what a line is without the white space around it is read. -/
theorem Record.read_of_trim {line line' : Text} (h : line.trim = line'.trim) :
    Record.read line = Record.read line' := by
  unfold Record.read
  rw [h]

namespace Log

/-! ## Lines -/

theorem splitLines_ne_nil {content : Octets} (h : content ≠ []) : splitLines content ≠ [] := by
  cases content with
  | nil => contradiction
  | cons o rest =>
    rw [splitLines]
    split
    · exact List.cons_ne_nil _ _
    · split <;> exact List.cons_ne_nil _ _

/-- Lines that are finished are not changed by what follows. -/
theorem splitLines_append {front : Octets} (h : ∀ o ∈ front.getLast?, o = 10) (rest : Octets) :
    splitLines (front ++ rest) = splitLines front ++ splitLines rest := by
  induction front with
  | nil => rfl
  | cons o front ih =>
    rw [List.cons_append, splitLines, splitLines]
    cases front with
    | nil =>
      rw [if_pos (h o rfl), if_pos (h o rfl)]
      rfl
    | cons o' front =>
      rw [ih h]
      obtain ⟨line, lines, hlines⟩ := List.exists_cons_of_ne_nil (splitLines_ne_nil (List.cons_ne_nil o' front))
      rw [hlines]
      split <;> rfl

theorem splitLines_line {line : Octets} (h : 10 ∉ line) : splitLines (line ++ [10]) = [line] := by
  induction line with
  | nil => rfl
  | cons o line ih =>
    rw [List.mem_cons, not_or] at h
    rw [List.cons_append, splitLines, ih h.2, if_neg (Ne.symm h.1)]

theorem splitLines_unfinished {line : Octets} (h : 10 ∉ line) (hne : line ≠ []) : splitLines line = [line] := by
  induction line with
  | nil => contradiction
  | cons o line ih =>
    rw [List.mem_cons, not_or] at h
    rw [splitLines, if_neg (Ne.symm h.1)]
    cases line with
    | nil => rfl
    | cons o' line => rw [ih h.2 (List.cons_ne_nil _ _)]

/-! ## The end of a file -/

/-- The octets after the last newline. -/
def lastLine (content : Octets) : Octets := content.rtakeWhile (· ≠ 10)

/-- The octets up to the last newline. -/
def finishedLines (content : Octets) : Octets := content.rdropWhile (· ≠ 10)

/-- No line of the file was cut off: after the last newline there is nothing but white space. -/
def IsWhole (content : Octets) : Prop :=
  ∃ blank, Utf8.decode? (lastLine content) = some blank ∧ ∀ c ∈ blank, isBlank c = true

theorem finishedLines_append_lastLine (content : Octets) : finishedLines content ++ lastLine content = content := by
  rw [finishedLines, lastLine, List.rdropWhile, List.rtakeWhile, ← List.reverse_append, List.takeWhile_append_dropWhile,
    List.reverse_reverse]

theorem newline_not_mem_lastLine (content : Octets) : 10 ∉ lastLine content :=
  fun h => absurd (List.mem_rtakeWhile_imp h) (by decide)

theorem getLast_finishedLines (content : Octets) : ∀ o ∈ (finishedLines content).getLast?, o = 10 := by
  intro o ho
  have hne : finishedLines content ≠ [] := by
    intro hnil
    rw [hnil] at ho
    cases ho
  have hlast := List.rdropWhile_last_not (fun o : UInt8 => decide (o ≠ 10)) content hne
  rw [List.getLast?_eq_some_getLast hne] at ho
  cases ho
  simp only [decide_eq_true_eq, not_not] at hlast
  exact hlast

theorem isWhole_append_newline (content : Octets) : IsWhole (content ++ [10]) := by
  have hlast : lastLine (content ++ [10]) = [] := by
    rw [lastLine, List.rtakeWhile_concat]
    rfl
  refine ⟨[], ?_, by simp⟩
  rw [hlast, Utf8.decode?]

/-! ## Reading on -/

/-- Adds the record on a line to those before it. -/
def readOn (now : Timestamp) (records : List Record) (line : Octets) : Except Fault (List Record) := do
  let r ← readLine now line
  .ok (records ++ r.toList)

theorem readRecords_of_lines {now : Timestamp} {content front : Octets} {lines : List Octets}
    (h : splitLines content = splitLines front ++ lines) :
    readRecords now content = readRecords now front >>= fun records => lines.foldlM (readOn now) records := by
  unfold readRecords
  rw [h, List.foldlM_append]
  rfl

theorem loadRecords_of_read {disk : Disk} {path : Path} {content : Octets} {now : Timestamp} {records : List Record}
    (h : disk.read path = .ok content) (hrecords : readRecords now content = .ok records) :
    loadRecords disk path now = .ok records := by
  rw [loadRecords, h]
  dsimp only
  rw [hrecords]

theorem loadRecords_of_fault {disk : Disk} {path : Path} {content : Octets} {now : Timestamp} {f : Fault}
    (h : disk.read path = .ok content) (hrecords : readRecords now content = .error f) :
    loadRecords disk path now = .error (.fault f) := by
  rw [loadRecords, h]
  dsimp only
  rw [hrecords]

theorem readLine_blank {line : Octets} {blank : Text} (h : Utf8.decode? line = some blank)
    (hblank : ∀ c ∈ blank, isBlank c = true) (now : Timestamp) : readLine now line = .ok none := by
  have htrim := Text.trim_append_of_blank hblank []
  rw [List.append_nil] at htrim
  have hread : Record.read blank = .error (.malformed []) := by
    rw [Record.read_of_trim htrim]
    rfl
  rw [readLine, h]
  dsimp only
  rw [hread]

/-- The line of a record is read as the record but for its time, also after white space. -/
theorem readLine_write {line : Octets} {blank : Text} (h : Utf8.decode? line = some blank)
    (hblank : ∀ c ∈ blank, isBlank c = true) {r : Record} (hnano : r.timestamp.nano = 0)
    (hcorrect : r.correct < wordBound) (htouches : r.touches < wordBound) (now : Timestamp) :
    ∃ d, readLine now (line ++ Utf8.encode r.write) =
      .ok (if r.timestamp.isOlderThan maxDays now then none else some { r with duration := d }) := by
  obtain ⟨d, hread⟩ := Record.read_write hnano hcorrect htouches
  have hdecode : Utf8.decode? (line ++ Utf8.encode r.write) = some (blank ++ r.write) := by
    rw [Utf8.decode?_append h, Utf8.decode?_encode]
    rfl
  refine ⟨d, ?_⟩
  rw [readLine, hdecode]
  dsimp only
  rw [Record.read_of_trim (Text.trim_append_of_blank hblank r.write), hread]

/-- The records in a file, and after them one that is written on after it. -/
theorem readRecords_append {now : Timestamp} {content : Octets} {old : List Record}
    (hold : readRecords now content = .ok old) (hwhole : IsWhole content) {r : Record} (hnano : r.timestamp.nano = 0)
    (hcorrect : r.correct < wordBound) (htouches : r.touches < wordBound) (hline : '\n' ∉ r.write) :
    ∃ d, readRecords now (content ++ Utf8.encode (r.write ++ ['\n'])) =
      .ok (old ++ if r.timestamp.isOlderThan maxDays now then [] else [{ r with duration := d }]) := by
  obtain ⟨blank, hdecode, hblank⟩ := hwhole
  obtain ⟨d, hread⟩ := readLine_write hdecode hblank hnano hcorrect htouches now
  have hfront := getLast_finishedLines content
  -- the last line of the file is read as nothing
  have hfinished : readRecords now (finishedLines content) = .ok old := by
    have hsplit := splitLines_append hfront (lastLine content)
    rw [finishedLines_append_lastLine] at hsplit
    rw [readRecords_of_lines hsplit] at hold
    obtain ⟨records, hrecords, hlast⟩ := ok_of_bind hold
    rw [hrecords]
    by_cases hnil : lastLine content = []
    · rw [hnil] at hlast
      exact hlast
    · rw [splitLines_unfinished (newline_not_mem_lastLine content) hnil, List.foldlM_cons, readOn,
        readLine_blank hdecode hblank, ok_bind, ok_bind] at hlast
      rwa [List.foldlM_nil, Option.toList_none, List.append_nil] at hlast
  -- the record is written on after the white space of that line
  have hlines : splitLines (content ++ Utf8.encode (r.write ++ ['\n'])) =
      splitLines (finishedLines content) ++ [lastLine content ++ Utf8.encode r.write] := by
    have hnewline : 10 ∉ lastLine content ++ Utf8.encode r.write := fun h =>
      (List.mem_append.1 h).elim (newline_not_mem_lastLine content) (Utf8.newline_not_mem_encode hline)
    calc splitLines (content ++ Utf8.encode (r.write ++ ['\n']))
        = splitLines (finishedLines content ++ ((lastLine content ++ Utf8.encode r.write) ++ [10])) := by
          rw [Utf8.encode_append, ← List.append_assoc, ← List.append_assoc, ← List.append_assoc,
            finishedLines_append_lastLine]
          rfl
      _ = _ := by rw [splitLines_append hfront, splitLines_line hnewline]
  refine ⟨d, ?_⟩
  rw [readRecords_of_lines hlines, hfinished, ok_bind, List.foldlM_cons, readOn, hread, ok_bind]
  split <;> rfl

/-! ## Recording -/

/-- What a round that is recorded does, but for the totals. -/
theorem append_ok {log log' : Log} {disk disk' : Disk} {lesson : Text} {result : RoundResult} {now : Timestamp}
    {r : Record} (h : log.append disk lesson result now = .ok (r, log', disk')) :
    r = .ofRound (log.stamp now) lesson result ∧ log'.path = log.path ∧ log'.file = log.file ∧
      log'.latest = some r.timestamp ∧ disk' = log.writeRecord disk r := by
  obtain ⟨log₁, hcount, hrest⟩ := ok_of_bind h
  cases hrest
  rw [count_eq] at hcount
  obtain ⟨day, -, hlog⟩ := ok_of_bind hcount
  cases hlog
  exact ⟨rfl, rfl, rfl, rfl, rfl⟩

/-- An open log, and what is read at some time from the file that it writes to; no line of it was cut off. -/
def Keeps (log : Log) (disk : Disk) (path : Path) (now : Timestamp) (records : List Record) : Prop :=
  ∃ loc content, log.file = some loc ∧ disk.Holds path loc content ∧ readRecords now content = .ok records ∧
    IsWhole content

/-- The record that is read for one that was written: its time was rounded. -/
def Reread (r r' : Record) : Prop := r' = { r with duration := r'.duration }

section

variable {log log' : Log} {disk disk' : Disk} {path : Path} {now : Timestamp} {old : List Record}

theorem Keeps.loadRecords (h : Keeps log disk path now old) : Log.loadRecords disk path now = .ok old := by
  obtain ⟨loc, content, -, hholds, hread, -⟩ := h
  exact loadRecords_of_read hholds.read hread

/-- A round that is recorded adds its record, unless that is too old. -/
theorem Keeps.append (h : Keeps log disk path now old) {lesson : Text} {result : RoundResult} {clock : Timestamp}
    {r : Record} (happend : log.append disk lesson result clock = .ok (r, log', disk'))
    (hcorrect : result.correct < wordBound) (htouches : result.touches < wordBound) :
    ∃ r', Reread r r' ∧
      Keeps log' disk' path now (old ++ if r.timestamp.isOlderThan maxDays now then [] else [r']) := by
  obtain ⟨loc, content, hfile, hholds, hread, hwhole⟩ := h
  obtain ⟨rfl, -, hfile', -, rfl⟩ := append_ok happend
  have hcontrol := Record.not_control_write (r := .ofRound (log.stamp clock) lesson result)
    (Record.not_control_sanitize lesson)
  obtain ⟨d, hreread⟩ := readRecords_append hread hwhole (r := .ofRound (log.stamp clock) lesson result) rfl hcorrect
    htouches (fun hc => absurd (hcontrol _ hc) (by decide))
  refine ⟨{ Record.ofRound (log.stamp clock) lesson result with duration := d }, rfl, loc, _, hfile'.trans hfile, ?_,
    hreread, ?_⟩
  · rw [writeRecord, hfile]
    exact hholds.append _
  · rw [Utf8.encode_append, ← List.append_assoc]
    exact isWhole_append_newline _

/-- Rounds that are recorded add their records, but for those that are too old. -/
theorem Keeps.appendAll (h : Keeps log disk path now old) {finishes : List Finish} {records : List Record}
    (happend : log.appendAll disk finishes = .ok (records, log', disk'))
    (hcounts : ∀ f ∈ finishes, f.result.correct < wordBound ∧ f.result.touches < wordBound) :
    ∃ reread, Keeps log' disk' path now (old ++ reread) ∧
      List.Forall₂ Reread (records.filter fun r => !r.timestamp.isOlderThan maxDays now) reread := by
  induction finishes generalizing log disk old records with
  | nil =>
    cases happend
    exact ⟨[], by rwa [List.append_nil], .nil⟩
  | cons f rest ih =>
    obtain ⟨⟨r, log₁, disk₁⟩, hfirst, hrest⟩ := ok_of_bind happend
    obtain ⟨⟨records', log₂, disk₂⟩, hall, hlast⟩ := ok_of_bind hrest
    cases hlast
    obtain ⟨⟨hcorrect, htouches⟩, hcounts⟩ := List.forall_mem_cons.1 hcounts
    obtain ⟨r', hr, hkeeps⟩ := h.append hfirst hcorrect htouches
    obtain ⟨reread, hkeeps, hreread⟩ := ih hkeeps hall hcounts
    rw [List.append_assoc] at hkeeps
    refine ⟨_, hkeeps, ?_⟩
    cases hage : r.timestamp.isOlderThan maxDays now with
    | true => rwa [List.filter_cons_of_neg (by simp [hage]), if_pos rfl, List.nil_append]
    | false =>
      rw [List.filter_cons_of_pos (by simp [hage]), if_neg Bool.false_ne_true]
      exact .cons hr hreread

end

/-! ## Opening -/

theorem extends_makeParent (disk : Disk) (path : Path) : disk.Extends (makeParent disk path).2 := by
  unfold makeParent
  split
  · split
    · exact .refl disk
    · exact Disk.extends_makeDirectory ..
  · exact .refl disk

/-- Opening a file to write after its end leaves its content as it is. -/
theorem holds_openFile {disk disk' : Disk} {path : Path} {loc file : Location} {content : Octets}
    (hholds : disk.Holds path loc content) (h : openFile disk path false = (some file, disk')) :
    file = loc ∧ disk'.Holds path loc content := by
  have hparent := (extends_makeParent disk path).holds hholds
  have happend := hparent.append []
  rw [List.append_nil] at happend
  unfold openFile at h
  generalize makeParent disk path = parent at h hparent happend
  obtain ⟨made, disk₁⟩ := parent
  dsimp only at h
  rw [hparent.locateFile] at h
  cases made with
  | false => cases h
  | true =>
    cases h
    exact ⟨rfl, happend⟩

/-- A log that is opened at a whole file, and can be written to, keeps the records in it. -/
theorem keeps_of_openAt {disk disk' : Disk} {path : Path} {content : Octets} {now : Timestamp} {log : Log}
    (hread : disk.read path = .ok content) (hwhole : IsWhole content) (hopen : openAt disk path now = .ok (log, disk'))
    (hfile : log.file ≠ none) : ∃ old, loadRecords disk path now = .ok old ∧ Keeps log disk' path now old := by
  obtain ⟨loc, hholds⟩ := Disk.holds_of_read hread
  unfold openAt at hopen
  cases hrecords : readRecords now content with
  | error f =>
    -- a fault would have kept the log from being opened
    rw [loadRecords_of_fault hread hrecords] at hopen
    cases hopen
  | ok old =>
    have hload := loadRecords_of_read hread hrecords
    rw [hload] at hopen
    obtain ⟨base, -, hrest⟩ := ok_of_bind hopen
    generalize hopened : openFile disk path false = opened at hrest
    obtain ⟨file, disk₁⟩ := opened
    cases hrest
    obtain ⟨found, hsome⟩ := Option.ne_none_iff_exists'.1 hfile
    obtain rfl : file = some found := hsome
    obtain ⟨rfl, hholds'⟩ := holds_openFile hholds hopened
    exact ⟨old, hload, found, content, rfl, hholds', hrecords, hwhole⟩

/-! ## The present -/

theorem stamp_not_before {log : Log} {clock now : Timestamp} (h : clock.before now = false) :
    (log.stamp clock).before now = false := by
  unfold stamp
  split
  · rename_i latest hlatest
    split
    · rename_i hbefore
      by_contra hnow
      rw [Timestamp.before_trans hbefore (Bool.not_eq_false _ ▸ hnow)] at h
      cases h
    · exact h
  · exact h

/-- What is recorded from now on is not too old now. -/
theorem not_old_of_appendAll {log log' : Log} {disk disk' : Disk} {finishes : List Finish} {records : List Record}
    {now : Timestamp} (happend : log.appendAll disk finishes = .ok (records, log', disk'))
    (hnow : ∀ f ∈ finishes, f.now.before now = false) :
    ∀ r ∈ records, r.timestamp.isOlderThan maxDays now = false := by
  induction finishes generalizing log disk records with
  | nil =>
    cases happend
    exact fun _ hr => absurd hr List.not_mem_nil
  | cons f rest ih =>
    obtain ⟨⟨r, log₁, disk₁⟩, hfirst, hrest⟩ := ok_of_bind happend
    obtain ⟨⟨records', log₂, disk₂⟩, hall, hlast⟩ := ok_of_bind hrest
    cases hlast
    obtain ⟨hf, hnow⟩ := List.forall_mem_cons.1 hnow
    obtain ⟨rfl, -⟩ := append_ok hfirst
    exact List.forall_mem_cons.2 ⟨Timestamp.not_isOlderThan (stamp_not_before hf) (by decide), ih hall hnow⟩

/-! ## Reopening -/

/-- For every file without a line that was cut off, every log that is opened at it and can be written to, and all
rounds that are recorded in it: the records that were in the file are read again, and after them those of the rounds,
but for the rounding of their times. All of them are, if the clock does not go back. -/
theorem loadRecords_appendAll {disk disk₁ disk₂ : Disk} {path : Path} {content : Octets} {now : Timestamp}
    {log log' : Log} {finishes : List Finish} {records : List Record} (hread : disk.read path = .ok content)
    (hwhole : IsWhole content) (hopen : openAt disk path now = .ok (log, disk₁)) (hfile : log.file ≠ none)
    (hcounts : ∀ f ∈ finishes, f.result.correct < wordBound ∧ f.result.touches < wordBound)
    (happend : log.appendAll disk₁ finishes = .ok (records, log', disk₂)) :
    ∃ old reread, loadRecords disk path now = .ok old ∧ loadRecords disk₂ path now = .ok (old ++ reread) ∧
      List.Forall₂ (fun r r' => r' = { r with duration := r'.duration })
        (records.filter fun r => !r.timestamp.isOlderThan maxDays now) reread ∧
      ((∀ f ∈ finishes, f.now.before now = false) → ∀ r ∈ records, r.timestamp.isOlderThan maxDays now = false) := by
  obtain ⟨old, hold, hkeeps⟩ := keeps_of_openAt hread hwhole hopen hfile
  obtain ⟨reread, hkeeps', hreread⟩ := hkeeps.appendAll happend hcounts
  exact ⟨old, reread, hold, hkeeps'.loadRecords, hreread, not_old_of_appendAll happend⟩

/-! ## A line that was cut off -/

namespace TwoRounds

def place : Path := "log".toList

/-- A disk with a log. -/
def disk (content : Text) : Disk := ⟨[([place], .file (Utf8.encode content))], []⟩

def day : Date := ⟨2024, 5, 1, by decide⟩

def morning : Timestamp := ⟨day, 36000, 750000000, by decide, by decide⟩

def midday : Timestamp := ⟨day, 45000, 750000000, by decide, by decide⟩

/-- The record in the log, of a round in the morning. -/
def first : Record := ⟨morning.toWholeSecond, ['a'], .ofWholeSeconds 30, 50, 60⟩

def firstLine : Text := "2024-05-01 10:00:00,\"a\",00:30.0,50,60".toList

/-- A round that is recorded at midday, and its record. -/
def finish : Finish := ⟨['b'], ⟨150, 160, .ofWholeSeconds 90⟩, midday⟩

def second : Record := ⟨midday.toWholeSecond, ['b'], .ofWholeSeconds 90, 150, 160⟩

def secondLine : Text := "2024-05-01 12:30:00,\"b\",01:30.0,150,160\n".toList

/-- The log when it is opened, and when the round is recorded. -/
def log (records : List Record) (days : List Day) (longest : Duration) : Log :=
  ⟨place, some [place], days, 20, longest, latestOf records⟩

def opened : Log := log [first] [⟨day, .ofWholeSeconds 30, 50, 60⟩] (.ofWholeSeconds 30)

def logged : Log := log [first, second] [⟨day, .ofWholeSeconds 120, 200, 220⟩] (.ofWholeSeconds 120)

/-- What is read where both lines have become one. -/
def merged : Record := { second with
  timestamp := first.timestamp
  lesson := "a\",00:30.0,50,602024-05-01 12:30:00,\"b".toList }

end TwoRounds

open TwoRounds in
theorem loadRecords_appendAll_twoRounds :
    (disk (firstLine ++ ['\n'])).read place = .ok (Utf8.encode (firstLine ++ ['\n'])) ∧
    IsWhole (Utf8.encode (firstLine ++ ['\n'])) ∧
    openAt (disk (firstLine ++ ['\n'])) place midday = .ok (opened, disk (firstLine ++ ['\n'])) ∧ opened.file ≠ none ∧
    opened.appendAll (disk (firstLine ++ ['\n'])) [finish] =
      .ok ([second], logged, disk (firstLine ++ ['\n'] ++ secondLine)) ∧
    ∃ old reread, loadRecords (disk (firstLine ++ ['\n'])) place midday = .ok old ∧
      loadRecords (disk (firstLine ++ ['\n'] ++ secondLine)) place midday = .ok (old ++ reread) ∧
      List.Forall₂ (fun r r' => r' = { r with duration := r'.duration }) [second] reread := by
  have hread : (disk (firstLine ++ ['\n'])).read place = .ok (Utf8.encode (firstLine ++ ['\n'])) := by decide +kernel
  have hwhole : IsWhole (Utf8.encode (firstLine ++ ['\n'])) := by
    rw [Utf8.encode_append]
    exact isWhole_append_newline _
  have hopen : openAt (disk (firstLine ++ ['\n'])) place midday = .ok (opened, disk (firstLine ++ ['\n'])) := by
    decide +kernel
  have happend : opened.appendAll (disk (firstLine ++ ['\n'])) [finish] =
      .ok ([second], logged, disk (firstLine ++ ['\n'] ++ secondLine)) := by
    decide +kernel
  obtain ⟨old, reread, hold, hnew, hreread, -⟩ :=
    loadRecords_appendAll hread hwhole hopen (Option.some_ne_none _) (by decide) happend
  exact ⟨hread, hwhole, hopen, Option.some_ne_none _, happend, old, reread, hold, hnew, hreread⟩

open TwoRounds in
/-- The last line of a log was cut off before its newline. Its record is read when the log is opened. When another round
has been recorded, neither that record nor the new one is read any more, but one that is made of both. -/
theorem loadRecords_merged :
    loadRecords (disk firstLine) place midday = .ok [first] ∧
    openAt (disk firstLine) place midday = .ok (opened, disk firstLine) ∧
    opened.append (disk firstLine) finish.lesson finish.result finish.now =
      .ok (second, logged, disk (firstLine ++ secondLine)) ∧
    ∃ reread, loadRecords (disk (firstLine ++ secondLine)) place midday = .ok reread ∧
      ¬∃ r', reread = [first] ++ [r'] ∧ r'.timestamp = second.timestamp ∧ r'.lesson = second.lesson ∧
        r'.correct = second.correct ∧ r'.touches = second.touches := by
  refine ⟨by decide +kernel, by decide +kernel, by decide +kernel, [merged], by decide +kernel, ?_⟩
  rintro ⟨r', hr', -⟩
  cases congrArg List.length hr'

end Log

end KanaTutor
