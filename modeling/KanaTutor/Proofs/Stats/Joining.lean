/-
The lines of a log are read apart from each other. What is read from a file is what is read from each line of it, one
line after the other, so two files that are joined by a newline give their records one after the other, and a line that
is passed over takes nothing with it. A newline after a line that is finished already makes one more line, an empty one,
which is passed over too.
-/
import KanaTutor.Proofs.Stats.Opening

namespace KanaTutor.Log

/-! ## Lines that are passed over -/

/-- The line gives no record: it is no text, or only white space, or no record, or the record is too old. -/
inductive PassedOver (now : Timestamp) (line : Octets) : Prop where
  | undecoded (h : Utf8.decode? line = none)
  | blank {t : Text} (h : Utf8.decode? line = some t) (hblank : ∀ c ∈ t, isBlank c = true)
  | malformed {t shown : Text} (h : Utf8.decode? line = some t) (hread : Record.read t = .error (.malformed shown))
  | expired {t : Text} {r : Record} (h : Utf8.decode? line = some t) (hread : Record.read t = .ok r)
      (hage : r.timestamp.isOlderThan maxDays now = true)

section

variable {now : Timestamp} {line : Octets}

theorem PassedOver.readLine (h : PassedOver now line) : Log.readLine now line = .ok none := by
  cases h with
  | undecoded h => rw [Log.readLine, h]
  | blank h hblank => exact readLine_blank h hblank now
  | malformed h hread =>
    rw [Log.readLine, h]
    dsimp only
    rw [hread]
  | expired h hread hage =>
    rw [Log.readLine, h]
    dsimp only
    rw [hread]
    dsimp only
    rw [if_pos hage]

/-- There is no other way for a line to give no record. -/
theorem passedOver_of_readLine (h : readLine now line = .ok none) : PassedOver now line := by
  unfold readLine at h
  split at h
  · rename_i hdecode
    exact .undecoded hdecode
  · rename_i t hdecode
    split at h
    · rename_i r hread
      split at h
      · rename_i hage
        exact .expired hdecode hread hage
      · cases h
    · rename_i shown hread
      exact .malformed hdecode hread
    · cases h

theorem recordOn_eq_none_iff (h : ¬TooLong line) : recordOn now line = none ↔ PassedOver now line := by
  have hread := readLine_of_not_tooLong h now
  refine ⟨fun hnone => passedOver_of_readLine (hread.trans (congrArg _ hnone)), fun hpassed => ?_⟩
  exact Except.ok.inj (hread.symm.trans hpassed.readLine)

end

/-! ## Lines after lines -/

/-- What is read from lines does not depend on the records before them. -/
theorem foldlM_readOn_eq (now : Timestamp) (lines : List Octets) (records : List Record) :
    lines.foldlM (readOn now) records =
      lines.foldlM (readOn now) [] >>= fun more => .ok (records ++ more) := by
  induction lines generalizing records with
  | nil =>
    show Except.ok records = .ok (records ++ [])
    rw [List.append_nil]
  | cons line lines ih =>
    rw [List.foldlM_cons, List.foldlM_cons, readOn, readOn]
    cases readLine now line with
    | error f => rfl
    | ok r =>
      rw [ok_bind, ok_bind, ok_bind, ok_bind, ih, ih ([] ++ r.toList)]
      cases lines.foldlM (readOn now) [] with
      | error f => rfl
      | ok more => rw [ok_bind, ok_bind, ok_bind, List.nil_append, List.append_assoc]

theorem foldlM_readOn_append (now : Timestamp) (lines lines' : List Octets) :
    (lines ++ lines').foldlM (readOn now) [] =
      lines.foldlM (readOn now) [] >>= fun records =>
        lines'.foldlM (readOn now) [] >>= fun more => .ok (records ++ more) := by
  rw [List.foldlM_append]
  cases lines.foldlM (readOn now) [] with
  | error f => rfl
  | ok records => exact foldlM_readOn_eq now lines' records

/-- A line that is passed over can be left out. -/
theorem foldlM_readOn_of_passedOver {now : Timestamp} {line : Octets} (h : PassedOver now line)
    (before after : List Octets) :
    (before ++ line :: after).foldlM (readOn now) [] = (before ++ after).foldlM (readOn now) [] := by
  rw [foldlM_readOn_append, foldlM_readOn_append, List.foldlM_cons, readOn, h.readLine]
  rfl

/-! ## Files after files -/

/-- A newline finishes the last line, or it makes an empty one. -/
theorem splitLines_newline (content : Octets) :
    splitLines (content ++ [10]) = splitLines content ∨ splitLines (content ++ [10]) = splitLines content ++ [[]] := by
  have hfront := getLast_finishedLines content
  have hlast := newline_not_mem_lastLine content
  have hsplit : splitLines content = splitLines (finishedLines content) ++ splitLines (lastLine content) := by
    rw [← splitLines_append hfront, finishedLines_append_lastLine]
  have hsplit' : splitLines (content ++ [10]) = splitLines (finishedLines content) ++ [lastLine content] := by
    rw [← splitLines_line hlast, ← splitLines_append hfront, ← List.append_assoc, finishedLines_append_lastLine]
  rw [hsplit, hsplit']
  by_cases hnil : lastLine content = []
  · rw [hnil]
    exact .inr (by rw [splitLines, List.append_nil])
  · exact .inl (by rw [splitLines_unfinished hlast hnil])

theorem readRecords_newline (now : Timestamp) (content : Octets) :
    readRecords now (content ++ [10]) = readRecords now content := by
  have hempty : PassedOver now [] := .blank (t := []) (by rw [Utf8.decode?]) (fun c hc => nomatch hc)
  unfold readRecords
  rcases splitLines_newline content with hlines | hlines
  · rw [hlines]
  · rw [hlines]
    have := foldlM_readOn_of_passedOver hempty (splitLines content) []
    rwa [List.append_nil] at this

/-- The records of two files that are joined by a newline are those of the first and then those of the second. -/
theorem readRecords_join (now : Timestamp) (a b : Octets) :
    readRecords now (a ++ 10 :: b) =
      readRecords now a >>= fun records => readRecords now b >>= fun more => .ok (records ++ more) := by
  have hlast : ∀ o ∈ (a ++ [10]).getLast?, o = 10 := by simp
  have hlines : splitLines (a ++ 10 :: b) = splitLines (a ++ [10]) ++ splitLines b := by
    rw [← splitLines_append hlast, List.append_assoc]
    rfl
  rw [← readRecords_newline now a]
  unfold readRecords
  rw [hlines]
  exact foldlM_readOn_append now _ _

/-! ## Logs -/

section

variable {disk : Disk} {path : Path} {content : Octets} {now : Timestamp}

/-- A file that can be read is an error only for what its lines make of the reader. -/
theorem loadRecords_eq (hread : disk.read path = .ok content) :
    loadRecords disk path now = (readRecords now content).mapError .fault := by
  cases hrecords : readRecords now content with
  | error f => exact loadRecords_of_fault hread hrecords
  | ok records => exact loadRecords_of_read hread hrecords

theorem loadRecords_ne_unreadable (hread : disk.read path = .ok content) :
    loadRecords disk path now ≠ .error .unreadable := by
  rw [loadRecords_eq hread]
  cases readRecords now content with
  | error f => exact fun h => nomatch h
  | ok records => exact fun h => nomatch h

theorem readRecords_of_not_fault (hread : disk.read path = .ok content)
    (h : ∀ f, loadRecords disk path now ≠ .error (.fault f)) :
    ∃ records, readRecords now content = .ok records ∧ loadRecords disk path now = .ok records := by
  cases hrecords : readRecords now content with
  | error f => exact absurd (loadRecords_of_fault hread hrecords) (h f)
  | ok records => exact ⟨records, rfl, loadRecords_of_read hread hrecords⟩

/-- What is loaded is on its lines, each by itself. -/
theorem recordOn_of_loadRecords (hread : disk.read path = .ok content) {records : List Record}
    (hload : loadRecords disk path now = .ok records) :
    records = (splitLines content).filterMap (recordOn now) ∧
      ∀ line ∈ splitLines content, recordOn now line = none ↔ PassedOver now line := by
  have hcontent : contentAt disk path = content := by rw [contentAt, hread]
  by_cases hshort : ∀ line ∈ splitLines (contentAt disk path), ¬TooLong line
  · rcases loadRecords_of_not_tooLong hshort with h | ⟨h, -⟩
    · rw [hcontent] at h hshort
      exact ⟨Except.ok.inj (hload.symm.trans h), fun line hline => recordOn_eq_none_iff (hshort line hline)⟩
    · exact absurd h (loadRecords_ne_unreadable hread)
  · rw [loadRecords_of_tooLong (by simpa using hshort)] at hload
    cases hload

end

/-- For every file that can be read and every time. The file is no error. What is loaded from it are the records on its
lines, in their order, and a line is without one only if it is passed over. A file without such a line gives the same.
And if the file is two others joined by a newline, and neither of them is a fault, it gives the records of the first and
then those of the second. -/
theorem loadRecords_join {disk : Disk} {path : Path} {content : Octets} (hread : disk.read path = .ok content)
    (now : Timestamp) :
    loadRecords disk path now ≠ .error .unreadable ∧
    (∀ records, loadRecords disk path now = .ok records →
      records = (splitLines content).filterMap (recordOn now) ∧
      ∀ line ∈ splitLines content, recordOn now line = none ↔ PassedOver now line) ∧
    (∀ disk' path' content' before line after, disk'.read path' = .ok content' → PassedOver now line →
      splitLines content = before ++ line :: after → splitLines content' = before ++ after →
      loadRecords disk path now = loadRecords disk' path' now) ∧
    ∀ disk₁ path₁ a disk₂ path₂ b, disk₁.read path₁ = .ok a → disk₂.read path₂ = .ok b → content = a ++ 10 :: b →
      (∀ f, loadRecords disk₁ path₁ now ≠ .error (.fault f)) → (∀ f, loadRecords disk₂ path₂ now ≠ .error (.fault f)) →
      ∃ ra rb, loadRecords disk₁ path₁ now = .ok ra ∧ loadRecords disk₂ path₂ now = .ok rb ∧
        loadRecords disk path now = .ok (ra ++ rb) := by
  refine ⟨loadRecords_ne_unreadable hread, fun records hload => recordOn_of_loadRecords hread hload, ?_, ?_⟩
  · intro disk' path' content' before line after hread' hpassed hlines hlines'
    have hrecords : readRecords now content = readRecords now content' := by
      unfold readRecords
      rw [hlines, hlines']
      exact foldlM_readOn_of_passedOver hpassed before after
    rw [loadRecords_eq hread, loadRecords_eq hread', hrecords]
  · rintro disk₁ path₁ a disk₂ path₂ b hreadA hreadB rfl hsafeA hsafeB
    obtain ⟨ra, ha, hloadA⟩ := readRecords_of_not_fault hreadA hsafeA
    obtain ⟨rb, hb, hloadB⟩ := readRecords_of_not_fault hreadB hsafeB
    refine ⟨ra, rb, hloadA, hloadB, loadRecords_of_read hread ?_⟩
    rw [readRecords_join, ha, hb]
    rfl

/-! ## A damaged log -/

namespace Damaged

def disk (content : Octets) : Disk := ⟨[([TwoRounds.place], .file content)], []⟩

/-- A record, and a line that is none. -/
def front : Octets := Utf8.encode (TwoRounds.firstLine ++ "\nround".toList)

/-- White space, a record of long ago, and a record. -/
def rear : Octets := Utf8.encode (" \r\n2004-05-01 10:00:00,\"a\",00:30.0,50,60\n".toList ++ TwoRounds.secondLine)

/-- An octet that begins no character, on a line of its own. -/
def torn : Octets := 255 :: 10 :: rear

end Damaged

open TwoRounds Damaged in
/-- Both parts of the log give one record, and the line that is no text can be left out. -/
theorem loadRecords_join_damaged :
    (disk (front ++ 10 :: torn)).read place = .ok (front ++ 10 :: torn) ∧
    PassedOver midday [255] ∧
    loadRecords (disk (front ++ 10 :: torn)) place midday = .ok [first, second] ∧
    loadRecords (disk (front ++ 10 :: torn)) place midday = loadRecords (disk (front ++ 10 :: rear)) place midday := by
  have hread : (disk (front ++ 10 :: torn)).read place = .ok (front ++ 10 :: torn) := by decide +kernel
  have hpassed : PassedOver midday [255] := .undecoded (by decide +kernel)
  obtain ⟨-, -, hskip, hjoin⟩ := loadRecords_join hread midday
  have hfront : loadRecords (disk front) place midday = .ok [first] := by decide +kernel
  have htorn : loadRecords (disk torn) place midday = .ok [second] := by decide +kernel
  obtain ⟨ra, rb, ha, hb, hload⟩ := hjoin (disk front) place front (disk torn) place torn (by decide +kernel)
    (by decide +kernel) rfl (fun f h => nomatch hfront.symm.trans h) (fun f h => nomatch htorn.symm.trans h)
  obtain rfl := Except.ok.inj (hfront.symm.trans ha)
  obtain rfl := Except.ok.inj (htorn.symm.trans hb)
  refine ⟨hread, hpassed, hload, hskip (disk (front ++ 10 :: rear)) place (front ++ 10 :: rear)
    (splitLines front) [255] (splitLines rear) (by decide +kernel) hpassed (by decide +kernel) (by decide +kernel)⟩

end KanaTutor.Log
