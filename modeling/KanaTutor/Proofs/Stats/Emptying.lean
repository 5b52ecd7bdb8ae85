/-
What stands in the file of a log, whatever is done to the log. The file is written on after its end as long as the log
is open, and emptied when the log is; nothing else touches it. A log that is emptied has nothing left of what it was
before, so from then on it does what a new log does at an empty file. The induction is along the things that are done:
they change the page that a log stands on, and the totals of a log depend neither on its path nor on its file.
-/
import KanaTutor.Proofs.Disk.Paths
import KanaTutor.Proofs.Stats.Best
import KanaTutor.Proofs.Stats.Opening

namespace KanaTutor.Log

/-! ## What is done to a log -/

/-- What can be done to a log. -/
inductive Act where
  | append (finish : Finish)
  | reset
  | close

/-- What has been done to a log: a round was recorded, or it was emptied or closed. -/
inductive Event where
  | recorded (r : Record)
  | reset
  | close
deriving DecidableEq

/-- Does one thing to a log: what has been done, the log and the disk. -/
def act (log : Log) (disk : Disk) : Act → Except Fault (Event × Log × Disk)
  | .append f => do
    let (r, log, disk) ← log.append disk f.lesson f.result f.now
    .ok (.recorded r, log, disk)
  | .reset => .ok (.reset, log.reset disk)
  | .close => .ok (.close, log.close, disk)

/-- Does one thing after the other. -/
def actAll (log : Log) (disk : Disk) : List Act → Except Fault (List Event × Log × Disk)
  | [] => .ok ([], log, disk)
  | a :: rest => do
    let (event, log, disk) ← log.act disk a
    let (events, log, disk) ← actAll log disk rest
    .ok (event :: events, log, disk)

/-! ## What is written -/

/-- The events after the log was emptied for the last time, all of them if it never was. -/
def sinceReset (events : List Event) : List Event := events.rtakeWhile (· ≠ .reset)

/-- The record of an event. -/
def Event.record? : Event → Option Record
  | .recorded r => some r
  | .reset | .close => none

/-- The records since the log was emptied for the last time, as long as it was open. -/
def writtenRecords (events : List Event) : List Record :=
  ((sinceReset events).takeWhile (· ≠ .close)).filterMap Event.record?

/-- What the records are written after: what stood in the file, or nothing once the log was emptied. -/
def baseContent (content : Octets) (events : List Event) : Octets := if .reset ∈ events then [] else content

/-- The line of a record in the file, with its newline. -/
def lineOf (r : Record) : Octets := Utf8.encode (r.write ++ ['\n'])

/-- The content of a file, and whether the log is open to write to it. -/
structure Page where
  content : Octets
  isOpen : Bool

/-- The page after an event. -/
def Page.after (page : Page) : Event → Page
  | .recorded r => if page.isOpen then { page with content := page.content ++ lineOf r } else page
  | .reset => ⟨[], true⟩
  | .close => { page with isOpen := false }

theorem sinceReset_concat (events : List Event) (event : Event) :
    sinceReset (events ++ [event]) = if event = .reset then [] else sinceReset events ++ [event] := by
  rw [sinceReset, List.rtakeWhile_concat]
  by_cases h : event = .reset
  · simp [h]
  · simp [h, sinceReset]

theorem takeWhile_of_not_mem {events : List Event} (h : .close ∉ events) : events.takeWhile (· ≠ .close) = events := by
  rw [List.takeWhile_eq_self_iff]
  intro event hevent
  simpa using ne_of_mem_of_not_mem hevent h

theorem takeWhile_of_mem {events : List Event} (h : .close ∈ events) (more : List Event) :
    (events ++ more).takeWhile (· ≠ .close) = events.takeWhile (· ≠ .close) := by
  induction events with
  | nil => cases h
  | cons event events ih =>
    rw [List.cons_append, List.takeWhile_cons, List.takeWhile_cons]
    split
    · rename_i hopen
      have hrest : .close ∈ events := by simpa [Ne.symm (of_decide_eq_true hopen)] using h
      rw [ih hrest]
    · rfl

/-- A record is written if the log has not been closed since it was emptied. -/
theorem writtenRecords_recorded (events : List Event) (r : Record) :
    writtenRecords (events ++ [.recorded r]) =
      if .close ∈ sinceReset events then writtenRecords events else writtenRecords events ++ [r] := by
  rw [writtenRecords, writtenRecords, sinceReset_concat, if_neg (by simp)]
  split
  · rename_i hclosed
    rw [takeWhile_of_mem hclosed]
  · rename_i hopen
    rw [takeWhile_of_not_mem hopen, takeWhile_of_not_mem (by simp [hopen]), List.filterMap_append]
    rfl

theorem writtenRecords_close (events : List Event) : writtenRecords (events ++ [.close]) = writtenRecords events := by
  rw [writtenRecords, writtenRecords, sinceReset_concat, if_neg (by simp)]
  by_cases hclosed : .close ∈ sinceReset events
  · rw [takeWhile_of_mem hclosed]
  · rw [List.takeWhile_append_of_pos fun event hevent => by simpa using ne_of_mem_of_not_mem hevent hclosed,
      takeWhile_of_not_mem hclosed]
    simp

/-- The page after some events holds the records that were written since the log was emptied. -/
theorem foldl_after (content : Octets) (events : List Event) :
    events.foldl Page.after ⟨content, true⟩ =
      ⟨baseContent content events ++ (writtenRecords events).flatMap lineOf, .close ∉ sinceReset events⟩ := by
  induction events using List.reverseRecOn with
  | nil => simp [baseContent, writtenRecords, sinceReset]
  | append_singleton events event ih =>
    rw [List.foldl_append, ih, List.foldl_cons, List.foldl_nil]
    cases event with
    | recorded r =>
      by_cases hclosed : .close ∈ sinceReset events
      · simp [Page.after, baseContent, writtenRecords_recorded, sinceReset_concat, hclosed]
      · simp [Page.after, baseContent, writtenRecords_recorded, sinceReset_concat, hclosed]
    | reset => simp [Page.after, baseContent, writtenRecords, sinceReset_concat]
    | close => simp [Page.after, baseContent, writtenRecords_close, sinceReset_concat]

/-! ## Opening files -/

section

variable {disk disk' : Disk} {path : Path} {loc : Location}

/-- No directory is made for a path that leads somewhere. -/
theorem makeParent_of_locate (h : disk.locate path = .ok loc) : makeParent disk path = (true, disk) := by
  unfold makeParent
  split
  · rename_i c dir hparent
    have hdirectory := Path.directory?_of_parent? hparent (List.cons_ne_nil c dir)
    rcases Path.splits path with ⟨hnone, -⟩ | ⟨found, file, hfound, hbeneath, -⟩
    · rw [hdirectory] at hnone
      cases hnone
    · obtain rfl := Option.some.inj (hdirectory.symm.trans hfound)
      rw [if_pos (Disk.exists?_of_beneath hbeneath h)]
  · rfl

theorem contentOf_makeParent (disk : Disk) (path : Path) (l : Location) :
    Disk.contentOf (makeParent disk path).2 l = disk.contentOf l := by
  unfold makeParent
  split
  · split
    · rfl
    · unfold Disk.makeDirectory
      split
      · exact Disk.contentOf_makeAlong ..
      · rfl
  · rfl

/-- A file that was opened to write after its end has the content it had. -/
theorem holds_of_openFile (h : openFile disk path false = (some loc, disk')) :
    disk'.Holds path loc (disk.contentOf loc) := by
  have hcontent := contentOf_makeParent disk path loc
  unfold openFile at h
  generalize makeParent disk path = parent at h hcontent
  obtain ⟨made, between⟩ := parent
  dsimp only at h hcontent
  split at h
  · rename_i found _ hfound
    cases h
    rw [← hcontent]
    exact Disk.holds_of_locateFile hfound
  · cases h

/-- A file that is there can be opened from its beginning, and is empty then. -/
theorem holds_openFile_fromStart {content : Octets} (h : disk.Holds path loc content) :
    ∃ disk', openFile disk path true = (some loc, disk') ∧ disk'.Holds path loc [] := by
  refine ⟨disk.put loc (.file []), ?_, h.put []⟩
  rw [openFile, makeParent_of_locate h.located]
  dsimp only
  rw [h.locateFile]
  rfl

theorem path_foldl_raise (log : Log) (days : List Day) : (days.foldl raise log).path = log.path := by
  induction days generalizing log with
  | nil => rfl
  | cons day days ih => exact ih (log.raise day)

theorem path_of_openAt {now : Timestamp} {log : Log} (h : openAt disk path now = .ok (log, disk')) :
    log.path = path := by
  obtain ⟨base, file, hbase, -, rfl⟩ := exists_of_openAt h
  obtain ⟨days, -, hlog⟩ := ok_of_bind hbase
  cases hlog
  exact path_foldl_raise _ days

theorem openFile_of_openAt {now : Timestamp} {log : Log} (h : openAt disk path now = .ok (log, disk'))
    (hfile : log.file = some loc) : openFile disk path false = (some loc, disk') := by
  obtain ⟨base, file, -, hopened, rfl⟩ := exists_of_openAt h
  obtain rfl : file = some loc := hfile
  exact hopened

end

/-! ## What stands in the file -/

/-- The log of a path stands on a page: this is what is in the file, and the log can write to it or is closed. -/
structure Stands (path : Path) (loc : Location) (page : Page) (log : Log) (disk : Disk) : Prop where
  place : log.path = path
  file : log.file = if page.isOpen then some loc else none
  holds : disk.Holds path loc page.content

section

variable {path : Path} {loc : Location} {page : Page} {log log' : Log} {disk disk' : Disk}

/-- A record is written where the log stands, if it is open. -/
theorem Stands.append (h : Stands path loc page log disk) {f : Finish} {r : Record}
    (happend : log.append disk f.lesson f.result f.now = .ok (r, log', disk')) :
    Stands path loc (page.after (.recorded r)) log' disk' := by
  obtain ⟨-, hpath, hfile, -, rfl⟩ := append_ok happend
  have hplace := hpath.trans h.place
  have hlog := h.file
  obtain ⟨content, isOpen⟩ := page
  cases isOpen with
  | true =>
    replace hlog : log.file = some loc := hlog
    refine ⟨hplace, hfile.trans hlog, ?_⟩
    rw [writeRecord, hlog]
    exact h.holds.append (lineOf r)
  | false =>
    replace hlog : log.file = none := hlog
    refine ⟨hplace, hfile.trans hlog, ?_⟩
    rw [writeRecord, hlog]
    exact h.holds

/-- A log that is emptied is open and stands on an empty page, also if it was closed. -/
theorem Stands.reset (h : Stands path loc page log disk) :
    ∃ emptied, log.reset disk = ({ path, file := some loc }, emptied) ∧
      Stands path loc ⟨[], true⟩ { path, file := some loc } emptied := by
  obtain ⟨emptied, hopened, hholds⟩ := holds_openFile_fromStart h.holds
  refine ⟨emptied, ?_, rfl, rfl, hholds⟩
  rw [Log.reset, h.place, hopened]

/-- Whatever is done to a log turns the page as the event says. -/
theorem Stands.act (h : Stands path loc page log disk) {a : Act} {event : Event}
    (hact : log.act disk a = .ok (event, log', disk')) : Stands path loc (page.after event) log' disk' := by
  cases a with
  | append f =>
    obtain ⟨⟨r, counted, written⟩, happend, hrest⟩ := ok_of_bind hact
    cases hrest
    exact h.append happend
  | reset =>
    obtain ⟨emptied, hreset, hstands⟩ := h.reset
    rw [Log.act, hreset] at hact
    cases hact
    exact hstands
  | close =>
    cases hact
    exact ⟨h.place, rfl, h.holds⟩

theorem Stands.actAll (h : Stands path loc page log disk) {acts : List Act} {events : List Event}
    (hall : log.actAll disk acts = .ok (events, log', disk')) :
    Stands path loc (events.foldl Page.after page) log' disk' := by
  induction acts generalizing page log disk events with
  | nil =>
    cases hall
    exact h
  | cons a rest ih =>
    obtain ⟨⟨event, next, between⟩, hact, hall⟩ := ok_of_bind hall
    obtain ⟨⟨events', last, final⟩, hrest, hlast⟩ := ok_of_bind hall
    cases hlast
    exact ih (h.act hact) hrest

/-- A log whose file could be opened stands on what was in it. -/
theorem stands_of_openAt {now : Timestamp} (h : openAt disk path now = .ok (log, disk')) (hfile : log.file = some loc) :
    Stands path loc ⟨disk.contentOf loc, true⟩ log disk' :=
  ⟨path_of_openAt h, hfile, holds_of_openFile (openFile_of_openAt h hfile)⟩

end

/-! ## Logs that are alike -/

/-- Counting a record depends neither on the path of a log nor on its file. -/
theorem count_moved (log : Log) (path : Path) (file : Option Location) (r : Record) :
    Log.count { log with path, file } r = log.count r >>= fun after => .ok { after with path, file } := by
  rw [count_eq, count_eq]
  cases (splitDay r.timestamp.date log.days).2.add r <;> rfl

/-- Two logs, each at its own path, that have the same totals and stand on the same page. -/
structure Alike (path path' : Path) (loc loc' : Location) (log : Log) (disk : Disk) (log' : Log) (disk' : Disk) :
    Prop where
  totals : ∃ path file, log' = { log with path, file }
  page : ∃ page, Stands path loc page log disk ∧ Stands path' loc' page log' disk'

/-- Both end in the same fault, or tell the same and leave logs that are alike. -/
inductive Agree (path path' : Path) (loc loc' : Location) {α : Type} :
    Except Fault (α × Log × Disk) → Except Fault (α × Log × Disk) → Prop where
  | error (fault : Fault) : Agree path path' loc loc' (.error fault) (.error fault)
  | ok (told : α) {log log' : Log} {disk disk' : Disk} : Alike path path' loc loc' log disk log' disk' →
      Agree path path' loc loc' (.ok (told, log, disk)) (.ok (told, log', disk'))

section

variable {path path' : Path} {loc loc' : Location} {log log' : Log} {disk disk' : Disk}

theorem Agree.bind {α β : Type} {x y : Except Fault (α × Log × Disk)}
    {next next' : α × Log × Disk → Except Fault (β × Log × Disk)} (h : Agree path path' loc loc' x y)
    (hnext : ∀ told log disk log' disk', Alike path path' loc loc' log disk log' disk' →
      Agree path path' loc loc' (next (told, log, disk)) (next' (told, log', disk'))) :
    Agree path path' loc loc' (x >>= next) (y >>= next') := by
  cases h with
  | error fault => exact .error fault
  | ok told halike => exact hnext told _ _ _ _ halike

/-- The totals of both change together. -/
theorem Alike.append (h : Alike path path' loc loc' log disk log' disk') (f : Finish) :
    Agree path path' loc loc' (log.append disk f.lesson f.result f.now)
      (log'.append disk' f.lesson f.result f.now) := by
  obtain ⟨⟨p, file, rfl⟩, page, hlog, hlog'⟩ := h
  have hmoved := count_moved log p file (recordAfter log.latest f)
  cases hcount : log.count (recordAfter log.latest f) with
  | error fault =>
    rw [hcount] at hmoved
    have happend : log.append disk f.lesson f.result f.now = .error fault := congrArg (· >>= _) hcount
    have happend' : Log.append { log with path := p, file } disk' f.lesson f.result f.now = .error fault :=
      congrArg (· >>= _) hmoved
    rw [happend, happend']
    exact .error fault
  | ok after =>
    rw [hcount, ok_bind] at hmoved
    have happend : log.append disk f.lesson f.result f.now =
        .ok (recordAfter log.latest f, after, log.writeRecord disk (recordAfter log.latest f)) :=
      congrArg (· >>= _) hcount
    have happend' : Log.append { log with path := p, file } disk' f.lesson f.result f.now =
        .ok (recordAfter log.latest f, { after with path := p, file },
          writeRecord { log with path := p, file } disk' (recordAfter log.latest f)) :=
      congrArg (· >>= _) hmoved
    rw [happend, happend']
    exact .ok _ ⟨⟨p, file, rfl⟩, _, hlog.append happend, hlog'.append happend'⟩

theorem Alike.act (h : Alike path path' loc loc' log disk log' disk') (a : Act) :
    Agree path path' loc loc' (log.act disk a) (log'.act disk' a) := by
  cases a with
  | append f => exact (h.append f).bind fun r _ _ _ _ halike => .ok (Event.recorded r) halike
  | reset =>
    obtain ⟨-, page, hlog, hlog'⟩ := h
    obtain ⟨emptied, hreset, hstands⟩ := hlog.reset
    obtain ⟨emptied', hreset', hstands'⟩ := hlog'.reset
    rw [Log.act, Log.act, hreset, hreset']
    exact .ok Event.reset ⟨⟨path', some loc', rfl⟩, _, hstands, hstands'⟩
  | close =>
    obtain ⟨⟨p, file, rfl⟩, page, hlog, hlog'⟩ := h
    exact .ok Event.close ⟨⟨p, none, rfl⟩, _, hlog.act (a := .close) rfl, hlog'.act (a := .close) rfl⟩

/-- Whatever is done to logs that are alike, they do the same. -/
theorem Alike.actAll (h : Alike path path' loc loc' log disk log' disk') (acts : List Act) :
    Agree path path' loc loc' (log.actAll disk acts) (log'.actAll disk' acts) := by
  induction acts generalizing log disk log' disk' with
  | nil => exact .ok [] h
  | cons a rest ih =>
    exact (h.act a).bind fun event _ _ _ _ hnext =>
      (ih hnext).bind fun events _ _ _ _ hlast => .ok (event :: events) hlast

end

/-- What is seen of a log while things are done to it: the events with their records, and then the days and the best of
them, and what is read at the path. -/
def observed (path : Path) (log : Log) (disk : Disk) (acts : List Act) :
    Except Fault (List Event × List Day × Nat × Duration × Except DiskError Octets) :=
  (log.actAll disk acts).map fun (events, log, disk) =>
    (events, log.days, log.maxWordsPerMinute, log.maxDuration, disk.read path)

theorem Alike.observed {path path' : Path} {loc loc' : Location} {log log' : Log} {disk disk' : Disk}
    (h : Alike path path' loc loc' log disk log' disk') (acts : List Act) :
    observed path log disk acts = observed path' log' disk' acts := by
  have hagree := h.actAll acts
  unfold Log.observed
  generalize log.actAll disk acts = x at hagree
  generalize log'.actAll disk' acts = y at hagree
  cases hagree with
  | error fault => rfl
  | ok events halike =>
    obtain ⟨⟨p, file, rfl⟩, page, hlog, hlog'⟩ := halike
    simp only [Except.map, hlog.holds.read, hlog'.holds.read]

/-- What is read when a log is opened is in the file that it writes to, before and after. -/
theorem holds_of_openAt {disk disk' : Disk} {path : Path} {loc : Location} {now : Timestamp} {log : Log}
    {content : Octets} (h : openAt disk path now = .ok (log, disk')) (hfile : log.file = some loc)
    (hread : disk.read path = .ok content) : disk.Holds path loc content ∧ disk'.Holds path loc content := by
  obtain ⟨loc', hholds⟩ := Disk.holds_of_read hread
  obtain ⟨rfl, hkept⟩ := holds_openFile hholds (openFile_of_openAt h hfile)
  exact ⟨hholds, hkept⟩

/-- A log that is opened at a file with nothing in it has no totals. -/
theorem eq_of_openAt_empty {disk disk' : Disk} {path : Path} {loc : Location} {now : Timestamp} {log : Log}
    (h : openAt disk path now = .ok (log, disk')) (hfile : log.file = some loc) (hempty : disk'.read path = .ok []) :
    log = { path, file := some loc } := by
  have hloaded : loaded disk path now = [] := by
    unfold loaded loadRecords
    cases hread : disk.read path with
    | ok content =>
      have hkept := (holds_of_openAt h hfile hread).2.read
      rw [hempty] at hkept
      obtain rfl := Except.ok.inj hkept
      rfl
    | error e => cases e <;> rfl
  obtain ⟨base, file, hbase, -, rfl⟩ := exists_of_openAt h
  rw [hloaded] at hbase
  cases hbase
  obtain rfl : file = some loc := hfile
  rfl

/-! ## Times that are too long -/

/-- The time of the day that a round is counted to does not fit into a duration. -/
def Overflows (log : Log) (f : Finish) : Prop :=
  Duration.limit ≤
    (splitDay (recordAfter log.latest f).timestamp.date log.days).2.duration.nanos + f.result.duration.nanos

theorem count_error {log : Log} {r : Record} {fault : Fault} (h : log.count r = .error fault) :
    fault = .durationOverflow ∧
      Duration.limit ≤ (splitDay r.timestamp.date log.days).2.duration.nanos + r.duration.nanos := by
  rw [count_eq] at h
  rcases error_of_bind h with hadd | ⟨day, -, hraise⟩
  · rcases error_of_bind hadd with hsum | ⟨d, -, hday⟩
    · exact Duration.checked_eq_error_iff.1 hsum
    · cases hday
  · cases hraise

/-- Nothing but such a round is a fault. -/
theorem act_error {log : Log} {disk : Disk} {a : Act} {fault : Fault} (h : log.act disk a = .error fault) :
    fault = .durationOverflow ∧ ∃ f, a = .append f ∧ Overflows log f := by
  cases a with
  | append f =>
    rcases error_of_bind h with happend | ⟨_, _, hdone⟩
    · rcases error_of_bind happend with hcount | ⟨_, _, hlast⟩
      · obtain ⟨hfault, hlong⟩ := count_error hcount
        exact ⟨hfault, f, rfl, hlong⟩
      · cases hlast
    · cases hdone
  | reset => cases h
  | close => cases h

/-- What is done to a log stops only at such a round. -/
theorem actAll_error {log : Log} {disk : Disk} {acts : List Act} {fault : Fault}
    (h : log.actAll disk acts = .error fault) :
    fault = .durationOverflow ∧ ∃ before f rest events after disk', acts = before ++ .append f :: rest ∧
      log.actAll disk before = .ok (events, after, disk') ∧ Overflows after f := by
  induction acts generalizing log disk with
  | nil => cases h
  | cons a acts ih =>
    rcases error_of_bind h with hact | ⟨⟨event, next, between⟩, hact, hall⟩
    · obtain ⟨hfault, f, rfl, hlong⟩ := act_error hact
      exact ⟨hfault, [], f, acts, [], log, disk, rfl, rfl, hlong⟩
    · rcases error_of_bind hall with hrest | ⟨_, _, hlast⟩
      · obtain ⟨hfault, before, f, rest, events, after, disk', rfl, hbefore, hlong⟩ := ih hrest
        refine ⟨hfault, a :: before, f, rest, event :: events, after, disk', rfl, ?_, hlong⟩
        rw [actAll, hact, ok_bind]
        exact congrArg (· >>= _) hbefore
      · cases hlast

/-! ## Lines -/

/-- The line of a record that was written is a single one. -/
theorem newline_not_mem_of_actAll {log log' : Log} {disk disk' : Disk} {acts : List Act} {events : List Event}
    (h : log.actAll disk acts = .ok (events, log', disk')) : ∀ r, .recorded r ∈ events → '\n' ∉ r.write := by
  induction acts generalizing log disk events with
  | nil =>
    cases h
    exact fun r hr => absurd hr List.not_mem_nil
  | cons a rest ih =>
    obtain ⟨⟨event, next, between⟩, hact, hall⟩ := ok_of_bind h
    obtain ⟨⟨events', last, final⟩, hrest, hlast⟩ := ok_of_bind hall
    cases hlast
    intro r hr
    rcases List.mem_cons.1 hr with rfl | hr
    · cases a with
      | append f =>
        obtain ⟨⟨r', counted, written⟩, happend, hdone⟩ := ok_of_bind hact
        cases hdone
        obtain ⟨rfl, -⟩ := append_ok happend
        intro hc
        exact absurd (Record.not_control_write (Record.not_control_sanitize f.lesson) _ hc) (by decide)
      | reset => cases hact
      | close => cases hact
    · exact ih hrest r hr

theorem recorded_of_mem_writtenRecords {events : List Event} {r : Record} (h : r ∈ writtenRecords events) :
    .recorded r ∈ events := by
  obtain ⟨event, hevent, hr⟩ := List.mem_filterMap.1 h
  have hmem : event ∈ events :=
    (List.rtakeWhile_suffix _ _).subset ((List.takeWhile_prefix _).subset hevent)
  cases event with
  | recorded r' =>
    cases hr
    exact hmem
  | reset => cases hr
  | close => cases hr

theorem splitLines_written {records : List Record} (h : ∀ r ∈ records, '\n' ∉ r.write) :
    splitLines (records.flatMap lineOf) = records.map fun r => Utf8.encode r.write := by
  induction records with
  | nil => rfl
  | cons r records ih =>
    obtain ⟨hr, hrecords⟩ := List.forall_mem_cons.1 h
    have hline : lineOf r = Utf8.encode r.write ++ [10] := Utf8.encode_append _ _
    rw [List.flatMap_cons, hline, splitLines_append (by simp), splitLines_line (Utf8.newline_not_mem_encode hr),
      ih hrecords]
    rfl

/-! ## Emptying is like opening -/

/-- For every log whose file could be opened, and everything that is done to it. In the file stands what stood in it
before, or nothing once the log was emptied, and after it the lines of the records since then, as long as the log was
open. Nothing but a day that is too long keeps a thing from being done. And from when the log is emptied, whatever is
done then, its records, its days, the best of them and its file are those of any log that is opened at an empty file. -/
theorem actAll_written {disk disk₁ : Disk} {path : Path} {now : Timestamp} {log : Log} {loc : Location}
    (hopen : openAt disk path now = .ok (log, disk₁)) (hfile : log.file = some loc) :
    (∀ content, disk.read path = .ok content → disk.contentOf loc = content) ∧
    ∀ acts,
      (∀ fault, log.actAll disk₁ acts = .error fault → fault = .durationOverflow ∧
        ∃ before f rest events after disk₂, acts = before ++ .append f :: rest ∧
          log.actAll disk₁ before = .ok (events, after, disk₂) ∧ Overflows after f) ∧
      ∀ events after disk₂, log.actAll disk₁ acts = .ok (events, after, disk₂) →
        (∃ content, disk₂.read path = .ok content ∧
          content = baseContent (disk.contentOf loc) events ++ (writtenRecords events).flatMap lineOf ∧
          ((∀ o ∈ (disk.contentOf loc).getLast?, o = 10) → splitLines content =
            splitLines (baseContent (disk.contentOf loc) events) ++
              (writtenRecords events).map fun r => Utf8.encode r.write)) ∧
        ∀ other other₁ path' now' new loc', openAt other path' now' = .ok (new, other₁) → new.file = some loc' →
          other₁.read path' = .ok [] → ∀ later,
            observed path (after.reset disk₂).1 (after.reset disk₂).2 later = observed path' new other₁ later := by
  have hstands := stands_of_openAt hopen hfile
  refine ⟨?_, fun acts => ⟨fun fault herror => actAll_error herror, ?_⟩⟩
  · intro content hread
    exact (holds_of_openAt hopen hfile hread).1.contentOf
  · intro events after disk₂ hall
    have hafter := hstands.actAll hall
    refine ⟨?_, ?_⟩
    · have hread := hafter.holds.read
      rw [foldl_after] at hread
      refine ⟨_, hread, rfl, fun hlast => ?_⟩
      have hbase : ∀ o ∈ (baseContent (disk.contentOf loc) events).getLast?, o = 10 := by
        unfold baseContent
        split
        · nofun
        · exact hlast
      rw [splitLines_append hbase, splitLines_written fun r hr =>
        newline_not_mem_of_actAll hall r (recorded_of_mem_writtenRecords hr)]
    · intro other other₁ path' now' new loc' hopen' hfile' hempty later
      obtain ⟨emptied, hreset, hemptied⟩ := hafter.reset
      have hnew := stands_of_openAt hopen' hfile'
      have hread := hnew.holds.read
      rw [hempty] at hread
      have hnothing : other.contentOf loc' = [] := (Except.ok.inj hread).symm
      rw [hnothing] at hnew
      obtain rfl := eq_of_openAt_empty hopen' hfile' hempty
      rw [hreset]
      exact Alike.observed ⟨⟨path', some loc', rfl⟩, ⟨[], true⟩, hemptied, hnew⟩ later

namespace EmptiedLog

open TwoRounds

/-- A round that is recorded, one while the log is closed, and one after it was emptied. -/
def acts : List Act := [.append finish, .close, .append finish, .reset, .append finish]

def events : List Event := [.recorded second, .close, .recorded second, .reset, .recorded second]

def after : Log := ⟨place, some [place], [⟨day, .ofWholeSeconds 90, 150, 160⟩], 20, .ofWholeSeconds 90,
  some midday.toWholeSecond⟩

/-- A log that is opened at an empty file. -/
def new : Log := { path := place, file := some [place] }

end EmptiedLog

open TwoRounds EmptiedLog in
theorem actAll_written_emptied :
    openAt (disk (firstLine ++ ['\n'])) place midday = .ok (opened, disk (firstLine ++ ['\n'])) ∧
    opened.file = some [place] ∧
    opened.actAll (disk (firstLine ++ ['\n'])) acts = .ok (events, after, disk secondLine) ∧
    (disk secondLine).read place = .ok (Utf8.encode secondLine) ∧
    openAt (disk []) place midday = .ok (new, disk []) ∧ new.file = some [place] ∧ (disk []).read place = .ok [] ∧
    ∀ later, observed place (after.reset (disk secondLine)).1 (after.reset (disk secondLine)).2 later =
      observed place new (disk []) later := by
  have hopen : openAt (disk (firstLine ++ ['\n'])) place midday = .ok (opened, disk (firstLine ++ ['\n'])) := by
    decide +kernel
  have hall : opened.actAll (disk (firstLine ++ ['\n'])) acts = .ok (events, after, disk secondLine) := by
    decide +kernel
  have hnew : openAt (disk []) place midday = .ok (new, disk []) := by decide +kernel
  have hempty : (disk []).read place = .ok [] := by decide +kernel
  obtain ⟨-, hacts⟩ := actAll_written hopen rfl
  obtain ⟨⟨content, hread, hcontent, -⟩, halike⟩ := (hacts acts).2 _ _ _ hall
  have hwritten : content = Utf8.encode secondLine := by
    rw [hcontent]
    decide +kernel
  rw [hwritten] at hread
  exact ⟨hopen, rfl, hall, hread, hnew, rfl, hempty, halike _ _ _ _ _ _ hnew rfl hempty⟩

end KanaTutor.Log
