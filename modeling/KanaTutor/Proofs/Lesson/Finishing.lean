/-
Rounds that can be finished. In furnished lessons there is something to type in every round, whatever the learner does
and whatever is drawn, and a round whose text is typed is recorded once the learner has waited. Without anything to type
the clock of a round never starts, so that no waiting ends it.
-/
import KanaTutor.Proofs.Disk.Files
import KanaTutor.Proofs.Lesson.Furnished
import KanaTutor.Proofs.Lesson.Overtime
import KanaTutor.Proofs.Lesson.Typed
import KanaTutor.Proofs.Text.Octets

namespace KanaTutor

namespace Player

/-! ## Commands in furnished lessons -/

/-- The player has the place in the lesson, the text and the pool that it had, and the target in a round. -/
structure Alike (p q : Player) : Prop where
  lines : q.lines = p.lines
  position : q.position = p.position
  text : q.text = p.text
  pool : q.pool = p.pool
  mode : q.mode = .text → p.mode = .text
  target : q.mode = .practice → p.mode = .practice ∧ q.target = p.target

variable {p q : Player} {library : Library}

theorem Alike.refl (p : Player) : p.Alike p := ⟨rfl, rfl, rfl, rfl, id, fun hm => ⟨hm, rfl⟩⟩

theorem Supplied.alike (h : p.Supplied) (hq : p.Alike q) : q.Supplied where
  lesson := hq.lines ▸ h.lesson
  pool := hq.pool ▸ h.pool
  draft := by
    rw [place, hq.lines, hq.position, hq.text]
    exact h.draft
  mode hm := h.mode (hq.mode hm)
  plain hm := by
    obtain ⟨hp, htarget⟩ := hq.target hm
    rw [htarget]
    exact h.plain hp

theorem Fresh.supplied (h : p.Fresh) : p.Supplied := by
  refine h.follows.left ?_
  rw [h.mode]
  exact Mode.noConfusion

theorem supplied_openOrStay (hlibrary : library.IsFurnished) (name : Text) (h : p.Supplied) :
    (p.openOrStay library name).player.Supplied := by
  unfold openOrStay
  split
  · rename_i q hq
    exact (fresh_open hlibrary hq).supplied
  · exact h

theorem supplied_up (hlibrary : library.IsFurnished) (h : p.Supplied) : (p.up library).Supplied := by
  unfold up goUp
  split
  · exact h
  · rename_i name trail _
    exact supplied_openOrStay hlibrary name
      (h.alike (q := { p with trail }) ⟨rfl, rfl, rfl, rfl, id, fun hm => ⟨hm, rfl⟩⟩)

theorem alike_showStats (p : Player) : p.Alike p.showStats := by
  unfold showStats
  split
  · exact ⟨rfl, rfl, rfl, rfl, nofun, nofun⟩
  · exact .refl p

theorem alike_quit (p : Player) : p.Alike p.quit := ⟨rfl, rfl, rfl, rfl, nofun, nofun⟩

theorem supplied_select {index : Nat} (hlibrary : library.IsFurnished) (h : p.Supplied)
    (hselect : p.select? library index = some q) : q.Supplied := by
  unfold select? at hselect
  split at hselect
  · cases hselect
  · obtain ⟨target, -, rfl⟩ := Option.map_eq_some_iff.1 hselect
    split
    · exact h.alike (alike_showStats p)
    · split
      · exact supplied_up hlibrary h
      · split
        · exact h.alike (alike_quit p)
        · exact supplied_openOrStay hlibrary target h

theorem supplied_escape (hlibrary : library.IsFurnished) (h : p.Supplied) : (p.escape library).Supplied := by
  unfold escape
  split
  · exact h.alike ⟨rfl, rfl, rfl, rfl, nofun, nofun⟩
  · exact supplied_up hlibrary h

theorem alike_practise (p : Player) (f : Session → Session) : p.Alike (p.practise f) := by
  unfold practise
  split
  · exact ⟨rfl, rfl, rfl, rfl, id, fun hm => ⟨hm, rfl⟩⟩
  · exact .refl p

theorem alike_press (p : Player) (layout : Layout) (key : KeyPress) : p.Alike (p.press layout key) := by
  unfold press
  split
  · exact alike_practise ..
  · exact .refl p

theorem alike_poll (p : Player) (now : Instant) : p.Alike (p.poll now) :=
  ⟨rfl, rfl, rfl, rfl, id, fun hm => ⟨hm, rfl⟩⟩

theorem supplied_afterRound (h : p.Supplied) (typing : Typing) (r : RoundResult) :
    (p.afterRound typing r).Supplied := by
  unfold afterRound
  dsimp only
  cases hnext : nextRound? { p with lastResult := some r } typing with
  | none => exact h.alike ⟨rfl, rfl, rfl, rfl, nofun, nofun⟩
  | some q => exact supplied_nextRound (p := { p with lastResult := some r }) h.lesson h.pool hnext

end Player

/-- All lessons that can be read on the occasion are furnished. -/
def Occasion.IsFurnished (o : Occasion) : Prop := ∀ library, o.Reads library → library.IsFurnished

namespace Occasion

variable {o : Occasion} {p q : Player} {now : Instant} {after : Desk} {hs : List Happening}

theorem supplied_finishRound {desk : Desk} (h : desk.player.Supplied)
    (hfinish : desk.finishRound now o.clock = .ok after) : after.player.Supplied := by
  rw [(Desk.finishRound_frame hfinish).2]
  exact Player.supplied_afterRound h _ _

theorem supplied_ran (ho : o.IsFurnished) (h : p.Supplied) (hran : (o.desk p).Ran now o.clock after hs) :
    after.player.Supplied := by
  have hpoll : (p.poll now).Supplied := h.alike (Player.alike_poll p now)
  cases hran with
  | closed => exact h
  | read hm => exact h.scan hm (ho _ (.inl rfl)) o.typing
  | timedOut => exact hpoll.alike ⟨rfl, rfl, rfl, rfl, id, fun hm => ⟨hm, rfl⟩⟩
  | pending => exact hpoll
  | drew _ _ hfinish => exact supplied_finishRound hpoll hfinish
  | readOn _ _ hfinish hdone =>
    -- the script is read with the disk that the record has been written to
    have hreads := reads_finishRound (o := o) rfl rfl hfinish
    exact (supplied_finishRound hpoll hfinish).scan hdone (ho _ hreads) _

theorem supplied_entered (h : p.Supplied) (hentered : (o.desk p).Entered now o.clock after hs) :
    after.player.Supplied := by
  have hpoll : (p.poll now).Supplied := h.alike (Player.alike_poll p now)
  cases hentered with
  | left => exact h.alike ⟨rfl, rfl, rfl, rfl, nofun, nofun⟩
  | ignored => exact h
  | typed => exact hpoll.alike (Player.alike_practise _ fun s => s.append ['\n'] now)
  | finished _ hfinish => exact supplied_finishRound hpoll hfinish

/-- Whatever the command is, the player stays supplied in furnished lessons. -/
theorem supplied_next (ho : o.IsFurnished) (h : p.Supplied) (hnext : o.next? p = some q) : q.Supplied := by
  obtain ⟨answer, after, hperform, rfl⟩ := perform_of_next hnext
  have hlibrary : (o.desk p).library.IsFurnished := ho _ (.inl rfl)
  have halike : ∀ x, p.Alike x → (o.desk p).withPlayer x = after → after.player.Supplied := by
    rintro x hx rfl
    exact h.alike hx
  have hattempt : ∀ changed : Option Player, (∀ x, changed = some x → x.Supplied) →
      after.player = changed.getD p → after.player.Supplied := by
    intro changed hchanged hafter
    rw [hafter]
    cases changed with
    | none => exact h
    | some x => exact hchanged x rfl
  obtain ⟨command, clock, typing, log, disk⟩ := o
  cases command with
  | run now => exact supplied_ran ho h (Desk.run_of_perform hperform)
  | enter now => exact supplied_entered h (Desk.enter_of_perform hperform)
  | «open» lesson =>
    refine hattempt _ (fun x hx => ?_) (Desk.player_attempt hperform)
    exact (Player.fresh_open hlibrary hx).supplied
  | select index =>
    refine hattempt _ (fun x hx => ?_) (Desk.player_attempt hperform)
    exact Player.supplied_select hlibrary h hx
  | selectKey key =>
    refine hattempt _ (fun x hx => ?_) (Desk.player_attempt hperform)
    obtain ⟨index, -, hselect⟩ := Option.bind_eq_some_iff.1 hx
    exact Player.supplied_select hlibrary h hselect
  | delete offset count =>
    refine hattempt _ (fun x hx => ?_) (Desk.player_attempt hperform)
    obtain ⟨s, -, rfl⟩ := Option.map_eq_some_iff.1 hx
    exact h.alike ⟨rfl, rfl, rfl, rfl, id, fun hm => ⟨hm, rfl⟩⟩
  | up =>
    cases hperform
    exact Player.supplied_up hlibrary h
  | escape =>
    cases hperform
    exact Player.supplied_escape hlibrary h
  | backspace | append | setPreedit =>
    cases hperform
    exact halike _ (Player.alike_practise ..) rfl
  | press key =>
    cases hperform
    exact halike _ (Player.alike_press ..) rfl
  | showStats =>
    cases hperform
    exact halike _ (Player.alike_showStats p) rfl
  | quit =>
    cases hperform
    exact halike _ (Player.alike_quit p) rfl

end Occasion

/-! ## Histories in furnished lessons -/

namespace Player

theorem supplied_new (lessonDir : Path) (finishDelay : Duration) (source : Xoshiro) :
    (Player.new lessonDir finishDelay source).Supplied where
  lesson i hi := absurd hi (Nat.not_lt_zero i)
  pool := isLegible_empty
  draft := .unknown
  mode := Mode.noConfusion
  plain := nofun

theorem Supplied.after {p q : Player} {os : List Occasion} (h : p.Supplied) (hos : ∀ o ∈ os, o.IsFurnished)
    (hafter : p.after? os = some q) : q.Supplied := by
  induction os generalizing p with
  | nil =>
    cases hafter
    exact h
  | cons o os ih =>
    obtain ⟨ho, hos⟩ := List.forall_mem_cons.1 hos
    obtain ⟨next, hnext, hafter⟩ := Option.bind_eq_some_iff.1 hafter
    exact ih (Occasion.supplied_next ho h hnext) hos hafter

end Player

/-- A round with something to type that is typed at once. It is recorded when the learner goes on, or, if the delay has
not passed yet, when the learner goes on after it. -/
theorem recordedOnce_of_append {p : Player} {typed look last : Occasion} {waits : List Occasion}
    {start seen later : Instant} (hl : p.lines ≠ []) (hm : p.mode = .practice) (hsession : p.session = {})
    (hplain : p.target.plain ≠ []) (hwidth : p.zenkaku = true → p.target.plain.zenkaku = p.target.plain)
    (htyped : typed.command = .append p.target.plain start) (hlook : look.command = .run seen)
    (hwaits : ∀ o ∈ waits, o.command.isBlank = true) (hlast : last.command = .run later)
    (htime : (seen.since start).nanos < Session.timeLimit.nanos)
    (hdelay : p.finishDelay.nanos ≤ (later.since seen).nanos) :
    ∃ o ∈ look :: (waits ++ [last]),
      RecordedOnce p (·.recordOf p (seen.since start)) (typed :: look :: (waits ++ [last])) o := by
  have hfresh : p.on {} = p := by rw [← hsession]; rfl
  have hquiet : typed.Quiet (p.on {}) (p.on (Session.append {} p.target.plain start)) :=
    Occasion.quiet_append_of_width htyped hm hwidth
  rw [Session.append_new hplain, hfresh] at hquiet
  have hpoll := Session.poll_running p.target.plain start none seen
  by_cases hzero : p.finishDelay.nanos ≤ (seen.since seen).nanos
  · have honce := recordedOnce_of_look hl hm hlook hpoll htime hzero (blank_append hwaits hlast)
    exact ⟨look, List.mem_cons_self, hquiet.silent.recordedOnce honce⟩
  · -- the first look at the text only stops the clock
    have hseen := Occasion.quiet_run hlook hl hm hpoll (Session.not_timedOut_running htime) (decide_eq_false hzero)
    obtain ⟨o, ho, honce⟩ := recordedOnce_of_waiting hl hm hwaits hlast htime hdelay hplain
    exact ⟨o, List.mem_cons_of_mem look ho, hquiet.silent.recordedOnce (hseen.silent.recordedOnce honce)⟩

/-- In every round of a player that has only come across furnished lessons there is something to type, and a new round
is recorded once if the learner types it and waits, however often the lesson goes on meanwhile. In a round that is typed
full-width this takes a text that is. -/
theorem recorded_of_furnished {lessonDir : Path} {finishDelay : Duration} {source : Xoshiro} {os : List Occasion}
    {p : Player} (hos : ∀ o ∈ os, o.IsFurnished)
    (hafter : (Player.new lessonDir finishDelay source).after? os = some p) (hm : p.mode = .practice) :
    p.target.plain ≠ [] ∧
    ∀ (typed look last : Occasion) (waits : List Occasion) (start seen later : Instant), p.session = {} →
      (p.zenkaku = true → p.target.plain.zenkaku = p.target.plain) →
      typed.command = .append p.target.plain start → look.command = .run seen →
      (∀ o ∈ waits, o.command.isBlank = true) → last.command = .run later →
      (seen.since start).nanos < Session.timeLimit.nanos → p.finishDelay.nanos ≤ (later.since seen).nanos →
      ∃ o ∈ look :: (waits ++ [last]),
        RecordedOnce p (·.recordOf p (seen.since start)) (typed :: look :: (waits ++ [last])) o := by
  have hsupplied := (Player.supplied_new lessonDir finishDelay source).after hos hafter
  obtain ⟨round, hagrees⟩ := agrees_after (agrees_new lessonDir finishDelay source) hafter
  refine ⟨hsupplied.plain hm, ?_⟩
  intro typed look last waits start seen later hsession hwidth htyped hlook hwaits hlast htime hdelay
  exact recordedOnce_of_append (lines_of_agrees hagrees hm) hm hsession (hsupplied.plain hm) hwidth htyped hlook hwaits
    hlast htime hdelay

/-- On a disk whose files are all furnished every lesson is. -/
theorem isFurnished_readText {disk : Disk} (h : ∀ loc octets t, (loc, .file octets) ∈ disk.entries →
    Utf8.decode? octets = some t → Furnished t.linesKeepingBreaks) : Library.IsFurnished disk.readText? := by
  intro path t ht
  unfold Disk.readText? at ht
  split at ht
  · rename_i octets hread
    obtain ⟨loc, hholds⟩ := Disk.holds_of_read hread
    have hentry := hholds.entry
    rw [Disk.entry?, if_neg (by simpa using hholds.ne_nil)] at hentry
    obtain ⟨⟨loc', entry⟩, hfind, hsame⟩ := Option.map_eq_some_iff.1 hentry
    cases hsame
    exact h loc' octets t (List.mem_of_find?_eq_some hfind) ht
  · cases ht

namespace OneLetter

theorem isFurnished_asked (command : Command) : (asked command).IsFurnished := by
  have hdisk : Library.IsFurnished disk.readText? := by
    refine isFurnished_readText fun loc octets t hmem hdecode => ?_
    cases List.mem_singleton.1 hmem
    rw [Utf8.decode?_encode] at hdecode
    cases hdecode
    decide +kernel
  -- no log is kept, and the disk stays as it is
  rintro library (rfl | ⟨r, rfl⟩)
  · exact hdisk
  · exact hdisk

end OneLetter

open OneLetter in
/-- The letter is typed at once, seen after two seconds, and recorded after one more, with a look in between. -/
theorem recorded_of_furnished_letter :
    (∀ o ∈ [.open ['a'], .run .zero].map asked, o.IsFurnished) ∧
    (Player.new [] (.ofMillis 1000) ⟨1, 2, 3, 4⟩).after? ([.open ['a'], .run .zero].map asked) =
      some (practising {}) ∧
    (practising {}).mode = .practice ∧ (practising {}).session = {} ∧ (practising {}).target.plain = ['x'] ∧
    ∃ o ∈ [.run (.ofMillis 2000), .run (.ofMillis 2500), .run (.ofMillis 3000)].map asked,
      RecordedOnce (practising {}) (·.recordOf (practising {}) (.ofMillis 2000))
        ([.append ['x'] .zero, .run (.ofMillis 2000), .run (.ofMillis 2500), .run (.ofMillis 3000)].map asked) o := by
  have hos : ∀ o ∈ [.open ['a'], .run .zero].map asked, o.IsFurnished := by
    intro o ho
    obtain ⟨command, -, rfl⟩ := List.mem_map.1 ho
    exact isFurnished_asked command
  have hafter : (Player.new [] (.ofMillis 1000) ⟨1, 2, 3, 4⟩).after? ([.open ['a'], .run .zero].map asked) =
      some (practising {}) := by
    rw [List.map_cons, show Player.new [] (.ofMillis 1000) ⟨1, 2, 3, 4⟩ = idle from rfl, after_cons next_open,
      List.map_cons, after_cons next_run]
    rfl
  obtain ⟨-, hrecorded⟩ := recorded_of_furnished hos hafter rfl
  refine ⟨hos, hafter, rfl, rfl, rfl, ?_⟩
  exact hrecorded (asked (.append ['x'] .zero)) (asked (.run (.ofMillis 2000))) (asked (.run (.ofMillis 3000)))
    [asked (.run (.ofMillis 2500))] .zero (.ofMillis 2000) (.ofMillis 3000) rfl nofun rfl rfl (by decide) rfl
    (by decide) (by decide)

/-! ## Nothing to type -/

/-- While nothing is typed in a new round, nothing happens, however long the learner waits. -/
theorem silent_of_waiting {p : Player} (hl : p.lines ≠ []) (hm : p.mode = .practice) (hsession : p.session = {})
    {os : List Occasion} (hos : ∀ o ∈ os, o.command.isBlank = true) :
    history p os = [] ∧ ∀ log disk, loggedAfter p log disk os = .ok (log, disk) := by
  have hfresh : p.on {} = p := by rw [← hsession]; rfl
  have hsilent := silent_blank hl hm hos
  rw [hfresh] at hsilent
  constructor
  · rw [← List.append_nil os, hsilent.happens]
    rfl
  · intro log disk
    rw [← List.append_nil os, hsilent.logged]
    rfl

namespace NothingToType

/-- A lesson without a text that is started, and one with an empty line that may be drawn. -/
def bareStart : Text := ":start\n".toList

def blankLine : Text := ":text\n\nb\n:random 1\n".toList

def asked (lesson : Text) (command : Command) : Occasion :=
  { OneLetter.asked command with disk := ⟨[([['a']], .file (Utf8.encode lesson))], []⟩ }

def opened (lesson : Text) : Player := { OneLetter.idle with lines := lesson.linesKeepingBreaks, lesson := ['a'] }

/-- A round has begun in which there is nothing to type. -/
structure Empty (p : Player) : Prop where
  lines : p.lines ≠ []
  mode : p.mode = .practice
  session : p.session = {}
  plain : p.target.plain = []

theorem scan_bareStart (library : Library) :
    ∃ p, (opened bareStart).scan library {} = (true, p) ∧ Empty p := by
  have hstart : ∃ p, (opened bareStart).readNext library {} [] = ([], .started p) ∧ Empty p :=
    ⟨_, rfl, ⟨by decide +kernel, rfl, rfl, Ruby.plain_nil⟩⟩
  obtain ⟨p, hstart, hempty⟩ := hstart
  refine ⟨p, ?_, hempty⟩
  show Player.scanFrom _ _ (16 + 1) (2 + 1) _ _ = _
  rw [Player.scanFrom_started 16 2 (by decide) (by decide) hstart]

theorem scan_blankLine (library : Library) :
    ∃ p, (opened blankLine).scan library {} = (true, p) ∧ Empty p := by
  have hmarker : (opened blankLine).readNext library {} [] =
      ([], .ongoing { opened blankLine with mode := .text, position := 1 }) := rfl
  have hblank : ({ opened blankLine with mode := .text, position := 1 } : Player).readNext library {} [] =
      ("\n".toList, .ongoing { opened blankLine with mode := .text, position := 2 }) := rfl
  have htext : ({ opened blankLine with mode := .text, position := 2 } : Player).readNext library {} "\n".toList =
      ("\nb\n".toList, .ongoing { opened blankLine with mode := .text, position := 3 }) := rfl
  have hrandom : ∃ p, ({ opened blankLine with mode := .text, position := 3 } : Player).readNext library {}
      "\nb\n".toList = ([], .started p) ∧ Empty p :=
    ⟨_, rfl, ⟨by decide +kernel, rfl, rfl, Ruby.plain_nil⟩⟩
  obtain ⟨p, hrandom, hempty⟩ := hrandom
  refine ⟨p, ?_, hempty⟩
  show Player.scanFrom _ _ (16 + 1) (8 + 1) _ _ = _
  rw [Player.scanFrom_ongoing 16 8 (by decide) (by decide) hmarker,
    Player.scanFrom_ongoing 16 7 (by decide) (by decide) hblank,
    Player.scanFrom_ongoing 16 6 (by decide) (by decide) htext,
    Player.scanFrom_started 16 5 (by decide) (by decide) hrandom]

theorem after_run {lesson : Text} {p : Player}
    (hopen : (asked lesson (.open ['a'])).next? OneLetter.idle = some (opened lesson))
    (hl : ¬(opened lesson).lines.isEmpty)
    (hscan : (opened lesson).scan (asked lesson (.run .zero)).disk.readText? {} = (true, p)) :
    OneLetter.idle.after? ([.open ['a'], .run .zero].map (asked lesson)) = some p := by
  have hnext : (asked lesson (.run .zero)).next? (opened lesson) = some p := Occasion.next_scan rfl hl nofun hscan
  rw [List.map_cons, after_cons hopen, List.map_cons, after_cons hnext]
  rfl

/-- The lesson leads to a round in which there is nothing to type, and which does not end while the learner types just
this and waits. -/
def StartsEmpty (lesson : Text) : Prop :=
  ∃ p, OneLetter.idle.after? ([.open ['a'], .run .zero].map (asked lesson)) = some p ∧ p.mode = .practice ∧
    p.session = {} ∧ p.target.plain = [] ∧
    ∀ os, (∀ o ∈ os, o.command.isBlank = true) →
      history p os = [] ∧ ∀ log disk, loggedAfter p log disk os = .ok (log, disk)

theorem Empty.starts {lesson : Text} {p : Player} (h : Empty p)
    (hafter : OneLetter.idle.after? ([.open ['a'], .run .zero].map (asked lesson)) = some p) : StartsEmpty lesson :=
  ⟨p, hafter, h.mode, h.session, h.plain, fun _ hos => silent_of_waiting h.lines h.mode h.session hos⟩

end NothingToType

open NothingToType in
/-- Neither a start without a text nor an empty line that is drawn gives anything to type. -/
theorem startsEmpty_of_unfurnished :
    ¬Furnished bareStart.linesKeepingBreaks ∧ StartsEmpty bareStart ∧
    ¬Furnished blankLine.linesKeepingBreaks ∧ StartsEmpty blankLine := by
  refine ⟨by decide +kernel, ?_, by decide +kernel, ?_⟩
  · obtain ⟨p, hscan, hempty⟩ := scan_bareStart (asked bareStart (.run .zero)).disk.readText?
    exact hempty.starts (after_run (by decide +kernel) (by decide) hscan)
  · obtain ⟨p, hscan, hempty⟩ := scan_blankLine (asked blankLine (.run .zero)).disk.readText?
    exact hempty.starts (after_run (by decide +kernel) (by decide) hscan)

end KanaTutor
