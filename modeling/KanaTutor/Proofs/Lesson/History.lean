/-
The history of the lessons of a new player. Every record is that of a round that was started before and
that nothing else has ended since; so there is at most one for each round that was started.
-/
import KanaTutor.Proofs.Lesson.Rounds
import Mathlib.Data.List.Induction

namespace KanaTutor

/-! ## Occasions and moments -/

/-- A command with what it finds around the player: the time, the way texts are typed, the log and the
disk. -/
structure Occasion where
  command : Command
  clock : Timestamp
  typing : Typing
  log : Log
  disk : Disk

namespace Occasion

/-- The desk of the player on the occasion. -/
def desk (o : Occasion) (p : Player) : Desk := ⟨p, o.typing, o.log, o.disk⟩

/-- What the command of the occasion makes happen. -/
def happenings (o : Occasion) (p : Player) : List Happening := (o.desk p).happenings o.clock o.command

/-- What the command does to the log and the disk of the occasion. -/
def logged (o : Occasion) (p : Player) : Except Fault (Log × Disk) :=
  Desk.logged ((o.desk p).perform o.clock o.command)

/-- The player after the occasion, unless there is a fault. -/
def next? (o : Occasion) (p : Player) : Option Player :=
  match (o.desk p).perform o.clock o.command with
  | .ok (_, after) => some after.player
  | .error _ => none

/-- The occasion with another log and another disk. -/
def finding (o : Occasion) (log : Log) (disk : Disk) : Occasion := { o with log, disk }

end Occasion

/-- Something that happens, on an occasion, to a player. -/
structure Moment where
  occasion : Occasion
  player : Player
  what : Happening

/-- What happens to a player on an occasion. -/
def Occasion.moments (o : Occasion) (p : Player) : List Moment := (o.happenings p).map (⟨o, p, ·⟩)

/-- All that happens to a player on a sequence of occasions. A fault ends it. -/
def history (p : Player) : List Occasion → List Moment
  | [] => []
  | o :: os =>
    o.moments p ++
      match o.next? p with
      | some q => history q os
      | none => []

/-- The player after a sequence of occasions, unless there is a fault. -/
def Player.after? (p : Player) : List Occasion → Option Player
  | [] => some p
  | o :: os => (o.next? p).bind (·.after? os)

theorem after_cons {p q : Player} {o : Occasion} (h : o.next? p = some q) (os : List Occasion) :
    p.after? (o :: os) = q.after? os := by
  rw [Player.after?, h, Option.bind_some]

/-- The log and the disk after a sequence of occasions, each of which finds them as the one before has left
them. A fault ends it. -/
def loggedAfter (p : Player) (log : Log) (disk : Disk) : List Occasion → Except Fault (Log × Disk)
  | [] => .ok (log, disk)
  | o :: os => do
    let (_, after) ← ((o.finding log disk).desk p).perform o.clock o.command
    loggedAfter after.player after.log after.disk os

/-- A player that has not done anything yet. -/
def Player.new (lessonDir : Path) (finishDelay : Duration) (source : Xoshiro) : Player :=
  { lessonDir, finishDelay, source }

/-- A round has just been started, on the last of the occasions since the player was new. -/
def Player.JustStarted (p : Player) : Prop :=
  ∃ (lessonDir : Path) (finishDelay : Duration) (source : Xoshiro) (os : List Occasion) (o : Occasion)
    (q : Player) (t : Text) (typing : Typing), (Player.new lessonDir finishDelay source).after? os = some q ∧
    .started t typing ∈ o.happenings q ∧ o.next? q = some p

/-! ## Rounds in a history -/

namespace Happening

/-- The session is reset, and its keystrokes are counted from zero. -/
def resets : Happening → Bool
  | started _ _ | emptied | timedOut => true
  | _ => false

def isKeystroke : Happening → Bool
  | keystroke => true
  | _ => false

/-- The round goes on. -/
def goesOn : Happening → Bool
  | keystroke | emptied | timedOut => true
  | _ => false

end Happening

/-- The keystrokes since the session was last reset. -/
def keystrokes (hs : List Happening) : Nat :=
  (hs.reverse.takeWhile fun h => !h.resets).countP Happening.isKeystroke

theorem keystrokes_keystroke (hs : List Happening) : keystrokes (hs ++ [.keystroke]) = keystrokes hs + 1 := by
  rw [keystrokes, List.reverse_append]
  exact List.countP_cons_of_pos rfl

theorem keystrokes_reset (hs : List Happening) {h : Happening} (hr : h.resets = true) :
    keystrokes (hs ++ [h]) = 0 := by
  rw [keystrokes, List.reverse_append]
  simp [hr]

/-- What the round that is on tells about what happened last. -/
theorem cases_of_next {before : Option Round} {what : Happening} {round : Round}
    (h : Round.next? before what = some round) :
    (what = .started round.text round.typing ∧ round.touches = 0) ∨
      ∃ r, before = some r ∧ what.goesOn = true ∧ round.text = r.text ∧ round.typing = r.typing ∧
        round.touches = if what.isKeystroke then r.touches + 1 else 0 := by
  cases what with
  | started t typing =>
    cases h
    exact .inl ⟨rfl, rfl⟩
  | keystroke | emptied | timedOut =>
    cases before with
    | none => cases h
    | some r =>
      cases h
      exact .inr ⟨r, rfl, rfl, rfl, rfl, rfl⟩
  | abandoned | recorded => cases before <;> cases h

/-- A round that is on was started, and has been going on since. -/
theorem started_of_after {hs : List Happening} {round : Round} (h : Round.after none hs = some round) :
    ∃ earlier since, hs = earlier ++ .started round.text round.typing :: since ∧
      (∀ h ∈ since, h.goesOn = true) ∧ round.touches = keystrokes hs := by
  -- what happened last tells whether the round was started then or was on before
  induction hs using List.reverseRecOn generalizing round with
  | nil => cases h
  | append_singleton hs what ih =>
    rw [Round.after_append] at h
    rcases cases_of_next h with ⟨rfl, hzero⟩ | ⟨r, hr, hon, htext, htyping, htouches⟩
    · exact ⟨hs, [], rfl, fun _ hnil => (List.not_mem_nil hnil).elim, by rw [hzero, keystrokes_reset hs rfl]⟩
    · obtain ⟨earlier, since, hhs, hsince, hcount⟩ := ih hr
      refine ⟨earlier, since ++ [what], ?_, ?_, ?_⟩
      · rw [hhs, htext, htyping, List.append_assoc, List.cons_append]
      · intro h hmem
        rcases List.mem_append.1 hmem with hmem | hmem
        · exact hsince h hmem
        · rw [List.mem_singleton.1 hmem]
          exact hon
      · rw [htouches, hcount]
        cases what with
        | keystroke => exact (keystrokes_keystroke hs).symm
        | emptied | timedOut => exact (keystrokes_reset hs rfl).symm
        | started | abandoned | recorded => cases hon

/-! ## Records in a history -/

theorem what_moments (o : Occasion) (p : Player) : (o.moments p).map (·.what) = o.happenings p := by
  rw [Occasion.moments, List.map_map]
  exact List.map_id _

theorem history_cons {o : Occasion} {p q : Player} (h : o.next? p = some q) (os : List Occasion) :
    history p (o :: os) = o.moments p ++ history q os := by
  rw [history, h]

theorem history_cases (p : Player) (o : Occasion) (os : List Occasion) :
    (∃ q, o.next? p = some q ∧ history p (o :: os) = o.moments p ++ history q os) ∨
      (o.next? p = none ∧ history p (o :: os) = o.moments p) := by
  rw [history]
  cases o.next? p with
  | none => exact .inr ⟨rfl, List.append_nil _⟩
  | some q => exact .inl ⟨q, rfl, rfl⟩

theorem mem_happenings_of_history {p : Player} {os : List Occasion} {m : Moment} (h : m ∈ history p os) :
    m.what ∈ m.occasion.happenings m.player := by
  induction os generalizing p with
  | nil => cases h
  | cons o os ih =>
    rcases List.mem_append.1 h with hfirst | hlater
    · obtain ⟨what, hwhat, rfl⟩ := List.mem_map.1 hfirst
      exact hwhat
    · split at hlater
      · exact ih hlater
      · cases hlater

/-- The log and the disk after an occasion are those after all, if later occasions leave them alone. -/
theorem loggedAfter_cons {p : Player} {log : Log} {disk : Disk} {o : Occasion} {os : List Occasion}
    (h : ∀ q, (o.finding log disk).next? p = some q → ∀ log disk, loggedAfter q log disk os = .ok (log, disk)) :
    loggedAfter p log disk (o :: os) = (o.finding log disk).logged p := by
  unfold Occasion.next? Occasion.finding at h
  unfold Occasion.logged Occasion.finding
  rw [loggedAfter, Occasion.finding]
  cases hperform : (({ o with log, disk } : Occasion).desk p).perform o.clock o.command with
  | error f => rfl
  | ok r =>
    rw [hperform] at h
    exact h _ rfl r.2.log r.2.disk

/-- An occasion on which nothing is recorded does not fail, and leaves the log and the disk alone. -/
theorem loggedAfter_of_none {p : Player} {log : Log} {disk : Disk} {o : Occasion}
    (h : recordsIn ((o.finding log disk).happenings p) = []) :
    ∃ q, (o.finding log disk).next? p = some q ∧
      ∀ os, loggedAfter p log disk (o :: os) = loggedAfter q log disk os := by
  obtain ⟨answer, after, hperform, hlog, hdisk⟩ := Desk.perform_of_none h
  refine ⟨after.player, ?_, fun os => ?_⟩
  · rw [Occasion.next?, hperform]
  · replace hperform : ((o.finding log disk).desk p).perform o.clock o.command = .ok (answer, after) := hperform
    rw [loggedAfter, hperform]
    show loggedAfter after.player after.log after.disk os = _
    rw [hlog, hdisk]
    rfl

theorem Occasion.next_run {p : Player} {o : Occasion} {now : Instant} {after : Desk} {started : Bool}
    (hc : o.command = .run now) (hrun : (o.desk p).run now o.clock = .ok (started, after)) :
    o.next? p = some after.player := by
  unfold next?
  rw [hc, Desk.perform, hrun]
  rfl

/-- A player that does not practise reads the script of its lesson. -/
theorem Occasion.next_scan {p q : Player} {o : Occasion} {now : Instant} {started : Bool} (hc : o.command = .run now)
    (hl : ¬p.lines.isEmpty) (hm : p.mode ≠ .practice) (hscan : p.scan o.disk.readText? o.typing = (started, q)) :
    o.next? p = some q :=
  next_run hc ((o.desk p).run_scan now o.clock hl hm hscan)

theorem agrees_next {p q : Player} {o : Occasion} {round : Option Round} (h : p.Agrees round)
    (hq : o.next? p = some q) : q.Agrees (Round.after round (o.happenings p)) := by
  unfold Occasion.next? at hq
  split at hq
  · rename_i answer after hperform
    cases hq
    exact Desk.agrees_perform hperform h
  · cases hq

theorem agrees_after {p q : Player} {os : List Occasion} {round : Option Round} (h : p.Agrees round)
    (hq : p.after? os = some q) : ∃ round, q.Agrees round := by
  induction os generalizing p round with
  | nil => cases hq; exact ⟨round, h⟩
  | cons o os ih =>
    obtain ⟨p', hnext, hafter⟩ := Option.bind_eq_some_iff.1 hq
    exact ih (agrees_next h hnext) hafter

theorem agrees_new (lessonDir : Path) (finishDelay : Duration) (source : Xoshiro) :
    (Player.new lessonDir finishDelay source).Agrees none :=
  Mode.noConfusion

theorem Player.JustStarted.begun {p : Player} (h : p.JustStarted) : ∃ typing, p.Begun typing := by
  obtain ⟨lessonDir, finishDelay, source, os, o, q, t, typing, hafter, hstarted, hnext⟩ := h
  obtain ⟨round, hagrees⟩ := agrees_after (agrees_new lessonDir finishDelay source) hafter
  unfold Occasion.next? at hnext
  split at hnext
  · rename_i answer after hperform
    cases hnext
    exact ⟨typing, Desk.begun_perform hperform hstarted hagrees⟩
  · cases hnext

/-- Whatever is recorded is recorded first on its occasion, and the player agrees with all that has
happened before. -/
theorem agrees_of_history {p q : Player} {os : List Occasion} {o : Occasion} {round : Option Round}
    {before after : List Moment} {r : Record} (h : p.Agrees round)
    (hhistory : history p os = before ++ ⟨o, q, .recorded r⟩ :: after) :
    q.Agrees (Round.after round (before.map (·.what))) := by
  induction os generalizing p round before with
  | nil => exact nomatch List.append_eq_nil_iff.1 hhistory.symm
  | cons o' os ih =>
    -- what happens after the first occasion, by induction
    have hlater : ∀ rest,
        (match o'.next? p with
          | some q => history q os
          | none => []) = rest ++ ⟨o, q, .recorded r⟩ :: after →
        q.Agrees (Round.after round (o'.happenings p ++ rest.map (·.what))) := by
      intro rest hrest
      cases hnext : o'.next? p with
      | none =>
        rw [hnext] at hrest
        exact nomatch List.append_eq_nil_iff.1 hrest.symm
      | some p' =>
        rw [hnext] at hrest
        rw [Round.after_append]
        exact ih (agrees_next h hnext) hrest
    rcases List.append_eq_append_iff.1 hhistory with ⟨rest, rfl, hrest⟩ | ⟨first, hfirst, hrest⟩
    · rw [List.map_append, what_moments]
      exact hlater rest hrest
    · cases first with
      | nil =>
        rw [List.append_nil] at hfirst
        have hq := hlater [] hrest.symm
        rwa [← what_moments, hfirst, List.map_nil, List.append_nil] at hq
      | cons m first =>
        -- the record is one of the first occasion, and nothing happens before it there
        obtain ⟨rfl, -⟩ := List.cons.inj hrest
        have hmem : (⟨o, q, .recorded r⟩ : Moment) ∈ o'.moments p := by rw [hfirst]; simp
        obtain ⟨what, -, hwhat⟩ := List.mem_map.1 hmem
        cases hwhat
        have hsplit := congrArg (List.map (·.what)) hfirst
        rw [what_moments, List.map_append, List.map_cons] at hsplit
        obtain ⟨hbefore, -⟩ := Desk.recorded_of_happenings hsplit
        rw [hbefore]
        exact h

/-- A record is earned on an occasion by a player, after all that has happened before: the round was
started and has been going on since, and its text is typed; the record has the player's lesson, the
keystrokes that the text needs as it was to be typed when the round was started, and the keystrokes made. -/
structure Earned (before : List Moment) (o : Occasion) (p : Player) (r : Record) : Prop where
  command : ∃ now, o.command = .run now ∨ o.command = .enter now
  logged : o.logged p = o.log.recordAll o.disk [r]
  mode : p.mode = .practice
  typed : p.session.typed = p.target.plain
  pending : p.session.preedit.text = []
  lesson : r.lesson = Record.sanitize p.lesson
  touches : r.touches = keystrokes (before.map (·.what))
  round : ∃ earlier start since t typing, before = earlier ++ start :: since ∧
    start.what = .started t typing ∧ start.occasion.typing = typing ∧ (∀ m ∈ since, m.what.goesOn = true) ∧
    p.target = .ofText typing t ∧ r.correct = typing.keyCount (Ruby.reading t)

theorem earned_of_agrees {before : List Moment} {o : Occasion} {p : Player} {r : Record} {pre post : List Happening}
    (hagrees : p.Agrees (Round.after none (before.map (·.what))))
    (htyping : ∀ m ∈ before, m.what ∈ m.occasion.happenings m.player)
    (hhappens : o.happenings p = pre ++ .recorded r :: post) : Earned before o p r := by
  obtain ⟨-, hrecords, now, hcommand, hmode, ⟨grace, hfinished⟩, hr⟩ := Desk.recorded_of_happenings hhappens
  obtain ⟨round, hround, hplays⟩ := Player.plays_of_agrees hagrees hmode
  obtain ⟨htyped, hpending⟩ := Session.match_of_isFinished hplays.timed hfinished
  obtain ⟨earlier, since, hbefore, hsince, htouches⟩ := started_of_after hround
  obtain ⟨first, others, rfl, -, hothers⟩ := List.map_eq_append_iff.1 hbefore
  obtain ⟨start, last, rfl, hstart, rfl⟩ := List.map_eq_cons_iff.1 hothers
  -- the start is told with the typing of its own occasion
  have hused : round.typing = start.occasion.typing := by
    have hmem := htyping start (by simp)
    rw [hstart] at hmem
    exact Desk.typedBy_happenings _ _ _ _ _ hmem
  have htarget : (p.poll now).target = .ofText round.typing round.text := hplays.target
  exact {
    command := ⟨now, hcommand⟩
    logged := by rw [← hrecords]; exact Desk.logged_perform ..
    mode := hmode
    typed := htyped
    pending := hpending
    lesson := by rw [hr]; rfl
    touches := by
      rw [hr, ← htouches, ← (hplays.poll now).touches]; rfl
    round := by
      refine ⟨first, start, last, round.text, round.typing, rfl, hstart, hused.symm, ?_, hplays.target, ?_⟩
      · intro m hm
        exact hsince _ (List.mem_map_of_mem hm)
      · rw [hr]
        show (p.poll now).target.keyCount = _
        rw [htarget]
        rfl }

/-- The records of new players. A command changes the log and the disk by the records among what it makes
happen, and it fails only if one of them cannot be counted. Every record in the history of a new player is
that of a round that was started before and has been going on since, whatever the commands are, and so no
round is recorded twice. -/
theorem earned_of_new :
    (∀ (desk : Desk) (clock : Timestamp) (command : Command),
      Desk.logged (desk.perform clock command) =
        desk.log.recordAll desk.disk (recordsIn (desk.happenings clock command))) ∧
    ∀ (lessonDir : Path) (finishDelay : Duration) (source : Xoshiro) (os : List Occasion)
      (before after : List Moment) (o : Occasion) (p : Player) (r : Record),
      history (.new lessonDir finishDelay source) os = before ++ ⟨o, p, .recorded r⟩ :: after →
      Earned before o p r := by
  refine ⟨Desk.logged_perform, ?_⟩
  intro lessonDir finishDelay source os before after o p r hhistory
  have hnew := agrees_new lessonDir finishDelay source
  have hmem : ∀ m ∈ before ++ ⟨o, p, .recorded r⟩ :: after, m.what ∈ m.occasion.happenings m.player := by
    intro m hm
    rw [← hhistory] at hm
    exact mem_happenings_of_history hm
  obtain ⟨pre, post, hhappens⟩ := List.append_of_mem (hmem ⟨o, p, .recorded r⟩ (by simp))
  exact earned_of_agrees (agrees_of_history hnew hhistory) (fun m hm => hmem m (List.mem_append_left _ hm)) hhappens

/-! ## A round that is timed out -/

namespace OneLetter

/-- A disk with one lesson, which has the learner type one letter again and again. -/
def disk : Disk := ⟨[([['a']], .file (Utf8.encode ":text\nx\n:start\n".toList))], []⟩

def clock : Timestamp := ⟨⟨2024, 1, 1, by decide⟩, 3600, 500000000, by decide, by decide⟩

/-- A command at the desk with that disk. -/
def asked (command : Command) : Occasion := ⟨command, clock, {}, { path := [] }, disk⟩

def idle : Player := .new [] (.ofMillis 1000) ⟨1, 2, 3, 4⟩

def opened : Player :=
  { idle with mode := .run, lines := [":text\n".toList, "x\n".toList, ":start\n".toList], lesson := ['a'] }

/-- The player in the round, with a session. -/
def practising (session : Session) : Player :=
  { opened with mode := .practice, position := 3, text := ['x'], target := ⟨['x'], ['x'], 1⟩, session }

theorem scan_opened : opened.scan disk.readText? {} = (true, practising {}) := by
  have hmarker : opened.readNext disk.readText? {} [] =
      ([], .ongoing { opened with mode := .text, position := 1 }) := rfl
  have htext : ({ opened with mode := .text, position := 1 } : Player).readNext disk.readText? {} [] =
      ("x\n".toList, .ongoing { opened with mode := .text, position := 2 }) := rfl
  have hstart : ({ opened with mode := .text, position := 2 } : Player).readNext disk.readText? {} "x\n".toList =
      ([], .started (practising {})) := by
    show (_, Player.Outcome.started (Player.startRound _ {} ['x'])) = _
    rw [show Player.startRound _ {} ['x'] = practising {} by decide +kernel]
  show Player.scanFrom _ _ (16 + 1) (6 + 1) _ _ = _
  rw [Player.scanFrom_ongoing 16 6 (by decide) (by decide) hmarker,
    Player.scanFrom_ongoing 16 5 (by decide) (by decide) htext,
    Player.scanFrom_started 16 4 (by decide) (by decide) hstart]

theorem next_open : (asked (.open ['a'])).next? idle = some opened := by decide +kernel

theorem moments_open : (asked (.open ['a'])).moments idle = [] := rfl

theorem next_run : (asked (.run .zero)).next? opened = some (practising {}) :=
  Occasion.next_scan rfl (by decide) (by decide) scan_opened

theorem moments_run : (asked (.run .zero)).moments opened = [⟨asked (.run .zero), opened, .started ['x'] {}⟩] := by
  unfold Occasion.moments
  rw [show (asked (.run .zero)).happenings opened = ((asked (.run .zero)).desk opened).scanHappenings from rfl,
    Desk.scanHappenings, Desk.scan_eq _ scan_opened]
  rfl

/-- The session after something is typed. -/
def typed (t : Text) (start : Instant) (finishedAt : Option Instant) : Session := ⟨t, {}, some start, finishedAt, 0⟩

/-- The occasions of a lesson in which the learner types something else, does not go on in time, types the
letter then, and goes on until the round is finished. -/
def late : List Occasion :=
  [.open ['a'], .run .zero, .append ['y'] .zero, .run (.ofMillis 3540000), .append ['x'] (.ofMillis 3540000),
    .run (.ofMillis 3540000), .run (.ofMillis 3541000)].map asked

/-- The round that is timed out is recorded later, although no other round is started. -/
theorem history_late : ∃ rest, history idle late =
    [⟨asked (.run .zero), opened, .started ['x'] {}⟩,
      ⟨asked (.run (.ofMillis 3540000)), practising (typed ['y'] .zero none), .timedOut⟩] ++
    ⟨asked (.run (.ofMillis 3541000)), practising (typed ['x'] (.ofMillis 3540000) (some (.ofMillis 3540000))),
      .recorded ⟨clock.toWholeSecond, ['a'], .zero, 1, 0⟩⟩ :: rest := by
  have hy : (asked (.append ['y'] .zero)).next? (practising {}) = some (practising (typed ['y'] .zero none)) := by
    decide +kernel
  have hlimit : (asked (.run (.ofMillis 3540000))).next? (practising (typed ['y'] .zero none)) =
      some (practising {}) := by
    decide +kernel
  have hx : (asked (.append ['x'] (.ofMillis 3540000))).next? (practising {}) =
      some (practising (typed ['x'] (.ofMillis 3540000) none)) := by
    decide +kernel
  have hmatch : (asked (.run (.ofMillis 3540000))).next? (practising (typed ['x'] (.ofMillis 3540000) none)) =
      some (practising (typed ['x'] (.ofMillis 3540000) (some (.ofMillis 3540000)))) := by
    decide +kernel
  have hlast : ∃ rest, history (practising (typed ['x'] (.ofMillis 3540000) (some (.ofMillis 3540000))))
      [asked (.run (.ofMillis 3541000))] =
      ⟨asked (.run (.ofMillis 3541000)), practising (typed ['x'] (.ofMillis 3540000) (some (.ofMillis 3540000))),
        .recorded ⟨clock.toWholeSecond, ['a'], .zero, 1, 0⟩⟩ :: rest := ⟨_, rfl⟩
  obtain ⟨rest, hlast⟩ := hlast
  refine ⟨rest, ?_⟩
  rw [late, List.map_cons, history_cons next_open, List.map_cons, history_cons next_run, List.map_cons,
    history_cons hy, List.map_cons, history_cons hlimit, List.map_cons, history_cons hx, List.map_cons,
    history_cons hmatch, List.map_cons, List.map_nil, hlast, moments_open, moments_run]
  rfl

end OneLetter

/-- A record that is earned. -/
theorem earned_late : ∃ before after o p r,
    history OneLetter.idle OneLetter.late = before ++ ⟨o, p, .recorded r⟩ :: after ∧
      Earned before o p r := by
  obtain ⟨rest, hlate⟩ := OneLetter.history_late
  exact ⟨_, _, _, _, _, hlate, earned_of_new.2 _ _ _ _ _ _ _ _ _ hlate⟩

/-- A round whose time was up is recorded, although no other round is started. -/
theorem recorded_after_timedOut : ∃ after,
    (history OneLetter.idle OneLetter.late).map (·.what) =
      .started ['x'] {} :: .timedOut :: .recorded ⟨OneLetter.clock.toWholeSecond, ['a'], .zero, 1, 0⟩ :: after := by
  obtain ⟨rest, hlate⟩ := OneLetter.history_late
  refine ⟨rest.map (·.what), ?_⟩
  rw [hlate]
  rfl

end KanaTutor
