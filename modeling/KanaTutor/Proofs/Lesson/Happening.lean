/-
What a command makes happen to the rounds of practice: rounds are started, left, timed out or recorded,
keystrokes are counted, and a text that is taken back as a whole makes the attempt start anew. A command
changes the log and the disk by the records among this and by nothing else.
-/
import KanaTutor.Proofs.Lesson.Script
import KanaTutor.Proofs.Practice.Session

namespace KanaTutor

/-- What can happen to a round. -/
inductive Happening where
  /-- A round of a text is started, to be typed in the given way. -/
  | started (t : Text) (typing : Typing)
  /-- The learner leaves the round. -/
  | abandoned
  | keystroke
  /-- All that was typed is taken back, which resets the session. -/
  | emptied
  /-- The time is up, which resets the session. -/
  | timedOut
  | recorded (r : Record)

/-- The record of a round that is recorded. -/
def Happening.record? : Happening → Option Record
  | recorded r => some r
  | _ => none

/-- The records among what happened. -/
def recordsIn (hs : List Happening) : List Record := hs.filterMap Happening.record?

@[simp] theorem recordsIn_append (hs hs' : List Happening) :
    recordsIn (hs ++ hs') = recordsIn hs ++ recordsIn hs' :=
  List.filterMap_append

/-- A log and a disk after records are written and counted. -/
def Log.recordAll (log : Log) (disk : Disk) : List Record → Except Fault (Log × Disk)
  | [] => .ok (log, disk)
  | r :: records => do
    let after ← log.count r
    recordAll after (log.writeRecord disk r) records

namespace Player

/-- What a change of the player from one state to another makes happen if it can leave a round. -/
def leaving (before after : Player) : List Happening :=
  if before.mode = .practice ∧ after.mode ≠ .practice then [.abandoned] else []

/-- What a change of the player from one state to another makes happen if it can take back text. -/
def emptying (before after : Player) : List Happening :=
  if before.mode = .practice ∧ before.session.empties after.session then [.emptied] else []

@[simp] theorem recordsIn_leaving (p q : Player) : recordsIn (p.leaving q) = [] := by
  unfold leaving
  split <;> rfl

@[simp] theorem recordsIn_emptying (p q : Player) : recordsIn (p.emptying q) = [] := by
  unfold emptying
  split <;> rfl

end Player

namespace Desk

/-! ## Happenings -/

/-- What reading the script makes happen. -/
def scanHappenings (desk : Desk) : List Happening :=
  if desk.scan.1 then [.started desk.scan.2.player.text desk.typing] else []

/-- The record of the round, for a player that has just looked at the clock. -/
def recordNow (desk : Desk) (now : Instant) (clock : Timestamp) : Record :=
  .ofRound (desk.log.stamp clock) desk.player.lesson (desk.player.roundResult now)

/-- What drawing the next round makes happen. -/
def drawHappenings (desk : Desk) : List Happening :=
  match desk.player.nextRound? desk.typing with
  | some p => [.started p.text desk.typing]
  | none => []

/-- What finishing the round makes happen, for a player that has just looked at the clock. A fault in
counting the record ends it all. -/
def finishHappenings (desk : Desk) (now : Instant) (clock : Timestamp) : List Happening :=
  .recorded (desk.recordNow now clock) ::
    match desk.finishRound now clock with
    | .error _ => []
    | .ok _ => desk.drawHappenings

/-- What going on with the lesson makes happen. -/
def runHappenings (desk : Desk) (now : Instant) (clock : Timestamp) : List Happening :=
  if desk.player.lines.isEmpty then []
  else if desk.player.mode ≠ .practice then desk.scanHappenings
  else
    let p := desk.player.poll now
    if p.session.isTimedOut now then [.timedOut]
    else if !p.session.isFinished p.finishDelay now then []
    else
      (desk.withPlayer p).finishHappenings now clock ++
        match (desk.withPlayer p).finishRound now clock with
        | .error _ => []
        | .ok after => if after.player.mode = .practice then [] else after.scanHappenings

/-- What confirming makes happen. -/
def enterHappenings (desk : Desk) (now : Instant) (clock : Timestamp) : List Happening :=
  if desk.player.mode ≠ .practice then []
  else
    let p := desk.player.poll now
    if p.session.isFinished .zero now then (desk.withPlayer p).finishHappenings now clock else []

/-- What a command makes happen. -/
def happenings (desk : Desk) (clock : Timestamp) : Command → List Happening
  | .run now => desk.runHappenings now clock
  | .enter now => desk.enterHappenings now clock
  | .press key =>
    if desk.player.mode = .practice ∧ desk.typing.layout.isKeystroke key then [.keystroke] else []
  | .backspace => desk.player.emptying desk.player.backspace
  | .setPreedit preedit now => desk.player.emptying (desk.player.setPreedit preedit now)
  | .open lesson => desk.player.leaving ((desk.player.open? desk.library lesson).getD desk.player)
  | .up => desk.player.leaving (desk.player.up desk.library)
  | .escape => desk.player.leaving (desk.player.escape desk.library)
  | .quit => desk.player.leaving desk.player.quit
  | .select _ | .selectKey _ | .append _ _ | .delete _ _ | .showStats => []

/-! ## The log -/

/-- The log and the disk after a command, or its fault. -/
def logged {α : Type} (after : Except Fault (α × Desk)) : Except Fault (Log × Disk) := do
  let (_, desk) ← after
  .ok (desk.log, desk.disk)

theorem finishRound_eq (desk : Desk) (now : Instant) (clock : Timestamp) :
    desk.finishRound now clock = desk.log.count (desk.recordNow now clock) >>= fun log =>
      .ok {
        player := desk.player.afterRound desk.typing (desk.player.roundResult now)
        typing := desk.typing
        log
        disk := desk.log.writeRecord desk.disk (desk.recordNow now clock) } := by
  unfold finishRound Log.append
  show ((desk.log.count (desk.recordNow now clock) >>= _) >>= _) = _
  cases desk.log.count (desk.recordNow now clock) <;> rfl

theorem finishRound_frame {desk after : Desk} {now : Instant} {clock : Timestamp}
    (h : desk.finishRound now clock = .ok after) :
    after.typing = desk.typing ∧ after.player = desk.player.afterRound desk.typing (desk.player.roundResult now) := by
  rw [finishRound_eq] at h
  cases hcount : desk.log.count (desk.recordNow now clock) with
  | error f => rw [hcount] at h; cases h
  | ok log => rw [hcount] at h; cases h; exact ⟨rfl, rfl⟩

@[simp] theorem recordsIn_scanHappenings (desk : Desk) : recordsIn desk.scanHappenings = [] := by
  unfold scanHappenings
  split <;> rfl

@[simp] theorem recordsIn_drawHappenings (desk : Desk) : recordsIn desk.drawHappenings = [] := by
  unfold drawHappenings
  split <;> rfl

@[simp] theorem recordsIn_finishHappenings (desk : Desk) (now : Instant) (clock : Timestamp) :
    recordsIn (desk.finishHappenings now clock) = [desk.recordNow now clock] := by
  unfold finishHappenings
  show _ :: recordsIn _ = _
  split
  · rfl
  · rw [recordsIn_drawHappenings]

theorem recordAll_recordNow (desk : Desk) (now : Instant) (clock : Timestamp) :
    desk.log.recordAll desk.disk [desk.recordNow now clock] = logged ((((), ·)) <$> desk.finishRound now clock) := by
  rw [finishRound_eq]
  show desk.log.count (desk.recordNow now clock) >>= _ = _
  cases desk.log.count (desk.recordNow now clock) <;> rfl

theorem logged_run (desk : Desk) (now : Instant) (clock : Timestamp) :
    logged (desk.run now clock) = desk.log.recordAll desk.disk (recordsIn (desk.runHappenings now clock)) := by
  unfold run runHappenings
  split
  · rfl
  · split
    · rw [recordsIn_scanHappenings]; rfl
    · dsimp only
      split
      · rfl
      · split
        · rfl
        · -- the script that is read on changes neither the log nor the disk
          have hrecord := recordAll_recordNow (desk.withPlayer (desk.player.poll now)) now clock
          rw [recordsIn_append, recordsIn_finishHappenings]
          cases hfinish : (desk.withPlayer (desk.player.poll now)).finishRound now clock with
          | error f =>
            rw [hfinish] at hrecord
            exact hrecord.symm
          | ok after =>
            rw [hfinish] at hrecord
            show logged (.ok (if after.player.mode = .practice then (false, after) else after.scan)) = _
            dsimp only
            split
            · exact hrecord.symm
            · rw [recordsIn_scanHappenings]
              exact hrecord.symm

theorem logged_enter (desk : Desk) (now : Instant) (clock : Timestamp) :
    logged ((((), ·)) <$> desk.enter now clock) =
      desk.log.recordAll desk.disk (recordsIn (desk.enterHappenings now clock)) := by
  unfold enter enterHappenings
  split
  · rename_i hm
    rw [if_pos (by rw [hm]; exact Mode.noConfusion)]; rfl
  · rename_i hm
    rw [if_pos (by rw [hm]; exact Mode.noConfusion)]; rfl
  · rename_i hm
    rw [if_neg (show ¬desk.player.mode ≠ .practice from not_not_intro hm)]
    dsimp only
    split
    · rw [recordsIn_finishHappenings]
      exact (recordAll_recordNow (desk.withPlayer (desk.player.poll now)) now clock).symm
    · rfl
  · rename_i hm
    rw [if_pos hm]; rfl

/-- A command writes and counts the records that it makes happen, and changes nothing else in the log and
on the disk. It fails only if one of these records cannot be counted. -/
theorem logged_perform (desk : Desk) (clock : Timestamp) (command : Command) :
    logged (desk.perform clock command) =
      desk.log.recordAll desk.disk (recordsIn (desk.happenings clock command)) := by
  have hattempt : ∀ changed, logged (.ok (desk.attempt changed)) = desk.log.recordAll desk.disk [] := by
    intro changed
    cases changed <;> rfl
  cases command with
  | run now =>
    rw [perform, happenings, ← logged_run]
    cases desk.run now clock <;> rfl
  | enter now =>
    rw [perform, happenings, ← logged_enter]
    cases desk.enter now clock <;> rfl
  | select | selectKey | delete => exact hattempt _
  | «open» lesson =>
    rw [happenings, Player.recordsIn_leaving]
    exact hattempt _
  | up | escape | quit =>
    rw [happenings, Player.recordsIn_leaving]
    rfl
  | backspace | setPreedit =>
    rw [happenings, Player.recordsIn_emptying]
    rfl
  | press key =>
    rw [happenings]
    split <;> rfl
  | append | showStats => rfl

/-- A command that records nothing does not fail, and leaves the log and the disk alone. -/
theorem perform_of_none {desk : Desk} {clock : Timestamp} {command : Command}
    (h : recordsIn (desk.happenings clock command) = []) :
    ∃ answer after, desk.perform clock command = .ok (answer, after) ∧
      after.log = desk.log ∧ after.disk = desk.disk := by
  have hlogged := desk.logged_perform clock command
  rw [h] at hlogged
  cases hperform : desk.perform clock command with
  | error f =>
    rw [hperform] at hlogged
    cases hlogged
  | ok r =>
    rw [hperform] at hlogged
    have hkept : (r.2.log, r.2.disk) = (desk.log, desk.disk) := Except.ok.inj hlogged
    exact ⟨r.1, r.2, rfl, (Prod.mk.inj hkept).1, (Prod.mk.inj hkept).2⟩

/-! ## Records -/

/-- The round is finished while the player practises, and that is the only record among what happens. -/
structure Finishes (desk : Desk) (now : Instant) (clock : Timestamp) (hs : List Happening) : Prop where
  mode : desk.player.mode = .practice
  finished : ∃ grace, (desk.player.poll now).session.isFinished grace now = true
  happens : ∃ rest, hs = .recorded ((desk.withPlayer (desk.player.poll now)).recordNow now clock) :: rest ∧
    recordsIn rest = []

theorem finishHappenings_cons (desk : Desk) (now : Instant) (clock : Timestamp) (hs : List Happening)
    (hrest : recordsIn hs = []) :
    ∃ rest, desk.finishHappenings now clock ++ hs = .recorded (desk.recordNow now clock) :: rest ∧
      recordsIn rest = [] := by
  refine ⟨_ ++ hs, rfl, ?_⟩
  rw [recordsIn_append, hrest, List.append_nil]
  split
  · rfl
  · exact recordsIn_drawHappenings desk

theorem finishes_run (desk : Desk) (now : Instant) (clock : Timestamp) :
    recordsIn (desk.runHappenings now clock) = [] ∨ desk.Finishes now clock (desk.runHappenings now clock) := by
  unfold runHappenings
  split
  · exact .inl rfl
  · split
    · exact .inl (recordsIn_scanHappenings desk)
    · rename_i hm
      dsimp only
      split
      · exact .inl rfl
      · split
        · exact .inl rfl
        · rename_i hfinished
          refine .inr ⟨Decidable.not_not.1 hm, ⟨_, by simpa using hfinished⟩, ?_⟩
          apply finishHappenings_cons
          split
          · rfl
          · split
            · rfl
            · exact recordsIn_scanHappenings _

theorem finishes_enter (desk : Desk) (now : Instant) (clock : Timestamp) :
    recordsIn (desk.enterHappenings now clock) = [] ∨
      desk.Finishes now clock (desk.enterHappenings now clock) := by
  unfold enterHappenings
  split
  · exact .inl rfl
  · rename_i hm
    dsimp only
    split
    · rename_i hfinished
      refine .inr ⟨Decidable.not_not.1 hm, ⟨_, hfinished⟩, ?_⟩
      rw [← List.append_nil (finishHappenings ..)]
      exact finishHappenings_cons _ now clock [] rfl
    · exact .inl rfl

/-- Only going on and confirming record a round, and they record one at most. -/
theorem finishes_cases (desk : Desk) (clock : Timestamp) (command : Command) :
    recordsIn (desk.happenings clock command) = [] ∨
      ∃ now, (command = .run now ∨ command = .enter now) ∧
        desk.Finishes now clock (desk.happenings clock command) := by
  cases command with
  | run now =>
    rcases desk.finishes_run now clock with hnone | hfinishes
    · exact .inl hnone
    · exact .inr ⟨now, .inl rfl, hfinishes⟩
  | enter now =>
    rcases desk.finishes_enter now clock with hnone | hfinishes
    · exact .inl hnone
    · exact .inr ⟨now, .inr rfl, hfinishes⟩
  | press key =>
    refine .inl ?_
    rw [happenings]
    split <;> rfl
  | backspace | setPreedit => exact .inl (Player.recordsIn_emptying ..)
  | «open» | up | escape | quit => exact .inl (Player.recordsIn_leaving ..)
  | select | selectKey | append | delete | showStats => exact .inl rfl

theorem eq_of_recorded {x r : Record} {rest pre post : List Happening} (hrest : recordsIn rest = [])
    (h : .recorded x :: rest = pre ++ .recorded r :: post) : pre = [] ∧ x = r := by
  cases pre with
  | nil =>
    obtain ⟨hx, -⟩ := List.cons.inj h
    cases hx
    exact ⟨rfl, rfl⟩
  | cons what pre =>
    rw [List.cons_append] at h
    obtain ⟨-, rfl⟩ := List.cons.inj h
    rw [recordsIn_append] at hrest
    exact nomatch (List.append_eq_nil_iff.1 hrest).2

/-- What is recorded is recorded before anything else that its command makes happen. -/
theorem recorded_of_happenings {desk : Desk} {clock : Timestamp} {command : Command} {r : Record}
    {pre post : List Happening} (h : desk.happenings clock command = pre ++ .recorded r :: post) :
    pre = [] ∧ recordsIn (desk.happenings clock command) = [r] ∧
      ∃ now, (command = .run now ∨ command = .enter now) ∧ desk.player.mode = .practice ∧
        (∃ grace, (desk.player.poll now).session.isFinished grace now = true) ∧
        r = (desk.withPlayer (desk.player.poll now)).recordNow now clock := by
  rcases desk.finishes_cases clock command with hnone | ⟨now, hcommand, hmode, hfinished, rest, hhappens, hrest⟩
  · rw [h, recordsIn_append] at hnone
    exact nomatch (List.append_eq_nil_iff.1 hnone).2
  · -- all records are the one that its command begins with
    rw [hhappens] at h
    obtain ⟨hpre, hr⟩ := eq_of_recorded hrest h
    refine ⟨hpre, ?_, now, hcommand, hmode, hfinished, hr.symm⟩
    rw [hhappens, ← hr]
    show _ :: recordsIn rest = _
    rw [hrest]

/-! ## Starts -/

/-- All rounds that are started are to be typed in the given way. -/
def TypedBy (typing : Typing) (hs : List Happening) : Prop := ∀ t used, .started t used ∈ hs → used = typing

theorem typedBy_append {typing : Typing} {hs hs' : List Happening} (h : TypedBy typing hs)
    (h' : TypedBy typing hs') : TypedBy typing (hs ++ hs') := by
  intro t used hmem
  rcases List.mem_append.1 hmem with hmem | hmem
  · exact h t used hmem
  · exact h' t used hmem

theorem typedBy_scan (desk : Desk) : TypedBy desk.typing desk.scanHappenings := by
  intro t used hmem
  unfold scanHappenings at hmem
  split at hmem
  · cases List.mem_singleton.1 hmem; rfl
  · cases hmem

theorem typedBy_finish (desk : Desk) (now : Instant) (clock : Timestamp) :
    TypedBy desk.typing (desk.finishHappenings now clock) := by
  intro t used hmem
  unfold finishHappenings drawHappenings at hmem
  rcases List.mem_cons.1 hmem with hmem | hmem
  · cases hmem
  · split at hmem
    · cases hmem
    · split at hmem
      · cases List.mem_singleton.1 hmem; rfl
      · cases hmem

theorem typedBy_run (desk : Desk) (now : Instant) (clock : Timestamp) :
    TypedBy desk.typing (desk.runHappenings now clock) := by
  have hnone : TypedBy desk.typing [] := fun _ _ hmem => nomatch hmem
  unfold runHappenings
  split
  · exact hnone
  · split
    · exact typedBy_scan desk
    · dsimp only
      split
      · intro t used hmem
        cases List.mem_singleton.1 hmem
      · split
        · exact hnone
        · refine typedBy_append (typedBy_finish _ now clock) ?_
          split
          · exact hnone
          · rename_i after hfinish
            split
            · exact hnone
            · obtain ⟨htyping, -⟩ := finishRound_frame hfinish
              have hscan := typedBy_scan after
              rw [htyping] at hscan
              exact hscan

/-- A round that a command starts is typed as the desk has it then. -/
theorem typedBy_happenings (desk : Desk) (clock : Timestamp) (command : Command) :
    TypedBy desk.typing (desk.happenings clock command) := by
  have hnone : TypedBy desk.typing [] := fun _ _ hmem => nomatch hmem
  cases command with
  | run now => exact typedBy_run desk now clock
  | enter now =>
    show TypedBy desk.typing (desk.enterHappenings now clock)
    unfold enterHappenings
    split
    · exact hnone
    · dsimp only
      split
      · exact typedBy_finish _ now clock
      · exact hnone
  | press | backspace | setPreedit | «open» | up | escape | quit =>
    intro t used hmem
    simp only [happenings, Player.leaving, Player.emptying] at hmem
    split at hmem
    · cases List.mem_singleton.1 hmem
    · cases hmem
  | select | selectKey | append | delete | showStats => exact hnone

/-! ## Ways of going on and confirming -/

/-- All ways in which going on with the lesson can succeed, with what happens. -/
inductive Ran (desk : Desk) (now : Instant) (clock : Timestamp) : Desk → List Happening → Prop where
  | closed : desk.player.lines = [] → Ran desk now clock desk []
  | read : desk.player.mode ≠ .practice → Ran desk now clock desk.scan.2 desk.scanHappenings
  | timedOut : desk.player.mode = .practice →
      Ran desk now clock (desk.withPlayer { desk.player.poll now with session := {} }) [.timedOut]
  | pending : desk.player.mode = .practice → Ran desk now clock (desk.withPlayer (desk.player.poll now)) []
  /-- The round is recorded, and the next one is drawn. -/
  | drew {finished : Desk} : desk.player.mode = .practice → desk.player.lines ≠ [] →
      (desk.withPlayer (desk.player.poll now)).finishRound now clock = .ok finished →
      finished.player.mode = .practice →
      Ran desk now clock finished ((desk.withPlayer (desk.player.poll now)).finishHappenings now clock)
  /-- The round is recorded, and the script goes on. -/
  | readOn {finished : Desk} : desk.player.mode = .practice → desk.player.lines ≠ [] →
      (desk.withPlayer (desk.player.poll now)).finishRound now clock = .ok finished →
      finished.player.mode ≠ .practice →
      Ran desk now clock finished.scan.2
        ((desk.withPlayer (desk.player.poll now)).finishHappenings now clock ++ finished.scanHappenings)

theorem ran_of_run {desk after : Desk} {now : Instant} {clock : Timestamp} {started : Bool}
    (h : desk.run now clock = .ok (started, after)) :
    desk.Ran now clock after (desk.runHappenings now clock) := by
  unfold run at h
  unfold runHappenings
  split at h
  · rename_i hl
    cases h
    rw [if_pos hl]
    exact .closed (List.isEmpty_iff.1 hl)
  · rename_i hl
    rw [if_neg hl]
    have hlines : desk.player.lines ≠ [] := fun hnil => hl (List.isEmpty_iff.2 hnil)
    split at h
    · rename_i hm
      cases h
      rw [if_pos hm]
      exact .read hm
    · rename_i hm
      rw [if_neg hm]
      have hm := Decidable.not_not.1 hm
      dsimp only at h ⊢
      split at h
      · rename_i htime
        cases h
        rw [if_pos htime]
        exact .timedOut hm
      · rename_i htime
        rw [if_neg htime]
        split at h
        · rename_i hfinished
          cases h
          rw [if_pos hfinished]
          exact .pending hm
        · rename_i hfinished
          rw [if_neg hfinished]
          cases hfinish : (desk.withPlayer (desk.player.poll now)).finishRound now clock with
          | error f => rw [hfinish] at h; cases h
          | ok finished =>
            rw [hfinish] at h
            have h : (if finished.player.mode = .practice then (false, finished) else finished.scan) =
              (started, after) := Except.ok.inj h
            dsimp only
            split at h
            · rename_i hdrew
              cases h
              rw [if_pos hdrew, List.append_nil]
              exact .drew hm hlines hfinish hdrew
            · rename_i hdone
              have hafter : after = finished.scan.2 := by rw [h]
              rw [if_neg hdone, hafter]
              exact .readOn hm hlines hfinish hdone

/-- All ways in which confirming can succeed, with what happens. -/
inductive Entered (desk : Desk) (now : Instant) (clock : Timestamp) : Desk → List Happening → Prop where
  | left : desk.player.mode ≠ .practice →
      Entered desk now clock (desk.withPlayer { desk.player with mode := .run }) []
  | ignored : desk.player.mode ≠ .practice → Entered desk now clock desk []
  | typed : desk.player.mode = .practice →
      Entered desk now clock
        (desk.withPlayer ((desk.player.poll now).practise fun s => s.append ['\n'] now)) []
  | finished {finished : Desk} : desk.player.mode = .practice →
      (desk.withPlayer (desk.player.poll now)).finishRound now clock = .ok finished →
      Entered desk now clock finished ((desk.withPlayer (desk.player.poll now)).finishHappenings now clock)

theorem entered_of_enter {desk after : Desk} {now : Instant} {clock : Timestamp}
    (h : desk.enter now clock = .ok after) : desk.Entered now clock after (desk.enterHappenings now clock) := by
  unfold enterHappenings
  unfold enter at h
  split at h
  · rename_i hm
    cases h
    have hm : desk.player.mode ≠ .practice := by rw [hm]; exact Mode.noConfusion
    rw [if_pos hm]
    exact .left hm
  · rename_i hm
    cases h
    have hm : desk.player.mode ≠ .practice := by rw [hm]; exact Mode.noConfusion
    rw [if_pos hm]
    exact .left hm
  · rename_i hm
    rw [if_neg (show ¬desk.player.mode ≠ .practice from not_not_intro hm)]
    dsimp only at h ⊢
    split at h
    · rename_i hfinished
      rw [if_pos hfinished]
      exact .finished hm h
    · rename_i hfinished
      cases h
      rw [if_neg hfinished]
      exact .typed hm
  · rename_i hm
    cases h
    rw [if_pos hm]
    exact .ignored hm

theorem run_of_perform {desk after : Desk} {clock : Timestamp} {now : Instant} {answer : Option Bool}
    (h : desk.perform clock (.run now) = .ok (answer, after)) :
    desk.Ran now clock after (desk.happenings clock (.run now)) := by
  rw [perform] at h
  cases hrun : desk.run now clock with
  | error f => rw [hrun] at h; cases h
  | ok result => rw [hrun] at h; cases h; exact ran_of_run hrun

theorem enter_of_perform {desk after : Desk} {clock : Timestamp} {now : Instant} {answer : Option Bool}
    (h : desk.perform clock (.enter now) = .ok (answer, after)) :
    desk.Entered now clock after (desk.happenings clock (.enter now)) := by
  rw [perform] at h
  cases henter : desk.enter now clock with
  | error f => rw [henter] at h; cases h
  | ok result => rw [henter] at h; cases h; exact entered_of_enter henter

end Desk

end KanaTutor
