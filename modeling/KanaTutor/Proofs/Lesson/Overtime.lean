/-
Rounds that take too long. Going on with the lesson gives up a round whose time is up. Confirming does not look at the
time: it records a round whose target is matched however long it took, unless the match has been seen before. So a
record is too long only if it is made by confirming, after the time is up, and the match has not been seen.
-/
import KanaTutor.Proofs.Lesson.Looks
import KanaTutor.Proofs.Stats.Days

namespace KanaTutor

/-! ## Sessions in time -/

namespace Session

/-- A match that has been seen came before the time was up. -/
def Timely (s : Session) : Prop :=
  ∀ start finish, s.startedAt = some start → s.finishedAt = some finish →
    (finish.since start).nanos < timeLimit.nanos

/-- A match has been seen. -/
def Watched (s : Session) (plain : Text) : Prop :=
  s.isMatch plain = true → s.startedAt ≠ none → s.finishedAt ≠ none

theorem timely_new : ({} : Session).Timely := fun _ _ h => nomatch h

theorem timely_of_unfinished {s : Session} (h : s.finishedAt = none) : s.Timely :=
  fun _ _ _ hfinish => nomatch h.symm.trans hfinish

theorem timely_settle {before after : Session} (now : Instant) (h : after.Timely) :
    (settle before after now).Timely := by
  unfold settle
  split
  · exact timely_new
  · exact timely_of_unfinished rfl
  · exact h

theorem timely_append {s : Session} (t : Text) (now : Instant) (h : s.Timely) : (s.append t now).Timely :=
  timely_settle now h

theorem timely_setPreedit {s : Session} (p : Preedit) (now : Instant) (h : s.Timely) : (s.setPreedit p now).Timely :=
  timely_settle now h

theorem timely_backspace {s : Session} (h : s.Timely) : s.backspace.Timely := by
  unfold backspace
  split
  · exact h
  · dsimp only
    split
    · exact timely_new
    · exact h

theorem timely_delete {s s' : Session} {offset : Int} {count : Nat} (hdelete : s.delete? offset count = some s')
    (h : s.Timely) : s'.Timely := by
  unfold delete? at hdelete
  dsimp only at hdelete
  split at hdelete
  · cases hdelete
    exact h
  · cases hdelete

/-! ## Looks at the clock -/

/-- A session whose time is not up is in time. -/
theorem timely_of_not_timedOut {s : Session} {now : Instant} (h : s.isTimedOut now = false) : s.Timely := by
  intro start finish hstart hfinish
  have hlt := Nat.not_le.1 (of_decide_eq_false h)
  rwa [elapsed, hstart, hfinish] at hlt

/-- A match that is seen is finished at once. -/
theorem unfinished_of_not_isFinished {s : Session} {now : Instant} (h : s.isFinished .zero now = false) :
    s.finishedAt = none := by
  unfold isFinished at h
  split at h
  · assumption
  · exact absurd (Nat.zero_le _) (of_decide_eq_false h)

theorem isMatch_poll (s : Session) (plain : Text) (now : Instant) :
    (s.poll plain now).isMatch plain = s.isMatch plain := by
  obtain ⟨htyped, hpreedit, -, -⟩ := poll_frame s plain now
  unfold isMatch
  rw [htyped, hpreedit]

theorem watched_poll (s : Session) (plain : Text) (now : Instant) : (s.poll plain now).Watched plain := by
  intro hmatch hstarted
  rw [isMatch_poll] at hmatch
  unfold poll at hstarted ⊢
  split
  · rename_i hnone
    rw [hnone] at hstarted
    exact absurd hnone hstarted
  · rw [hmatch]
    exact Option.some_ne_none _

/-- What a session tells when it is finished: it was started, its target is matched, and its time goes to where the
match was seen first, which may be now. -/
theorem elapsed_of_isFinished {s : Session} {plain : Text} {grace : Duration} {now : Instant} (hs : s.Timed)
    (h : (s.poll plain now).isFinished grace now = true) :
    s.isMatch plain = true ∧ ∃ start, s.startedAt = some start ∧
      (s.poll plain now).elapsed now = (s.finishedAt.getD now).since start := by
  obtain ⟨htyped, hpending⟩ := match_of_isFinished hs h
  have hmatch : s.isMatch plain = true := by simp [isMatch, htyped, hpending]
  refine ⟨hmatch, ?_⟩
  cases hstart : s.startedAt with
  | none =>
    rw [poll, hstart, isFinished, hs hstart] at h
    cases h
  | some start =>
    refine ⟨start, rfl, ?_⟩
    rw [poll, hstart, hmatch]
    show (Option.getD (some (s.finishedAt.getD now)) now).since start = _
    rfl

end Session

/-! ## Players in time -/

/-- The round of the player has not been matched too late. -/
def Player.Timely (p : Player) : Prop := p.mode = .practice → p.session.Timely

/-- The player has looked at the clock. -/
def Player.Watched (p : Player) : Prop := p.mode = .practice → p.session.Watched p.target.plain

namespace Player

theorem timely_of_mode {p : Player} (h : p.mode ≠ .practice) : p.Timely := fun hm => absurd hm h

theorem Settled.timely {p : Player} (h : p.Settled) : p.Timely := fun hm => h hm ▸ Session.timely_new

theorem Settled.watched {p : Player} (h : p.Settled) : p.Watched := by
  intro hm
  rw [h hm]
  exact fun _ hstarted => absurd rfl hstarted

theorem timely_practise {p : Player} {f : Session → Session} (h : p.Timely)
    (hf : p.session.Timely → (f p.session).Timely) : (p.practise f).Timely := by
  unfold practise
  split
  · exact fun hm => hf (h hm)
  · exact h

/-- A change that may leave the round and does nothing else to it. -/
theorem timely_leaving {p q : Player} (h : p.Timely) (hq : q.mode ≠ .practice ∨ ∃ trail, q = { p with trail }) :
    q.Timely := by
  rcases hq with hq | ⟨trail, rfl⟩
  · exact timely_of_mode hq
  · exact h

theorem timely_select {p q : Player} {library : Library} {index : Nat} (hq : p.select? library index = some q) :
    q.Timely := by
  have hnone : p.mode = .menu := by
    unfold select? at hq
    split at hq
    · cases hq
    · rename_i hmenu
      exact Decidable.not_not.1 hmenu
  have hagrees : p.Agrees none := by
    rw [Agrees, hnone]
    exact Mode.noConfusion
  exact timely_of_mode (agrees_select hagrees hq)

end Player

namespace Desk

/-- Going on looks at the clock, and gives up a round whose time is up. -/
theorem timely_run {desk after : Desk} {now : Instant} {clock : Timestamp} {started : Bool}
    (hrun : desk.run now clock = .ok (started, after)) (hl : desk.player.mode = .practice → desk.player.lines ≠ []) :
    after.player.Timely ∧ after.player.Watched := by
  have hsettled : ∀ {desk : Desk}, desk.player.mode ≠ .practice → desk.scan.2.player.Settled :=
    fun {desk} hm => Player.settled_of_scanned (Player.scanned_scan desk.library desk.typing hm)
  unfold run at hrun
  split at hrun
  · rename_i hempty
    cases hrun
    have hm : desk.player.mode ≠ .practice := fun hm => hl hm (List.isEmpty_iff.1 hempty)
    exact ⟨fun h => absurd h hm, fun h => absurd h hm⟩
  · rename_i hlines
    split at hrun
    · rename_i hm
      have hafter : after = desk.scan.2 := by rw [Except.ok.inj hrun]
      rw [hafter]
      exact ⟨(hsettled hm).timely, (hsettled hm).watched⟩
    · dsimp only at hrun
      split at hrun
      · -- the time is up, and the round begins again
        cases hrun
        exact ⟨fun _ => Session.timely_new, fun _ _ hstarted => absurd rfl hstarted⟩
      · rename_i htime
        split at hrun
        · cases hrun
          exact ⟨fun _ => Session.timely_of_not_timedOut (Bool.not_eq_true _ ▸ htime),
            fun _ => Session.watched_poll _ _ _⟩
        · obtain ⟨finished, hfinish, hrest⟩ := ok_of_bind hrun
          have hdrawn : finished.player.Settled := by
            rw [(finishRound_frame hfinish).2]
            exact Player.settled_afterRound _ _ (fun hnil => hlines (List.isEmpty_iff.2 hnil))
          split at hrest
          · cases hrest
            exact ⟨hdrawn.timely, hdrawn.watched⟩
          · rename_i hdone
            have hafter : after = finished.scan.2 := by rw [Except.ok.inj hrest]
            rw [hafter]
            exact ⟨(hsettled hdone).timely, (hsettled hdone).watched⟩

theorem timely_enter {desk after : Desk} {now : Instant} {clock : Timestamp}
    (henter : desk.enter now clock = .ok after) (hl : desk.player.mode = .practice → desk.player.lines ≠ [])
    (h : desk.player.Timely) : after.player.Timely := by
  unfold enter at henter
  split at henter
  · cases henter
    exact Player.timely_of_mode Mode.noConfusion
  · cases henter
    exact Player.timely_of_mode Mode.noConfusion
  · rename_i hm
    dsimp only at henter
    split at henter
    · rw [(finishRound_frame henter).2]
      exact (Player.settled_afterRound (p := desk.player.poll now) _ _ (hl hm)).timely
    · -- no match is seen, and a line break is typed
      rename_i hfinished
      cases henter
      have hunfinished := Session.unfinished_of_not_isFinished (Bool.not_eq_true _ ▸ hfinished)
      exact Player.timely_practise (fun _ => Session.timely_of_unfinished hunfinished) (Session.timely_append _ now)
  · cases henter
    exact h

theorem timely_attempt {desk after : Desk} {changed : Option Player} {answer : Option Bool} (h : desk.player.Timely)
    (hchanged : ∀ p, changed = some p → p.Timely) (hafter : desk.attempt changed = (answer, after)) :
    after.player.Timely := by
  cases changed with
  | none => cases hafter; exact h
  | some p => cases hafter; exact hchanged p rfl

/-- No command leaves a match that was seen too late. -/
theorem timely_perform {desk after : Desk} {clock : Timestamp} {command : Command} {answer : Option Bool}
    (hperform : desk.perform clock command = .ok (answer, after))
    (hl : desk.player.mode = .practice → desk.player.lines ≠ []) (h : desk.player.Timely) : after.player.Timely := by
  cases command with
  | run now =>
    obtain ⟨⟨started, desk'⟩, hrun, hrest⟩ := ok_of_bind hperform
    cases hrest
    exact (timely_run hrun hl).1
  | enter now =>
    obtain ⟨desk', henter, hrest⟩ := ok_of_bind hperform
    cases hrest
    exact timely_enter henter hl h
  | «open» lesson =>
    refine timely_attempt h (fun q hq => ?_) (Except.ok.inj hperform)
    exact Player.timely_of_mode (Player.not_practice_open hq)
  | select index => exact timely_attempt h (fun _ => Player.timely_select) (Except.ok.inj hperform)
  | selectKey key =>
    refine timely_attempt h (fun q hq => ?_) (Except.ok.inj hperform)
    obtain ⟨index, -, hselect⟩ := Option.bind_eq_some_iff.1 hq
    exact Player.timely_select hselect
  | delete offset count =>
    refine timely_attempt h (fun q hq => ?_) (Except.ok.inj hperform)
    obtain ⟨s, hs, rfl⟩ := Option.map_eq_some_iff.1 hq
    exact fun hm => Session.timely_delete hs (h hm)
  | up => cases hperform; exact Player.timely_leaving h (desk.player.up_cases desk.library)
  | escape =>
    cases hperform
    show (desk.player.escape desk.library).Timely
    unfold Player.escape
    split
    · exact Player.timely_of_mode Mode.noConfusion
    · exact Player.timely_leaving h (desk.player.up_cases desk.library)
  | quit => cases hperform; exact Player.timely_of_mode Mode.noConfusion
  | backspace => cases hperform; exact Player.timely_practise h Session.timely_backspace
  | setPreedit preedit now => cases hperform; exact Player.timely_practise h (Session.timely_setPreedit preedit now)
  | append t now => cases hperform; exact Player.timely_practise h (Session.timely_append _ now)
  | press key =>
    cases hperform
    show (desk.player.press desk.typing.layout key).Timely
    unfold Player.press
    split
    · exact Player.timely_practise h id
    · exact h
  | showStats =>
    cases hperform
    show desk.player.showStats.Timely
    unfold Player.showStats
    split
    · exact Player.timely_of_mode Mode.noConfusion
    · exact h

/-- A round that going on records is in time. -/
theorem not_timedOut_of_recorded {desk : Desk} {now : Instant} {clock : Timestamp} {r : Record}
    (h : .recorded r ∈ desk.runHappenings now clock) : (desk.player.poll now).session.isTimedOut now = false := by
  have hscan : ∀ desk : Desk, .recorded r ∉ desk.scanHappenings := by
    intro desk hr
    unfold scanHappenings at hr
    split at hr
    · cases List.mem_singleton.1 hr
    · cases hr
  unfold runHappenings at h
  split at h
  · cases h
  · split at h
    · exact absurd h (hscan _)
    · dsimp only at h
      split at h
      · cases List.mem_singleton.1 h
      · rename_i htime
        exact Bool.not_eq_true _ ▸ htime

end Desk

/-! ## Histories -/

theorem lines_of_agrees {p : Player} {round : Option Round} (h : p.Agrees round) :
    p.mode = .practice → p.lines ≠ [] := by
  intro hm
  obtain ⟨r, -, hplays⟩ := Player.plays_of_agrees h hm
  exact hplays.lines

theorem Occasion.perform_of_next {p q : Player} {o : Occasion} (h : o.next? p = some q) :
    ∃ answer after, (o.desk p).perform o.clock o.command = .ok (answer, after) ∧ after.player = q := by
  unfold next? at h
  split at h
  · rename_i answer after hperform
    exact ⟨answer, after, hperform, Option.some.inj h⟩
  · cases h

/-- A player is always in time, and has looked at the clock if it has just gone on. -/
theorem timely_after {p q : Player} {os : List Occasion} {round : Option Round} (hagrees : p.Agrees round)
    (h : p.Timely) (hq : p.after? os = some q) :
    q.Timely ∧ ((os.getLast?.any fun o => o.command.isRun) = true → q.Watched) := by
  induction os generalizing p round with
  | nil =>
    cases hq
    exact ⟨h, fun hnone => nomatch hnone⟩
  | cons o os ih =>
    obtain ⟨p', hnext, hafter⟩ := Option.bind_eq_some_iff.1 hq
    obtain ⟨answer, after, hperform, rfl⟩ := Occasion.perform_of_next hnext
    have hl : (o.desk p).player.mode = .practice → (o.desk p).player.lines ≠ [] := lines_of_agrees hagrees
    obtain ⟨htimely, hwatched⟩ := ih (agrees_next hagrees hnext) (Desk.timely_perform hperform hl h) hafter
    refine ⟨htimely, fun hlast => ?_⟩
    cases os with
    | cons o' os => exact hwatched (by rwa [List.getLast?_cons_cons] at hlast)
    | nil =>
      cases hafter
      cases hc : o.command with
      | run now =>
        rw [hc] at hperform
        obtain ⟨⟨started, desk⟩, hrun, hrest⟩ := ok_of_bind hperform
        cases hrest
        exact (Desk.timely_run hrun hl).2
      | _ =>
        rw [List.getLast?_singleton, Option.any_some, hc] at hlast
        cases hlast

/-- The time of a record goes from the first input of its round to where the match was seen first. It is below the time
limit where going on makes the record, and also where confirming does, if the match has been seen before, as it has been
by going on right before, or the time is not yet up. All of what a command does to the log and the disk is that it
records such rounds. -/
theorem duration_of_recorded (lessonDir : Path) (finishDelay : Duration) (source : Xoshiro) (os : List Occasion)
    (o : Occasion) (p : Player) (r : Record) (hafter : (Player.new lessonDir finishDelay source).after? os = some p)
    (hrecorded : r ∈ recordsIn (o.happenings p)) :
    o.logged p = o.log.recordAll o.disk [r] ∧
    ∃ now start, p.session.startedAt = some start ∧ r.duration = (p.session.finishedAt.getD now).since start ∧
      (o.command = .run now ∨ o.command = .enter now) ∧
      ((o.command = .run now ∨ p.session.finishedAt ≠ none ∨
          (os.getLast?.any fun before => before.command.isRun) = true ∨
          (now.since start).nanos < Session.timeLimit.nanos) →
        r.duration.nanos < Session.timeLimit.nanos) := by
  have hagrees := agrees_new lessonDir finishDelay source
  obtain ⟨htimely, hwatched⟩ := timely_after hagrees (Player.timely_of_mode Mode.noConfusion) hafter
  obtain ⟨round, hround⟩ := agrees_after hagrees hafter
  obtain ⟨what, hmem, hwhat⟩ := List.mem_filterMap.1 hrecorded
  obtain rfl : what = .recorded r := by
    cases what <;> cases hwhat
    rfl
  obtain ⟨pre, post, hhappens⟩ := List.append_of_mem hmem
  obtain ⟨-, hrecords, now, hcommand, hmode, ⟨grace, hfinished⟩, hr⟩ := Desk.recorded_of_happenings hhappens
  obtain ⟨played, -, hplays⟩ := Player.plays_of_agrees hround hmode
  obtain ⟨hmatch, start, hstart, helapsed⟩ := Session.elapsed_of_isFinished hplays.timed hfinished
  have hduration : r.duration = (p.session.finishedAt.getD now).since start := by
    rw [hr]
    exact helapsed
  -- a match that has been seen is in time
  have hseen : p.session.finishedAt ≠ none → r.duration.nanos < Session.timeLimit.nanos := by
    intro hne
    obtain ⟨finish, hfinish⟩ := Option.ne_none_iff_exists'.1 hne
    rw [hduration, hfinish]
    exact htimely hmode start finish hstart hfinish
  refine ⟨by rw [← hrecords]; exact Desk.logged_perform .., now, start, hstart, hduration, hcommand, ?_⟩
  rintro (hrun | hne | hlast | hearly)
  · have hran : .recorded r ∈ (o.desk p).runHappenings now o.clock := by
      rw [Occasion.happenings, hrun] at hmem
      exact hmem
    have htime := Desk.not_timedOut_of_recorded hran
    have hlt := Nat.not_le.1 (of_decide_eq_false htime)
    rw [hduration, ← helapsed]
    exact hlt
  · exact hseen hne
  · exact hseen (hwatched hlast hmode hmatch (by rw [hstart]; exact Option.some_ne_none _))
  · cases hfinish : p.session.finishedAt with
    | none =>
      rw [hduration, hfinish]
      exact hearly
    | some finish => exact hseen (by rw [hfinish]; exact Option.some_ne_none _)

namespace OneLetter

/-- The occasions of a lesson in which the learner types the letter, and does not go on. -/
def typedAtOnce : List Occasion := [.open ['a'], .run .zero, .append ['x'] .zero].map asked

theorem after_typedAtOnce : idle.after? typedAtOnce = some (practising (typed ['x'] .zero none)) := by
  have hx : (asked (.append ['x'] .zero)).next? (practising {}) = some (practising (typed ['x'] .zero none)) := by
    decide +kernel
  rw [typedAtOnce, List.map_cons, after_cons next_open, List.map_cons, after_cons next_run, List.map_cons,
    after_cons hx]
  rfl

/-- The record of the round if the learner confirms after a while. -/
def confirmed (millis : Nat) : Record := ⟨clock.toWholeSecond, ['a'], .ofMillis millis, 1, 0⟩

end OneLetter

open OneLetter in
/-- The learner confirms after a second. -/
theorem duration_of_recorded_second :
    (Player.new [] (.ofMillis 1000) ⟨1, 2, 3, 4⟩).after? typedAtOnce = some (practising (typed ['x'] .zero none)) ∧
    confirmed 1000 ∈ recordsIn ((asked (.enter (.ofMillis 1000))).happenings (practising (typed ['x'] .zero none))) ∧
    (confirmed 1000).duration.nanos < Session.timeLimit.nanos := by
  have hrecorded : confirmed 1000 ∈
      recordsIn ((asked (.enter (.ofMillis 1000))).happenings (practising (typed ['x'] .zero none))) := by
    decide +kernel
  obtain ⟨-, now, start, hstart, -, hcommand, hlt⟩ :=
    duration_of_recorded [] (.ofMillis 1000) ⟨1, 2, 3, 4⟩ _ _ _ _ after_typedAtOnce hrecorded
  refine ⟨after_typedAtOnce, hrecorded, hlt (.inr (.inr (.inr ?_)))⟩
  rcases hcommand with hrun | henter
  · cases hrun
  · cases henter
    cases hstart
    decide

open OneLetter in
/-- The learner confirms after fifty-nine minutes, and the round is recorded with this time. -/
theorem recorded_overtime :
    (Player.new [] (.ofMillis 1000) ⟨1, 2, 3, 4⟩).after? ([.open ['a'], .run .zero, .append ['x'] .zero].map asked) =
      some (practising (typed ['x'] .zero none)) ∧
    confirmed 3540000 ∈ recordsIn ((asked (.enter (.ofMillis 3540000))).happenings
      (practising (typed ['x'] .zero none))) ∧
    ¬(confirmed 3540000).duration.nanos < Session.timeLimit.nanos :=
  ⟨after_typedAtOnce, by decide +kernel, by decide⟩

end KanaTutor
