/-
What a player that practises does when it looks at the clock: it waits, or it records the round. Nothing is
recorded before something is typed.
-/
import KanaTutor.Proofs.Lesson.History

namespace KanaTutor

/-- The player with another session. -/
def Player.on (p : Player) (s : Session) : Player := { p with session := s }

namespace Command

/-- The command types a text, or goes on with the lesson. -/
def isTyping : Command → Bool
  | .append _ _ | .run _ => true
  | _ => false

/-- The command goes on with the lesson. -/
def isRun : Command → Bool
  | .run _ => true
  | _ => false

/-- The command goes on with the lesson, or types an empty text. -/
def isBlank : Command → Bool
  | .append t _ => t.isEmpty
  | .run _ => true
  | _ => false

/-- The text that a command types. -/
def chunk : Command → Text
  | .append t _ => t
  | _ => []

/-- When a text is typed, or when the lesson goes on. -/
def instant : Command → Instant
  | .append _ now | .run now => now
  | _ => .zero

theorem cases_of_isBlank {c : Command} (h : c.isBlank = true) :
    (∃ now, c = .run now) ∨ ∃ now, c = .append [] now := by
  cases c with
  | run now => exact .inl ⟨now, rfl⟩
  | append t now => exact .inr ⟨now, by rw [List.isEmpty_iff.1 h]⟩
  | _ => cases h

theorem isBlank_of_chunk {c : Command} (h : c.isTyping = true) (hchunk : c.chunk = []) : c.isBlank = true := by
  cases c with
  | run now => rfl
  | append t now => exact List.isEmpty_iff.2 hchunk
  | _ => cases h

end Command

/-- A player that practises has not typed anything yet. -/
def Player.Settled (p : Player) : Prop := p.mode = .practice → p.session = {}

namespace Occasion

/-- Nothing happens on the occasion but a change of the player, whatever the log and the disk are. -/
structure Quiet (o : Occasion) (p q : Player) : Prop where
  happens : ∀ log disk, (o.finding log disk).happenings p = []
  next : ∀ log disk, (o.finding log disk).next? p = some q

end Occasion

namespace Player

theorem Begun.settled {typing : Typing} {p : Player} (h : p.Begun typing) : p.Settled := fun _ => h.session

theorem settled_of_mode {p : Player} (h : p.mode ≠ .practice) : p.Settled := fun hm => absurd hm h

theorem settled_of_scanned {typing : Typing} {r : Bool × Player} (h : Scanned typing r) : r.2.Settled := by
  unfold Scanned at h
  split at h
  · exact h.settled
  · exact settled_of_mode h

theorem settled_afterRound {p : Player} (typing : Typing) (r : RoundResult) (hl : p.lines ≠ []) :
    (p.afterRound typing r).Settled := by
  rcases p.afterRound_cases typing r hl with ⟨q, -, hbegun, -⟩ | ⟨-, hrun⟩
  · exact hbegun.settled
  · exact settled_of_mode (by rw [hrun]; exact Mode.noConfusion)

theorem Settled.append_nil {p : Player} (h : p.Settled) (now : Instant) : (p.append [] now).Settled := by
  unfold append practise
  split
  · rename_i hm
    have hnil : (if p.zenkaku then Text.zenkaku [] else []) = [] := by split <;> rfl
    intro _
    show p.session.append (if p.zenkaku then Text.zenkaku [] else []) now = {}
    rw [h hm, hnil, Session.append_nil_new]
  · exact h

end Player

namespace Desk

/-! ## One look at the clock -/

section Practising

variable (desk : Desk) {now : Instant} (clock : Timestamp)

theorem run_pending (hl : desk.player.lines ≠ []) (hm : desk.player.mode = .practice)
    (htime : (desk.player.poll now).session.isTimedOut now = false)
    (hfinished : (desk.player.poll now).session.isFinished desk.player.finishDelay now = false) :
    desk.run now clock = .ok (false, desk.withPlayer (desk.player.poll now)) ∧
      desk.runHappenings now clock = [] := by
  have hempty : desk.player.lines.isEmpty = false := by simpa using hl
  have hmode : ¬desk.player.mode ≠ .practice := not_not_intro hm
  have hfinished' : (desk.player.poll now).session.isFinished (desk.player.poll now).finishDelay now = false :=
    hfinished
  constructor
  · simp only [run, hempty, hmode, htime, hfinished', if_false, Bool.false_eq_true, Bool.not_false, if_true]
  · simp only [runHappenings, hempty, hmode, htime, hfinished', if_false, Bool.false_eq_true, Bool.not_false, if_true]

theorem runHappenings_due (hl : desk.player.lines ≠ []) (hm : desk.player.mode = .practice)
    (htime : (desk.player.poll now).session.isTimedOut now = false)
    (hfinished : (desk.player.poll now).session.isFinished desk.player.finishDelay now = true) :
    ∃ rest, desk.runHappenings now clock =
        .recorded ((desk.withPlayer (desk.player.poll now)).recordNow now clock) :: rest ∧ recordsIn rest = [] := by
  have hempty : desk.player.lines.isEmpty = false := by simpa using hl
  have hmode : ¬desk.player.mode ≠ .practice := not_not_intro hm
  have hfinished' : (desk.player.poll now).session.isFinished (desk.player.poll now).finishDelay now = true :=
    hfinished
  simp only [runHappenings, hempty, hmode, htime, hfinished', if_false, Bool.false_eq_true, Bool.not_true]
  apply finishHappenings_cons
  split
  · rfl
  · split
    · rfl
    · exact recordsIn_scanHappenings _

end Practising

/-- Nothing is typed yet after something has happened, or if nothing was typed before. -/
theorem settled_of_ran {desk after : Desk} {now : Instant} {clock : Timestamp} {hs : List Happening}
    (hran : desk.Ran now clock after hs) (h : hs ≠ [] ∨ desk.player.Settled) : after.player.Settled := by
  cases hran with
  -- where nothing happens, nothing was typed before
  | closed => exact h.resolve_left (not_not_intro rfl)
  | read hm => exact Player.settled_of_scanned (Player.scanned_scan desk.library desk.typing hm)
  | timedOut => exact fun _ => rfl
  | pending hm =>
    have hsession := h.resolve_left (not_not_intro rfl) hm
    intro _
    show (desk.player.poll now).session = {}
    rw [Player.poll, hsession, Session.poll_new]
  | drew _ hl hfinish _ =>
    rw [(finishRound_frame hfinish).2]
    exact Player.settled_afterRound _ _ hl
  | readOn _ _ _ hdone => exact Player.settled_of_scanned (Player.scanned_scan _ _ hdone)

/-- Nothing is recorded before something is typed. -/
theorem recordsIn_of_settled {desk : Desk} (clock : Timestamp) (command : Command) (h : desk.player.Settled) :
    recordsIn (desk.happenings clock command) = [] := by
  rcases desk.finishes_cases clock command with hnone | ⟨now, -, hmode, ⟨grace, hfinished⟩, -⟩
  · exact hnone
  · rw [Player.poll, h hmode, Session.poll_new] at hfinished
    cases hfinished

end Desk

namespace Occasion

/-! ## Occasions of typing and going on -/

variable {o : Occasion} {p : Player} {s : Session} {now : Instant}

theorem happenings_run (hc : o.command = .run now) (p : Player) :
    o.happenings p = (o.desk p).runHappenings now o.clock := by
  rw [happenings, hc]
  rfl

theorem ran_of_next {q : Player} (hc : o.command = .run now) (hq : o.next? p = some q) :
    ∃ after, (o.desk p).Ran now o.clock after (o.happenings p) ∧ after.player = q := by
  unfold next? at hq
  unfold happenings
  rw [hc] at hq ⊢
  split at hq
  · rename_i answer after hperform
    exact ⟨after, Desk.run_of_perform hperform, Option.some.inj hq⟩
  · cases hq

/-- A text is typed as it is where nothing is typed full-width, or where it is full-width itself. -/
theorem quiet_append_of_width {t : Text} (hc : o.command = .append t now) (hm : p.mode = .practice)
    (hwidth : p.zenkaku = true → t.zenkaku = t) : o.Quiet (p.on s) (p.on (s.append t now)) where
  happens log disk := by rw [happenings, finding, hc]; rfl
  next log disk := by
    have hsame : (if p.zenkaku then t.zenkaku else t) = t := by
      split
      · exact hwidth ‹_›
      · rfl
    unfold next? finding
    rw [hc]
    show some ((p.on s).append t now) = _
    rw [Player.append, Player.practise, if_pos (show (p.on s).mode = .practice from hm)]
    show some (p.on (s.append (if p.zenkaku then t.zenkaku else t) now)) = _
    rw [hsame]

theorem quiet_append {t : Text} (hc : o.command = .append t now) (hm : p.mode = .practice)
    (hz : p.zenkaku = false) : o.Quiet (p.on s) (p.on (s.append t now)) :=
  quiet_append_of_width hc hm fun htrue => by rw [hz] at htrue; cases htrue

/-- A look at the clock before the time has come changes the session at most. -/
theorem quiet_run {s' : Session} (hc : o.command = .run now) (hl : p.lines ≠ []) (hm : p.mode = .practice)
    (hpoll : s.poll p.target.plain now = s') (htime : s'.isTimedOut now = false)
    (hfinished : s'.isFinished p.finishDelay now = false) : o.Quiet (p.on s) (p.on s') := by
  subst hpoll
  have hquiet : ∀ desk : Desk, desk.player = p.on s →
      desk.run now o.clock = .ok (false, desk.withPlayer (p.on (s.poll p.target.plain now))) ∧
        desk.runHappenings now o.clock = [] := by
    rintro ⟨player, typing, log, disk⟩ rfl
    exact Desk.run_pending _ o.clock hl hm htime hfinished
  have hrun : ∀ log disk, (o.finding log disk).command = .run now := fun _ _ => hc
  constructor
  · intro log disk
    exact (happenings_run (hrun log disk) _).trans (hquiet ((o.finding log disk).desk (p.on s)) rfl).2
  · intro log disk
    exact next_run (hrun log disk) (hquiet ((o.finding log disk).desk (p.on s)) rfl).1

/-- The record of a round that is typed and nothing else, made on an occasion. -/
def recordOf (o : Occasion) (p : Player) (duration : Duration) : Record :=
  .ofRound (o.log.stamp o.clock) p.lesson ⟨p.target.keyCount, 0, duration⟩

/-- A look at the clock when the time has come records the round. -/
theorem recorded_run {t : Text} {start finish : Instant} (hc : o.command = .run now) (hl : p.lines ≠ [])
    (hm : p.mode = .practice) (hpoll : s.poll p.target.plain now = .running t start (some finish))
    (htime : (finish.since start).nanos < Session.timeLimit.nanos)
    (hdelay : p.finishDelay.nanos ≤ (now.since finish).nanos) :
    (∃ rest, o.happenings (p.on s) = .recorded (o.recordOf p (finish.since start)) :: rest ∧
        recordsIn rest = []) ∧
      ∀ q, o.next? (p.on s) = some q → q.Settled := by
  have hsession : ((o.desk (p.on s)).player.poll now).session = .running t start (some finish) := hpoll
  have htimely : ((o.desk (p.on s)).player.poll now).session.isTimedOut now = false := by
    rw [hsession]
    exact Session.not_timedOut_running htime
  have hfinished : ((o.desk (p.on s)).player.poll now).session.isFinished (p.on s).finishDelay now = true := by
    rw [hsession]
    exact decide_eq_true hdelay
  -- without keystrokes the result is the time alone
  have hrecord : ((o.desk (p.on s)).withPlayer ((o.desk (p.on s)).player.poll now)).recordNow now o.clock =
      o.recordOf p (finish.since start) := by
    show Record.ofRound _ _ ⟨_, ((o.desk (p.on s)).player.poll now).session.touches,
      ((o.desk (p.on s)).player.poll now).session.elapsed now⟩ = _
    rw [hsession]
    rfl
  obtain ⟨rest, hhappens, hrest⟩ := Desk.runHappenings_due (o.desk (p.on s)) o.clock hl hm htimely hfinished
  rw [hrecord, ← happenings_run hc] at hhappens
  refine ⟨⟨rest, hhappens, hrest⟩, ?_⟩
  intro q hq
  obtain ⟨after, hran, rfl⟩ := ran_of_next hc hq
  exact Desk.settled_of_ran hran (.inl (by rw [hhappens]; exact List.cons_ne_nil _ _))

theorem settled_next {q : Player} (hblank : o.command.isBlank = true) (h : p.Settled) (hq : o.next? p = some q) :
    q.Settled := by
  rcases Command.cases_of_isBlank hblank with ⟨now, hc⟩ | ⟨now, hc⟩
  · obtain ⟨after, hran, rfl⟩ := ran_of_next hc hq
    exact Desk.settled_of_ran hran (.inr h)
  · unfold next? at hq
    rw [hc] at hq
    cases hq
    exact h.append_nil now

end Occasion

end KanaTutor
