/-
The rounds of a lesson, from their start to their record. What a player knows of its round is what can be
told from all that has happened: the text and the typing it was started with, and the keystrokes since its
session was last reset.
-/
import KanaTutor.Proofs.Lesson.Happening

namespace KanaTutor

/-! ## The round that is on -/

/-- A round as its happenings tell it: its text, how that is typed, and the keystrokes so far. -/
structure Round where
  text : Text
  typing : Typing
  touches : Nat

/-- The round that is on after something happens, if one is. -/
def Round.next? : Option Round → Happening → Option Round
  | _, .started t typing => some ⟨t, typing, 0⟩
  | some round, .keystroke => some { round with touches := round.touches + 1 }
  | some round, .emptied | some round, .timedOut => some { round with touches := 0 }
  | _, _ => none

/-- The round that is on after all that has happened. -/
def Round.after (round : Option Round) (hs : List Happening) : Option Round := hs.foldl next? round

namespace Round

theorem after_append (round : Option Round) (hs hs' : List Happening) :
    after round (hs ++ hs') = after (after round hs) hs' :=
  List.foldl_append

theorem after_recorded (round : Option Round) (r : Record) (hs : List Happening) :
    after round (.recorded r :: hs) = after none hs := by
  cases round <;> rfl

end Round

/-- The player practises the round. -/
structure Player.Plays (p : Player) (round : Round) : Prop where
  lines : p.lines ≠ []
  mode : p.mode = .practice
  target : p.target = .ofText round.typing round.text
  touches : p.session.touches = round.touches
  timed : p.session.Timed

/-- The player practises the round that is on, and does not practise if none is. -/
def Player.Agrees (p : Player) : Option Round → Prop
  | some round => p.Plays round
  | none => p.mode ≠ .practice

namespace Player

theorem plays_of_agrees {p : Player} {round : Option Round} (h : p.Agrees round) (hm : p.mode = .practice) :
    ∃ r, round = some r ∧ p.Plays r := by
  cases round with
  | none => exact absurd hm h
  | some r => exact ⟨r, rfl, h⟩

theorem eq_none_of_agrees {p : Player} {round : Option Round} (h : p.Agrees round) (hm : p.mode ≠ .practice) :
    round = none := by
  cases round with
  | none => rfl
  | some r => exact absurd h.mode hm

theorem plays_of_begun {p : Player} {typing : Typing} (h : p.Begun typing) : p.Plays ⟨p.text, typing, 0⟩ where
  lines := h.lines
  mode := h.mode
  target := h.target
  touches := by rw [h.session]
  timed := by rw [h.session]; exact Session.timed_new

theorem Plays.poll {p : Player} {round : Round} (h : p.Plays round) (now : Instant) : (p.poll now).Plays round where
  lines := h.lines
  mode := h.mode
  target := h.target
  touches := (Session.poll_frame p.session p.target.plain now).2.2.1.trans h.touches
  timed := Session.timed_poll _ now h.timed

/-! ## One command -/

/-- A change that may leave the round ends it if it does. -/
theorem agrees_leaving {p q : Player} {round : Option Round} (h : p.Agrees round)
    (hq : q.mode ≠ .practice ∨ ∃ trail, q = { p with trail }) : q.Agrees (Round.after round (p.leaving q)) := by
  unfold leaving
  rcases hq with hq | ⟨trail, rfl⟩
  · split
    · cases round <;> exact hq
    · rename_i hstays
      have hm : p.mode ≠ .practice := fun hm => hstays ⟨hm, hq⟩
      rw [eq_none_of_agrees h hm]
      exact hq
  · rw [if_neg fun hleft => hleft.2 hleft.1]
    cases round with
    | none => exact h
    | some r => exact ⟨h.lines, h.mode, h.target, h.touches, h.timed⟩

/-- A change of the session that counts no keystroke, and forgets them if it takes back all text. -/
theorem agrees_emptying {p : Player} {round : Option Round} {f : Session → Session} (h : p.Agrees round)
    (htouches : (f p.session).touches = if p.session.empties (f p.session) then 0 else p.session.touches)
    (htimed : p.session.Timed → (f p.session).Timed) :
    (p.practise f).Agrees (Round.after round (p.emptying (p.practise f))) := by
  unfold emptying practise
  split
  · rename_i hm
    obtain ⟨r, rfl, hp⟩ := plays_of_agrees h hm
    split
    · rename_i hempties
      rw [if_pos hempties.2] at htouches
      exact ⟨hp.lines, hm, hp.target, htouches, htimed hp.timed⟩
    · rename_i hkeeps
      rw [if_neg fun hempties => hkeeps ⟨hm, hempties⟩] at htouches
      exact ⟨hp.lines, hm, hp.target, htouches.trans hp.touches, htimed hp.timed⟩
  · rename_i hm
    rw [if_neg fun hempties => hm hempties.1]
    exact h

theorem agrees_typing {p : Player} {round : Option Round} (h : p.Agrees round) (t : Text) (now : Instant) :
    (p.practise fun s => s.append t now).Agrees round := by
  unfold practise
  split
  · rename_i hm
    obtain ⟨r, rfl, hp⟩ := plays_of_agrees h hm
    exact ⟨hp.lines, hm, hp.target, (Session.touches_append ..).trans hp.touches,
      Session.timed_append t now hp.timed⟩
  · exact h

theorem agrees_press {p : Player} {round : Option Round} (h : p.Agrees round) (layout : Layout) (key : KeyPress) :
    (p.press layout key).Agrees (Round.after round
      (if p.mode = .practice ∧ layout.isKeystroke key then [.keystroke] else [])) := by
  unfold press practise
  by_cases hkey : layout.isKeystroke key = true
  · rw [if_pos hkey]
    by_cases hm : p.mode = .practice
    · rw [if_pos hm, if_pos ⟨hm, hkey⟩]
      obtain ⟨r, rfl, hp⟩ := plays_of_agrees h hm
      exact ⟨hp.lines, hm, hp.target, congrArg (· + 1) hp.touches, hp.timed⟩
    · rw [if_neg hm, if_neg fun hpress => hm hpress.1]
      exact h
  · rw [if_neg hkey, if_neg fun hpress => hkey hpress.2]
    exact h

theorem agrees_delete {p q : Player} {round : Option Round} {offset : Int} {count : Nat} (h : p.Agrees round)
    (hq : p.delete? offset count = some q) : q.Agrees round := by
  obtain ⟨s, hs, rfl⟩ := Option.map_eq_some_iff.1 hq
  obtain ⟨htouches, htimed⟩ := Session.delete_frame hs
  cases round with
  | none => exact h
  | some r => exact ⟨h.lines, h.mode, h.target, htouches.trans h.touches, htimed h.timed⟩

theorem agrees_showStats {p : Player} {round : Option Round} (h : p.Agrees round) : p.showStats.Agrees round := by
  unfold showStats
  split
  · rename_i hmenu
    rw [eq_none_of_agrees h (by rw [hmenu]; exact Mode.noConfusion)]
    exact Mode.noConfusion
  · exact h

theorem agrees_escape {p : Player} {round : Option Round} (h : p.Agrees round) (library : Library) :
    (p.escape library).Agrees (Round.after round (p.leaving (p.escape library))) := by
  refine agrees_leaving h ?_
  unfold escape
  split
  · exact .inl Mode.noConfusion
  · exact p.up_cases library

theorem agrees_quit {p : Player} {round : Option Round} (h : p.Agrees round) :
    p.quit.Agrees (Round.after round (p.leaving p.quit)) :=
  agrees_leaving h (.inl Mode.noConfusion)

/-- Nothing is selected without a menu, and what is selected is not a round. -/
theorem agrees_select {p q : Player} {round : Option Round} {library : Library} {index : Nat} (h : p.Agrees round)
    (hq : p.select? library index = some q) : q.Agrees round := by
  unfold select? at hq
  split at hq
  · cases hq
  · rename_i hmenu
    have hm : p.Agrees none := by rw [Agrees, Decidable.not_not.1 hmenu]; exact Mode.noConfusion
    rw [eq_none_of_agrees h hm]
    obtain ⟨target, -, rfl⟩ := Option.map_eq_some_iff.1 hq
    split
    · exact agrees_showStats hm
    · split
      · rcases p.up_cases library with hopened | ⟨trail, hstayed⟩
        · exact hopened
        · rw [hstayed]
          exact hm
      · split
        · exact Mode.noConfusion
        · rcases p.openOrStay_cases library target with hopened | hstayed
          · exact hopened
          · rw [hstayed]
            exact hm

end Player

namespace Desk

theorem agrees_scan {desk : Desk} (hm : desk.player.mode ≠ .practice) :
    desk.scan.2.player.Agrees (Round.after none desk.scanHappenings) := by
  have hs : Player.Scanned desk.typing (desk.scan.1, desk.scan.2.player) :=
    Player.scanned_scan desk.library desk.typing hm
  unfold Player.Scanned at hs
  unfold scanHappenings
  split
  · rename_i hstarted
    rw [if_pos hstarted] at hs
    exact Player.plays_of_begun hs
  · rename_i hwaits
    rw [if_neg hwaits] at hs
    exact hs

theorem after_finishHappenings {desk after : Desk} {now : Instant} {clock : Timestamp} (round : Option Round)
    (h : desk.finishRound now clock = .ok after) :
    Round.after round (desk.finishHappenings now clock) = Round.after none desk.drawHappenings := by
  rw [finishHappenings, h, Round.after_recorded]

theorem agrees_finishRound {desk after : Desk} {now : Instant} {clock : Timestamp}
    (h : desk.finishRound now clock = .ok after) (hl : desk.player.lines ≠ []) :
    after.player.Agrees (Round.after none desk.drawHappenings) := by
  rw [(finishRound_frame h).2]
  unfold drawHappenings
  obtain ⟨q, hq, hbegun, htext⟩ | ⟨hq, hrun⟩ :=
    desk.player.afterRound_cases desk.typing (desk.player.roundResult now) hl
  · rw [hq]
    dsimp only
    rw [← htext]
    exact Player.plays_of_begun hbegun
  · rw [hq]
    show Player.mode _ ≠ .practice
    rw [hrun]
    exact Mode.noConfusion

theorem agrees_ran {desk after : Desk} {round : Option Round} {now : Instant} {clock : Timestamp}
    {hs : List Happening} (hran : desk.Ran now clock after hs) (h : desk.player.Agrees round) :
    after.player.Agrees (Round.after round hs) := by
  cases hran with
  | closed hl => exact h
  | read hm =>
    rw [Player.eq_none_of_agrees h hm]
    exact agrees_scan hm
  | timedOut hm =>
    -- the round stays on, to be typed anew
    obtain ⟨r, rfl, hp⟩ := Player.plays_of_agrees h hm
    exact ⟨hp.lines, hm, hp.target, rfl, Session.timed_new⟩
  | pending hm =>
    obtain ⟨r, rfl, hp⟩ := Player.plays_of_agrees h hm
    exact hp.poll now
  | drew hm hl hfinish _ =>
    rw [after_finishHappenings _ hfinish]
    exact agrees_finishRound hfinish hl
  | readOn hm hl hfinish hdone =>
    -- no round is on between the record and what the script makes happen
    have hdrawn := agrees_finishRound hfinish hl
    rw [Round.after_append, after_finishHappenings _ hfinish, Player.eq_none_of_agrees hdrawn hdone]
    exact agrees_scan hdone

theorem agrees_entered {desk after : Desk} {round : Option Round} {now : Instant} {clock : Timestamp}
    {hs : List Happening} (hentered : desk.Entered now clock after hs) (h : desk.player.Agrees round) :
    after.player.Agrees (Round.after round hs) := by
  cases hentered with
  | left hm =>
    rw [Player.eq_none_of_agrees h hm]
    exact Mode.noConfusion
  | ignored => exact h
  | typed hm =>
    obtain ⟨r, rfl, hp⟩ := Player.plays_of_agrees h hm
    have hagrees : (desk.player.poll now).Agrees (some r) := hp.poll now
    exact Player.agrees_typing hagrees ['\n'] now
  | finished hm hfinish =>
    obtain ⟨r, rfl, hp⟩ := Player.plays_of_agrees h hm
    rw [after_finishHappenings _ hfinish]
    exact agrees_finishRound hfinish hp.lines

theorem agrees_attempt {desk after : Desk} {round : Option Round} {changed : Option Player} {answer : Option Bool}
    (h : desk.player.Agrees round) (hchanged : ∀ p, changed = some p → p.Agrees round)
    (hafter : desk.attempt changed = (answer, after)) : after.player.Agrees round := by
  cases changed with
  | none => cases hafter; exact h
  | some p => cases hafter; exact hchanged p rfl

/-- After a command the player still agrees with what has happened. -/
theorem agrees_perform {desk after : Desk} {round : Option Round} {clock : Timestamp} {command : Command}
    {answer : Option Bool} (hperform : desk.perform clock command = .ok (answer, after))
    (h : desk.player.Agrees round) :
    after.player.Agrees (Round.after round (desk.happenings clock command)) := by
  cases command with
  | run now => exact agrees_ran (run_of_perform hperform) h
  | enter now => exact agrees_entered (enter_of_perform hperform) h
  | select index =>
    exact agrees_attempt h (fun _ => Player.agrees_select h) (Except.ok.inj hperform)
  | selectKey key =>
    refine agrees_attempt h (fun q hq => ?_) (Except.ok.inj hperform)
    obtain ⟨index, -, hselect⟩ := Option.bind_eq_some_iff.1 hq
    exact Player.agrees_select h hselect
  | delete offset count =>
    exact agrees_attempt h (fun _ => Player.agrees_delete h) (Except.ok.inj hperform)
  | «open» lesson =>
    have hafter := Except.ok.inj hperform
    cases hopen : desk.player.open? desk.library lesson with
    | none =>
      rw [hopen] at hafter
      cases hafter
      rw [happenings, hopen]
      exact Player.agrees_leaving h (.inr ⟨desk.player.trail, rfl⟩)
    | some q =>
      rw [hopen] at hafter
      cases hafter
      rw [happenings, hopen]
      exact Player.agrees_leaving h (.inl (Player.not_practice_open hopen))
  | up => cases hperform; exact Player.agrees_leaving h (desk.player.up_cases desk.library)
  | escape => cases hperform; exact Player.agrees_escape h desk.library
  | quit => cases hperform; exact Player.agrees_quit h
  | backspace =>
    cases hperform
    exact Player.agrees_emptying h (Session.touches_backspace _) Session.timed_backspace
  | setPreedit preedit now =>
    cases hperform
    exact Player.agrees_emptying h (Session.touches_setPreedit ..) (Session.timed_setPreedit preedit now)
  | append t now => cases hperform; exact Player.agrees_typing h _ now
  | press key => cases hperform; exact Player.agrees_press h desk.typing.layout key
  | showStats => cases hperform; exact Player.agrees_showStats h

/-! ## Rounds that have just been started -/

theorem begun_scan {desk : Desk} {t : Text} {typing : Typing} (hm : desk.player.mode ≠ .practice)
    (h : .started t typing ∈ desk.scanHappenings) : desk.scan.2.player.Begun typing := by
  have hs : Player.Scanned desk.typing (desk.scan.1, desk.scan.2.player) :=
    Player.scanned_scan desk.library desk.typing hm
  unfold Player.Scanned at hs
  unfold scanHappenings at h
  split at h
  · rename_i hstarted
    cases List.mem_singleton.1 h
    rw [if_pos hstarted] at hs
    exact hs
  · cases h

theorem begun_finishRound {desk after : Desk} {now : Instant} {clock : Timestamp} {t : Text} {typing : Typing}
    (hfinish : desk.finishRound now clock = .ok after) (hl : desk.player.lines ≠ [])
    (h : .started t typing ∈ desk.finishHappenings now clock) : after.player.Begun typing := by
  rw [(finishRound_frame hfinish).2]
  rw [finishHappenings, hfinish] at h
  rcases List.mem_cons.1 h with h | h
  · cases h
  · unfold drawHappenings at h
    obtain ⟨q, hq, hbegun, -⟩ | ⟨hq, -⟩ :=
      desk.player.afterRound_cases desk.typing (desk.player.roundResult now) hl
    · dsimp only at h
      rw [hq] at h
      cases List.mem_singleton.1 h
      exact hbegun
    · dsimp only at h
      rw [hq] at h
      cases h

theorem begun_ran {desk after : Desk} {now : Instant} {clock : Timestamp} {hs : List Happening} {t : Text}
    {typing : Typing} (hran : desk.Ran now clock after hs) (h : .started t typing ∈ hs) :
    after.player.Begun typing := by
  cases hran with
  | closed | pending => cases h
  | read hm => exact begun_scan hm h
  | timedOut => cases List.mem_singleton.1 h
  | drew _ hl hfinish _ => exact begun_finishRound hfinish hl h
  | readOn _ hl hfinish hdone =>
    rcases List.mem_append.1 h with h | h
    · exact absurd (begun_finishRound hfinish hl h).mode hdone
    · exact begun_scan hdone h

theorem begun_entered {desk after : Desk} {round : Option Round} {now : Instant} {clock : Timestamp}
    {hs : List Happening} {t : Text} {typing : Typing} (hentered : desk.Entered now clock after hs)
    (h : .started t typing ∈ hs) (hagrees : desk.player.Agrees round) : after.player.Begun typing := by
  cases hentered with
  | left | ignored | typed => cases h
  | finished hm hfinish =>
    obtain ⟨r, -, hp⟩ := Player.plays_of_agrees hagrees hm
    exact begun_finishRound hfinish hp.lines h

/-- When a command starts a round, the player has not done anything in it yet. -/
theorem begun_perform {desk after : Desk} {round : Option Round} {clock : Timestamp} {command : Command}
    {answer : Option Bool} {t : Text} {typing : Typing} (hperform : desk.perform clock command = .ok (answer, after))
    (h : .started t typing ∈ desk.happenings clock command) (hagrees : desk.player.Agrees round) :
    after.player.Begun typing := by
  cases command with
  | run now => exact begun_ran (run_of_perform hperform) h
  | enter now => exact begun_entered (enter_of_perform hperform) h hagrees
  | press | backspace | setPreedit | «open» | up | escape | quit =>
    simp only [happenings, Player.leaving, Player.emptying] at h
    split at h
    · cases List.mem_singleton.1 h
    · cases h
  | select | selectKey | append | delete | showStats => cases h

end Desk

end KanaTutor
