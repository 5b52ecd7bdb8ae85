/-
Input outside a round: what a keyboard and an input method send while nothing is practised, as they may after the end of
a round whose text is still shown. Typing, taking back, pending text and keystrokes look at the mode first, and nothing
comes of them. Deleting does not look at it. So the text that is shown may lose characters then, and it does so exactly
if one of the deletions finds characters to delete; nothing else changes.
-/
import KanaTutor.Proofs.Lesson.Looks
import KanaTutor.Proofs.Lesson.Passages
import KanaTutor.Proofs.Practice.Deleting

namespace KanaTutor

/-! ## Input -/

namespace Command

/-- The command comes from a keyboard or an input method and is meant for a round. -/
def isInput : Command → Bool
  | .append _ _ | .backspace | .delete _ _ | .setPreedit _ _ | .press _ => true
  | _ => false

/-- The command deletes characters that the text has. -/
def Shortens (t : Text) : Command → Prop
  | .delete offset count => 0 < count ∧ 0 ≤ (t.length : Int) + offset ∧ (t.length : Int) + offset + count ≤ t.length
  | _ => False

/-- What an input leaves of the typed text when no round is practised. -/
def leaves (s : Session) : Command → Text
  | .delete offset count => ((s.delete? offset count).getD s).typed
  | _ => s.typed

theorem leaves_delete (s : Session) (offset : Int) (count : Nat) :
    leaves s (.delete offset count) = ((s.delete? offset count).getD s).typed :=
  rfl

end Command

/-- Commands have left some of the characters of a text, and all of them exactly if none of the commands deletes any. -/
structure Spared (commands : List Command) (t left : Text) : Prop where
  sublist : left.Sublist t
  whole : left = t ↔ ∀ c ∈ commands, ¬c.Shortens t

namespace Spared

variable {c : Command} {commands : List Command} {t left rest : Text}

theorem nil (t : Text) : Spared [] t t := ⟨.refl t, iff_of_true rfl nofun⟩

theorem of_not_shortens (h : ¬c.Shortens t) : Spared [c] t t :=
  ⟨.refl t, iff_of_true rfl (List.forall_mem_singleton.2 h)⟩

/-- A text that has lost characters does not get them back. -/
theorem cons (h : Spared [c] t left) (h' : Spared commands left rest) : Spared (c :: commands) t rest where
  sublist := h'.sublist.trans h.sublist
  whole := by
    have hfirst : left = t ↔ ¬c.Shortens t := h.whole.trans List.forall_mem_singleton
    rw [List.forall_mem_cons, ← hfirst]
    constructor
    · rintro rfl
      obtain rfl := h.sublist.eq_of_length_le h'.sublist.length_le
      exact ⟨rfl, h'.whole.1 rfl⟩
    · rintro ⟨rfl, hlater⟩
      exact h'.whole.2 hlater

end Spared

/-- A deletion leaves the characters around those that it deletes. -/
theorem Session.spared_delete {s left : Session} {offset : Int} {count : Nat}
    (h : s.delete? offset count = some left) : Spared [.delete offset count] s.typed left.typed := by
  have hin := isSome_delete?_iff.1 (Option.isSome_of_eq_some h)
  obtain ⟨front, gone, back, htyped, -, hgone, rfl⟩ := delete?_eq_some_iff.1 h
  have hsublist : (front ++ back).Sublist s.typed := by
    rw [htyped, List.append_assoc]
    exact (List.Sublist.refl front).append (List.sublist_append_right gone back)
  have hlength : (front ++ back).length + count = s.typed.length := by
    rw [htyped, ← hgone]
    simp only [List.length_append]
    omega
  refine ⟨hsublist, ?_⟩
  rw [List.forall_mem_singleton]
  constructor
  · intro hsame hshortens
    rw [show front ++ back = s.typed from hsame] at hlength
    exact absurd hshortens.1 (by omega)
  · intro hkeeps
    have hzero : count = 0 := Nat.eq_zero_of_not_pos fun hpos => hkeeps ⟨hpos, hin⟩
    exact hsublist.eq_of_length (by omega)

theorem Command.spared_leaves (s : Session) (c : Command) : Spared [c] s.typed (c.leaves s) := by
  cases c with
  | delete offset count =>
    cases hdelete : s.delete? offset count with
    | none =>
      rw [leaves_delete, hdelete, Option.getD_none]
      refine .of_not_shortens fun hshortens => ?_
      have hin := Session.isSome_delete?_iff.2 hshortens.2
      rw [hdelete] at hin
      cases hin
    | some left =>
      rw [leaves_delete, hdelete, Option.getD_some]
      exact Session.spared_delete hdelete
  | _ => exact .of_not_shortens not_false

/-! ## One input outside a round -/

namespace Player

/-- The player with another typed text. -/
def withTyped (p : Player) (t : Text) : Player := p.on { p.session with typed := t }

variable {p : Player}

theorem practise_of_mode (h : p.mode ≠ .practice) (f : Session → Session) : p.practise f = p := if_neg h

theorem press_of_mode (h : p.mode ≠ .practice) (layout : Layout) (key : KeyPress) : p.press layout key = p := by
  rw [press, practise_of_mode h, ite_self]

theorem withTyped_delete (p : Player) (offset : Int) (count : Nat) :
    (p.delete? offset count).getD p = p.withTyped (Command.leaves p.session (.delete offset count)) := by
  rw [delete?, Command.leaves_delete]
  cases hdelete : p.session.delete? offset count with
  | none => rfl
  | some left =>
    obtain ⟨front, gone, back, -, -, -, rfl⟩ := Session.delete?_eq_some_iff.1 hdelete
    rfl

/-- The result of a finished round is not told from its text. -/
theorem result_of_finished (p : Player) {r : RoundResult} (h : p.mode ≠ .practice) (hr : p.lastResult = some r)
    (now : Instant) : p.result now = (r, p) := by
  unfold result
  rw [hr]
  split
  · exact absurd ‹p.mode = .practice› h
  · rename_i hnone _
    cases hnone
  · rename_i hsome _
    cases hsome
    rfl

end Player

namespace Desk

variable {desk : Desk}

theorem withTyped_eq_iff {t : Text} :
    desk.withPlayer (desk.player.withTyped t) = desk ↔ t = desk.player.session.typed := by
  constructor
  · exact fun h => congrArg (·.player.session.typed) h
  · rintro rfl
    rfl

theorem attempt_getD (desk : Desk) (changed : Option Player) :
    desk.attempt changed = (some changed.isSome, desk.withPlayer (changed.getD desk.player)) := by
  cases changed <;> rfl

/-- Outside a round an input does not fail, and changes the typed text at most. -/
theorem perform_input (desk : Desk) (clock : Timestamp) {c : Command} (h : desk.player.mode ≠ .practice)
    (hc : c.isInput = true) :
    ∃ answer, desk.perform clock c =
      .ok (answer, desk.withPlayer (desk.player.withTyped (c.leaves desk.player.session))) := by
  -- all but deleting comes to nothing, because the player practises nothing
  have hignored : ∀ q, q = desk.player → ∃ answer : Option Bool, (.ok (none, desk.withPlayer q) : Except Fault _) =
      .ok (answer, desk.withPlayer (desk.player.withTyped desk.player.session.typed)) := by
    rintro _ rfl
    exact ⟨none, rfl⟩
  cases c with
  | append | backspace | setPreedit => exact hignored _ (Player.practise_of_mode h _)
  | press key => exact hignored _ (Player.press_of_mode h desk.typing.layout key)
  | delete offset count =>
    refine ⟨some (desk.player.delete? offset count).isSome, ?_⟩
    rw [perform, attempt_getD, Player.withTyped_delete]
  | _ => cases hc

end Desk

/-! ## Any number of inputs outside a round -/

theorem Player.after_inputs {p : Player} (h : p.mode ≠ .practice) {os : List Occasion}
    (hos : ∀ o ∈ os, o.command.isInput = true) :
    ∃ left, Spared (os.map (·.command)) p.session.typed left ∧ p.after? os = some (p.withTyped left) ∧
      ∀ log disk, loggedAfter p log disk os = .ok (log, disk) := by
  induction os generalizing p with
  | nil => exact ⟨p.session.typed, .nil _, rfl, fun _ _ => rfl⟩
  | cons o os ih =>
    rw [List.forall_mem_cons] at hos
    obtain ⟨left, hspared, hafter, hlogged⟩ := ih (p := p.withTyped (o.command.leaves p.session)) h hos.2
    refine ⟨left, (o.command.spared_leaves p.session).cons hspared, ?_, fun log disk => ?_⟩
    · obtain ⟨answer, hperform⟩ := (o.desk p).perform_input o.clock h hos.1
      have hnext : o.next? p = some (p.withTyped (o.command.leaves p.session)) := by
        rw [Occasion.next?, hperform]
        rfl
      rw [after_cons hnext, hafter]
      rfl
    · obtain ⟨answer, hperform⟩ := ((o.finding log disk).desk p).perform_input o.clock h hos.1
      rw [loggedAfter, hperform]
      exact hlogged log disk

/-- Where no round is practised, an input leaves the desk as it is exactly if it does not delete characters that the
typed text has. Any number of inputs, whatever log, disk and way of typing each of them finds, leave the player as it is
but for the typed text, and that has lost characters exactly if one of the inputs deletes some that it had at first.
They do not fail, they leave the log and the disk alone, and a finished round keeps its result. -/
theorem input_outside_round {desk : Desk} (h : desk.player.mode ≠ .practice) :
    (∀ (clock : Timestamp) (c : Command), c.isInput = true →
      ((∃ answer, desk.perform clock c = .ok (answer, desk)) ↔ ¬c.Shortens desk.player.session.typed)) ∧
    ∀ os : List Occasion, (∀ o ∈ os, o.command.isInput = true) →
      ∃ left, left.Sublist desk.player.session.typed ∧
        (left = desk.player.session.typed ↔ ∀ o ∈ os, ¬o.command.Shortens desk.player.session.typed) ∧
        desk.player.after? os = some (desk.player.withTyped left) ∧
        (∀ log disk, loggedAfter desk.player log disk os = .ok (log, disk)) ∧
        (desk.player.lastResult ≠ none → ∀ now,
          ((desk.player.withTyped left).result now).1 = (desk.player.result now).1) := by
  constructor
  · intro clock c hc
    obtain ⟨answer, hperform⟩ := desk.perform_input clock h hc
    have hkept : desk.withPlayer (desk.player.withTyped (c.leaves desk.player.session)) = desk ↔
        ¬c.Shortens desk.player.session.typed := by
      rw [Desk.withTyped_eq_iff, (c.spared_leaves desk.player.session).whole, List.forall_mem_singleton]
    rw [hperform, ← hkept]
    constructor
    · rintro ⟨answer', hsame⟩
      exact (Prod.mk.inj (Except.ok.inj hsame)).2
    · intro hsame
      exact ⟨answer, by rw [hsame]⟩
  · intro os hos
    obtain ⟨left, hspared, hafter, hlogged⟩ := Player.after_inputs h hos
    refine ⟨left, hspared.sublist, ?_, hafter, hlogged, fun hlast now => ?_⟩
    · rw [hspared.whole, List.forall_mem_map]
    · obtain ⟨r, hr⟩ := Option.ne_none_iff_exists'.1 hlast
      rw [(desk.player.withTyped left).result_of_finished h hr, desk.player.result_of_finished h hr]

/-! ## Input while the score is shown -/

namespace ScoreShown

open OneLetter (clock typed)

/-- A disk with one lesson, which has the learner type one letter and shows the score. -/
def disk : Disk := ⟨[([['a']], .file (Utf8.encode ":text\nx\n:start\n:show_score\n".toList))], []⟩

def asked (command : Command) : Occasion := ⟨command, clock, {}, { path := [] }, disk⟩

def lines : List Text := [":text\n".toList, "x\n".toList, ":start\n".toList, ":show_score\n".toList]

def opened : Player := { OneLetter.opened with lines }

def practising (session : Session) : Player := { OneLetter.practising session with lines }

/-- The player after the letter is typed and confirmed. -/
def finished : Player :=
  { practising (typed ['x'] .zero (some .zero)) with mode := .run, lastResult := some ⟨1, 0, .zero⟩ }

/-- The player that shows the score. -/
def scored : Player := { finished with mode := .score, position := 4 }

/-- The occasions of the whole lesson. -/
def lesson : List Occasion :=
  [.open ['a'], .run .zero, .append ['x'] .zero, .enter .zero, .run .zero].map asked

theorem scan_opened : opened.scan disk.readText? {} = (true, practising {}) := by
  have hlines : opened.lines.drop opened.position = lines.take 2 ++ ":start\n".toList :: lines.drop 3 := rfl
  have hsetup : ∀ l ∈ lines.take 2, ∀ d ∈ directive? l, d.isSetup = true := by decide +kernel
  have hround : opened.beginning {} 3 [] (lines.take 2) = practising {} := by decide +kernel
  rw [← hround]
  exact Player.scanFrom_start disk.readText? {} 16 opened.maxVisits 3 [] opened rfl hlines (by decide +kernel) hsetup
    (by decide) rfl

theorem scan_finished : finished.scan disk.readText? {} = (false, scored) :=
  Player.scan_of_stop rfl (by decide) rfl rfl

theorem after_lesson : OneLetter.idle.after? lesson = some scored := by
  have hopen : (asked (.open ['a'])).next? OneLetter.idle = some opened := by decide +kernel
  have hstart : (asked (.run .zero)).next? opened = some (practising {}) :=
    Occasion.next_scan rfl (by decide) (by decide) scan_opened
  have htype : (asked (.append ['x'] .zero)).next? (practising {}) =
      some (practising (typed ['x'] .zero none)) := by
    decide +kernel
  have hfinish : (asked (.enter .zero)).next? (practising (typed ['x'] .zero none)) = some finished := by
    decide +kernel
  have hscore : (asked (.run .zero)).next? finished = some scored :=
    Occasion.next_scan rfl (by decide) (by decide) scan_finished
  rw [lesson, List.map_cons, after_cons hopen, List.map_cons, after_cons hstart, List.map_cons, after_cons htype,
    List.map_cons, after_cons hfinish, List.map_cons, after_cons hscore]
  rfl

/-- The desk at which the score is shown. -/
def desk : Desk := ⟨scored, {}, { path := [] }, disk⟩

/-- Inputs of all kinds that come too late; the deletions are of a character that is not there, and of none. -/
def late : List Occasion :=
  [.append ['y'] .zero, .backspace, .setPreedit { text := ['y'] } .zero, .press ⟨.char 'y', false⟩, .delete (-2) 1,
    .delete 0 0].map asked

end ScoreShown

open ScoreShown in
/-- After inputs of all kinds the score screen is what it was. -/
theorem input_outside_round_score :
    OneLetter.idle.after? lesson = some desk.player ∧ desk.player.mode = .score ∧ desk.player.mode ≠ .practice ∧
      (∃ answer, desk.perform OneLetter.clock .backspace = .ok (answer, desk)) ∧ (∀ o ∈ late, o.command.isInput = true) ∧
      (∀ o ∈ late, ¬o.command.Shortens desk.player.session.typed) ∧ desk.player.after? late = some desk.player := by
  have hmode : desk.player.mode ≠ .practice := by decide
  have hlate : ∀ o ∈ late, o.command.isInput = true := by decide
  have hkeeps : ∀ o ∈ late, ¬o.command.Shortens ['x'] := by
    simp [late, asked, Command.Shortens]
  obtain ⟨hone, hall⟩ := input_outside_round hmode
  obtain ⟨left, -, hwhole, hafter, -⟩ := hall late hlate
  obtain rfl := hwhole.2 hkeeps
  exact ⟨after_lesson, rfl, hmode, (hone OneLetter.clock .backspace rfl).2 not_false, hlate, hkeeps, hafter⟩

open ScoreShown in
/-- An input method deletes the letter of the finished round while the score is shown. -/
theorem deleted_on_score :
    OneLetter.idle.after? lesson = some desk.player ∧ desk.player.mode = .score ∧ desk.player.session.typed = ['x'] ∧
      ∃ after, desk.perform OneLetter.clock (.delete (-1) 1) = .ok (some true, after) ∧
        after.player.session.typed = [] ∧ after.player ≠ desk.player :=
  ⟨after_lesson, rfl, rfl, _, rfl, rfl, by decide⟩

end KanaTutor
