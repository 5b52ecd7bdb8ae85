/-
Between two commands the player waits: it never stands in a block whose content lines it collects. Only reading
the script collects them, and reading ends elsewhere.
-/
import KanaTutor.Proofs.Lesson.History
import KanaTutor.Proofs.Lesson.Reading

namespace KanaTutor

/-- The player collects the content lines of a block. -/
def Mode.isCollecting : Mode → Bool
  | .text | .hint => true
  | _ => false

namespace Player

theorem isCollecting_open {p q : Player} {library : Library} {name : Text} (h : p.open? library name = some q) :
    q.mode.isCollecting = false := by
  rw [mode_open h]
  rfl

theorem eq_run_of_isReading {m : Mode} (hreads : m.isReading = true) (h : m.isCollecting = false) : m = .run := by
  rcases Mode.cases_of_isReading hreads with hm | rfl | rfl
  · exact hm
  · cases h
  · cases h

theorem isCollecting_scan {p : Player} (library : Library) (typing : Typing) (h : p.mode.isCollecting = false) :
    (p.scan library typing).2.mode.isCollecting = false := by
  by_cases hreads : p.mode.isReading = true
  · obtain ⟨n, last, -, -, ⟨q, -, hscan, hm⟩ | ⟨q, -, hscan, hm | hm⟩ | ⟨r, -, -, hscan⟩⟩ :=
      endsAfter_scan_cases library typing (eq_run_of_isReading hreads h)
    · rw [hscan, hm]
      rfl
    · rw [hscan, hm]
      rfl
    · rw [hscan, hm]
      rfl
    · rw [hscan]
      rfl
  · rw [scan, scanFrom_of_not_reading (by simpa using hreads)]
    exact h

theorem isCollecting_openOrStay {p : Player} (library : Library) (name : Text) (h : p.mode.isCollecting = false) :
    (p.openOrStay library name).player.mode.isCollecting = false := by
  unfold openOrStay
  split
  · rename_i q hq
    exact isCollecting_open hq
  · exact h

theorem isCollecting_up {p : Player} (library : Library) (h : p.mode.isCollecting = false) :
    (p.up library).mode.isCollecting = false := by
  unfold up goUp
  split
  · exact h
  · rename_i name trail _
    exact isCollecting_openOrStay (p := { p with trail }) library name h

theorem isCollecting_practise {p : Player} (f : Session → Session) (h : p.mode.isCollecting = false) :
    (p.practise f).mode.isCollecting = false := by
  unfold practise
  split
  · exact h
  · exact h

theorem isCollecting_showStats {p : Player} (h : p.mode.isCollecting = false) :
    p.showStats.mode.isCollecting = false := by
  unfold showStats
  split
  · rfl
  · exact h

theorem isCollecting_select {p q : Player} {library : Library} {index : Nat} (h : p.mode.isCollecting = false)
    (hq : p.select? library index = some q) : q.mode.isCollecting = false := by
  unfold select? at hq
  split at hq
  · cases hq
  · obtain ⟨target, -, rfl⟩ := Option.map_eq_some_iff.1 hq
    split
    · exact isCollecting_showStats h
    · split
      · exact isCollecting_up library h
      · split
        · rfl
        · exact isCollecting_openOrStay library target h

theorem isCollecting_afterRound (p : Player) (typing : Typing) (r : RoundResult) :
    (p.afterRound typing r).mode.isCollecting = false := by
  unfold afterRound nextRound?
  cases hdraw : p.pool.nextRound? p.source with
  | none =>
    simp only [hdraw, Option.map_none, Option.getD_none]
    rfl
  | some drawn =>
    simp only [hdraw, Option.map_some, Option.getD_some]
    rfl

end Player

namespace Desk

theorem isCollecting_finishRound {desk after : Desk} {now : Instant} {clock : Timestamp}
    (h : desk.finishRound now clock = .ok after) : after.player.mode.isCollecting = false := by
  rw [(finishRound_frame h).2]
  exact Player.isCollecting_afterRound _ _ _

theorem isCollecting_ran {desk after : Desk} {now : Instant} {clock : Timestamp} {hs : List Happening}
    (hran : desk.Ran now clock after hs) (h : desk.player.mode.isCollecting = false) :
    after.player.mode.isCollecting = false := by
  cases hran with
  | closed => exact h
  | read => exact Player.isCollecting_scan _ _ h
  | timedOut | pending => exact h
  | drew _ _ hfinish => exact isCollecting_finishRound hfinish
  | readOn _ _ hfinish => exact Player.isCollecting_scan _ _ (isCollecting_finishRound hfinish)

theorem isCollecting_entered {desk after : Desk} {now : Instant} {clock : Timestamp} {hs : List Happening}
    (hentered : desk.Entered now clock after hs) (h : desk.player.mode.isCollecting = false) :
    after.player.mode.isCollecting = false := by
  cases hentered with
  | left => rfl
  | ignored => exact h
  | typed => exact Player.isCollecting_practise (p := desk.player.poll now) _ h
  | finished _ hfinish => exact isCollecting_finishRound hfinish

theorem isCollecting_attempt {desk after : Desk} {changed : Option Player} {answer : Option Bool}
    (h : desk.player.mode.isCollecting = false) (hchanged : ∀ p, changed = some p → p.mode.isCollecting = false)
    (hafter : desk.attempt changed = (answer, after)) : after.player.mode.isCollecting = false := by
  cases changed with
  | none => cases hafter; exact h
  | some p => cases hafter; exact hchanged p rfl

/-- No command leaves a player that collects the content lines of a block. -/
theorem isCollecting_perform {desk after : Desk} {clock : Timestamp} {command : Command} {answer : Option Bool}
    (hperform : desk.perform clock command = .ok (answer, after)) (h : desk.player.mode.isCollecting = false) :
    after.player.mode.isCollecting = false := by
  cases command with
  | run now => exact isCollecting_ran (run_of_perform hperform) h
  | enter now => exact isCollecting_entered (enter_of_perform hperform) h
  | «open» lesson =>
    refine isCollecting_attempt h (fun q hq => ?_) (Except.ok.inj hperform)
    exact Player.isCollecting_open hq
  | select index => exact isCollecting_attempt h (fun _ => Player.isCollecting_select h) (Except.ok.inj hperform)
  | selectKey key =>
    refine isCollecting_attempt h (fun q hq => ?_) (Except.ok.inj hperform)
    obtain ⟨index, -, hselect⟩ := Option.bind_eq_some_iff.1 hq
    exact Player.isCollecting_select h hselect
  | delete offset count =>
    refine isCollecting_attempt h (fun q hq => ?_) (Except.ok.inj hperform)
    obtain ⟨s, -, rfl⟩ := Option.map_eq_some_iff.1 hq
    exact h
  | up => cases hperform; exact Player.isCollecting_up desk.library h
  | escape =>
    cases hperform
    show (desk.player.escape desk.library).mode.isCollecting = false
    unfold Player.escape
    split
    · rfl
    · exact Player.isCollecting_up desk.library h
  | quit => cases hperform; rfl
  | backspace | setPreedit | append => cases hperform; exact Player.isCollecting_practise _ h
  | press key =>
    cases hperform
    show (desk.player.press desk.typing.layout key).mode.isCollecting = false
    unfold Player.press
    split
    · exact Player.isCollecting_practise _ h
    · exact h
  | showStats => cases hperform; exact Player.isCollecting_showStats h

end Desk

theorem isCollecting_after {p q : Player} {os : List Occasion} (h : p.mode.isCollecting = false)
    (hq : p.after? os = some q) : q.mode.isCollecting = false := by
  induction os generalizing p with
  | nil => cases hq; exact h
  | cons o os ih =>
    obtain ⟨p', hnext, hafter⟩ := Option.bind_eq_some_iff.1 hq
    unfold Occasion.next? at hnext
    split at hnext
    · rename_i answer after hperform
      cases hnext
      exact ih (Desk.isCollecting_perform hperform h) hafter
    · cases hnext

/-- Reading a script ends. A player between two blocks visits no more lines than seventeen times twice the lines of
the longest lesson and one, and then a round has started, a menu or the score is shown, or the script has been
given up. So a new player never collects the content lines of a block when a command is done. -/
theorem scan_ends :
    (∀ (library : Library) (typing : Typing) (p : Player), p.mode = .run →
      ∃ n last, (Turn.onward { player := p }).EndsAfter library typing n last ∧
        n ≤ 17 * (2 * p.longest library typing n + 1) ∧
        ((∃ q, last = .left true q ∧ p.scan library typing = (true, q) ∧ q.mode = .practice) ∨
          (∃ q, last = .left false q ∧ p.scan library typing = (false, q) ∧ (q.mode = .menu ∨ q.mode = .score)) ∨
          ∃ r, last = .onward r ∧ r.isSpent = true ∧
            p.scan library typing = (false, { r.player with mode := .run }))) ∧
    ∀ (lessonDir : Path) (finishDelay : Duration) (source : Xoshiro) (os : List Occasion) (p : Player),
      (Player.new lessonDir finishDelay source).after? os = some p → p.mode ≠ .text ∧ p.mode ≠ .hint := by
  constructor
  · intro library typing p hm
    exact Player.endsAfter_scan_cases library typing hm
  · intro lessonDir finishDelay source os p hafter
    have hcollects := isCollecting_after (p := .new lessonDir finishDelay source) rfl hafter
    constructor
    · intro hm
      rw [hm] at hcollects
      cases hcollects
    · intro hm
      rw [hm] at hcollects
      cases hcollects

open OneLetter in
/-- The script of the lesson with one letter is read to its start, and a new player that opens the lesson and goes on
waits in the round. -/
theorem scan_ends_letter :
    opened.mode = .run ∧
    (∃ n, (Turn.onward { player := opened }).EndsAfter disk.readText? {} n (.left true (practising {})) ∧
      n ≤ 17 * (2 * opened.longest disk.readText? {} n + 1)) ∧
    idle.after? [asked (.open ['a']), asked (.run .zero)] = some (practising {}) ∧
    (practising {}).mode ≠ .text ∧ (practising {}).mode ≠ .hint := by
  have hm : opened.mode = .run := rfl
  have hafter : idle.after? [asked (.open ['a']), asked (.run .zero)] = some (practising {}) := by
    rw [after_cons next_open, after_cons next_run]
    rfl
  obtain ⟨n, last, hends, hn, hlast⟩ := scan_ends.1 disk.readText? {} opened hm
  refine ⟨hm, ⟨n, ?_, hn⟩, hafter, scan_ends.2 [] (.ofMillis 1000) ⟨1, 2, 3, 4⟩ _ _ hafter⟩
  -- the script is left with a round, so it is not given up and no menu is shown
  rw [scan_opened] at hlast
  rcases hlast with ⟨q, rfl, hscan, -⟩ | ⟨q, -, hscan, -⟩ | ⟨r, -, -, hscan⟩
  · obtain ⟨-, rfl⟩ := Prod.mk.inj hscan
    exact hends
  · cases (Prod.mk.inj hscan).1
  · cases (Prod.mk.inj hscan).1

end KanaTutor
