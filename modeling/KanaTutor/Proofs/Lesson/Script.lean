/-
What reading the script leaves behind. Until the script starts a round the player never practises; when
it does, the round is new and its target is that of the text that was started.
-/
import KanaTutor.Lesson.Desk

namespace KanaTutor

/-- A round of a text has just begun, typed in the given way. -/
structure Player.Begun (typing : Typing) (p : Player) : Prop where
  lines : p.lines ≠ []
  mode : p.mode = .practice
  session : p.session = {}
  target : p.target = .ofText typing p.text

/-- What an outcome of a line of the script is, for a player that does not practise. -/
def Player.Outcome.Sound (typing : Typing) : Player.Outcome → Prop
  | .ongoing p => p.lines ≠ [] ∧ p.mode ≠ .practice
  | .opened p => p.mode = .run
  | .started p => p.Begun typing

namespace Player

/-! ## Opening lessons -/

theorem mode_open {p q : Player} {library : Library} {name : Text} (h : p.open? library name = some q) :
    q.mode = .run := by
  obtain ⟨content, -, rfl⟩ := Option.map_eq_some_iff.1 h
  rfl

theorem not_practice_open {p q : Player} {library : Library} {name : Text} (h : p.open? library name = some q) :
    q.mode ≠ .practice := by
  rw [mode_open h]
  exact Mode.noConfusion

theorem openOrStay_cases (p : Player) (library : Library) (name : Text) :
    (p.openOrStay library name).player.mode ≠ .practice ∨ (p.openOrStay library name).player = p := by
  unfold openOrStay
  split
  · rename_i q hq
    exact .inl (not_practice_open hq)
  · exact .inr rfl

/-- Going back opens a lesson, or changes no more than the trail. -/
theorem up_cases (p : Player) (library : Library) :
    (p.up library).mode ≠ .practice ∨ ∃ trail, p.up library = { p with trail } := by
  unfold up goUp
  split
  · exact .inr ⟨p.trail, rfl⟩
  · rename_i name trail _
    rcases openOrStay_cases { p with trail } library name with hopened | hstayed
    · exact .inl hopened
    · exact .inr ⟨trail, hstayed⟩

theorem sound_openOrStay (typing : Typing) {p : Player} {library : Library} (name : Text)
    (hl : p.lines ≠ []) (hm : p.mode ≠ .practice) : (p.openOrStay library name).outcome.Sound typing := by
  unfold openOrStay
  split
  · rename_i q hq
    exact mode_open hq
  · exact ⟨hl, hm⟩

theorem sound_goUp (typing : Typing) {p : Player} {library : Library} (hl : p.lines ≠ [])
    (hm : p.mode ≠ .practice) : (p.goUp library).outcome.Sound typing := by
  unfold goUp
  split
  · exact ⟨hl, hm⟩
  · exact sound_openOrStay typing _ hl hm

theorem sound_goNext (typing : Typing) {p : Player} {library : Library} (target : Option Text)
    (hl : p.lines ≠ []) (hm : p.mode ≠ .practice) : (p.goNext library target).outcome.Sound typing := by
  unfold goNext
  split
  · exact sound_openOrStay typing _ hl hm
  · split
    · exact sound_openOrStay typing _ hl hm
    · exact sound_goUp typing hl hm

/-! ## Beginning rounds -/

theorem begun_startRound {p : Player} (typing : Typing) (t : Text) (hl : p.lines ≠ []) :
    (p.startRound typing t).Begun typing :=
  ⟨hl, rfl, rfl, rfl⟩

theorem begun_nextRound {p q : Player} {typing : Typing} (h : p.nextRound? typing = some q)
    (hl : p.lines ≠ []) : q.Begun typing := by
  obtain ⟨⟨t, pool, source⟩, -, rfl⟩ := Option.map_eq_some_iff.1 h
  exact begun_startRound typing t hl

/-- After a round the next one begins, if one can be drawn, and otherwise the script goes on. -/
theorem afterRound_cases (p : Player) (typing : Typing) (r : RoundResult) (hl : p.lines ≠ []) :
    (∃ q, p.nextRound? typing = some q ∧ (p.afterRound typing r).Begun typing ∧
        (p.afterRound typing r).text = q.text) ∨
      (p.nextRound? typing = none ∧ (p.afterRound typing r).mode = .run) := by
  unfold afterRound nextRound?
  cases hdraw : p.pool.nextRound? p.source with
  | none => exact .inr ⟨rfl, by simp [hdraw]⟩
  | some drawn =>
    obtain ⟨t, pool, source⟩ := drawn
    refine .inl ⟨_, rfl, ?_, ?_⟩
    · simp only [hdraw, Option.map_some, Option.getD_some]
      exact begun_startRound typing t hl
    · simp only [hdraw, Option.map_some, Option.getD_some]
      rfl

/-! ## Lines -/

theorem sound_follow (typing : Typing) {p : Player} (library : Library) (d : Directive) (hl : p.lines ≠ [])
    (hm : p.mode ≠ .practice) : (p.follow library typing d).Sound typing := by
  cases d with
  | title | imeMode | keyboard | zenkaku | unknown => exact ⟨hl, hm⟩
  | text | hint | showScore | menu => exact ⟨hl, Mode.noConfusion⟩
  | start => exact begun_startRound typing _ hl
  | up => exact sound_goUp typing hl hm
  | next target => exact sound_goNext typing target hl hm
  | random lines rounds =>
    unfold follow
    dsimp only
    split
    · rename_i q hq
      exact begun_nextRound hq hl
    · exact ⟨hl, hm⟩

theorem takeLine_frame (p : Player) : p.takeLine.2.lines = p.lines ∧ p.takeLine.2.mode = p.mode := ⟨rfl, rfl⟩

theorem endBlock_frame (p : Player) (typing : Typing) (content : Text) :
    (p.endBlock typing content).lines = p.lines ∧
      (p.mode ≠ .practice → (p.endBlock typing content).mode ≠ .practice) := by
  unfold endBlock
  split
  · exact ⟨rfl, fun _ => Mode.noConfusion⟩
  · exact ⟨rfl, fun _ => Mode.noConfusion⟩
  · exact ⟨rfl, id⟩

theorem sound_readNext (typing : Typing) {p : Player} (library : Library) (content : Text) (hl : p.lines ≠ [])
    (hm : p.mode ≠ .practice) : (p.readNext library typing content).2.Sound typing := by
  unfold readNext
  obtain ⟨hl', hm'⟩ := takeLine_frame p
  generalize p.takeLine = taken at hl' hm'
  obtain ⟨line, q⟩ := taken
  dsimp only at hl' hm' ⊢
  rw [← hl'] at hl
  rw [← hm'] at hm
  split
  · split
    · exact ⟨hl, hm⟩
    · exact ⟨hl, hm⟩
    · exact ⟨hl, hm⟩
  · obtain ⟨hlines, hmode⟩ := endBlock_frame q typing content
    exact sound_follow typing library _ (hlines ▸ hl) (hmode hm)

/-! ## The script -/

/-- What reading the script tells is true: a round has begun, or the player does not practise. -/
def Scanned (typing : Typing) (r : Bool × Player) : Prop :=
  if r.1 then r.2.Begun typing else r.2.mode ≠ .practice

theorem scanFrom_started {library : Library} {typing : Typing} {content rest : Text} {p q : Player}
    (opens visits : Nat) (hreads : ¬(!p.mode.isReading)) (hl : ¬p.lines.isEmpty)
    (hread : p.readNext library typing content = (rest, .started q)) :
    scanFrom library typing (opens + 1) (visits + 1) content p = (true, q) := by
  rw [scanFrom, if_neg hreads, if_neg hl, hread]

/-- A line that neither starts a round nor opens a lesson is followed by the next one. -/
theorem scanFrom_ongoing {library : Library} {typing : Typing} {content rest : Text} {p q : Player}
    (opens visits : Nat) (hreads : ¬(!p.mode.isReading)) (hl : ¬p.lines.isEmpty)
    (hread : p.readNext library typing content = (rest, .ongoing q)) :
    scanFrom library typing (opens + 1) (visits + 1) content p =
      scanFrom library typing (opens + 1) visits rest q := by
  rw [scanFrom, if_neg hreads, if_neg hl, hread]

theorem scanned_giveUp (typing : Typing) {p : Player} (hm : p.mode ≠ .practice) :
    Scanned typing (false, if p.mode.isReading then { p with mode := .run } else p) := by
  show Player.mode _ ≠ .practice
  split
  · exact Mode.noConfusion
  · exact hm

theorem scanned_scanFrom (library : Library) (typing : Typing) (opens visits : Nat) (content : Text) (p : Player)
    (hm : p.mode ≠ .practice) : Scanned typing (scanFrom library typing opens visits content p) := by
  -- every line that does not start a round leaves a player that does not practise
  induction opens, visits, content, p using scanFrom.induct library typing with
  | case1 opens visits content p hreads =>
    rw [scanFrom, if_pos hreads]
    exact hm
  | case2 opens visits content p hreads hl =>
    rw [scanFrom, if_neg hreads, if_pos hl]
    exact Mode.noConfusion
  | case3 opens visits content p hreads hl rest q hread =>
    rw [scanFrom_started _ _ hreads hl hread]
    have hs := sound_readNext typing library content (by simpa using hl) hm
    rw [hread] at hs
    exact hs
  | case4 opens visits content p hreads hl rest q hread ih =>
    rw [scanFrom, if_neg hreads, if_neg hl, hread]
    have hs := sound_readNext typing library content (by simpa using hl) hm
    rw [hread] at hs
    have hrun : q.mode = .run := hs
    -- a lesson that is opened is read on with lines and openings of its own
    exact ih (by rw [hrun]; exact Mode.noConfusion)
  | case5 opens visits content p hreads hl rest q hread ih =>
    rw [scanFrom_ongoing _ _ hreads hl hread]
    have hs := sound_readNext typing library content (by simpa using hl) hm
    rw [hread] at hs
    exact ih hs.2
  | case6 visits content p =>
    rw [scanFrom]
    exact scanned_giveUp typing hm
  | case7 opens content p hopens =>
    rw [scanFrom.eq_3 _ _ _ _ _ hopens]
    exact scanned_giveUp typing hm

theorem scanned_scan {p : Player} (library : Library) (typing : Typing) (hm : p.mode ≠ .practice) :
    Scanned typing (p.scan library typing) :=
  scanned_scanFrom library typing _ _ _ p hm

end Player

/-! ## The script at a desk -/

namespace Desk

variable {p : Player} {started : Bool}

theorem scan_eq (desk : Desk) (h : desk.player.scan desk.library desk.typing = (started, p)) :
    desk.scan = (started, desk.withPlayer p) := by
  unfold scan
  rw [h]

/-- A player with a lesson reads on when it does not practise. -/
theorem run_scan (desk : Desk) (now : Instant) (clock : Timestamp) (hl : ¬desk.player.lines.isEmpty)
    (hm : desk.player.mode ≠ .practice) (h : desk.player.scan desk.library desk.typing = (started, p)) :
    desk.run now clock = .ok (started, desk.withPlayer p) := by
  rw [run, if_neg hl, if_pos hm, scan_eq desk h]

end Desk

end KanaTutor
