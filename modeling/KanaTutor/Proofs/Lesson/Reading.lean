/-
A script read line by line, with nothing to stop it, and when the player stops: it leaves the script for a
round, a menu or the score, or it gives up because it has read the lesson twice and one line more or has
opened too many lessons. What it gives up for is counted from the lesson that was opened last, so the count
of lines alone proves nothing: what falls with every line is the lines that may still be read of this lesson
together with those of all lessons that may still be opened.
-/
import KanaTutor.Proofs.Lesson.Script
import Mathlib.Logic.Function.Iterate

namespace KanaTutor

/-! ## Line by line -/

theorem Mode.cases_of_isReading {m : Mode} (h : m.isReading = true) : m = .run ∨ m = .text ∨ m = .hint := by
  cases m with
  | run => exact .inl rfl
  | text => exact .inr (.inl rfl)
  | hint => exact .inr (.inr rfl)
  | menu | practice | score | stats | exit => cases h

theorem Player.isReading_of_run {p : Player} (h : p.mode = .run) : p.mode.isReading = true := by
  rw [h]
  rfl

/-- A player in a script: with the content lines of the block it is in, the number of lines it has read of the
lesson, and the number of lessons it has opened. -/
structure Reader where
  player : Player
  content : Text := []
  visits : Nat := 0
  opens : Nat := 0

/-- Where a line leads to: the script goes on, or it is left, with a new round or without. -/
inductive Turn where
  | onward (r : Reader)
  | left (started : Bool) (p : Player)

namespace Reader

def turn (library : Library) (typing : Typing) (r : Reader) : Turn :=
  match r.player.readNext library typing r.content with
  | (_, .started q) => .left true q
  | (_, .opened q) => .onward ⟨q, [], 0, r.opens + 1⟩
  | (content, .ongoing q) =>
    if q.mode.isReading then .onward ⟨q, content, r.visits + 1, r.opens⟩ else .left false q

/-- The script is given up: the lesson has no lines, or more than twice as many lines as it has have been read,
or too many lessons have been opened. -/
def isSpent (r : Reader) : Bool :=
  r.player.lines.isEmpty || r.player.maxVisits ≤ r.visits || Player.maxOpens ≤ r.opens

theorem isSpent_eq_false {r : Reader} :
    r.isSpent = false ↔ r.player.lines ≠ [] ∧ r.visits < r.player.maxVisits ∧ r.opens < Player.maxOpens := by
  rw [isSpent, Bool.or_eq_false_iff, Bool.or_eq_false_iff, decide_eq_false_iff_not, decide_eq_false_iff_not,
    Nat.not_le, Nat.not_le, and_assoc]
  simp

theorem goes_on {p : Player} (content : Text) {opens visits opened visited : Nat} (hl : ¬p.lines.isEmpty)
    (hopens : opens + 1 + opened = Player.maxOpens) (hvisits : visits + 1 + visited = p.maxVisits) :
    isSpent ⟨p, content, visited, opened⟩ = false := by
  refine isSpent_eq_false.2 ⟨by simpa using hl, ?_, ?_⟩
  · show visited < p.maxVisits
    omega
  · show opened < Player.maxOpens
    omega

end Reader

namespace Turn

/-- Reads one line more, unless the script is left. -/
def next (library : Library) (typing : Typing) : Turn → Turn
  | onward r => r.turn library typing
  | left started p => left started p

def player : Turn → Player
  | onward r => r.player
  | left _ p => p

/-- The script is left or given up. -/
def isOver : Turn → Bool
  | onward r => r.isSpent
  | left _ _ => true

/-- What the player tells of the script when it is over: whether a round has started, and the player. -/
def result : Turn → Bool × Player
  | onward r => (false, { r.player with mode := .run })
  | left started p => (started, p)

/-- The script is over after `n` lines and not before. -/
structure EndsAfter (library : Library) (typing : Typing) (t : Turn) (n : Nat) (last : Turn) : Prop where
  goes : ∀ i < n, ((next library typing)^[i] t).isOver = false
  reaches : (next library typing)^[n] t = last
  stops : last.isOver = true

variable {library : Library} {typing : Typing}

theorem EndsAfter.zero {t : Turn} (h : t.isOver = true) : t.EndsAfter library typing 0 t :=
  ⟨fun i hi => absurd hi (Nat.not_lt_zero i), rfl, h⟩

theorem EndsAfter.succ {t last : Turn} {n : Nat} (h : t.isOver = false)
    (hnext : (t.next library typing).EndsAfter library typing n last) :
    t.EndsAfter library typing (n + 1) last where
  goes := by
    intro i hi
    cases i with
    | zero => exact h
    | succ i => exact hnext.goes i (by omega)
  reaches := hnext.reaches
  stops := hnext.stops

theorem EndsAfter.unique {t last last' : Turn} {n n' : Nat} (h : t.EndsAfter library typing n last)
    (h' : t.EndsAfter library typing n' last') : n = n' ∧ last = last' := by
  have hle : ∀ {m m' last last'}, t.EndsAfter library typing m last → t.EndsAfter library typing m' last' →
      m' ≤ m := by
    intro m m' last last' hm hm'
    by_contra hlt
    have hgoes := hm'.goes m (by omega)
    rw [hm.reaches, hm.stops] at hgoes
    cases hgoes
  have hn : n = n' := Nat.le_antisymm (hle h' h) (hle h h')
  refine ⟨hn, ?_⟩
  rw [← h.reaches, ← h'.reaches, hn]

end Turn

/-- The script of a player after `n` lines, with nothing to stop it. -/
def Player.turnAt (p : Player) (library : Library) (typing : Typing) (n : Nat) : Turn :=
  (Turn.next library typing)^[n] (.onward { player := p })

/-! ## Lines left to read -/

namespace Turn

variable {library : Library} {typing : Typing}

/-- The lines that may be read until the script is given up, if no lesson has more than `longest` lines. -/
def linesLeft (longest : Nat) : Turn → Nat
  | onward r => (Player.maxOpens - r.opens) * (2 * longest + 1) - r.visits
  | left _ _ => 0

theorem linesLeft_next (library : Library) (typing : Typing) {t : Turn} {longest : Nat} (h : t.isOver = false)
    (hl : t.player.lines.length ≤ longest) :
    (t.next library typing).linesLeft longest + 1 ≤ t.linesLeft longest := by
  cases t with
  | left => cases h
  | onward r =>
    obtain ⟨-, hvisits, hopens⟩ := Reader.isSpent_eq_false.1 h
    rw [Player.maxVisits] at hvisits
    have hl : r.player.lines.length ≤ longest := hl
    obtain ⟨more, hmore⟩ : ∃ more, Player.maxOpens - r.opens = more + 1 := ⟨Player.maxOpens - r.opens - 1, by omega⟩
    -- a lesson's worth of lines for this lesson, and one for each that may still be opened
    have hsplit :
        (Player.maxOpens - r.opens) * (2 * longest + 1) = more * (2 * longest + 1) + (2 * longest + 1) := by
      rw [hmore, Nat.succ_mul]
    have hopened : Player.maxOpens - (r.opens + 1) = more := by omega
    show (r.turn library typing).linesLeft longest + 1 ≤ _
    unfold Reader.turn
    split
    · simp only [linesLeft, hsplit]
      omega
    · simp only [linesLeft, hsplit, hopened]
      omega
    · split
      · simp only [linesLeft, hsplit]
        omega
      · simp only [linesLeft, hsplit]
        omega

theorem EndsAfter.le_linesLeft {t last : Turn} {n longest : Nat} (h : t.EndsAfter library typing n last)
    (hl : ∀ i < n, ((next library typing)^[i] t).player.lines.length ≤ longest) : n ≤ t.linesLeft longest := by
  have hsum : ∀ m ≤ n, m + ((next library typing)^[m] t).linesLeft longest ≤ t.linesLeft longest := by
    intro m hm
    induction m with
    | zero =>
      rw [Function.iterate_zero_apply]
      omega
    | succ m ih =>
      have hstep := linesLeft_next library typing (h.goes m hm) (hl m hm)
      rw [Function.iterate_succ_apply']
      have := ih (by omega)
      omega
  have := hsum n (Nat.le_refl n)
  omega

end Turn

/-! ## Reading on -/

namespace Player

/-- A script that has left its reading modes is left as it is. -/
theorem scanFrom_of_not_reading {library : Library} {typing : Typing} {p : Player} (h : p.mode.isReading = false)
    (opens visits : Nat) (content : Text) : scanFrom library typing opens visits content p = (false, p) := by
  unfold scanFrom
  split
  · simp [h]
  · simp [h]
  · simp [h]

/-- A script is read no further than the first line after which the player does not read on. -/
theorem scan_of_stop {library : Library} {typing : Typing} {rest : Text} {p q : Player}
    (hreads : p.mode.isReading = true) (hl : ¬p.lines.isEmpty)
    (hread : p.readNext library typing [] = (rest, .ongoing q)) (hq : q.mode.isReading = false) :
    p.scan library typing = (false, q) := by
  show scanFrom library typing (16 + 1) (2 * p.lines.length + 1) [] p = _
  rw [scanFrom_ongoing 16 (2 * p.lines.length) (by simp [hreads]) hl hread, scanFrom_of_not_reading hq]

theorem eq_of_openOrStay {p q : Player} {library : Library} {name : Text}
    (h : (p.openOrStay library name).outcome = .ongoing q) : q = p := by
  unfold openOrStay at h
  split at h
  · cases h
  · cases h
    rfl

theorem eq_of_goUp {p q : Player} {library : Library} (h : (p.goUp library).outcome = .ongoing q) :
    ∃ trail, q = { p with trail } := by
  unfold goUp at h
  split at h
  · cases h
    exact ⟨p.trail, rfl⟩
  · rename_i name trail _
    exact ⟨trail, eq_of_openOrStay h⟩

theorem eq_of_goNext {p q : Player} {library : Library} {target : Option Text}
    (h : (p.goNext library target).outcome = .ongoing q) : ∃ trail, q = { p with trail } := by
  unfold goNext at h
  split at h
  · exact ⟨p.trail, eq_of_openOrStay h⟩
  · split at h
    · exact ⟨p.trail, eq_of_openOrStay h⟩
    · exact eq_of_goUp h

theorem not_practice_of_isReading {p : Player} (h : p.mode.isReading = true) : p.mode ≠ .practice := by
  intro hm
  simp [hm, Mode.isReading] at h

theorem mode_endBlock {p : Player} (typing : Typing) (content : Text) (h : p.mode.isReading = true) :
    (p.endBlock typing content).mode = .run := by
  unfold endBlock
  rcases Mode.cases_of_isReading h with hm | hm | hm
  · rw [hm]
    exact hm
  · rw [hm]
  · rw [hm]

/-- A directive that neither opens a lesson nor starts a round is followed by another line, or it leaves the script
for a menu or the score. -/
theorem ongoing_follow {p q : Player} {library : Library} {typing : Typing} {d : Directive} (hm : p.mode = .run)
    (h : p.follow library typing d = .ongoing q) :
    q.lines = p.lines ∧ (q.mode.isReading = true ∨ q.mode = .menu ∨ q.mode = .score) := by
  have hreads := isReading_of_run hm
  cases d with
  | title | imeMode | keyboard | zenkaku | unknown =>
    cases h
    exact ⟨rfl, .inl hreads⟩
  | text | hint =>
    cases h
    exact ⟨rfl, .inl rfl⟩
  | showScore =>
    cases h
    exact ⟨rfl, .inr (.inr rfl)⟩
  | menu =>
    cases h
    exact ⟨rfl, .inr (.inl rfl)⟩
  | start => cases h
  | up =>
    obtain ⟨trail, rfl⟩ := eq_of_goUp h
    exact ⟨rfl, .inl hreads⟩
  | next =>
    obtain ⟨trail, rfl⟩ := eq_of_goNext h
    exact ⟨rfl, .inl hreads⟩
  | random lines rounds =>
    unfold follow at h
    dsimp only at h
    split at h
    · cases h
    · cases h
      exact ⟨rfl, .inl hreads⟩

theorem ongoing_readNext {p q : Player} {library : Library} {typing : Typing} {content rest : Text}
    (hm : p.mode.isReading = true) (h : p.readNext library typing content = (rest, .ongoing q)) :
    q.lines = p.lines ∧ (q.mode.isReading = true ∨ q.mode = .menu ∨ q.mode = .score) := by
  unfold readNext at h
  obtain ⟨hlines, hmode⟩ := takeLine_frame p
  generalize p.takeLine = taken at h hlines hmode
  obtain ⟨line, taken⟩ := taken
  dsimp only at h hlines hmode
  rw [← hmode] at hm
  rw [← hlines]
  split at h
  · split at h <;> cases h <;> exact ⟨rfl, .inl hm⟩
  · rename_i d _
    obtain ⟨hblock, -⟩ := endBlock_frame taken typing content
    rw [← hblock]
    exact ongoing_follow (mode_endBlock typing content hm) (Prod.mk.inj h).2

/-- What the player does with a script is what reading it line by line comes to. The two counters are what the
budgets have lost. -/
theorem endsAfter_scanFrom (library : Library) (typing : Typing) (opens visits : Nat) (content : Text) (p : Player)
    (visited opened : Nat) (hm : p.mode.isReading = true) (hopens : opens + opened = maxOpens)
    (hvisits : visits + visited = p.maxVisits) :
    ∃ n last, (Turn.onward ⟨p, content, visited, opened⟩).EndsAfter library typing n last ∧
      last.result = scanFrom library typing opens visits content p := by
  induction opens, visits, content, p using scanFrom.induct library typing generalizing visited opened with
  | case1 opens visits content p hreads => exact absurd hm (by simpa using hreads)
  | case2 opens visits content p hreads hl =>
    refine ⟨0, _, .zero ?_, ?_⟩
    · show Reader.isSpent _ = true
      rw [Reader.isSpent, hl]
      rfl
    · rw [scanFrom, if_neg hreads, if_pos hl]
      rfl
  | case3 opens visits content p hreads hl rest q hread =>
    have hgoes := Reader.goes_on content hl hopens hvisits
    refine ⟨1, .left true q, .succ hgoes ?_, ?_⟩
    · rw [Turn.next, Reader.turn, hread]
      exact .zero rfl
    · rw [scanFrom_started _ _ hreads hl hread]
      rfl
  | case4 opens visits content p hreads hl rest q hread ih =>
    have hgoes := Reader.goes_on content hl hopens hvisits
    have hrun : q.mode = .run := by
      have hs := sound_readNext typing library content (by simpa using hl) (not_practice_of_isReading hm)
      rw [hread] at hs
      exact hs
    -- the lesson that is opened is read with lines of its own and one opening less
    obtain ⟨n, last, hends, hresult⟩ := ih 0 (opened + 1) (isReading_of_run hrun) (by omega) (by omega)
    refine ⟨n + 1, last, .succ hgoes ?_, ?_⟩
    · rw [Turn.next, Reader.turn, hread]
      exact hends
    · rw [scanFrom, if_neg hreads, if_neg hl, hread]
      exact hresult
  | case5 opens visits content p hreads hl rest q hread ih =>
    have hgoes := Reader.goes_on content hl hopens hvisits
    rw [scanFrom_ongoing _ _ hreads hl hread]
    cases hq : q.mode.isReading with
    | true =>
      have hlines : q.maxVisits = p.maxVisits := by
        rw [maxVisits, (ongoing_readNext hm hread).1, maxVisits]
      obtain ⟨n, last, hends, hresult⟩ := ih (visited + 1) opened hq hopens (by omega)
      refine ⟨n + 1, last, .succ hgoes ?_, hresult⟩
      rw [Turn.next, Reader.turn, hread]
      dsimp only
      rw [if_pos hq]
      exact hends
    | false =>
      refine ⟨1, .left false q, .succ hgoes ?_, (scanFrom_of_not_reading hq ..).symm⟩
      rw [Turn.next, Reader.turn, hread]
      dsimp only
      rw [if_neg (by simp [hq])]
      exact .zero rfl
  | case6 visits content p =>
    refine ⟨0, _, .zero ?_, ?_⟩
    · show Reader.isSpent _ = true
      simp only [Reader.isSpent, Bool.or_eq_true, decide_eq_true_eq]
      exact .inr (by omega)
    · rw [scanFrom, if_pos hm]
      rfl
  | case7 opens content p hzero =>
    refine ⟨0, _, .zero ?_, ?_⟩
    · show Reader.isSpent _ = true
      simp only [Reader.isSpent, Bool.or_eq_true, decide_eq_true_eq]
      exact .inl (.inr (by omega))
    · rw [scanFrom.eq_3 _ _ _ _ _ hzero, if_pos hm]
      rfl

end Player

/-! ## Where a script ends -/

/-- The player is where a script can lead to: in the script, in a new round, or at a menu or the score. -/
def Turn.Sound : Turn → Prop
  | onward r => r.player.mode.isReading = true
  | left true p => p.mode = .practice
  | left false p => p.mode = .menu ∨ p.mode = .score

namespace Turn

variable {library : Library} {typing : Typing}

theorem sound_next {t : Turn} (h : t.Sound) (hover : t.isOver = false) : (t.next library typing).Sound := by
  cases t with
  | left => exact h
  | onward r =>
    have hm : r.player.mode.isReading = true := h
    have hs := Player.sound_readNext typing library r.content (Reader.isSpent_eq_false.1 hover).1
      (Player.not_practice_of_isReading hm)
    show (r.turn library typing).Sound
    unfold Reader.turn
    split
    · rename_i q hread
      rw [hread] at hs
      exact hs.mode
    · rename_i q hread
      rw [hread] at hs
      exact Player.isReading_of_run hs
    · rename_i q hread
      split
      · assumption
      · rename_i hleft
        rcases (Player.ongoing_readNext hm hread).2 with hreads | hwaits
        · exact absurd hreads hleft
        · exact hwaits

theorem EndsAfter.sound {t last : Turn} {n : Nat} (h : t.EndsAfter library typing n last) (ht : t.Sound) :
    last.Sound := by
  have hall : ∀ m ≤ n, ((next library typing)^[m] t).Sound := by
    intro m hm
    induction m with
    | zero => exact ht
    | succ m ih =>
      rw [Function.iterate_succ_apply']
      exact sound_next (ih (by omega)) (h.goes m hm)
  rw [← h.reaches]
  exact hall n (Nat.le_refl n)

end Turn

namespace Player

/-- A script that is read on from its next line ends, and what the player tells of it is how it ends. -/
theorem endsAfter_scan (library : Library) (typing : Typing) {p : Player} (hm : p.mode = .run) :
    ∃ n last, (Turn.onward { player := p }).EndsAfter library typing n last ∧
      last.result = p.scan library typing := by
  exact endsAfter_scanFrom library typing maxOpens p.maxVisits [] p 0 0 (isReading_of_run hm) rfl rfl

/-- Lines of the longest lesson that is open at any time while `n` lines are read. -/
def longest (p : Player) (library : Library) (typing : Typing) : Nat → Nat
  | 0 => p.lines.length
  | n + 1 => (p.longest library typing n).max (p.turnAt library typing (n + 1)).player.lines.length

theorem length_le_longest (p : Player) (library : Library) (typing : Typing) {i n : Nat} (h : i ≤ n) :
    (p.turnAt library typing i).player.lines.length ≤ p.longest library typing n := by
  induction n with
  | zero =>
    obtain rfl := Nat.le_zero.1 h
    exact Nat.le_refl _
  | succ n ih =>
    rcases Nat.le_succ_iff.1 h with hn | rfl
    · exact Nat.le_trans (ih hn) (Nat.le_max_left ..)
    · exact Nat.le_max_right ..

/-- Reading a script ends, after no more lines than seventeen times twice the lines of the longest lesson and one;
then a round has started, a menu or the score is shown, or the script is given up. -/
theorem endsAfter_scan_cases (library : Library) (typing : Typing) {p : Player} (hm : p.mode = .run) :
    ∃ n last, (Turn.onward { player := p }).EndsAfter library typing n last ∧
      n ≤ 17 * (2 * p.longest library typing n + 1) ∧
      ((∃ q, last = .left true q ∧ p.scan library typing = (true, q) ∧ q.mode = .practice) ∨
        (∃ q, last = .left false q ∧ p.scan library typing = (false, q) ∧ (q.mode = .menu ∨ q.mode = .score)) ∨
        ∃ r, last = .onward r ∧ r.isSpent = true ∧
          p.scan library typing = (false, { r.player with mode := .run })) := by
  have hreads := isReading_of_run hm
  obtain ⟨n, last, hends, hresult⟩ := endsAfter_scan library typing hm
  have hsound := hends.sound hreads
  refine ⟨n, last, hends, ?_, ?_⟩
  · exact hends.le_linesLeft fun i hi => p.length_le_longest library typing (Nat.le_of_lt hi)
  · rw [← hresult]
    cases last with
    | onward r => exact .inr (.inr ⟨r, rfl, hends.stops, rfl⟩)
    | left started q =>
      cases started with
      | true => exact .inl ⟨q, rfl, rfl, hsound⟩
      | false => exact .inr (.inl ⟨q, rfl, rfl, hsound⟩)

end Player

end KanaTutor
