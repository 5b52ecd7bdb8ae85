/-
A script that is given up would never end. What decides whether a script without ways to other lessons is left
is the next line and the text so far, which is settled or still collected; this much of the script is a draft. A
line that begins a text makes the same draft whatever was there before, and without such a line the text never
changes. So from the second pass on the drafts repeat, and a directive that is to take effect does so within two
passes over the lesson.
-/
import KanaTutor.Proofs.Lesson.Reading

namespace KanaTutor

/-! ## Directives with effect -/

namespace Directive

/-- The directive leads to another lesson. -/
def isNavigating : Directive → Bool
  | .up | .next _ => true
  | _ => false

/-- The directive leaves the script if the text is the given one. -/
def isEffective (t : Text) : Directive → Bool
  | .start | .showScore | .menu _ => true
  | .random _ _ => !t.isEmpty
  | _ => false

theorem rounds_pos {arguments : Text} {lines : Option Nat} {rounds : Nat}
    (h : ofRandomArguments arguments = .random lines rounds) : 0 < rounds := by
  unfold ofRandomArguments at h
  split at h
  · cases h
    exact Nat.one_pos
  · cases h
    exact Nat.one_pos
  · cases h
    exact Nat.lt_of_lt_of_le Nat.one_pos (Nat.le_max_left ..)

theorem keywords_rounds : ∀ k ∈ keywords, ∀ (rest : Text) (lines : Option Nat) (rounds : Nat),
    k.2 rest = .random lines rounds → 0 < rounds := by
  intro k hk rest lines rounds h
  simp only [keywords, List.mem_cons, List.not_mem_nil, or_false] at hk
  obtain rfl | rfl | rfl | rfl | rfl | rfl | rfl | rfl | rfl | rfl | rfl | rfl := hk
  case inr.inr.inr.inr.inr.inl => exact rounds_pos h
  all_goals cases h

theorem ofBody_eq (body : Text) : ofBody body =
    (keywords.findSome? fun k => (body.afterStart? k.1.toList).map k.2).getD (.unknown body) := rfl

theorem rounds_pos_of_read? {line : Text} {lines : Option Nat} {rounds : Nat}
    (h : read? line = some (.random lines rounds)) : 0 < rounds := by
  obtain ⟨body, -, hbody⟩ := Option.map_eq_some_iff.1 h
  rw [ofBody_eq] at hbody
  rcases hfind : keywords.findSome? fun k => (body.afterStart? k.1.toList).map k.2 with _ | d
  · rw [hfind] at hbody
    cases hbody
  · obtain ⟨k, hk, hmake⟩ := List.exists_of_findSome?_eq_some hfind
    obtain ⟨rest, -, rfl⟩ := Option.map_eq_some_iff.1 hmake
    rw [hfind] at hbody
    exact keywords_rounds k hk rest lines rounds hbody

end Directive

/-! ## Drafts -/

/-- The text of a script so far: it is collected from content lines, or it is settled. -/
inductive Draft where
  | collecting (content : Text)
  | settled (t : Text)

namespace Draft

/-- The text once a directive has ended the block it may be in. -/
def text : Draft → Text
  | collecting content => content.trimEnd
  | settled t => t

def extend (line : Text) : Draft → Draft
  | collecting content => collecting (content ++ line)
  | settled t => settled t

/-- The draft after a line, unless the script is left. -/
def next? (line : Text) (draft : Draft) : Option Draft :=
  match Directive.read? line with
  | none => some (draft.extend line)
  | some d =>
    if d.isEffective draft.text then none
    else if d = .text then some (collecting [])
    else some (settled draft.text)

theorem eq_of_next?_settled {line t : Text} {draft : Draft} (hline : Directive.read? line ≠ some .text)
    (h : next? line (settled t) = some draft) : draft = settled t := by
  unfold next? at h
  split at h
  · cases h
    rfl
  · rename_i d hread
    split at h
    · cases h
    · split at h
      · rename_i htext
        rw [htext] at hread
        exact absurd hread hline
      · cases h
        rfl

theorem next?_text {line : Text} (h : Directive.read? line = some .text) (draft : Draft) :
    draft.next? line = some (collecting []) := by
  rw [next?, h]
  rfl

end Draft

/-- The text of the script so far. -/
def Reader.draft (r : Reader) : Draft :=
  if r.player.mode = .text then .collecting r.content else .settled r.player.text

/-! ## Drawing from a text -/

namespace Text

theorem linesKeepingBreaks_eq_nil {t : Text} : t.linesKeepingBreaks = [] ↔ t = [] := by
  constructor
  · intro h
    have hflat := flatten_linesKeepingBreaks t
    rw [h] at hflat
    exact hflat.symm
  · intro h
    rw [h]
    rfl

end Text

theorem Pool.hasNextRound_ofText (t : Text) (lines : Option Nat) {rounds : Nat} (h : 0 < rounds) :
    (Pool.ofText t lines rounds).hasNextRound = !t.isEmpty := by
  cases t with
  | nil => simp [Pool.ofText, Pool.hasNextRound, Text.lines, Text.linesKeepingBreaks]
  | cons c t =>
    have hlines : Text.lines (c :: t) ≠ [] := by
      intro hnil
      exact List.cons_ne_nil c t (Text.linesKeepingBreaks_eq_nil.1 (List.map_eq_nil_iff.1 hnil))
    have hperRound : 0 < (ofText (c :: t) lines rounds).perRound :=
      Nat.lt_min.2 ⟨Nat.lt_of_lt_of_le Nat.one_pos (Nat.le_max_right ..), List.length_pos_iff.2 hlines⟩
    rw [Pool.hasNextRound, decide_eq_true hperRound]
    simp [Pool.ofText, h, hlines]

/-! ## Lines of a lesson -/

namespace Player

/-- The position of the next line; the first follows the last. -/
def place (p : Player) : Nat := if p.position < p.lines.length then p.position else 0

theorem takeLine_eq (p : Player) :
    p.takeLine = (readLine (p.lines.getD p.place []), { p with position := p.place + 1 }) := rfl

/-- The line that is read after `n` others of the lesson. -/
def lineAt (p : Player) (n : Nat) : Text := readLine (p.lines.getD ((p.place + n) % p.lines.length) [])

theorem lineAt_add (p : Player) (n : Nat) : p.lineAt (n + p.lines.length) = p.lineAt n := by
  rw [lineAt, ← Nat.add_assoc, Nat.add_mod_right, lineAt]

theorem place_lt {p : Player} (h : p.lines ≠ []) : p.place < p.lines.length := by
  have := List.length_pos_iff.2 h
  unfold place
  split
  · assumption
  · assumption

/-- Nothing of a block but its text and its mode is left when it ends. -/
theorem endBlock_text {r : Reader} (typing : Typing) (h : r.player.mode.isReading = true) :
    (r.player.endBlock typing r.content).text = r.draft.text := by
  unfold endBlock Reader.draft
  rcases Mode.cases_of_isReading h with hm | hm | hm
  · simp [hm, Draft.text]
  · simp [hm, Draft.text, setText]
  · simp [hm, Draft.text]

theorem position_endBlock (p : Player) (typing : Typing) (content : Text) :
    (p.endBlock typing content).position = p.position := by
  unfold endBlock
  split <;> rfl

theorem isSome_nextRound?_ofText (p : Player) (typing : Typing) (lines : Option Nat) {rounds : Nat}
    (h : 0 < rounds) :
    ({ p with pool := .ofText p.text lines rounds }.nextRound? typing).isSome = !p.text.isEmpty := by
  rw [← Pool.hasNextRound_ofText p.text lines h]
  unfold nextRound? Pool.nextRound?
  dsimp only
  split
  · rename_i hnext
    rw [hnext]
    rfl
  · rename_i hnext
    rw [Bool.eq_false_iff.2 hnext]
    rfl

end Player

namespace Reader

/-- The next reader has read one line more of the same lesson. -/
structure Passes (r r' : Reader) : Prop where
  reads : r'.player.mode.isReading = true
  lines : r'.player.lines = r.player.lines
  position : r'.player.position = r.player.place + 1
  visits : r'.visits = r.visits + 1
  opens : r'.opens = r.opens

/-- A directive that leads to no other lesson leaves the script if it is effective, or makes the next draft. -/
theorem follow_draft {p : Player} {d : Directive} (library : Library) (typing : Typing) (hm : p.mode = .run)
    (hnav : d.isNavigating = false) (hrounds : ∀ lines rounds, d = .random lines rounds → 0 < rounds) :
    (d.isEffective p.text = true ∧ ((∃ q, p.follow library typing d = .started q) ∨
        ∃ q, p.follow library typing d = .ongoing q ∧ q.mode.isReading = false)) ∨
      (d.isEffective p.text = false ∧ ∃ q, p.follow library typing d = .ongoing q ∧ q.mode.isReading = true ∧
        q.lines = p.lines ∧ q.position = p.position ∧
        draft { player := q } = if d = .text then .collecting [] else .settled p.text) := by
  have hreads := Player.isReading_of_run hm
  cases d with
  | up | next => cases hnav
  | start => exact .inl ⟨rfl, .inl ⟨_, rfl⟩⟩
  | showScore | menu => exact .inl ⟨rfl, .inr ⟨_, rfl, rfl⟩⟩
  | text => exact .inr ⟨rfl, _, rfl, rfl, rfl, rfl, rfl⟩
  | hint => exact .inr ⟨rfl, _, rfl, rfl, rfl, rfl, rfl⟩
  | title | imeMode | keyboard | zenkaku | unknown =>
    refine .inr ⟨rfl, _, rfl, hreads, rfl, rfl, ?_⟩
    simp [draft, hm]
  | random lines rounds =>
    have hsome := p.isSome_nextRound?_ofText typing lines (hrounds lines rounds rfl)
    unfold Player.follow
    dsimp only
    cases hnext : { p with pool := .ofText p.text lines rounds }.nextRound? typing with
    | some q =>
      rw [hnext] at hsome
      exact .inl ⟨hsome.symm, .inl ⟨q, rfl⟩⟩
    | none =>
      rw [hnext] at hsome
      refine .inr ⟨hsome.symm, _, rfl, hreads, rfl, rfl, ?_⟩
      simp [draft, hm]

/-- A content line is collected or passed over, by the block it is in. -/
theorem turn_content {r : Reader} (library : Library) (typing : Typing) (hm : r.player.mode.isReading = true)
    (h : Directive.read? r.player.takeLine.1 = none) :
    ∃ r', r.turn library typing = .onward r' ∧ r.Passes r' ∧ r'.draft = r.draft.extend r.player.takeLine.1 := by
  obtain ⟨p, content, visits, opens⟩ := r
  dsimp only at hm h
  unfold turn Player.readNext
  rw [Player.takeLine_eq] at h ⊢
  dsimp only at h ⊢
  rw [h]
  dsimp only
  cases hmode : p.mode with
  | run | text | hint =>
    refine ⟨_, rfl, ⟨rfl, rfl, rfl, rfl, rfl⟩, ?_⟩
    simp [draft, hmode, Draft.extend]
  | menu | practice | score | stats | exit =>
    rw [hmode] at hm
    cases hm

/-- A directive that leads to no other lesson leaves the script if it is effective for the text so far. -/
theorem turn_directive {r : Reader} (library : Library) (typing : Typing) {d : Directive}
    (hm : r.player.mode.isReading = true) (h : Directive.read? r.player.takeLine.1 = some d)
    (hnav : d.isNavigating = false) :
    (d.isEffective r.draft.text = true ∧ ∃ started q, r.turn library typing = .left started q) ∨
      (d.isEffective r.draft.text = false ∧ ∃ r', r.turn library typing = .onward r' ∧ r.Passes r' ∧
        r'.draft = if d = .text then .collecting [] else .settled r.draft.text) := by
  obtain ⟨p, content, visits, opens⟩ := r
  dsimp only at hm h
  have hrun := Player.mode_endBlock (p := p.takeLine.2) typing content hm
  have htext := Player.endBlock_text (r := ⟨p.takeLine.2, content, visits, opens⟩) typing hm
  have hposition := Player.position_endBlock p.takeLine.2 typing content
  have hlines := (Player.endBlock_frame p.takeLine.2 typing content).1
  have hfollowed := Reader.follow_draft library typing hrun hnav fun lines rounds hd =>
    Directive.rounds_pos_of_read? (hd ▸ h)
  have hread : p.readNext library typing content =
      ([], (p.takeLine.2.endBlock typing content).follow library typing d) := by
    unfold Player.readNext
    dsimp only
    rw [h]
  unfold turn
  dsimp only at htext ⊢
  rw [hread]
  rw [htext] at hfollowed
  generalize p.takeLine.2.endBlock typing content = ended at hrun hposition hlines hfollowed ⊢
  rcases hfollowed with
    ⟨heffect, ⟨q, hfollow⟩ | ⟨q, hfollow, hleft⟩⟩ | ⟨heffect, q, hfollow, hreads, hl, hp, hdraft⟩
  · refine .inl ⟨heffect, true, q, ?_⟩
    rw [hfollow]
  · refine .inl ⟨heffect, false, q, ?_⟩
    rw [hfollow]
    exact if_neg (by simp [hleft])
  · refine .inr ⟨heffect, ⟨q, [], visits + 1, opens⟩, ?_,
      ⟨hreads, hl.trans hlines, hp.trans hposition, rfl, rfl⟩, hdraft⟩
    rw [hfollow]
    exact if_pos hreads

theorem turn_draft {r : Reader} (library : Library) (typing : Typing) (hm : r.player.mode.isReading = true)
    (hnav : ∀ d, Directive.read? r.player.takeLine.1 = some d → d.isNavigating = false) :
    (∃ r', r.turn library typing = .onward r' ∧ r.Passes r' ∧
        r.draft.next? r.player.takeLine.1 = some r'.draft) ∨
      ((∃ started q, r.turn library typing = .left started q) ∧ r.draft.next? r.player.takeLine.1 = none) := by
  unfold Draft.next?
  cases hread : Directive.read? r.player.takeLine.1 with
  | none =>
    obtain ⟨r', hturn, hpasses, hdraft⟩ := turn_content library typing hm hread
    exact .inl ⟨r', hturn, hpasses, congrArg some hdraft.symm⟩
  | some d =>
    rcases turn_directive library typing hm hread (hnav d hread) with
      ⟨heffect, hleft⟩ | ⟨heffect, r', hturn, hpasses, hdraft⟩
    · exact .inr ⟨hleft, if_pos heffect⟩
    · refine .inl ⟨r', hturn, hpasses, ?_⟩
      dsimp only
      rw [heffect, if_neg Bool.false_ne_true, hdraft, apply_ite some]

end Reader

/-! ## A script as a sequence of drafts -/

/-- No line of the lesson leads to another lesson. -/
def Player.StaysInLesson (p : Player) : Prop :=
  ∀ line ∈ p.lines, ∀ d, Directive.read? (Player.readLine line) = some d → d.isNavigating = false

/-- The draft before line `n` of a script that stays in its lesson, unless the script has been left. -/
def Player.draftAt (p : Player) : Nat → Option Draft
  | 0 => some (.settled p.text)
  | n + 1 => (p.draftAt n).bind (Draft.next? (p.lineAt n))

/-- The reader has read `n` lines of the lesson of a player, and none of another lesson. -/
structure Reader.Reads (p : Player) (n : Nat) (r : Reader) : Prop where
  reads : r.player.mode.isReading = true
  lines : r.player.lines = p.lines
  place : p.lines ≠ [] → r.player.place = (p.place + n) % p.lines.length
  visits : r.visits = n
  opens : r.opens = 0
  draft : p.draftAt n = some r.draft

namespace Player

variable {p : Player} {library : Library} {typing : Typing}

theorem reads_start (hm : p.mode = .run) : Reader.Reads p 0 { player := p } where
  reads := isReading_of_run hm
  lines := rfl
  place h := (Nat.mod_eq_of_lt (place_lt h)).symm
  visits := rfl
  opens := rfl
  draft := by simp [draftAt, Reader.draft, hm]

theorem takeLine_of_reads {n : Nat} {r : Reader} (h : r.Reads p n) : r.player.takeLine.1 = p.lineAt n := by
  rw [takeLine_eq, lineAt, h.lines]
  by_cases hl : p.lines = []
  · rw [hl]
    rfl
  · rw [h.place hl]

theorem place_succ {q : Player} {n : Nat} (hl : p.lines ≠ []) (hlines : q.lines = p.lines)
    (hposition : q.position = (p.place + n) % p.lines.length + 1) :
    q.place = (p.place + (n + 1)) % p.lines.length := by
  have hlt := Nat.mod_lt (p.place + n) (List.length_pos_iff.2 hl)
  rw [place, hlines, hposition, ← Nat.add_assoc, ← Nat.mod_add_mod (p.place + n) _ 1]
  split
  · rename_i h
    exact (Nat.mod_eq_of_lt h).symm
  · rename_i h
    have hlast : (p.place + n) % p.lines.length + 1 = p.lines.length := by omega
    rw [hlast, Nat.mod_self]

theorem isNavigating_lineAt (hstays : p.StaysInLesson) {n : Nat} {d : Directive}
    (h : Directive.read? (p.lineAt n) = some d) : d.isNavigating = false := by
  by_cases hl : p.lines = []
  · rw [lineAt, hl] at h
    cases h
  · have hlt := Nat.mod_lt (p.place + n) (List.length_pos_iff.2 hl)
    rw [lineAt, ← List.getElem_eq_getD (h := hlt)] at h
    exact hstays _ (List.getElem_mem hlt) d h

/-- The step: one line more is read of the lesson and makes the next draft, or it leaves the script. -/
theorem reads_turn (hstays : p.StaysInLesson) {n : Nat} {r : Reader} (h : r.Reads p n) :
    (∃ r', r.turn library typing = .onward r' ∧ r'.Reads p (n + 1)) ∨
      ((∃ started q, r.turn library typing = .left started q) ∧ p.draftAt (n + 1) = none) := by
  have hline := takeLine_of_reads h
  have hnext : p.draftAt (n + 1) = r.draft.next? r.player.takeLine.1 := by
    rw [draftAt, h.draft, hline]
    rfl
  rcases r.turn_draft library typing h.reads fun d hd => isNavigating_lineAt hstays (hline ▸ hd) with
    ⟨r', hturn, hpasses, hdraft⟩ | ⟨hleft, hdraft⟩
  · refine .inl ⟨r', hturn, hpasses.reads, hpasses.lines.trans h.lines, fun hl => ?_, ?_, ?_, hnext.trans hdraft⟩
    · refine place_succ hl (hpasses.lines.trans h.lines) ?_
      rw [hpasses.position, h.place hl]
    · rw [hpasses.visits, h.visits]
    · rw [hpasses.opens, h.opens]
  · exact .inr ⟨hleft, hnext.trans hdraft⟩

/-- The run: the script is left when there is no next draft, and not before. -/
theorem reads_turnAt (library : Library) (typing : Typing) (hm : p.mode = .run) (hstays : p.StaysInLesson)
    (n : Nat) :
    (∃ r, p.turnAt library typing n = .onward r ∧ r.Reads p n) ∨
      ((∃ started q, p.turnAt library typing n = .left started q) ∧ p.draftAt n = none) := by
  induction n with
  | zero => exact .inl ⟨_, rfl, reads_start hm⟩
  | succ n ih =>
    rw [turnAt, Function.iterate_succ_apply', ← turnAt]
    rcases ih with ⟨r, hturn, hreads⟩ | ⟨⟨started, q, hturn⟩, hdraft⟩
    · rw [hturn]
      exact reads_turn hstays hreads
    · rw [hturn, draftAt, hdraft]
      exact .inr ⟨⟨started, q, rfl⟩, rfl⟩

theorem reads_of_turnAt (hm : p.mode = .run) (hstays : p.StaysInLesson) {n : Nat} {r : Reader}
    (h : p.turnAt library typing n = .onward r) : r.Reads p n := by
  rcases reads_turnAt library typing hm hstays n with ⟨r', hturn, hreads⟩ | ⟨⟨started, q, hturn⟩, -⟩
  · rw [hturn] at h
    cases h
    exact hreads
  · rw [hturn] at h
    cases h

/-! ## Two passes -/

theorem isSome_draftAt_le {m n : Nat} (hmn : m ≤ n) (h : (p.draftAt n).isSome) : (p.draftAt m).isSome := by
  induction hmn with
  | refl => exact h
  | step _ ih =>
    refine ih ?_
    rw [draftAt] at h
    exact Option.isSome_of_isSome_bind h

/-- After a line that begins a text the draft does not depend on what was there before. -/
theorem draftAt_succ_of_text {n : Nat} (hline : Directive.read? (p.lineAt n) = some .text)
    (h : (p.draftAt n).isSome) : p.draftAt (n + 1) = some (.collecting []) := by
  obtain ⟨draft, hdraft⟩ := Option.isSome_iff_exists.1 h
  rw [draftAt, hdraft]
  exact Draft.next?_text hline draft

theorem draftAt_of_no_text {n : Nat} (hline : ∀ i < n, Directive.read? (p.lineAt i) ≠ some .text)
    (h : (p.draftAt n).isSome) : p.draftAt n = some (.settled p.text) := by
  induction n with
  | zero => rfl
  | succ n ih =>
    obtain ⟨draft, hdraft⟩ := Option.isSome_iff_exists.1 h
    have hsettled := ih (fun i hi => hline i (by omega)) (isSome_draftAt_le (Nat.le_succ n) h)
    rw [draftAt, hsettled] at hdraft ⊢
    have hnext : Draft.next? (p.lineAt n) (.settled p.text) = some draft := hdraft
    rw [Draft.eq_of_next?_settled (hline n (Nat.lt_succ_self n)) hnext] at hnext
    exact hnext

/-- At some line of the first pass the draft is what it is a pass later. -/
theorem exists_draftAt_eq (h : (p.draftAt (2 * p.lines.length)).isSome) :
    ∃ i ≤ p.lines.length, p.draftAt (i + p.lines.length) = p.draftAt i := by
  -- either a text begins anew in every pass, or the text is settled all the time
  by_cases htext : ∃ i < p.lines.length, Directive.read? (p.lineAt i) = some .text
  · obtain ⟨i, hi, hline⟩ := htext
    refine ⟨i + 1, hi, ?_⟩
    rw [draftAt_succ_of_text hline (isSome_draftAt_le (by omega) h), Nat.add_right_comm]
    exact draftAt_succ_of_text (by rwa [lineAt_add]) (isSome_draftAt_le (by omega) h)
  · refine ⟨0, Nat.zero_le _, ?_⟩
    rw [Nat.zero_add]
    exact draftAt_of_no_text (fun i hi hline => htext ⟨i, hi, hline⟩) (isSome_draftAt_le (by omega) h)

theorem draftAt_periodic {i n : Nat} (hi : p.draftAt (i + p.lines.length) = p.draftAt i) (hn : i ≤ n) :
    p.draftAt (n + p.lines.length) = p.draftAt n := by
  induction hn with
  | refl => exact hi
  | step _ ih =>
    rw [Nat.succ_eq_add_one, Nat.add_right_comm, draftAt, draftAt, ih, lineAt_add]

/-- A script that is not left within two passes is never left. -/
theorem isSome_draftAt (h : (p.draftAt (2 * p.lines.length)).isSome) (n : Nat) : (p.draftAt n).isSome := by
  by_cases hl : p.lines = []
  · -- a lesson without lines has no directives
    have hline : ∀ i, Directive.read? (p.lineAt i) = none := by
      intro i
      rw [lineAt, hl]
      rfl
    induction n with
    | zero => rfl
    | succ n ih =>
      obtain ⟨draft, hdraft⟩ := Option.isSome_iff_exists.1 ih
      rw [draftAt, hdraft, Option.bind_some, Draft.next?, hline]
      rfl
  · have hpos := List.length_pos_iff.2 hl
    obtain ⟨i, hi, hperiod⟩ := exists_draftAt_eq h
    induction n using Nat.strongRecOn with
    | ind n ih =>
      by_cases hn : n ≤ 2 * p.lines.length
      · exact isSome_draftAt_le hn h
      · -- the draft is what it was a pass before
        have hback := draftAt_periodic hperiod (n := n - p.lines.length) (by omega)
        rw [Nat.sub_add_cancel (by omega)] at hback
        rw [hback]
        exact ih _ (by omega)

theorem turnAt_of_isSome (library : Library) (typing : Typing) (hm : p.mode = .run) (hstays : p.StaysInLesson)
    {n : Nat} (h : (p.draftAt n).isSome) : ∃ r, p.turnAt library typing n = .onward r ∧ r.Reads p n := by
  rcases reads_turnAt library typing hm hstays n with hreads | ⟨-, hdraft⟩
  · exact hreads
  · rw [hdraft] at h
    cases h

/-! ## Giving up -/

theorem isSpent_of_reads {n : Nat} {r : Reader} (h : r.Reads p n) :
    r.isSpent = true ↔ p.lines = [] ∨ 2 * p.lines.length < n := by
  have hopens : ¬maxOpens ≤ 0 := by decide
  rw [Reader.isSpent, maxVisits, h.lines, h.visits, h.opens, Bool.or_eq_true, Bool.or_eq_true, List.isEmpty_iff,
    decide_eq_true_iff, decide_eq_true_iff, or_iff_left hopens, Nat.succ_le_iff]

/-- A player that gives up a script has read it twice without a way out. -/
theorem reads_of_scan (hm : p.mode = .run) (hstays : p.StaysInLesson) (h : (p.scan library typing).2.mode = .run)
    (n : Nat) : ∃ r, p.turnAt library typing n = .onward r ∧ r.Reads p n := by
  obtain ⟨last, ending, hends, -, ⟨q, -, hscan, hq⟩ | ⟨q, -, hscan, hq | hq⟩ | ⟨r, rfl, hspent, -⟩⟩ :=
    endsAfter_scan_cases library typing hm
  · rw [hscan, hq] at h
    cases h
  · rw [hscan, hq] at h
    cases h
  · rw [hscan, hq] at h
    cases h
  · have hreads := reads_of_turnAt hm hstays hends.reaches
    have hpasses : 2 * p.lines.length ≤ last := by
      rcases (isSpent_of_reads hreads).1 hspent with hnil | hlate
      · rw [hnil]
        exact Nat.zero_le last
      · exact Nat.le_of_lt hlate
    have hsome := isSome_draftAt_le hpasses (Option.isSome_of_eq_some hreads.draft)
    exact turnAt_of_isSome library typing hm hstays (isSome_draftAt hsome n)

theorem mode_scan_of_onward (hm : p.mode = .run) (h : ∀ n, ∃ r, p.turnAt library typing n = .onward r) :
    (p.scan library typing).2.mode = .run := by
  obtain ⟨n, last, hends, hresult⟩ := endsAfter_scan library typing hm
  obtain ⟨r, hturn⟩ := h n
  have hlast : last = .onward r := hends.reaches.symm.trans hturn
  rw [← hresult, hlast]
  rfl

/-- A script that is left within two passes is left by its player. -/
theorem scan_of_left (hm : p.mode = .run) (hstays : p.StaysInLesson) {n : Nat} {started : Bool} {q : Player}
    (hbound : n < 2 * p.lines.length) (hsome : (p.draftAt n).isSome)
    (hleft : p.turnAt library typing (n + 1) = .left started q) : p.scan library typing = (started, q) := by
  have hl : p.lines ≠ [] := by
    rintro hnil
    simp [hnil] at hbound
  have hgoes : ∀ i < n + 1, (p.turnAt library typing i).isOver = false := by
    intro i hi
    obtain ⟨r, hturn, hreads⟩ := turnAt_of_isSome library typing hm hstays
      (isSome_draftAt_le (Nat.le_of_lt_succ hi) hsome)
    rw [hturn]
    refine Bool.eq_false_iff.2 fun hspent => ?_
    rcases (isSpent_of_reads hreads).1 hspent with hnil | hlate
    · exact hl hnil
    · omega
  obtain ⟨m, last, hends, hresult⟩ := endsAfter_scan library typing hm
  have hlast := (hends.unique ⟨hgoes, hleft, rfl⟩).2
  rw [← hresult, hlast]
  rfl

/-- A directive that is effective leaves the script, and it is read in one of the first two passes. -/
theorem left_of_isEffective (hm : p.mode = .run) (hstays : p.StaysInLesson) {n : Nat} {r : Reader} {d : Directive}
    (hreads : r.Reads p n) (hread : Directive.read? r.player.takeLine.1 = some d)
    (heffect : d.isEffective r.draft.text = true) :
    n < 2 * p.lines.length ∧ ∃ started q, p.turnAt library typing (n + 1) = .left started q := by
  have hend : p.draftAt (n + 1) = none := by
    rw [draftAt, hreads.draft, ← takeLine_of_reads hreads, Option.bind_some, Draft.next?, hread]
    exact if_pos heffect
  constructor
  · by_contra hlate
    have hsome := isSome_draftAt_le (Nat.not_lt.1 hlate) (Option.isSome_of_eq_some hreads.draft)
    have hnever := isSome_draftAt hsome (n + 1)
    rw [hend] at hnever
    cases hnever
  · rcases reads_turnAt library typing hm hstays (n + 1) with ⟨r', -, hreads'⟩ | ⟨hleft, -⟩
    · rw [hreads'.draft] at hend
      cases hend
    · exact hleft

end Player

/-- A player gives up a script that stays in its lesson only if reading on would never leave it, and then it does.
An effective directive that reading on comes to is read in one of the first two passes, and it is where the player
leaves the script. -/
theorem gives_up_iff_loops {p : Player} (library : Library) (typing : Typing) (hm : p.mode = .run)
    (hstays : p.StaysInLesson) :
    ((p.scan library typing).2.mode = .run ↔
        ∀ n, ∃ r, p.turnAt library typing n = .onward r ∧ r.player.mode.isReading = true) ∧
      ∀ n r d, p.turnAt library typing n = .onward r → Directive.read? r.player.takeLine.1 = some d →
        d.isEffective r.draft.text = true →
        n < 2 * p.lines.length ∧
          ∃ started q, p.turnAt library typing (n + 1) = .left started q ∧ p.scan library typing = (started, q) := by
  refine ⟨⟨fun hrun n => ?_, fun hloops => ?_⟩, ?_⟩
  · obtain ⟨r, hturn, hreads⟩ := Player.reads_of_scan hm hstays hrun n
    exact ⟨r, hturn, hreads.reads⟩
  · refine Player.mode_scan_of_onward hm fun n => ?_
    obtain ⟨r, hturn, -⟩ := hloops n
    exact ⟨r, hturn⟩
  · intro n r d hturn hread heffect
    have hreads := Player.reads_of_turnAt hm hstays hturn
    obtain ⟨hbound, started, q, hleft⟩ := Player.left_of_isEffective hm hstays hreads hread heffect
    exact ⟨hbound, started, q, hleft,
      Player.scan_of_left hm hstays hbound (Option.isSome_of_eq_some hreads.draft) hleft⟩

namespace AcrossTheEnd

/-- A script whose first line needs the text that its last line holds. -/
def reader : Player :=
  { mode := .run, lines := [":random\n".toList, ":text\n".toList, "x\n".toList], lessonDir := [],
    finishDelay := .ofMillis 1000, source := ⟨1, 2, 3, 4⟩ }

theorem staysInLesson : reader.StaysInLesson := by
  intro line hline d hd
  simp only [reader, List.mem_cons, List.not_mem_nil, or_false] at hline
  rcases hline with rfl | rfl | rfl
  · cases hd
    rfl
  · cases hd
    rfl
  · cases hd

end AcrossTheEnd

/-- The text of such a script is collected when its first line is read again. -/
theorem leaves_after_end : AcrossTheEnd.reader.mode = .run ∧ AcrossTheEnd.reader.StaysInLesson ∧
    ∃ started q, AcrossTheEnd.reader.turnAt (fun _ => none) {} 4 = .left started q ∧
      AcrossTheEnd.reader.scan (fun _ => none) {} = (started, q) := by
  have hloops := gives_up_iff_loops (p := AcrossTheEnd.reader) (fun _ => none) {} rfl AcrossTheEnd.staysInLesson
  exact ⟨rfl, AcrossTheEnd.staysInLesson, (hloops.2 3 _ (.random none 1) rfl rfl rfl).2⟩

end KanaTutor
