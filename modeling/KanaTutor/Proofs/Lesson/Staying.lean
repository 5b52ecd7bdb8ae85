/-
Where a player is after a command: in the lesson it was in, or in one that has just been opened. In the same lesson the
way back is the same too, except that a lesson is missing from it that the player could not go back to, or that the
lesson now offers a menu.
-/
import KanaTutor.Proofs.Lesson.Moves
import KanaTutor.Proofs.Stats.Days

namespace KanaTutor

/-- One of the lines is a directive that offers a menu of the targets. -/
def Declares (lines targets : List Text) : Prop :=
  ∃ line ∈ lines, Directive.read? (Player.readLine line) = some (.menu targets)

namespace Player

/-- The file that the lesson is read from. -/
def path (p : Player) : Path := (resolve p.lessonDir p.lesson).2

/-- The player is in the same lesson with the same way back, and neither a menu nor the statistics have come up. -/
structure Kept (p q : Player) : Prop where
  lines : q.lines = p.lines
  lesson : q.lesson = p.lesson
  lessonDir : q.lessonDir = p.lessonDir
  trail : q.trail = p.trail
  menu : q.mode = .menu → p.mode = .menu
  stats : q.mode = .stats → p.mode = .menu ∨ p.mode = .stats

/-- All ways to stay in a lesson. -/
inductive Stays (library : Library) (p : Player) : Player → Prop where
  | kept {q : Player} : p.Kept q → Stays library p q
  /-- The lesson to go back to cannot be read. -/
  | lost {q : Player} {name : Text} {trail : Trail} : p.Kept q → p.trail.up? p.lesson = some (name, trail) →
      library (resolve p.lessonDir name).2 = none → Stays library p { q with trail }
  /-- The lesson offers a menu. -/
  | offered {q : Player} {targets : List Text} : p.Kept q → Declares p.lines targets →
      Stays library p { q with trail := p.trail.enterMenu p.lesson targets, mode := .menu }

/-- A lesson has just been opened. -/
structure Opened (library : Library) (p : Player) : Prop where
  mode : p.mode = .run
  lines : ∃ content, library p.path = some content ∧ p.lines = content.linesKeepingBreaks

theorem Kept.refl (p : Player) : p.Kept p := ⟨rfl, rfl, rfl, rfl, id, .inr⟩

theorem Kept.trans {p q r : Player} (h : p.Kept q) (h' : q.Kept r) : p.Kept r where
  lines := h'.lines.trans h.lines
  lesson := h'.lesson.trans h.lesson
  lessonDir := h'.lessonDir.trans h.lessonDir
  trail := h'.trail.trans h.trail
  menu := fun hm => h.menu (h'.menu hm)
  stats := fun hm => (h'.stats hm).elim (fun hm => .inl (h.menu hm)) h.stats

theorem kept_run (p : Player) : p.Kept { p with mode := .run } := ⟨rfl, rfl, rfl, rfl, nofun, nofun⟩

theorem Kept.path {p q : Player} (h : p.Kept q) : q.path = p.path := by
  rw [Player.path, h.lesson, h.lessonDir, Player.path]

theorem Kept.stays {library : Library} {p q r : Player} (h : p.Kept q) (h' : q.Stays library r) :
    p.Stays library r := by
  cases h' with
  | kept h' => exact .kept (h.trans h')
  | lost h' hup hread =>
    rw [h.trail, h.lesson] at hup
    rw [h.lessonDir] at hread
    exact .lost (h.trans h') hup hread
  | offered h' hmenu =>
    rw [h.lines] at hmenu
    rw [h.trail, h.lesson]
    exact .offered (h.trans h') hmenu

/-! ## Opening lessons -/

/-- A name that leads to a directory leads to the same file from there. -/
theorem resolve_resolve (dir : Path) (name : Text) : resolve (resolve dir name).1 name = resolve dir name := by
  unfold resolve
  rcases Path.parent? name with _ | _ | _
  · rfl
  · rfl
  · rfl

theorem opened_open {library : Library} {p q : Player} {name : Text} (h : p.open? library name = some q) :
    q.Opened library := by
  obtain ⟨content, hread, rfl⟩ := Option.map_eq_some_iff.1 h
  refine ⟨rfl, content, ?_, rfl⟩
  show library (resolve (resolve p.lessonDir name).1 name).2 = some content
  rw [resolve_resolve]
  exact hread

end Player

/-- Where an outcome of a line of the script leads. -/
def Player.Outcome.Leads (library : Library) (p : Player) : Player.Outcome → Prop
  | .ongoing q | .started q => p.Stays library q
  | .opened q => q.Opened library

namespace Player

variable {library : Library} {p : Player}

theorem leads_openOrStay (library : Library) (p : Player) (name : Text) :
    (p.openOrStay library name).outcome.Leads library p := by
  unfold openOrStay
  split
  · rename_i q hq
    exact opened_open hq
  · exact .kept (.refl p)

theorem leads_goUp (library : Library) (p : Player) : (p.goUp library).outcome.Leads library p := by
  unfold goUp
  split
  · exact .kept (.refl p)
  · rename_i name trail hup
    unfold openOrStay
    split
    · rename_i q hq
      exact opened_open hq
    · rename_i hnone
      exact .lost (.refl p) hup (Option.map_eq_none_iff.1 hnone)

theorem leads_goNext (library : Library) (p : Player) (target : Option Text) :
    (p.goNext library target).outcome.Leads library p := by
  unfold goNext
  split
  · exact leads_openOrStay ..
  · split
    · exact leads_openOrStay ..
    · exact leads_goUp ..

/-! ## The script -/

theorem kept_nextRound {q : Player} {typing : Typing} (h : p.nextRound? typing = some q) : p.Kept q := by
  obtain ⟨⟨t, pool, source⟩, -, rfl⟩ := Option.map_eq_some_iff.1 h
  exact ⟨rfl, rfl, rfl, rfl, nofun, nofun⟩

theorem kept_afterRound (p : Player) (typing : Typing) (r : RoundResult) : p.Kept (p.afterRound typing r) := by
  unfold afterRound
  dsimp only
  cases hnext : nextRound? { p with lastResult := some r } typing with
  | none => exact ⟨rfl, rfl, rfl, rfl, nofun, nofun⟩
  | some q =>
    have hkept := kept_nextRound hnext
    exact ⟨hkept.lines, hkept.lesson, hkept.lessonDir, hkept.trail, hkept.menu, hkept.stats⟩

theorem leads_follow (library : Library) (typing : Typing) {d : Directive}
    (hd : ∀ targets, d = .menu targets → Declares p.lines targets) :
    (p.follow library typing d).Leads library p := by
  cases d with
  | title | imeMode | keyboard | zenkaku | unknown => exact .kept ⟨rfl, rfl, rfl, rfl, id, .inr⟩
  | text | hint | showScore | start => exact .kept ⟨rfl, rfl, rfl, rfl, nofun, nofun⟩
  | up => exact leads_goUp library p
  | next target => exact leads_goNext library p target
  | menu targets => exact .offered (.refl p) (hd targets rfl)
  | random lines rounds =>
    have hpool : p.Kept { p with pool := .ofText p.text lines rounds } := ⟨rfl, rfl, rfl, rfl, id, .inr⟩
    unfold follow
    dsimp only
    split
    · rename_i q hq
      exact .kept (hpool.trans (kept_nextRound hq))
    · exact .kept hpool

theorem kept_endBlock (p : Player) (typing : Typing) (content : Text) : p.Kept (p.endBlock typing content) := by
  unfold endBlock
  split
  · exact ⟨rfl, rfl, rfl, rfl, nofun, nofun⟩
  · exact ⟨rfl, rfl, rfl, rfl, nofun, nofun⟩
  · exact .refl p

theorem leads_of_kept {q : Player} {outcome : Outcome} (h : p.Kept q) (h' : outcome.Leads library q) :
    outcome.Leads library p := by
  cases outcome with
  | ongoing | started => exact h.stays h'
  | opened => exact h'

/-- The line that is taken is one of the lesson. -/
theorem takeLine_mem (hl : p.lines ≠ []) : ∃ line ∈ p.lines, p.takeLine.1 = readLine line := by
  have hlength := List.length_pos_iff.2 hl
  have hi : (if p.position < p.lines.length then p.position else 0) < p.lines.length := by
    split <;> assumption
  refine ⟨_, List.getElem_mem hi, ?_⟩
  show readLine (p.lines.getD _ []) = _
  rw [List.getD_eq_getElem?_getD, List.getElem?_eq_getElem hi, Option.getD_some]

/-- A line keeps the player in its lesson, or opens one. -/
theorem leads_readNext (library : Library) (typing : Typing) (content : Text) (hl : p.lines ≠ []) :
    (p.readNext library typing content).2.Leads library p := by
  obtain ⟨line, hline, htaken⟩ := takeLine_mem hl
  have hkept : p.Kept p.takeLine.2 := ⟨rfl, rfl, rfl, rfl, id, .inr⟩
  unfold readNext
  generalize p.takeLine = taken at htaken hkept
  obtain ⟨read, q⟩ := taken
  dsimp only at htaken hkept ⊢
  split
  · split
    · exact .kept hkept
    · exact .kept hkept
    · exact .kept hkept
  · rename_i d hd
    have hblock := hkept.trans (kept_endBlock q typing content)
    refine leads_of_kept hblock (leads_follow library typing fun targets hmenu => ?_)
    rw [hblock.lines]
    exact ⟨line, hline, by rw [← htaken, hd, hmenu]⟩

/-- The script opens a lesson before it is over. -/
def ScriptOpens (p : Player) (library : Library) (typing : Typing) : Prop :=
  ∃ n r, (∀ i < n, (p.turnAt library typing i).isOver = false) ∧ p.turnAt library typing n = .onward r ∧ 0 < r.opens

section

variable {Inv : Player → Prop} {typing : Typing}

theorem turn_preserves (hstays : ∀ p q, Inv p → p.Stays library q → Inv q) {r : Reader} (h : Inv r.player)
    (hl : r.player.lines ≠ []) : Inv (r.turn library typing).player ∨
      ∃ next, r.turn library typing = .onward next ∧ 0 < next.opens ∧ next.player.Opened library := by
  have hleads := leads_readNext library typing r.content hl
  unfold Reader.turn
  split
  · rename_i q hread
    rw [hread] at hleads
    exact .inl (hstays _ q h hleads)
  · rename_i q hread
    rw [hread] at hleads
    exact .inr ⟨_, rfl, Nat.succ_pos _, hleads⟩
  · rename_i q hread
    rw [hread] at hleads
    split
    · exact .inl (hstays _ q h hleads)
    · exact .inl (hstays _ q h hleads)

/-- What no player loses that stays in its lesson is not lost when a script is read, if the script opens no lesson or
every player in a lesson that has just been opened has it. -/
theorem scan_preserves (hstays : ∀ p q, Inv p → p.Stays library q → Inv q)
    (hopened : p.ScriptOpens library typing → ∀ q, q.Opened library → Inv q) (h : Inv p) :
    Inv (p.scan library typing).2 := by
  by_cases hreads : p.mode.isReading = true
  · obtain ⟨n, last, hends, hresult⟩ :=
      endsAfter_scanFrom library typing maxOpens p.maxVisits [] p 0 0 hreads rfl rfl
    -- the player has it after every line
    have hall : ∀ m ≤ n, Inv (p.turnAt library typing m).player := by
      intro m hm
      induction m with
      | zero => exact h
      | succ m ih =>
        have hbefore := ih (by omega)
        have hover : (p.turnAt library typing m).isOver = false := hends.goes m (by omega)
        have hnext : p.turnAt library typing (m + 1) = (p.turnAt library typing m).next library typing :=
          Function.iterate_succ_apply' ..
        cases hturn : p.turnAt library typing m with
        | left started q =>
          rw [hturn] at hbefore hnext
          rw [hnext]
          exact hbefore
        | onward r =>
          rw [hturn] at hbefore hover hnext
          have hl := (Reader.isSpent_eq_false.1 hover).1
          rcases turn_preserves hstays hbefore hl with hkept | ⟨next, hopens, hpos, hlesson⟩
          · rw [hnext]
            exact hkept
          · replace hnext : p.turnAt library typing (m + 1) = .onward next := hnext.trans hopens
            rw [hnext]
            exact hopened ⟨m + 1, next, fun i hi => hends.goes i (by omega), hnext, hpos⟩ _ hlesson
    have hlast := hall n (Nat.le_refl n)
    have hreaches : p.turnAt library typing n = last := hends.reaches
    rw [hreaches] at hlast
    show Inv (scanFrom library typing maxOpens p.maxVisits [] p).2
    rw [← hresult]
    cases last with
    | onward r => exact hstays _ _ hlast (.kept (kept_run r.player))
    | left started q => exact hlast
  · rw [scan, scanFrom_of_not_reading (by simpa using hreads)]
    exact h

end

/-! ## Commands -/

theorem kept_practise (p : Player) (f : Session → Session) : p.Kept (p.practise f) := by
  unfold practise
  split
  · exact ⟨rfl, rfl, rfl, rfl, id, .inr⟩
  · exact .refl p

theorem kept_press (p : Player) (layout : Layout) (key : KeyPress) : p.Kept (p.press layout key) := by
  unfold press
  split
  · exact kept_practise ..
  · exact .refl p

theorem kept_showStats (p : Player) : p.Kept p.showStats := by
  unfold showStats
  split
  · rename_i hm
    exact ⟨rfl, rfl, rfl, rfl, nofun, fun _ => .inl hm⟩
  · exact .refl p

theorem kept_quit (p : Player) : p.Kept p.quit := ⟨rfl, rfl, rfl, rfl, nofun, nofun⟩

end Player

namespace Move

variable {p : Player} {library : Library} {typing : Typing} {move : Move}

/-- A move without a destination leads nowhere. -/
theorem stays_of_none (h : move.destination? p = none) : p.Stays library (move.make library typing p) := by
  have hup : p.trail.up? p.lesson = none → p.goUp library = .stayed p := by
    intro hnone
    rw [Player.goUp, hnone]
  cases move with
  | up =>
    show p.Stays library (p.goUp library).player
    rw [hup h]
    exact .kept (.refl p)
  | scriptUp =>
    show p.Stays library ((p.goUp library).outcome).player
    rw [hup h]
    exact .kept (.refl p)
  | escape =>
    show p.Stays library (p.escape library)
    dsimp only [destination?] at h
    unfold Player.escape Player.up
    split
    · exact .kept ⟨rfl, rfl, rfl, rfl, nofun, nofun⟩
    · rename_i hm
      rw [if_neg hm] at h
      rw [hup h]
      exact .kept (.refl p)
  | select index =>
    show p.Stays library ((p.select? library index).getD p)
    dsimp only [destination?] at h
    unfold Player.select?
    split
    · exact .kept (.refl p)
    · rename_i hm
      rw [if_neg hm] at h
      cases htarget : p.trail.menu[index]? with
      | none => exact .kept (.refl p)
      | some target =>
        rw [htarget, Option.bind_some] at h
        rw [Option.map_some, Option.getD_some]
        split
        · exact .kept (Player.kept_showStats p)
        · rename_i hstats
          split
          · rename_i hback
            rw [if_neg (by simp [hback]), if_pos hback] at h
            show p.Stays library (p.goUp library).player
            rw [hup h]
            exact .kept (.refl p)
          · rename_i hback
            split
            · exact .kept (Player.kept_quit p)
            · rename_i hquit
              rw [if_neg (not_or.2 ⟨hstats, hquit⟩), if_neg hback] at h
              cases h
  | scriptNext target =>
    show p.Stays library ((p.goNext library target).outcome).player
    dsimp only [destination?] at h
    unfold Player.goNext
    cases target with
    | some name => cases h
    | none =>
      cases hnext : p.trail.next? p.lesson with
      | some name =>
        rw [hnext] at h
        cases h
      | none =>
        rw [hnext] at h
        dsimp only
        rw [hup h]
        exact .kept (.refl p)

/-- A move stays where it is or opens its destination. -/
theorem stays_or_opens (library : Library) (typing : Typing) (move : Move) (p : Player) :
    p.Stays library (move.make library typing p) ∨ ∃ name trail content, move.destination? p = some (name, trail) ∧
      library (Player.resolve p.lessonDir name).2 = some content ∧ (move.make library typing p).Opened library := by
  cases h : move.destination? p with
  | none => exact .inl (stays_of_none h)
  | some destination =>
    obtain ⟨name, trail⟩ := destination
    obtain ⟨hopens, hstays, -⟩ := move_of_destination library typing move p name trail h
    cases hread : library (Player.resolve p.lessonDir name).2 with
    | some content => exact .inr ⟨name, trail, content, rfl, hread, Player.opened_open (hopens content hread)⟩
    | none =>
      rw [(hstays hread).1]
      rcases trail_destination h with ⟨-, hup⟩ | ⟨-, rfl⟩
      · exact .inl (.lost (.refl p) hup hread)
      · exact .inl (.kept (.refl p))

end Move

/-- The way to another lesson that a command takes. -/
def Command.move? : Command → Option Move
  | .up => some .up
  | .escape => some .escape
  | .select index => some (.select index)
  | .selectKey key => (Player.menuIndex? key).map .select
  | _ => none

namespace Desk

/-- The command opens a lesson. -/
inductive Opens (desk : Desk) (clock : Timestamp) : Command → Prop where
  | named {lesson content : Text} : desk.library (Player.resolve desk.player.lessonDir lesson).2 = some content →
      Opens desk clock (.open lesson)
  | moved {command : Command} {move : Move} {name content : Text} {trail : Trail} : command.move? = some move →
      move.destination? desk.player = some (name, trail) →
      desk.library (Player.resolve desk.player.lessonDir name).2 = some content → Opens desk clock command
  | script {now : Instant} : desk.player.mode ≠ .practice → desk.player.ScriptOpens desk.library desk.typing →
      Opens desk clock (.run now)
  /-- The script does after a round. -/
  | scriptOn {now : Instant} {finished : Desk} : desk.player.mode = .practice →
      (desk.withPlayer (desk.player.poll now)).finishRound now clock = .ok finished →
      finished.player.ScriptOpens finished.library finished.typing → Opens desk clock (.run now)

theorem player_attempt {desk after : Desk} {changed : Option Player} {answer : Option Bool}
    (h : (.ok (desk.attempt changed) : Except Fault (Option Bool × Desk)) = .ok (answer, after)) :
    after.player = changed.getD desk.player := by
  cases changed <;> cases h <;> rfl

theorem kept_finishRound {desk after : Desk} {now : Instant} {clock : Timestamp}
    (h : desk.finishRound now clock = .ok after) : desk.player.Kept after.player := by
  rw [(finishRound_frame h).2]
  exact Player.kept_afterRound ..

theorem kept_poll (p : Player) (now : Instant) : p.Kept (p.poll now) := ⟨rfl, rfl, rfl, rfl, id, .inr⟩

theorem kept_entered {desk after : Desk} {now : Instant} {clock : Timestamp} {hs : List Happening}
    (h : desk.Entered now clock after hs) : desk.player.Kept after.player := by
  cases h with
  | left => exact ⟨rfl, rfl, rfl, rfl, nofun, nofun⟩
  | ignored => exact .refl _
  | typed => exact (kept_poll _ now).trans (Player.kept_practise _ fun s => s.append ['\n'] now)
  | finished _ hfinish => exact (kept_poll _ now).trans (kept_finishRound hfinish)

/-- A command that does not read the script stays in the lesson or opens one. -/
theorem stays_perform {desk after : Desk} {clock : Timestamp} {command : Command} {answer : Option Bool}
    (hrun : ∀ now, command ≠ .run now) (hperform : desk.perform clock command = .ok (answer, after)) :
    desk.player.Stays desk.library after.player ∨
      desk.Opens clock command ∧ after.player.Opened desk.library := by
  have hmoves : ∀ move, command.move? = some move → after.player = move.make desk.library desk.typing desk.player →
      desk.player.Stays desk.library after.player ∨
        desk.Opens clock command ∧ after.player.Opened desk.library := by
    intro move hmove hafter
    rw [hafter]
    rcases Move.stays_or_opens desk.library desk.typing move desk.player with hstays |
      ⟨name, trail, content, hdestination, hread, hopened⟩
    · exact .inl hstays
    · exact .inr ⟨.moved hmove hdestination hread, hopened⟩
  have hkept : ∀ q, desk.player.Kept q → desk.withPlayer q = after → desk.player.Stays desk.library after.player ∨
      desk.Opens clock command ∧ after.player.Opened desk.library := by
    rintro q hq rfl
    exact .inl (.kept hq)
  cases command with
  | run now => exact absurd rfl (hrun now)
  | enter now => exact .inl (.kept (kept_entered (enter_of_perform hperform)))
  | «open» lesson =>
    rw [player_attempt hperform]
    cases hopen : desk.player.open? desk.library lesson with
    | none => exact .inl (.kept (.refl _))
    | some q =>
      obtain ⟨content, hread, -⟩ := Option.map_eq_some_iff.1 hopen
      exact .inr ⟨.named hread, Player.opened_open hopen⟩
  | select index => exact hmoves (.select index) rfl (player_attempt hperform)
  | selectKey key =>
    have hafter := player_attempt hperform
    cases hkey : Player.menuIndex? key with
    | none =>
      rw [hkey] at hafter
      rw [hafter]
      exact .inl (.kept (.refl _))
    | some index =>
      rw [hkey] at hafter
      refine hmoves (.select index) ?_ hafter
      rw [Command.move?, hkey]
      rfl
  | up =>
    cases hperform
    exact hmoves .up rfl rfl
  | escape =>
    cases hperform
    exact hmoves .escape rfl rfl
  | delete offset count =>
    rw [player_attempt hperform]
    cases hdelete : desk.player.delete? offset count with
    | none => exact .inl (.kept (.refl _))
    | some q =>
      obtain ⟨s, -, rfl⟩ := Option.map_eq_some_iff.1 hdelete
      exact .inl (.kept ⟨rfl, rfl, rfl, rfl, id, .inr⟩)
  | backspace | append | setPreedit =>
    cases hperform
    exact hkept _ (Player.kept_practise ..) rfl
  | press key =>
    cases hperform
    exact hkept _ (Player.kept_press ..) rfl
  | showStats =>
    cases hperform
    exact hkept _ (Player.kept_showStats _) rfl
  | quit =>
    cases hperform
    exact hkept _ (Player.kept_quit _) rfl

theorem disk_finishRound {desk after : Desk} {now : Instant} {clock : Timestamp}
    (h : desk.finishRound now clock = .ok after) : ∃ r, after.disk = desk.log.writeRecord desk.disk r := by
  rw [finishRound_eq] at h
  obtain ⟨log, -, hafter⟩ := ok_of_bind h
  cases hafter
  exact ⟨_, rfl⟩

end Desk

/-! ## Occasions -/

/-- The lessons that can be read on the occasion, before a round is recorded or after it. -/
def Occasion.Reads (o : Occasion) (library : Library) : Prop :=
  library = o.disk.readText? ∨ ∃ r, library = (o.log.writeRecord o.disk r).readText?

theorem reads_finishRound {o : Occasion} {desk after : Desk} {now : Instant} {clock : Timestamp}
    (hlog : desk.log = o.log) (hdisk : desk.disk = o.disk) (h : desk.finishRound now clock = .ok after) :
    o.Reads after.library := by
  obtain ⟨r, hr⟩ := Desk.disk_finishRound h
  rw [hlog, hdisk] at hr
  exact .inr ⟨r, by rw [Desk.library, hr]⟩

/-- What no player loses that stays in its lesson is not lost on any occasion, if the occasion opens no lesson or every
player in a lesson that has just been opened has it. -/
theorem next_preserves {Inv : Player → Prop} {o : Occasion} {p q : Player}
    (hstays : ∀ library, o.Reads library → ∀ p q, Inv p → p.Stays library q → Inv q)
    (hopened : (o.desk p).Opens o.clock o.command → ∀ library, o.Reads library → ∀ q, q.Opened library → Inv q)
    (h : Inv p) (hnext : o.next? p = some q) : Inv q := by
  have hreads : o.Reads (o.desk p).library := .inl rfl
  have hkept : ∀ x y, Inv x → x.Kept y → Inv y := fun x y hx hy => hstays _ hreads x y hx (.kept hy)
  unfold Occasion.next? at hnext
  split at hnext
  · rename_i answer after hperform
    cases hnext
    by_cases hc : ∃ now, o.command = .run now
    · obtain ⟨now, hc⟩ := hc
      rw [hc] at hperform hopened
      have hpoll : Inv (p.poll now) := hkept _ _ h (Desk.kept_poll p now)
      have hran := Desk.run_of_perform hperform
      generalize (o.desk p).happenings o.clock (.run now) = hs at hran
      cases hran with
      | closed => exact h
      | read hm =>
        exact Player.scan_preserves (hstays _ hreads) (fun hscript => hopened (.script hm hscript) _ hreads) h
      | timedOut => exact hkept _ _ hpoll ⟨rfl, rfl, rfl, rfl, id, .inr⟩
      | pending => exact hpoll
      | drew _ _ hfinish => exact hkept _ _ hpoll (Desk.kept_finishRound hfinish)
      | readOn hm _ hfinish =>
        -- the script is read with the disk that the record has been written to
        have hread := reads_finishRound (o := o) rfl rfl hfinish
        have hfinished := hkept _ _ hpoll (Desk.kept_finishRound hfinish)
        exact Player.scan_preserves (hstays _ hread)
          (fun hscript => hopened (.scriptOn hm hfinish hscript) _ hread) hfinished
    · rcases Desk.stays_perform (not_exists.1 hc) hperform with hs | ⟨hopens, hlesson⟩
      · exact hstays _ hreads _ _ h hs
      · exact hopened hopens _ hreads _ hlesson
  · cases hnext

end KanaTutor
