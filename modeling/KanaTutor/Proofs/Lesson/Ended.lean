/-
The end of the lessons. A tutor whose lessons have ended stays so, records nothing and leaves its log and the disk
alone, as long as it opens no lesson: opening one, by its name or by going back to it, does not look at the end. Nor
does forgetting all practice, which opens the log again.
-/
import KanaTutor.Proofs.Lesson.Happening
import KanaTutor.Proofs.Lesson.History
import KanaTutor.Proofs.Lesson.Reading
import KanaTutor.Proofs.Stats.Days
import KanaTutor.Tutor

namespace KanaTutor

/-! ## Requests -/

/-- What a tutor is asked for: a command, or to forget all practice. -/
inductive Request where
  | command (clock : Timestamp) (c : Command)
  | resetStats

namespace Tutor

/-- The lessons have ended. -/
def Ended (t : Tutor) : Prop := t.desk.player.mode = .exit

/-- The log is closed. -/
def Closed (t : Tutor) : Prop := t.desk.log.file = none

/-- Does what the tutor is asked for. -/
def serve (t : Tutor) : Request → Except Fault Tutor
  | .command clock c => do
    let (_, t) ← t.perform clock c
    .ok t
  | .resetStats => .ok t.resetStats

/-- What a request makes happen. -/
def happenings (t : Tutor) : Request → List Happening
  | .command clock c => t.desk.happenings clock c
  | .resetStats => []

/-- Does one request after the other: what is recorded, and the tutor then. -/
def serveAll (t : Tutor) : List Request → Except Fault (List Record × Tutor)
  | [] => .ok ([], t)
  | r :: requests => do
    let next ← t.serve r
    let (records, last) ← serveAll next requests
    .ok (recordsIn (t.happenings r) ++ records, last)

/-- The request opens a lesson. -/
def opens (t : Tutor) : Request → Bool
  | .command _ (.open lesson) => (t.desk.player.open? t.desk.library lesson).isSome
  | .command _ .up | .command _ .escape =>
    match t.desk.player.goUp t.desk.library with
    | .opened _ => true
    | .stayed _ => false
  | _ => false

/-- None of the requests opens a lesson when its turn comes. -/
def OpensNothing (t : Tutor) : List Request → Prop
  | [] => True
  | r :: requests => t.opens r = false ∧ ∀ next, t.serve r = .ok next → OpensNothing next requests

/-- None of the requests is to forget all practice if the lessons have ended when its turn comes. -/
def ForgetsBeforeEnd (t : Tutor) : List Request → Prop
  | [] => True
  | r :: requests => (t.Ended → r ≠ .resetStats) ∧ ∀ next, t.serve r = .ok next → ForgetsBeforeEnd next requests

end Tutor

/-! ## One command -/

namespace Player

theorem mode_goUp (p : Player) (library : Library) :
    match p.goUp library with
    | .opened q => q.mode = .run
    | .stayed q => q.mode = p.mode := by
  unfold goUp
  cases p.trail.up? p.lesson with
  | none => rfl
  | some found =>
    obtain ⟨name, trail⟩ := found
    dsimp only
    unfold openOrStay
    cases hopen : Player.open? { p with trail } library name with
    | none => rfl
    | some q => exact mode_open hopen

theorem mode_practise (p : Player) (f : Session → Session) : (p.practise f).mode = p.mode := by
  unfold practise
  split <;> rfl

theorem mode_press (p : Player) (layout : Layout) (key : KeyPress) : (p.press layout key).mode = p.mode := by
  unfold press
  split
  · exact mode_practise ..
  · rfl

theorem mode_delete {p q : Player} {offset : Int} {count : Nat} (h : p.delete? offset count = some q) :
    q.mode = p.mode := by
  obtain ⟨s, -, rfl⟩ := Option.map_eq_some_iff.1 h
  rfl

/-- A finished round leads to another one, or back to the script. -/
theorem not_exit_afterRound (p : Player) (typing : Typing) (r : RoundResult) :
    (p.afterRound typing r).mode ≠ .exit := by
  unfold afterRound nextRound?
  cases hdraw : p.pool.nextRound? p.source with
  | none =>
    simp only [hdraw, Option.map_none, Option.getD_none]
    exact Mode.noConfusion
  | some drawn =>
    simp only [hdraw, Option.map_some, Option.getD_some]
    exact Mode.noConfusion

end Player

namespace Desk

/-- Nothing is recorded outside practice. -/
theorem recordsIn_of_mode {desk : Desk} (h : desk.player.mode ≠ .practice) (clock : Timestamp) (command : Command) :
    recordsIn (desk.happenings clock command) = [] := by
  rcases desk.finishes_cases clock command with hnone | ⟨now, -, hmode, -, -⟩
  · exact hnone
  · exact absurd hmode h

/-- Confirming neither ends the lessons nor goes on after the end. -/
theorem exit_enter {desk after : Desk} {now : Instant} {clock : Timestamp} (h : desk.enter now clock = .ok after) :
    after.player.mode = .exit ↔ desk.player.mode = .exit := by
  unfold enter at h
  split at h
  · rename_i hm
    cases h
    exact iff_of_false Mode.noConfusion (by rw [hm]; exact Mode.noConfusion)
  · rename_i hm
    cases h
    exact iff_of_false Mode.noConfusion (by rw [hm]; exact Mode.noConfusion)
  · rename_i hm
    have hbefore : desk.player.mode ≠ .exit := by rw [hm]; exact Mode.noConfusion
    dsimp only at h
    split at h
    · refine iff_of_false ?_ hbefore
      rw [(finishRound_frame h).2]
      exact Player.not_exit_afterRound _ _ _
    · cases h
      have hafter := (desk.player.poll now).mode_practise fun s => s.append ['\n'] now
      exact iff_of_false (fun hexit => hbefore (hafter.symm.trans hexit)) hbefore
  · cases h
    exact Iff.rfl

/-- After the end nothing is read. -/
theorem exit_run {desk after : Desk} {now : Instant} {clock : Timestamp} {started : Bool}
    (hm : desk.player.mode = .exit) (h : desk.run now clock = .ok (started, after)) : after.player.mode = .exit := by
  have hscan : desk.scan = (false, desk) := by
    have hreads : desk.player.mode.isReading = false := by rw [hm]; rfl
    exact desk.scan_eq (Player.scanFrom_of_not_reading hreads ..)
  unfold run at h
  split at h
  · cases h
    exact hm
  · rw [if_pos (by rw [hm]; exact Mode.noConfusion), hscan] at h
    cases h
    exact hm

/-- After a change that may not be possible. -/
theorem exit_attempt {desk after : Desk} {changed : Option Player} {answer : Option Bool}
    (hafter : desk.attempt changed = (answer, after)) (hchanged : ∀ q ∈ changed, q.mode = desk.player.mode) :
    after.player.mode = desk.player.mode := by
  cases changed with
  | none => cases hafter; rfl
  | some q => cases hafter; exact hchanged q rfl

end Desk

namespace Tutor

variable {t : Tutor}

/-- Of the commands that close no log none ends the lessons, and after the end they go on only by opening a lesson. -/
theorem exit_of_not_closes {after : Desk} {clock : Timestamp} {c : Command} {answer : Option Bool}
    (hc : closes c = false) (hperform : t.desk.perform clock c = .ok (answer, after)) :
    after.player.mode = .exit ↔ t.Ended ∧ t.opens (.command clock c) = false := by
  -- most commands do not change whether the lessons have ended
  have hsame : ∀ {m : Mode}, m = t.desk.player.mode → (m = .exit ↔ t.Ended ∧ false = false) := by
    rintro m rfl
    exact (and_iff_left rfl).symm
  have hup : (t.desk.player.up t.desk.library).mode = .exit ↔ t.Ended ∧ t.opens (.command clock .up) = false := by
    have hmode := t.desk.player.mode_goUp t.desk.library
    unfold Player.up opens
    cases hgo : t.desk.player.goUp t.desk.library with
    | opened q =>
      rw [hgo] at hmode
      exact iff_of_false (fun hexit => absurd (hmode.symm.trans hexit) Mode.noConfusion) (fun h => nomatch h.2)
    | stayed q =>
      rw [hgo] at hmode
      exact hsame hmode
  cases c with
  | run | select | selectKey | quit => cases hc
  | up => cases hperform; exact hup
  | «open» lesson =>
    have hafter := Except.ok.inj hperform
    show _ ↔ t.Ended ∧ (t.desk.player.open? t.desk.library lesson).isSome = false
    cases hopen : t.desk.player.open? t.desk.library lesson with
    | none =>
      rw [hopen] at hafter
      cases hafter
      exact hsame rfl
    | some q =>
      rw [hopen] at hafter
      cases hafter
      exact iff_of_false (fun hexit => absurd ((Player.mode_open hopen).symm.trans hexit) Mode.noConfusion)
        (fun h => nomatch h.2)
  | escape =>
    cases hperform
    show (t.desk.player.escape t.desk.library).mode = .exit ↔ _
    unfold Player.escape
    split
    · rename_i hstats
      refine iff_of_false Mode.noConfusion fun h => ?_
      rw [Ended, hstats] at h
      cases h.1
    · exact hup
  | enter now =>
    obtain ⟨desk, henter, hrest⟩ := ok_of_bind hperform
    cases hrest
    exact (Desk.exit_enter henter).trans (hsame rfl)
  | delete offset count =>
    exact hsame (Desk.exit_attempt (Except.ok.inj hperform) fun q hq => Player.mode_delete hq)
  | press key => cases hperform; exact hsame (Player.mode_press ..)
  | backspace | append | setPreedit => cases hperform; exact hsame (Player.mode_practise ..)
  | showStats =>
    cases hperform
    show t.desk.player.showStats.mode = .exit ↔ _
    unfold Player.showStats
    split
    · rename_i hmenu
      refine iff_of_false Mode.noConfusion fun h => ?_
      rw [Ended, hmenu] at h
      cases h.1
    · exact hsame rfl

/-- After the end a command leaves the end only by opening a lesson. -/
theorem mode_perform {after : Desk} {clock : Timestamp} {c : Command} {answer : Option Bool} (h : t.Ended)
    (hperform : t.desk.perform clock c = .ok (answer, after)) :
    after.player.mode = .exit ↔ t.opens (.command clock c) = false := by
  have hm : t.desk.player.mode = .exit := h
  have hselect : ∀ index, t.desk.player.select? t.desk.library index = none :=
    fun index => if_pos (by rw [hm]; exact Mode.noConfusion)
  cases hc : closes c with
  | false => exact (exit_of_not_closes hc hperform).trans (and_iff_right h)
  | true =>
    cases c with
    | run now =>
      obtain ⟨⟨started, desk⟩, hrun, hrest⟩ := ok_of_bind hperform
      cases hrest
      exact iff_of_true (Desk.exit_run hm hrun) rfl
    | select index =>
      have hafter := Desk.exit_attempt (Except.ok.inj hperform) (by rw [hselect]; exact fun _ hq => nomatch hq)
      exact iff_of_true (hafter.trans hm) rfl
    | selectKey key =>
      have hafter := Desk.exit_attempt (Except.ok.inj hperform) (by
        rw [Option.bind_eq_none_iff.2 fun index _ => hselect index]
        exact fun _ hq => nomatch hq)
      exact iff_of_true (hafter.trans hm) rfl
    | quit => cases hperform; exact iff_of_true rfl rfl
    | _ => cases hc

/-! ## Requests after the end -/

theorem perform_ok {clock : Timestamp} {c : Command} {answer : Option Bool} {after : Desk}
    (h : t.desk.perform clock c = .ok (answer, after)) :
    t.serve (.command clock c) = .ok { t with
      desk := if closes c && after.player.mode = .exit then { after with log := after.log.close } else after } := by
  rw [serve, perform, h]
  rfl

/-- After the end a request does not fail and records nothing. The end is left only by opening a lesson, and the log and
the disk are left alone unless all practice is to be forgotten. -/
theorem serve_ended (h : t.Ended) (r : Request) :
    ∃ next, t.serve r = .ok next ∧ recordsIn (t.happenings r) = [] ∧ (next.Ended ↔ t.opens r = false) ∧
      (r ≠ .resetStats → t.Closed → next.desk.log = t.desk.log ∧ next.desk.disk = t.desk.disk) := by
  cases r with
  | resetStats => exact ⟨t.resetStats, rfl, rfl, iff_of_true h rfl, fun hne => absurd rfl hne⟩
  | command clock c =>
    have hnone : recordsIn (t.desk.happenings clock c) = [] :=
      Desk.recordsIn_of_mode (by rw [show t.desk.player.mode = .exit from h]; exact Mode.noConfusion) clock c
    obtain ⟨answer, after, hperform, hlog, hdisk⟩ := Desk.perform_of_none hnone
    refine ⟨_, perform_ok hperform, hnone, ?_, fun _ hclosed => ?_⟩
    · rw [← mode_perform h hperform]
      unfold Ended
      split <;> exact Iff.rfl
    · -- a closed log can be closed again
      have hclose : t.desk.log.close = t.desk.log := by
        unfold Log.close
        rw [← show t.desk.log.file = none from hclosed]
      split
      · exact ⟨by rw [hlog, hclose], hdisk⟩
      · exact ⟨hlog, hdisk⟩

/-- Any number of requests after the end. -/
theorem serveAll_ended {requests : List Request} (h : t.Ended) (hopens : t.OpensNothing requests) :
    ∃ last, t.serveAll requests = .ok ([], last) ∧ last.Ended ∧
      (t.Closed → .resetStats ∉ requests →
        last.Closed ∧ last.desk.log = t.desk.log ∧ last.desk.disk = t.desk.disk) := by
  induction requests generalizing t with
  | nil => exact ⟨t, rfl, h, fun hclosed _ => ⟨hclosed, rfl, rfl⟩⟩
  | cons r requests ih =>
    obtain ⟨next, hserve, hrecords, hended, hkept⟩ := serve_ended h r
    obtain ⟨hr, hrest⟩ := hopens
    obtain ⟨last, hall, hlast, hkeptAll⟩ := ih (hended.2 hr) (hrest next hserve)
    refine ⟨last, ?_, hlast, fun hclosed hreset => ?_⟩
    · rw [serveAll, hserve, ok_bind, hall, hrecords]
      rfl
    · rw [List.mem_cons, not_or] at hreset
      obtain ⟨hlog, hdisk⟩ := hkept (Ne.symm hreset.1) hclosed
      have hnext : next.Closed := by
        unfold Closed
        rw [hlog]
        exact hclosed
      obtain ⟨hlastClosed, hlogs, hdisks⟩ := hkeptAll hnext hreset.2
      exact ⟨hlastClosed, hlogs.trans hlog, hdisks.trans hdisk⟩

/-! ## Before the end -/

/-- A closed log is what the end of the lessons leaves behind, and it takes forgetting all practice to open it again. -/
theorem closed_of_serve {next : Tutor} {r : Request} (h : t.Ended → t.Closed) (hr : t.Ended → r ≠ .resetStats)
    (hserve : t.serve r = .ok next) : next.Ended → next.Closed := by
  cases r with
  | resetStats =>
    cases hserve
    exact fun hended => absurd rfl (hr hended)
  | command clock c =>
    obtain ⟨⟨answer, t'⟩, hperform, hrest⟩ := ok_of_bind hserve
    cases hrest
    obtain ⟨⟨answer', after⟩, hdesk, hrest⟩ := ok_of_bind hperform
    cases hrest
    intro hended
    unfold Ended at hended
    unfold Closed
    dsimp only at hended ⊢
    split
    · rfl
    · -- the log was not closed just now, so the lessons had ended before
      rename_i hcloses
      rw [if_neg hcloses] at hended
      have hc : closes c = false := by simpa [hended] using hcloses
      obtain ⟨ht, -⟩ := (exit_of_not_closes hc hdesk).1 hended
      have hnone : recordsIn (t.desk.happenings clock c) = [] :=
        Desk.recordsIn_of_mode (by rw [show t.desk.player.mode = .exit from ht]; exact Mode.noConfusion) clock c
      obtain ⟨answer'', after', hperform', hlog, -⟩ := Desk.perform_of_none hnone
      rw [hdesk] at hperform'
      cases hperform'
      rw [hlog]
      exact h ht

theorem closed_of_serveAll {last : Tutor} {requests : List Request} {records : List Record} (h : t.Ended → t.Closed)
    (hforgets : t.ForgetsBeforeEnd requests) (hall : t.serveAll requests = .ok (records, last)) :
    last.Ended → last.Closed := by
  induction requests generalizing t records with
  | nil =>
    cases hall
    exact h
  | cons r requests ih =>
    obtain ⟨next, hserve, hrest⟩ := ok_of_bind hall
    obtain ⟨⟨records', last'⟩, hrequests, hlast⟩ := ok_of_bind hrest
    cases hlast
    exact ih (closed_of_serve h hforgets.1 hserve) (hforgets.2 next hserve) hrequests

theorem not_ended_ofSettings {settings : Settings} {disk : Disk} {source : Xoshiro} {clock : Timestamp}
    (h : ofSettings settings disk source clock = .ok t) : ¬t.Ended := by
  obtain ⟨⟨log, disk'⟩, -, hrest⟩ := ok_of_bind h
  cases hrest
  exact Mode.noConfusion

/-- The log of a tutor is closed once the lessons have ended, unless all practice was forgotten after the end. From then
on, any number of requests that open no lesson leave it at the end: they do not fail, nothing is recorded, and the log
stays closed and the disk as it is, unless all practice is to be forgotten. -/
theorem ended_for_good (h : t.Ended) :
    (∀ (settings : Settings) (disk : Disk) (source : Xoshiro) (clock : Timestamp) (fresh : Tutor)
      (requests : List Request) (records : List Record), ofSettings settings disk source clock = .ok fresh →
      fresh.serveAll requests = .ok (records, t) → fresh.ForgetsBeforeEnd requests → t.Closed) ∧
    ∀ requests : List Request, t.OpensNothing requests →
      ∃ last, t.serveAll requests = .ok ([], last) ∧ last.Ended ∧
        (t.Closed → .resetStats ∉ requests →
          last.Closed ∧ last.desk.log = t.desk.log ∧ last.desk.disk = t.desk.disk) := by
  refine ⟨?_, fun _ => serveAll_ended h⟩
  intro settings disk source clock fresh requests records hfresh hall hforgets
  exact closed_of_serveAll (fun hended => absurd hended (not_ended_ofSettings hfresh)) hforgets hall h

end Tutor

/-! ## A lesson opened after the end -/

namespace OneLetter

def configured : Settings := { lessonDir := [], logFile := "log".toList }

/-- The requests of a learner who opens the lesson and quits. -/
def quitting : List Request := [.command clock (.open ['a']), .command clock .quit]

/-- The player of a learner who has quit, its log and the disk. -/
def quitted : Player × Log × Disk :=
  ({ opened with mode := .exit }, { path := "log".toList }, disk.put ["log".toList] (.file []))

theorem serveAll_quitting : ∃ fresh t,
    Tutor.ofSettings configured disk ⟨1, 2, 3, 4⟩ clock = .ok fresh ∧ fresh.serveAll quitting = .ok ([], t) ∧
      (t.desk.player, t.desk.log, t.desk.disk) = quitted := by
  have hquitted :
      (Tutor.ofSettings configured disk ⟨1, 2, 3, 4⟩ clock >>= fun fresh =>
        fresh.serveAll quitting >>= fun (records, t) =>
          .ok (records, t.desk.player, t.desk.log, t.desk.disk)) = .ok ([], quitted) := by
    decide +kernel
  obtain ⟨fresh, hfresh, hrest⟩ := ok_of_bind hquitted
  obtain ⟨⟨records, t⟩, hall, hlast⟩ := ok_of_bind hrest
  injection hlast with hlast
  injection hlast with hrecords ht
  subst hrecords
  exact ⟨fresh, t, hfresh, hall, ht⟩

end OneLetter

namespace Tutor

open OneLetter in
/-- The learner has quit and goes on all the same. -/
theorem ended_for_good_quit : ∃ fresh t last,
    ofSettings configured disk ⟨1, 2, 3, 4⟩ clock = .ok fresh ∧ fresh.serveAll quitting = .ok ([], t) ∧
      t.Ended ∧ t.Closed ∧
      t.OpensNothing ([.up, .run .zero, .append ['x'] .zero, .enter .zero].map (.command clock)) ∧
      t.serveAll ([.up, .run .zero, .append ['x'] .zero, .enter .zero].map (.command clock)) = .ok ([], last) ∧
      last.Ended ∧ last.Closed := by
  obtain ⟨fresh, t, hfresh, hall, hquitted⟩ := serveAll_quitting
  have hplayer : t.desk.player = { opened with mode := .exit } := congrArg Prod.fst hquitted
  have hended : t.Ended := congrArg Player.mode hplayer
  obtain ⟨hclosing, hstays⟩ := ended_for_good hended
  have hclosed : t.Closed := hclosing configured disk ⟨1, 2, 3, 4⟩ clock fresh quitting [] hfresh hall
    ⟨fun _ => Request.noConfusion, fun _ _ => ⟨fun _ => Request.noConfusion, fun _ _ => trivial⟩⟩
  have hup : t.opens (.command clock .up) = false := by
    unfold opens
    rw [hplayer]
    rfl
  have hopens : t.OpensNothing ([.up, .run .zero, .append ['x'] .zero, .enter .zero].map (.command clock)) :=
    ⟨hup, fun _ _ => ⟨rfl, fun _ _ => ⟨rfl, fun _ _ => ⟨rfl, fun _ _ => trivial⟩⟩⟩⟩
  obtain ⟨last, hlast, hlastEnded, hkept⟩ := hstays _ hopens
  exact ⟨fresh, t, last, hfresh, hall, hended, hclosed, hopens, hlast, hlastEnded, (hkept hclosed (by simp)).1⟩

open OneLetter in
/-- The learner has quit and opens the lesson again, or forgets all practice. -/
theorem ended_reopened : ∃ fresh t again,
    ofSettings configured disk ⟨1, 2, 3, 4⟩ clock = .ok fresh ∧ fresh.serveAll quitting = .ok ([], t) ∧
      t.Ended ∧ t.Closed ∧
      t.serve (.command clock (.open ['a'])) = .ok again ∧ ¬again.Ended ∧
      t.serve .resetStats = .ok t.resetStats ∧ ¬t.resetStats.Closed := by
  obtain ⟨fresh, t, hfresh, hall, hquitted⟩ := serveAll_quitting
  obtain ⟨hplayer, hlogged⟩ := Prod.mk.inj hquitted
  obtain ⟨hlog, hdisk⟩ := Prod.mk.inj hlogged
  have hended : t.Ended := congrArg Player.mode hplayer
  have hclosed : t.Closed := congrArg Log.file hlog
  obtain ⟨again, hserve, -, hleft, -⟩ := serve_ended hended (.command clock (.open ['a']))
  have hopens : t.opens (.command clock (.open ['a'])) = true := by
    unfold opens Desk.library
    rw [hplayer, hdisk]
    decide +kernel
  have hfile : (t.desk.log.reset t.desk.disk).1.file = some ["log".toList] := by
    rw [hlog, hdisk]
    decide +kernel
  refine ⟨fresh, t, again, hfresh, hall, hended, hclosed, hserve, fun hagain => ?_, rfl, fun hreset => ?_⟩
  · exact absurd (hopens.symm.trans (hleft.1 hagain)) Bool.noConfusion
  · exact absurd (hfile.symm.trans hreset) (Option.some_ne_none _)

end Tutor

end KanaTutor
