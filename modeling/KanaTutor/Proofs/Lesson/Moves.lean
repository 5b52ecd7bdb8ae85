/-
Moves from lesson to lesson: the learner goes back, escapes or follows an entry of the menu, and the script goes back
or on. The lesson to go to, and the trail to go on with, are settled before the lesson is read. If it cannot be read,
the player stays where it is, but with that trail.

A move on keeps the trail, so it is made as a whole or not at all. A move back takes the lesson to go back to off the
trail, and does not put it on again if it cannot be read: only where the current lesson is all there is on the trail,
nothing is taken off and nothing is lost.
-/
import KanaTutor.Proofs.Lesson.History
import KanaTutor.Proofs.Lesson.Reading

namespace KanaTutor

/-- A way to another lesson. -/
inductive Move where
  | up
  | escape
  | select (index : Nat)
  | scriptUp
  | scriptNext (target : Option Text)
deriving DecidableEq, Repr

def Player.Outcome.player : Player.Outcome → Player
  | .ongoing p | .opened p | .started p => p

namespace Move

/-- The player after the move. -/
def make (move : Move) (library : Library) (typing : Typing) (p : Player) : Player :=
  match move with
  | up => p.up library
  | escape => p.escape library
  | select index => (p.select? library index).getD p
  | scriptUp => (p.follow library typing .up).player
  | scriptNext target => (p.follow library typing (.next target)).player

/-- The lesson that the move would open, and the trail from there. Nothing if the move leads to no lesson: it leaves
the statistics, follows an entry that is missing or names no lesson, or there is none to go back to. -/
def destination? (move : Move) (p : Player) : Option (Text × Trail) :=
  match move with
  | up | scriptUp => p.trail.up? p.lesson
  | escape => if p.mode = .stats then none else p.trail.up? p.lesson
  | select index =>
    if p.mode ≠ .menu then none
    else
      p.trail.menu[index]?.bind fun target =>
        if target = "stats".toList ∨ target = "quit".toList then none
        else if target = "up".toList then p.trail.up? p.lesson
        else some (target, p.trail)
  | scriptNext (some name) => some (name, p.trail)
  | scriptNext none =>
    match p.trail.next? p.lesson with
    | some name => some (name, p.trail)
    | none => p.trail.up? p.lesson

/-- The move goes back along the trail. -/
def goesBack (move : Move) (p : Player) : Bool :=
  match move with
  | up | escape | scriptUp => true
  | select index => p.trail.menu[index]? = some "up".toList
  | scriptNext target => target.isNone && (p.trail.next? p.lesson).isNone

end Move

/-! ## The trail -/

/-- Going back takes lessons off the trail, unless the current one is all there is on it. -/
theorem Trail.up?_frame {trail after : Trail} {current name : Text} (h : trail.up? current = some (name, after)) :
    after.menu = trail.menu ∧ after.back <:+ trail.back ∧ (after = trail ↔ trail.back = [current]) := by
  obtain ⟨back, menu⟩ := trail
  unfold up? at h
  dsimp only at h
  split at h
  · cases h
  · rename_i top rest
    split at h
    · rename_i hne
      cases h
      exact ⟨rfl, List.suffix_cons .., by simp [hne]⟩
    · rename_i htop
      obtain rfl : top = current := by simpa using htop
      split at h
      · -- the current lesson is the only one, and it stays
        cases h
        simp
      · -- it is taken off with the one before it
        cases h
        refine ⟨rfl, (List.suffix_cons ..).trans (List.suffix_cons ..), ?_⟩
        simp only [Trail.mk.injEq, and_true, List.cons.injEq, reduceCtorEq, and_false, iff_false]
        intro hback
        have hlength := congrArg List.length hback
        simp only [List.length_cons] at hlength
        omega

/-! ## Making a move -/

namespace Player

variable {p : Player} {library : Library}

theorem player_openOrStay (p : Player) (library : Library) (name : Text) :
    (p.openOrStay library name).player = (p.open? library name).getD p := by
  unfold openOrStay
  split
  · rename_i hq
    rw [hq]
    rfl
  · rename_i hnone
    rw [hnone]
    rfl

theorem player_goUp {name : Text} {trail : Trail} (h : p.trail.up? p.lesson = some (name, trail)) :
    (p.goUp library).player = ({ p with trail }.open? library name).getD { p with trail } := by
  unfold goUp
  rw [h]
  exact player_openOrStay _ library name

theorem player_outcome (opening : Opening) : opening.outcome.player = opening.player := by
  cases opening with
  | opened p => rfl
  | stayed p => rfl

end Player

namespace Move

variable {p : Player} {library : Library} {typing : Typing} {move : Move} {name : Text} {trail : Trail}

/-- A move opens its destination, or stays with the trail from there. -/
theorem make_eq (library : Library) (typing : Typing) (h : move.destination? p = some (name, trail)) :
    move.make library typing p = ({ p with trail }.open? library name).getD { p with trail } := by
  cases move with
  | up => exact Player.player_goUp h
  | scriptUp =>
    show ((p.goUp library).outcome).player = _
    rw [Player.player_outcome, Player.player_goUp h]
  | escape =>
    dsimp only [destination?] at h
    split at h
    · cases h
    · rename_i hm
      show p.escape library = _
      rw [Player.escape, if_neg hm]
      exact Player.player_goUp h
  | select index =>
    dsimp only [destination?] at h
    split at h
    · cases h
    · rename_i hm
      obtain ⟨target, htarget, hdestination⟩ := Option.bind_eq_some_iff.1 h
      show (p.select? library index).getD p = _
      rw [Player.select?, if_neg hm, htarget, Option.map_some, Option.getD_some]
      split at hdestination
      · cases hdestination
      · rename_i hlesson
        rw [not_or] at hlesson
        rw [if_neg hlesson.1]
        split at hdestination
        · rename_i hup
          rw [if_pos hup]
          exact Player.player_goUp hdestination
        · rename_i hup
          cases hdestination
          rw [if_neg hup, if_neg hlesson.2]
          exact Player.player_openOrStay p library name
  | scriptNext target =>
    show ((p.goNext library target).outcome).player = _
    rw [Player.player_outcome]
    unfold Player.goNext
    cases target with
    | some name' =>
      cases h
      exact Player.player_openOrStay p library name
    | none =>
      dsimp only [destination?] at h ⊢
      cases hnext : p.trail.next? p.lesson with
      | some name' =>
        rw [hnext] at h
        cases h
        exact Player.player_openOrStay p library name
      | none =>
        rw [hnext] at h
        exact Player.player_goUp h

/-- A move that goes back has its destination from the trail, and any other keeps the trail. -/
theorem trail_destination (h : move.destination? p = some (name, trail)) :
    (move.goesBack p = true ∧ p.trail.up? p.lesson = some (name, trail)) ∨
      (move.goesBack p = false ∧ trail = p.trail) := by
  cases move with
  | up => exact .inl ⟨rfl, h⟩
  | scriptUp => exact .inl ⟨rfl, h⟩
  | escape =>
    dsimp only [destination?] at h
    split at h
    · cases h
    · exact .inl ⟨rfl, h⟩
  | select index =>
    dsimp only [destination?] at h
    split at h
    · cases h
    · obtain ⟨target, htarget, hdestination⟩ := Option.bind_eq_some_iff.1 h
      dsimp only [goesBack]
      rw [htarget]
      split at hdestination
      · cases hdestination
      · split at hdestination
        · rename_i hup
          exact .inl ⟨by simp [hup], hdestination⟩
        · rename_i hup
          cases hdestination
          exact .inr ⟨by simpa using hup, rfl⟩
  | scriptNext target =>
    cases target with
    | some name' =>
      cases h
      exact .inr ⟨rfl, rfl⟩
    | none =>
      dsimp only [destination?] at h
      split at h
      · rename_i hnext
        cases h
        exact .inr ⟨by simp [goesBack, hnext], rfl⟩
      · rename_i hnext
        exact .inl ⟨by simp [goesBack, hnext], h⟩

end Move

/-- A move with a destination opens it if it can be read. If not, the player stays as it is, but with the trail from
there: the menu is the same, lessons may be missing from the end of the way back, and they are not exactly if the move
does not go back or the current lesson is all there is on the trail. -/
theorem move_of_destination (library : Library) (typing : Typing) (move : Move) (p : Player) (name : Text)
    (trail : Trail) (h : move.destination? p = some (name, trail)) :
    (∀ content, library (Player.resolve p.lessonDir name).2 = some content →
        { p with trail }.open? library name = some (move.make library typing p)) ∧
      (library (Player.resolve p.lessonDir name).2 = none →
        move.make library typing p = { p with trail } ∧
          (move.make library typing p = p ↔ move.goesBack p = false ∨ p.trail.back = [p.lesson])) ∧
      trail.menu = p.trail.menu ∧ trail.back <:+ p.trail.back := by
  have hmake := Move.make_eq library typing h
  have hframe : trail.menu = p.trail.menu ∧ trail.back <:+ p.trail.back ∧
      (trail = p.trail ↔ move.goesBack p = false ∨ p.trail.back = [p.lesson]) := by
    rcases Move.trail_destination h with ⟨hback, hup⟩ | ⟨hon, rfl⟩
    · obtain ⟨hmenu, hsuffix, hsame⟩ := Trail.up?_frame hup
      exact ⟨hmenu, hsuffix, by simp [hback, hsame]⟩
    · exact ⟨rfl, List.suffix_refl _, by simp [hon]⟩
  refine ⟨?_, ?_, hframe.1, hframe.2.1⟩
  · intro content hread
    rw [hmake, Player.open?]
    dsimp only
    rw [hread]
    rfl
  · intro hread
    have hstays : move.make library typing p = { p with trail } := by
      rw [hmake, Player.open?]
      dsimp only
      rw [hread]
      rfl
    refine ⟨hstays, ?_⟩
    rw [hstays, ← hframe.2.2]
    constructor
    · intro hp
      exact congrArg Player.trail hp
    · rintro rfl
      rfl

namespace OtherDirectory

/-- A lesson whose menu offers one of another directory. -/
def disk : Disk :=
  ⟨[(["lessons".toList], .directory), (["lessons".toList, ['m']], .file (Utf8.encode ":menu other/a\n".toList)),
    (["other".toList], .directory), (["other".toList, ['a']], .file (Utf8.encode "x\n".toList))], []⟩

def clock : Timestamp := ⟨⟨2024, 3, 5, by decide⟩, 7200, 125000000, by decide, by decide⟩

def asked (command : Command) : Occasion := ⟨command, clock, {}, { path := [] }, disk⟩

def idle : Player := .new "lessons".toList (.ofMillis 1000) ⟨1, 2, 3, 4⟩

def opened : Player := { idle with lines := [":menu other/a\n".toList], lesson := ['m'] }

def choosing : Player :=
  { opened with mode := .menu, position := 1, trail := ⟨[['m']], ["other/a".toList]⟩ }

/-- The player in the other directory, where the lesson with the menu is looked for in vain. -/
def away : Player :=
  { choosing with
    mode := .run, lines := ["x\n".toList], position := 0, lesson := "other/a".toList, lessonDir := "other".toList }

theorem scan_opened : opened.scan disk.readText? {} = (false, choosing) := by
  have hmenu : opened.readNext disk.readText? {} [] = ([], .ongoing choosing) := rfl
  exact Player.scan_of_stop rfl (by decide) hmenu rfl

theorem next_run : (asked (.run .zero)).next? opened = some choosing :=
  Occasion.next_scan rfl (by decide) (by decide) scan_opened

theorem after_select :
    idle.after? ([.open ['m'], .run .zero, .select 0].map asked) = some away := by
  have hopen : (asked (.open ['m'])).next? idle = some opened := by decide +kernel
  have hselect : (asked (.select 0)).next? choosing = some away := by decide +kernel
  rw [List.map_cons, after_cons hopen, List.map_cons, after_cons next_run, List.map_cons, after_cons hselect]
  rfl

end OtherDirectory

/-- The move goes back in vain. -/
theorem move_of_destination_unreadable :
    Move.up.destination? OtherDirectory.away = some (['m'], ⟨[], ["other/a".toList]⟩) ∧
      OtherDirectory.disk.readText? (Player.resolve OtherDirectory.away.lessonDir ['m']).2 = none ∧
      Move.up.make OtherDirectory.disk.readText? {} OtherDirectory.away =
        { OtherDirectory.away with trail := ⟨[], ["other/a".toList]⟩ } := by
  have hdestination : Move.up.destination? OtherDirectory.away = some (['m'], ⟨[], ["other/a".toList]⟩) := by
    decide +kernel
  have hread : OtherDirectory.disk.readText? (Player.resolve OtherDirectory.away.lessonDir ['m']).2 = none := by
    decide +kernel
  exact ⟨hdestination, hread, ((move_of_destination OtherDirectory.disk.readText? {} .up OtherDirectory.away ['m']
    ⟨[], ["other/a".toList]⟩ hdestination).2.1 hread).1⟩

/-- A player that goes back to a lesson that cannot be read stays in its lesson and forgets the way back. -/
theorem up_forgets_unreadable :
    OtherDirectory.idle.after? ([.open ['m'], .run .zero, .select 0].map OtherDirectory.asked) =
        some OtherDirectory.away ∧
      OtherDirectory.away.trail.up? OtherDirectory.away.lesson = some (['m'], ⟨[], ["other/a".toList]⟩) ∧
      OtherDirectory.disk.readText? (Player.resolve OtherDirectory.away.lessonDir ['m']).2 = none ∧
      OtherDirectory.away.trail.back = [['m']] ∧
      (OtherDirectory.away.up OtherDirectory.disk.readText?).lesson = OtherDirectory.away.lesson ∧
      (OtherDirectory.away.up OtherDirectory.disk.readText?).trail.back = [] := by
  refine ⟨OtherDirectory.after_select, ?_, ?_, rfl, ?_, ?_⟩
  · decide +kernel
  · decide +kernel
  · decide +kernel
  · decide +kernel

end KanaTutor
