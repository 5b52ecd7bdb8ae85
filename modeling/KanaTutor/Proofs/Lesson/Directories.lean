/-
The lesson directory. It is where the last lesson with a directory part in its name has led, among those that could be
opened; names without such a part are looked for there. The directory that a name leads to is known before its file is
read, so what counts is that nothing is left of it when that fails.
-/
import KanaTutor.Proofs.Disk.Paths
import KanaTutor.Proofs.Lesson.Moves

namespace KanaTutor

namespace Player

/-! ## Names -/

theorem resolve_of_directory {name dir : Path} (h : Path.directory? name = some dir) (start : Path) :
    resolve start name = (dir, name) := by
  obtain ⟨hparent, hdir⟩ := Option.filter_eq_some_iff.1 h
  rw [resolve, hparent]
  cases dir with
  | nil => cases hdir
  | cons c dir => rfl

theorem resolve_of_bare {name : Path} (h : Path.directory? name = none) (dir : Path) :
    resolve dir name = (dir, Path.join dir name) := by
  unfold resolve
  rw [Path.directory?] at h
  cases hparent : Path.parent? name with
  | none => rfl
  | some parent =>
    rw [hparent] at h
    cases parent with
    | nil => rfl
    | cons c parent => cases h

/-- A lesson is read from what is its directory then. -/
theorem liesIn_resolve {disk : Disk} {dir : Path} {name content : Text}
    (h : disk.readText? (resolve dir name).2 = some content) :
    disk.LiesIn (resolve dir name).1 (resolve dir name).2 := by
  rcases Path.splits name with ⟨hnone, hnames, habsolute⟩ | ⟨home, file, hsome, hbeneath, hfile⟩
  · rw [resolve_of_bare hnone] at h ⊢
    exact Disk.liesIn_of_bare hnames habsolute h
  · rw [resolve_of_directory hsome] at h ⊢
    exact Disk.liesIn_of_directory hbeneath hfile h

/-! ## Opening a lesson -/

/-- What opening a lesson leaves as it is. -/
structure Spares (p q : Player) : Prop where
  title : q.title = p.title
  imeMode : q.imeMode = p.imeMode
  target : q.target = p.target
  lastResult : q.lastResult = p.lastResult
  trail : q.trail = p.trail
  finishDelay : q.finishDelay = p.finishDelay
  source : q.source = p.source

/-- A lesson has been opened and nothing has been read of it yet. -/
structure Begins (p : Player) (name : Text) (dir : Path) (content : Text) : Prop where
  mode : p.mode = .run
  lines : p.lines = content.linesKeepingBreaks
  position : p.position = 0
  lesson : p.lesson = name
  lessonDir : p.lessonDir = dir
  text : p.text = []
  hint : p.hint = []
  showsKeyboard : p.showsKeyboard = false
  zenkaku : p.zenkaku = false
  session : p.session = {}
  pool : p.pool = {}

theorem Spares.refl (p : Player) : p.Spares p := ⟨rfl, rfl, rfl, rfl, rfl, rfl, rfl⟩

theorem Spares.trans {p q r : Player} (h : p.Spares q) (h' : q.Spares r) : p.Spares r where
  title := h'.title.trans h.title
  imeMode := h'.imeMode.trans h.imeMode
  target := h'.target.trans h.target
  lastResult := h'.lastResult.trans h.lastResult
  trail := h'.trail.trans h.trail
  finishDelay := h'.finishDelay.trans h.finishDelay
  source := h'.source.trans h.source

theorem open?_readable {library : Library} {p : Player} {name content : Text}
    (h : library (resolve p.lessonDir name).2 = some content) :
    ∃ q, p.open? library name = some q ∧ q.Begins name (resolve p.lessonDir name).1 content ∧ p.Spares q := by
  rw [open?]
  dsimp only
  rw [h]
  exact ⟨_, rfl, ⟨rfl, rfl, rfl, rfl, rfl, rfl, rfl, rfl, rfl, rfl, rfl⟩, ⟨rfl, rfl, rfl, rfl, rfl, rfl, rfl⟩⟩

end Player

namespace Desk

variable {desk : Desk} {name : Text}

theorem perform_open_of_none (h : desk.player.open? desk.library name = none) (clock : Timestamp) :
    desk.perform clock (.open name) = .ok (some false, desk) := by
  rw [perform, h]
  rfl

theorem perform_open_of_some {q : Player} (h : desk.player.open? desk.library name = some q) (clock : Timestamp) :
    desk.perform clock (.open name) = .ok (some true, desk.withPlayer q) := by
  rw [perform, h]
  rfl

theorem perform_open_unreadable (h : desk.disk.readText? (Player.resolve desk.player.lessonDir name).2 = none)
    (clock : Timestamp) : desk.perform clock (.open name) = .ok (some false, desk) :=
  perform_open_of_none (Option.map_eq_none_iff.2 h) clock

theorem perform_open_readable {content : Text}
    (h : desk.disk.readText? (Player.resolve desk.player.lessonDir name).2 = some content) (clock : Timestamp) :
    ∃ q, desk.perform clock (.open name) = .ok (some true, desk.withPlayer q) ∧
      q.Begins name (Player.resolve desk.player.lessonDir name).1 content ∧ desk.player.Spares q := by
  have hread : desk.library (Player.resolve desk.player.lessonDir name).2 = some content := h
  obtain ⟨q, hopen, hbegins, hspares⟩ := Player.open?_readable hread
  exact ⟨q, perform_open_of_some hopen clock, hbegins, hspares⟩

end Desk

/-! ## One lesson after the other -/

namespace Player

/-- A player is asked for lessons, one after the other. With each name there is the answer, whether the lesson could be
opened; all that is on the desk besides the player, the disk too, may change in between. -/
inductive Openings (p : Player) : List (Text × Bool) → Player → Prop where
  | none : Openings p [] p
  | asked {calls : List (Text × Bool)} {desk after : Desk} {clock : Timestamp} {name : Text} {answer : Bool} :
      Openings p calls desk.player → desk.perform clock (.open name) = .ok (some answer, after) →
      Openings p (calls ++ [(name, answer)]) after.player

/-- The directory part of the last name that had one, of those whose lessons could be opened. -/
def directoryAfter (dir : Path) (calls : List (Text × Bool)) : Path :=
  ((calls.filter (·.2)).filterMap fun call => Path.directory? call.1).getLast?.getD dir

theorem directoryAfter_failed (dir : Path) (calls : List (Text × Bool)) (name : Text) :
    directoryAfter dir (calls ++ [(name, false)]) = directoryAfter dir calls := by
  simp [directoryAfter]

theorem directoryAfter_opened (dir : Path) (calls : List (Text × Bool)) (name : Text) :
    directoryAfter dir (calls ++ [(name, true)]) = (resolve (directoryAfter dir calls) name).1 := by
  unfold directoryAfter
  cases h : Path.directory? name with
  | none =>
    rw [resolve_of_bare h]
    simp [h]
  | some home =>
    rw [resolve_of_directory h]
    simp [h]

/-- The directory is right after every call: one that fails leaves nothing of the directory that its name leads to. -/
theorem Openings.kept {p q : Player} {calls : List (Text × Bool)} (h : p.Openings calls q) :
    q.lessonDir = directoryAfter p.lessonDir calls ∧ p.Spares q := by
  induction h with
  | none => exact ⟨rfl, .refl p⟩
  | @asked calls desk after clock name answer _ hperform ih =>
    obtain ⟨hdir, hspares⟩ := ih
    cases hread : desk.disk.readText? (resolve desk.player.lessonDir name).2 with
    | none =>
      rw [Desk.perform_open_unreadable hread clock] at hperform
      cases hperform
      exact ⟨hdir.trans (directoryAfter_failed ..).symm, hspares⟩
    | some content =>
      obtain ⟨q, hopened, hbegins, hspared⟩ := Desk.perform_open_readable hread clock
      rw [hopened] at hperform
      cases hperform
      refine ⟨?_, hspares.trans hspared⟩
      rw [directoryAfter_opened, ← hdir]
      exact hbegins.lessonDir

/-- For every sequence of lessons that a player is asked for, whether they can be opened or not, and for every desk that
it is at then: its directory is the directory part of the last opened name that had one, or the one that it began with.
The next lesson is looked for there, or on the path that its name is if that has a directory part. If there is no such
lesson, the answer says so and nothing changes. If there is, it begins, everything else stays as it is, and its file is
in what is the lesson directory from then on. -/
theorem perform_open_of_openings {p : Player} {calls : List (Text × Bool)} {desk : Desk}
    (h : p.Openings calls desk.player) (clock : Timestamp) (name : Text) :
    let dir := directoryAfter p.lessonDir calls
    let home := (Path.directory? name).getD dir
    let path := if (Path.directory? name).isSome then name else Path.join dir name
    desk.player.lessonDir = dir ∧ p.Spares desk.player ∧
      (desk.disk.readText? path = none → desk.perform clock (.open name) = .ok (some false, desk)) ∧
      ∀ content, desk.disk.readText? path = some content →
        ∃ q, desk.perform clock (.open name) = .ok (some true, desk.withPlayer q) ∧
          q.Begins name home content ∧ desk.player.Spares q ∧ desk.disk.LiesIn home path := by
  intro dir home path
  obtain ⟨hdir, hspares⟩ := h.kept
  have hresolve : resolve desk.player.lessonDir name = (home, path) := by
    rw [hdir]
    cases hname : Path.directory? name with
    | none => simp [home, path, hname, resolve_of_bare hname, dir]
    | some parent => simp [home, path, hname, resolve_of_directory hname]
  refine ⟨hdir, hspares, fun hread => ?_, fun content hread => ?_⟩
  · exact Desk.perform_open_unreadable (by rw [hresolve]; exact hread) clock
  · have hread : desk.disk.readText? (resolve desk.player.lessonDir name).2 = some content := by
      rw [hresolve]
      exact hread
    obtain ⟨q, hperform, hbegins, hspared⟩ := Desk.perform_open_readable hread clock
    have hlies := liesIn_resolve hread
    rw [hresolve] at hbegins hlies
    exact ⟨q, hperform, hbegins, hspared, hlies⟩

open OtherDirectory in
theorem perform_open_of_openings_away :
    let around (p : Player) : Desk := ⟨p, {}, { path := [] }, disk⟩
    let away : Player := { idle with lines := ["x\n".toList], lesson := "other/a".toList, lessonDir := "other".toList }
    idle.Openings [("other/m".toList, false), (['m'], true), ("other/a".toList, true)] away ∧
      away.lessonDir = "other".toList ∧ (around away).perform clock (.open ['m']) = .ok (some false, around away) ∧
      ∃ q, (around away).perform clock (.open ['a']) = .ok (some true, around q) ∧
        q.Begins ['a'] "other".toList "x\n".toList ∧ disk.LiesIn "other".toList "other/a".toList := by
  intro around away
  have hgone : (around idle).player.open? (around idle).library "other/m".toList = none := by decide +kernel
  have hnear : (around idle).player.open? (around idle).library ['m'] = some opened := by decide +kernel
  have hfar : (around opened).player.open? (around opened).library "other/a".toList = some away := by decide +kernel
  have hnone : idle.Openings [] (around idle).player := .none
  have hone : idle.Openings ([] ++ [("other/m".toList, false)]) (around idle).player :=
    hnone.asked (Desk.perform_open_of_none hgone clock)
  have htwo : idle.Openings ([("other/m".toList, false)] ++ [(['m'], true)]) (around opened).player :=
    hone.asked (Desk.perform_open_of_some hnear clock)
  have hthree : idle.Openings ([("other/m".toList, false), (['m'], true)] ++ [("other/a".toList, true)])
      (around away).player :=
    htwo.asked (Desk.perform_open_of_some hfar clock)
  obtain ⟨-, -, hfails, -⟩ := perform_open_of_openings hthree clock ['m']
  obtain ⟨hdir, -, -, hopens⟩ := perform_open_of_openings hthree clock ['a']
  obtain ⟨q, hperform, hbegins, -, hlies⟩ := hopens "x\n".toList (by decide +kernel)
  exact ⟨hthree, hdir.trans (by decide +kernel), hfails (by decide +kernel), q, hperform, hbegins, hlies⟩

end Player

end KanaTutor
