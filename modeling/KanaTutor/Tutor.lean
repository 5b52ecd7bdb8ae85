/-
The tutor: a desk that follows the settings. Its log is closed when the lessons end.
-/
import KanaTutor.Keyboard.LayoutFile
import KanaTutor.Lesson.Desk
import KanaTutor.Settings

namespace KanaTutor

/-- The tutor. -/
structure Tutor where
  settings : Settings
  desk : Desk

namespace Tutor

/-- The tutor with given settings: it reads the layout file and opens the log. -/
def ofSettings (settings : Settings) (disk : Disk) (source : Xoshiro) (clock : Timestamp) : Except Fault Tutor := do
  let layout := Layout.loadOrRomaji disk settings.keyboardLayout
  let (log, disk) ← Log.openAt disk settings.logFile clock
  .ok {
    settings
    desk := {
      player := { lessonDir := settings.lessonDir, finishDelay := settings.finishDelay, source }
      typing := { romanizer := { x4063 := settings.x4063 }, layout }
      log
      disk } }

/-- The tutor with the settings that the user has saved. -/
def ofFolders (folders : Folders) (disk : Disk) (source : Xoshiro) (clock : Timestamp) : Except Fault Tutor :=
  ofSettings (.loadOrStandard folders disk folders.settings) disk source clock

/-- The command closes the log if the lessons have ended after it. -/
def closes : Command → Bool
  | .run _ | .select _ | .selectKey _ | .quit => true
  | _ => false

/-- Carries out a command at the given time. -/
def perform (t : Tutor) (clock : Timestamp) (c : Command) : Except Fault (Option Bool × Tutor) := do
  let (answer, desk) ← t.desk.perform clock c
  let desk := if closes c && desk.player.mode = .exit then { desk with log := desk.log.close } else desk
  .ok (answer, { t with desk })

/-- Forgets all practice. -/
def resetStats (t : Tutor) : Tutor :=
  let (log, disk) := t.desk.log.reset t.desk.disk
  { t with desk := { t.desk with log, disk } }

/-- Changes the layout. The target keeps its number of keystrokes until the next one is set. -/
def setLayout (t : Tutor) (path : Path) : Tutor :=
  let layout := Layout.loadOrRomaji t.desk.disk path
  { settings := { t.settings with keyboardLayout := path }
    desk := { t.desk with typing := { t.desk.typing with layout } } }

/-- Changes how the moraic nasal is typed. -/
def setX4063 (t : Tutor) (x4063 : Bool) : Tutor where
  settings := { t.settings with x4063 }
  desk := { t.desk with typing := { t.desk.typing with romanizer := { x4063 } } }

/-- The keys for what is left to type. -/
def hint (t : Tutor) : Hint := t.desk.typing.hint t.desk.player.remaining

/-- The result of the running round, or of the last one finished. -/
def result (t : Tutor) (now : Instant) : RoundResult × Tutor :=
  let (r, desk) := t.desk.result now
  (r, { t with desk })

/-- The score of that result. -/
def score (t : Tutor) (now : Instant) : Nat × Tutor :=
  let (r, t) := t.result now
  (r.score t.settings.minAccuracy t.settings.wordsPerStar, t)

end Tutor

end KanaTutor
