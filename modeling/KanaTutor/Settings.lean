/-
The settings of the tutor: their defaults, the values that are put right, and the TOML file they are
kept in.
-/
import KanaTutor.Disk.Basic
import KanaTutor.Time.Duration
import KanaTutor.Toml.Reader
import KanaTutor.Toml.Writer

namespace KanaTutor

/-- The directories of the user for data and for settings. -/
structure Folders where
  data : Path
  config : Path
deriving DecidableEq, Repr

namespace Folders

/-- The tutor's own directory for data. -/
def tutorData (folders : Folders) : Path := folders.data.join "kanatype".toList

/-- Where the lessons are. -/
def lessons (folders : Folders) : Path := folders.tutorData.join "lessons".toList

/-- The log. -/
def log (folders : Folders) : Path := folders.tutorData.join "stats.txt".toList

/-- The settings. -/
def settings (folders : Folders) : Path := (folders.config.join "kanatype".toList).join "config.toml".toList

end Folders

/-- The settings. -/
structure Settings where
  /-- The layout file; none if empty. -/
  keyboardLayout : Path := []
  /-- Whether the moraic nasal takes an apostrophe before the na row. -/
  x4063 : Bool := true
  /-- The accuracy that earns no points yet. -/
  minAccuracy : Float := 0.85
  /-- The words per minute that a star takes. -/
  wordsPerStar : Nat := 5
  /-- How long a target stays matched until its round is finished, in milliseconds. -/
  finishDelayMs : Nat := 1000
  lessonDir : Path
  logFile : Path

/-- Why settings cannot be loaded. -/
inductive SettingsError where
  | reading (path : Path)
  | parsing (path : Path)
deriving DecidableEq, Repr

/-- What is said about settings that cannot be loaded. -/
def SettingsError.message : SettingsError → Text
  | reading path => "reading ".toList ++ path
  | parsing path => "parsing ".toList ++ path

namespace Settings

/-- The settings of a user who has not set anything. -/
def standard (folders : Folders) : Settings := { lessonDir := folders.lessons, logFile := folders.log }

/-- How long a target stays matched until its round is finished. -/
def finishDelay (s : Settings) : Duration := .ofMillis s.finishDelayMs

/-- The settings with those out of range put back to their defaults. -/
def validated (folders : Folders) (s : Settings) : Settings :=
  let d := standard folders
  { s with
    minAccuracy := if 0.0 ≤ s.minAccuracy && s.minAccuracy ≤ 1.0 then s.minAccuracy else d.minAccuracy
    wordsPerStar := if s.wordsPerStar = 0 then d.wordsPerStar else s.wordsPerStar
    finishDelayMs := if 10000 < s.finishDelayMs then d.finishDelayMs else s.finishDelayMs
    lessonDir := if s.lessonDir.isEmpty then d.lessonDir else s.lessonDir
    logFile := if s.logFile.isEmpty then d.logFile else s.logFile }

/-! ## Reading -/

/-- A value that is a string. -/
def asText? : Toml.Value → Option Text
  | .string t => some t
  | _ => none

/-- A value that is a truth value. -/
def asBool? : Toml.Value → Option Bool
  | .boolean b => some b
  | _ => none

/-- A value that is a number. -/
def asFloat? : Toml.Value → Option Float
  | .float x => some x
  | .integer n => some (Double.signed (n < 0) (Double.ofNat n.natAbs))
  | _ => none

/-- A value that is an integer, not negative and below a bound. -/
def asNat? (bound : Nat) : Toml.Value → Option Nat
  | .integer (.ofNat n) => if n < bound then some n else none
  | _ => none

/-- The value of a key, or the default if the key is missing; nothing if the value is not of its kind. -/
def field {α : Type} (document : Toml.Members) (as? : Toml.Value → Option α) (key : String) (missing : α) :
    Option α :=
  match document.get? key.toList with
  | none => some missing
  | some v => as? v

/-- The settings in a document. Keys that mean nothing are passed over. -/
def ofDocument? (folders : Folders) (document : Toml.Members) : Option Settings := do
  let d := standard folders
  let keyboardLayout ← field document asText? "keyboard_layout" d.keyboardLayout
  let x4063 ← field document asBool? "nn_as_jis_x_4063" d.x4063
  let minAccuracy ← field document asFloat? "min_accuracy" d.minAccuracy
  let wordsPerStar ← field document (asNat? 4294967296) "min_wpm_per_star" d.wordsPerStar
  let finishDelayMs ← field document (asNat? wordBound) "finish_delay_ms" d.finishDelayMs
  let lessonDir ← field document asText? "lesson_dir" d.lessonDir
  let logFile ← field document asText? "stats_file" d.logFile
  some { keyboardLayout, x4063, minAccuracy, wordsPerStar, finishDelayMs, lessonDir, logFile }

/-- The settings in a file; the defaults if there is no file. -/
def load (folders : Folders) (disk : Disk) (path : Path) : Except SettingsError Settings :=
  if !disk.exists? path then .ok (standard folders)
  else
    match disk.readText? path with
    | none => .error (.reading path)
    | some content =>
      match (Toml.read? content).bind (ofDocument? folders) with
      | none => .error (.parsing path)
      | some s => .ok (s.validated folders)

/-- The settings in a file, or the defaults if they cannot be loaded. -/
def loadOrStandard (folders : Folders) (disk : Disk) (path : Path) : Settings :=
  match load folders disk path with
  | .ok s => s
  | .error _ => standard folders

/-! ## Writing -/

/-- The settings as a document; nothing if a number is too large for one. -/
def write? (s : Settings) : Option Text := do
  let wordsPerStar ← Toml.writeWord? s.wordsPerStar
  let finishDelayMs ← Toml.writeWord? s.finishDelayMs
  some (List.flatten [
    Toml.writePair "keyboard_layout" (Toml.writeString s.keyboardLayout),
    Toml.writePair "nn_as_jis_x_4063" (Toml.writeBoolean s.x4063),
    Toml.writePair "min_accuracy" (Toml.writeFloat s.minAccuracy),
    Toml.writePair "min_wpm_per_star" wordsPerStar,
    Toml.writePair "finish_delay_ms" finishDelayMs,
    Toml.writePair "lesson_dir" (Toml.writeString s.lessonDir),
    Toml.writePair "stats_file" (Toml.writeString s.logFile)])

/-- Saves the settings in a file, making its directory; nothing if that fails. -/
def save? (s : Settings) (disk : Disk) (path : Path) : Option Disk := do
  let (made, disk) := match Path.parent? path with
    | some dir => disk.makeDirectory dir
    | none => (true, disk)
  let content ← s.write?
  if made then (disk.write path (Utf8.encode content)).toOption else none

end Settings

end KanaTutor
