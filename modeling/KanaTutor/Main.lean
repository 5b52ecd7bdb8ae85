/-
The program: it takes a picture of the files that a command line can need, answers the command line
from it, and writes the log back. A lesson is practised as the lines of input come in.
-/
import KanaTutor.Terminal.Dialogue
import Std.Time.Zoned

namespace KanaTutor

namespace Program

/-! ## Surroundings -/

/-- A directory of the user: the one that the environment names, if that is absolute, or the one at the usual
place in the home directory. -/
def folder (setting inHome : String) : IO Path := do
  match ← IO.getEnv setting, ← IO.getEnv "HOME" with
  | some dir, home =>
    if Path.isAbsolute dir.toList then return dir.toList
    else return (home.map fun home => Path.join home.toList inHome.toList).getD ['.']
  | none, some home => return Path.join home.toList inHome.toList
  | none, none => return ['.']

/-- The directories of the user. -/
def folders : IO Folders := do
  return ⟨← folder "XDG_DATA_HOME" ".local/share", ← folder "XDG_CONFIG_HOME" ".config"⟩

/-- The time of day. -/
def clock : IO Timestamp := do
  let now ← Std.Time.PlainDateTime.now
  let stamp := do
    let date ← Date.of? now.date.year now.date.month.val.toNat now.date.day.val.toNat
    let whole ← Timestamp.of? date now.time.hour.val.toNat now.time.minute.val.toNat now.time.second.val.toNat
    whole.withNano? (whole.nano + now.time.nanosecond.val.toNat)
  match stamp with
  | some t => return t
  | none => throw (IO.userError "the time of day is out of range")

/-- A seed that cannot be foreseen. -/
def seed : IO UInt64 := do
  return (← IO.getRandomBytes 8).foldl (fun n o => n * 256 + o.toUInt64) 0

/-- The time since some fixed start. -/
def instant : IO Instant := do
  return ⟨← IO.monoNanosNow⟩

/-! ## Files -/

/-- The picture with a file as it is on the real disk, if it can be read. -/
def fetch (disk : Disk) (path : Path) : IO Disk := do
  try
    let content ← IO.FS.readBinFile (String.ofList path)
    let dir := (Path.parent? path).getD []
    return ((disk.makeDirectory dir).2.write path content.toList).toOption.getD disk
  catch _ => return disk

/-- The lessons that a script names. -/
def mentioned (script : Text) : List Text :=
  script.linesKeepingBreaks.flatMap fun line =>
    match Directive.read? (Player.readLine line) with
    | some (.next (some target)) => [target]
    | some (.menu targets) => targets
    | _ => []

/-- The picture with the lessons of given names, from any of the directories in which they may be looked
for, and with the lessons that those name in turn. -/
partial def fetchLessons (disk : Disk) (dirs : List Path) (known : List Text) : List Text → IO Disk
  | [] => return disk
  | name :: pending => do
    if known.contains name then fetchLessons disk dirs known pending
    else
      let places := dirs.map fun dir => Player.resolve dir name
      let disk ← (places.map (·.2)).foldlM fetch disk
      let named := places.flatMap fun (_, path) => mentioned ((disk.readText? path).getD [])
      let newDirs := (places.map (·.1)).filter fun dir => !dirs.contains dir
      -- A directory not seen before may hold any of the lessons named so far.
      if newDirs.isEmpty then fetchLessons disk dirs (name :: known) (named ++ pending)
      else fetchLessons disk (newDirs.eraseDups ++ dirs) [] (name :: named ++ known ++ pending)

/-- A picture of the real disk with an empty working directory. -/
def emptyDisk : IO Disk := do
  let dir := Path.pieces (toString (← IO.currentDir)).toList
  let disk : Disk := ⟨[], []⟩
  return { (disk.makeAlong [] dir).2 with workingDir := dir.filter (!·.isEmpty) }

/-- Writes the log as it is in the picture, if it is another one than before. -/
def storeLog (path : Path) (before after : Disk) : IO Unit := do
  match before.read path, after.read path with
  | .ok old, .ok new => if old ≠ new then IO.FS.writeBinFile (String.ofList path) ⟨new.toArray⟩
  | .error _, .ok new =>
    IO.FS.createDirAll (String.ofList ((Path.parent? path).getD ['.']))
    IO.FS.writeBinFile (String.ofList path) ⟨new.toArray⟩
  | _, .error _ => return

/-! ## The program -/

/-- Prints a text at once. -/
def print (t : Text) : IO Unit := do
  let out ← IO.getStdout
  out.putStr (String.ofList t)
  out.flush

/-- Practises until the lessons or the input end. -/
partial def practise (t : Tutor) : IO Terminal.Ending := do
  match Terminal.proceed (← clock) (← instant) t with
  | .error f => return .fault f
  | .ok (none, next) =>
    storeLog t.settings.logFile t.desk.disk next.desk.disk
    return .success
  | .ok (some shown, next) =>
    storeLog t.settings.logFile t.desk.disk next.desk.disk
    print shown
    let input ← (← IO.getStdin).getLine
    if input.isEmpty then return .success
    else
      match Terminal.answerLine (← clock) (← instant) next (Text.trimEnd input.toList) with
      | .error f => return .fault f
      | .ok after =>
        storeLog t.settings.logFile next.desk.disk after.desk.disk
        practise after

/-- Carries out a task with given settings. -/
def carryOut (s : Terminal.Surroundings) (disk : Disk) (settings : Settings) (task : Terminal.Task) :
    IO Terminal.Ending := do
  let disk ← [settings.keyboardLayout, settings.logFile].foldlM fetch disk
  match task with
  | .run lesson =>
    let disk ← fetchLessons disk [settings.lessonDir] [] [lesson]
    match Terminal.openLesson s disk settings lesson with
    | .error f => return .fault f
    | .ok (opened, t) =>
      storeLog settings.logFile disk t.desk.disk
      if opened = some true then practise t
      else
        IO.eprintln ("could not open lesson " ++ String.ofList lesson)
        return .failure
  | task =>
    let t := Terminal.carryOutTask s disk [] settings task
    storeLog settings.logFile disk t.disk
    print t.output
    return t.ending

/-- Answers a command line. -/
def answer (arguments : List Text) : IO Terminal.Ending := do
  match Terminal.Request.read arguments with
  | .help => print Terminal.usage; return .success
  | .version => print Terminal.version; return .success
  | .misuse => IO.eprint (String.ofList Terminal.usage); return .misuse
  | .invoke i =>
    let folders ← folders
    let s : Terminal.Surroundings := ⟨folders, .ofSeed (← seed), ← clock⟩
    let disk ← fetch (← emptyDisk) (i.options.config.getD folders.settings)
    match Terminal.settingsFor folders disk i.options with
    | none =>
      IO.eprintln "the settings cannot be loaded"
      return .failure
    | some settings => carryOut s disk settings i.task

end Program

end KanaTutor

/-- Answers the command line. -/
def main (arguments : List String) : IO UInt32 := do
  let ending ← KanaTutor.Program.answer (arguments.map String.toList)
  return ending.code.toUInt32
