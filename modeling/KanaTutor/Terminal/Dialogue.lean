/-
The program as a dialogue: it answers a command line, and practises a lesson one line of input at a
time.
-/
import KanaTutor.Terminal.Arguments
import KanaTutor.Terminal.Report

namespace KanaTutor

namespace Terminal

/-- How the program has ended. -/
inductive Ending where
  | success
  /-- The program could not do what it was asked to. -/
  | failure
  /-- The command line makes no sense. -/
  | misuse
  | fault (f : Fault)
deriving DecidableEq, Repr

/-- The exit code of an ending. -/
def Ending.code : Ending → Nat
  | success => 0
  | failure => 1
  | misuse => 2
  | fault _ => 101

/-- What a program has printed, the disk it leaves, and how it has ended. -/
structure Transcript where
  output : Text
  disk : Disk
  ending : Ending

/-- What surrounds the program: the directories of its user, its random choices, and its time of day. -/
structure Surroundings where
  folders : Folders
  source : Xoshiro
  clock : Timestamp

/-! ## Practice -/

/-- The prompt for a line of input. -/
def prompt : Text := "> ".toList

/-- Carries out a command. -/
def carryOut (clock : Timestamp) (t : Tutor) (c : Command) : Except Fault Tutor := do
  let (_, t) ← t.perform clock c
  .ok t

/-- The commands that have an input line of their own. -/
def commandLines : List (String × Command) :=
  [("/quit", .quit), ("/esc", .escape), ("/up", .up), ("/stats", .showStats), ("/back", .backspace)]

/-- Types a line, as if key by key; once the target is matched, lets the time pass that the round takes
to finish. -/
def typeLine (clock : Timestamp) (now : Instant) (t : Tutor) (input : Text) : Except Fault Tutor := do
  let t ← (input.map fun c => Command.press ⟨.char c, false⟩).foldlM (carryOut clock) t
  let t ← carryOut clock t (.append input now)
  if t.desk.player.session.typed = t.desk.player.target.plain then
    let t ← carryOut clock t (.run now)
    carryOut clock t (.run ⟨now.nanos + t.settings.finishDelay.nanos⟩)
  else .ok t

/-- Answers a line of input. -/
def answerLine (clock : Timestamp) (now : Instant) (t : Tutor) (input : Text) : Except Fault Tutor :=
  match commandLines.find? (·.1.toList = input) with
  | some (_, c) => carryOut clock t c
  | none =>
    if input = "/reset".toList ∧ t.desk.player.mode = .stats then .ok t.resetStats
    else
      match input with
      | [] => carryOut clock t (.enter now)
      | key :: _ => if t.desk.player.mode = .menu then carryOut clock t (.selectKey key) else typeLine clock now t input

/-- Goes on with the lesson and shows its state: what is printed, and the tutor; nothing is printed once
the lessons have ended. -/
def proceed (clock : Timestamp) (now : Instant) (t : Tutor) : Except Fault (Option Text × Tutor) := do
  let t ← carryOut clock t (.run now)
  if t.desk.player.mode = .exit then .ok (none, t)
  else
    let (shown, t) := state t now
    .ok (some (shown ++ prompt), t)

/-- Practises until the lessons or the input end. -/
def practise (clock : Timestamp) (now : Instant) (t : Tutor) (output : Text) (input : List Text) : Transcript :=
  match proceed clock now t with
  | .error f => ⟨output, t.desk.disk, .fault f⟩
  | .ok (none, t) => ⟨output, t.desk.disk, .success⟩
  | .ok (some shown, t) =>
    match input with
    | [] => ⟨output ++ shown, t.desk.disk, .success⟩
    | first :: rest =>
      match answerLine clock now t first.trimEnd with
      | .error f => ⟨output ++ shown, t.desk.disk, .fault f⟩
      | .ok t => practise clock now t (output ++ shown) rest

/-- Opens a lesson with given settings. -/
def openLesson (s : Surroundings) (disk : Disk) (settings : Settings) (lesson : Text) :
    Except Fault (Option Bool × Tutor) := do
  let t ← Tutor.ofSettings settings disk s.source s.clock
  t.perform s.clock (.open lesson)

/-! ## The program -/

/-- What is printed when help is asked for. -/
def usage : Text := "Usage: kanatype [OPTIONS] <romanize|parse|stats|run>\n".toList

/-- What is printed when the version is asked for. -/
def version : Text := "kanatype 0.1.0\n".toList

/-- The settings for a command line; nothing if the file it names cannot be loaded. -/
def settingsFor (folders : Folders) (disk : Disk) (options : Options) : Option Settings := do
  let s ← match options.config with
    | some path => (Settings.load folders disk path).toOption
    | none => some (.loadOrStandard folders disk folders.settings)
  some { s with keyboardLayout := options.layout.getD s.keyboardLayout }

/-- Carries out a task with given settings. -/
def carryOutTask (s : Surroundings) (disk : Disk) (input : List Text) (settings : Settings) : Task → Transcript
  | .romanize t =>
    let layout := Layout.loadOrRomaji disk settings.keyboardLayout
    ⟨romanization { romanizer := { x4063 := settings.x4063 }, layout } t, disk, .success⟩
  | .parse t => ⟨parts t, disk, .success⟩
  | .stats reset =>
    match Log.openAt disk settings.logFile s.clock with
    | .error f => ⟨[], disk, .fault f⟩
    | .ok (log, disk) =>
      if reset then ⟨line ["practice history cleared".toList], (log.reset disk).2, .success⟩
      else ⟨history log, disk, .success⟩
  | .run lesson =>
    match openLesson s disk settings lesson with
    | .error f => ⟨[], disk, .fault f⟩
    | .ok (some true, t) => practise s.clock .zero t [] input
    | .ok (_, t) => ⟨[], t.desk.disk, .failure⟩

/-- Answers a command line, with the lines of input that follow. -/
def answer (s : Surroundings) (disk : Disk) (arguments : List Text) (input : List Text) : Transcript :=
  match Request.read arguments with
  | .help => ⟨usage, disk, .success⟩
  | .version => ⟨version, disk, .success⟩
  | .misuse => ⟨[], disk, .misuse⟩
  | .invoke i =>
    match settingsFor s.folders disk i.options with
    | none => ⟨[], disk, .failure⟩
    | some settings => carryOutTask s disk input settings i.task

end Terminal

end KanaTutor
