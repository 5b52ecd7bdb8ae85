/-
The player of lessons: it reads the script of a lesson, offers its menus, and leads through its rounds.
A script goes on from directive to directive until it waits for the learner.
-/
import KanaTutor.Disk.Path
import KanaTutor.Lesson.Directive
import KanaTutor.Lesson.Pool
import KanaTutor.Lesson.Trail
import KanaTutor.Practice.Result
import KanaTutor.Practice.Session
import KanaTutor.Practice.Target
import KanaTutor.Random.Xoshiro

namespace KanaTutor

/-- What the player does: it reads directives, offers a menu, collects the text to practise or the hint,
has the learner practise, shows the score or the statistics, or has ended. -/
inductive Mode where
  | run
  | menu
  | text
  | hint
  | practice
  | score
  | stats
  | exit
deriving DecidableEq, Repr

/-- The player reads lines of the lesson. -/
def Mode.isReading : Mode → Bool
  | .run | .text | .hint => true
  | _ => false

/-- The lessons that can be read, by their paths. -/
abbrev Library := Path → Option Text

/-- The player. -/
structure Player where
  mode : Mode := .run
  /-- The lines of the lesson with their line breaks, and the number of lines read of them. -/
  lines : List Text := []
  position : Nat := 0
  lesson : Text := []
  /-- Where lessons without a directory are looked for. -/
  lessonDir : Path
  title : Text := []
  text : Text := []
  hint : Text := []
  imeMode : Text := ['A']
  showsKeyboard : Bool := false
  zenkaku : Bool := false
  target : Target := {}
  session : Session := {}
  lastResult : Option RoundResult := none
  pool : Pool := {}
  trail : Trail := {}
  /-- How long the target must stay matched until the round is finished. -/
  finishDelay : Duration
  source : Xoshiro
deriving DecidableEq

namespace Player

/-! ## Opening lessons -/

/-- The lesson directory and the path for a name: a name with a directory part names its directory. -/
def resolve (dir : Path) (name : Text) : Path × Path :=
  match Path.parent? name with
  | some [] | none => (dir, Path.join dir name)
  | some parent => (parent, name)

/-- Opens a lesson, if it can be read. -/
def open? (p : Player) (library : Library) (name : Text) : Option Player :=
  let (dir, path) := resolve p.lessonDir name
  (library path).map fun content =>
    { p with
      mode := .run
      lines := content.linesKeepingBreaks
      position := 0
      lesson := name
      lessonDir := dir
      text := []
      hint := []
      showsKeyboard := false
      zenkaku := false
      session := {}
      pool := {} }

/-- What became of an attempt to open a lesson. -/
inductive Opening where
  | opened (p : Player)
  | stayed (p : Player)

/-- The player after an attempt. -/
def Opening.player : Opening → Player
  | opened p => p
  | stayed p => p

/-- Opens a lesson, or stays. -/
def openOrStay (p : Player) (library : Library) (name : Text) : Opening :=
  match p.open? library name with
  | some q => .opened q
  | none => .stayed p

/-- Goes back to the lesson with the menu. -/
def goUp (p : Player) (library : Library) : Opening :=
  match p.trail.up? p.lesson with
  | none => .stayed p
  | some (name, trail) => { p with trail }.openOrStay library name

/-- Goes on to a lesson, or to the next one of the menu, or back after the last one. -/
def goNext (p : Player) (library : Library) (target : Option Text) : Opening :=
  match target with
  | some name => p.openOrStay library name
  | none =>
    match p.trail.next? p.lesson with
    | some name => p.openOrStay library name
    | none => p.goUp library

/-- Goes back to the lesson with the menu. -/
def up (p : Player) (library : Library) : Player := (p.goUp library).player

/-! ## Rounds -/

/-- Sets the text to practise. -/
def setText (p : Player) (typing : Typing) (t : Text) : Player := { p with text := t, target := .ofText typing t }

/-- Begins a round. -/
def startRound (p : Player) (typing : Typing) (t : Text) : Player :=
  { p.setText typing t with session := {}, mode := .practice }

/-- Draws the next round from the pool and begins it. -/
def nextRound? (p : Player) (typing : Typing) : Option Player :=
  (p.pool.nextRound? p.source).map fun (t, pool, source) => { p with pool, source }.startRound typing t

/-- Looks at the clock of the round. -/
def poll (p : Player) (now : Instant) : Player := { p with session := p.session.poll p.target.plain now }

/-- The result of the round, for a player that has just looked at the clock. -/
def roundResult (p : Player) (now : Instant) : RoundResult :=
  ⟨p.target.keyCount, p.session.touches, p.session.elapsed now⟩

/-- Goes on after a round with a given result: to the next round, or to the script. -/
def afterRound (p : Player) (typing : Typing) (r : RoundResult) : Player :=
  let p := { p with lastResult := some r }
  (p.nextRound? typing).getD { p with mode := .run }

/-- The result of the running round, or of the last one finished; and the player that has looked at the
clock for it. -/
def result (p : Player) (now : Instant) : RoundResult × Player :=
  match p.mode, p.lastResult with
  | .practice, _ | _, none => ((p.poll now).roundResult now, p.poll now)
  | _, some r => (r, p)

/-- What is left to type. -/
def remaining (p : Player) : Text := p.target.remaining p.session.typed

/-! ## The script -/

/-- What a directive leads to: more directives, those of another lesson, or a round. -/
inductive Outcome where
  | ongoing (p : Player)
  | opened (p : Player)
  | started (p : Player)

/-- The outcome of an attempt to open a lesson. -/
def Opening.outcome : Opening → Outcome
  | opened p => .opened p
  | stayed p => .ongoing p

/-- Follows a directive. -/
def follow (p : Player) (library : Library) (typing : Typing) : Directive → Outcome
  | .title title => .ongoing { p with title }
  | .text => .ongoing { p with mode := .text, text := [] }
  | .hint => .ongoing { p with mode := .hint, hint := [] }
  | .imeMode mode => .ongoing { p with imeMode := mode }
  | .keyboard => .ongoing { p with showsKeyboard := true }
  | .random lines rounds =>
    let p := { p with pool := .ofText p.text lines rounds }
    match p.nextRound? typing with
    | some q => .started q
    | none => .ongoing p
  | .start => .started ({ p with pool := {} }.startRound typing p.text)
  | .showScore => .ongoing { p with mode := .score }
  | .up => (p.goUp library).outcome
  | .next target => (p.goNext library target).outcome
  | .menu targets => .ongoing { p with trail := p.trail.enterMenu p.lesson targets, mode := .menu }
  | .zenkaku => .ongoing { p with zenkaku := true }
  | .unknown _ => .ongoing p

/-- A line as it is read: a directive without the white space it ends with, content as it is. -/
def readLine (line : Text) : Text := if line.head? = some Directive.marker then line.trimEnd else line

/-- Takes the next line of the lesson; the first follows the last. -/
def takeLine (p : Player) : Text × Player :=
  let i := if p.position < p.lines.length then p.position else 0
  (readLine (p.lines.getD i []), { p with position := i + 1 })

/-- Ends a block of content lines. -/
def endBlock (p : Player) (typing : Typing) (content : Text) : Player :=
  match p.mode with
  | .text => { p.setText typing content.trimEnd with mode := .run }
  | .hint => { p with hint := content.trimEnd, mode := .run }
  | _ => p

/-- Reads one line, after the content lines of the block it may be in: the content lines of the block
after it, and the outcome. -/
def readNext (p : Player) (library : Library) (typing : Typing) (content : Text) : Text × Outcome :=
  let (line, p) := p.takeLine
  match Directive.read? line with
  | none =>
    match p.mode with
    | .text | .hint => (content ++ line, .ongoing p)
    | _ => (content, .ongoing p)
  | some directive => ([], (p.endBlock typing content).follow library typing directive)

/-- The number of lines that may be read of a lesson before it has to wait for the learner: each line
twice, and one more. -/
def maxVisits (p : Player) : Nat := 2 * p.lines.length + 1

/-- The number of lessons that may be opened in a row. -/
def maxOpens : Nat := 17

/-- Reads lines until the script waits for the learner: whether a round has started, and the player. A
script that does not wait is given up once it has used up its lessons or the lines of the last one. -/
def scanFrom (library : Library) (typing : Typing) : (opens visits : Nat) → Text → Player → Bool × Player
  | opens + 1, visits + 1, content, p =>
    if !p.mode.isReading then (false, p)
    else if p.lines.isEmpty then (false, { p with mode := .run })
    else
      match p.readNext library typing content with
      | (_, .started q) => (true, q)
      | (_, .opened q) => scanFrom library typing opens q.maxVisits [] q
      | (content, .ongoing q) => scanFrom library typing (opens + 1) visits content q
  | 0, _, _, p | _, 0, _, p => (false, if p.mode.isReading then { p with mode := .run } else p)
termination_by opens visits => (opens, visits)

/-- Reads lines until the script waits for the learner: whether a round has started, and the player. -/
def scan (p : Player) (library : Library) (typing : Typing) : Bool × Player :=
  scanFrom library typing maxOpens p.maxVisits [] p

/-! ## Commands of the learner -/

/-- Shows the statistics from a menu. -/
def showStats (p : Player) : Player := if p.mode = .menu then { p with mode := .stats, title := [] } else p

/-- Ends the lessons. -/
def quit (p : Player) : Player := { p with mode := .exit }

/-- Follows an entry of the menu; nothing without a menu or past its end. -/
def select? (p : Player) (library : Library) (index : Nat) : Option Player :=
  if p.mode ≠ .menu then none
  else
    p.trail.menu[index]?.map fun target =>
      if target = "stats".toList then p.showStats
      else if target = "up".toList then p.up library
      else if target = "quit".toList then p.quit
      else (p.openOrStay library target).player

/-- The entry of the menu that a digit stands for: nine and zero are the ninth and the tenth. -/
def menuIndex? (key : Char) : Option Nat :=
  if '1' ≤ key ∧ key ≤ '9' then some (key.toNat - '1'.toNat) else if key = '0' then some 9 else none

/-- Leaves the statistics, or goes back to the lesson with the menu. -/
def escape (p : Player) (library : Library) : Player :=
  if p.mode = .stats then { p with mode := .run } else p.up library

/-- Changes the session of a running round. -/
def practise (p : Player) (f : Session → Session) : Player :=
  if p.mode = .practice then { p with session := f p.session } else p

/-- Takes back the last character. -/
def backspace (p : Player) : Player := p.practise Session.backspace

/-- Types a text. -/
def append (p : Player) (t : Text) (now : Instant) : Player :=
  p.practise fun s => s.append (if p.zenkaku then t.zenkaku else t) now

/-- Sets what is pending. -/
def setPreedit (p : Player) (preedit : Preedit) (now : Instant) : Player :=
  p.practise fun s => s.setPreedit preedit now

/-- Removes characters of the typed text; this is possible at any time. -/
def delete? (p : Player) (offset : Int) (count : Nat) : Option Player :=
  (p.session.delete? offset count).map fun session => { p with session }

/-- Presses a key. -/
def press (p : Player) (layout : Layout) (press : KeyPress) : Player :=
  if layout.isKeystroke press then p.practise Session.touch else p

end Player

end KanaTutor
