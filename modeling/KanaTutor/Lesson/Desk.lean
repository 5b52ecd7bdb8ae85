/-
The learner's desk: a player of lessons with the way texts are typed, the log of finished rounds, and
the disk that lessons are read from. A finished round goes into the log; nothing else does.
-/
import KanaTutor.Lesson.Player
import KanaTutor.Stats.Log

namespace KanaTutor

/-- The desk. -/
structure Desk where
  player : Player
  typing : Typing
  log : Log
  disk : Disk

/-- What the learner does. -/
inductive Command where
  | open (lesson : Text)
  | run (now : Instant)
  | select (index : Nat)
  | selectKey (key : Char)
  | up
  | escape
  | backspace
  | enter (now : Instant)
  | append (t : Text) (now : Instant)
  | delete (offset : Int) (count : Nat)
  | setPreedit (preedit : Preedit) (now : Instant)
  | press (key : KeyPress)
  | showStats
  | quit

namespace Desk

/-- The lessons that can be read: all files with well-formed text. -/
def library (desk : Desk) : Library := desk.disk.readText?

/-- The desk with another player. -/
def withPlayer (desk : Desk) (p : Player) : Desk := { desk with player := p }

/-- Records the round, for a player that has just looked at the clock, and goes on after it. -/
def finishRound (desk : Desk) (now : Instant) (clock : Timestamp) : Except Fault Desk := do
  let p := desk.player
  let result := p.roundResult now
  let (_, log, disk) ← desk.log.append desk.disk p.lesson result clock
  .ok { desk with player := p.afterRound desk.typing result, log, disk }

/-- Reads the script until it waits for the learner: whether a round has started. -/
def scan (desk : Desk) : Bool × Desk :=
  let (started, p) := desk.player.scan desk.library desk.typing
  (started, desk.withPlayer p)

/-- Goes on with the lesson: ends the running round when its time is up or its target has been matched
long enough, and reads the script if no round is running then. Tells whether the script has started a
round. -/
def run (desk : Desk) (now : Instant) (clock : Timestamp) : Except Fault (Bool × Desk) :=
  if desk.player.lines.isEmpty then .ok (false, desk)
  else if desk.player.mode ≠ .practice then .ok desk.scan
  else
    let p := desk.player.poll now
    if p.session.isTimedOut now then .ok (false, desk.withPlayer { p with session := {} })
    else if !p.session.isFinished p.finishDelay now then .ok (false, desk.withPlayer p)
    else do
      let desk ← (desk.withPlayer p).finishRound now clock
      .ok (if desk.player.mode = .practice then (false, desk) else desk.scan)

/-- Confirms: leaves the score and the statistics; ends a round whose target is matched, and types a
line break in any other. -/
def enter (desk : Desk) (now : Instant) (clock : Timestamp) : Except Fault Desk :=
  match desk.player.mode with
  | .score | .stats => .ok (desk.withPlayer { desk.player with mode := .run })
  | .practice =>
    let p := desk.player.poll now
    if p.session.isFinished .zero now then (desk.withPlayer p).finishRound now clock
    else .ok (desk.withPlayer (p.practise fun s => s.append ['\n'] now))
  | _ => .ok desk

/-- The desk after a change that may not be possible, and whether it was. -/
def attempt (desk : Desk) (changed : Option Player) : Option Bool × Desk :=
  match changed with
  | some p => (some true, desk.withPlayer p)
  | none => (some false, desk)

/-- Carries out a command at the given time. The answer tells, for the commands that may fail, whether
they did what they are for. -/
def perform (desk : Desk) (clock : Timestamp) : Command → Except Fault (Option Bool × Desk)
  | .open lesson => .ok (desk.attempt (desk.player.open? desk.library lesson))
  | .run now => do
    let (started, desk) ← desk.run now clock
    .ok (some started, desk)
  | .select index => .ok (desk.attempt (desk.player.select? desk.library index))
  | .selectKey key =>
    .ok (desk.attempt ((Player.menuIndex? key).bind (desk.player.select? desk.library)))
  | .up => .ok (none, desk.withPlayer (desk.player.up desk.library))
  | .escape => .ok (none, desk.withPlayer (desk.player.escape desk.library))
  | .backspace => .ok (none, desk.withPlayer desk.player.backspace)
  | .enter now => do
    let desk ← desk.enter now clock
    .ok (none, desk)
  | .append t now => .ok (none, desk.withPlayer (desk.player.append t now))
  | .delete offset count => .ok (desk.attempt (desk.player.delete? offset count))
  | .setPreedit preedit now => .ok (none, desk.withPlayer (desk.player.setPreedit preedit now))
  | .press key => .ok (none, desk.withPlayer (desk.player.press desk.typing.layout key))
  | .showStats => .ok (none, desk.withPlayer desk.player.showStats)
  | .quit => .ok (none, desk.withPlayer desk.player.quit)

/-- The result of the running round, or of the last one finished. -/
def result (desk : Desk) (now : Instant) : RoundResult × Desk :=
  let (r, p) := desk.player.result now
  (r, desk.withPlayer p)

end Desk

end KanaTutor
