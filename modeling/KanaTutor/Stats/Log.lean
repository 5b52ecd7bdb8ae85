/-
The log of finished rounds: a file of records, one on a line, and the totals of the days in it. A log
that cannot be opened still counts the rounds of its own time.
-/
import KanaTutor.Disk.Basic
import KanaTutor.Stats.Day

namespace KanaTutor

/-- The log: its path and, while it is open, its location; the days with practice, the earliest first;
the best of them; and the latest timestamp in it. -/
structure Log where
  path : Path
  file : Option Location := none
  days : List Day := []
  maxWordsPerMinute : Nat := 0
  maxDuration : Duration := .zero
  latest : Option Timestamp := none
deriving DecidableEq

namespace Log

/-- Records that are older than this many days are left out. -/
def maxDays : Nat := 183

/-! ## Reading -/

/-- Why the records of a log cannot be read. -/
inductive LoadError where
  | unreadable
  | fault (f : Fault)
deriving DecidableEq

/-- The lines of a file, without the newlines. -/
def splitLines : Octets → List Octets
  | [] => []
  | o :: rest =>
    if o = 10 then [] :: splitLines rest
    else
      match splitLines rest with
      | [] => [[o]]
      | line :: lines => (o :: line) :: lines

/-- The record on a line. A line that is no record is passed over, and so is a record that is too old;
but the numbers on it may be a fault. -/
def readLine (now : Timestamp) (line : Octets) : Except Fault (Option Record) :=
  match Utf8.decode? line with
  | none => .ok none
  | some line =>
    match Record.read line with
    | .ok r => .ok (if r.timestamp.isOlderThan maxDays now then none else some r)
    | .error (.malformed _) => .ok none
    | .error (.fault f) => .error f

/-- The records in a file. -/
def readRecords (now : Timestamp) (content : Octets) : Except Fault (List Record) :=
  (splitLines content).foldlM (fun records line => do
    let r ← readLine now line
    .ok (records ++ r.toList)) []

/-- The records of the log at a path. A log that does not exist has none. -/
def loadRecords (disk : Disk) (path : Path) (now : Timestamp) : Except LoadError (List Record) :=
  match disk.read path with
  | .error .notFound => .ok []
  | .error .unusable => .error .unreadable
  | .ok content =>
    match readRecords now content with
    | .ok records => .ok records
    | .error f => .error (.fault f)

/-! ## Totals -/

/-- Adds a record to the day it belongs to; the days are in order. -/
def addToDays (r : Record) : List Day → Except Fault (List Day)
  | [] => do
    let day ← Day.add { date := r.timestamp.date } r
    .ok [day]
  | day :: days =>
    if day.date = r.timestamp.date then do
      let day ← day.add r
      .ok (day :: days)
    else if r.timestamp.date.before day.date then do
      let first ← Day.add { date := r.timestamp.date } r
      .ok (first :: day :: days)
    else do
      let days ← addToDays r days
      .ok (day :: days)

/-- The days of a list of records. -/
def daysOf (records : List Record) : Except Fault (List Day) :=
  records.foldlM (fun days r => addToDays r days) []

/-- The log with the best so far raised to those of a day. -/
def raise (log : Log) (day : Day) : Log :=
  { log with
    maxWordsPerMinute := max log.maxWordsPerMinute day.wordsPerMinute
    maxDuration := log.maxDuration.max day.duration }

/-- The latest timestamp of a list of records. -/
def latestOf (records : List Record) : Option Timestamp :=
  records.foldl (fun latest r => some ((latest.map (·.later r.timestamp)).getD r.timestamp)) none

/-- A closed log with records. -/
def ofRecords (path : Path) (records : List Record) : Except Fault Log := do
  let days ← daysOf records
  .ok (days.foldl raise { path, days, latest := latestOf records })

/-! ## Opening and closing -/

/-- Makes the directory of a path if it is missing: whether it is there then, and the disk. -/
def makeParent (disk : Disk) (path : Path) : Bool × Disk :=
  match Path.parent? path with
  | some (c :: dir) => if disk.exists? (c :: dir) then (true, disk) else disk.makeDirectory (c :: dir)
  | _ => (true, disk)

/-- Opens the file of a log, to write after its end or from its beginning; it is made if it does not
exist. -/
def openFile (disk : Disk) (path : Path) (fromStart : Bool) : Option Location × Disk :=
  let (made, disk) := makeParent disk path
  match made, disk.locateFile path with
  | true, .ok loc => (some loc, if fromStart then disk.put loc (.file []) else disk.append loc [])
  | _, _ => (none, disk)

/-- Opens the log at a path, with the records that are not too old. -/
def openAt (disk : Disk) (path : Path) (now : Timestamp) : Except Fault (Log × Disk) := do
  let log ← match loadRecords disk path now with
    | .ok records => ofRecords path records
    | .error .unreadable => .ok { path }
    | .error (.fault f) => .error f
  let (file, disk) := openFile disk path false
  .ok ({ log with file }, disk)

/-- Forgets all records and empties the file. -/
def reset (log : Log) (disk : Disk) : Log × Disk :=
  let (file, disk) := openFile disk log.path true
  ({ path := log.path, file }, disk)

/-- Closes the file. -/
def close (log : Log) : Log := { log with file := none }

/-! ## Appending -/

/-- When a round is recorded that is finished now: timestamps in the log never go back. -/
def stamp (log : Log) (now : Timestamp) : Timestamp :=
  match log.latest with
  | some latest => if now.before latest then latest else now
  | none => now

/-- Writes a record to the file. -/
def writeRecord (log : Log) (disk : Disk) (r : Record) : Disk :=
  match log.file with
  | some loc => disk.append loc (Utf8.encode (r.write ++ ['\n']))
  | none => disk

/-- Counts a record: it belongs to the last day, or to a new one. -/
def count (log : Log) (r : Record) : Except Fault Log := do
  let date := r.timestamp.date
  let (before, day) := match log.days.getLast? with
    | some last => if last.date = date then (log.days.dropLast, last) else (log.days, { date })
    | none => ([], { date })
  let day ← Day.add day r
  .ok (raise { log with latest := some r.timestamp, days := before ++ [day] } day)

/-- Records a round that is finished now. -/
def append (log : Log) (disk : Disk) (lesson : Text) (result : RoundResult) (now : Timestamp) :
    Except Fault (Record × Log × Disk) := do
  let r := Record.ofRound (log.stamp now) lesson result
  let disk := log.writeRecord disk r
  let log ← log.count r
  .ok (r, log, disk)

/-- The totals of a date, if it is that of the last day. -/
def today? (log : Log) (date : Date) : Option Day := log.days.getLast?.filter (·.date = date)

end Log

end KanaTutor
