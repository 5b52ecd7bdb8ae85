import KanaTutor.Disk.Basic
import KanaTutor.Disk.Path
import KanaTutor.Fault
import KanaTutor.Json.Reader
import KanaTutor.Json.Token
import KanaTutor.Json.Value
import KanaTutor.Kana.Romaji
import KanaTutor.Kana.Syllabary
import KanaTutor.Kana.Width
import KanaTutor.Keyboard.Board
import KanaTutor.Keyboard.Description
import KanaTutor.Keyboard.Hint
import KanaTutor.Keyboard.Key
import KanaTutor.Keyboard.Layout
import KanaTutor.Keyboard.LayoutFile
import KanaTutor.Keyboard.Legend
import KanaTutor.Lesson.Desk
import KanaTutor.Lesson.Directive
import KanaTutor.Lesson.Player
import KanaTutor.Lesson.Pool
import KanaTutor.Lesson.Trail
import KanaTutor.Main
import KanaTutor.Number.Double
import KanaTutor.Number.Natural
import KanaTutor.Number.Shortest
import KanaTutor.Practice.Result
import KanaTutor.Practice.Session
import KanaTutor.Practice.Target
import KanaTutor.Proofs.Kana.Decoding
import KanaTutor.Proofs.Kana.KeyCount
import KanaTutor.Proofs.Kana.LocalKeys
import KanaTutor.Proofs.Kana.Syllabary
import KanaTutor.Proofs.Lesson.Reading
import KanaTutor.Proofs.Lesson.Script
import KanaTutor.Proofs.Lesson.Waiting
import KanaTutor.Proofs.Practice.Session
import KanaTutor.Proofs.Stats.Appending
import KanaTutor.Proofs.Stats.Days
import KanaTutor.Proofs.Time.Order
import KanaTutor.Random.Source
import KanaTutor.Random.Xoshiro
import KanaTutor.Ruby.Segment
import KanaTutor.Ruby.Shorthand
import KanaTutor.Ruby.Span
import KanaTutor.Settings
import KanaTutor.Stats.Day
import KanaTutor.Stats.Log
import KanaTutor.Stats.Record
import KanaTutor.Terminal.Arguments
import KanaTutor.Terminal.Dialogue
import KanaTutor.Terminal.Report
import KanaTutor.Text.Basic
import KanaTutor.Text.Blank
import KanaTutor.Text.Lowercase
import KanaTutor.Text.Lowercase.Table
import KanaTutor.Text.Utf8
import KanaTutor.Time.Date
import KanaTutor.Time.Duration
import KanaTutor.Time.Timestamp
import KanaTutor.Toml.Reader
import KanaTutor.Toml.Scalar
import KanaTutor.Toml.Value
import KanaTutor.Toml.Writer
import KanaTutor.Tutor
import KanaTutor.Proofs.Lesson.Happening
import KanaTutor.Proofs.Lesson.Rounds
import KanaTutor.Proofs.Lesson.History
import KanaTutor.Proofs.Lesson.Typed
import KanaTutor.Proofs.Lesson.Loops
import KanaTutor.Proofs.Ruby.Scanning
import KanaTutor.Proofs.Keyboard.Hints
import KanaTutor.Proofs.Lesson.Moves
import KanaTutor.Proofs.Lesson.Passages
import KanaTutor.Proofs.Number.Bounds
import KanaTutor.Proofs.Number.Decimal
import KanaTutor.Proofs.Text.Cutting
import KanaTutor.Proofs.Text.Octets
import KanaTutor.Proofs.Time.Stamps
import KanaTutor.Proofs.Time.Ages
import KanaTutor.Proofs.Stats.Lines
import KanaTutor.Proofs.Stats.Reopening
import KanaTutor.Proofs.Disk.Files
import KanaTutor.Proofs.Lesson.Overtime
import KanaTutor.Proofs.Lesson.Ended
import KanaTutor.Proofs.Lesson.Drawing
import KanaTutor.Proofs.Stats.Best
import KanaTutor.Proofs.Stats.Opening
import KanaTutor.Proofs.Lesson.Staying
import KanaTutor.Proofs.Lesson.GoingBack
import KanaTutor.Proofs.Stats.Joining
import KanaTutor.Proofs.Practice.Clock
import KanaTutor.Proofs.Practice.Streak
import KanaTutor.Proofs.Lesson.Finishing
import KanaTutor.Proofs.Ruby.Spans
import KanaTutor.Proofs.Ruby.Braces
import KanaTutor.Proofs.Lesson.Climbing
import KanaTutor.Proofs.Lesson.Walking
import KanaTutor.Proofs.Practice.Replacing
import KanaTutor.Proofs.Ruby.Styles
import KanaTutor.Proofs.Keyboard.Places
import KanaTutor.Proofs.Keyboard.SmallKana
import KanaTutor.Proofs.Keyboard.Marks
import KanaTutor.Proofs.Kana.Widths
import KanaTutor.Proofs.Practice.Guides
import KanaTutor.Proofs.Disk.Paths
import KanaTutor.Proofs.Lesson.Directories
import KanaTutor.Proofs.Practice.Deleting
import KanaTutor.Proofs.Lesson.Written
import KanaTutor.Proofs.Stats.Emptying
import KanaTutor.Proofs.Stats.Chronology
import KanaTutor.Proofs.Lesson.LateInput
