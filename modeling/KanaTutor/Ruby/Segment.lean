/-
Annotated text: a run of text may carry its reading, written with the Unicode interlinear annotation
characters as anchor, base, separator, reading, terminator. A text is split into plain segments and
annotated ones; markers that are no part of a complete run are plain text.
-/
import KanaTutor.Kana.Width

namespace KanaTutor

namespace Ruby

/-- Begins an annotated run. -/
def anchor : Char := '\uFFF9'

/-- Stands between base and reading. -/
def separator : Char := '\uFFFA'

/-- Ends an annotated run. -/
def terminator : Char := '\uFFFB'

/-- The character is one of the three markers. -/
def isMarker (c : Char) : Bool := c = anchor || c = separator || c = terminator

/-- The character can be part of a reading. -/
def isReadable (c : Char) : Bool := c ≠ anchor && c ≠ terminator

/-- A piece of annotated text. -/
inductive Segment where
  | plain (text : Text)
  | annotated (base reading : Text)
deriving DecidableEq, Repr

/-- What is typed for a segment. -/
def Segment.base : Segment → Text
  | .plain t => t
  | .annotated base _ => base

/-- What is read for a segment. -/
def Segment.reading : Segment → Text
  | .plain t => t
  | .annotated _ reading => reading

/-- A segment as it is written. -/
def Segment.encode : Segment → Text
  | .plain t => t
  | .annotated base reading => anchor :: base ++ separator :: reading ++ [terminator]

/-! ## Splitting -/

/-- Base and reading of the run whose anchor stands before the text, and what follows the run. -/
def takeRun? (t : Text) : Option (Text × Text × Text) :=
  match t.dropWhile (!isMarker ·) with
  | [] => none
  | c :: body =>
    match body.dropWhile isReadable with
    | [] => none
    | d :: rest =>
      if c = separator ∧ d = terminator then
        some (t.takeWhile (!isMarker ·), body.takeWhile isReadable, rest)
      else none

theorem length_lt_of_takeRun? {t base reading rest : Text} (h : takeRun? t = some (base, reading, rest)) :
    rest.length < t.length := by
  unfold takeRun? at h
  split at h
  · simp at h
  · next c body hb =>
    split at h
    · simp at h
    · next d rest' hr =>
      split at h
      · simp only [Option.some.injEq, Prod.mk.injEq] at h
        obtain ⟨-, -, rfl⟩ := h
        have h₁ : (t.dropWhile (!isMarker ·)).length ≤ t.length := (List.dropWhile_suffix _).length_le
        have h₂ : (body.dropWhile isReadable).length ≤ body.length := (List.dropWhile_suffix _).length_le
        rw [hb] at h₁
        rw [hr] at h₂
        simp only [List.length_cons] at h₁ h₂
        omega
      · simp at h

/-- Puts a character in front of segments, as a part of the first one if that is plain. -/
def consPlain (c : Char) : List Segment → List Segment
  | .plain t :: rest => .plain (c :: t) :: rest
  | segments => .plain [c] :: segments

/-- The segments of a text. -/
def segments : Text → List Segment
  | [] => []
  | c :: rest =>
    if c = anchor then
      match _h : takeRun? rest with
      | some (base, reading, after) => .annotated base reading :: segments after
      | none => consPlain c (segments rest)
    else consPlain c (segments rest)
termination_by t => t.length
decreasing_by
  · have := length_lt_of_takeRun? _h
    simp only [List.length_cons]
    omega
  · simp
  · simp

/-! ## What is typed and what is read -/

/-- The text without readings and markers, as it is typed. -/
def plain (t : Text) : Text := (segments t).flatMap Segment.base

/-- The reading of a text, in hiragana. -/
def reading (t : Text) : Text := Text.hiragana ((segments t).flatMap Segment.reading)

end Ruby

end KanaTutor
