/-
Text as the tutor handles it: a list of characters, so that every count, position and offset counts
characters. Here are the ways to cut a text: at the first or last occurrence of a character, at a
known beginning or end, and into lines.
-/

namespace KanaTutor

/-- Text is a list of characters. -/
abbrev Text := List Char

namespace Text

/-! ## Cutting at a character -/

/-- The parts before and after the first `c`. -/
def cutAt (c : Char) : Text → Option (Text × Text)
  | [] => none
  | x :: rest =>
    if x = c then some ([], rest) else (cutAt c rest).map fun (before, after) => (x :: before, after)

/-- The parts before and after the last `c`. -/
def cutAtLast (c : Char) : Text → Option (Text × Text)
  | [] => none
  | x :: rest =>
    match cutAtLast c rest with
    | some (before, after) => some (x :: before, after)
    | none => if x = c then some ([], rest) else none

theorem eq_of_cutAt {c : Char} {t before after : Text} (h : cutAt c t = some (before, after)) :
    t = before ++ c :: after := by
  induction t generalizing before with
  | nil => simp [cutAt] at h
  | cons x rest ih =>
    rw [cutAt] at h
    split at h
    · next hx => simp at h; obtain ⟨rfl, rfl⟩ := h; simp [hx]
    · next hx =>
      simp only [Option.map_eq_some_iff, Prod.mk.injEq, Prod.exists] at h
      obtain ⟨b, a, hb, rfl, rfl⟩ := h
      simpa using ih hb

/-! ## Beginnings and ends -/

/-- What follows `beginning`, if the text begins with it. -/
def afterStart? (t beginning : Text) : Option Text := beginning.isPrefixOf? t

/-- What precedes `ending`, if the text ends with it. -/
def beforeEnd? (t ending : Text) : Option Text := ending.isSuffixOf? t

/-- The text with every occurrence of `old`, searched from the front, written as `new`. Nothing occurs
where `old` is empty. -/
def replace (old new : Text) : Text → Text
  | [] => []
  | c :: rest =>
    match afterStart? (c :: rest) old with
    | none => c :: replace old new rest
    | some after =>
      if after.length ≤ rest.length then new ++ replace old new after else c :: replace old new rest
termination_by t => t.length

/-! ## Lines -/

/-- The lines of a text, each with its line break; only the last may lack one. -/
def linesKeepingBreaks : Text → List Text
  | [] => []
  | c :: rest =>
    if c = '\n' then [c] :: linesKeepingBreaks rest
    else
      match linesKeepingBreaks rest with
      | [] => [[c]]
      | line :: lines => (c :: line) :: lines

theorem flatten_linesKeepingBreaks (t : Text) : (linesKeepingBreaks t).flatten = t := by
  induction t with
  | nil => rfl
  | cons c rest ih =>
    rw [linesKeepingBreaks]
    split
    · simp [ih]
    · split <;> simp_all

/-- A line without its line break `\n` or `\r\n`. -/
def withoutBreak (line : Text) : Text :=
  match beforeEnd? line ['\n'] with
  | none => line
  | some body => (beforeEnd? body ['\r']).getD body

/-- The lines of a text without their line breaks. -/
def lines (t : Text) : List Text := (linesKeepingBreaks t).map withoutBreak

end Text

end KanaTutor
