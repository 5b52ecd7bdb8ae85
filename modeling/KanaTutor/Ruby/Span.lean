/-
Text laid out with its readings above it: each reading lies over a span of the plain text. The text
may carry style tags, which are kept as markup and are no part of the plain text.
-/
import KanaTutor.Ruby.Segment

namespace KanaTutor

namespace Ruby

/-- A reading over `length` characters of the plain text from `start` on. The tag is the style tag
open over them, or empty. -/
structure Span where
  start : Nat
  length : Nat
  reading : Text
  tag : Text
deriving DecidableEq, Repr

/-- Ends a styled block. -/
def closeTag : Text := "</span>".toList

/-- The reading in the style of its base. -/
def Span.decorated (s : Span) : Text :=
  if s.tag.isEmpty then s.reading else s.tag ++ s.reading ++ closeTag

/-- The plain text, the markup it is shown with, and the readings above it. -/
structure Layout where
  plain : Text
  markup : Text
  spans : List Span
deriving DecidableEq, Repr

/-! ## Plain text -/

/-- Lays out segments that begin at position `start` of the plain text. -/
def layOut (start : Nat) : List Segment → Layout
  | [] => ⟨[], [], []⟩
  | .plain t :: rest =>
    let after := layOut (start + t.length) rest
    { after with plain := t ++ after.plain }
  | .annotated base reading :: rest =>
    let after := layOut (start + base.length) rest
    { after with plain := base ++ after.plain, spans := ⟨start, base.length, reading, []⟩ :: after.spans }

/-- The layout of a text without style tags. -/
def Layout.ofText (t : Text) : Layout := layOut 0 (segments t)

/-! ## Styled text -/

/-- Where a styled text stands: in a block opened by `tag` or, if that is empty, in none; inside an
opening tag of which `tag` has been read; inside a closing tag. -/
inductive Style where
  | shown (tag : Text)
  | opening (tag : Text)
  | closing
deriving DecidableEq, Repr

namespace Style

/-- What is known of the open tag. -/
def tag : Style → Text
  | shown tag => tag
  | opening tag => tag
  | closing => []

/-- Reads a character: the style after it, and whether it is visible. Blocks do not nest: a tag inside
a block closes it. -/
def step : Style → Char → Style × Bool
  | opening tag, c => (if c = '>' then shown (tag ++ [c]) else opening (tag ++ [c]), false)
  | closing, c => (if c = '>' then shown [] else closing, false)
  | shown tag, c =>
    if c = '<' then (if tag.isEmpty then opening [c] else closing, false) else (shown tag, true)

/-- Reads a text: the style after it, and its visible part. -/
def read (s : Style) : Text → Style × Text
  | [] => (s, [])
  | c :: rest =>
    let (s', isVisible) := s.step c
    let (last, visible) := s'.read rest
    (last, if isVisible then c :: visible else visible)

end Style

/-- Lays out segments with style tags that begin at position `start` of the plain text. -/
def layOutStyled (start : Nat) (s : Style) : List Segment → Layout
  | [] => ⟨[], [], []⟩
  | .plain t :: rest =>
    let (s', visible) := s.read t
    let after := layOutStyled (start + visible.length) s' rest
    ⟨visible ++ after.plain, t ++ after.markup, after.spans⟩
  | .annotated base reading :: rest =>
    let (s', visible) := s.read base
    let after := layOutStyled (start + visible.length) s' rest
    ⟨visible ++ after.plain, base ++ after.markup, ⟨start, visible.length, reading, s'.tag⟩ :: after.spans⟩

/-- The layout of a text with style tags. -/
def Layout.ofMarkup (t : Text) : Layout := layOutStyled 0 (.shown []) (segments t)

end Ruby

end KanaTutor
