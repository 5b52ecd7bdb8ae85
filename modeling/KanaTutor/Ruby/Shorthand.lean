/-
Shorthand for annotated and highlighted text: a base and its reading between braces, and key caps.
-/
import KanaTutor.Ruby.Span

namespace KanaTutor

namespace Ruby

/-! ## Braces -/

/-- Base and reading of the braces whose opening brace stands before the text, and what follows them.
The first bar ends the base. -/
def takeBraces? (t : Text) : Option (Text × Text × Text) := do
  let (inside, rest) ← Text.cutAt '}' t
  let (base, reading) ← Text.cutAt '|' inside
  some (base, reading, rest)

theorem length_lt_of_takeBraces? {t base reading rest : Text}
    (h : takeBraces? t = some (base, reading, rest)) : rest.length < t.length := by
  simp only [takeBraces?, Option.bind_eq_bind, Option.bind_eq_some_iff, Prod.exists, Option.some.injEq,
    Prod.mk.injEq] at h
  obtain ⟨inside, rest', hi, b, r, -, -, -, rfl⟩ := h
  rw [Text.eq_of_cutAt hi]
  simp only [List.length_append, List.length_cons]
  omega

/-- The text with braces that hold a base, a bar and a reading written as annotated runs. -/
def expandBraces : Text → Text
  | [] => []
  | c :: rest =>
    if c = '{' then
      match _h : takeBraces? rest with
      | some (base, reading, after) => (Segment.annotated base reading).encode ++ expandBraces after
      | none => c :: expandBraces rest
    else c :: expandBraces rest
termination_by t => t.length
decreasing_by
  · have := length_lt_of_takeBraces? _h
    simp only [List.length_cons]
    omega
  · simp
  · simp

/-! ## Key caps -/

/-- Begins a highlighted key cap. -/
def keyCapTag : Text := "<span background=\"#00cc99\" foreground=\"#FFFFFF\">".toList

/-- The text with the tags around key caps written as style tags. -/
def highlightKeyCaps (t : Text) : Text :=
  Text.replace "</kbd>".toList closeTag (Text.replace "<kbd>".toList keyCapTag t)

end Ruby

end KanaTutor
