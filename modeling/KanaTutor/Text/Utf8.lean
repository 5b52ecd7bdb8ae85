/-
Text as octets: writing and reading UTF-8. Reading goes one sequence at a time: an octet that leads
no sequence, or a sequence that breaks off, is malformed up to the octet that rules it out.
-/
import KanaTutor.Text.Basic

namespace KanaTutor

/-- A string of octets. -/
abbrev Octets := List UInt8

namespace Utf8

/-- The octets of a text. -/
def encode (t : Text) : Octets := t.flatMap String.utf8EncodeChar

/-- What an octet that leads a sequence announces: the bits it gives, how many octets follow, and the
bounds of the first of them. -/
structure Lead where
  bits : Nat
  following : Nat
  low : UInt8
  high : UInt8

/-- The sequence that an octet leads, if it leads one. -/
def lead? (b : UInt8) : Option Lead :=
  let n := b.toNat
  if b < 0x80 then some ⟨n, 0, 0x80, 0xBF⟩
  else if b < 0xC2 then none
  else if b < 0xE0 then some ⟨n - 0xC0, 1, 0x80, 0xBF⟩
  else if b = 0xE0 then some ⟨0, 2, 0xA0, 0xBF⟩
  else if b = 0xED then some ⟨0xD, 2, 0x80, 0x9F⟩
  else if b < 0xF0 then some ⟨n - 0xE0, 2, 0x80, 0xBF⟩
  else if b = 0xF0 then some ⟨0, 3, 0x90, 0xBF⟩
  else if b < 0xF4 then some ⟨n - 0xF0, 3, 0x80, 0xBF⟩
  else if b = 0xF4 then some ⟨4, 3, 0x80, 0x8F⟩
  else none

/-- Reads the octets that follow a lead, adding their six bits each: the character (`none` where an
octet is out of bounds or missing) and the octets not used. -/
def follow (bits : Nat) : (following : Nat) → (low high : UInt8) → Octets → Option Char × Octets
  | 0, _, _, rest => (some (Char.ofNat bits), rest)
  | n + 1, low, high, b :: rest =>
    if low ≤ b && b ≤ high then follow (bits * 64 + (b.toNat - 0x80)) n 0x80 0xBF rest
    else (none, b :: rest)
  | _ + 1, _, _, [] => (none, [])

/-- Reads the sequence that begins with `b`. -/
def next (b : UInt8) (rest : Octets) : Option Char × Octets :=
  match lead? b with
  | none => (none, rest)
  | some l => follow l.bits l.following l.low l.high rest

theorem length_follow_le (bits n : Nat) (low high : UInt8) (s : Octets) :
    (follow bits n low high s).2.length ≤ s.length := by
  induction n generalizing bits low high s with
  | zero => simp [follow]
  | succ n ih =>
    cases s with
    | nil => simp [follow]
    | cons b rest =>
      rw [follow]
      split
      · exact Nat.le_succ_of_le (ih ..)
      · exact Nat.le_refl _

theorem length_next_le (b : UInt8) (rest : Octets) : (next b rest).2.length ≤ rest.length := by
  unfold next
  split
  · exact Nat.le_refl _
  · exact length_follow_le ..

/-- The text that octets stand for, if they are well formed throughout. -/
def decode? : Octets → Option Text
  | [] => some []
  | b :: rest => do
    let c ← (next b rest).1
    let t ← decode? (next b rest).2
    return c :: t
termination_by s => s.length
decreasing_by
  have := length_next_le b rest
  simp only [List.length_cons]
  omega

/-- The text that octets stand for, with U+FFFD for each malformed sequence. -/
def decodeLossy : Octets → Text
  | [] => []
  | b :: rest => (next b rest).1.getD '\uFFFD' :: decodeLossy (next b rest).2
termination_by s => s.length
decreasing_by
  have := length_next_le b rest
  simp only [List.length_cons]
  omega

end Utf8

end KanaTutor
