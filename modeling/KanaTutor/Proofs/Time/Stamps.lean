/-
Timestamps are read as they are written: a timestamp at a whole second is its own date and time of day.
-/
import KanaTutor.Proofs.Number.Decimal
import KanaTutor.Proofs.Time.Order

namespace KanaTutor

namespace Date

theorem of?_self (d : Date) : of? d.year d.month d.day = some d := dif_pos d.valid

end Date

namespace Timestamp

open Natural

/-! ## Numbers -/

/-- Digits are taken off a text up to what is no digit. -/
theorem takeDigits?_append {limit : Nat} {digits rest : Text} (hne : digits ≠ [])
    (hdigits : ∀ c ∈ digits, c.isDigit = true) (hlimit : digits.length ≤ limit)
    (hrest : ∀ c ∈ rest.head?, c.isDigit = false) :
    takeDigits? limit (digits ++ rest) = some (ofDigits digits, rest) := by
  have hstop : rest.takeWhile Char.isDigit = [] := by
    cases rest with
    | nil => rfl
    | cons c rest => exact List.takeWhile_cons_of_neg (by simp [hrest c rfl])
  have htake : ((digits ++ rest).takeWhile Char.isDigit).take limit = digits := by
    rw [List.takeWhile_append_of_pos hdigits, hstop, List.append_nil, List.take_of_length_le hlimit]
  have hempty : digits.isEmpty = false := by simpa using hne
  unfold takeDigits?
  rw [htake]
  dsimp only
  rw [hempty, List.drop_left]
  rfl

theorem isDigit_head (width n : Nat) (rest : Text) : ∀ c ∈ (writePadded width n ++ rest).head?, c.isDigit = true := by
  intro c hc
  have hdigits := @isDigit_writePadded width n
  obtain ⟨d, digits, heq⟩ := List.exists_cons_of_ne_nil (writePadded_ne_nil width n)
  rw [heq] at hc hdigits
  cases hc
  exact hdigits c (List.mem_cons_self ..)

theorem trimStart_of_isDigit {t : Text} (h : ∀ c ∈ t.head?, c.isDigit = true) : t.trimStart = t :=
  Text.trimStart_of_head fun c hc => isBlank_of_isDigit (h c hc)

theorem takeTwoDigits?_write {n : Nat} (h : n < 100) {rest : Text} (hrest : ∀ c ∈ rest.head?, c.isDigit = false) :
    takeTwoDigits? (writePadded 2 n ++ rest) = some (n, rest) := by
  rw [takeTwoDigits?, trimStart_of_isDigit (isDigit_head 2 n rest), takeDigits?_append (writePadded_ne_nil 2 n)
    isDigit_writePadded (length_writePadded (by decide) h).le hrest, ofDigits_writePadded]

theorem takeYear?_of_isDigit {t : Text} (h : ∀ c ∈ t.head?, c.isDigit = true) :
    takeYear? t = (takeDigits? 4 t).map fun (n, after) => ((n : Int), after) := by
  unfold takeYear?
  rw [trimStart_of_isDigit h]
  split
  · exact absurd (h '-' rfl) (by decide)
  · exact absurd (h '+' rfl) (by decide)
  · rfl

/-- A year is read up to the hyphen that follows it. -/
theorem takeYear?_write (year : Int) (rest : Text) :
    takeYear? (Date.writeYear year ++ '-' :: rest) = some (year, '-' :: rest) := by
  have hdigits : ∀ (n : Nat) {limit : Nat}, (writePadded 4 n).length ≤ limit →
      takeDigits? limit (writePadded 4 n ++ '-' :: rest) = some (n, '-' :: rest) := by
    intro n limit hlimit
    rw [takeDigits?_append (writePadded_ne_nil 4 n) isDigit_writePadded hlimit (by rintro _ ⟨⟩; rfl),
      ofDigits_writePadded]
  have hall : ∀ n, (writePadded 4 n).length ≤ (writePadded 4 n ++ '-' :: rest).length :=
    fun n => by rw [List.length_append]; exact Nat.le_add_right ..
  have hplus : ∀ t, takeYear? ('+' :: t) = (takeDigits? t.length t).map fun (n, after) => ((n : Int), after) :=
    fun _ => rfl
  have hminus : ∀ t, takeYear? ('-' :: t) = (takeDigits? t.length t).map fun (n, after) => (-(n : Int), after) :=
    fun _ => rfl
  cases year with
  | ofNat n =>
    unfold Date.writeYear
    dsimp only
    split
    · rw [List.append_assoc, List.cons_append, List.nil_append, hplus, hdigits n (hall n)]
      rfl
    · have hlength : (writePadded 4 n).length ≤ 4 := (length_writePadded (by decide) (by omega)).le
      rw [List.nil_append, takeYear?_of_isDigit (isDigit_head 4 n _), hdigits n hlength]
      rfl
  | negSucc n =>
    unfold Date.writeYear
    rw [List.cons_append, hminus, hdigits (n + 1) (hall (n + 1))]
    rfl

/-! ## Timestamps -/

theorem of?_self {t : Timestamp} (h : t.nano = 0) :
    of? t.date (t.second / 3600) (t.second / 60 % 60) (t.second % 60) = some t := by
  obtain ⟨date, second, nano, second_lt, nano_lt⟩ := t
  subst h
  have hparts : second / 3600 * 3600 + second / 60 % 60 * 60 + min (second % 60) 59 = second := by omega
  unfold of?
  dsimp only
  rw [dif_pos (by omega)]
  simp only [hparts, if_neg (show second % 60 ≠ 60 by omega)]

/-- A timestamp at a whole second is read as it is written. -/
theorem read?_write {t : Timestamp} (h : t.nano = 0) : read? t.write = some t := by
  have hmonth := t.date.month_bounds
  have hday := t.date.day_bounds.2.trans (Date.daysIn_le ..)
  have hsecond := t.second_lt
  have htext : t.write = Date.writeYear t.date.year ++ '-' :: (writePadded 2 t.date.month ++
      '-' :: (writePadded 2 t.date.day ++ ' ' :: (writePadded 2 (t.second / 3600) ++
        ':' :: (writePadded 2 (t.second / 60 % 60) ++ ':' :: (writePadded 2 (t.second % 60) ++ []))))) := by
    unfold write Date.write
    rw [h]
    simp only [List.append_assoc, List.cons_append, List.append_nil]
    rfl
  have hchar : ∀ (c : Char) (rest : Text), takeChar? c (c :: rest) = some rest := by
    intro c rest
    rw [takeChar?, Text.afterStart?, List.isPrefixOf?, beq_self_eq_true]
    rfl
  have hspace : ∀ rest : Text, takeTwoDigits? (' ' :: rest) = takeTwoDigits? rest := fun _ => rfl
  have hend : ∀ c ∈ ([] : Text).head?, c.isDigit = false := by rintro _ ⟨⟩
  have hstop : ∀ {d : Char} {rest : Text}, d.isDigit = false → ∀ c ∈ (d :: rest).head?, c.isDigit = false := by
    rintro d rest hd _ ⟨⟩
    exact hd
  rw [htext, read?, takeYear?_write]
  simp only [Option.bind_eq_bind, Option.bind_some, hchar, hspace,
    takeTwoDigits?_write (show t.date.month < 100 by omega) (hstop (show '-'.isDigit = false from rfl)),
    takeTwoDigits?_write (show t.date.day < 100 by omega) (hstop (show ' '.isDigit = false from rfl)),
    takeTwoDigits?_write (show t.second / 3600 < 100 by omega) (hstop (show ':'.isDigit = false from rfl)),
    takeTwoDigits?_write (show t.second / 60 % 60 < 100 by omega) (hstop (show ':'.isDigit = false from rfl)),
    takeTwoDigits?_write (show t.second % 60 < 100 by omega) hend, Date.of?_self, of?_self h]
  rfl

theorem isBlank_head_write (t : Timestamp) (rest : Text) : ∀ c ∈ (t.write ++ rest).head?, isBlank c = false := by
  have hyear : ∀ rest, ∀ c ∈ (Date.writeYear t.date.year ++ rest).head?, isBlank c = false := by
    intro rest c hc
    unfold Date.writeYear at hc
    split at hc
    · split at hc
      · cases hc
        rfl
      · exact isBlank_of_isDigit (isDigit_head 4 _ rest c hc)
    · cases hc
      rfl
  unfold write Date.write
  simp only [List.append_assoc]
  exact hyear _

/-- A timestamp is written with digits, signs, colons and a space. -/
theorem chars_write (t : Timestamp) : ∀ c ∈ t.write, c.isDigit = true ∨ c ∈ ['+', '-', ':', ' '] := by
  have hdigits : ∀ width n, ∀ c ∈ writePadded width n, c.isDigit = true ∨ c ∈ ['+', '-', ':', ' '] :=
    fun _ _ c hc => .inl (isDigit_writePadded c hc)
  have hyear : ∀ c ∈ Date.writeYear t.date.year, c.isDigit = true ∨ c ∈ ['+', '-', ':', ' '] := by
    unfold Date.writeYear
    split
    · refine List.forall_mem_append.2 ⟨?_, hdigits _ _⟩
      split <;> simp
    · exact List.forall_mem_cons.2 ⟨by decide, hdigits _ _⟩
  unfold write Date.write
  simp only [List.forall_mem_append, List.forall_mem_cons]
  exact ⟨⟨⟨⟨⟨hyear, by decide, hdigits _ _⟩, by decide, hdigits _ _⟩, by decide, hdigits _ _⟩,
    by decide, hdigits _ _⟩, by decide, hdigits _ _⟩

end Timestamp

end KanaTutor
