/-
Numbers in decimal: what is written is read again. Zeros in front change neither a natural number nor a binary64 number,
and a decimal with a few digits is read as a number that is neither negative nor large.
-/
import KanaTutor.Proofs.Number.Bounds
import KanaTutor.Proofs.Text.Cutting

namespace KanaTutor

/-! ## Digits -/

theorem isDigit_iff (c : Char) : c.isDigit = true ↔ 48 ≤ c.toNat ∧ c.toNat ≤ 57 := by
  unfold Char.isDigit
  rw [Bool.and_eq_true, decide_eq_true_eq, decide_eq_true_eq]
  exact Iff.rfl

theorem isBlank_of_isDigit {c : Char} (h : c.isDigit = true) : isBlank c = false := by
  rw [isDigit_iff] at h
  unfold isBlank
  simp
  omega

theorem isControl_of_isDigit {c : Char} (h : c.isDigit = true) : isControl c = false := by
  rw [isDigit_iff] at h
  unfold isControl
  simp
  omega

theorem ne_of_isDigit {c d : Char} (h : c.isDigit = true) (hd : d.isDigit = false) : c ≠ d := by
  rintro rfl
  rw [h] at hd
  cases hd

theorem not_mem_of_isDigit {t : Text} {d : Char} (h : ∀ c ∈ t, c.isDigit = true) (hd : d.isDigit = false) : d ∉ t :=
  fun hmem => ne_of_isDigit (h d hmem) hd rfl

namespace Natural

theorem isDigit_write {n : Nat} : ∀ c ∈ write n, c.isDigit = true :=
  fun _ hc => Nat.isDigit_of_mem_toDigits (by decide) (by decide) hc

theorem isDigit_zeros (k : Nat) {t : Text} (h : ∀ c ∈ t, c.isDigit = true) :
    ∀ c ∈ List.replicate k '0' ++ t, c.isDigit = true := by
  intro c hc
  rcases List.mem_append.1 hc with hc | hc
  · rw [List.eq_of_mem_replicate hc]
    rfl
  · exact h c hc

theorem isDigit_writePadded {width n : Nat} : ∀ c ∈ writePadded width n, c.isDigit = true :=
  isDigit_zeros _ isDigit_write

theorem writePadded_ne_nil (width n : Nat) : writePadded width n ≠ [] :=
  fun h => Nat.toDigits_ne_nil (List.append_eq_nil_iff.1 h).2

/-- A number that is not too long has exactly the width it is padded to. -/
theorem length_writePadded {width n : Nat} (hwidth : 0 < width) (h : n < 10 ^ width) :
    (writePadded width n).length = width := by
  have := (Nat.length_toDigits_le_iff (by decide) hwidth).2 h
  rw [writePadded, padStart, List.length_append, List.length_replicate, write]
  omega

/-! ## Reading digits -/

theorem ofDigits_eq (t : Text) : ofDigits t = Nat.ofDigitChars 10 t 0 := by
  unfold ofDigits digitValue
  rw [Nat.ofDigitChars_eq_foldl]
  congr 1
  funext n c
  rw [Nat.mul_comm]

theorem ofDigits_append (a b : Text) : ofDigits (a ++ b) = ofDigits a * 10 ^ b.length + ofDigits b := by
  rw [ofDigits_eq, Nat.ofDigitChars_append, Nat.ofDigitChars_eq_ofDigitChars_zero, ← ofDigits_eq, ← ofDigits_eq,
    Nat.mul_comm]

theorem ofDigits_write (n : Nat) : ofDigits (write n) = n := by
  rw [ofDigits_eq]
  exact Nat.ofDigitChars_ten_toDigits

/-- Zeros in front count for nothing. -/
theorem ofDigits_zeros (k : Nat) (t : Text) : ofDigits (List.replicate k '0' ++ t) = ofDigits t := by
  rw [ofDigits_eq, Nat.ofDigitChars_append, Nat.ofDigitChars_replicate_zero, Nat.mul_zero, ← ofDigits_eq]

theorem ofDigits_writePadded (width n : Nat) : ofDigits (writePadded width n) = n := by
  rw [writePadded, padStart, ofDigits_zeros, ofDigits_write]

theorem readWord?_of_digits {t : Text} (hne : t ≠ []) (hdigits : ∀ c ∈ t, c.isDigit = true)
    (hlt : ofDigits t < wordBound) : readWord? t = some (ofDigits t) := by
  have hsign : Text.afterStart? t ['+'] = none := by
    cases t with
    | nil => contradiction
    | cons c t =>
      have hc : ('+' == c) = false :=
        beq_eq_false_iff_ne.2 (ne_of_isDigit (hdigits c (List.mem_cons_self ..)) rfl).symm
      rw [Text.afterStart?, List.isPrefixOf?, hc]
      rfl
  have hread : read? t = some (ofDigits t) := by
    have hempty : t.isEmpty = false := by simpa using hne
    rw [read?, hempty, List.all_eq_true.2 hdigits]
    rfl
  rw [readWord?, hsign, Option.getD_none, hread]
  exact if_pos hlt

/-- A word is read as it is written, padded or not. -/
theorem readWord?_writePadded (width : Nat) {n : Nat} (h : n < wordBound) :
    readWord? (writePadded width n) = some n := by
  have hvalue := ofDigits_writePadded width n
  rw [readWord?_of_digits (writePadded_ne_nil width n) isDigit_writePadded (by rwa [hvalue]), hvalue]

theorem readWord?_write {n : Nat} (h : n < wordBound) : readWord? (write n) = some n := by
  have hvalue := ofDigits_write n
  have hne : write n ≠ [] := Nat.toDigits_ne_nil
  rw [readWord?_of_digits hne isDigit_write (by rwa [hvalue]), hvalue]

end Natural

/-! ## Decimal places -/

namespace Double

theorem takeSign_of_isDigit {t : Text} (h : ∀ c ∈ t.head?, c.isDigit = true) : takeSign t = (false, t) := by
  unfold takeSign
  split
  · exact absurd (h '-' rfl) (by decide)
  · exact absurd (h '+' rfl) (by decide)
  · rfl

/-- Digits, a point and digits are read as the number of all digits, moved by the places after the point. -/
theorem read?_places {whole places : Text} (hne : whole ≠ []) (hwhole : ∀ c ∈ whole, c.isDigit = true)
    (hplaces : ∀ c ∈ places, c.isDigit = true) :
    read? (whole ++ '.' :: places) = some (ofDecimal (Natural.ofDigits (whole ++ places)) (-places.length)) := by
  have hsign : takeSign (whole ++ '.' :: places) = (false, whole ++ '.' :: places) := by
    obtain ⟨c, rest, rfl⟩ := List.exists_cons_of_ne_nil hne
    refine takeSign_of_isDigit fun d hd => ?_
    cases hd
    exact hwhole c (List.mem_cons_self ..)
  -- no name of a number has a point in it
  have hname : ∀ name : Text, '.' ∉ name → (whole ++ '.' :: places).map Char.toLower ≠ name := by
    rintro _ hpoint rfl
    exact hpoint (List.mem_map.2 ⟨'.', by simp, rfl⟩)
  have htake : (whole ++ '.' :: places).takeWhile Char.isDigit = whole := by
    rw [List.takeWhile_append_of_pos hwhole]
    exact List.append_nil _
  have hdrop : (whole ++ '.' :: places).dropWhile Char.isDigit = '.' :: places := by
    rw [List.dropWhile_append_of_pos hwhole]
    rfl
  have hempty : whole.isEmpty = false := by simpa using hne
  have hunsigned : readUnsigned? (whole ++ '.' :: places) =
      some (ofDecimal (Natural.ofDigits (whole ++ places)) (-places.length)) := by
    unfold readUnsigned?
    rw [htake, hdrop]
    show (if whole.isEmpty && (places.takeWhile Char.isDigit).isEmpty then none
      else (readExponent? (places.dropWhile Char.isDigit)).map fun e =>
        ofDecimal (Natural.ofDigits (whole ++ places.takeWhile Char.isDigit))
          (e - (places.takeWhile Char.isDigit).length)) = _
    rw [List.takeWhile_eq_self_iff.2 hplaces, List.dropWhile_eq_nil_iff.2 hplaces, hempty]
    show some (ofDecimal _ (0 - (places.length : Int))) = _
    rw [Int.zero_sub]
  unfold read?
  rw [hsign]
  dsimp only
  rw [decide_eq_false (hname "inf".toList (by decide)), decide_eq_false (hname "infinity".toList (by decide)),
    if_neg (by decide), if_neg (hname "nan".toList (by decide)), hunsigned]
  rfl

/-- A few tenths are a small number. -/
theorem atMost_tenths {n : Nat} (h : n < 1000) : AtMost 7 (ofDecimal n (-1)) := by
  have hten : (Float.exactlyRepresentablePowersOfTen[1] : Float).toModel.unpack =
    .finite .positive 5629499534213120 (-49) (by decide) := rfl
  rcases Nat.eq_zero_or_pos n with rfl | hpos
  · trivial
  · have hlength : (Natural.write n).length ≤ 3 := (Nat.length_toDigits_le_iff (by decide) (by decide)).2 h
    have hsmall : (n = 0 || ((Natural.write n).length + (-1 : Int)) < -330) = false := by
      rw [decide_eq_false (by omega), decide_eq_false (by omega)]
      rfl
    have hdecimal : ofDecimal n (-1) = ofNat n / Float.exactlyRepresentablePowersOfTen[1] := by
      unfold ofDecimal
      dsimp only
      rw [hsmall, if_neg Bool.false_ne_true, if_neg (by omega)]
      exact dif_pos ⟨by omega, by decide⟩
    have hword : n % wordBound ≤ 2 ^ 10 := (Nat.mod_le ..).trans (by omega)
    rw [hdecimal]
    exact atMost_div (by decide) (by decide) (atMost_ofNat (k := 10) n (by decide) hword) hten (l := 3) (by decide)
      (by decide)

end Double

/-! ## Fixed places -/

theorem padStart_append (fill : Char) (width : Nat) (a b : Text) :
    Natural.padStart fill width (a ++ b) = List.replicate (width - (a ++ b).length) fill ++ a ++ b :=
  (List.append_assoc ..).symm

/-- The digits of a number with decimal places, and the point between them. -/
theorem chars_writeFixed (width places : Nat) (r : Rat) :
    ∀ c ∈ Natural.padStart '0' width (writeFixed places r), c.isDigit = true ∨ c = '.' := by
  have hdigits : ∀ n, ∀ c ∈ Natural.write n, c.isDigit = true ∨ c = '.' :=
    fun _ c hc => .inl (Natural.isDigit_write c hc)
  refine List.forall_mem_append.2 ⟨fun c hc => .inl ?_, ?_⟩
  · rw [List.eq_of_mem_replicate hc]
    rfl
  · unfold writeFixed
    dsimp only
    split
    · exact hdigits _
    · exact List.forall_mem_append.2 ⟨hdigits _, List.forall_mem_cons.2
        ⟨.inr rfl, fun c hc => .inl (Natural.isDigit_writePadded c hc)⟩⟩

/-- What a number with one decimal place is read as again, whatever zeros stand before it. -/
theorem read?_writeFixed (width : Nat) (r : Rat) :
    Double.read? (Natural.padStart '0' width (writeFixed 1 r)) =
      some (Double.ofDecimal (roundHalfEven (r * 10)).toNat (-1)) := by
  generalize hm : (roundHalfEven (r * 10)).toNat = n
  have hfixed : writeFixed 1 r = Natural.write (n / 10) ++ '.' :: Natural.writePadded 1 (n % 10) := by
    unfold writeFixed
    dsimp only
    rw [← hm]
    rfl
  have hplaces : (Natural.writePadded 1 (n % 10)).length = 1 :=
    Natural.length_writePadded (by decide) (Nat.mod_lt _ (by decide))
  have hvalue : ∀ k, Natural.ofDigits
      (List.replicate k '0' ++ Natural.write (n / 10) ++ Natural.writePadded 1 (n % 10)) = n := by
    intro k
    rw [Natural.ofDigits_append, Natural.ofDigits_zeros, Natural.ofDigits_write, Natural.ofDigits_writePadded, hplaces]
    omega
  have hne : ∀ k, List.replicate k '0' ++ Natural.write (n / 10) ≠ [] :=
    fun k h => Nat.toDigits_ne_nil (List.append_eq_nil_iff.1 h).2
  rw [hfixed, padStart_append, Double.read?_places (hne _) (Natural.isDigit_zeros _ Natural.isDigit_write)
    Natural.isDigit_writePadded, hvalue, hplaces]
  rfl

end KanaTutor
