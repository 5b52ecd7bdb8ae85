/-
Bounds of binary64 numbers by powers of two. A power of two is a number of the format itself, so rounding never leads
past it: what is at most a power of two before it is rounded is so after it. This is enough to see that the minutes of
any duration fit a word, and that a few digits of seconds are a duration.

The numbers are those of Lean's own model of `Float`. It packs every result into 64 bits, and unpacks them again for
the next operation.
-/
import KanaTutor.Number.Double
import KanaTutor.Time.Duration
import Mathlib

namespace KanaTutor.Double

open Float.Model Float.Model.UnpackedFloat

/-! ## Dropping digits -/

/-- What rounding an extended mantissa comes to at most. -/
def ceiling (em : ExtendedMantissa) : Nat := em.mantissa + (em.roundBit || em.stickyBit).toNat

theorem roundedMantissa_le (em : ExtendedMantissa) : em.roundedMantissa ≤ ceiling em := by
  obtain ⟨m, round, sticky⟩ := em
  cases round <;> cases sticky <;>
    simp [ExtendedMantissa.roundedMantissa, ExtendedMantissa.accuracy, Accuracy.roundToNearestEven, ceiling]
  omega

theorem ceiling_shiftRightOne {em : ExtendedMantissa} {j : Nat} (h : ceiling em ≤ 2 ^ (j + 1)) :
    ceiling em.shiftRightOne ≤ 2 ^ j := by
  obtain ⟨m, round, sticky⟩ := em
  rw [Nat.pow_succ] at h
  rcases Nat.mod_two_eq_zero_or_one m with hm | hm <;> cases round <;> cases sticky <;>
    simp [ceiling, ExtendedMantissa.shiftRightOne, hm] at h ⊢ <;> omega

theorem ceiling_shift {em : ExtendedMantissa} {j n : Nat} (h : ceiling em ≤ 2 ^ (j + n)) :
    ceiling (em >>> n) ≤ 2 ^ j := by
  induction n generalizing j with
  | zero => exact h
  | succ n ih => exact ceiling_shiftRightOne (ih (by rwa [Nat.add_assoc, Nat.add_comm 1]))

/-- What is at most `2 ^ k` stays so when digits are dropped, up to that power itself. -/
theorem ceiling_shiftToExponent {m : Nat} {e k t : Int} {accuracy : Accuracy} (he : e ≤ k) (ht : t ≤ k)
    (h : ceiling (.ofMantissaAndAccuracy m accuracy) ≤ 2 ^ (k - e).toNat) :
    let shifted := shiftToExponent m e accuracy t
    ceiling shifted.1 ≤ 2 ^ (k - shifted.2).toNat ∧ t ≤ shifted.2 ∧ e ≤ shifted.2 ∧ shifted.2 ≤ k := by
  have hle : e + ((t - e).toNat : Int) ≤ k := by omega
  refine ⟨?_, ?_, ?_, hle⟩
  · refine ceiling_shift (n := (t - e).toNat) ?_
    show _ ≤ 2 ^ ((k - (e + ((t - e).toNat : Int))).toNat + (t - e).toNat)
    have : (k - (e + ((t - e).toNat : Int))).toNat + (t - e).toNat = (k - e).toNat := by omega
    rw [this]
    exact h
  · show t ≤ e + ((t - e).toNat : Int)
    omega
  · show e ≤ e + ((t - e).toNat : Int)
    omega

theorem log2_le {m n : Nat} (h : m ≤ 2 ^ n) : m.log2 ≤ n := by
  rcases Nat.eq_zero_or_pos m with rfl | hm
  · simp
  · have := Nat.two_pow_pos n
    rw [← Nat.lt_succ_iff, Nat.log2_lt hm.ne', Nat.pow_succ]
    omega

theorem targetExponent_eq (t : Int) : Format.binary64.targetExponent t = max (t - 53) (-1074) := rfl

/-- The exponent a number is rounded to. -/
theorem targetExponent_le {m : Nat} {e k : Int} (he : e ≤ k) (hk : -1074 ≤ k) (h : m ≤ 2 ^ (k - e).toNat) :
    Format.binary64.targetExponent (totalExponent m e) ≤ k := by
  have := log2_le h
  rw [targetExponent_eq, totalExponent]
  omega

/-! ## Rounded numbers -/

/-- An unpacked number that is neither negative nor more than `2 ^ k`. -/
def Within (k : Int) : UnpackedFloat → Prop
  | .zero .positive => True
  | .finite .positive m e _ => -1074 ≤ e ∧ e ≤ k ∧ m ≤ 2 ^ (k - e).toNat
  | _ => False

theorem Within.mono {k l : Int} {f : UnpackedFloat} (h : Within k f) (hkl : k ≤ l) : Within l f := by
  match f with
  | .zero .positive => trivial
  | .finite .positive m e _ =>
    obtain ⟨hmin, he, hm⟩ := h
    exact ⟨hmin, by omega, hm.trans (Nat.pow_le_pow_right (by decide) (by omega))⟩

/-- Rounding does not lead past a power of two. -/
theorem within_roundWithAccuracy {m : Nat} {e k : Int} {accuracy : Accuracy} (he : e ≤ k) (hk : -1074 ≤ k)
    (h : ceiling (.ofMantissaAndAccuracy m accuracy) ≤ 2 ^ (k - e).toNat) :
    Within k (roundWithAccuracy .binary64 .positive m e accuracy) := by
  have hm : m ≤ 2 ^ (k - e).toNat := by
    refine le_trans ?_ h
    cases accuracy with
    | exact => exact Nat.le_refl m
    | inexact o => cases o <;> exact Nat.le_add_right m _
  have hfirst := ceiling_shiftToExponent he (targetExponent_le he hk hm) h
  unfold roundWithAccuracy shiftToTargetExponent
  generalize shiftToExponent m e accuracy _ = first at hfirst ⊢
  obtain ⟨em, e₁⟩ := first
  obtain ⟨hem, -, -, he₁⟩ := hfirst
  have hr : em.roundedMantissa ≤ 2 ^ (k - e₁).toNat := (roundedMantissa_le em).trans hem
  have hexact : ceiling (.ofMantissaAndAccuracy em.roundedMantissa .exact) ≤ 2 ^ (k - e₁).toNat := hr
  have hsecond := ceiling_shiftToExponent he₁ (targetExponent_le he₁ hk hr) hexact
  dsimp only at hsecond ⊢
  generalize shiftToExponent em.roundedMantissa e₁ .exact _ = second at hsecond ⊢
  obtain ⟨em', e₂⟩ := second
  obtain ⟨hem', ht, -, he₂⟩ := hsecond
  dsimp only
  split
  · trivial
  · refine ⟨?_, he₂, (Nat.le_add_right _ _).trans hem'⟩
    rw [targetExponent_eq] at ht
    exact le_trans (le_max_right _ _) ht

theorem toNat_sub_add {k e : Int} (n : Nat) (he : e ≤ k) : (k - (e - n)).toNat = (k - e).toNat + n := by omega

theorem shiftLeft_le {m n : Nat} {k e : Int} (he : e ≤ k) (h : m ≤ 2 ^ (k - e).toNat) :
    m <<< n ≤ 2 ^ (k - (e - n)).toNat := by
  rw [toNat_sub_add n he, Nat.pow_add, Nat.shiftLeft_eq]
  exact Nat.mul_le_mul_right _ h

theorem within_round {m : Nat} {e k : Int} (he : e ≤ k) (hk : -1074 ≤ k) (h : m ≤ 2 ^ (k - e).toNat) :
    Within k (UnpackedFloat.round .binary64 .positive m e) := by
  unfold UnpackedFloat.round decreaseExponent
  dsimp only
  exact within_roundWithAccuracy (by omega) hk (shiftLeft_le he h)

theorem within_normalize {m : Nat} {e k : Int} (he : e ≤ k) (hk : -1074 ≤ k) (h : m ≤ 2 ^ (k - e).toNat) :
    Within k (UnpackedFloat.normalize .binary64 m e .positive) := by
  unfold UnpackedFloat.normalize
  split
  · rename_i hlt
    rw [Int.compare_eq_lt] at hlt
    omega
  · trivial
  · exact within_round he hk h

/-! ## Operations -/

theorem within_add {f g : UnpackedFloat} {k : Int} (hk : -1074 ≤ k) (hf : Within k f) (hg : Within k g) :
    Within (k + 1) (add .binary64 f g) := by
  match f, g with
  | .zero .positive, .zero .positive => trivial
  | .zero .positive, .finite .positive m e hm => exact Within.mono hg (by omega)
  | .finite .positive m e hm, .zero .positive => exact Within.mono hf (by omega)
  | .finite .positive m₁ e₁ _, .finite .positive m₂ e₂ _ =>
    obtain ⟨-, he₁, hm₁⟩ := hf
    obtain ⟨-, he₂, hm₂⟩ := hg
    have h₁ := shiftLeft_le (n := (e₁ - min e₁ e₂).toNat) he₁ hm₁
    have h₂ := shiftLeft_le (n := (e₂ - min e₁ e₂).toNat) he₂ hm₂
    rw [show e₁ - ((e₁ - min e₁ e₂).toNat : Int) = min e₁ e₂ by omega] at h₁
    rw [show e₂ - ((e₂ - min e₁ e₂).toNat : Int) = min e₁ e₂ by omega] at h₂
    have hsum : m₁ <<< (e₁ - min e₁ e₂).toNat + m₂ <<< (e₂ - min e₁ e₂).toNat ≤
        2 ^ (k + 1 - min e₁ e₂).toNat := by
      rw [show (k + 1 - min e₁ e₂).toNat = (k - min e₁ e₂).toNat + 1 by omega, Nat.pow_succ]
      omega
    have := within_normalize (by omega) (by omega) hsum
    rwa [Int.natCast_add] at this

theorem ceiling_accuracyOfFraction (q r d : Nat) :
    ceiling (.ofMantissaAndAccuracy q (accuracyOfFraction r d)) = q + if r = 0 then 0 else 1 := by
  unfold accuracyOfFraction
  split
  · rfl
  · cases compare (2 * r) d <;> rfl

theorem div_ceiling_le {a b c : Nat} (hb : 0 < b) (h : a ≤ c * b) : a / b + (if a % b = 0 then 0 else 1) ≤ c := by
  have hdiv := Nat.div_add_mod a b
  have hmod := Nat.mod_lt a hb
  split
  · exact Nat.div_le_of_le_mul (by rwa [Nat.mul_comm])
  · by_contra hlt
    have hle : c ≤ a / b := by omega
    have := Nat.mul_le_mul_left b hle
    rw [Nat.mul_comm b c] at this
    omega

/-- A quotient by a number that is at least `2 ^ l`. -/
theorem within_div {f : UnpackedFloat} {m : Nat} {e k l : Int} (hk : -1074 ≤ k - l) (hf : Within k f) (hm : 0 < m)
    (hl : e ≤ l) (h : 2 ^ (l - e).toNat ≤ m) : Within (k - l) (div .binary64 f (.finite .positive m e hm)) := by
  match f with
  | .zero .positive => trivial
  | .finite .positive m₁ e₁ hm₁ =>
    obtain ⟨-, he₁, hmk⟩ := hf
    have hlog := log2_le hmk
    have hlog' : (l - e).toNat ≤ m.log2 := (Nat.le_log2 (by omega)).2 h
    have htarget : Format.binary64.targetExponent (totalExponent m₁ e₁ - totalExponent m e) ≤ k - l := by
      rw [targetExponent_eq, totalExponent, totalExponent]
      omega
    show Within (k - l) (roundWithAccuracy .binary64 .positive _ _ _)
    generalize Format.binary64.targetExponent (totalExponent m₁ e₁ - totalExponent m e) = target at htarget ⊢
    refine within_roundWithAccuracy (by omega) hk ?_
    rw [ceiling_accuracyOfFraction]
    refine div_ceiling_le hm ?_
    -- both sides at the exponent of the quotient
    have hshift := shiftLeft_le (n := (e₁ - e - min (e₁ - e) target).toNat) he₁ hmk
    refine hshift.trans ?_
    rw [show (k - (e₁ - ((e₁ - e - min (e₁ - e) target).toNat : Int))).toNat =
      (k - l - min (e₁ - e) target).toNat + (l - e).toNat by omega, Nat.pow_add]
    exact Nat.mul_le_mul_left _ h

/-! ## Packed numbers -/

theorem toNat_implicit_append (m : BitVec 52) : (1#1 ++ m).toNat = leadingBit + m.toNat := by
  rw [BitVec.toNat_append, ← Nat.shiftLeft_add_eq_or_of_lt m.isLt]
  rfl

/-- A number with its leading bit, by its parts. -/
theorem unpack_normal (sign : Sign) {e : BitVec 11} (m : BitVec 52) (hones : e.toNat ≠ 2047) (hzero : e.toNat ≠ 0) :
    UnpackedFloat.unpack .binary64 (packComponents .binary64 sign e m) =
      .finite sign (leadingBit + m.toNat) (e.toNat - 1075) (by unfold leadingBit; omega) := by
  have hones' : e ≠ -1#11 := fun h => hones (by rw [h]; decide)
  have hzero' : e ≠ 0#11 := fun h => hzero (by rw [h]; decide)
  unfold UnpackedFloat.unpack
  simp only [unpackExponent_packComponents, unpackMantissa_packComponents, unpackSign_packComponents,
    Sign.ofBitVec_toBitVec, if_neg hones', if_neg hzero', toNat_implicit_append]
  congr 1

/-- A number without its leading bit, by its parts. -/
theorem unpack_subnormal (sign : Sign) (m : BitVec 52) :
    UnpackedFloat.unpack .binary64 (packComponents .binary64 sign 0#11 m) =
      if h : m = 0#52 then .zero sign
      else .finite sign m.toNat (-1074) (by simpa [BitVec.toNat_pos, BitVec.pos_iff_ne_zero]) := by
  have hones : (0#11 : BitVec 11) ≠ -1#11 := by decide
  unfold UnpackedFloat.unpack
  simp only [unpackExponent_packComponents, unpackMantissa_packComponents, unpackSign_packComponents,
    Sign.ofBitVec_toBitVec, if_neg hones, if_true]
  rfl

/-- A number that is not too large is still at most what it was when it is packed and unpacked. -/
theorem within_unpack_pack {f : UnpackedFloat} {k : Int} (hk : k ≤ 900) (h : Within k f) :
    Within k (UnpackedFloat.unpack .binary64 (UnpackedFloat.pack .binary64 f)) := by
  match f with
  | .zero .positive =>
    show Within k (UnpackedFloat.unpack .binary64 (packComponents .binary64 .positive 0 0))
    rw [show (0 : BitVec 11) = 0#11 from rfl, unpack_subnormal]
    split
    · trivial
    · contradiction
  | .finite .positive m e hpos =>
    obtain ⟨hmin, he, hm⟩ := h
    unfold UnpackedFloat.pack
    simp only [show (Format.binary64.exponentBias : Int) = 1023 from rfl,
      show Format.binary64.mantissaBits = 53 from rfl]
    rw [if_neg (show ¬2 ^ 11 ≤ (e + 1023 + (52 : Nat)).toNat + 1 by omega)]
    split
    · -- the mantissa has its leading bit, and nothing is lost
      rename_i hlog
      have hlog : m.log2 = 52 := by omega
      have hlow : leadingBit ≤ m := by
        have := Nat.log2_self_le (show m ≠ 0 by omega)
        rwa [hlog] at this
      have hhigh : m < 2 * leadingBit := by
        have := Nat.lt_log2_self (n := m)
        rwa [hlog] at this
      have hexponent : (BitVec.ofNat 11 (e + 1023 + (52 : Nat)).toNat).toNat = (e + 1075).toNat := by
        rw [BitVec.toNat_ofNat]
        omega
      have hmantissa : leadingBit + (BitVec.ofNat 52 m).toNat = m := by
        rw [BitVec.toNat_ofNat]
        unfold leadingBit at *
        omega
      rw [unpack_normal _ _ (by rw [hexponent]; omega) (by rw [hexponent]; omega)]
      show _ ∧ _ ∧ _
      rw [hexponent, hmantissa, show ((e + 1075).toNat : Int) - 1075 = e by omega]
      exact ⟨hmin, he, hm⟩
    · -- the mantissa is kept as far as there is room for it
      rw [unpack_subnormal]
      split
      · trivial
      · refine ⟨Int.le_refl _, by omega, ?_⟩
        rw [BitVec.toNat_ofNat]
        calc m % 2 ^ 52 ≤ m := Nat.mod_le _ _
          _ ≤ 2 ^ (k - e).toNat := hm
          _ ≤ 2 ^ (k - -1074).toNat := Nat.pow_le_pow_right (by decide) (by omega)

/-! ## Bounds of numbers -/

/-- A number that is neither negative nor more than `2 ^ k`. -/
def AtMost (k : Int) (x : Float) : Prop := Within k x.toModel.unpack

theorem atMost_ofNat (n : Nat) {k : Nat} (hk : k ≤ 64) (h : n % wordBound ≤ 2 ^ k) : AtMost k (ofNat n) := by
  have hword : n.toUInt64.toNat ≤ 2 ^ ((k : Int) - 0).toNat := by
    rw [Int.sub_zero, Int.toNat_natCast, Nat.toUInt64_eq, UInt64.toNat_ofNat']
    exact h
  exact within_unpack_pack (by omega) (within_normalize (by omega) (by omega) hword)

theorem atMost_add {x y : Float} {k : Int} (hk : -1074 ≤ k) (hk' : k < 900) (hx : AtMost k x) (hy : AtMost k y) :
    AtMost (k + 1) (x + y) :=
  within_unpack_pack (by omega) (within_add hk hx hy)

theorem atMost_div {x y : Float} {m : Nat} {e k l : Int} {hm : 0 < m} (hk : -1074 ≤ k - l) (hk' : k - l ≤ 900)
    (hx : AtMost k x) (hy : y.toModel.unpack = .finite .positive m e hm) (hl : e ≤ l) (h : 2 ^ (l - e).toNat ≤ m) :
    AtMost (k - l) (x / y) := by
  refine within_unpack_pack hk' ?_
  rw [hy]
  exact within_div hk hx hm hl h

/-! ## Whole parts -/

theorem mantissa_lt {x : Float} {sign : Sign} {m : Nat} {e : Int} {hm : 0 < m}
    (h : x.toModel.unpack = .finite sign m e hm) : m < 2 * leadingBit := by
  unfold Float.Model.unpack UnpackedFloat.unpack at h
  dsimp only at h
  split at h
  · split at h <;> cases h
  · split at h
    · split at h
      · cases h
      · obtain ⟨-, rfl, -⟩ := UnpackedFloat.finite.inj h
        exact Nat.lt_of_lt_of_le (BitVec.isLt _) (by decide)
    · obtain ⟨-, rfl, -⟩ := UnpackedFloat.finite.inj h
      exact Nat.lt_of_lt_of_le (BitVec.isLt _) (by decide)

theorem shift_mantissa (em : ExtendedMantissa) (n : Nat) : (em >>> n).mantissa = em.mantissa / 2 ^ n := by
  induction n with
  | zero => exact (Nat.div_one _).symm
  | succ n ih =>
    show (em >>> n).mantissa / 2 = _
    rw [ih, Nat.div_div_eq_div_mul, Nat.pow_succ]

theorem roundToInt_eq (m : Nat) (e : Int) : roundToInt .positive m e = (m * 2 ^ e.toNat / 2 ^ (-e).toNat : Nat) := by
  unfold roundToInt decreaseExponent shiftToExponent
  dsimp only
  rw [Int.sub_zero, shift_mantissa, Nat.shiftLeft_eq, show (0 - (e - (e.toNat : Int))).toNat = (-e).toNat by omega]
  rfl

theorem toInt_le {f : UnpackedFloat} {k : Nat} {low high : Int} (h : Within k f) :
    (f.toInt low high).toNat ≤ 2 ^ k := by
  match f with
  | .zero .positive => exact Nat.zero_le _
  | .finite .positive m e _ =>
    obtain ⟨-, he, hm⟩ := h
    show (roundToInt .positive m e).toNat ≤ 2 ^ k
    rw [roundToInt_eq, Int.toNat_natCast]
    refine Nat.div_le_of_le_mul ?_
    calc m * 2 ^ e.toNat ≤ 2 ^ (k - e).toNat * 2 ^ e.toNat := Nat.mul_le_mul_right _ hm
      _ = 2 ^ (-e).toNat * 2 ^ k := by rw [← Nat.pow_add, ← Nat.pow_add]; congr 1; omega

/-- The whole part of a number that is at most `2 ^ k`. From `2 ^ 58` on it is a multiple of 64, because there are only
53 bits. -/
theorem toUInt64_le {x : Float} {k : Nat} (hk : k < 64) (h : AtMost k x) :
    x.toUInt64.toNat ≤ 2 ^ k ∧ (x.toUInt64.toNat < 2 ^ 58 ∨ 64 ∣ x.toUInt64.toNat) := by
  have hle : (x.toModel.unpack.toInt 0 (UInt64.size - 1)).toNat ≤ 2 ^ k := toInt_le h
  have hlt : (x.toModel.unpack.toInt 0 (UInt64.size - 1)).toNat < UInt64.size :=
    Nat.lt_of_le_of_lt hle (Nat.pow_lt_pow_right (by decide) hk)
  have htoNat : x.toUInt64.toNat = (x.toModel.unpack.toInt 0 (UInt64.size - 1)).toNat := by
    show (UInt64.ofNatClamp _).toNat = _
    rw [UInt64.ofNatClamp_eq_ofNat _ hlt]
    exact UInt64.toNat_ofNat_of_lt' hlt
  rw [htoNat]
  refine ⟨hle, ?_⟩
  unfold AtMost at h
  cases hx : x.toModel.unpack with
  | notANumber | infinity => rw [hx] at h; cases h
  | zero => exact .inl (Nat.two_pow_pos 58)
  | finite sign m e hm =>
    rw [hx] at h
    cases sign with
    | negative => cases h
    | positive =>
      have hmantissa := mantissa_lt hx
      show (roundToInt .positive m e).toNat < _ ∨ 64 ∣ (roundToInt .positive m e).toNat
      rw [roundToInt_eq, Int.toNat_natCast]
      by_cases he : e < 6
      · left
        calc m * 2 ^ e.toNat / 2 ^ (-e).toNat ≤ m * 2 ^ e.toNat := Nat.div_le_self ..
          _ ≤ m * 2 ^ 5 := Nat.mul_le_mul_left _ (Nat.pow_le_pow_right (by decide) (by omega))
          _ < 2 * leadingBit * 2 ^ 5 := Nat.mul_lt_mul_of_pos_right hmantissa (by decide)
      · right
        rw [show (-e).toNat = 0 by omega, Nat.pow_zero, Nat.div_one]
        exact Dvd.dvd.mul_left (Nat.pow_dvd_pow 2 (show 6 ≤ e.toNat by omega)) m

/-! ## Magnitudes -/

theorem toNat_unpackExponent (x : Float) :
    (@unpackExponent .binary64 x.toModel.toBits.toBitVec).toNat = biasedExponent x := by
  unfold unpackExponent biasedExponent
  rw [BitVec.toNat_cast, BitVec.extractLsb_toNat, Nat.shiftRight_eq_div_pow]
  rfl

theorem toNat_unpackMantissa (x : Float) :
    (@unpackMantissa .binary64 x.toModel.toBits.toBitVec).toNat = x.toBits.toNat % leadingBit := by
  unfold unpackMantissa
  rw [BitVec.toNat_cast, BitVec.extractLsb_toNat, Nat.shiftRight_zero]
  rfl

theorem power_eq (base : Nat) (e : Int) : power base e = (base : Rat) ^ e := by
  cases e with
  | ofNat n => exact (Nat.cast_pow base n).trans (zpow_natCast _ n).symm
  | negSucc n =>
    rw [zpow_negSucc, power, one_div]
    exact congrArg _ (Nat.cast_pow base (n + 1))

/-- The parts of a number are those that it is unpacked to. -/
theorem parts_of_unpack {x : Float} {sign : Sign} {m : Nat} {e : Int} {hm : 0 < m}
    (h : x.toModel.unpack = .finite sign m e hm) : significand x = m ∧ exponent x = e := by
  have hexponent := toNat_unpackExponent x
  have hmantissa := toNat_unpackMantissa x
  unfold Float.Model.unpack UnpackedFloat.unpack at h
  unfold significand exponent
  dsimp only at h
  split at h
  · split at h <;> cases h
  · split at h
    · rename_i hzero
      rw [hzero] at hexponent
      split at h
      · cases h
      · obtain ⟨-, rfl, rfl⟩ := UnpackedFloat.finite.inj h
        rw [← hmantissa, ← hexponent, hzero]
        exact ⟨rfl, rfl⟩
    · rename_i hzero
      have hne : biasedExponent x ≠ 0 := by
        rw [← hexponent]
        exact fun h => hzero (BitVec.eq_of_toNat_eq h)
      obtain ⟨-, rfl, rfl⟩ := UnpackedFloat.finite.inj h
      rw [if_neg hne, toNat_implicit_append, hmantissa, hexponent]
      refine ⟨Nat.add_comm .., ?_⟩
      show _ = (biasedExponent x : Int) - ((1023 : Int) + 52)
      omega

theorem significand_of_zero {x : Float} {sign : Sign} (h : x.toModel.unpack = .zero sign) : significand x = 0 := by
  have hexponent := toNat_unpackExponent x
  have hmantissa := toNat_unpackMantissa x
  unfold Float.Model.unpack UnpackedFloat.unpack at h
  unfold significand
  dsimp only at h
  split at h
  · split at h <;> cases h
  · split at h
    · rename_i hzero
      split at h
      · rename_i hmzero
        rw [← hmantissa, ← hexponent, hzero, hmzero]
        rfl
      · cases h
    · cases h

theorem magnitude_le {x : Float} {k : Nat} (h : AtMost k x) : magnitude x ≤ 2 ^ k := by
  unfold AtMost at h
  unfold magnitude
  cases hx : x.toModel.unpack with
  | notANumber | infinity => rw [hx] at h; cases h
  | zero =>
    rw [significand_of_zero hx, Nat.cast_zero, zero_mul]
    positivity
  | finite sign m e hm =>
    rw [hx] at h
    cases sign with
    | negative => cases h
    | positive =>
      obtain ⟨-, he, hm⟩ := h
      obtain ⟨hsignificand, hexponent⟩ := parts_of_unpack hx
      rw [hsignificand, hexponent, power_eq]
      have hcast : (m : Rat) ≤ 2 ^ (k - e).toNat := by exact_mod_cast hm
      have hpos : (0 : Rat) ≤ 2 ^ e := zpow_nonneg (by norm_num) e
      calc (m : Rat) * 2 ^ e ≤ 2 ^ (k - e).toNat * 2 ^ e := mul_le_mul_of_nonneg_right hcast hpos
        _ = 2 ^ k := by
          rw [← zpow_natCast, ← zpow_natCast, ← zpow_add₀ two_ne_zero]
          congr 1
          omega

/-! ## Comparisons -/

theorem finite_of_atMost {x : Float} {k : Int} (h : AtMost k x) :
    x.isFinite = true ∧ (0.0 : Float) ≤ x ∧ (x == 1.0 / 0.0) = false := by
  have hzero : (0.0 : Float).toModel.unpack = .zero .positive := rfl
  have hinfinity : (1.0 / 0.0 : Float).toModel.unpack = .infinity .positive := rfl
  unfold AtMost at h
  show x.toModel.unpack.isFinite = true ∧ (decide ((0.0 : Float).toModel.unpack.le x.toModel.unpack = true)) = true ∧
    x.toModel.unpack.beq (1.0 / 0.0 : Float).toModel.unpack = false
  rw [hzero, hinfinity]
  generalize x.toModel.unpack = f at h
  match f with
  | .zero .positive => exact ⟨rfl, rfl, rfl⟩
  | .finite .positive m e _ => exact ⟨rfl, rfl, rfl⟩

end KanaTutor.Double

namespace KanaTutor

open Double

theorem roundHalfEven_le {r : Rat} {n : Int} (h : r ≤ n) : roundHalfEven r ≤ n := by
  have hfloor : r.floor ≤ n := by
    have := (Rat.floor_le r).trans h
    exact_mod_cast this
  -- a floor that is not passed is the number itself
  have hup : r - r.floor ≠ 0 → r.floor + 1 ≤ n := by
    intro hne
    by_contra hlt
    have : (n : Rat) ≤ r.floor := by exact_mod_cast (by omega : n ≤ r.floor)
    exact hne (sub_eq_zero.2 (le_antisymm (h.trans this) (Rat.floor_le r)))
  unfold roundHalfEven
  dsimp only
  split
  · exact hfloor
  · rename_i hhalf
    have := hup (fun hzero => hhalf (by rw [hzero]; norm_num))
    split
    · exact this
    · split
      · exact hfloor
      · exact this

namespace Duration

theorem ofSeconds_ok {x : Float} {k : Nat} (hk : k < 64) (h : AtMost k x) :
    ∃ d, ofSeconds x = .ok d ∧ d.nanos ≤ 2 ^ k * perSecond := by
  obtain ⟨-, -, hfinite⟩ := finite_of_atMost h
  have hround : roundHalfEven (magnitude x * (perSecond : Rat)) ≤ ((2 ^ k * perSecond : Nat) : Int) := by
    refine roundHalfEven_le ?_
    have := mul_le_mul_of_nonneg_right (magnitude_le h) (Nat.cast_nonneg perSecond : (0 : Rat) ≤ perSecond)
    exact_mod_cast this
  have hnanos : (roundHalfEven (magnitude x * (perSecond : Rat))).toNat ≤ 2 ^ k * perSecond := by omega
  refine ⟨_, ?_, hnanos⟩
  rw [ofSeconds, hfinite, if_neg Bool.false_ne_true]
  refine if_pos (Nat.lt_of_le_of_lt hnanos (Nat.mul_lt_mul_of_pos_right ?_ (by decide)))
  exact Nat.pow_lt_pow_right (by decide) hk

/-- No duration has more than `2 ^ 65` seconds, whatever it is rounded to. -/
theorem atMost_seconds (d : Duration) : AtMost 65 d.seconds := by
  have hbillion : (1e9 : Float).toModel.unpack = .finite .positive 8388608000000000 (-23) (by decide) := rfl
  have hwhole : AtMost 64 (ofNat d.wholeSeconds) :=
    atMost_ofNat (k := 64) _ (Nat.le_refl 64) (Nat.mod_lt _ (by decide)).le
  have hpart : AtMost 30 (ofNat d.subsecond) := by
    have hlt : d.subsecond < perSecond := Nat.mod_lt _ (by decide)
    exact atMost_ofNat (k := 30) _ (by decide) ((Nat.mod_le _ _).trans (hlt.le.trans (by decide)))
  have hfraction : AtMost (30 - 29) (ofNat d.subsecond / 1e9) :=
    atMost_div (by decide) (by decide) hpart hbillion (by decide) (by decide)
  exact atMost_add (by decide) (by decide) hwhole (hfraction.mono (by decide))

/-- The whole minutes of a duration. Counted in seconds by a 64-bit word, they leave room for another minute: from
`2 ^ 58` minutes on there are only multiples of 64. -/
theorem minutes_le (d : Duration) :
    (d.seconds / 60.0).toUInt64.toNat < wordBound ∧
      (d.seconds / 60.0).toUInt64.toNat * 60 % wordBound + 256 ≤ wordBound := by
  have hsixty : (60.0 : Float).toModel.unpack = .finite .positive 8444249301319680 (-47) (by decide) := rfl
  have hminutes : AtMost (60 : Nat) (d.seconds / 60.0) :=
    atMost_div (l := 5) (by decide) (by decide) d.atMost_seconds hsixty (by decide) (by decide)
  obtain ⟨hle, hparts⟩ := toUInt64_le (by decide) hminutes
  generalize (d.seconds / 60.0).toUInt64.toNat = w at hle hparts
  unfold wordBound
  refine ⟨by omega, ?_⟩
  rcases hparts with hsmall | ⟨n, rfl⟩
  · rw [Nat.mod_eq_of_lt (by omega)]
    omega
  · have hmultiple : 64 * n * 60 % 18446744073709551616 = 256 * (15 * n % 72057594037927936) := by
      rw [← Nat.mul_mod_mul_left, show 64 * n * 60 = 256 * (15 * n) by omega]
    omega

end Duration

end KanaTutor
