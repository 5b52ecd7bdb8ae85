/-
Texts as octets: a text is read from the octets that it is written as, octets are read one sequence after the other, and
a newline is written for nothing but a line break.
-/
import KanaTutor.Text.Utf8
import Mathlib.Tactic.SplitIfs

namespace KanaTutor.Utf8

/-! ## One sequence after the other -/

theorem follow_append {bits n : Nat} {low high : UInt8} {s rest : Octets} {c : Char}
    (h : follow bits n low high s = (some c, rest)) (more : Octets) :
    follow bits n low high (s ++ more) = (some c, rest ++ more) := by
  induction n generalizing bits low high s with
  | zero => cases h; rfl
  | succ n ih =>
    cases s with
    | nil => cases h
    | cons b s =>
      rw [follow] at h
      rw [List.cons_append, follow]
      split at h
      · rename_i hbounds
        rw [if_pos hbounds]
        exact ih h
      · cases h

theorem next_append {b : UInt8} {s rest : Octets} {c : Char} (h : next b s = (some c, rest)) (more : Octets) :
    next b (s ++ more) = (some c, rest ++ more) := by
  unfold next at h ⊢
  split
  · rename_i hlead
    rw [hlead] at h
    cases h
  · rename_i l hlead
    rw [hlead] at h
    exact follow_append h more

theorem decode?_cons {b : UInt8} {s rest : Octets} {c : Char} (h : next b s = (some c, rest)) :
    decode? (b :: s) = (decode? rest).map (c :: ·) := by
  rw [decode?, h]
  cases decode? rest <;> rfl

/-- What follows well-formed octets is read by itself. -/
theorem decode?_append {s : Octets} {t : Text} (h : decode? s = some t) (more : Octets) :
    decode? (s ++ more) = (decode? more).map (t ++ ·) := by
  induction s using decode?.induct generalizing t with
  | case1 =>
    rw [decode?] at h
    cases h
    cases hmore : decode? more <;> simp [hmore]
  | case2 b s ih =>
    rcases hnext : next b s with ⟨_ | c, rest⟩
    · rw [decode?, hnext] at h
      cases h
    · rw [decode?_cons hnext] at h
      obtain ⟨t, ht, rfl⟩ := Option.map_eq_some_iff.1 h
      rw [hnext] at ih
      rw [List.cons_append, decode?_cons (next_append hnext more), ih ht]
      cases decode? more <;> rfl

/-! ## Octets of a character -/

theorem lead?_ofNat {n : Nat} (h : n < 256) : lead? (UInt8.ofNat n) =
    if n < 0x80 then some ⟨n, 0, 0x80, 0xBF⟩
    else if n < 0xC2 then none
    else if n < 0xE0 then some ⟨n - 0xC0, 1, 0x80, 0xBF⟩
    else if n = 0xE0 then some ⟨0, 2, 0xA0, 0xBF⟩
    else if n = 0xED then some ⟨0xD, 2, 0x80, 0x9F⟩
    else if n < 0xF0 then some ⟨n - 0xE0, 2, 0x80, 0xBF⟩
    else if n = 0xF0 then some ⟨0, 3, 0x90, 0xBF⟩
    else if n < 0xF4 then some ⟨n - 0xF0, 3, 0x80, 0xBF⟩
    else if n = 0xF4 then some ⟨4, 3, 0x80, 0x8F⟩
    else none := by
  have hn : (UInt8.ofNat n).toNat = n := UInt8.toNat_ofNat_of_lt' h
  unfold lead?
  simp only [UInt8.lt_iff_toNat_lt, ← UInt8.toNat_inj, hn]
  rfl

theorem follow_ofNat (bits k : Nat) {low high : UInt8} {n : Nat} (hn : n < 256) (hlow : low.toNat ≤ n)
    (hhigh : n ≤ high.toNat) (rest : Octets) :
    follow bits (k + 1) low high (UInt8.ofNat n :: rest) = follow (bits * 64 + (n - 0x80)) k 0x80 0xBF rest := by
  have hvalue : (UInt8.ofNat n).toNat = n := UInt8.toNat_ofNat_of_lt' hn
  rw [follow, if_pos, hvalue]
  simp only [Bool.and_eq_true, decide_eq_true_eq, UInt8.le_iff_toNat_le, hvalue]
  exact ⟨hlow, hhigh⟩

/-- An octet with six bits that ends a sequence, or goes on with it. -/
theorem follow_six (bits k m : Nat) (rest : Octets) :
    follow bits (k + 1) 0x80 0xBF (UInt8.ofNat (m % 64 + 128) :: rest) =
      follow (bits * 64 + m % 64) k 0x80 0xBF rest := by
  have hlow : (0x80 : UInt8).toNat ≤ m % 64 + 128 := Nat.le_add_left ..
  have hhigh : m % 64 + 128 ≤ (0xBF : UInt8).toNat := by
    show _ ≤ 191
    omega
  rw [follow_ofNat bits k (by omega) hlow hhigh, Nat.add_sub_cancel]

/-- What the first octet of three announces. -/
theorem lead?_three {v : Nat} (hlow : 2048 ≤ v) (hhigh : v < 65536) (hvalid : v < 0xD800 ∨ 0xDFFF < v) :
    ∃ low high, lead? (UInt8.ofNat (v / 4096 % 16 + 224)) = some ⟨v / 4096, 2, low, high⟩ ∧
      low.toNat ≤ v / 64 % 64 + 128 ∧ v / 64 % 64 + 128 ≤ high.toNat := by
  have h80 : (0x80 : UInt8).toNat = 128 := rfl
  have hA0 : (0xA0 : UInt8).toNat = 160 := rfl
  have h9F : (0x9F : UInt8).toNat = 159 := rfl
  have hBF : (0xBF : UInt8).toNat = 191 := rfl
  rw [lead?_ofNat (by omega), if_neg (by omega), if_neg (by omega), if_neg (by omega)]
  rcases Nat.lt_or_ge v 4096 with hsmall | hlarge
  · rw [if_pos (by omega), show v / 4096 = 0 by omega]
    exact ⟨_, _, rfl, by omega, by omega⟩
  · rw [if_neg (by omega)]
    split_ifs with hED hF0
    · rw [show v / 4096 = 0xD by omega]
      exact ⟨_, _, rfl, by omega, by omega⟩
    · rw [show v / 4096 % 16 + 224 - 0xE0 = v / 4096 by omega]
      exact ⟨_, _, rfl, by omega, by omega⟩
    all_goals omega

/-- What the first octet of four announces. -/
theorem lead?_four {v : Nat} (hlow : 65536 ≤ v) (hhigh : v < 0x110000) :
    ∃ low high, lead? (UInt8.ofNat (v / 262144 % 8 + 240)) = some ⟨v / 262144, 3, low, high⟩ ∧
      low.toNat ≤ v / 4096 % 64 + 128 ∧ v / 4096 % 64 + 128 ≤ high.toNat := by
  have h80 : (0x80 : UInt8).toNat = 128 := rfl
  have h90 : (0x90 : UInt8).toNat = 144 := rfl
  have h8F : (0x8F : UInt8).toNat = 143 := rfl
  have hBF : (0xBF : UInt8).toNat = 191 := rfl
  rw [lead?_ofNat (by omega), if_neg (by omega), if_neg (by omega), if_neg (by omega), if_neg (by omega),
    if_neg (by omega), if_neg (by omega)]
  split_ifs with hF0 hF4 hlast
  · rw [show v / 262144 = 0 by omega]
    exact ⟨_, _, rfl, by omega, by omega⟩
  · rw [show v / 262144 % 8 + 240 - 0xF0 = v / 262144 by omega]
    exact ⟨_, _, rfl, by omega, by omega⟩
  · rw [show v / 262144 = 4 by omega]
    exact ⟨_, _, rfl, by omega, by omega⟩
  · omega

/-- The octets of a character are read as that character. -/
theorem next_encodeChar (c : Char) (rest : Octets) :
    ∃ b s, String.utf8EncodeChar c ++ rest = b :: s ∧ next b s = (some c, rest) := by
  have hvalid : c.val.toNat < 0xD800 ∨ 0xDFFF < c.val.toNat ∧ c.val.toNat < 0x110000 := c.valid
  have hread : ∀ n, n = c.val.toNat → follow n 0 0x80 0xBF rest = (some c, rest) := by
    rintro _ rfl
    exact congrArg (some · , rest) (Char.ofNat_toNat c)
  unfold String.utf8EncodeChar
  dsimp only
  generalize c.val.toNat = v at hvalid hread
  split_ifs with hone htwo hthree
  · refine ⟨_, _, rfl, ?_⟩
    rw [next, lead?_ofNat (by omega), if_pos (by omega)]
    exact hread v rfl
  · refine ⟨_, _, rfl, ?_⟩
    rw [next, lead?_ofNat (by omega), if_neg (by omega), if_neg (by omega), if_pos (by omega)]
    exact (follow_six (v / 64 % 32 + 192 - 192) 0 v rest).trans (hread _ (by omega))
  · obtain ⟨low, high, hlead, hlow, hhigh⟩ := lead?_three (v := v) (by omega) (by omega) (by omega)
    refine ⟨_, _, rfl, ?_⟩
    rw [next, hlead]
    refine (follow_ofNat (v / 4096) 1 (by omega) hlow hhigh _).trans ?_
    exact (follow_six _ 0 v rest).trans (hread _ (by omega))
  · obtain ⟨low, high, hlead, hlow, hhigh⟩ := lead?_four (v := v) (by omega) (by omega)
    refine ⟨_, _, rfl, ?_⟩
    rw [next, hlead]
    refine (follow_ofNat (v / 262144) 2 (by omega) hlow hhigh _).trans ?_
    refine (follow_six _ 1 (v / 64) _).trans ?_
    exact (follow_six _ 0 v rest).trans (hread _ (by omega))

/-! ## Texts -/

theorem decode?_encode (t : Text) : decode? (encode t) = some t := by
  induction t with
  | nil => rw [encode, List.flatMap_nil, decode?]
  | cons c t ih =>
    obtain ⟨b, s, hencode, hnext⟩ := next_encodeChar c (encode t)
    rw [encode, List.flatMap_cons]
    show decode? (String.utf8EncodeChar c ++ encode t) = _
    rw [hencode, decode?_cons hnext, ih]
    rfl

theorem encode_append (t u : Text) : encode (t ++ u) = encode t ++ encode u := List.flatMap_append

/-- An octet of a character is the character itself, or no ASCII character at all. -/
theorem octet_encodeChar (c : Char) : ∀ o ∈ String.utf8EncodeChar c, o.toNat = c.toNat ∨ 128 ≤ o.toNat := by
  have hvalid : c.val.toNat < 0xD800 ∨ 0xDFFF < c.val.toNat ∧ c.val.toNat < 0x110000 := c.valid
  show ∀ o ∈ String.utf8EncodeChar c, o.toNat = c.val.toNat ∨ 128 ≤ o.toNat
  unfold String.utf8EncodeChar
  dsimp only
  split_ifs <;>
    simp only [List.forall_mem_cons, UInt8.toNat_ofNat', List.not_mem_nil, false_implies, implies_true, and_true] <;>
    omega

/-- A newline is written for a line break only. -/
theorem newline_not_mem_encode {t : Text} (h : '\n' ∉ t) : 10 ∉ encode t := by
  intro hmem
  obtain ⟨c, hc, hoctet⟩ := List.mem_flatMap.1 hmem
  rcases octet_encodeChar c 10 hoctet with heq | hlarge
  · have hchar : c = '\n' := Char.ext (UInt32.toNat_inj.1 heq.symm)
    exact h (hchar ▸ hc)
  · exact absurd hlarge (by decide)

end KanaTutor.Utf8
