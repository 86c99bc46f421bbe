import DiskLens.Text.Utf8

/-!
# Texts through bytes

Every text is read back from its bytes. Where the first byte of a character narrows the range of the
second one, the bounds are those of the characters that take this many bytes.

* `lead_two`, `lead_three`, `lead_four`: what the first byte of a longer character says.
* **`decodeParts_encode`**: the bytes of a text are well formed and have its characters.
* `decode?_encode`, `decodeLossy_encode`: both ways to decode them.
-/

namespace DiskLens

namespace Utf8

/-! ## First bytes -/

theorem lead_two {n : Nat} (h : 0x80 ≤ n) (h' : n < 0x800) :
    lead (0xC0 + n / 64) = .pending ⟨n / 64, 1, 0x80, 0xBF⟩ := by
  unfold lead
  rw [if_neg (by omega), if_neg (by omega), if_pos (by omega), Nat.add_sub_cancel_left]

/-- Neither an overlong form nor a half of a surrogate pair. -/
theorem lead_three {n : Nat} (h : 0x800 ≤ n) (h' : n < 0x10000) (hn : n < 0xD800 ∨ 0xDFFF < n) :
    ∃ low high, lead (0xE0 + n / 4096) = .pending ⟨n / 4096, 2, low, high⟩ ∧
      low ≤ 0x80 + n / 64 % 64 ∧ 0x80 + n / 64 % 64 ≤ high := by
  unfold lead
  rw [if_neg (by omega), if_neg (by omega), if_neg (by omega)]
  by_cases hzero : n / 4096 = 0
  · exact ⟨0xA0, 0xBF, by rw [hzero]; rfl, by omega, by omega⟩
  · rw [if_neg (by omega)]
    by_cases hhalf : n / 4096 = 0xD
    · exact ⟨0x80, 0x9F, by rw [hhalf]; rfl, by omega, by omega⟩
    · rw [if_neg (by omega), if_pos (by omega), Nat.add_sub_cancel_left]
      exact ⟨0x80, 0xBF, rfl, by omega, by omega⟩

/-- Neither an overlong form nor beyond the last character. -/
theorem lead_four {n : Nat} (h : 0x10000 ≤ n) (h' : n < 0x110000) :
    ∃ low high, lead (0xF0 + n / 262144) = .pending ⟨n / 262144, 3, low, high⟩ ∧
      low ≤ 0x80 + n / 4096 % 64 ∧ 0x80 + n / 4096 % 64 ≤ high := by
  unfold lead
  rw [if_neg (by omega), if_neg (by omega), if_neg (by omega), if_neg (by omega),
    if_neg (by omega), if_neg (by omega)]
  by_cases hzero : n / 262144 = 0
  · exact ⟨0x90, 0xBF, by rw [hzero]; rfl, by omega, by omega⟩
  · rw [if_neg (by omega)]
    by_cases hlast : n / 262144 = 4
    · exact ⟨0x80, 0x8F, by rw [hlast]; rfl, by omega, by omega⟩
    · rw [if_pos (by omega), Nat.add_sub_cancel_left]
      exact ⟨0x80, 0xBF, rfl, by omega, by omega⟩

/-! ## Later bytes -/

section Later

variable {bits missing low high b : Nat} {bs : Bytes}

theorem toNat_ofNat_of_lt {b : Nat} (hb : b < 256) : (UInt8.ofNat b).toNat = b := by
  rw [UInt8.toNat_ofNat', Nat.mod_eq_of_lt hb]

theorem partsFrom_lead {p : Pending} (hb : b < 256) (h : lead b = .pending p) :
    partsFrom none (UInt8.ofNat b :: bs) = partsFrom (some p) bs := by
  simp only [partsFrom, toNat_ofNat_of_lt hb, h]

/-- A byte that is not the last one of its character. -/
theorem partsFrom_next (hb : b < 64) (hlow : low ≤ 0x80 + b) (hhigh : 0x80 + b ≤ high) :
    partsFrom (some ⟨bits, missing + 2, low, high⟩) (UInt8.ofNat (0x80 + b) :: bs) =
      partsFrom (some ⟨64 * bits + b, missing + 1, 0x80, 0xBF⟩) bs := by
  rw [partsFrom, toNat_ofNat_of_lt (by omega), if_pos ⟨hlow, hhigh⟩]
  simp only [show (0x80 + b) % 64 = b by omega]
  rfl

/-- The last byte of a character. -/
theorem partsFrom_last (hb : b < 64) (hlow : low ≤ 0x80 + b) (hhigh : 0x80 + b ≤ high) :
    partsFrom (some ⟨bits, 1, low, high⟩) (UInt8.ofNat (0x80 + b) :: bs) =
      some (Char.ofNat (64 * bits + b)) :: partsFrom none bs := by
  rw [partsFrom, toNat_ofNat_of_lt (by omega), if_pos ⟨hlow, hhigh⟩]
  simp only [show (0x80 + b) % 64 = b by omega]
  rfl

end Later

/-! ## Characters and texts -/

theorem partsFrom_encodeChar (c : Char) (bs : Bytes) :
    partsFrom none (encodeChar c ++ bs) = some c :: partsFrom none bs := by
  have hvalid : c.toNat < 0xD800 ∨ 0xDFFF < c.toNat ∧ c.toNat < 0x110000 := c.valid
  -- the bits of all bytes are those of the character
  have hchar : ∀ n, n = c.toNat → Char.ofNat n = c := by
    rintro n rfl
    exact Char.ofNat_toNat c
  unfold encodeChar
  dsimp only
  split
  next h =>
    have hlead : lead c.toNat = .char c := by
      rw [lead, if_pos h, hchar _ rfl]
    simp only [List.cons_append, List.nil_append]
    rw [partsFrom, toNat_ofNat_of_lt (by omega), hlead]
  next h =>
    split
    next h2 =>
      simp only [List.cons_append, List.nil_append]
      rw [partsFrom_lead (by omega) (lead_two (by omega) h2),
        partsFrom_last (by omega) (by omega) (by omega), hchar _ (by omega)]
    next h2 =>
      split
      next h3 =>
        obtain ⟨low, high, hlead, hlow, hhigh⟩ :=
          lead_three (Nat.le_of_not_lt h2) h3 (by omega)
        simp only [List.cons_append, List.nil_append]
        rw [partsFrom_lead (by omega) hlead, partsFrom_next (by omega) hlow hhigh,
          partsFrom_last (by omega) (by omega) (by omega), hchar _ (by omega)]
      next h3 =>
        obtain ⟨low, high, hlead, hlow, hhigh⟩ := lead_four (Nat.le_of_not_lt h3) (by omega)
        simp only [List.cons_append, List.nil_append]
        rw [partsFrom_lead (by omega) hlead, partsFrom_next (by omega) hlow hhigh,
          partsFrom_next (by omega) (by omega) (by omega),
          partsFrom_last (by omega) (by omega) (by omega), hchar _ (by omega)]

/-- **The bytes of a text have its characters** and no ill-formed part. -/
theorem decodeParts_encode (s : List Char) : decodeParts (encode s) = s.map some := by
  induction s with
  | nil => rfl
  | cons c s ih =>
    have hbytes : encode (c :: s) = encodeChar c ++ encode s := rfl
    rw [hbytes, decodeParts, partsFrom_encodeChar, List.map_cons, ← ih]
    rfl

theorem decode?_encode (s : List Char) : decode? (encode s) = some s := by
  rw [decode?, decodeParts_encode]
  simpa using List.mapM_pure (m := Option) (l := s) (f := id)

theorem decodeLossy_encode (s : List Char) : decodeLossy (encode s) = s := by
  simp [decodeLossy, decodeParts_encode, Function.comp_def]

end Utf8

end DiskLens
