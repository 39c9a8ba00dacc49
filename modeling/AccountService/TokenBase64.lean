import AccountService.ModelJwt

/-! The Base64URL codec gives back what it was given. Both loops return to zero pending bits after
three bytes, respectively four characters, whatever is left in the higher bits of the accumulator, so
the induction goes by groups of three bytes. -/

namespace AccountService

/-- Three bytes make four characters and leave no bits pending. -/
theorem base64EncodeLoop_group (val : Nat) (a b c : UInt8) (rest : Bytes) :
    ∃ val', base64EncodeLoop val 0 (a :: b :: c :: rest) =
      base64Char (a.toNat / 4) :: base64Char (a.toNat % 4 * 16 + b.toNat / 16) ::
        base64Char (b.toNat % 16 * 4 + c.toNat / 64) :: base64Char (c.toNat % 64) ::
          base64EncodeLoop val' 0 rest := by
  have ha : a.toNat < 256 := a.toNat_lt
  have hb : b.toNat < 256 := b.toNat_lt
  have hc : c.toNat < 256 := c.toNat_lt
  obtain ⟨v₁, hv₁⟩ : ∃ v, v = (val * 256 + a.toNat) % 2 ^ 32 := ⟨_, rfl⟩
  obtain ⟨v₂, hv₂⟩ : ∃ v, v = (v₁ * 256 + b.toNat) % 2 ^ 32 := ⟨_, rfl⟩
  obtain ⟨v₃, hv₃⟩ : ∃ v, v = (v₂ * 256 + c.toNat) % 2 ^ 32 := ⟨_, rfl⟩
  have h₁ : v₁ / 4 % 64 = a.toNat / 4 := by omega
  have h₂ : v₂ / 16 % 64 = a.toNat % 4 * 16 + b.toNat / 16 := by omega
  have h₃ : v₃ / 64 % 64 = b.toNat % 16 * 4 + c.toNat / 64 := by omega
  have h₄ : v₃ / 1 % 64 = c.toNat % 64 := by omega
  refine ⟨v₃, ?_⟩
  rw [← h₁, ← h₂, ← h₃, ← h₄, hv₃, hv₂, hv₁]
  rfl

theorem base64EncodeLoop_one (val : Nat) (a : UInt8) :
    base64EncodeLoop val 0 [a] =
      [base64Char (a.toNat / 4), base64Char (a.toNat % 4 * 16)] := by
  have ha : a.toNat < 256 := a.toNat_lt
  obtain ⟨v₁, hv₁⟩ : ∃ v, v = (val * 256 + a.toNat) % 2 ^ 32 := ⟨_, rfl⟩
  have h₁ : v₁ / 4 % 64 = a.toNat / 4 := by omega
  have h₂ : v₁ * 256 % 2 ^ 32 / 16 % 64 = a.toNat % 4 * 16 := by omega
  rw [← h₁, ← h₂, hv₁]
  rfl

theorem base64EncodeLoop_two (val : Nat) (a b : UInt8) :
    base64EncodeLoop val 0 [a, b] =
      [base64Char (a.toNat / 4), base64Char (a.toNat % 4 * 16 + b.toNat / 16),
        base64Char (b.toNat % 16 * 4)] := by
  have ha : a.toNat < 256 := a.toNat_lt
  have hb : b.toNat < 256 := b.toNat_lt
  obtain ⟨v₁, hv₁⟩ : ∃ v, v = (val * 256 + a.toNat) % 2 ^ 32 := ⟨_, rfl⟩
  obtain ⟨v₂, hv₂⟩ : ∃ v, v = (v₁ * 256 + b.toNat) % 2 ^ 32 := ⟨_, rfl⟩
  have h₁ : v₁ / 4 % 64 = a.toNat / 4 := by omega
  have h₂ : v₂ / 16 % 64 = a.toNat % 4 * 16 + b.toNat / 16 := by omega
  have h₃ : v₂ * 256 % 2 ^ 32 / 64 % 64 = b.toNat % 16 * 4 := by omega
  rw [← h₁, ← h₂, ← h₃, hv₂, hv₁]
  rfl

/-- The decoding table inverts the encoding table. -/
theorem base64DecodeTable_char {d : Nat} (h : d < 64) :
    base64DecodeTable.getD (base64Char d).toNat (-1) = (d : Int) := by
  have hall : ∀ d : Fin 64, base64DecodeTable.getD (base64Char d).toNat (-1) = (d.val : Int) := by
    decide +kernel
  exact hall ⟨d, h⟩

/-- One step of the decoder on a character of the alphabet. -/
theorem base64DecodeLoop_char (val bits d : Nat) (h : d < 64) (rest : Bytes) :
    base64DecodeLoop val bits (base64Char d :: rest) =
      if 8 ≤ bits + 6 then
        UInt8.ofNat ((val * 64 + d) % 2 ^ 32 / 2 ^ (bits + 6 - 8) % 256) ::
          base64DecodeLoop ((val * 64 + d) % 2 ^ 32) (bits + 6 - 8) rest
      else base64DecodeLoop ((val * 64 + d) % 2 ^ 32) (bits + 6) rest := by
  rw [base64DecodeLoop]
  simp only [base64DecodeTable_char h, Int.toNat_natCast]
  rw [if_neg (by omega)]

/-- Four characters give back the three bytes they were made from. -/
theorem base64DecodeLoop_group (val : Nat) (a b c : UInt8) (rest : Bytes) :
    ∃ val', base64DecodeLoop val 0 (base64Char (a.toNat / 4) ::
        base64Char (a.toNat % 4 * 16 + b.toNat / 16) :: base64Char (b.toNat % 16 * 4 + c.toNat / 64) ::
          base64Char (c.toNat % 64) :: rest) =
      a :: b :: c :: base64DecodeLoop val' 0 rest := by
  have ha : a.toNat < 256 := a.toNat_lt
  have hb : b.toNat < 256 := b.toNat_lt
  have hc : c.toNat < 256 := c.toNat_lt
  rw [base64DecodeLoop_char _ _ _ (by omega), if_neg (by omega),
    base64DecodeLoop_char _ _ _ (by omega), if_pos (by omega),
    base64DecodeLoop_char _ _ _ (by omega), if_pos (by omega),
    base64DecodeLoop_char _ _ _ (by omega), if_pos (by omega)]
  set v₁ := (val * 64 + a.toNat / 4) % 2 ^ 32 with hv₁
  set v₂ := (v₁ * 64 + (a.toNat % 4 * 16 + b.toNat / 16)) % 2 ^ 32 with hv₂
  set v₃ := (v₂ * 64 + (b.toNat % 16 * 4 + c.toNat / 64)) % 2 ^ 32 with hv₃
  set v₄ := (v₃ * 64 + c.toNat % 64) % 2 ^ 32 with hv₄
  refine ⟨v₄, ?_⟩
  have h₁ : v₂ / 2 ^ 4 % 256 = a.toNat := by omega
  have h₂ : v₃ / 2 ^ 2 % 256 = b.toNat := by omega
  have h₃ : v₄ / 2 ^ 0 % 256 = c.toNat := by omega
  show UInt8.ofNat (v₂ / 2 ^ 4 % 256) :: UInt8.ofNat (v₃ / 2 ^ 2 % 256) ::
    UInt8.ofNat (v₄ / 2 ^ 0 % 256) :: base64DecodeLoop v₄ 0 rest = _
  rw [h₁, h₂, h₃, UInt8.ofNat_toNat, UInt8.ofNat_toNat, UInt8.ofNat_toNat]

theorem base64DecodeLoop_one (val : Nat) (a : UInt8) :
    base64DecodeLoop val 0 [base64Char (a.toNat / 4), base64Char (a.toNat % 4 * 16)] = [a] := by
  have ha : a.toNat < 256 := a.toNat_lt
  rw [base64DecodeLoop_char _ _ _ (by omega), if_neg (by omega),
    base64DecodeLoop_char _ _ _ (by omega), if_pos (by omega)]
  set v₁ := (val * 64 + a.toNat / 4) % 2 ^ 32 with hv₁
  set v₂ := (v₁ * 64 + a.toNat % 4 * 16) % 2 ^ 32 with hv₂
  have h₁ : v₂ / 2 ^ 4 % 256 = a.toNat := by omega
  show [UInt8.ofNat (v₂ / 2 ^ 4 % 256)] = [a]
  rw [h₁, UInt8.ofNat_toNat]

theorem base64DecodeLoop_two (val : Nat) (a b : UInt8) :
    base64DecodeLoop val 0 [base64Char (a.toNat / 4), base64Char (a.toNat % 4 * 16 + b.toNat / 16),
      base64Char (b.toNat % 16 * 4)] = [a, b] := by
  have ha : a.toNat < 256 := a.toNat_lt
  have hb : b.toNat < 256 := b.toNat_lt
  rw [base64DecodeLoop_char _ _ _ (by omega), if_neg (by omega),
    base64DecodeLoop_char _ _ _ (by omega), if_pos (by omega),
    base64DecodeLoop_char _ _ _ (by omega), if_pos (by omega)]
  set v₁ := (val * 64 + a.toNat / 4) % 2 ^ 32 with hv₁
  set v₂ := (v₁ * 64 + (a.toNat % 4 * 16 + b.toNat / 16)) % 2 ^ 32 with hv₂
  set v₃ := (v₂ * 64 + b.toNat % 16 * 4) % 2 ^ 32 with hv₃
  have h₁ : v₂ / 2 ^ 4 % 256 = a.toNat := by omega
  have h₂ : v₃ / 2 ^ 2 % 256 = b.toNat := by omega
  show [UInt8.ofNat (v₂ / 2 ^ 4 % 256), UInt8.ofNat (v₃ / 2 ^ 2 % 256)] = [a, b]
  rw [h₁, h₂, UInt8.ofNat_toNat, UInt8.ofNat_toNat]

/-- Decoding from any accumulator what was encoded from any accumulator. -/
theorem base64DecodeLoop_encodeLoop : ∀ (s : Bytes) (val val' : Nat),
    base64DecodeLoop val' 0 (base64EncodeLoop val 0 s) = s
  | [], _, _ => rfl
  | [a], val, val' => by rw [base64EncodeLoop_one, base64DecodeLoop_one]
  | [a, b], val, val' => by rw [base64EncodeLoop_two, base64DecodeLoop_two]
  | a :: b :: c :: rest, val, val' => by
      obtain ⟨v, hv⟩ := base64EncodeLoop_group val a b c rest
      obtain ⟨v', hv'⟩ := base64DecodeLoop_group val' a b c (base64EncodeLoop v 0 rest)
      rw [hv, hv', base64DecodeLoop_encodeLoop rest v v']

/-- **Round trip.** Decoding inverts encoding on every byte string. -/
theorem base64UrlDecode_base64UrlEncode (s : Bytes) : base64UrlDecode (base64UrlEncode s) = s :=
  base64DecodeLoop_encodeLoop s 0 0

/-! ### The alphabet has no dot -/

theorem base64Char_ne_dot (d : Nat) (h : d < 64) : base64Char d ≠ dot := by
  have hall : ∀ d : Fin 64, base64Char d ≠ dot := by decide +kernel
  exact hall ⟨d, h⟩

theorem dot_notMem_base64Drain (val : Nat) : ∀ bits, dot ∉ (base64Drain val bits).1
  | bits + 6 => by
      show dot ∉ base64Char (val / 2 ^ bits % 64) :: (base64Drain val bits).1
      rw [List.mem_cons, not_or]
      exact ⟨(base64Char_ne_dot _ (Nat.mod_lt _ (by decide))).symm, dot_notMem_base64Drain val bits⟩
  | 0 | 1 | 2 | 3 | 4 | 5 => List.not_mem_nil

theorem dot_notMem_base64EncodeLoop (s : Bytes) (val bits : Nat) :
    dot ∉ base64EncodeLoop val bits s := by
  induction s generalizing val bits with
  | nil =>
      rw [base64EncodeLoop]
      split
      · rw [List.mem_singleton]
        exact (base64Char_ne_dot _ (Nat.mod_lt _ (by decide))).symm
      · exact List.not_mem_nil
  | cons c rest ih =>
      show dot ∉ (base64Drain _ (bits + 8)).1 ++ base64EncodeLoop _ (base64Drain _ (bits + 8)).2 rest
      rw [List.mem_append, not_or]
      exact ⟨dot_notMem_base64Drain _ _, ih _ _⟩

theorem dot_notMem_base64UrlEncode (s : Bytes) : dot ∉ base64UrlEncode s :=
  dot_notMem_base64EncodeLoop s 0 0

end AccountService
