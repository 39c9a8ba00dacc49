import AccountService.TokenBase64

/-! The laws of the Base64URL codec, stated about the loops as they run on an `int`: a 32-bit
accumulator that wraps, is never masked and is shifted right with its sign. The loops of `ModelJwt`
keep the accumulator as a natural number instead; both read the same bits, since no shift reaches as
far as the sign. -/

namespace AccountService

namespace JwtService

/-- `while (valb >= 0)`: the characters written and the `valb` left. -/
def encodeDrain (val : BitVec 32) (valb : Int) : Bytes × Int :=
  if 0 ≤ valb then
    match encodeDrain val (valb - 6) with
    | (chars, left) => (base64Char ((val.sshiftRight valb.toNat) &&& 0x3F#32).toNat :: chars, left)
  else ([], valb)
termination_by (valb + 6).toNat

def encodeLoop (val : BitVec 32) (valb : Int) : Bytes → Bytes
  | [] =>
      if -6 < valb then
        [base64Char (((val <<< 8).sshiftRight (valb + 8).toNat) &&& 0x3F#32).toNat]
      else []
  | c :: rest =>
      let val' := (val <<< 8) + BitVec.ofNat 32 c.toNat
      match encodeDrain val' (valb + 8) with
      | (chars, left) => chars ++ encodeLoop val' left rest

/-- `JwtService::Base64UrlEncode` on a 32-bit `int`. -/
def base64UrlEncode (input : Bytes) : Bytes := encodeLoop 0 (-6) input

def decodeLoop (val : BitVec 32) (valb : Int) : Bytes → Bytes
  | [] => []
  | c :: rest =>
      let d := base64DecodeTable.getD c.toNat (-1)
      if d = -1 then []
      else
        let val' := (val <<< 6) + BitVec.ofInt 32 d
        if 0 ≤ valb + 6 then
          UInt8.ofNat ((val'.sshiftRight (valb + 6).toNat) &&& 0xFF#32).toNat ::
            decodeLoop val' (valb + 6 - 8) rest
        else decodeLoop val' (valb + 6) rest

/-- `JwtService::Base64UrlDecode` on a 32-bit `int`. -/
def base64UrlDecode (input : Bytes) : Bytes := decodeLoop 0 (-8) input

end JwtService

/-- The low bits after an arithmetic shift, as long as the shift stays clear of the sign. -/
theorem sshiftRight_and_low (x : BitVec 32) {n k : Nat} (h : n + k ≤ 32) :
    ((x.sshiftRight n) &&& BitVec.ofNat 32 (2 ^ k - 1)).toNat = x.toNat / 2 ^ n % 2 ^ k := by
  apply Nat.eq_of_testBit_eq
  intro i
  rw [← Nat.shiftRight_eq_div_pow, Nat.testBit_mod_two_pow, Nat.testBit_shiftRight, BitVec.testBit_toNat,
    BitVec.getLsbD_and, BitVec.getLsbD_sshiftRight, BitVec.getLsbD_ofNat, Nat.testBit_two_pow_sub_one,
    BitVec.testBit_toNat]
  by_cases hi : i < k
  · have hlow : n + i < 32 := by omega
    have hword : ¬ 32 ≤ i := by omega
    simp [hi, hlow, hword, Nat.lt_of_not_le hword]
  · simp [hi]

/-- What is written for six bits of the accumulator. -/
theorem sshiftRight_six (x : BitVec 32) {n : Nat} (h : n ≤ 26) :
    ((x.sshiftRight n) &&& 0x3F#32).toNat = x.toNat / 2 ^ n % 64 :=
  sshiftRight_and_low x (k := 6) (by omega)

theorem sshiftRight_eight (x : BitVec 32) {n : Nat} (h : n ≤ 24) :
    ((x.sshiftRight n) &&& 0xFF#32).toNat = x.toNat / 2 ^ n % 256 :=
  sshiftRight_and_low x (k := 8) (by omega)

theorem encodeDrain_eq (val : BitVec 32) (bits : Nat) (h : bits ≤ 13) :
    JwtService.encodeDrain val ((bits : Int) - 6) =
      ((base64Drain val.toNat bits).1, ((base64Drain val.toNat bits).2 : Int) - 6) := by
  induction bits using Nat.strongRecOn with
  | ind bits ih =>
      rw [JwtService.encodeDrain]
      by_cases hb : 6 ≤ bits
      · obtain ⟨left, rfl⟩ : ∃ left, bits = left + 6 := ⟨bits - 6, by omega⟩
        have hshift : (((left + 6 : Nat) : Int) - 6).toNat = left := by omega
        have hnext : ((left + 6 : Nat) : Int) - 6 - 6 = (left : Int) - 6 := by omega
        rw [if_pos (by omega), hshift, hnext, ih left (by omega) (by omega),
          sshiftRight_six val (by omega)]
        rfl
      · rw [if_neg (by omega)]
        have hsmall : base64Drain val.toNat bits = ([], bits) := by
          rw [base64Drain.eq_def]
          split
          · omega
          · rfl
        rw [hsmall]

/-- The bits left by the inner loop of the encoder are fewer than six. -/
theorem base64Drain_left (val : Nat) : ∀ bits, (base64Drain val bits).2 < 6
  | bits + 6 => base64Drain_left val bits
  | 0 | 1 | 2 | 3 | 4 | 5 => by simp [base64Drain]

theorem encodeLoop_eq (s : Bytes) (val : BitVec 32) (bits : Nat) (h : bits < 6) :
    JwtService.encodeLoop val ((bits : Int) - 6) s = base64EncodeLoop val.toNat bits s := by
  induction s generalizing val bits with
  | nil =>
      rw [JwtService.encodeLoop, base64EncodeLoop]
      have hshift : ((bits : Int) - 6 + 8).toNat = bits + 2 := by omega
      rw [hshift, sshiftRight_six _ (by omega), BitVec.toNat_shiftLeft, Nat.shiftLeft_eq]
      by_cases hb : 0 < bits
      · rw [if_pos (by omega), if_pos hb]
      · rw [if_neg (by omega), if_neg hb]
  | cons c rest ih =>
      have hval : ((val <<< 8) + BitVec.ofNat 32 c.toNat).toNat = (val.toNat * 256 + c.toNat) % 2 ^ 32 := by
        rw [BitVec.toNat_add, BitVec.toNat_shiftLeft, BitVec.toNat_ofNat, Nat.shiftLeft_eq]
        omega
      have hbits : (bits : Int) - 6 + 8 = ((bits + 8 : Nat) : Int) - 6 := by omega
      rw [JwtService.encodeLoop, base64EncodeLoop]
      simp only [hbits, encodeDrain_eq _ _ (show bits + 8 ≤ 13 by omega), hval,
        ih _ _ (base64Drain_left _ _)]

/-- The encoder on an `int` is the encoder of the model. -/
theorem jwt_base64UrlEncode (s : Bytes) : JwtService.base64UrlEncode s = base64UrlEncode s :=
  encodeLoop_eq s 0 0 (by decide)

/-- Every entry of the table is `-1` or a digit below 64. -/
theorem base64DecodeTable_range (c : UInt8) :
    base64DecodeTable.getD c.toNat (-1) = -1 ∨
      ∃ d : Nat, d < 64 ∧ base64DecodeTable.getD c.toNat (-1) = (d : Int) ∧ base64Char d = c := by
  have hall : ∀ n : Fin 256, base64DecodeTable.getD n.val (-1) = -1 ∨
      ∃ d : Fin 64, base64DecodeTable.getD n.val (-1) = (d.val : Int) ∧ (base64Char d).toNat = n.val := by
    decide +kernel
  rcases hall ⟨c.toNat, c.toNat_lt⟩ with h | ⟨d, h, hc⟩
  · exact .inl h
  · exact .inr ⟨d.val, d.isLt, h, UInt8.toNat_inj.mp hc⟩

theorem decodeLoop_eq (t : Bytes) (val : BitVec 32) (bits : Nat) (h : bits < 8) :
    JwtService.decodeLoop val ((bits : Int) - 8) t = base64DecodeLoop val.toNat bits t := by
  induction t generalizing val bits with
  | nil => rfl
  | cons c rest ih =>
      rw [JwtService.decodeLoop, base64DecodeLoop]
      rcases base64DecodeTable_range c with hd | ⟨d, hlt, hd, -⟩
      · simp only [hd, if_true]
      · have hne : ¬ (d : Int) = -1 := by omega
        have hval : ((val <<< 6) + BitVec.ofInt 32 (d : Int)).toNat = (val.toNat * 64 + d) % 2 ^ 32 := by
          rw [BitVec.ofInt_natCast, BitVec.toNat_add, BitVec.toNat_shiftLeft, BitVec.toNat_ofNat,
            Nat.shiftLeft_eq]
          omega
        simp only [hd, if_neg hne, Int.toNat_natCast]
        by_cases hb : 8 ≤ bits + 6
        · have hshift : ((bits : Int) - 8 + 6).toNat = bits + 6 - 8 := by omega
          have hnext : (bits : Int) - 8 + 6 - 8 = ((bits + 6 - 8 : Nat) : Int) - 8 := by omega
          rw [if_pos (by omega), if_pos hb, hshift, hnext, sshiftRight_eight _ (by omega), hval,
            ih _ _ (by omega), hval]
        · have hnext : (bits : Int) - 8 + 6 = ((bits + 6 : Nat) : Int) - 8 := by omega
          rw [if_neg (by omega), if_neg hb, hnext, ih _ _ (by omega), hval]

/-- The decoder on an `int` is the decoder of the model. -/
theorem jwt_base64UrlDecode (t : Bytes) : JwtService.base64UrlDecode t = base64UrlDecode t :=
  decodeLoop_eq t 0 0 (by decide)

theorem base64Char_mem {d : Nat} (h : d < 64) : base64Char d ∈ base64Table := by
  have hall : ∀ d : Fin 64, base64Char d ∈ base64Table := by decide +kernel
  exact hall ⟨d, h⟩

/-- Whatever is left in the higher bits of the accumulator, the text is the same. -/
theorem base64EncodeLoop_val (val : Nat) : ∀ s : Bytes, base64EncodeLoop val 0 s = base64UrlEncode s
  | [] => by simp [base64UrlEncode, base64EncodeLoop]
  | [a] => by rw [base64UrlEncode, base64EncodeLoop_one, base64EncodeLoop_one]
  | [a, b] => by rw [base64UrlEncode, base64EncodeLoop_two, base64EncodeLoop_two]
  | a :: b :: c :: rest => by
      obtain ⟨v, hv⟩ := base64EncodeLoop_group val a b c rest
      obtain ⟨v', hv'⟩ := base64EncodeLoop_group 0 a b c rest
      have htail : base64EncodeLoop v 0 rest = base64EncodeLoop v' 0 rest :=
        (base64EncodeLoop_val v rest).trans (base64EncodeLoop_val v' rest).symm
      rw [base64UrlEncode, hv, hv', htail]

theorem base64UrlEncode_one (a : UInt8) :
    base64UrlEncode [a] = [base64Char (a.toNat / 4), base64Char (a.toNat % 4 * 16)] :=
  base64EncodeLoop_one 0 a

theorem base64UrlEncode_two (a b : UInt8) :
    base64UrlEncode [a, b] =
      [base64Char (a.toNat / 4), base64Char (a.toNat % 4 * 16 + b.toNat / 16),
        base64Char (b.toNat % 16 * 4)] :=
  base64EncodeLoop_two 0 a b

theorem base64UrlEncode_group (a b c : UInt8) (rest : Bytes) :
    base64UrlEncode (a :: b :: c :: rest) =
      base64Char (a.toNat / 4) :: base64Char (a.toNat % 4 * 16 + b.toNat / 16) ::
        base64Char (b.toNat % 16 * 4 + c.toNat / 64) :: base64Char (c.toNat % 64) ::
          base64UrlEncode rest := by
  obtain ⟨val, hgroup⟩ := base64EncodeLoop_group 0 a b c rest
  rw [base64UrlEncode, hgroup, base64EncodeLoop_val val rest]

theorem base64UrlEncode_alphabet : ∀ s : Bytes, ∀ c ∈ base64UrlEncode s, c ∈ base64Table
  | [], _, hc => absurd hc List.not_mem_nil
  | [a], x, hx => by
      have ha : a.toNat < 256 := a.toNat_lt
      rw [base64UrlEncode_one] at hx
      simp only [List.mem_cons, List.not_mem_nil, or_false] at hx
      rcases hx with rfl | rfl <;> exact base64Char_mem (by omega)
  | [a, b], x, hx => by
      have ha : a.toNat < 256 := a.toNat_lt
      have hb : b.toNat < 256 := b.toNat_lt
      rw [base64UrlEncode_two] at hx
      simp only [List.mem_cons, List.not_mem_nil, or_false] at hx
      rcases hx with rfl | rfl | rfl <;> exact base64Char_mem (by omega)
  | a :: b :: c :: rest, x, hx => by
      have ha : a.toNat < 256 := a.toNat_lt
      have hb : b.toNat < 256 := b.toNat_lt
      have hc : c.toNat < 256 := c.toNat_lt
      rw [base64UrlEncode_group] at hx
      simp only [List.mem_cons] at hx
      rcases hx with rfl | rfl | rfl | rfl | hx
      · exact base64Char_mem (by omega)
      · exact base64Char_mem (by omega)
      · exact base64Char_mem (by omega)
      · exact base64Char_mem (by omega)
      · exact base64UrlEncode_alphabet rest x hx

/-- The bits of the bytes, rounded up to characters of six. -/
theorem base64UrlEncode_length : ∀ s : Bytes, (base64UrlEncode s).length = (8 * s.length + 5) / 6
  | [] => rfl
  | [a] => by simp [base64UrlEncode_one]
  | [a, b] => by simp [base64UrlEncode_two]
  | a :: b :: c :: rest => by
      rw [base64UrlEncode_group]
      simp only [List.length_cons, base64UrlEncode_length rest]
      omega

/-- The six bits a character stands for. -/
def base64Digit (c : UInt8) : Nat := (base64DecodeTable.getD c.toNat (-1)).toNat

/-- The texts an encoder may write: characters of the alphabet, no lone last character, and nothing
in the bits of the last character that belong to no byte. -/
structure Canonical (t : Bytes) : Prop where
  alphabet : ∀ c ∈ t, c ∈ base64Table
  length : t.length % 4 ≠ 1
  trailing : ∀ c, t.getLast? = some c →
    (t.length % 4 = 2 → base64Digit c % 16 = 0) ∧ (t.length % 4 = 3 → base64Digit c % 4 = 0)

theorem exists_digit {c : UInt8} (h : c ∈ base64Table) :
    ∃ d, d < 64 ∧ base64Digit c = d ∧ base64Char d = c := by
  have hall : ∀ c ∈ base64Table, ∃ d : Fin 64, base64Digit c = d.val ∧ base64Char d.val = c := by
    decide +kernel
  obtain ⟨d, hdigit, hchar⟩ := hall c h
  exact ⟨d.val, d.isLt, hdigit, hchar⟩

/-- A number below 256 as a byte. -/
theorem exists_byte {n : Nat} (h : n < 256) : ∃ a : UInt8, a.toNat = n :=
  ⟨UInt8.ofNat n, by rw [UInt8.toNat_ofNat', Nat.mod_eq_of_lt h]⟩

/-- Every canonical text is an encoding: the bytes are read off by groups of four characters. -/
theorem Canonical.exists_encoded : ∀ t : Bytes, Canonical t → ∃ s, base64UrlEncode s = t
  | [], _ => ⟨[], rfl⟩
  | [_], h => absurd rfl h.length
  | [w, x], h => by
      obtain ⟨d₁, hd₁, -, rfl⟩ := exists_digit (h.alphabet w (by simp))
      obtain ⟨d₂, hd₂, hx, rfl⟩ := exists_digit (h.alphabet x (by simp))
      have htail : d₂ % 16 = 0 := hx ▸ (h.trailing _ rfl).1 rfl
      obtain ⟨a, ha⟩ := exists_byte (show d₁ * 4 + d₂ / 16 < 256 by omega)
      refine ⟨[a], ?_⟩
      rw [base64UrlEncode_one, show a.toNat / 4 = d₁ by omega, show a.toNat % 4 * 16 = d₂ by omega]
  | [w, x, y], h => by
      obtain ⟨d₁, hd₁, -, rfl⟩ := exists_digit (h.alphabet w (by simp))
      obtain ⟨d₂, hd₂, -, rfl⟩ := exists_digit (h.alphabet x (by simp))
      obtain ⟨d₃, hd₃, hy, rfl⟩ := exists_digit (h.alphabet y (by simp))
      have htail : d₃ % 4 = 0 := hy ▸ (h.trailing _ rfl).2 rfl
      obtain ⟨a, ha⟩ := exists_byte (show d₁ * 4 + d₂ / 16 < 256 by omega)
      obtain ⟨b, hb⟩ := exists_byte (show d₂ % 16 * 16 + d₃ / 4 < 256 by omega)
      refine ⟨[a, b], ?_⟩
      rw [base64UrlEncode_two, show a.toNat / 4 = d₁ by omega,
        show a.toNat % 4 * 16 + b.toNat / 16 = d₂ by omega, show b.toNat % 16 * 4 = d₃ by omega]
  | w :: x :: y :: z :: rest, h => by
      obtain ⟨d₁, hd₁, -, rfl⟩ := exists_digit (h.alphabet w (by simp))
      obtain ⟨d₂, hd₂, -, rfl⟩ := exists_digit (h.alphabet x (by simp))
      obtain ⟨d₃, hd₃, -, rfl⟩ := exists_digit (h.alphabet y (by simp))
      obtain ⟨d₄, hd₄, -, rfl⟩ := exists_digit (h.alphabet z (by simp))
      obtain ⟨a, ha⟩ := exists_byte (show d₁ * 4 + d₂ / 16 < 256 by omega)
      obtain ⟨b, hb⟩ := exists_byte (show d₂ % 16 * 16 + d₃ / 4 < 256 by omega)
      obtain ⟨c, hc⟩ := exists_byte (show d₃ % 4 * 64 + d₄ < 256 by omega)
      -- the rest is canonical with the same last character
      have hrest : Canonical rest := by
        refine ⟨fun c hc => h.alphabet c (by simp [hc]), ?_, ?_⟩
        · have := h.length
          simp only [List.length_cons] at this
          omega
        · intro last hlast
          obtain ⟨front, rfl⟩ : ∃ front, rest = front ++ [last] := List.getLast?_eq_some_iff.mp hlast
          obtain ⟨h2, h3⟩ := h.trailing last (by
            rw [← List.cons_append, ← List.cons_append, ← List.cons_append, ← List.cons_append,
              List.getLast?_append, List.getLast?_singleton, Option.some_or])
          simp only [List.length_cons, List.length_append, List.length_nil] at h2 h3 ⊢
          exact ⟨fun h => h2 (by omega), fun h => h3 (by omega)⟩
      obtain ⟨s, hs⟩ := Canonical.exists_encoded rest hrest
      refine ⟨a :: b :: c :: s, ?_⟩
      rw [base64UrlEncode_group, hs, show a.toNat / 4 = d₁ by omega,
        show a.toNat % 4 * 16 + b.toNat / 16 = d₂ by omega,
        show b.toNat % 16 * 4 + c.toNat / 64 = d₃ by omega, show c.toNat % 64 = d₄ by omega]

/-- **Codec laws.** Decoding inverts encoding, what is written is made of the alphabet alone, without
a dot, and has the length the bits need; on canonical texts encoding inverts decoding. -/
theorem base64_laws :
    (∀ s : Bytes, JwtService.base64UrlDecode (JwtService.base64UrlEncode s) = s ∧
      (∀ c ∈ JwtService.base64UrlEncode s, c ∈ base64Table) ∧ dot ∉ JwtService.base64UrlEncode s ∧
      (JwtService.base64UrlEncode s).length = (8 * s.length + 5) / 6) ∧
    ∀ t : Bytes, Canonical t → JwtService.base64UrlEncode (JwtService.base64UrlDecode t) = t := by
  refine ⟨fun s => ?_, fun t ht => ?_⟩
  · rw [jwt_base64UrlDecode, jwt_base64UrlEncode]
    exact ⟨base64UrlDecode_base64UrlEncode s, base64UrlEncode_alphabet s, dot_notMem_base64UrlEncode s,
      base64UrlEncode_length s⟩
  · obtain ⟨s, rfl⟩ := Canonical.exists_encoded t ht
    rw [jwt_base64UrlDecode, jwt_base64UrlEncode, base64UrlDecode_base64UrlEncode]

/-- `"SGk"` has three characters and ends in `'k'`, the digit 36: its last two bits are zero. -/
theorem base64_laws_sample :
    JwtService.base64UrlEncode (JwtService.base64UrlDecode (ascii "SGk")) = ascii "SGk" := by
  refine base64_laws.2 (ascii "SGk") ⟨by decide +kernel, by decide, fun c hc => ?_⟩
  have hlast : (ascii "SGk").getLast? = some 107 := by decide
  rw [hlast] at hc
  cases hc
  exact ⟨by decide, by decide⟩

end AccountService
