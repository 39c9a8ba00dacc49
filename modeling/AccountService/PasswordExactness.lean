import AccountService.ModelValidator

/-! `PasswordHelper`: verification accepts a stored hash exactly for the passwords whose salted digest
is the one that was stored, and no string of another form for any password. The comparison is the
accumulating loop of the source, on bytes promoted to `int` with their sign. -/

namespace AccountService

namespace PasswordHelper

/-- A `char` promoted to `int`. -/
def promote (c : UInt8) : BitVec 32 := c.toBitVec.signExtend 32

/-- `result |= a[i] ^ b[i]`, for all positions. -/
def compareLoop (result : BitVec 32) : Bytes → Bytes → BitVec 32
  | x :: a, y :: b => compareLoop (result ||| (promote x ^^^ promote y)) a b
  | _, _ => result

def constantTimeCompare (a b : Bytes) : Bool :=
  if a.length ≠ b.length then false else compareLoop 0#32 a b = 0#32

/-- `PasswordHelper::Hash` with the bytes `RAND_bytes` returns. -/
def hash (crypto : Crypto) (saltBytes password : Bytes) : Bytes :=
  let salt := bytesToHex saltBytes
  let salted := salt ++ password
  let hashHex := bytesToHex (crypto.sha256 salted)
  ascii "$sha256$" ++ salt ++ [dollar] ++ hashHex

/-- `stored_hash.find('$', 8)`. -/
def findDollar (storedHash : Bytes) : Option Nat :=
  ((storedHash.drop 8).findIdx? (· == dollar)).map (8 + ·)

/-- `PasswordHelper::Verify`. -/
def verify (crypto : Crypto) (password storedHash : Bytes) : Bool :=
  if storedHash.take 8 ≠ ascii "$sha256$" then false
  else
    match findDollar storedHash with
    | none => false
    | some saltEnd =>
        let salt := (storedHash.drop 8).take (saltEnd - 8)
        let expectedHash := storedHash.drop (saltEnd + 1)
        let salted := salt ++ password
        let actualHash := bytesToHex (crypto.sha256 salted)
        constantTimeCompare expectedHash actualHash

end PasswordHelper

open PasswordHelper

theorem promote_injective {x y : UInt8} (h : promote x = promote y) : x = y := by
  apply UInt8.toBitVec_inj.mp
  apply BitVec.eq_of_getLsbD_eq
  intro i hi
  have hbit : (promote x).getLsbD i = (promote y).getLsbD i := by rw [h]
  rwa [promote, promote, BitVec.getLsbD_signExtend, BitVec.getLsbD_signExtend, if_pos hi, if_pos hi,
    decide_eq_true (show i < 32 by omega), Bool.true_and, Bool.true_and] at hbit

theorem compareLoop_eq_zero_iff (result : BitVec 32) : ∀ a b : Bytes, a.length = b.length →
    (compareLoop result a b = 0#32 ↔ result = 0#32 ∧ a = b)
  | [], [], _ => by simp [compareLoop]
  | x :: a, y :: b, h => by
      rw [compareLoop, compareLoop_eq_zero_iff _ a b (Nat.succ.inj h), BitVec.or_eq_zero_iff,
        BitVec.xor_eq_zero_iff, and_assoc, List.cons.injEq]
      exact and_congr_right fun _ => and_congr_left fun _ =>
        ⟨promote_injective, fun hxy => by rw [hxy]⟩

/-- No bit of a difference is lost in the loop. -/
theorem constantTimeCompare_iff (a b : Bytes) : constantTimeCompare a b = true ↔ a = b := by
  rw [constantTimeCompare]
  by_cases h : a.length = b.length
  · rw [if_neg (not_not.mpr h), decide_eq_true_eq, compareLoop_eq_zero_iff _ a b h]
    exact and_iff_right rfl
  · rw [if_pos h]
    exact iff_of_false Bool.false_ne_true fun hab => h (by rw [hab])

/-- The value of a digit. -/
def hexValue (c : UInt8) : Nat := if c.toNat < 58 then c.toNat - 48 else c.toNat - 87

theorem hexByte_value (b : UInt8) :
    (hexByte b).map hexValue = [b.toNat / 16, b.toNat % 16] := by
  have hall : ∀ n : Fin 256, (hexByte (UInt8.ofNat n.val)).map hexValue = [n.val / 16, n.val % 16] := by
    decide +kernel
  have hb := hall ⟨b.toNat, b.toNat_lt⟩
  rwa [UInt8.ofNat_toNat] at hb

theorem hexByte_injective {a b : UInt8} (h : hexByte a = hexByte b) : a = b := by
  have hvalue : [a.toNat / 16, a.toNat % 16] = [b.toNat / 16, b.toNat % 16] := by
    rw [← hexByte_value, ← hexByte_value, h]
  obtain ⟨hhigh, hlow⟩ : a.toNat / 16 = b.toNat / 16 ∧ a.toNat % 16 = b.toNat % 16 := by
    simpa using hvalue
  exact UInt8.toNat_inj.mp (by omega)

theorem bytesToHex_injective : ∀ s t : Bytes, bytesToHex s = bytesToHex t → s = t
  | [], [], _ => rfl
  | [], _ :: _, h => nomatch h
  | _ :: _, [], h => nomatch h
  | a :: s, b :: t, h => by
      have happ : hexByte a ++ bytesToHex s = hexByte b ++ bytesToHex t := h
      obtain ⟨hbyte, hrest⟩ := List.append_inj happ rfl
      rw [hexByte_injective hbyte, bytesToHex_injective s t hrest]

theorem length_bytesToHex (s : Bytes) : (bytesToHex s).length = 2 * s.length := by
  induction s with
  | nil => rfl
  | cons a s ih =>
      rw [bytesToHex, List.flatMap_cons, List.length_append, ← bytesToHex, ih, List.length_cons]
      show 2 + _ = _
      omega

theorem isLowerHex_of_mem_bytesToHex {s : Bytes} {c : UInt8} (h : c ∈ bytesToHex s) :
    isLowerHex c = true := by
  have hall : ∀ b : Fin 256, ∀ c ∈ hexByte (UInt8.ofNat b.val), isLowerHex c = true := by decide +kernel
  obtain ⟨b, -, hc⟩ := List.mem_flatMap.mp h
  have hb := hall ⟨b.toNat, b.toNat_lt⟩ c
  rw [UInt8.ofNat_toNat] at hb
  exact hb hc

theorem dollar_notMem_bytesToHex (s : Bytes) : dollar ∉ bytesToHex s := fun h =>
  absurd (isLowerHex_of_mem_bytesToHex h) (by decide)

/-- The position of the first separator behind the salt. -/
theorem findIdx_dollar {salt : Bytes} (h : dollar ∉ salt) (rest : Bytes) :
    (salt ++ dollar :: rest).findIdx? (· == dollar) = some salt.length := by
  induction salt with
  | nil => rfl
  | cons c salt ih =>
      obtain ⟨hc, hsalt⟩ := not_or.mp (fun hmem => h (List.mem_cons.mpr hmem))
      have hne : (c == dollar) = false := beq_eq_false_iff_ne.mpr (Ne.symm hc)
      rw [List.cons_append, List.findIdx?_cons, hne, ih hsalt]
      rfl

/-- What stands before and behind the separator that is found. -/
theorem split_at_dollar {body : Bytes} {i : Nat} (h : body.findIdx? (· == dollar) = some i) :
    dollar ∉ body.take i ∧ body = body.take i ++ dollar :: body.drop (i + 1) := by
  obtain ⟨hi, hdollar, hbefore⟩ := List.findIdx?_eq_some_iff_getElem.mp h
  refine ⟨fun hmem => ?_, ?_⟩
  · obtain ⟨j, hj, hget⟩ := List.mem_take_iff_getElem.mp hmem
    exact hbefore j (by omega) (by rw [hget]; exact beq_self_eq_true dollar)
  · have hget : body[i] = dollar := eq_of_beq hdollar
    rw [← hget, ← List.drop_eq_getElem_cons hi, List.take_append_drop]

theorem verify_stored (crypto : Crypto) (password : Bytes) {salt : Bytes} (hsalt : dollar ∉ salt)
    (expectedHash : Bytes) :
    verify crypto password (ascii "$sha256$" ++ salt ++ [dollar] ++ expectedHash) =
      constantTimeCompare expectedHash (bytesToHex (crypto.sha256 (salt ++ password))) := by
  have hmark : (ascii "$sha256$").length = 8 := by decide
  have htext : ascii "$sha256$" ++ salt ++ [dollar] ++ expectedHash =
      ascii "$sha256$" ++ (salt ++ dollar :: expectedHash) := by
    rw [List.append_assoc, List.append_assoc, List.singleton_append]
  have hbody : (ascii "$sha256$" ++ (salt ++ dollar :: expectedHash)).drop 8 =
      salt ++ dollar :: expectedHash := List.drop_left' hmark
  have hsaltEnd : 8 + salt.length - 8 = salt.length := by omega
  have hhash : (ascii "$sha256$" ++ (salt ++ dollar :: expectedHash)).drop (8 + salt.length + 1) =
      expectedHash := by
    rw [Nat.add_assoc, ← List.drop_drop, hbody, ← List.drop_drop, List.drop_left]
    rfl
  rw [htext, verify, if_neg (not_not.mpr (List.take_left' hmark)), findDollar, hbody,
    findIdx_dollar hsalt]
  simp only [Option.map_some, hsaltEnd, List.take_left, hhash]

/-- **The stored form.** What `Verify` accepts: the mark, a salt free of the separator, and the
digest of the salt and the password in hexadecimal. -/
theorem verify_iff (crypto : Crypto) (password storedHash : Bytes) :
    verify crypto password storedHash = true ↔
      ∃ salt, dollar ∉ salt ∧ storedHash =
        ascii "$sha256$" ++ salt ++ [dollar] ++ bytesToHex (crypto.sha256 (salt ++ password)) := by
  constructor
  · intro h
    have hparts : ∃ salt expectedHash, dollar ∉ salt ∧
        storedHash = ascii "$sha256$" ++ salt ++ [dollar] ++ expectedHash := by
      rw [verify] at h
      by_cases hmark : storedHash.take 8 = ascii "$sha256$"
      · rw [if_neg (not_not.mpr hmark)] at h
        cases hfind : (storedHash.drop 8).findIdx? (· == dollar) with
        | none =>
            rw [findDollar, hfind] at h
            exact absurd h Bool.false_ne_true
        | some i =>
            obtain ⟨hsalt, hbody⟩ := split_at_dollar hfind
            refine ⟨(storedHash.drop 8).take i, (storedHash.drop 8).drop (i + 1), hsalt, ?_⟩
            rw [List.append_assoc, List.append_assoc, List.singleton_append, ← hbody, ← hmark,
              List.take_append_drop]
      · rw [if_pos hmark] at h
        exact absurd h Bool.false_ne_true
    obtain ⟨salt, expectedHash, hsalt, rfl⟩ := hparts
    rw [verify_stored crypto password hsalt, constantTimeCompare_iff] at h
    exact ⟨salt, hsalt, by rw [h]⟩
  · rintro ⟨salt, hsalt, rfl⟩
    rw [verify_stored crypto password hsalt, constantTimeCompare_iff]

/-- The strings `Hash` can write: the mark, a salt, the separator and 64 lower-case digits. -/
def WellFormedHash (storedHash : Bytes) : Prop :=
  ∃ salt digits, dollar ∉ salt ∧ digits.length = 64 ∧ (∀ c ∈ digits, isLowerHex c = true) ∧
    storedHash = ascii "$sha256$" ++ salt ++ [dollar] ++ digits

/-- **Exactness.** A stored hash is verified by the passwords with the digest it was made from and by
no others, whatever bytes they hold; a string of any other form is verified by none. -/
theorem verify_exact (crypto : Crypto) (hsize : ∀ s, (crypto.sha256 s).length = 32) :
    (∀ saltBytes p q, verify crypto q (hash crypto saltBytes p) = true ↔
      crypto.sha256 (bytesToHex saltBytes ++ q) = crypto.sha256 (bytesToHex saltBytes ++ p)) ∧
    (∀ saltBytes p, verify crypto p (hash crypto saltBytes p) = true) ∧
    ∀ storedHash, ¬ WellFormedHash storedHash → ∀ q, verify crypto q storedHash = false := by
  have hiff : ∀ saltBytes p q, verify crypto q (hash crypto saltBytes p) = true ↔
      crypto.sha256 (bytesToHex saltBytes ++ q) = crypto.sha256 (bytesToHex saltBytes ++ p) := by
    intro saltBytes p q
    have hstored : verify crypto q (PasswordHelper.hash crypto saltBytes p) =
        constantTimeCompare (bytesToHex (crypto.sha256 (bytesToHex saltBytes ++ p)))
          (bytesToHex (crypto.sha256 (bytesToHex saltBytes ++ q))) :=
      verify_stored crypto q (dollar_notMem_bytesToHex saltBytes) _
    rw [hstored, constantTimeCompare_iff]
    exact ⟨fun h => (bytesToHex_injective _ _ h).symm, fun h => by rw [h]⟩
  refine ⟨hiff, fun saltBytes p => (hiff saltBytes p p).mpr rfl, fun storedHash hform q => ?_⟩
  rw [← Bool.not_eq_true, verify_iff]
  rintro ⟨salt, hsalt, rfl⟩
  refine hform ⟨salt, _, hsalt, ?_, fun c hc => isLowerHex_of_mem_bytesToHex hc, rfl⟩
  rw [length_bytesToHex, hsize]

/-- SHA-256 itself, on a password with the separator and a zero byte in it. -/
theorem verify_exact_sample :
    verify Crypto.openssl [36, 0, 112] (hash Crypto.openssl (List.replicate 16 0xa5) [36, 0, 112]) = true :=
  (verify_exact Crypto.openssl Sha256.length_digest).2.1 (List.replicate 16 0xa5) [36, 0, 112]

theorem passwordHash_eq (crypto : Crypto) (saltBytes password : Bytes) :
    passwordHash crypto saltBytes password = hash crypto saltBytes password := rfl

theorem passwordVerify_eq (crypto : Crypto) (password storedHash : Bytes) :
    passwordVerify crypto password storedHash = verify crypto password storedHash := by
  rw [passwordVerify, verify]
  by_cases hmark : storedHash.take 8 = ascii "$sha256$"
  · rw [if_neg (not_not.mpr hmark), if_neg (not_not.mpr (show storedHash.take 8 = hashMark from hmark)),
      findDollar]
    cases hfind : (storedHash.drop 8).findIdx? (· == dollar) with
    | none =>
        have hnone : ¬ (storedHash.drop 8).contains dollar = true := by
          rw [List.contains_iff_mem]
          exact fun hmem => absurd (List.findIdx?_eq_none_iff.mp hfind dollar hmem) (by decide)
        rw [if_pos hnone]
        rfl
    | some i =>
        obtain ⟨hsalt, hbody⟩ := split_at_dollar hfind
        have hmem : dollar ∈ storedHash.drop 8 := by
          rw [hbody]
          exact List.mem_append_right _ List.mem_cons_self
        have hkeep : ∀ c ∈ (storedHash.drop 8).take i, decide (c ≠ dollar) = true := fun c hc =>
          decide_eq_true fun h => hsalt (h ▸ hc)
        have hbefore : (storedHash.drop 8).takeWhile (· ≠ dollar) = (storedHash.drop 8).take i := by
          conv_lhs => rw [hbody]
          rw [List.takeWhile_append_of_pos hkeep, List.takeWhile_cons_of_neg (by simp), List.append_nil]
        have hbehind : ((storedHash.drop 8).dropWhile (· ≠ dollar)).tail = (storedHash.drop 8).drop (i + 1) := by
          conv_lhs => rw [hbody]
          rw [List.dropWhile_append_of_pos hkeep, List.dropWhile_cons_of_neg (by simp), List.tail_cons]
        have hsaltEnd : 8 + i - 8 = i := by omega
        rw [if_neg (not_not.mpr (List.contains_iff_mem.mpr hmem))]
        simp only [Option.map_some, hbefore, hbehind, hsaltEnd, List.drop_drop,
          show 8 + (i + 1) = 8 + i + 1 by omega]
        rw [Bool.eq_iff_iff, constantTimeCompare_iff, decide_eq_true_eq]
  · rw [if_pos hmark, if_pos (show storedHash.take 8 ≠ hashMark from hmark)]

end AccountService
