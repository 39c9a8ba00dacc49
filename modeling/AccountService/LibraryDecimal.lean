import Mathlib.Data.List.TakeWhile
import Mathlib.Data.Nat.Digits.Lemmas
import Mathlib.Tactic.Common

/-! Integers as decimal text over bytes: the text of an integer, and the reader that skips leading
blanks, takes an optional sign and stops at the first byte that is not a digit. Reading the text of
an integer gives the integer back. -/

namespace Decimal

/-- The byte of a decimal digit. -/
def digitByte (d : Nat) : UInt8 := UInt8.ofNat (48 + d)

def isDigit (c : UInt8) : Bool := 48 ≤ c && c ≤ 57

def minus : UInt8 := 45

def plus : UInt8 := 43

def natText (n : Nat) : List UInt8 :=
  if n = 0 then [48] else (Nat.digits 10 n).reverse.map digitByte

def intText : Int → List UInt8
  | .ofNat n => natText n
  | .negSucc n => minus :: natText (n + 1)

/-- The value of a string of digits. -/
def natValue (ds : List UInt8) : Nat := ds.foldl (fun acc c => acc * 10 + (c.toNat - 48)) 0

def splitSign : List UInt8 → Bool × List UInt8
  | [] => (false, [])
  | c :: rest => if c = minus then (true, rest) else if c = plus then (false, rest) else (false, c :: rest)

/-- The integer at the front of a text, if there is one. -/
def readInt (isBlank : UInt8 → Bool) (s : List UInt8) : Option Int :=
  let signed := splitSign (s.dropWhile isBlank)
  let ds := signed.2.takeWhile isDigit
  if ds = [] then none
  else if signed.1 then some (-(natValue ds : Int)) else some (natValue ds)

theorem toNat_digitByte {d : Nat} (h : d < 10) : (digitByte d).toNat = 48 + d := by
  simp only [digitByte, UInt8.toNat_ofNat']
  omega

theorem isDigit_iff (c : UInt8) : isDigit c = true ↔ 48 ≤ c.toNat ∧ c.toNat ≤ 57 := by
  simp [isDigit, UInt8.le_iff_toNat_le]

theorem isDigit_digitByte {d : Nat} (h : d < 10) : isDigit (digitByte d) = true := by
  rw [isDigit_iff, toNat_digitByte h]
  omega

theorem isDigit_of_mem_natText {n : Nat} {c : UInt8} (h : c ∈ natText n) : isDigit c = true := by
  unfold natText at h
  split at h
  · rw [List.mem_singleton] at h
    subst h
    decide
  · simp only [List.mem_map, List.mem_reverse] at h
    obtain ⟨d, hd, rfl⟩ := h
    exact isDigit_digitByte (Nat.digits_lt_base (by decide) hd)

theorem natText_ne_nil (n : Nat) : natText n ≠ [] := by
  unfold natText
  split
  · simp
  · simp [Nat.digits_ne_nil_iff_ne_zero, *]

theorem natValue_digits (ds : List Nat) (h : ∀ d ∈ ds, d < 10) :
    natValue (ds.reverse.map digitByte) = Nat.ofDigits 10 ds := by
  rw [natValue, List.map_reverse, List.foldl_reverse]
  induction ds with
  | nil => rfl
  | cons d ds ih =>
      rw [List.map_cons, List.foldr_cons, ih (fun x hx => h x (List.mem_cons_of_mem _ hx)),
        toNat_digitByte (h d List.mem_cons_self), Nat.ofDigits_cons]
      omega

theorem natValue_natText (n : Nat) : natValue (natText n) = n := by
  unfold natText
  split
  · subst n
    rfl
  · rw [natValue_digits _ (fun d hd => Nat.digits_lt_base (by decide) hd), Nat.ofDigits_digits]

theorem takeWhile_natText (n : Nat) : (natText n).takeWhile isDigit = natText n :=
  List.takeWhile_eq_self_iff.mpr fun _ h => isDigit_of_mem_natText h

theorem mem_intText {n : Int} {c : UInt8} (h : c ∈ intText n) : isDigit c = true ∨ c = minus := by
  cases n with
  | ofNat n => exact Or.inl (isDigit_of_mem_natText h)
  | negSucc n =>
      rcases List.mem_cons.mp h with h | h
      · exact Or.inr h
      · exact Or.inl (isDigit_of_mem_natText h)

theorem intText_ne_nil (n : Int) : intText n ≠ [] := by
  cases n with
  | ofNat n => exact natText_ne_nil n
  | negSucc n => simp [intText]

/-- The first byte of an integer's text is a digit, or a minus sign with more after it. -/
theorem intText_cases (n : Int) :
    (∃ c rest, intText n = c :: rest ∧ isDigit c = true) ∨
      ∃ c rest, intText n = minus :: c :: rest := by
  cases n with
  | ofNat n =>
      obtain ⟨c, rest, h⟩ := List.exists_cons_of_ne_nil (natText_ne_nil n)
      exact Or.inl ⟨c, rest, h, isDigit_of_mem_natText (by rw [h]; exact List.mem_cons_self)⟩
  | negSucc n =>
      obtain ⟨c, rest, h⟩ := List.exists_cons_of_ne_nil (natText_ne_nil (n + 1))
      exact Or.inr ⟨c, rest, by rw [intText, h]⟩

theorem splitSign_natText (n : Nat) : splitSign (natText n) = (false, natText n) := by
  obtain ⟨c, rest, h⟩ := List.exists_cons_of_ne_nil (natText_ne_nil n)
  have hc : isDigit c = true := isDigit_of_mem_natText (by rw [h]; exact List.mem_cons_self)
  have hminus : c ≠ minus := by
    rintro rfl
    exact absurd hc (by decide)
  have hplus : c ≠ plus := by
    rintro rfl
    exact absurd hc (by decide)
  rw [h, splitSign, if_neg hminus, if_neg hplus]

/-- **Round trip.** The reader returns the integer whose text it is given. -/
theorem readInt_intText (isBlank : UInt8 → Bool)
    (hblank : ∀ c, isDigit c = true ∨ c = minus → isBlank c = false) (n : Int) :
    readInt isBlank (intText n) = some n := by
  have hdrop : (intText n).dropWhile isBlank = intText n := by
    obtain ⟨c, rest, h⟩ := List.exists_cons_of_ne_nil (intText_ne_nil n)
    have hc := hblank c (mem_intText (n := n) (by rw [h]; exact List.mem_cons_self))
    rw [h, List.dropWhile_cons_of_neg (by simp [hc])]
  simp only [readInt, hdrop]
  cases n with
  | ofNat n =>
      simp only [intText, splitSign_natText, takeWhile_natText, natText_ne_nil, if_false,
        natValue_natText, Bool.false_eq_true]
      rfl
  | negSucc n =>
      simp only [intText, splitSign, if_true, takeWhile_natText, natText_ne_nil, if_false,
        natValue_natText]
      rfl

theorem intText_injective : Function.Injective intText := by
  intro m n h
  have hread := readInt_intText (fun _ => false) (fun _ _ => rfl) m
  rw [h, readInt_intText _ fun _ _ => rfl] at hread
  exact (Option.some.inj hread).symm

end Decimal
