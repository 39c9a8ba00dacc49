import Mathlib.Data.List.GetD
import Mathlib.Tactic.Common

/-! Scanners that read a text by position. A scanner keeps the position it stands at and every position
it has read, so that what it touches can be stated; reading past the end yields a filler. A loop is
given a number of turns and has no outcome when it needs more, so that an outcome means that the
scanner came to its end. `Ends` is total correctness, and its rule for loops asks each turn to leave
or to move forward. -/

namespace Scanning

/-- Where a scanner stands and the positions it has read. -/
structure Cursor where
  pos : Nat
  reads : List Nat

/-- A scanner of texts over `β`; no outcome is a loop that ran out of turns. -/
def Scanner (β α : Type) := List β → Cursor → Option (α × Cursor)

/-- How a turn of a loop ends. -/
inductive Round (σ ρ : Type)
  | again (state : σ)
  | leave (value : ρ)

variable {α β γ σ ρ : Type}

namespace Scanner

protected def pure (a : α) : Scanner β α := fun _ c => some (a, c)

protected def bind (p : Scanner β α) (f : α → Scanner β γ) : Scanner β γ := fun text c =>
  match p text c with
  | none => none
  | some (a, c') => f a text c'

instance : Monad (Scanner β) where
  pure := Scanner.pure
  bind := Scanner.bind

/-- `i < text.size()`. -/
def inside : Scanner β Bool := fun text c => some (decide (c.pos < text.length), c)

/-- `i + 1 < text.size()`. -/
def insideNext : Scanner β Bool := fun text c => some (decide (c.pos + 1 < text.length), c)

/-- `text[i]`. -/
def read (filler : β) : Scanner β β := fun text c =>
  some (text.getD c.pos filler, ⟨c.pos, c.pos :: c.reads⟩)

/-- `i++`. -/
def advance : Scanner β Unit := fun _ c => some ((), ⟨c.pos + 1, c.reads⟩)

/-- A loop of at most so many turns. -/
def loop (body : σ → Scanner β (Round σ ρ)) : Nat → σ → Scanner β ρ
  | 0, _ => fun _ _ => none
  | turns + 1, s => do
      match ← body s with
      | .again s' => loop body turns s'
      | .leave r => pure r

end Scanner

namespace Cursor

/-- What is left of the text. -/
def rest (text : List β) (c : Cursor) : List β := text.drop c.pos

/-- The position and everything read lie in the text or at its end. -/
structure InRange (text : List β) (c : Cursor) : Prop where
  pos_le : c.pos ≤ text.length
  reads_le : ∀ r ∈ c.reads, r ≤ text.length

theorem inRange_start (text : List β) {i : Nat} (hi : i ≤ text.length) : InRange text ⟨i, []⟩ :=
  ⟨hi, fun _ hr => absurd hr List.not_mem_nil⟩

variable {text : List β} {c : Cursor}

/-- Reading where the cursor stands keeps it in range. -/
theorem InRange.read (h : InRange text c) : InRange text ⟨c.pos, c.pos :: c.reads⟩ := by
  refine ⟨h.pos_le, fun r hr => ?_⟩
  rcases List.mem_cons.1 hr with rfl | hr
  · exact h.pos_le
  · exact h.reads_le r hr

theorem InRange.advance (h : InRange text c) (hlt : c.pos < text.length) :
    InRange text ⟨c.pos + 1, c.reads⟩ := ⟨hlt, h.reads_le⟩

@[simp] theorem rest_mk (text : List β) (c : Cursor) (reads : List Nat) :
    rest text ⟨c.pos, reads⟩ = rest text c := rfl

theorem rest_eq_nil (h : ¬ c.pos < text.length) : rest text c = [] :=
  List.drop_eq_nil_of_le (Nat.le_of_not_lt h)

theorem getD_of_end (h : ¬ c.pos < text.length) (filler : β) : text.getD c.pos filler = filler :=
  List.getD_eq_default _ _ (Nat.le_of_not_lt h)

/-- What is left inside the text: the item that is read there, and what is left behind it. -/
theorem rest_eq_cons (h : c.pos < text.length) (filler : β) (reads : List Nat) :
    rest text c = text.getD c.pos filler :: rest text ⟨c.pos + 1, reads⟩ := by
  rw [rest, List.drop_eq_getElem_cons h, List.getD_eq_getElem _ _ h]
  rfl

/-- Reading anything but the filler is being inside the text. -/
theorem pos_lt_of_getD {filler b : β} (hb : b ≠ filler) (h : text.getD c.pos filler = b) :
    c.pos < text.length := by
  by_contra hend
  exact hb (h.symm.trans (getD_of_end hend filler))

theorem head?_rest_iff {filler b : β} (hb : b ≠ filler) :
    (rest text c).head? = some b ↔ text.getD c.pos filler = b := by
  constructor
  · intro h
    by_cases hlt : c.pos < text.length
    · rw [rest_eq_cons hlt filler c.reads, List.head?_cons] at h
      exact Option.some.inj h
    · rw [rest_eq_nil hlt] at h
      exact absurd h (by simp)
  · intro h
    rw [rest_eq_cons (pos_lt_of_getD hb h) filler c.reads, List.head?_cons, h]

theorem length_rest (text : List β) (c : Cursor) : (rest text c).length = text.length - c.pos :=
  List.length_drop

end Cursor

open Cursor

/-- The scanner comes to an end, with a value and a cursor that satisfy `Q`. -/
def Ends (text : List β) (p : Scanner β α) (c : Cursor) (Q : α → Cursor → Prop) : Prop :=
  ∃ a c', p text c = some (a, c') ∧ Q a c'

namespace Ends

variable {text : List β} {c : Cursor}

theorem pure {a : α} {Q : α → Cursor → Prop} (h : Q a c) :
    Ends text (Pure.pure a : Scanner β α) c Q := ⟨a, c, rfl, h⟩

theorem bind {p : Scanner β α} {f : α → Scanner β γ} {P : α → Cursor → Prop}
    {Q : γ → Cursor → Prop} (hp : Ends text p c P)
    (hf : ∀ a c', P a c' → Ends text (f a) c' Q) : Ends text (p >>= f) c Q := by
  obtain ⟨a, c', hrun, ha⟩ := hp
  obtain ⟨b, c'', hrun', hb⟩ := hf a c' ha
  refine ⟨b, c'', ?_, hb⟩
  show (match p text c with | none => none | some (a, c') => f a text c') = some (b, c'')
  rw [hrun]
  exact hrun'

variable {Q : α → Cursor → Prop}

theorem mono {p : Scanner β α} {P : α → Cursor → Prop} (hp : Ends text p c P)
    (h : ∀ a c', P a c' → Q a c') : Ends text p c Q := by
  obtain ⟨a, c', hrun, ha⟩ := hp
  exact ⟨a, c', hrun, h a c' ha⟩

theorem inside {f : Bool → Scanner β α} (hyes : c.pos < text.length → Ends text (f true) c Q)
    (hno : ¬ c.pos < text.length → Ends text (f false) c Q) : Ends text (Scanner.inside >>= f) c Q := by
  show Ends text (f (decide (c.pos < text.length))) c Q
  by_cases h : c.pos < text.length
  · rw [decide_eq_true h]
    exact hyes h
  · rw [decide_eq_false h]
    exact hno h

theorem insideNext {f : Bool → Scanner β α}
    (h : Ends text (f (decide (c.pos + 1 < text.length))) c Q) :
    Ends text (Scanner.insideNext >>= f) c Q := h

theorem read {filler : β} {f : β → Scanner β α}
    (h : Ends text (f (text.getD c.pos filler)) ⟨c.pos, c.pos :: c.reads⟩ Q) :
    Ends text (Scanner.read filler >>= f) c Q := h

theorem advance {f : Unit → Scanner β α} (h : Ends text (f ()) ⟨c.pos + 1, c.reads⟩ Q) :
    Ends text (Scanner.advance >>= f) c Q := h

/-- What a turn of a loop with invariant `I` has to do: leave with `Q`, or move forward. -/
def Advances (I : σ → Cursor → Prop) (Q : ρ → Cursor → Prop) (c : Cursor) : Round σ ρ → Cursor → Prop
  | .again s, c' => I s c' ∧ c.pos < c'.pos
  | .leave r, c' => Q r c'

/-- **Loop rule.** A loop whose every turn leaves or moves forward inside the text ends, when it has
more turns than there is text left. -/
theorem loop {body : σ → Scanner β (Round σ ρ)} {I : σ → Cursor → Prop} {Q : ρ → Cursor → Prop}
    (hpos : ∀ s c, I s c → c.pos ≤ text.length)
    (hbody : ∀ s c, I s c → Ends text (body s) c (Advances I Q c)) {turns : Nat} {s : σ} (hI : I s c)
    (hturns : text.length - c.pos < turns) : Ends text (Scanner.loop body turns s) c Q := by
  induction turns generalizing s c with
  | zero => exact absurd hturns (Nat.not_lt_zero _)
  | succ turns ih =>
      refine bind (hbody s c hI) fun t c' ht => ?_
      cases t with
      | again s' =>
          have hle := hpos s' c' ht.1
          have hlt := ht.2
          exact ih ht.1 (by omega)
      | leave r => exact pure ht

end Ends

end Scanning
