import AccountService.LibraryProgram

/-! Programs whose state others change between their commands. What the others may do is a relation, the rely; a
program ensures a condition on its value and on the state if it holds at the end, whatever happens within the
rely. -/

namespace Interaction.Program

variable {S : Signature} {σ α β : Type} (h : Handler S σ) (R : σ → σ → Prop)

/-- Whatever the others do before each command, the program returns with `Q`. -/
def Ensures (Q : α → σ → Prop) : Program S α → σ → Prop
  | .done a, s => Q a s
  | .call c next, s => ∀ s', R s s' → Ensures Q (next (h c s').1) (h c s').2

namespace Ensures

variable {h R} {Q Q' : α → σ → Prop} {p : Program S α} {s s' : σ}

/-- **Rule of consequence.** -/
theorem mono (hp : Ensures h R Q p s) (hQ : ∀ a s, Q a s → Q' a s) : Ensures h R Q' p s := by
  induction p generalizing s with
  | done a => exact hQ a s hp
  | call c next ih => exact fun s' hs' => ih _ (hp s' hs')

/-- **Sequence.** -/
theorem bind {T : β → σ → Prop} {f : α → Program S β} (hp : Ensures h R (fun a s => Ensures h R T (f a) s) p s) :
    Ensures h R T (p >>= f) s := by
  induction p generalizing s with
  | done a => exact hp
  | call c next ih => exact fun s' hs' => ih _ (hp s' hs')

/-- **Stability.** The others act once more before the next command. -/
theorem rely (htrans : ∀ {a b c}, R a b → R b c → R a c) (hQ : ∀ a {s s'}, Q a s → R s s' → Q a s')
    (hp : Ensures h R Q p s) (hs : R s s') : Ensures h R Q p s' := by
  cases p with
  | done a => exact hQ a hp hs
  | call c next => exact fun s'' hs'' => hp s'' (htrans hs hs'')

/-- **Invariant rule.** What the commands of the program and the others preserve holds at the end. -/
theorem invariant {P : S.Cmd → Prop} {I : σ → Prop} (hp : Uses P p) (hs : I s)
    (hcmd : ∀ c, P c → ∀ s, I s → I (h c s).2) (hrely : ∀ {s s'}, I s → R s s' → I s') :
    Ensures h R (fun _ s => I s) p s := by
  induction p generalizing s with
  | done a => exact hs
  | call c next ih => exact fun s' hs' => ih _ (hp.2 _) (hcmd c hp.1 s' (hrely hs hs'))

end Ensures

end Interaction.Program
