import AccountService.LibraryProgram

/-! Triples for two programs that run side by side, each on its own copy of the state: from states
related by a precondition, the results and the final states are related by a postcondition. The two
programs may be different ones, and so may the commands they issue. -/

namespace Interaction.Program

variable {S : Signature} {σ α β α' β' : Type} (h : Handler S σ)

/-- From states related by `Pre`, the two runs end in results and states related by `Post`. -/
def Paired (Pre : σ → σ → Prop) (p : Program S α) (q : Program S β) (Post : α → β → σ → σ → Prop) : Prop :=
  ∀ s t, Pre s t → Post (run h p s).1 (run h q t).1 (run h p s).2 (run h q t).2

variable {h} {Pre Pre' : σ → σ → Prop} {p : Program S α} {q : Program S β} {Post Post' : α → β → σ → σ → Prop}

theorem Paired.done {a : α} {b : β} (hpost : ∀ s t, Pre s t → Post a b s t) :
    Paired h Pre (.done a) (.done b) Post := hpost

/-- **Sequence.** What the first programs establish, the second ones start from. -/
theorem Paired.bind {f : α → Program S α'} {g : β → Program S β'} {Mid : α' → β' → σ → σ → Prop}
    (hp : Paired h Pre p q Post) (hf : ∀ a b, Paired h (Post a b) (f a) (g b) Mid) :
    Paired h Pre (p >>= f) (q >>= g) Mid := by
  intro s t hst
  rw [run_bind, run_bind]
  exact hf _ _ _ _ (hp s t hst)

theorem Paired.mono (hp : Paired h Pre p q Post) (hpre : ∀ s t, Pre' s t → Pre s t)
    (hpost : ∀ a b s t, Post a b s t → Post' a b s t) : Paired h Pre' p q Post' :=
  fun s t hst => hpost _ _ _ _ (hp s t (hpre s t hst))

/-- A fact that does not depend on the state may be taken out of the precondition. -/
theorem Paired.of_pre {P : Prop} (hp : P → Paired h Pre p q Post) (hpre : ∀ s t, Pre' s t → P ∧ Pre s t) :
    Paired h Pre' p q Post :=
  fun s t hst => hp (hpre s t hst).1 s t (hpre s t hst).2

/-- **One program.** It runs in lockstep with itself when its commands give the same replies on related
states and keep them related. -/
theorem paired_self {P : S.Cmd → Prop}
    (hstep : ∀ c, P c → ∀ s t, Pre s t → (h c s).1 = (h c t).1 ∧ Pre (h c s).2 (h c t).2)
    {p : Program S α} (hp : Uses P p) : Paired h Pre p p fun a b s t => a = b ∧ Pre s t :=
  fun _ _ hst => run_lockstep (Q := fun _ _ => True) h
    (fun c hc s t hst => ⟨trivial, hstep c hc s t hst⟩) (hp.within _) hst

end Interaction.Program
