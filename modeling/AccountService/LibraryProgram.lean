import Mathlib.Data.List.Basic
import Mathlib.Tactic.Common

/-! Programs that talk to a shared state through commands. A program is a finite tree: it returns a
value, or issues a command and continues with the reply. The same program is executed in two ways:
alone, from the first command to the last (`run`), and interleaved with others, one command at a
time in an order that a schedule chooses (`System.play`). The rules at the end turn what one command
preserves into what a whole run preserves. -/

namespace Interaction

/-- The commands a program may issue and the type of the reply to each. -/
structure Signature where
  Cmd : Type
  Reply : Cmd → Type

/-- A computation that returns, or issues a command and continues with its reply. -/
inductive Program (S : Signature) (α : Type) : Type
  | done (value : α)
  | call (cmd : S.Cmd) (next : S.Reply cmd → Program S α)

/-- What each command answers and does to the state. -/
abbrev Handler (S : Signature) (σ : Type) := (c : S.Cmd) → σ → S.Reply c × σ

namespace Program

variable {S : Signature} {σ τ α β : Type}

protected def bind : Program S α → (α → Program S β) → Program S β
  | .done a, f => f a
  | .call c next, f => .call c fun reply => (next reply).bind f

instance : Monad (Program S) where
  pure := Program.done
  bind := Program.bind

/-- The program that issues one command and returns its reply. -/
def perform (c : S.Cmd) : Program S (S.Reply c) := .call c .done

@[simp] theorem pure_eq (a : α) : (pure a : Program S α) = .done a := rfl

@[simp] theorem done_bind (a : α) (f : α → Program S β) : (Program.done a >>= f) = f a := rfl

@[simp] theorem call_bind (c : S.Cmd) (next : S.Reply c → Program S α) (f : α → Program S β) :
    (Program.call c next >>= f) = .call c fun reply => next reply >>= f := rfl

@[simp] theorem perform_bind (c : S.Cmd) (f : S.Reply c → Program S β) :
    (perform c >>= f) = .call c f := rfl

theorem bind_assoc {γ : Type} (p : Program S α) (f : α → Program S β) (g : β → Program S γ) :
    (p >>= f >>= g) = p >>= fun a => f a >>= g := by
  induction p with
  | done a => rfl
  | call c next ih =>
      simp only [call_bind]
      congr 1
      funext reply
      exact ih reply

/-- The next command of a program that has not returned. -/
def next? : Program S α → Option S.Cmd
  | .done _ => none
  | .call c _ => some c

/-- The value of a program that has returned. -/
def result? : Program S α → Option α
  | .done a => some a
  | .call _ _ => none

variable (h : Handler S σ)

/-- Execute a program to its end, with no other command in between. -/
def run : Program S α → σ → α × σ
  | .done a, s => (a, s)
  | .call c next, s => run (next (h c s).1) (h c s).2

@[simp] theorem run_done (a : α) (s : σ) : run h (.done a) s = (a, s) := rfl

@[simp] theorem run_pure (a : α) (s : σ) : run h (pure a) s = (a, s) := rfl

@[simp] theorem run_call (c : S.Cmd) (next : S.Reply c → Program S α) (s : σ) :
    run h (.call c next) s = run h (next (h c s).1) (h c s).2 := rfl

@[simp] theorem run_perform (c : S.Cmd) (s : σ) : run h (perform c) s = h c s := rfl

@[simp] theorem run_bind (p : Program S α) (f : α → Program S β) (s : σ) :
    run h (p >>= f) s = run h (f (run h p s).1) (run h p s).2 := by
  induction p generalizing s with
  | done a => rfl
  | call c next ih => exact ih _ _

/-- Every command the program can issue, on whatever replies, satisfies `P`. -/
def Uses (P : S.Cmd → Prop) : Program S α → Prop
  | .done _ => True
  | .call c next => P c ∧ ∀ reply, Uses P (next reply)

@[simp] theorem uses_done (P : S.Cmd → Prop) (a : α) : Uses P (Program.done a : Program S α) :=
  trivial

@[simp] theorem uses_call (P : S.Cmd → Prop) (c : S.Cmd) (next : S.Reply c → Program S α) :
    Uses P (.call c next) ↔ P c ∧ ∀ reply, Uses P (next reply) := Iff.rfl

theorem Uses.bind {P : S.Cmd → Prop} {p : Program S α} {f : α → Program S β}
    (hp : Uses P p) (hf : ∀ a, Uses P (f a)) : Uses P (p >>= f) := by
  induction p with
  | done a => exact hf a
  | call c next ih => exact ⟨hp.1, fun reply => ih reply (hp.2 reply)⟩

theorem Uses.mono {P Q : S.Cmd → Prop} {p : Program S α} (hp : Uses P p) (h : ∀ c, P c → Q c) :
    Uses Q p := by
  induction p with
  | done a => trivial
  | call c next ih => exact ⟨h c hp.1, fun reply => ih reply (hp.2 reply)⟩

/-- Every value the program can return, on whatever replies, satisfies `Q`. -/
def Returns (Q : α → Prop) : Program S α → Prop
  | .done a => Q a
  | .call c next => ∀ reply : S.Reply c, Returns Q (next reply)

theorem Returns.bind {P : α → Prop} {Q : β → Prop} {p : Program S α} {f : α → Program S β}
    (hp : Returns P p) (hf : ∀ a, P a → Returns Q (f a)) : Returns Q (p >>= f) := by
  induction p with
  | done a => exact hf a hp
  | call c next ih => exact fun reply => ih reply (hp reply)

theorem returns_true (p : Program S α) : Returns (fun _ => True) p := by
  induction p with
  | done a => trivial
  | call c next ih => exact ih

/-- What a program can only return is what it returns. -/
theorem Returns.run {Q : α → Prop} {p : Program S α} (hp : Returns Q p) (s : σ) : Q (run h p s).1 := by
  induction p generalizing s with
  | done a => exact hp
  | call c next ih => exact ih _ (hp _) _

/-- **Frame rule.** A view of the state that every command of the program leaves alone is the same
after the run. -/
theorem run_frame {P : S.Cmd → Prop} (view : σ → τ)
    (hview : ∀ c, P c → ∀ s, view (h c s).2 = view s) {p : Program S α} (hp : Uses P p) (s : σ) :
    view (run h p s).2 = view s := by
  induction p generalizing s with
  | done a => rfl
  | call c next ih =>
      rw [run_call, ih _ (hp.2 _), hview c hp.1]

/-- **Invariant rule.** What every command of the program preserves holds after the run. -/
theorem run_invariant {P : S.Cmd → Prop} {I : σ → Prop}
    (hInv : ∀ c, P c → ∀ s, I s → I (h c s).2) {p : Program S α} (hp : Uses P p) {s : σ}
    (hs : I s) : I (run h p s).2 := by
  induction p generalizing s with
  | done a => exact hs
  | call c next ih => exact ih _ (hp.2 _) (hInv c hp.1 s hs)

/-- As long as the replies satisfy `Q`, the commands of the program satisfy `P` and its result `R`. -/
def Within (P : S.Cmd → Prop) (Q : (c : S.Cmd) → S.Reply c → Prop) (R : α → Prop) : Program S α → Prop
  | .done a => R a
  | .call c next => P c ∧ ∀ reply, Q c reply → Within P Q R (next reply)

theorem Within.bind {P : S.Cmd → Prop} {Q : (c : S.Cmd) → S.Reply c → Prop} {R : α → Prop} {R' : β → Prop}
    {p : Program S α} {f : α → Program S β} (hp : Within P Q R p) (hf : ∀ a, R a → Within P Q R' (f a)) :
    Within P Q R' (p >>= f) := by
  induction p with
  | done a => exact hf a hp
  | call c next ih => exact ⟨hp.1, fun reply hreply => ih reply (hp.2 reply hreply)⟩

theorem Uses.within {P : S.Cmd → Prop} {p : Program S α} (hp : Uses P p)
    (Q : (c : S.Cmd) → S.Reply c → Prop) : Within P Q (fun _ => True) p := by
  induction p with
  | done a => trivial
  | call c next ih => exact ⟨hp.1, fun reply _ => ih reply (hp.2 reply)⟩

/-- **Two runs.** From related states, a program whose commands give the same replies and keep the states
related returns the same and leaves the states related. -/
theorem run_lockstep {P : S.Cmd → Prop} {Q : (c : S.Cmd) → S.Reply c → Prop} {R : α → Prop}
    {J : σ → σ → Prop}
    (hstep : ∀ c, P c → ∀ s t, J s t → Q c (h c s).1 ∧ (h c s).1 = (h c t).1 ∧ J (h c s).2 (h c t).2)
    {p : Program S α} (hp : Within P Q R p) {s t : σ} (hst : J s t) :
    (run h p s).1 = (run h p t).1 ∧ J (run h p s).2 (run h p t).2 := by
  induction p generalizing s t with
  | done a => exact ⟨rfl, hst⟩
  | call c next ih =>
      obtain ⟨hreply, hsame, hnext⟩ := hstep c hp.1 s t hst
      rw [run_call, run_call, ← hsame]
      exact ih _ (hp.2 _ hreply) hnext

/-- What a run of the program against whatever replies can look like: the commands it issues with the reply to each, and
the value it returns. -/
def Exchanges : Program S α → List ((c : S.Cmd) × S.Reply c) → α → Prop
  | .done a, exchange, b => exchange = [] ∧ b = a
  | .call c next, exchange, b => ∃ reply rest, exchange = ⟨c, reply⟩ :: rest ∧ Exchanges (next reply) rest b

theorem exchanges_bind {p : Program S α} {f : α → Program S β} {exchange : List ((c : S.Cmd) × S.Reply c)} {b : β} :
    Exchanges (p >>= f) exchange b ↔
      ∃ a first rest, exchange = first ++ rest ∧ Exchanges p first a ∧ Exchanges (f a) rest b := by
  induction p generalizing exchange with
  | done a =>
      constructor
      · exact fun h => ⟨a, [], exchange, rfl, ⟨rfl, rfl⟩, h⟩
      · rintro ⟨_, _, rest, rfl, ⟨rfl, rfl⟩, h⟩
        exact h
  | call c next ih =>
      constructor
      · rintro ⟨reply, tail, rfl, h⟩
        obtain ⟨a, first, rest, rfl, hfirst, hrest⟩ := (ih reply).mp h
        exact ⟨a, ⟨c, reply⟩ :: first, rest, rfl, ⟨reply, first, rfl, hfirst⟩, hrest⟩
      · rintro ⟨a, _, rest, rfl, ⟨reply, first, rfl, hfirst⟩, hrest⟩
        exact ⟨reply, first ++ rest, rfl, (ih reply).mpr ⟨a, first, rest, rfl, hfirst, hrest⟩⟩

theorem uses_true (p : Program S α) : Uses (fun _ => True) p := by
  induction p with
  | done a => trivial
  | call c next ih => exact ⟨trivial, ih⟩

end Program

/-- Programs in flight over one shared state. -/
structure System (S : Signature) (σ α : Type) where
  shared : σ
  threads : List (Program S α)

/-- One move of a schedule: a thread issues its next command, or the surroundings act. -/
inductive Move (ε : Type)
  | thread (i : Nat)
  | outside (e : ε)
  deriving DecidableEq

namespace System

variable {S : Signature} {σ α ε : Type} (h : Handler S σ) (act : ε → σ → σ)

/-- Thread `i` issues its next command; nothing happens if it has returned. -/
def advance (i : Nat) (s : System S σ α) : System S σ α :=
  match s.threads[i]? with
  | some (.call c next) =>
      { shared := (h c s.shared).2, threads := s.threads.set i (next (h c s.shared).1) }
  | _ => s

def move : Move ε → System S σ α → System S σ α
  | .thread i, s => advance h i s
  | .outside e, s => { s with shared := act e s.shared }

/-- The system after a schedule. -/
def play (schedule : List (Move ε)) (s : System S σ α) : System S σ α :=
  schedule.foldl (fun s m => move h act m s) s

@[simp] theorem play_nil (s : System S σ α) : play h act [] s = s := rfl

@[simp] theorem play_cons (m : Move ε) (rest : List (Move ε)) (s : System S σ α) :
    play h act (m :: rest) s = play h act rest (move h act m s) := rfl

theorem play_append (first second : List (Move ε)) (s : System S σ α) :
    play h act (first ++ second) s = play h act second (play h act first s) :=
  List.foldl_append

/-- Every move of the schedule satisfies `G` in the state in which it is made. -/
def Meets (G : System S σ α → Move ε → Prop) : List (Move ε) → System S σ α → Prop
  | [], _ => True
  | m :: rest, s => G s m ∧ Meets G rest (move h act m s)

instance decidableMeets (G : System S σ α → Move ε → Prop) [∀ s m, Decidable (G s m)] :
    ∀ schedule s, Decidable (Meets h act G schedule s)
  | [], _ => .isTrue trivial
  | m :: rest, s => @instDecidableAnd _ _ _ (decidableMeets G rest (move h act m s))

theorem meets_append {G : System S σ α → Move ε → Prop} {first second : List (Move ε)} {s : System S σ α} :
    Meets h act G (first ++ second) s ↔ Meets h act G first s ∧ Meets h act G second (play h act first s) := by
  induction first generalizing s with
  | nil => exact ⟨fun h => ⟨trivial, h⟩, fun h => h.2⟩
  | cons m rest ih =>
      simp only [List.cons_append, Meets, play_cons, ih]
      exact and_assoc.symm

/-- The command that thread `i` issues next. -/
def pending (s : System S σ α) (i : Nat) : Option S.Cmd := s.threads[i]?.bind Program.next?

theorem pending_of_call {s : System S σ α} {i : Nat} {c : S.Cmd} {next : S.Reply c → Program S α}
    (hi : s.threads[i]? = some (.call c next)) : c ∈ s.pending i := by
  simp [pending, hi, Program.next?]

/-- What a move can do: a thread that has not returned issues its next command, or the
surroundings act on the shared state, or nothing happens. -/
theorem move_cases (m : Move ε) (s : System S σ α) :
    (∃ i c next, m = .thread i ∧ s.threads[i]? = some (.call c next) ∧
      move h act m s =
        { shared := (h c s.shared).2, threads := s.threads.set i (next (h c s.shared).1) }) ∨
    (∃ e, m = .outside e ∧ move h act m s = { s with shared := act e s.shared }) ∨
    (∃ i, m = .thread i ∧ s.pending i = none ∧ move h act m s = s) := by
  cases m with
  | outside e => exact Or.inr (Or.inl ⟨e, rfl, rfl⟩)
  | thread i =>
      cases hi : s.threads[i]? with
      | none => exact Or.inr (Or.inr ⟨i, rfl, by simp [pending, hi], by simp [move, advance, hi]⟩)
      | some p =>
          cases p with
          | done a =>
              exact Or.inr (Or.inr ⟨i, rfl, by simp [pending, hi, Program.next?], by simp [move, advance, hi]⟩)
          | call c next =>
              exact Or.inl ⟨i, c, next, rfl, hi, by simp [move, advance, hi]⟩

/-- After a step of thread `i`, every thread is the new one or an old one. -/
theorem getElem?_set_cases {l : List α} {i j : Nat} {a b : α} (h : (l.set i a)[j]? = some b) :
    (j = i ∧ b = a) ∨ (j ≠ i ∧ l[j]? = some b) := by
  by_cases hij : i = j
  · subst j
    rw [List.getElem?_set_self'] at h
    obtain ⟨x, -, hx⟩ := Option.map_eq_some_iff.mp h
    exact Or.inl ⟨rfl, hx.symm⟩
  · rw [List.getElem?_set_ne hij] at h
    exact Or.inr ⟨Ne.symm hij, h⟩

/-- A schedule without moves of thread `j` leaves it where it is. -/
theorem play_untouched {j : Nat} {schedule : List (Move ε)} (hj : .thread j ∉ schedule)
    (s : System S σ α) : (play h act schedule s).threads[j]? = s.threads[j]? := by
  induction schedule generalizing s with
  | nil => rfl
  | cons m rest ih =>
      rw [play_cons, ih fun hmem => hj (List.mem_cons_of_mem m hmem)]
      rcases move_cases h act m s with ⟨i, c, next, rfl, -, hmove⟩ | ⟨e, -, hmove⟩ | ⟨i, -, -, hmove⟩
      · have hne : i ≠ j := fun hij => hj (hij ▸ List.mem_cons_self)
        rw [hmove]
        exact List.getElem?_set_ne hne
      · rw [hmove]
      · rw [hmove]

/-- **Invariant rule.** What every permitted move preserves holds after every schedule whose moves
are all permitted. -/
theorem play_invariant {Inv : System S σ α → Prop} {G : System S σ α → Move ε → Prop}
    (hmove : ∀ s m, Inv s → G s m → Inv (move h act m s)) (schedule : List (Move ε))
    (s : System S σ α) (hs : Inv s) (hG : Meets h act G schedule s) :
    Inv (play h act schedule s) := by
  induction schedule generalizing s with
  | nil => exact hs
  | cons m rest ih => exact ih _ (hmove s m hs hG.1) hG.2

theorem play_always {I : System S σ α → Prop} (hmove : ∀ s (m : Move ε), I s → I (move h act m s))
    (schedule : List (Move ε)) (s : System S σ α) (hs : I s) : I (play h act schedule s) := by
  induction schedule generalizing s with
  | nil => exact hs
  | cons m rest ih => exact ih _ (hmove s m hs)

end System
end Interaction
