import Mathlib.Data.List.Induction
import Mathlib.Tactic.Common

/-! Requests served one after another, with a record of what happened. Each request yields an event and
the next state; the log is the list of the events so far, the oldest first. -/

namespace Interaction

variable {ι σ ε : Type}

/-- The events and the state after serving the requests in order. -/
def history (serve : ι → σ → ε × σ) (requests : List ι) (s : σ) : List ε × σ :=
  requests.foldl (fun h r => (h.1 ++ [(serve r h.2).1], (serve r h.2).2)) ([], s)

/-- An event of a log with one more event is the new one or one of the log. -/
theorem snoc_eq_append_cons {log before after : List ε} {e x : ε} (h : log ++ [e] = before ++ x :: after) :
    (log = before ∧ e = x) ∨ ∃ rest, after = rest ++ [e] ∧ log = before ++ x :: rest := by
  rcases List.eq_nil_or_concat after with rfl | ⟨rest, last, rfl⟩
  · obtain ⟨hlog, hevent⟩ := List.append_inj' h rfl
    exact Or.inl ⟨hlog, (List.cons.inj hevent).1⟩
  · rw [List.concat_eq_append, ← List.cons_append, ← List.append_assoc] at h
    obtain ⟨hlog, hlast⟩ := List.append_inj' h rfl
    refine Or.inr ⟨rest, ?_, hlog⟩
    rw [List.concat_eq_append, hlast]

variable (serve : ι → σ → ε × σ)

@[simp] theorem history_nil (s : σ) : history serve [] s = ([], s) := rfl

theorem history_snoc (requests : List ι) (r : ι) (s : σ) :
    history serve (requests ++ [r]) s =
      ((history serve requests s).1 ++ [(serve r (history serve requests s).2).1],
        (serve r (history serve requests s).2).2) := by
  simp [history, List.foldl_append]

/-- A run goes on from where a shorter one has stopped. -/
theorem history_append (earlier later : List ι) (s : σ) :
    history serve (earlier ++ later) s =
      ((history serve earlier s).1 ++ (history serve later (history serve earlier s).2).1,
        (history serve later (history serve earlier s).2).2) := by
  induction later using List.reverseRecOn with
  | nil => simp
  | append_singleton later r ih => rw [← List.append_assoc, history_snoc, ih, history_snoc, List.append_assoc]

/-- **Invariant rule.** What holds of the empty log and is kept by every permitted request holds after
every run of permitted requests. Whether a request is permitted may depend on the log so far. -/
theorem history_invariant {Inv : List ε → σ → Prop} {P : List ε → σ → ι → Prop} {s : σ}
    (hinit : Inv [] s)
    (hserve : ∀ log s r, Inv log s → P log s r → Inv (log ++ [(serve r s).1]) (serve r s).2)
    (requests : List ι)
    (hP : ∀ before r after, requests = before ++ r :: after →
      P (history serve before s).1 (history serve before s).2 r) :
    Inv (history serve requests s).1 (history serve requests s).2 := by
  induction requests using List.reverseRecOn with
  | nil => exact hinit
  | append_singleton requests r ih =>
      rw [history_snoc]
      refine hserve _ _ r (ih fun before r' after h => ?_) (hP requests r [] rfl)
      refine hP before r' (after ++ [r]) ?_
      rw [h, List.append_assoc, List.cons_append]

end Interaction
