import AccountService.ModelCalls
import AccountService.RepositorySpec

/-! Requests in flight at the same time. The stages of a `RefreshToken`: before its check, between the
check and the deletion of the old session, and after the deletion. -/

namespace AccountService

open AuthService Interaction

/-- A request in flight. -/
abbrev Thread := Action (Outcome Answer)

/-- Requests in flight over one world. -/
abbrev Concurrent := System Service World (Outcome Answer)

/-- Time passes. -/
def passTime (delay : Nat) (w : World) : World := { w with clock := w.clock + delay }

/-- The requests after a schedule, in which time may pass between two commands. -/
abbrev interleave (schedule : List (Move Nat)) (s : Concurrent) : Concurrent :=
  System.play exec passTime schedule s

theorem clock_interleave_le (schedule : List (Move Nat)) (s : Concurrent) :
    s.shared.clock ≤ (interleave schedule s).shared.clock := by
  refine System.play_always exec passTime (I := fun s' => s.shared.clock ≤ s'.shared.clock) ?_ schedule s le_rfl
  intro s' m hle
  rcases System.move_cases exec passTime m s' with ⟨i, c, next, -, -, hmove⟩ | ⟨delay, -, hmove⟩ | ⟨i, -, -, hmove⟩
  · rw [hmove]
    exact hle.trans_eq (exec_clock _ _).symm
  · rw [hmove]
    exact hle.trans (Nat.le_add_right _ _)
  · rw [hmove]
    exact hle

theorem forall_mem_set {P : Thread → Prop} {threads : List Thread} {i : Nat} {p' : Thread}
    (h : ∀ p ∈ threads, P p) (hp' : P p') : ∀ p ∈ threads.set i p', P p := by
  intro p hp
  rcases List.mem_or_eq_of_mem_set hp with hp | rfl
  · exact h p hp
  · exact hp'

/-- The thread has returned `Ok`. -/
def Thread.Accepted (p : Thread) : Prop := ∃ o, p = .done o ∧ o.isOk = true

/-- Whether thread `i` has returned `Ok`. -/
def acceptedAt (s : Concurrent) (i : Nat) : Bool := (s.threads[i]?.bind Program.result?).any (·.isOk)

theorem accepted_of_acceptedAt {s : Concurrent} {i : Nat} (h : acceptedAt s i = true) :
    ∃ p : Thread, s.threads[i]? = some p ∧ p.Accepted := by
  unfold acceptedAt at h
  cases hi : s.threads[i]? with
  | none =>
      rw [hi] at h
      cases h
  | some p =>
      rw [hi] at h
      cases p with
      | done o => exact ⟨_, rfl, o, rfl, h⟩
      | call c next => cases h

/-! ### Stages -/

/-- After the deletion: the clock is read and the new session is inserted. -/
def Cmd.IsRenewal (owner : Int → Prop) : Cmd → Prop
  | .now => True
  | .sql (.insertSession userId _ _) => owner userId
  | _ => False

/-- Before the check: nothing is written. -/
def Cmd.IsPrelude : Cmd → Prop
  | .now | .sql (.selectUserById _) => True
  | _ => False

section Stages

variable (owner : Int → Prop) (hash : Bytes)

/-- The old session has been deleted. -/
def Late (p : Thread) : Prop := Program.Uses (Cmd.IsRenewal owner) p

/-- The old session was valid and is deleted next. -/
def Checked (p : Thread) : Prop :=
  ∃ next, p = .call (.sql (.deleteSessionByHash hash)) next ∧ ∀ reply, Late owner (next reply)

/-- What follows the check: a positive answer leads to the deletion, any other one to a failure. -/
def AfterCheck (next : Except SqlError Bool → Thread) : Prop :=
  Checked owner hash (next (.ok true)) ∧
    ∀ reply, reply ≠ .ok true → ∃ o, next reply = .done o ∧ o.isOk = false

/-- The session has not been checked. -/
def Early : Thread → Prop
  | .done o => o.isOk = false
  | .call (.sql (.selectValidSession h)) next => h = hash ∧ AfterCheck owner hash next
  | .call c next => c.IsPrelude ∧ ∀ reply, Early (next reply)

end Stages

section Stages

variable {owner : Int → Prop} {hash : Bytes}

theorem early_prelude {c : Cmd} (hc : c.IsPrelude) {next : Service.Reply c → Thread}
    (h : ∀ reply, Early owner hash (next reply)) : Early owner hash (.call c next) := by
  cases c with
  | now => exact ⟨hc, h⟩
  | redis c => cases hc
  | sql s =>
      cases s with
      | selectUserById id => exact ⟨hc, h⟩
      | _ => cases hc

/-- A thread that has not been checked has failed, or checks next, or does something that leaves no
trace. -/
theorem Early.cases {p : Thread} (h : Early owner hash p) :
    (∃ o, p = .done o ∧ o.isOk = false) ∨
    (∃ next, p = .call (.sql (.selectValidSession hash)) next ∧ AfterCheck owner hash next) ∨
    ∃ c next, p = .call c next ∧ c.IsPrelude ∧ ∀ reply, Early owner hash (next reply) := by
  cases p with
  | done o => exact Or.inl ⟨o, rfl, h⟩
  | call c next =>
      refine Or.inr ?_
      cases c with
      | now => exact Or.inr ⟨_, _, rfl, h⟩
      | redis c => exact absurd h.1 id
      | sql s =>
          cases s with
          | selectValidSession h' =>
              obtain ⟨rfl, hafter⟩ := h
              exact Or.inl ⟨_, rfl, hafter⟩
          | selectUserById id => exact Or.inr ⟨_, _, rfl, h⟩
          | _ => exact absurd h.1 id

theorem early_findById {id : Int} {next : Result UserEntity → Thread}
    (h : ∀ r, Early owner hash (next r)) : Early owner hash (UserDB.findById id >>= next) := by
  refine early_prelude (c := .sql (.selectUserById id)) trivial fun reply => ?_
  cases reply <;> exact h _

theorem early_isTokenValid {next : Result Bool → Thread} (htrue : Checked owner hash (next (.ok true)))
    (hfail : ∀ r, r ≠ .ok true → ∃ o, next r = .done o ∧ o.isOk = false) :
    Early owner hash (TokenRepository.isTokenValid hash >>= next) := by
  refine ⟨rfl, htrue, fun reply hreply => ?_⟩
  cases reply with
  | error e =>
      refine hfail (failPlain .serviceUnavailable) fun h => ?_
      cases h
  | ok valid =>
      refine hfail (.ok valid) fun h => ?_
      cases h
      exact hreply rfl

theorem Checked.not_early {p : Thread} (h : Checked owner hash p) : ¬Early owner hash p := by
  obtain ⟨next, rfl, -⟩ := h
  exact fun hearly => hearly.1

theorem Early.not_accepted {p : Thread} (h : Early owner hash p) : ¬p.Accepted := by
  rintro ⟨o, rfl, hok⟩
  rw [show o.isOk = false from h] at hok
  cases hok

end Stages

theorem late_renew (env : Env) (draws : Draws) {owner : Int → Prop} {userId : Int} (howner : owner userId)
    (user : UserEntity) {next : Result TokenPair → Thread} (hnext : ∀ r, ∃ o, next r = .done o) :
    Late owner ((do
      let newTokens ← JwtService.generateTokenPair env draws user
      let _ ← storeRefreshToken env userId newTokens.refreshToken
      return (.ok newTokens : Result TokenPair)) >>= next) := by
  have hdone : ∀ r, Program.Uses (Cmd.IsRenewal owner) (next r) := fun r => by
    obtain ⟨o, ho⟩ := hnext r
    rw [ho]
    trivial
  refine Program.Uses.bind ?_ hdone
  refine Program.Uses.bind ⟨trivial, fun _ => ⟨trivial, fun _ => trivial⟩⟩ fun tokens => ?_
  refine Program.Uses.bind ⟨trivial, fun t => ⟨howner, fun reply => ?_⟩⟩ fun _ => trivial
  rcases reply with (_ | _) | _ <;> trivial

/-- **Start.** A `RefreshToken` starts before its check. -/
theorem early_refreshToken (env : Env) (draws : Draws) (token : Bytes) {owner : Int → Prop}
    (howner : ∀ now text id, parseRefreshToken env.crypto env.config.security now token = .ok text →
      stoll text = some id → owner id) :
    Early owner (hashToken env.crypto token) (handle env draws (.refreshToken token)) := by
  show Early owner _ (refreshToken env draws token >>= fun o => pure (o.map .tokens))
  unfold refreshToken
  by_cases hnil : token = []
  · rw [if_pos hnil]
    exact rfl
  · rw [if_neg hnil]
    refine early_prelude (c := .now) trivial fun t => ?_
    show Early owner _ (refreshAt env draws token t >>= fun o => pure (o.map .tokens))
    unfold refreshAt
    cases hparse : parseRefreshToken env.crypto env.config.security t token with
    | fail code message => exact rfl
    | ok text =>
        simp only
        cases hid : stoll text with
        | none => exact rfl
        | some id =>
            simp only [refreshSession, Program.bind_assoc]
            refine early_findById fun r => ?_
            cases r with
            | fail code message => exact rfl
            | ok user =>
                rw [orFail_ok]
                by_cases hdis : user.disabled = true
                · rw [if_pos hdis]
                  exact rfl
                · rw [if_neg hdis, Program.bind_assoc]
                  refine early_isTokenValid ?_ ?_
                  · refine ⟨_, rfl, fun reply => ?_⟩
                    cases reply <;> exact late_renew env draws (howner t text id hparse hid) user fun r => ⟨_, rfl⟩
                  · intro r hr
                    rcases r with (_ | _) | ⟨code, message⟩
                    · exact ⟨_, rfl, rfl⟩
                    · exact absurd rfl hr
                    · exact ⟨_, rfl, rfl⟩

end AccountService
