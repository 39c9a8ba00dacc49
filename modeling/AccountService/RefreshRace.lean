import AccountService.DatabaseSpec
import AccountService.RefreshStages

/-! Several `RefreshToken` with the same token at the same time. The check and the deletion are two
statements, and the number of deleted rows is not looked at: two requests that both check before either
deletes are both accepted. -/

namespace AccountService

open AuthService Interaction

/-- The requests. -/
def refreshThreads (env : Env) (token : Bytes) (draws : List Draws) : List Thread :=
  draws.map fun d => handle env d (.refreshToken token)

/-- At most one request has been accepted. -/
def AtMostOneAccepted (s : Concurrent) : Prop :=
  ∀ (i j : Nat) (p q : Thread), s.threads[i]? = some p → s.threads[j]? = some q →
    p.Accepted → q.Accepted → i = j

/-- The command stores a session with the hash. -/
def Cmd.Stores (hash : Bytes) : Cmd → Prop
  | .sql (.insertSession _ h _) => h = hash
  | _ => False

instance (hash : Bytes) (c : Cmd) : Decidable (c.Stores hash) := by
  unfold Cmd.Stores
  split <;> infer_instance

/-- The condition on a step: the check of the session is not made while another request that has passed it
is about to delete the session, and no new session gets the hash of the token. -/
def ChecksAlone (hash : Bytes) (s : Concurrent) : Move Nat → Prop
  | .outside _ => True
  | .thread i => ∀ c ∈ s.pending i,
      (c = .sql (.selectValidSession hash) →
        ∀ q ∈ s.threads, q.next? ≠ some (.sql (.deleteSessionByHash hash))) ∧ ¬c.Stores hash

instance (hash : Bytes) (s : Concurrent) (m : Move Nat) : Decidable (ChecksAlone hash s m) := by
  unfold ChecksAlone
  split <;> infer_instance

section Invariant

variable (hash : Bytes)

/-- No session has the hash. -/
def NoSession (w : World) : Prop := ∀ r ∈ w.db.sessions, r.tokenHash ≠ hash

/-- Where a request is; one that has deleted the session finds it gone. -/
def Staged (w : World) (p : Thread) : Prop :=
  Early (fun _ => True) hash p ∨ Checked (fun _ => True) hash p ∨
    Late (fun _ => True) p ∧ NoSession hash w

/-- The invariant: at most one request is past its check. -/
structure OneWinner (s : Concurrent) : Prop where
  faults : s.shared.sqlFaults = []
  staged : ∀ (i : Nat) (p : Thread), s.threads[i]? = some p → Staged hash s.shared p
  unique : ∀ (i j : Nat) (p q : Thread), s.threads[i]? = some p → s.threads[j]? = some q →
    ¬Early (fun _ => True) hash p → ¬Early (fun _ => True) hash q → i = j

end Invariant

section Step

variable {hash : Bytes} {s : Concurrent}

/-- What a step of thread `i` has to show. -/
theorem OneWinner.step (h : OneWinner hash s) {i : Nat} {p p' : Thread} {w' : World}
    (hi : s.threads[i]? = some p) (hfaults : w'.sqlFaults = [])
    (hgone : NoSession hash s.shared → NoSession hash w') (hstaged : Staged hash w' p')
    (hpast : Early (fun _ => True) hash p' ∨ ¬Early (fun _ => True) hash p ∨
      ∀ (j : Nat) (q : Thread), s.threads[j]? = some q → Early (fun _ => True) hash q) :
    OneWinner hash ⟨w', s.threads.set i p'⟩ := by
  refine ⟨hfaults, ?_, ?_⟩
  · intro j q hj
    rcases System.getElem?_set_cases hj with ⟨-, rfl⟩ | ⟨-, hj⟩
    · exact hstaged
    · rcases h.staged j q hj with hq | hq | ⟨hq, hnone⟩
      · exact Or.inl hq
      · exact Or.inr (Or.inl hq)
      · exact Or.inr (Or.inr ⟨hq, hgone hnone⟩)
  · -- a request that is past its check now was so before, or nobody else is
    intro j k q r hj hk hq hr
    rcases System.getElem?_set_cases hj with ⟨rfl, rfl⟩ | ⟨-, hj'⟩
    · rcases System.getElem?_set_cases hk with ⟨rfl, -⟩ | ⟨-, hk⟩
      · rfl
      · rcases hpast with hearly | hp | hall
        · exact absurd hearly hq
        · exact h.unique _ _ _ _ hi hk hp hr
        · exact absurd (hall k r hk) hr
    · rcases System.getElem?_set_cases hk with ⟨rfl, rfl⟩ | ⟨-, hk⟩
      · rcases hpast with hearly | hp | hall
        · exact absurd hearly hr
        · exact h.unique _ _ _ _ hj' hi hq hp
        · exact absurd (hall j q hj') hq
      · exact h.unique _ _ _ _ hj' hk hq hr

/-- A step before the check. -/
theorem OneWinner.early (h : OneWinner hash s) {i : Nat} {c : Cmd} {next : Service.Reply c → Thread}
    (hi : s.threads[i]? = some (.call c next)) (hearly : Early (fun _ => True) hash (.call c next))
    (hguard : ChecksAlone hash s (.thread i)) :
    OneWinner hash ⟨(exec c s.shared).2, s.threads.set i (next (exec c s.shared).1)⟩ := by
  rcases hearly.cases with ⟨o, ho, -⟩ | ⟨next', hp, htrue, hfail⟩ | ⟨c', next', hp, hc, hnext⟩
  · cases ho
  · cases hp
    have halone := (hguard _ (System.pending_of_call hi)).1 rfl
    have hexec : exec (.sql (.selectValidSession hash)) s.shared = _ :=
      execSql_eq h.faults (.selectValidSession hash)
    rw [hexec]
    by_cases hreply : (SqlStmt.selectValidSession hash).apply (toTimeT s.shared.clock) s.shared.db =
        (.ok true, s.shared.db)
    · rw [hreply]
      -- a positive answer: no other request has passed the check
      refine h.step hi h.faults id (Or.inr (Or.inl htrue)) (Or.inr (Or.inr fun j q hj => ?_))
      rcases h.staged j q hj with hq | ⟨next, rfl, -⟩ | ⟨-, hnone⟩
      · exact hq
      · exact absurd rfl (halone _ (List.mem_of_getElem? hj))
      · exfalso
        have hany : (s.shared.db.sessions.any fun r =>
            r.tokenHash = hash ∧ toTimeT s.shared.clock < r.expiresAt) = true := by
          simpa [SqlStmt.apply] using hreply
        obtain ⟨r, hr, hhash⟩ := List.any_eq_true.mp hany
        simp only [decide_eq_true_eq] at hhash
        exact hnone r hr hhash.1
    · obtain ⟨o, ho, hok⟩ := hfail ((SqlStmt.selectValidSession hash).apply (toTimeT s.shared.clock)
        s.shared.db).1 fun heq => hreply (Prod.ext heq rfl)
      rw [ho]
      have hdone : Early (fun _ => True) hash (.done o : Thread) := hok
      exact h.step hi h.faults id (Or.inl hdone) (Or.inl hdone)
  · cases hp
    have hframe : (exec c s.shared).2.sqlFaults = [] ∧ (exec c s.shared).2.db = s.shared.db := by
      cases c with
      | now => exact ⟨h.faults, rfl⟩
      | redis c => cases hc
      | sql stmt =>
          cases stmt with
          | selectUserById id =>
              have hexec : exec (.sql (.selectUserById id)) s.shared = _ :=
                execSql_eq h.faults (.selectUserById id)
              rw [hexec]
              exact ⟨h.faults, rfl⟩
          | _ => cases hc
    have hgone : NoSession hash s.shared → NoSession hash (exec c s.shared).2 := by
      intro hnone
      rw [NoSession, hframe.2]
      exact hnone
    exact h.step hi hframe.1 hgone (Or.inl (hnext _)) (Or.inl (hnext _))

/-- The deletion of the old session. -/
theorem OneWinner.checked (h : OneWinner hash s) {i : Nat} {c : Cmd} {next : Service.Reply c → Thread}
    (hi : s.threads[i]? = some (.call c next)) (hchecked : Checked (fun _ => True) hash (.call c next)) :
    OneWinner hash ⟨(exec c s.shared).2, s.threads.set i (next (exec c s.shared).1)⟩ := by
  have hpast := hchecked.not_early
  obtain ⟨next', hp, hlate⟩ := hchecked
  cases hp
  have hexec : exec (.sql (.deleteSessionByHash hash)) s.shared = _ :=
    execSql_eq h.faults (.deleteSessionByHash hash)
  have hnone : NoSession hash (exec (.sql (.deleteSessionByHash hash)) s.shared).2 := by
    rw [hexec]
    intro r hr
    simpa using (List.mem_filter.mp hr).2
  refine h.step hi ?_ (fun _ => hnone) (Or.inr (Or.inr ⟨hlate _, hnone⟩)) (Or.inr (Or.inl hpast))
  rw [hexec]
  exact h.faults

/-- A step after the deletion. -/
theorem OneWinner.late (h : OneWinner hash s) {i : Nat} {c : Cmd} {next : Service.Reply c → Thread}
    (hi : s.threads[i]? = some (.call c next)) (hlate : Late (fun _ => True) (.call c next))
    (hnone : NoSession hash s.shared) (hpast : ¬Early (fun _ => True) hash (.call c next))
    (hguard : ChecksAlone hash s (.thread i)) :
    OneWinner hash ⟨(exec c s.shared).2, s.threads.set i (next (exec c s.shared).1)⟩ := by
  obtain ⟨hc, hnext⟩ := hlate
  have hframe : (exec c s.shared).2.sqlFaults = [] ∧ NoSession hash (exec c s.shared).2 := by
    cases c with
    | now => exact ⟨h.faults, hnone⟩
    | redis c => cases hc
    | sql stmt =>
        cases stmt with
        | insertSession userId tokenHash expiresAt =>
            have hexec : exec (.sql (.insertSession userId tokenHash expiresAt)) s.shared = _ :=
              execSql_eq h.faults (.insertSession userId tokenHash expiresAt)
            have hne : tokenHash ≠ hash := by
              rintro rfl
              exact (hguard _ (System.pending_of_call hi)).2 rfl
            rw [hexec]
            refine ⟨h.faults, fun r hr => ?_⟩
            rcases SqlStmt.apply_sessions_origin hr with hr | hr
            · exact hnone r hr
            · cases hr
              exact hne
        | _ => cases hc
  exact h.step hi hframe.1 (fun _ => hframe.2) (Or.inr (Or.inr ⟨hnext _, hframe.2⟩)) (Or.inr (Or.inl hpast))

/-- **Step.** A permitted move keeps the invariant. -/
theorem OneWinner.move (h : OneWinner hash s) (m : Move Nat) (hguard : ChecksAlone hash s m) :
    OneWinner hash (System.move exec passTime m s) := by
  rcases System.move_cases exec passTime m s with ⟨i, c, next, rfl, hi, hmove⟩ | ⟨delay, rfl, hmove⟩ |
    ⟨i, -, -, hmove⟩
  · rw [hmove]
    by_cases hearly : Early (fun _ => True) hash (.call c next : Thread)
    · exact h.early hi hearly hguard
    · rcases h.staged i _ hi with hp | hp | ⟨hp, hnone⟩
      · exact absurd hp hearly
      · exact h.checked hi hp
      · exact h.late hi hp hnone hearly hguard
  · rw [hmove]
    exact ⟨h.faults, h.staged, h.unique⟩
  · rw [hmove]
    exact h

end Step

/-- **Single use, alone.** If every step of a schedule meets `ChecksAlone`, at most one of the requests
with the same token has been accepted after it. -/
theorem refresh_single_use (env : Env) (token : Bytes) (draws : List Draws) (w : World)
    (hw : w.sqlFaults = []) (schedule : List (Move Nat))
    (hguard : System.Meets exec passTime (ChecksAlone (hashToken env.crypto token)) schedule
      ⟨w, refreshThreads env token draws⟩) :
    AtMostOneAccepted (interleave schedule ⟨w, refreshThreads env token draws⟩) := by
  have hstart : ∀ (i : Nat) (p : Thread), (refreshThreads env token draws)[i]? = some p →
      Early (fun _ => True) (hashToken env.crypto token) p := by
    intro i p hi
    obtain ⟨d, -, rfl⟩ := List.mem_map.mp (List.mem_of_getElem? hi)
    exact early_refreshToken env d token fun _ _ _ _ _ => trivial
  have hinit : OneWinner (hashToken env.crypto token) ⟨w, refreshThreads env token draws⟩ :=
    ⟨hw, fun i p hi => Or.inl (hstart i p hi), fun i j p q hi _ hp _ => absurd (hstart i p hi) hp⟩
  have hinv := System.play_invariant exec passTime (fun s m h hm => h.move m hm) schedule _ hinit hguard
  intro i j p q hi hj hp hq
  exact hinv.unique i j p q hi hj (fun h => h.not_accepted hp) (fun h => h.not_accepted hq)

/-! ### A race -/

/-- A registration. -/
def signUpCalls : List Call :=
  [.sample 0 (.sendVerifyCode (ascii "13800138000") .register),
    .sample 1 (.register (ascii "13800138000") (ascii "123456") (ascii "Password123") (ascii "A"))]

/-- The world after the registration, and the refresh token that it handed out. -/
def signedUp : World := (history (serve defaultEnv) signUpCalls (emptyWorld 0)).2

def firstToken : Bytes :=
  ((history (serve defaultEnv) signUpCalls (emptyWorld 0)).1.getLast?.bind Event.issued?).getD []

/-- Draws that differ in the `jti` of the refresh token. -/
def drawsWith (jti : Jti) : Draws := { (Call.sample 0 .cleanExpiredTokens).draws with refreshJti := jti }

def earlierDraws : Draws := drawsWith ⟨200000, by decide⟩

def laterDraws : Draws := drawsWith ⟨300000, by decide⟩

def racingDraws : List Draws := [earlierDraws, laterDraws]

/-- Two requests with the token. -/
def racing : Concurrent := ⟨signedUp, refreshThreads defaultEnv firstToken racingDraws⟩

/-- Each makes its check before the other one deletes the session. -/
def racingSchedule : List (Move Nat) :=
  List.replicate 3 (.thread 0) ++ List.replicate 3 (.thread 1) ++ List.replicate 5 (.thread 0) ++
    List.replicate 5 (.thread 1)

theorem refresh_used_twice : ¬AtMostOneAccepted (interleave racingSchedule racing) := by
  have hboth : (acceptedAt (interleave racingSchedule racing) 0 &&
      acceptedAt (interleave racingSchedule racing) 1) = true := by
    decide +kernel
  simp only [Bool.and_eq_true] at hboth
  obtain ⟨p, hp, hpa⟩ := accepted_of_acceptedAt hboth.1
  obtain ⟨q, hq, hqa⟩ := accepted_of_acceptedAt hboth.2
  intro h
  exact absurd (h 0 1 p q hp hq hpa hqa) (by decide)

/-- One request after the other. -/
def politeSchedule : List (Move Nat) := List.replicate 8 (.thread 0) ++ List.replicate 8 (.thread 1)

theorem refresh_single_use_sample : AtMostOneAccepted (interleave politeSchedule racing) := by
  have hguard : System.Meets exec passTime (ChecksAlone (hashToken .openssl firstToken)) politeSchedule
      racing := by
    decide +kernel
  exact refresh_single_use defaultEnv firstToken racingDraws signedUp rfl politeSchedule hguard

end AccountService
