import AccountService.DatabaseSpec
import AccountService.RefreshRace
import AccountService.RequestFrame
import AccountService.TokenRoundTrip

/-! `RefreshToken` at the same time as `ResetPassword`, `LogoutAll` or `SetUserDisabled`. The bulk deletion
of the sessions may fall between the check of a `RefreshToken` and its insertion: the new session then
outlives the revocation. -/

namespace AccountService

open AuthService Interaction

/-- The requests in flight, each with what it draws. -/
def requestThreads (env : Env) (requests : List (Draws × Request)) : List Thread :=
  requests.map fun r => handle env r.1 r.2

/-- The request starts a session without a refresh token. -/
def Request.SignsIn : Request → Prop
  | .register _ _ _ _ | .loginByPassword _ _ | .loginByCode _ _ => True
  | _ => False

/-- The request is meant to end all sessions of its user. -/
def Request.Revokes : Request → Prop
  | .resetPassword _ _ _ | .logoutAll _ | .setUserDisabled _ true => True
  | _ => False

/-- The rows on which the request does nothing and returns `Ok`. -/
def Request.Skips : Request → UserEntity → Prop
  | .setUserDisabled _ disabled, row => row.disabled = disabled
  | _, _ => False

/-- The request is about the user with this id. -/
def Request.IsAbout (userId : Int) (db : Database) (request : Request) : Prop :=
  ∀ account ∈ request.account?, ∀ row ∈ db.users, account.Names db row → row.id = userId

/-- The token names the user, and so does the session that is stored for it. -/
structure TokenOf (env : Env) (db : Database) (userId : Int) (token : Bytes) : Prop where
  names : ∀ now text id, parseRefreshToken env.crypto env.config.security now token = .ok text →
    stoll text = some id → id = userId
  stored : ∀ r ∈ db.sessions, r.tokenHash = hashToken env.crypto token → r.userId = userId

/-- The thread may store a session without a further check. -/
def MayInsert : Thread → Prop
  | .done _ => False
  | .call (.sql (.insertSession _ _ _)) _ => True
  | .call (.sql (.selectValidSession _)) _ => False
  | .call _ next => ∃ reply, MayInsert (next reply)

/-- No thread is between its check and its insertion. -/
def Quiet (s : Concurrent) : Prop := ∀ p ∈ s.threads, ¬MayInsert p

/-- The user has no session. -/
def NoSessionOf (userId : Int) (w : World) : Prop := ∀ r ∈ w.db.sessions, r.userId ≠ userId

/-- The condition on a step of the revoking request, thread `k`: no other request is between its check and
its insertion when the sessions are deleted; and if the request finds nothing to do, there is neither a
session nor such a request. -/
def RevokesAlone (userId : Int) (revoker : Request) (k : Nat) (s : Concurrent) (m : Move Nat) : Prop :=
  m = .thread k →
    (.sql (.deleteSessionsByUser userId) ∈ s.pending k → Quiet s) ∧
    ∀ uuid, .sql (.selectUserByUuid uuid) ∈ s.pending k →
      ∀ row ∈ s.shared.db.users.find? (s.shared.db.sameUuid ·.uuid uuid), revoker.Skips row →
        Quiet s ∧ NoSessionOf userId s.shared

/-- The command adds no user, and sessions only for the owners. -/
def Cmd.AddsFor (owner : Int → Prop) : Cmd → Prop
  | .sql (.insertUser _ _ _ _ _) => False
  | .sql (.insertSession userId _ _) => owner userId
  | _ => True

/-- The command adds neither a user nor a session. -/
abbrev Cmd.AddsNothing : Cmd → Prop := Cmd.AddsFor fun _ => False

theorem Cmd.AddsNothing.addsFor {c : Cmd} (h : c.AddsNothing) (owner : Int → Prop) : c.AddsFor owner := by
  cases c with
  | sql s =>
      cases s with
      | insertSession _ _ _ => cases h
      | _ => exact h
  | _ => exact h

theorem Cmd.IsRenewal.addsFor {owner : Int → Prop} {c : Cmd} (h : c.IsRenewal owner) : c.AddsFor owner := by
  cases c with
  | sql s =>
      cases s with
      | insertSession _ _ _ => exact h
      | _ => cases h
  | _ => trivial

theorem Cmd.IsPrelude.addsNothing {c : Cmd} (h : c.IsPrelude) : c.AddsNothing := by
  cases c with
  | sql s =>
      cases s with
      | selectUserById _ => trivial
      | _ => cases h
  | _ => trivial

theorem not_mayInsert_next {c : Cmd} {next : Service.Reply c → Thread} (h : ¬MayInsert (.call c next))
    (hcheck : ∀ hash, c ≠ .sql (.selectValidSession hash)) (reply : Service.Reply c) :
    ¬MayInsert (next reply) := by
  cases c with
  | now => exact fun hr => h ⟨reply, hr⟩
  | redis c => exact fun hr => h ⟨reply, hr⟩
  | sql s =>
      cases s with
      | insertSession _ _ _ => exact absurd trivial h
      | selectValidSession hash => exact absurd rfl (hcheck hash)
      | _ => exact fun hr => h ⟨reply, hr⟩

theorem not_mayInsert_of_uses {p : Thread} (h : Program.Uses Cmd.AddsNothing p) : ¬MayInsert p := by
  induction p with
  | done o => exact id
  | call c next ih =>
      have hnext : ∀ reply, ¬MayInsert (next reply) := fun reply => ih reply (h.2 reply)
      cases c with
      | now => exact fun ⟨reply, hr⟩ => hnext reply hr
      | redis c => exact fun ⟨reply, hr⟩ => hnext reply hr
      | sql s =>
          cases s with
          | insertSession _ _ _ => cases h.1
          | selectValidSession _ => exact id
          | _ => exact fun ⟨reply, hr⟩ => hnext reply hr

theorem Early.not_mayInsert {owner : Int → Prop} {hash : Bytes} {p : Thread} (h : Early owner hash p) :
    ¬MayInsert p := by
  induction p with
  | done o => exact id
  | call c next ih =>
      rcases h.cases with ⟨o, ho, -⟩ | ⟨next', hp, -⟩ | ⟨c', next', hp, hc, hnext⟩
      · cases ho
      · cases hp
        exact id
      · cases hp
        cases c with
        | now => exact fun ⟨reply, hr⟩ => ih reply (hnext reply) hr
        | redis c => cases hc
        | sql s =>
            cases s with
            | selectUserById _ => exact fun ⟨reply, hr⟩ => ih reply (hnext reply) hr
            | _ => cases hc

section Requests

variable (userId : Int) (hashes : Bytes → Prop)

/-- Where a request is: it adds nothing, or it is a `RefreshToken` with a token of the user. -/
def SessionStage (p : Thread) : Prop :=
  Program.Uses Cmd.AddsNothing p ∨ Late (· = userId) p ∨
    ∃ hash, hashes hash ∧ (Early (· = userId) hash p ∨ Checked (· = userId) hash p)

/-- Sessions are stored for the user only, and the sessions with the hashes are the user's. -/
structure OfUser (s : Concurrent) : Prop where
  faults : s.shared.sqlFaults = []
  stored : ∀ r ∈ s.shared.db.sessions, hashes r.tokenHash → r.userId = userId
  staged : ∀ p ∈ s.threads, SessionStage userId hashes p

/-- The sessions of the user have ended, and no request is about to store one. -/
structure Revoked (s : Concurrent) : Prop where
  none : NoSessionOf userId s.shared
  quiet : Quiet s

end Requests

section Requests

variable {userId : Int} {hashes : Bytes → Prop}

/-- A step of a request leads to the next stage, and a session that it stores is the user's. -/
theorem SessionStage.step {c : Cmd} {next : Service.Reply c → Thread}
    (h : SessionStage userId hashes (.call c next)) :
    c.AddsFor (· = userId) ∧ ∀ reply, SessionStage userId hashes (next reply) := by
  rcases h with ⟨hc, hnext⟩ | ⟨hc, hnext⟩ | ⟨hash, hhash, hearly | ⟨next', hp, hlate⟩⟩
  · exact ⟨Cmd.AddsNothing.addsFor hc _, fun reply => Or.inl (hnext reply)⟩
  · exact ⟨hc.addsFor, fun reply => Or.inr (Or.inl (hnext reply))⟩
  · rcases hearly.cases with ⟨o, ho, -⟩ | ⟨next', hp, htrue, hfail⟩ | ⟨c', next', hp, hc, hnext⟩
    · cases ho
    · cases hp
      refine ⟨trivial, fun reply => ?_⟩
      by_cases hreply : reply = .ok true
      · rw [hreply]
        exact Or.inr (Or.inr ⟨hash, hhash, Or.inr htrue⟩)
      · obtain ⟨o, ho, -⟩ := hfail reply hreply
        rw [ho]
        exact Or.inl trivial
    · cases hp
      exact ⟨hc.addsNothing.addsFor _, fun reply => Or.inr (Or.inr ⟨hash, hhash, Or.inl (hnext reply)⟩)⟩
  · cases hp
    exact ⟨trivial, fun reply => Or.inr (Or.inl (hlate reply))⟩

/-- The sessions after a command. -/
theorem exec_sessions_origin {owner : Int → Prop} {c : Cmd} (hc : c.AddsFor owner) {w : World}
    {r : TokenSession} (hr : r ∈ (exec c w).2.db.sessions) :
    r ∈ w.db.sessions ∨ owner r.userId ∧ ∃ hash expiresAt, c = .sql (.insertSession r.userId hash expiresAt) := by
  cases c with
  | now => exact Or.inl hr
  | redis c =>
      rw [exec_redis_db] at hr
      exact Or.inl hr
  | sql s =>
      rcases execSql_cases w s with ⟨-, hdb⟩ | ⟨-, hdb⟩
      · rw [exec, hdb] at hr
        exact Or.inl hr
      · rw [exec, hdb] at hr
        rcases SqlStmt.apply_sessions_origin hr with hr | hs
        · exact Or.inl hr
        · rw [hs] at hc
          exact Or.inr ⟨hc, _, _, by rw [hs]⟩

/-- **Step.** Every move keeps the sessions and the requests those of the user. -/
theorem OfUser.move {s : Concurrent} (h : OfUser userId hashes s) (m : Move Nat) :
    OfUser userId hashes (System.move exec passTime m s) := by
  rcases System.move_cases exec passTime m s with ⟨i, c, next, rfl, hi, hmove⟩ | ⟨delay, rfl, hmove⟩ |
    ⟨i, -, -, hmove⟩
  · obtain ⟨hc, hnext⟩ := (h.staged _ (List.mem_of_getElem? hi)).step
    rw [hmove]
    refine ⟨exec_sqlFaults h.faults c, ?_, ?_⟩
    · intro r hr hhash
      rcases exec_sessions_origin hc hr with hr | ⟨howner, -⟩
      · exact h.stored r hr hhash
      · exact howner
    · intro p hp
      rcases List.mem_or_eq_of_mem_set hp with hp | rfl
      · exact h.staged p hp
      · exact hnext _
  · rw [hmove]
    exact ⟨h.faults, h.stored, h.staged⟩
  · rw [hmove]
    exact h

/-- Without a session of the user, the check of a `RefreshToken` fails. -/
theorem check_fails {s : Concurrent} (h : OfUser userId hashes s) (hnone : NoSessionOf userId s.shared)
    {hash : Bytes} (hhash : hashes hash) :
    exec (.sql (.selectValidSession hash)) s.shared = (.ok false, s.shared) := by
  have hexec : exec (.sql (.selectValidSession hash)) s.shared = _ :=
    execSql_eq h.faults (.selectValidSession hash)
  have hany : (s.shared.db.sessions.any fun r =>
      r.tokenHash = hash ∧ toTimeT s.shared.clock < r.expiresAt) = false := by
    rw [List.any_eq_false]
    intro r hr hvalid
    simp only [decide_eq_true_eq] at hvalid
    exact hnone r hr (h.stored r hr (hvalid.1 ▸ hhash))
  rw [hexec]
  simp only [SqlStmt.apply, hany]

/-- Without a session of the user, a `RefreshToken` does not get past its check. -/
theorem Early.refused {s : Concurrent} (h : OfUser userId hashes s) (hnone : NoSessionOf userId s.shared)
    {hash : Bytes} (hhash : hashes hash) {c : Cmd} {next : Service.Reply c → Thread}
    (hearly : Early (· = userId) hash (.call c next)) :
    Early (· = userId) hash (next (exec c s.shared).1) := by
  rcases hearly.cases with ⟨o, ho, -⟩ | ⟨next', hp, -, hfail⟩ | ⟨c', next', hp, -, hnext⟩
  · cases ho
  · cases hp
    obtain ⟨o, ho, hok⟩ := hfail (.ok false) fun heq => by cases heq
    rw [check_fails h hnone hhash, ho]
    exact hok
  · cases hp
    exact hnext _

/-- A request that does not store a session does not come to do so. -/
theorem quiet_step {s : Concurrent} (h : OfUser userId hashes s) (hnone : NoSessionOf userId s.shared)
    {c : Cmd} {next : Service.Reply c → Thread} (hstage : SessionStage userId hashes (.call c next))
    (hquiet : ¬MayInsert (.call c next)) : ¬MayInsert (next (exec c s.shared).1) := by
  rcases hstage with huses | ⟨hc, -⟩ | ⟨hash, hhash, hearly | ⟨next', hp, -⟩⟩
  · exact not_mayInsert_of_uses (huses.2 _)
  · refine not_mayInsert_next hquiet (fun hash heq => ?_) _
    rw [heq] at hc
    exact hc
  · exact (hearly.refused h hnone hhash).not_mayInsert
  · cases hp
    exact not_mayInsert_next hquiet (fun hash heq => by cases heq) _

/-- **Step.** A revocation lasts. -/
theorem Revoked.move {s : Concurrent} (h : Revoked userId s) (hs : OfUser userId hashes s) (m : Move Nat) :
    Revoked userId (System.move exec passTime m s) := by
  rcases System.move_cases exec passTime m s with ⟨i, c, next, rfl, hi, hmove⟩ | ⟨delay, rfl, hmove⟩ |
    ⟨i, -, -, hmove⟩
  · have hmem := List.mem_of_getElem? hi
    have hquiet := h.quiet _ hmem
    rw [hmove]
    refine ⟨fun r hr => ?_, fun p hp => ?_⟩
    · rcases exec_sessions_origin (hs.staged _ hmem).step.1 hr with hr | ⟨-, hash, expiresAt, hc⟩
      · exact h.none r hr
      · subst hc
        exact absurd trivial hquiet
    · rcases List.mem_or_eq_of_mem_set hp with hp | rfl
      · exact h.quiet p hp
      · exact quiet_step hs h.none (hs.staged _ hmem) hquiet
  · rw [hmove]
    exact ⟨h.none, h.quiet⟩
  · rw [hmove]
    exact h

/-- **Step.** After a revocation, a `RefreshToken` that has not made its check is not accepted. -/
theorem early_move {s : Concurrent} (h : Revoked userId s) (hs : OfUser userId hashes s) {j : Nat} {hash : Bytes}
    (hhash : hashes hash) (hj : ∃ p, s.threads[j]? = some p ∧ Early (· = userId) hash p) (m : Move Nat) :
    ∃ p, (System.move exec passTime m s).threads[j]? = some p ∧ Early (· = userId) hash p := by
  obtain ⟨p, hj, hearly⟩ := hj
  rcases System.move_cases exec passTime m s with ⟨i, c, next, rfl, hi, hmove⟩ | ⟨delay, rfl, hmove⟩ |
    ⟨i, -, -, hmove⟩
  · rw [hmove]
    by_cases hij : i = j
    · subst hij
      rw [hi] at hj
      cases hj
      refine ⟨_, ?_, hearly.refused hs h.none hhash⟩
      exact List.getElem?_set_self (List.getElem?_eq_some_iff.mp hi).1
    · exact ⟨p, (List.getElem?_set_ne hij).trans hj, hearly⟩
  · rw [hmove]
    exact ⟨p, hj, hearly⟩
  · rw [hmove]
    exact ⟨p, hj, hearly⟩

end Requests

/-- The thread cannot return `Ok` before it has deleted the sessions of the user, unless it finds a row on
which it has nothing to do. -/
def Owes (userId : Int) (account : Account) (skips : UserEntity → Prop) : Thread → Prop
  | .done o => o.isOk = false
  | .call (.sql (.deleteSessionsByUser id)) _ => id = userId
  | .call (.sql (.selectUserByUuid uuid)) next => account = .uuid uuid ∧
      ∀ reply, (∀ row, reply = .ok (some row) → row.id = userId ∧ ¬skips row) →
        Owes userId account skips (next reply)
  | .call (.sql (.selectUserByMobile mobile)) next => account = .mobile mobile ∧
      ∀ reply, (∀ row, reply = .ok (some row) → row.id = userId) → Owes userId account skips (next reply)
  | .call _ next => ∀ reply, Owes userId account skips (next reply)

/-- The commands on which it does not matter what a revoking request is told. -/
def Cmd.IsAside : Cmd → Prop
  | .now | .redis _ | .sql (.updateUser _) => True
  | _ => False

theorem Cmd.RedisOn.isAside {keys : Bytes → Prop} {c : Cmd} (h : c.RedisOn keys) : c.IsAside := by
  cases c with
  | redis c => trivial
  | _ => cases h

/-- A row that a lookup returns is the reply to its statement. -/
theorem reply_of_foundUser {reply : Except SqlError (Option UserEntity)} {row : UserEntity}
    (h : foundUser (.ofSql reply) = .ok row) : reply = .ok (some row) := by
  rcases reply with e | _ | row'
  · cases h
  · cases h
  · cases h
    rfl

section Owes

variable {userId : Int} {account : Account} {skips : UserEntity → Prop}

theorem owes_aside {α : Type} {p : Action α} (hp : Program.Uses Cmd.IsAside p) {next : α → Thread}
    (h : ∀ a, Owes userId account skips (next a)) : Owes userId account skips (p >>= next) := by
  induction p with
  | done a => exact h a
  | call c rest ih =>
      obtain ⟨hc, hrest⟩ := hp
      have hnext : ∀ reply, Owes userId account skips (rest reply >>= next) := fun reply =>
        ih reply (hrest reply)
      cases c with
      | now => exact hnext
      | redis c => exact hnext
      | sql s =>
          cases s with
          | updateUser u => exact hnext
          | _ => cases hc

theorem owes_findByUUID {uuid : Bytes} {next : Result UserEntity → Thread} (haccount : account = .uuid uuid)
    (h : ∀ r, (∀ row, r = .ok row → row.id = userId ∧ ¬skips row) → Owes userId account skips (next r)) :
    Owes userId account skips (UserDB.findByUUID uuid >>= next) := by
  refine ⟨haccount, fun reply hreply => ?_⟩
  have hnext := h (foundUser (.ofSql reply)) fun row hrow => hreply row (reply_of_foundUser hrow)
  cases reply <;> exact hnext

theorem owes_findByMobile {mobile : Bytes} {next : Result UserEntity → Thread}
    (haccount : account = .mobile mobile)
    (h : ∀ r, (∀ row, r = .ok row → row.id = userId) → Owes userId account skips (next r)) :
    Owes userId account skips (UserDB.findByMobile mobile >>= next) := by
  refine ⟨haccount, fun reply hreply => ?_⟩
  have hnext := h (foundUser (.ofSql reply)) fun row hrow => hreply row (reply_of_foundUser hrow)
  cases reply <;> exact hnext

theorem owes_deleteByUserId {id : Int} {next : Result Unit → Thread} (hid : id = userId) :
    Owes userId account skips (TokenRepository.deleteByUserId id >>= next) := hid

theorem owes_requireValid {α : Type} {check : Except String Unit} {next : Action (Result α)} {f : α → Answer}
    (h : Owes userId account skips (answered f next)) :
    Owes userId account skips (answered f (requireValid check next)) := by
  cases check with
  | error message => rfl
  | ok _ => exact h

/-- **Start.** A revoking request owes the deletion. -/
theorem owes_handle (env : Env) (draws : Draws) {request : Request} (h : request.Revokes) {account : Account}
    (haccount : request.account? = some account) :
    Owes userId account request.Skips (handle env draws request) := by
  cases request with
  | resetPassword mobile verifyCode newPassword =>
      cases haccount
      refine owes_requireValid (owes_requireValid (owes_requireValid ?_))
      simp only [answered, Program.bind_assoc]
      refine owes_aside ((uses_verifyCaptcha _ _ _ _).mono fun c hc => hc.isAside) fun r => ?_
      cases r with
      | fail code message => rfl
      | ok _ =>
          simp only [orFail_ok, Program.bind_assoc]
          refine owes_findByMobile rfl fun r hr => ?_
          cases r with
          | fail code message =>
              simp only
              split <;> rfl
          | ok user =>
              simp only [Program.bind_assoc]
              refine owes_aside (uses_update trivial) fun r => ?_
              cases r with
              | fail code message => rfl
              | ok _ =>
                  simp only [orFail_ok, Program.bind_assoc]
                  exact owes_deleteByUserId (hr user rfl)
  | logoutAll userUuid =>
      cases haccount
      show Owes _ _ _ (answered _ (logoutAll userUuid))
      simp only [answered, logoutAll, Program.bind_assoc]
      refine owes_findByUUID rfl fun r hr => ?_
      cases r with
      | fail code message => rfl
      | ok user =>
          rw [orFail_ok, Program.bind_assoc]
          exact owes_deleteByUserId (hr user rfl).1
  | setUserDisabled userUuid disabled =>
      cases disabled with
      | false => cases h
      | true =>
          cases haccount
          show Owes _ _ _ (answered _ (UserService.setUserDisabled userUuid true))
          unfold UserService.setUserDisabled UserService.requireUuid
          split
          · rfl
          · simp only [answered, Program.bind_assoc]
            refine owes_findByUUID rfl fun r hr => ?_
            cases r with
            | fail code message => rfl
            | ok user =>
                have henabled : ¬user.disabled = true := (hr user rfl).2
                rw [orFail_ok, if_neg henabled, Program.bind_assoc]
                refine owes_aside (uses_update trivial) fun r => ?_
                cases r with
                | fail code message => rfl
                | ok _ =>
                    rw [orFail_ok, if_pos trivial, Program.bind_assoc]
                    exact owes_deleteByUserId (hr user rfl).1
  | _ => cases h

end Owes

/-- A step of the revoking request: it deletes the sessions, or still owes the deletion, or finds a row on
which it has nothing to do. -/
theorem Owes.step {userId : Int} {request : Request} {account : Account}
    (haccount : request.account? = some account) {w : World} (hfaults : w.sqlFaults = [])
    (habout : request.IsAbout userId w.db) {c : Cmd} {next : Service.Reply c → Thread}
    (h : Owes userId account request.Skips (.call c next)) :
    c = .sql (.deleteSessionsByUser userId) ∨ Owes userId account request.Skips (next (exec c w).1) ∨
      ∃ uuid, c = .sql (.selectUserByUuid uuid) ∧
        ∃ row ∈ w.db.users.find? (w.db.sameUuid ·.uuid uuid), request.Skips row := by
  cases c with
  | now => exact Or.inr (Or.inl (h _))
  | redis c => exact Or.inr (Or.inl (h _))
  | sql s =>
      cases s with
      | deleteSessionsByUser id =>
          cases h
          exact Or.inl rfl
      | selectUserByMobile mobile =>
          obtain ⟨rfl, hnext⟩ := h
          have hexec : exec (.sql (.selectUserByMobile mobile)) w = _ :=
            execSql_eq hfaults (.selectUserByMobile mobile)
          refine Or.inr (Or.inl (hnext _ fun row hrow => ?_))
          rw [hexec] at hrow
          have hfind : w.db.users.find? (·.mobile = mobile) = some row := by
            simpa [SqlStmt.apply] using hrow
          have hmobile : row.mobile = mobile := by simpa using List.find?_some hfind
          exact habout _ haccount row (List.mem_of_find?_eq_some hfind) hmobile
      | selectUserByUuid uuid =>
          obtain ⟨rfl, hnext⟩ := h
          by_cases hskip : ∃ row ∈ w.db.users.find? (w.db.sameUuid ·.uuid uuid), request.Skips row
          · exact Or.inr (Or.inr ⟨uuid, rfl, hskip⟩)
          · have hexec : exec (.sql (.selectUserByUuid uuid)) w = _ :=
              execSql_eq hfaults (.selectUserByUuid uuid)
            refine Or.inr (Or.inl (hnext _ fun row hrow => ?_))
            rw [hexec] at hrow
            have hfind : w.db.users.find? (w.db.sameUuid ·.uuid uuid) = some row := by
              simpa [SqlStmt.apply] using hrow
            have huuid : w.db.sameUuid row.uuid uuid = true := by simpa using List.find?_some hfind
            exact ⟨habout _ haccount row (List.mem_of_find?_eq_some hfind) huuid,
              fun hs => hskip ⟨row, hfind, hs⟩⟩
      | _ => exact Or.inr (Or.inl (h _))

section Runs

variable {userId : Int} {hashes : Bytes → Prop} {revoker : Request} {account : Account} {k : Nat}

/-- The invariant: the requests are those of the user, and the revoking request has still to delete the
sessions, or they are gone for good. -/
structure Revoking (userId : Int) (hashes : Bytes → Prop) (revoker : Request) (account : Account) (k : Nat)
    (s : Concurrent) : Prop where
  requests : OfUser userId hashes s
  about : revoker.IsAbout userId s.shared.db
  progress : (∃ p, s.threads[k]? = some p ∧ Owes userId account revoker.Skips p) ∨ Revoked userId s

/-- Commands that add no user do not change whom a request is about. -/
theorem Request.IsAbout.exec {request : Request} {w : World} (h : request.IsAbout userId w.db) {c : Cmd}
    {owner : Int → Prop} (hc : c.AddsFor owner) : request.IsAbout userId (exec c w).2.db := by
  cases c with
  | now => exact h
  | redis c =>
      rw [exec_redis_db]
      exact h
  | sql s =>
      have hkind : s.kind ≠ .insertUser := by
        rintro hkind
        cases s <;> cases hkind
        exact hc
      rcases execSql_cases w s with ⟨-, hdb⟩ | ⟨-, hdb⟩
      · rw [AccountService.exec, hdb]
        exact h
      · rw [AccountService.exec, hdb]
        intro account haccount row hrow hnames
        obtain ⟨old, hold, hid, huuid, hmobile⟩ := SqlStmt.apply_users_origin hkind hrow
        rw [hid]
        refine h account haccount old hold ?_
        cases account with
        | uuid text => simpa [Account.Names, Database.sameUuid, huuid] using hnames
        | mobile text => exact hmobile.symm.trans hnames

/-- The deletion of the sessions, with no request between its check and its insertion. -/
theorem revoked_of_delete {s : Concurrent} (hfaults : s.shared.sqlFaults = []) (hquiet : Quiet s)
    {next : Service.Reply (.sql (.deleteSessionsByUser userId)) → Thread}
    (hk : s.threads[k]? = some (.call (.sql (.deleteSessionsByUser userId)) next)) :
    Revoked userId ⟨(exec (.sql (.deleteSessionsByUser userId)) s.shared).2,
      s.threads.set k (next (exec (.sql (.deleteSessionsByUser userId)) s.shared).1)⟩ := by
  have hexec : exec (.sql (.deleteSessionsByUser userId)) s.shared = _ :=
    execSql_eq hfaults (.deleteSessionsByUser userId)
  refine ⟨fun r hr => ?_, fun p hp => ?_⟩
  · rw [hexec] at hr
    simpa using (List.mem_filter.mp hr).2
  · rcases List.mem_or_eq_of_mem_set hp with hp | rfl
    · exact hquiet p hp
    · exact not_mayInsert_next (hquiet _ (List.mem_of_getElem? hk)) (fun hash heq => by cases heq) _

/-- **Step.** A permitted move keeps the invariant. -/
theorem Revoking.move (haccount : revoker.account? = some account) {s : Concurrent}
    (h : Revoking userId hashes revoker account k s) (m : Move Nat)
    (hguard : RevokesAlone userId revoker k s m) :
    Revoking userId hashes revoker account k (System.move exec passTime m s) := by
  refine ⟨h.requests.move m, ?_, ?_⟩
  · rcases System.move_cases exec passTime m s with ⟨i, c, next, rfl, hi, hmove⟩ | ⟨delay, rfl, hmove⟩ |
    ⟨i, -, -, hmove⟩
    · rw [hmove]
      exact h.about.exec (h.requests.staged _ (List.mem_of_getElem? hi)).step.1
    · rw [hmove]
      exact h.about
    · rw [hmove]
      exact h.about
  · rcases h.progress with ⟨p, hk, howes⟩ | hrevoked
    · rcases System.move_cases exec passTime m s with ⟨i, c, next, rfl, hi, hmove⟩ | ⟨delay, rfl, hmove⟩ |
    ⟨i, -, -, hmove⟩
      · by_cases hik : i = k
        · subst hik
          rw [hi] at hk
          cases hk
          obtain ⟨hdelete, hskip⟩ := hguard rfl
          have hpending := System.pending_of_call hi
          rcases howes.step haccount h.requests.faults h.about with rfl | hnext | ⟨uuid, rfl, row, hrow, hs⟩
          · refine Or.inr ?_
            rw [hmove]
            exact revoked_of_delete h.requests.faults (hdelete hpending) hi
          · refine Or.inl ⟨_, ?_, hnext⟩
            rw [hmove]
            exact List.getElem?_set_self (List.getElem?_eq_some_iff.mp hi).1
          · obtain ⟨hquiet, hnone⟩ := hskip uuid hpending row hrow hs
            exact Or.inr (Revoked.move ⟨hnone, hquiet⟩ h.requests _)
        · refine Or.inl ⟨p, ?_, howes⟩
          rw [hmove]
          exact (List.getElem?_set_ne hik).trans hk
      · refine Or.inl ⟨p, ?_, howes⟩
        rw [hmove]
        exact hk
      · refine Or.inl ⟨p, ?_, howes⟩
        rw [hmove]
        exact hk
    · exact Or.inr (hrevoked.move h.requests m)

end Runs

/-- Once request `k` has returned `Ok`, no `RefreshToken` that starts afterwards is accepted. -/
def RevocationFinal (env : Env) (requests : List (Draws × Request)) (w : World) (k : Nat)
    (first second : List (Move Nat)) : Prop :=
  acceptedAt (interleave first ⟨w, requestThreads env requests⟩) k = true →
    ∀ (j : Nat) (draws : Draws) (token : Bytes), requests[j]? = some (draws, .refreshToken token) →
      .thread j ∉ first →
        acceptedAt (interleave (first ++ second) ⟨w, requestThreads env requests⟩) j = false

/-- A request that neither signs in nor refreshes adds nothing. -/
theorem addsNothing_of_covers {request : Request} (hsign : ¬request.SignsIn)
    (hrefresh : ∀ token, request ≠ .refreshToken token) {c : Cmd} (hc : request.footprint.Covers c) :
    c.AddsNothing := by
  cases c with
  | now => trivial
  | redis c => trivial
  | sql s =>
      have hkind : s.kind ≠ .insertUser ∧ s.kind ≠ .insertSession := by
        cases request with
        | register _ _ _ _ | loginByPassword _ _ | loginByCode _ _ => exact absurd trivial hsign
        | refreshToken token => exact absurd rfl (hrefresh token)
        | sendVerifyCode _ _ | logout _ | cleanExpiredTokens | getUser _ =>
            rw [show s.kind = _ from hc]
            decide
        | resetPassword _ _ _ | deleteUser _ _ | setUserDisabled _ _ =>
            rcases hc with h | h | h <;>
            · rw [h]
              decide
        | logoutAll _ | updateUser _ _ | changePassword _ _ _ =>
            rcases hc with h | h <;>
            · rw [h]
              decide
      cases s with
      | insertUser _ _ _ _ _ => exact absurd rfl hkind.1
      | insertSession _ _ _ => exact absurd rfl hkind.2
      | _ => trivial

section Final

variable (env : Env) (userId : Int) (requests : List (Draws × Request)) (w : World)

/-- The hashes of the tokens that the requests present. -/
def presentedHashes (hash : Bytes) : Prop :=
  ∃ draws token, (draws, .refreshToken token) ∈ requests ∧ hash = hashToken env.crypto token

variable {env userId requests w}

/-- **Start.** The requests are those of the user. -/
theorem ofUser_requestThreads (hw : w.sqlFaults = []) (hsign : ∀ r ∈ requests, ¬r.2.SignsIn)
    (htokens : ∀ draws token, (draws, .refreshToken token) ∈ requests → TokenOf env w.db userId token) :
    OfUser userId (presentedHashes env requests) ⟨w, requestThreads env requests⟩ := by
  refine ⟨hw, ?_, ?_⟩
  · rintro r hr ⟨draws, token, hmem, hhash⟩
    exact (htokens draws token hmem).stored r hr hhash
  · intro p hp
    obtain ⟨⟨draws, request⟩, hmem, rfl⟩ := List.mem_map.mp hp
    by_cases hrefresh : ∃ token, request = .refreshToken token
    · obtain ⟨token, rfl⟩ := hrefresh
      refine Or.inr (Or.inr ⟨hashToken env.crypto token, ⟨draws, token, hmem, rfl⟩, Or.inl ?_⟩)
      exact early_refreshToken env draws token (htokens draws token hmem).names
    · refine Or.inl ((uses_handle env draws request).mono fun c hc => ?_)
      exact addsNothing_of_covers (hsign _ hmem) (fun token heq => hrefresh ⟨token, heq⟩) hc

end Final

/-- **Revocation, alone.** If every step of the first part of a schedule meets `RevokesAlone`, a revocation
that has returned `Ok` by its end is final. -/
theorem revocation_final (env : Env) (userId : Int) (requests : List (Draws × Request)) (w : World)
    (hw : w.sqlFaults = []) (hsign : ∀ r ∈ requests, ¬r.2.SignsIn)
    (htokens : ∀ draws token, (draws, .refreshToken token) ∈ requests → TokenOf env w.db userId token)
    (k : Nat) (draws : Draws) (revoker : Request) (hk : requests[k]? = some (draws, revoker))
    (hrevokes : revoker.Revokes) (habout : revoker.IsAbout userId w.db) (first second : List (Move Nat))
    (hguard : System.Meets exec passTime (RevokesAlone userId revoker k) first
      ⟨w, requestThreads env requests⟩) :
    RevocationFinal env requests w k first second := by
  intro haccepted j draws' token hj hlater
  have hthread : ∀ {i : Nat} {d : Draws} {r : Request}, requests[i]? = some (d, r) →
      (requestThreads env requests)[i]? = some (handle env d r) := by
    intro i d r hi
    rw [requestThreads, List.getElem?_map, hi]
    rfl
  obtain ⟨account, haccount⟩ : ∃ account, revoker.account? = some account := by
    cases revoker <;> first | exact absurd hrevokes id | exact ⟨_, rfl⟩
  have hinit : Revoking userId (presentedHashes env requests) revoker account k
      ⟨w, requestThreads env requests⟩ :=
    ⟨ofUser_requestThreads hw hsign htokens, habout,
      Or.inl ⟨_, hthread hk, owes_handle env draws hrevokes haccount⟩⟩
  have hfirst := System.play_invariant exec passTime (fun s m h hm => h.move haccount m hm) first _ hinit hguard
  have hrevoked : Revoked userId (interleave first ⟨w, requestThreads env requests⟩) := by
    rcases hfirst.progress with ⟨p, hp, howes⟩ | h
    · obtain ⟨q, hq, o, rfl, hok⟩ := accepted_of_acceptedAt haccepted
      rw [hp] at hq
      cases hq
      rw [show o.isOk = false from howes] at hok
      cases hok
    · exact h
  -- from here on the request that starts later stays before its check
  have hstart : ∃ p, (interleave first ⟨w, requestThreads env requests⟩).threads[j]? = some p ∧
      Early (· = userId) (hashToken env.crypto token) p :=
    ⟨_, (System.play_untouched exec passTime hlater _).trans (hthread hj),
      early_refreshToken env draws' token (htokens draws' token (List.mem_of_getElem? hj)).names⟩
  have hhash : presentedHashes env requests (hashToken env.crypto token) :=
    ⟨draws', token, List.mem_of_getElem? hj, rfl⟩
  obtain ⟨-, -, p, hp, hearly⟩ := System.play_always exec passTime
    (I := fun s => OfUser userId (presentedHashes env requests) s ∧ Revoked userId s ∧
      ∃ p, s.threads[j]? = some p ∧ Early (· = userId) (hashToken env.crypto token) p)
    (fun s m h => ⟨h.1.move m, h.2.1.move h.1 m, early_move h.2.1 h.1 hhash h.2.2 m⟩) second _
    ⟨hfirst.requests, hrevoked, hstart⟩
  rw [interleave, System.play_append]
  by_contra hne
  obtain ⟨q, hq, hqa⟩ := accepted_of_acceptedAt (Bool.not_eq_false _ ▸ hne)
  rw [hp] at hq
  cases hq
  exact hearly.not_accepted hqa

/-- The refresh token that request `i` has handed out. -/
def issuedAt (s : Concurrent) (i : Nat) : Option Bytes :=
  match s.threads[i]?.bind Program.result? with
  | some (.returned (.ok (.tokens pair))) => some pair.refreshToken
  | _ => none

/-- The refresh token that a `RefreshToken` with the first one hands out. -/
def secondToken : Bytes :=
  (issuedAt (interleave (List.replicate 8 (.thread 0)) racing) 0).getD []

def sampleUuid : Bytes := ascii "550e8400-e29b-41d4-a716-446655440000"

/-- A `RefreshToken`, a `LogoutAll`, and a `RefreshToken` with the token from the first. -/
def overtaking : List (Draws × Request) :=
  [(earlierDraws, .refreshToken firstToken),
    (earlierDraws, .logoutAll sampleUuid),
    (laterDraws, .refreshToken secondToken)]

/-- The `LogoutAll` runs between the check and the deletion of the first `RefreshToken`. -/
def overtakingFirst : List (Move Nat) := List.replicate 3 (.thread 0) ++ List.replicate 2 (.thread 1)

def overtakingSecond : List (Move Nat) := List.replicate 5 (.thread 0) ++ List.replicate 8 (.thread 2)

theorem revocation_outlived :
    issuedAt (interleave (overtakingFirst ++ overtakingSecond)
      ⟨signedUp, requestThreads defaultEnv overtaking⟩) 0 = some secondToken ∧
    ¬RevocationFinal defaultEnv overtaking signedUp 1 overtakingFirst overtakingSecond := by
  have hrun : issuedAt (interleave (overtakingFirst ++ overtakingSecond)
        ⟨signedUp, requestThreads defaultEnv overtaking⟩) 0 = some secondToken ∧
      acceptedAt (interleave overtakingFirst ⟨signedUp, requestThreads defaultEnv overtaking⟩) 1 = true ∧
      acceptedAt (interleave (overtakingFirst ++ overtakingSecond)
        ⟨signedUp, requestThreads defaultEnv overtaking⟩) 2 = true := by
    decide +kernel
  refine ⟨hrun.1, fun hfinal => ?_⟩
  have hrefused := hfinal hrun.2.1 2 _ secondToken rfl (by decide)
  rw [hrun.2.2] at hrefused
  cases hrefused

/-- A revoking request that runs in one piece meets the condition. -/
theorem meets_revokesAlone {userId : Int} {revoker : Request} {k : Nat} (hskips : ∀ row, ¬revoker.Skips row)
    (n : Nat) {s : Concurrent} (hk : ∀ p, s.threads[k]? = some p → Program.Uses Cmd.AddsNothing p)
    (hquiet : Quiet s) :
    System.Meets exec passTime (RevokesAlone userId revoker k) (List.replicate n (.thread k)) s := by
  induction n generalizing s with
  | zero => trivial
  | succ n ih =>
      refine ⟨fun _ => ⟨fun _ => hquiet, fun _ _ row _ hs => absurd hs (hskips row)⟩, ?_⟩
      rcases System.move_cases exec passTime (.thread k) s with
        ⟨i, c, next, hik, hi, hmove⟩ | ⟨delay, hdelay, -⟩ | ⟨i, -, -, hmove⟩
      · cases hik
        rw [hmove]
        refine ih (fun p hp => ?_) (fun p hp => ?_)
        · rcases System.getElem?_set_cases hp with ⟨-, rfl⟩ | ⟨hne, -⟩
          · exact (hk _ hi).2 _
          · exact absurd rfl hne
        · rcases List.mem_or_eq_of_mem_set hp with hp | rfl
          · exact hquiet p hp
          · exact not_mayInsert_of_uses ((hk _ hi).2 _)
      · cases hdelay
      · rw [hmove]
        exact ih hk hquiet

theorem tokenOf_firstToken : TokenOf defaultEnv signedUp.db 1 firstToken := by
  refine ⟨fun now text id hparse hid => ?_, ?_⟩
  · have hjwt : firstToken = createJwt .openssl
        (refreshClaims {} nanosPerSecond ⟨100001, by decide⟩ { id := 1 }) ({} : SecurityConfig).jwtSecret := by
      decide +kernel
    have huid : (parseJson (buildJson (refreshClaims {} nanosPerSecond ⟨100001, by decide⟩ { id := 1 }))).find
        (ascii "uid") = some (ascii "1") := by
      decide +kernel
    rw [hjwt] at hparse
    have htext := (parseRefreshToken_createJwt _ _ _ hparse).2.2
    rw [huid] at htext
    obtain rfl := Option.some.inj htext
    have hone : stoll (ascii "1") = some 1 := by decide
    rw [hone] at hid
    exact (Option.some.inj hid).symm
  · have hall : (signedUp.db.sessions.all fun r => r.userId = 1) = true := by decide +kernel
    intro r hr _
    simpa using List.all_eq_true.mp hall r hr

/-- A `LogoutAll`, and a `RefreshToken` after it. -/
def orderly : List (Draws × Request) :=
  [(earlierDraws, .logoutAll sampleUuid),
    (laterDraws, .refreshToken firstToken)]

theorem revocation_final_sample :
    RevocationFinal defaultEnv orderly signedUp 0 (List.replicate 2 (.thread 0))
      (List.replicate 8 (.thread 1)) := by
  have hall : (signedUp.db.users.all fun row => row.id = 1) = true := by decide +kernel
  have habout : (Request.logoutAll sampleUuid).IsAbout 1 signedUp.db := by
    intro account _ row hrow _
    simpa using List.all_eq_true.mp hall row hrow
  have huses : Program.Uses Cmd.AddsNothing
      (handle defaultEnv earlierDraws (.logoutAll sampleUuid)) :=
    (uses_handle _ _ _).mono fun c hc => addsNothing_of_covers (by exact id) (fun _ h => by cases h) hc
  refine revocation_final defaultEnv 1 orderly signedUp rfl ?_ ?_ 0 _ _ rfl trivial habout _ _
    (meets_revokesAlone (fun _ => id) 2 ?_ ?_)
  · intro r hr
    simp only [orderly, List.mem_cons, List.not_mem_nil, or_false] at hr
    rcases hr with rfl | rfl <;> exact id
  · intro draws token hmem
    simp only [orderly, List.mem_cons, List.not_mem_nil, or_false] at hmem
    rcases hmem with h | h
    · cases h
    · cases h
      exact tokenOf_firstToken
  · rintro p hp
    cases hp
    exact huses
  · intro p hp
    simp only [requestThreads, orderly, List.map_cons, List.map_nil, List.mem_cons, List.not_mem_nil,
      or_false] at hp
    rcases hp with rfl | rfl
    · exact not_mayInsert_of_uses huses
    · exact (early_refreshToken defaultEnv _ firstToken tokenOf_firstToken.names).not_mayInsert

end AccountService
