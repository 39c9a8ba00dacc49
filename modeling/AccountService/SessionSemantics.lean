import AccountService.AccountFreeze
import AccountService.RefreshRace
import AccountService.TokenRoundTrip

/-! The sessions over whole runs of requests. A session row stands for a refresh token that has been handed out and
not been given up since; so a refresh succeeds exactly with such a token, before its second of expiry, for a user
who is enabled. -/

namespace AccountService

open AuthService Decimal Interaction Table

/-- `LogoutAll`, `ResetPassword`, `SetUserDisabled(true)` and `DeleteUser`: the requests that end all sessions of a
user. -/
def Request.EndsSessions : Request → Prop
  | .logoutAll _ | .resetPassword _ _ _ | .deleteUser _ _ | .setUserDisabled _ true => True
  | _ => False

namespace Event

variable (env : Env) (e : Event)

/-- The refresh token that the call handed out, and the id of the user it is for. -/
def issue? : Option (Bytes × Int) :=
  match e.outcome, e.request with
  | .returned (.ok (.signedIn result)), _ => some (result.tokens.refreshToken, result.user.id)
  | .returned (.ok (.tokens pair)), .refreshToken token =>
      match parseRefreshToken env.crypto env.config.security e.time token with
      | .ok text => (stoll text).map fun id => (pair.refreshToken, id)
      | .fail _ _ => none
  | _, _ => none

/-- The second of expiry of a refresh token that the call handed out. -/
def expSecond : Nat := toTimeT (addSeconds e.time env.config.security.refreshTokenTtlSeconds)

/-- The request names the user with this id. -/
def Concerns (id : Int) : Prop :=
  ∃ account, e.request.account? = some account ∧ ∃ row ∈ e.world.db.users, row.id = id ∧ account.Names e.world.db row

/-- The call gave up the token: a successful `RefreshToken` with it, a `Logout` with it, or a success of a request
that ends all sessions of its user. -/
def Revokes (token : Bytes) (id : Int) : Prop :=
  (e.request = .refreshToken token ∧ e.Succeeded) ∨ e.request = .logout token ∨
    (e.Succeeded ∧ e.request.EndsSessions ∧ e.Concerns id)

/-- The call leaves the row of a token that expires at the second: it neither gives up the token nor removes the rows
that have expired by then. -/
def Keeps (token : Bytes) (id : Int) (expires : Nat) : Prop :=
  ¬e.Revokes token id ∧ (e.request = .cleanExpiredTokens → toTimeT e.time < expires)

/-- The call removed the session row. -/
def Ends (r : TokenSession) : Prop :=
  match e.request with
  | .refreshToken token => e.Succeeded ∧ r.tokenHash = hashToken env.crypto token
  | .logout token => token ≠ [] ∧ r.tokenHash = hashToken env.crypto token
  | .cleanExpiredTokens => r.expiresAt ≤ toTimeT e.time
  | request => e.Succeeded ∧ request.EndsSessions ∧ e.Concerns r.userId

/-- The tokens that occur in the call: the one it handed out and the one it was made with. -/
def tokens : List Bytes :=
  e.issued?.toList ++ match e.request with
    | .refreshToken token | .logout token => [token]
    | _ => []

end Event

section Calls

variable {env : Env} {t : Nat} {draws : Draws} {db db' : Database} {request : Request} {outcome : Outcome Answer}
  {e : Event}

/-- The request names one user only. -/
theorem Event.concerns_iff (hdb : db.WellFormed) (hworld : e.world.db = db) {account : Account}
    (haccount : e.request.account? = some account) {user : UserEntity} (huser : user ∈ db.users)
    (hnames : account.Names db user) (id : Int) : e.Concerns id ↔ id = user.id := by
  constructor
  · rintro ⟨other, hother, row, hrow, rfl, hrownames⟩
    rw [haccount] at hother
    cases hother
    rw [hworld] at hrow hrownames
    have hsame : row = user := by
      cases account with
      | mobile text => exact hdb.mobile.eq_of_key hrow huser (hrownames.trans hnames.symm)
      | uuid text =>
          simp only [Account.Names, Database.sameUuid, decide_eq_true_eq] at hnames hrownames
          exact hdb.uuid.eq_of_key hrow huser (hrownames.trans hnames.symm)
    rw [hsame]
  · rintro rfl
    exact ⟨account, haccount, user, by rwa [hworld], rfl, by rwa [hworld]⟩

/-- What a call leaves of the sessions: those it has not ended, and the one it has stored. -/
structure Survives (env : Env) (draws : Draws) (db db' : Database) (e : Event) (base : Database) : Prop where
  kept : ∀ r, r ∈ base.sessions ↔ r ∈ db.sessions ∧ ¬e.Ends env r
  stored : (e.issue? env = none ∧ db'.sessions = base.sessions) ∨
    ∃ user ∈ base.users, e.issue? env = some ((tokensAt env e.time draws user).refreshToken, user.id) ∧
      db' = base.issue env e.time draws user

theorem Event.issue?_of_failed (h : e.outcome.isOk = false) : e.issue? env = none := by
  cases houtcome : e.outcome with
  | threw => simp [Event.issue?, houtcome]
  | returned result =>
      rw [houtcome] at h
      cases result with
      | ok answer => cases h
      | fail code message => simp [Event.issue?, houtcome]

/-- A call that failed ended no session. -/
theorem Event.not_ends_of_failed (h : e.outcome.isOk = false) (hcan : e.request.CanFail) (r : TokenSession) :
    ¬e.Ends env r := by
  have hnot : ¬e.Succeeded := by
    rw [Event.Succeeded, h]
    decide
  intro hends
  unfold Event.Ends at hends
  split at hends
  · exact hnot hends.1
  · rename_i token hrequest
    rw [hrequest] at hcan
    exact hcan
  · rename_i hrequest
    rw [hrequest] at hcan
    exact hcan
  · exact hnot hends.1

theorem survives_none (hissue : e.issue? env = none) (hsessions : db'.sessions = db.sessions)
    (hends : ∀ r ∈ db.sessions, ¬e.Ends env r) : Survives env draws db db' e db' := by
  refine ⟨fun r => ?_, Or.inl ⟨hissue, rfl⟩⟩
  rw [hsessions]
  exact ⟨fun hr => ⟨hr, hends r hr⟩, fun hr => hr.1⟩

/-- The sessions of a user have gone. -/
theorem survives_dropUser (hissue : e.issue? env = none) {id : Int}
    (hsessions : db'.sessions = (db.dropUser id).sessions)
    (hends : ∀ r ∈ db.sessions, e.Ends env r ↔ r.userId = id) : Survives env draws db db' e db' := by
  refine ⟨fun r => ?_, Or.inl ⟨hissue, rfl⟩⟩
  rw [hsessions, Database.dropUser, List.mem_filter, decide_eq_true_iff]
  exact and_congr_right fun hr => not_congr (hends r hr).symm

theorem mem_dropHash {tokenHash : Bytes} {r : TokenSession} :
    r ∈ (db.dropHash tokenHash).sessions ↔ r ∈ db.sessions ∧ ¬r.tokenHash = tokenHash := by
  rw [Database.dropHash, List.mem_filter, decide_eq_true_iff]

/-- **One call.** The sessions after an effect. -/
theorem Effect.survives (h : Effect env t draws db request outcome db') (hdb : db.Settled) (htime : e.time = t)
    (hworld : e.world.db = db) (hrequest : e.request = request) (houtcome : e.outcome = outcome) :
    ∃ base, Survives env draws db db' e base := by
  have hwf := hdb.wellFormed
  subst htime
  -- a request that succeeds and ends the sessions of one user
  have huser : ∀ (account : Account) {user : UserEntity}, e.request.account? = some account → user ∈ db.users →
      account.Names db user → e.Succeeded → request.EndsSessions → ∀ r, e.Ends env r ↔ r.userId = user.id := by
    intro account user haccount hmem hnames hok hall r
    rw [← Event.concerns_iff hwf hworld haccount hmem hnames r.userId, Event.Ends, hrequest]
    cases request with
    | refreshToken _ | logout _ | cleanExpiredTokens => cases hall
    | _ => exact ⟨fun h => h.2.2, fun h => ⟨hok, hall, h⟩⟩
  cases h with
  | failed hfail hcan =>
      rw [← houtcome] at hfail
      rw [← hrequest] at hcan
      exact ⟨db, survives_none (Event.issue?_of_failed hfail) rfl fun r _ => Event.not_ends_of_failed hfail hcan r⟩
  | sent _ | got | read | renamed _ _ _ | changed _ _ _ =>
      refine ⟨_, survives_none (by simp [Event.issue?, houtcome]) rfl fun r _ => ?_⟩
      simp [Event.Ends, hrequest, Request.EndsSessions]
  | @registered _ _ _ _ user _ _ _ _ =>
      refine ⟨_, ⟨fun r => ?_, Or.inr ⟨user, ?_, ?_, rfl⟩⟩⟩
      · simp [Event.Ends, hrequest, Request.EndsSessions]
      · exact List.mem_append_right _ List.mem_cons_self
      · simp [Event.issue?, houtcome, UserEntity.cleared]
  | @loggedIn _ _ user hlogin hmem _ _ =>
      refine ⟨db, ⟨fun r => ?_, Or.inr ⟨user, hmem, ?_, rfl⟩⟩⟩
      · rcases hlogin with ⟨_, rfl⟩ | ⟨_, rfl⟩ <;> simp [Event.Ends, hrequest, Request.EndsSessions]
      · simp [Event.issue?, houtcome, UserEntity.cleared]
  | @reset _ _ _ user hmem hmobile =>
      refine ⟨_, survives_dropUser (by simp [Event.issue?, houtcome]) rfl fun r _ => ?_⟩
      exact huser (.mobile _) (by rw [hrequest]; rfl) hmem hmobile (by rw [Event.Succeeded, houtcome]; rfl) trivial r
  | @refreshed token text user hparse hid hmem _ _ =>
      refine ⟨db.dropHash (hashToken env.crypto token), ⟨fun r => ?_, Or.inr ⟨user, hmem, ?_, rfl⟩⟩⟩
      · rw [mem_dropHash]
        simp [Event.Ends, hrequest, Event.Succeeded, houtcome, Outcome.isOk, Result.isOk]
      · simp [Event.issue?, houtcome, hrequest, hparse, hid]
  | @loggedOut token =>
      split
      · rename_i hempty
        refine ⟨db, survives_none (by simp [Event.issue?, houtcome]) rfl fun r _ => ?_⟩
        simp [Event.Ends, hrequest, hempty]
      · rename_i hsome
        refine ⟨_, ⟨fun r => ?_, Or.inl ⟨by simp [Event.issue?, houtcome], rfl⟩⟩⟩
        rw [mem_dropHash]
        simp [Event.Ends, hrequest, hsome]
  | @loggedOutAll _ user hmem huuid =>
      refine ⟨_, survives_dropUser (by simp [Event.issue?, houtcome]) rfl fun r _ => ?_⟩
      exact huser (.uuid _) (by rw [hrequest]; rfl) hmem huuid (by rw [Event.Succeeded, houtcome]; rfl) trivial r
  | @deleted _ _ user result hmem huuid hiff =>
      have hok : e.outcome.isOk = true ↔ user.disabled = false := by
        rw [houtcome, ← hiff, ← Result.isOk_map (fun _ => Answer.nothing)]
        rfl
      cases hdisabled : user.disabled with
      | false =>
          have hsuccess : e.Succeeded := hok.mpr hdisabled
          refine ⟨_, survives_dropUser ?_ rfl fun r _ => ?_⟩
          · cases result <;> simp [Event.issue?, houtcome, Result.map]
          · exact huser (.uuid _) (by rw [hrequest]; rfl) hmem huuid hsuccess trivial r
      | true =>
          -- the user has been disabled before: there was no session to end
          have hfail : e.outcome.isOk = false := by
            rw [← Bool.not_eq_true, hok, hdisabled]
            decide
          refine ⟨_, survives_none (Event.issue?_of_failed hfail) ?_ fun r _ => ?_⟩
          · exact List.filter_eq_self.mpr fun r hr => by simpa using hdb.quiet user hmem hdisabled r hr
          · exact Event.not_ends_of_failed hfail (by rw [hrequest]; trivial) r
  | @unchanged _ disabled user hmem huuid hsame =>
      refine ⟨db, survives_none (by simp [Event.issue?, houtcome]) rfl fun r hr => ?_⟩
      cases disabled with
      | false => simp [Event.Ends, hrequest, Request.EndsSessions]
      | true =>
          rw [huser (.uuid _) (by rw [hrequest]; rfl) hmem huuid (by rw [Event.Succeeded, houtcome]; rfl) trivial r]
          exact hdb.quiet user hmem hsame r hr
  | @switched _ disabled user hmem huuid _ =>
      cases disabled with
      | false =>
          refine ⟨_, survives_none (by simp [Event.issue?, houtcome]) rfl fun r _ => ?_⟩
          simp [Event.Ends, hrequest, Request.EndsSessions]
      | true =>
          refine ⟨_, survives_dropUser (by simp [Event.issue?, houtcome]) rfl fun r _ => ?_⟩
          exact huser (.uuid _) (by rw [hrequest]; rfl) hmem huuid (by rw [Event.Succeeded, houtcome]; rfl) trivial r
  | cleaned _ =>
      refine ⟨_, ⟨fun r => ?_, Or.inl ⟨by simp [Event.issue?, houtcome], rfl⟩⟩⟩
      rw [List.mem_filter, decide_eq_true_iff, Event.Ends, hrequest, Nat.not_le]

/-- A call of a run has the effect of its request. -/
theorem serve_effect {w : World} {call : Call} (hdb : w.db.WellFormed) (hfaults : call.sqlFaults = []) :
    Effect env (serve env call w).1.time call.draws w.db call.request (serve env call w).1.outcome
      (serve env call w).2.db := by
  obtain ⟨db', hcalm, heffect⟩ :=
    handle_effect env call.draws hdb call.request (call.world w) ⟨rfl, rfl, hfaults⟩
  rw [← hcalm.db] at heffect
  exact heffect

/-- Users stay. -/
theorem serve_users {w : World} (call : Call) {id : Int} (h : ∃ user ∈ w.db.users, user.id = id) :
    ∃ user ∈ (serve env call w).2.db.users, user.id = id := by
  refine run_db_invariant (I := fun db => ∃ user ∈ db.users, user.id = id) (P := fun _ => True) ?_
    (Program.uses_true _) (show ∃ user ∈ (call.world w).db.users, user.id = id from h)
  rintro s - second db ⟨user, huser, hid⟩
  by_cases hkeeps : Cmd.KeepsUsers (.sql s)
  · rw [(SqlStmt.apply_users hkeeps second db).1]
    exact ⟨user, huser, hid⟩
  · cases s with
    | insertUser uuid mobile displayName passwordHash role =>
        rcases apply_insertUser second db uuid mobile displayName passwordHash role with ⟨e, he⟩ | ⟨-, -, he⟩
        · rw [he]
          exact ⟨user, huser, hid⟩
        · rw [he]
          exact ⟨user, List.mem_append_left _ huser, hid⟩
    | updateUser upd => exact ⟨_, List.mem_map_of_mem huser, by rw [UserUpdate.write_id, hid]⟩
    | _ => exact absurd trivial hkeeps

end Calls

/-- The log and the tables agree: every row is a token that was handed out and not given up since, and every token
has its row until it is given up or cleaned up. -/
structure Tracked (env : Env) (log : List Event) (db : Database) : Prop where
  settled : db.Settled
  rows : ∀ r ∈ db.sessions, ∃ before e after token, log = before ++ e :: after ∧
    e.issue? env = some (token, r.userId) ∧ r.tokenHash = hashToken env.crypto token ∧
    r.expiresAt = e.expSecond env ∧ ∀ x ∈ after, ¬x.Revokes token r.userId
  kept : ∀ before e after token id, log = before ++ e :: after → e.issue? env = some (token, id) →
    (∀ x ∈ after, x.Keeps token id (e.expSecond env)) →
      ∃ r ∈ db.sessions, r.tokenHash = hashToken env.crypto token ∧ r.userId = id ∧ r.expiresAt = e.expSecond env
  issued : ∀ e ∈ log, ∀ token id, e.issue? env = some (token, id) →
    (∃ jti user, token = generateRefreshToken env.crypto env.config.security e.time jti user ∧ user.id = id) ∧
    ∃ user ∈ db.users, user.id = id

section Step

variable {env : Env} {e : Event} {r : TokenSession} {token : Bytes} {id : Int}

theorem Event.issued?_of_issue? (h : e.issue? env = some (token, id)) : e.issued? = some token := by
  unfold Event.issue? at h
  split at h
  · rename_i result houtcome
    cases h
    simp [Event.issued?, houtcome]
  · rename_i pair old houtcome _
    split at h
    · obtain ⟨id', -, hpair⟩ := Option.map_eq_some_iff.mp h
      cases hpair
      simp [Event.issued?, houtcome]
    · cases h
  · cases h

theorem Event.mem_tokens_of_issue? (h : e.issue? env = some (token, id)) : token ∈ e.tokens := by
  simp [Event.tokens, Event.issued?_of_issue? h]

theorem Event.mem_tokens_of_request (h : e.request = .refreshToken token ∨ e.request = .logout token) :
    token ∈ e.tokens := by
  rcases h with h | h <;> simp [Event.tokens, h]

/-- A call that gives up a token removes its row. -/
theorem Event.ends_of_revokes (h : e.Revokes token id) (htoken : token ≠ [])
    (hhash : r.tokenHash = hashToken env.crypto token) (hid : r.userId = id) : e.Ends env r := by
  subst hid
  rcases h with ⟨hrequest, hok⟩ | hrequest | ⟨hok, hall, hconcerns⟩
  · rw [Event.Ends, hrequest]
    exact ⟨hok, hhash⟩
  · rw [Event.Ends, hrequest]
    exact ⟨htoken, hhash⟩
  · unfold Event.Ends
    cases hrequest : e.request with
    | refreshToken _ | logout _ | cleanExpiredTokens =>
        rw [hrequest] at hall
        cases hall
    | _ => exact ⟨hok, hrequest ▸ hall, hconcerns⟩

/-- A call that keeps the row of a token does not remove it. -/
theorem Event.not_ends_of_keeps (h : e.Keeps token id r.expiresAt)
    (hinj : ∀ other ∈ e.tokens, r.tokenHash = hashToken env.crypto other → other = token) (hid : r.userId = id) :
    ¬e.Ends env r := by
  subst hid
  intro hends
  unfold Event.Ends at hends
  split at hends
  · rename_i other hrequest
    obtain rfl := hinj other (Event.mem_tokens_of_request (Or.inl hrequest)) hends.2
    exact h.1 (Or.inl ⟨hrequest, hends.1⟩)
  · rename_i other hrequest
    obtain rfl := hinj other (Event.mem_tokens_of_request (Or.inr hrequest)) hends.2
    exact h.1 (Or.inr (Or.inl hrequest))
  · rename_i hrequest
    exact absurd (h.2 hrequest) (Nat.not_lt.mpr hends)
  · exact h.1 (Or.inr (Or.inr hends))

variable {db db' base : Database} {t : Nat} {draws : Draws} {user : UserEntity}

theorem mem_issue (hr : r ∈ (base.issue env t draws user).sessions) :
    r ∈ base.sessions ∨ (r.userId = user.id ∧
      r.tokenHash = hashToken env.crypto (tokensAt env t draws user).refreshToken ∧
      r.expiresAt = toTimeT (addSeconds t env.config.security.refreshTokenTtlSeconds)) := by
  rcases SqlStmt.apply_sessions_origin hr with h | h
  · exact Or.inl h
  · obtain ⟨huser, hhash, hexp⟩ := SqlStmt.insertSession.inj h
    exact Or.inr ⟨huser.symm, hhash.symm, hexp.symm⟩

theorem mem_issue_of_mem (hr : r ∈ base.sessions) : r ∈ (base.issue env t draws user).sessions := by
  simp only [Database.issue, Database.store, SqlStmt.apply]
  split
  · exact hr
  · split
    · exact hr
    · exact List.mem_append_left _ hr

/-- A row that a call has not removed is still there. -/
theorem Survives.stays (h : Survives env draws db db' e base) (hr : r ∈ db.sessions) (hnot : ¬e.Ends env r) :
    r ∈ db'.sessions := by
  have hbase : r ∈ base.sessions := (h.kept r).mpr ⟨hr, hnot⟩
  rcases h.stored with ⟨-, hsame⟩ | ⟨user, -, -, hdb⟩
  · rwa [hsame]
  · rw [hdb]
    exact mem_issue_of_mem hbase

/-- A token whose hash is new gets its row. -/
theorem exists_mem_issue (huser : user ∈ base.users)
    (hfresh : ∀ r ∈ base.sessions,
      r.tokenHash ≠ hashToken env.crypto (tokensAt env t draws user).refreshToken) :
    ∃ r ∈ (base.issue env t draws user).sessions,
      r.tokenHash = hashToken env.crypto (tokensAt env t draws user).refreshToken ∧ r.userId = user.id ∧
        r.expiresAt = toTimeT (addSeconds t env.config.security.refreshTokenTtlSeconds) := by
  simp only [Database.issue, Database.store, SqlStmt.apply]
  rw [if_neg (by simpa using hfresh), if_neg (by simpa using ⟨user, huser, rfl⟩)]
  exact ⟨_, List.mem_append_right _ List.mem_cons_self, rfl, rfl, rfl⟩

end Step

/-- The hash tells the tokens apart. -/
def HashInjectiveOn (env : Env) (tokens : List Bytes) : Prop :=
  ∀ a ∈ tokens, ∀ b ∈ tokens, hashToken env.crypto a = hashToken env.crypto b → a = b

section Runs

variable {env : Env} {log : List Event} {db : Database}

theorem generateRefreshToken_ne_nil (crypto : Crypto) (config : SecurityConfig) (issued : Nat) (jti : Jti)
    (user : UserEntity) : generateRefreshToken crypto config issued jti user ≠ [] :=
  createJwt_ne_nil crypto _ _

theorem Tracked.token_ne_nil (h : Tracked env log db) {e : Event} (he : e ∈ log) {token : Bytes} {id : Int}
    (hissue : e.issue? env = some (token, id)) : token ≠ [] := by
  obtain ⟨⟨jti, user, rfl, -⟩, -⟩ := h.issued e he token id hissue
  exact generateRefreshToken_ne_nil _ _ _ _ _

section Extend

variable {e : Event} {db' : Database} {draws : Draws} {base : Database}

/-- The rows after a call stand for tokens of the longer log. -/
theorem Tracked.extend_rows (h : Tracked env log db) (hsurvives : Survives env draws db db' e base) :
    ∀ r ∈ db'.sessions, ∃ before x after token, log ++ [e] = before ++ x :: after ∧
      x.issue? env = some (token, r.userId) ∧ r.tokenHash = hashToken env.crypto token ∧
      r.expiresAt = x.expSecond env ∧ ∀ y ∈ after, ¬y.Revokes token r.userId := by
  have hold : ∀ r ∈ base.sessions, ∃ before x after token, log ++ [e] = before ++ x :: after ∧
      x.issue? env = some (token, r.userId) ∧ r.tokenHash = hashToken env.crypto token ∧
      r.expiresAt = x.expSecond env ∧ ∀ y ∈ after, ¬y.Revokes token r.userId := by
    intro r hr
    obtain ⟨hmem, hnot⟩ := (hsurvives.kept r).mp hr
    obtain ⟨before, x, after, token, rfl, hissue, hhash, hexp, hkeep⟩ := h.rows r hmem
    refine ⟨before, x, after ++ [e], token, by simp, hissue, hhash, hexp, fun y hy hrevokes => ?_⟩
    rcases List.mem_append.mp hy with hy | hy
    · exact hkeep y hy hrevokes
    · obtain rfl := List.mem_singleton.mp hy
      have hne : token ≠ [] := h.token_ne_nil (List.mem_append_right _ List.mem_cons_self) hissue
      exact hnot (Event.ends_of_revokes hrevokes hne hhash rfl)
  intro r hr
  rcases hsurvives.stored with ⟨-, hsame⟩ | ⟨user, -, hissue, hdb⟩
  · rw [hsame] at hr
    exact hold r hr
  · rw [hdb] at hr
    rcases mem_issue hr with hr | ⟨huser, hhash, hexp⟩
    · exact hold r hr
    · exact ⟨log, e, [], _, rfl, by rw [hissue, huser], hhash, hexp, fun y hy => absurd hy List.not_mem_nil⟩

/-- A token that has just been handed out differs from those of the rows. -/
theorem Tracked.fresh (h : Tracked env log db) (hsurvives : Survives env draws db db' e base)
    (hinj : HashInjectiveOn env ((log ++ [e]).flatMap Event.tokens))
    (hdistinct : ((log ++ [e]).filterMap Event.issued?).Nodup) {token : Bytes} {id : Int}
    (hissue : e.issue? env = some (token, id)) : ∀ r ∈ base.sessions, r.tokenHash ≠ hashToken env.crypto token := by
  intro r hr hhash
  obtain ⟨before, x, after, old, rfl, hold, hrow, -, -⟩ := h.rows r ((hsurvives.kept r).mp hr).1
  have hx : x ∈ before ++ x :: after := List.mem_append_right _ List.mem_cons_self
  have hmem : old ∈ ((before ++ x :: after) ++ [e]).flatMap Event.tokens :=
    List.mem_flatMap.mpr ⟨x, List.mem_append_left _ hx, Event.mem_tokens_of_issue? hold⟩
  have hmem' : token ∈ ((before ++ x :: after) ++ [e]).flatMap Event.tokens :=
    List.mem_flatMap.mpr ⟨e, List.mem_append_right _ List.mem_cons_self, Event.mem_tokens_of_issue? hissue⟩
  obtain rfl : old = token := hinj old hmem token hmem' (hrow.symm.trans hhash)
  have hlast : [e].filterMap Event.issued? = [old] := by
    rw [List.filterMap_cons_some (Event.issued?_of_issue? hissue)]
    rfl
  rw [List.filterMap_append, hlast] at hdistinct
  refine (List.nodup_append.mp hdistinct).2.2 old ?_ old List.mem_cons_self rfl
  exact List.mem_filterMap.mpr ⟨x, hx, Event.issued?_of_issue? hold⟩

/-- A token has its row until it is given up or cleaned up. -/
theorem Tracked.extend_kept (h : Tracked env log db) (hsurvives : Survives env draws db db' e base)
    (hinj : HashInjectiveOn env ((log ++ [e]).flatMap Event.tokens))
    (hdistinct : ((log ++ [e]).filterMap Event.issued?).Nodup) :
    ∀ before x after token id, log ++ [e] = before ++ x :: after → x.issue? env = some (token, id) →
      (∀ y ∈ after, y.Keeps token id (x.expSecond env)) →
        ∃ r ∈ db'.sessions, r.tokenHash = hashToken env.crypto token ∧ r.userId = id ∧
          r.expiresAt = x.expSecond env := by
  intro before x after token id hlog hissue hkeep
  rcases snoc_eq_append_cons hlog with ⟨-, rfl⟩ | ⟨rest, rfl, rfl⟩
  · -- the token of this call
    rcases hsurvives.stored with ⟨hnone, -⟩ | ⟨user, huser, hstored, hdb⟩
    · rw [hnone] at hissue
      cases hissue
    · rw [hstored] at hissue
      cases hissue
      rw [hdb]
      exact exists_mem_issue huser (h.fresh hsurvives hinj hdistinct hstored)
  · -- a token of an earlier call: its row is there, and this call does not remove it
    have hx : x ∈ before ++ x :: rest := List.mem_append_right _ List.mem_cons_self
    obtain ⟨r, hr, hhash, hid, hrow⟩ := h.kept before x rest token id rfl hissue
      (fun y hy => hkeep y (List.mem_append_left _ hy))
    have hlast : e.Keeps token id r.expiresAt := hrow ▸ hkeep e (List.mem_append_right _ List.mem_cons_self)
    have hnot : ¬e.Ends env r := by
      refine Event.not_ends_of_keeps hlast (fun other hother hsame => ?_) hid
      refine hinj other ?_ token ?_ (hsame.symm.trans hhash)
      · exact List.mem_flatMap.mpr ⟨e, List.mem_append_right _ List.mem_cons_self, hother⟩
      · exact List.mem_flatMap.mpr ⟨x, List.mem_append_left _ hx, Event.mem_tokens_of_issue? hissue⟩
    exact ⟨r, hsurvives.stays hr hnot, hhash, hid, hrow⟩

/-- Where the tokens of the longer log come from. -/
theorem Tracked.extend_issued (h : Tracked env log db) (hsurvives : Survives env draws db db' e base)
    (husers : ∀ id, (∃ user ∈ db.users, user.id = id) → ∃ user ∈ db'.users, user.id = id) :
    ∀ x ∈ log ++ [e], ∀ token id, x.issue? env = some (token, id) →
      (∃ jti user, token = generateRefreshToken env.crypto env.config.security x.time jti user ∧ user.id = id) ∧
      ∃ user ∈ db'.users, user.id = id := by
  intro x hx token id hissue
  rcases List.mem_append.mp hx with hx | hx
  · obtain ⟨hmade, huser⟩ := h.issued x hx token id hissue
    exact ⟨hmade, husers id huser⟩
  · obtain rfl := List.mem_singleton.mp hx
    rcases hsurvives.stored with ⟨hnone, -⟩ | ⟨user, huser, hstored, hdb⟩
    · rw [hnone] at hissue
      cases hissue
    · rw [hstored] at hissue
      cases hissue
      refine ⟨⟨draws.refreshJti, user, rfl, rfl⟩, user, ?_, rfl⟩
      rw [hdb, Database.issue, users_store]
      exact huser

end Extend

/-- **One call.** The log and the tables agree after it, whatever the clock says. -/
theorem Tracked.serve {w : World} (h : Tracked env log w.db) {call : Call} (hfaults : call.sqlFaults = [])
    (hinj : HashInjectiveOn env ((log ++ [(serve env call w).1]).flatMap Event.tokens))
    (hdistinct : ((log ++ [(serve env call w).1]).filterMap Event.issued?).Nodup) :
    Tracked env (log ++ [(serve env call w).1]) (serve env call w).2.db := by
  have heffect := @serve_effect env w call h.settled.wellFormed hfaults
  obtain ⟨base, hsurvives⟩ := heffect.survives h.settled rfl rfl rfl rfl
  exact {
    settled := ⟨run_wellFormed _ h.settled.wellFormed, heffect.quiet h.settled⟩
    rows := h.extend_rows hsurvives
    kept := h.extend_kept hsurvives hinj hdistinct
    issued := h.extend_issued hsurvives fun id hid => serve_users call hid }

section History

variable {ι : Type} {w : World}

/-- A request of a run is served as a call without a failing statement, at whatever time. -/
def ServesCall (env : Env) (step : ι → World → Event × World) (request : ι) : Prop :=
  ∀ w, ∃ call w', call.sqlFaults = [] ∧ w'.db = w.db ∧ step request w = AccountService.serve env call w'

theorem servesCall_serve {call : Call} (hfaults : call.sqlFaults = []) :
    ServesCall env (AccountService.serve env) call :=
  fun w => ⟨call, w, hfaults, rfl, rfl⟩

theorem tracked_history {step : ι → World → Event × World} {uuidKey : Bytes → Bytes}
    (hempty : w.db = Database.empty uuidKey) (requests : List ι)
    (hserves : ∀ request ∈ requests, ServesCall env step request)
    (hinj : HashInjectiveOn env ((history step requests w).1.flatMap Event.tokens))
    (hdistinct : ((history step requests w).1.filterMap Event.issued?).Nodup) :
    Tracked env (history step requests w).1 (history step requests w).2.db := by
  induction requests using List.reverseRecOn with
  | nil =>
      refine ⟨?_, ?_, ?_, ?_⟩
      · rw [history_nil, hempty]
        exact ⟨Database.wellFormed_empty uuidKey, fun _ hu => absurd hu List.not_mem_nil⟩
      · intro r hr
        rw [history_nil, hempty] at hr
        exact absurd hr List.not_mem_nil
      · intro before e after token id hlog
        rw [history_nil] at hlog
        simp at hlog
      · intro e he
        exact absurd he List.not_mem_nil
  | append_singleton earlier request ih =>
      rw [history_snoc] at hinj hdistinct ⊢
      have hbefore := ih (fun c hc => hserves c (List.mem_append_left _ hc))
        (fun a ha b hb => hinj a (by simp [ha]) b (by simp [hb]))
        (by rw [List.filterMap_append] at hdistinct; exact (List.nodup_append.mp hdistinct).1)
      obtain ⟨call, w', hfaults, hdb, hstep⟩ :=
        hserves request (List.mem_append_right _ List.mem_cons_self) (history step earlier w).2
      rw [hstep] at hinj hdistinct ⊢
      rw [← hdb] at hbefore
      exact hbefore.serve hfaults hinj hdistinct

/-- With a clock that does not go back every event is of the past. -/
theorem time_le_clock (env : Env) (calls : List Call) (w : World) :
    ∀ e ∈ (history (AccountService.serve env) calls w).1,
      e.time ≤ (history (AccountService.serve env) calls w).2.clock := by
  induction calls using List.reverseRecOn with
  | nil => exact fun _ he => absurd he List.not_mem_nil
  | append_singleton earlier call ih =>
      rw [history_snoc]
      have hclock : (AccountService.serve env call (history (AccountService.serve env) earlier w).2).2.clock =
          (history (AccountService.serve env) earlier w).2.clock + call.delay := run_clock _ _
      intro e he
      rw [hclock]
      rcases List.mem_append.mp he with he | he
      · exact le_trans (ih e he) (Nat.le_add_right _ _)
      · obtain rfl := List.mem_singleton.mp he
        exact le_refl _

/-- A token that has not been given up has its row until it expires. -/
theorem Tracked.live (h : Tracked env log db) {now : Nat} (htimes : ∀ e ∈ log, e.time ≤ now) {before after : List Event}
    {e : Event} {token : Bytes} {id : Int} (hlog : log = before ++ e :: after) (hissue : e.issue? env = some (token, id))
    (hkeep : ∀ x ∈ after, ¬x.Revokes token id) (hexp : toTimeT now < e.expSecond env) :
    ∃ r ∈ db.sessions, r.tokenHash = hashToken env.crypto token ∧ r.userId = id ∧ r.expiresAt = e.expSecond env := by
  refine h.kept before e after token id hlog hissue fun x hx => ⟨hkeep x hx, fun _ => ?_⟩
  have htime : x.time ≤ now := htimes x (hlog ▸ List.mem_append_right _ (List.mem_cons_of_mem _ hx))
  exact lt_of_le_of_lt (Nat.div_le_div_right htime) hexp

end History

end Runs

section Refresh

variable {env : Env} {t : Nat} {draws : Draws} {db db' : Database} {token : Bytes}

/-- What a refresh that succeeds has found. -/
theorem Effect.of_refreshed {request : Request} {outcome : Outcome Answer}
    (h : Effect env t draws db request outcome db') (hrequest : request = .refreshToken token)
    (hok : outcome.isOk = true) :
    ∃ text user, parseRefreshToken env.crypto env.config.security t token = .ok text ∧
      stoll text = some user.id ∧ user ∈ db.users ∧ user.disabled = false ∧
      ∃ r ∈ db.sessions, r.tokenHash = hashToken env.crypto token ∧ toTimeT t < r.expiresAt := by
  cases h with
  | failed hfail _ =>
      rw [hfail] at hok
      cases hok
  | loggedIn hlogin _ _ _ =>
      rw [hrequest] at hlogin
      rcases hlogin with ⟨_, hlogin⟩ | ⟨_, hlogin⟩ <;> cases hlogin
  | refreshed hparse hid huser henabled hvalid =>
      cases hrequest
      exact ⟨_, _, hparse, hid, huser, henabled, hvalid⟩
  | _ => cases hrequest

/-- A refresh with a token that parses, has its row and is for an enabled user succeeds. -/
theorem leaves_refreshToken_ok (hdb : db.WellFormed) {text : Bytes} {user : UserEntity} (htoken : token ≠ [])
    (hparse : parseRefreshToken env.crypto env.config.security t token = .ok text)
    (hid : stoll text = some user.id) (huser : user ∈ db.users) (henabled : user.disabled = false)
    (hvalid : ∃ r ∈ db.sessions, r.tokenHash = hashToken env.crypto token ∧ toTimeT t < r.expiresAt) :
    Leaves t db (refreshToken env draws token) fun o _ => o.isOk = true := by
  have hfind : db.users.find? (·.id = user.id) = some user := hdb.id.find huser
  have hsession : (db.sessions.any fun r => r.tokenHash = hashToken env.crypto token ∧ toTimeT t < r.expiresAt) =
      true := by
    simpa using hvalid
  rw [refreshToken, if_neg htoken]
  refine leaves_now.bind fun a db' h => ?_
  obtain ⟨rfl, rfl⟩ := h
  simp only [refreshAt, hparse, hid]
  refine Leaves.bind (R := fun r _ => r.isOk = true) ?_ fun r _ hr => leaves_pure hr
  refine Leaves.bind (R := fun r db'' => r = .ok user ∧ db'' = db') ?_ fun r db'' h => ?_
  · refine (leaves_sqlCall (.selectUserById user.id)).bind fun r db'' h => leaves_pure ?_
    obtain ⟨rfl, rfl⟩ := h
    exact ⟨congrArg (fun row => foundUser (.ofSql (.ok row))) hfind, rfl⟩
  · obtain ⟨rfl, rfl⟩ := h
    simp only [orFail_ok, henabled, Bool.false_eq_true, if_false]
    refine (leaves_sqlCall (.selectValidSession (hashToken env.crypto token))).bind fun r db' h => ?_
    obtain ⟨rfl, rfl⟩ := h
    simp only [SqlStmt.apply, Result.ofSql, orFail_ok, hsession, not_true_eq_false, if_false]
    refine (leaves_deleteByTokenHash _).bind fun _ db' _ => ?_
    refine (leaves_generateTokenPair env draws user).bind fun pair db' _ => ?_
    refine (leaves_storeRefreshToken env user.id _).bind fun _ db' _ => ?_
    exact leaves_pure rfl

end Refresh

/-- An issuer that neither starts with a digit or a minus sign nor holds a backspace or a form feed. -/
structure PlainIssuer (issuer : Bytes) : Prop where
  start : ∀ c rest, issuer = c :: rest → isDigit c = false ∧ c ≠ minus
  backspace : (8 : UInt8) ∉ issuer
  formFeed : (12 : UInt8) ∉ issuer

theorem PlainIssuer.survives {issuer : Bytes} (h : PlainIssuer issuer) : survives issuer = true := by
  have hnumber : isNumber issuer = false := by
    cases hissuer : issuer with
    | nil => rfl
    | cons c rest =>
        obtain ⟨hdigit, hminus⟩ := h.start c rest hissuer
        simp [isNumber, hdigit, hminus]
  rw [AccountService.survives, hnumber, if_neg Bool.false_ne_true, List.all_eq_true]
  intro c hc
  have h8 : c ≠ 8 := fun heq => h.backspace (heq ▸ hc)
  have h12 : c ≠ 12 := fun heq => h.formFeed (heq ▸ hc)
  simp [h8, h12]

/-- Before its second of expiry a token is not past its expiry. -/
theorem le_fromTimeT_of_lt {now issued : Nat} {ttl : Int32} (hrange : IsInt64 (addSeconds issued ttl))
    (h : toTimeT now < toTimeT (addSeconds issued ttl)) :
    (now : Int) ≤ fromTimeT (toTimeT (addSeconds issued ttl) : Nat) := by
  unfold toTimeT at h ⊢
  unfold IsInt64 at hrange
  unfold fromTimeT nanosPerSecond at *
  rw [Int.bmod_eq_of_le_mul_two (by omega) (by omega)]
  omega

/-- What a token that was handed out says while it has not expired. -/
theorem Tracked.parse {env : Env} {log : List Event} {db : Database} (h : Tracked env log db)
    (hissuer : PlainIssuer env.config.security.jwtIssuer) {now : Nat} (htimes : ∀ e ∈ log, e.time ≤ now)
    (hclock : IsInt64 now) (hrange : IsInt64 (addSeconds now env.config.security.refreshTokenTtlSeconds))
    {e : Event} (he : e ∈ log) {token : Bytes} {id : Int} (hissue : e.issue? env = some (token, id))
    (hlive : toTimeT now < e.expSecond env) :
    parseRefreshToken env.crypto env.config.security now token = .ok (toString id) ∧
      stoll (toString id) = some id := by
  obtain ⟨⟨jti, made, rfl, rfl⟩, user, huser, hid⟩ := h.issued e he token id hissue
  have htime := htimes e he
  have hissued : IsInt64 e.time := by
    unfold IsInt64 at hclock ⊢
    omega
  have hexp : IsInt64 (addSeconds e.time env.config.security.refreshTokenTtlSeconds) := by
    unfold IsInt64 addSeconds at hrange ⊢
    omega
  have hbelow := h.settled.wellFormed.idBelow user huser
  have hnext := h.settled.wellFormed.next
  have hint : IsInt64 made.id := by
    unfold IsInt64
    omega
  exact ⟨parseRefreshToken_generateRefreshToken env.crypto e.time jti hissuer.survives hissued
    (le_fromTimeT_of_lt hexp hlive), stoll_toString hint⟩

/-- **Session semantics.** After any run from empty tables in which no statement fails, the hash tells the tokens
apart and no token is handed out twice, `RefreshToken` succeeds exactly with a token that an earlier call handed out
to a user, before its second of expiry, if nothing has given it up since and the user is enabled. -/
theorem refresh_succeeds_iff (env : Env) {uuidKey : Bytes → Bytes} {w : World} {call : Call} {token : Bytes}
    (hempty : w.db = Database.empty uuidKey) (calls : List Call) (hfaults : ∀ c ∈ calls ++ [call], c.sqlFaults = [])
    (hissuer : PlainIssuer env.config.security.jwtIssuer) (hrequest : call.request = .refreshToken token)
    (hclock : IsInt64 (call.world (history (serve env) calls w).2).clock)
    (hrange : IsInt64 (addSeconds (call.world (history (serve env) calls w).2).clock
      env.config.security.refreshTokenTtlSeconds))
    (hinj : HashInjectiveOn env (token :: (history (serve env) calls w).1.flatMap Event.tokens))
    (hdistinct : ((history (serve env) calls w).1.filterMap Event.issued?).Nodup) :
    (serve env call (history (serve env) calls w).2).1.Succeeded ↔
      ∃ before e after id, (history (serve env) calls w).1 = before ++ e :: after ∧
        e.issue? env = some (token, id) ∧
        toTimeT (call.world (history (serve env) calls w).2).clock < e.expSecond env ∧
        (∀ x ∈ after, ¬x.Revokes token id) ∧
        ∃ u ∈ (history (serve env) calls w).2.db.users, u.id = id ∧ u.disabled = false := by
  have htracked := tracked_history hempty calls
    (fun c hc => servesCall_serve (hfaults c (List.mem_append_left _ hc)))
    (fun a ha b hb => hinj a (List.mem_cons_of_mem _ ha) b (List.mem_cons_of_mem _ hb)) hdistinct
  have hfault : call.sqlFaults = [] := hfaults call (List.mem_append_right _ List.mem_cons_self)
  have hpast := time_le_clock env calls w
  generalize (history (serve env) calls w).1 = log at *
  generalize (history (serve env) calls w).2 = w' at *
  have hwf := htracked.settled.wellFormed
  have htimes : ∀ e ∈ log, e.time ≤ (call.world w').clock :=
    fun e he => le_trans (hpast e he) (Nat.le_add_right _ _)
  constructor
  · intro hok
    obtain ⟨text, user, hparse, hid, huser, henabled, r, hr, hhash, hlive⟩ :=
      (@serve_effect env w' call hwf hfault).of_refreshed hrequest hok
    obtain ⟨before, e, after, issued, hlog, hissue, hrow, hexp, hkeep⟩ := htracked.rows r hr
    have he : e ∈ log := hlog ▸ List.mem_append_right _ List.mem_cons_self
    obtain rfl : issued = token := by
      refine hinj issued (List.mem_cons_of_mem _ ?_) token List.mem_cons_self (hrow.symm.trans hhash)
      exact List.mem_flatMap.mpr ⟨e, he, Event.mem_tokens_of_issue? hissue⟩
    rw [hexp] at hlive
    obtain ⟨hread, hstoll⟩ := htracked.parse hissuer htimes hclock hrange he hissue hlive
    have hsame : user.id = r.userId := by
      obtain rfl : text = toString r.userId := Result.ok.inj (hparse.symm.trans hread)
      exact Option.some.inj (hid.symm.trans hstoll)
    exact ⟨before, e, after, r.userId, hlog, hissue, hlive, hkeep, user, huser, hsame, henabled⟩
  · rintro ⟨before, e, after, id, hlog, hissue, hlive, hkeep, user, huser, rfl, henabled⟩
    have he : e ∈ log := hlog ▸ List.mem_append_right _ List.mem_cons_self
    obtain ⟨r, hr, hhash, -, hexp⟩ := htracked.live htimes hlog hissue hkeep hlive
    obtain ⟨hread, hstoll⟩ := htracked.parse hissuer htimes hclock hrange he hissue hlive
    have hrun := @leaves_refreshToken_ok env _ call.draws _ token hwf _ _ (htracked.token_ne_nil he hissue) hread
      hstoll huser henabled ⟨r, hr, hhash, by rwa [hexp]⟩
    obtain ⟨db', -, hok⟩ := hrun (call.world w') ⟨rfl, rfl, hfault⟩
    show (Program.run exec (handle env call.draws call.request) (call.world w')).1.isOk = true
    rw [hrequest, handle, Program.run_bind, Program.run_pure, Outcome.isOk_map]
    exact hok

/-- The registration of the sample user, and the refresh token that it handed out. -/
def registration : List Event × World := history (serve defaultEnv) signUpCalls (emptyWorld 0)

theorem refresh_succeeds_sample :
    (serve defaultEnv (.sample 60 (.refreshToken firstToken)) registration.2).1.Succeeded ↔
      ∃ before e after id, registration.1 = before ++ e :: after ∧
        e.issue? defaultEnv = some (firstToken, id) ∧
        toTimeT ((Call.sample 60 (.refreshToken firstToken)).world registration.2).clock < e.expSecond defaultEnv ∧
        (∀ x ∈ after, ¬x.Revokes firstToken id) ∧
        ∃ u ∈ registration.2.db.users, u.id = id ∧ u.disabled = false := by
  have htokens : registration.1.flatMap Event.tokens = [firstToken] := by decide +kernel
  have hissued : registration.1.filterMap Event.issued? = [firstToken] := by decide +kernel
  have hclock : ((Call.sample 60 (.refreshToken firstToken)).world registration.2).clock = 61000000000 := by
    decide +kernel
  have hfaults : ∀ c ∈ signUpCalls ++ [.sample 60 (.refreshToken firstToken)], c.sqlFaults = [] := by
    intro c hc
    simp only [signUpCalls, List.cons_append, List.nil_append, List.mem_cons, List.not_mem_nil, or_false] at hc
    rcases hc with rfl | rfl | rfl <;> rfl
  have hissuer : PlainIssuer defaultEnv.config.security.jwtIssuer :=
    ⟨by intro c rest h; cases h; decide, by decide, by decide⟩
  have hinj : HashInjectiveOn defaultEnv (firstToken :: registration.1.flatMap Event.tokens) := by
    rw [htokens]
    intro a ha b hb _
    simp only [List.mem_cons, List.not_mem_nil, or_false, or_self] at ha hb
    rw [ha, hb]
  exact refresh_succeeds_iff defaultEnv rfl signUpCalls hfaults hissuer rfl
    (show IsInt64 ((Call.sample 60 (.refreshToken firstToken)).world registration.2).clock by rw [hclock]; decide)
    (show IsInt64 (addSeconds ((Call.sample 60 (.refreshToken firstToken)).world registration.2).clock _) by
      rw [hclock]; decide)
    hinj (show (registration.1.filterMap Event.issued?).Nodup by rw [hissued]; exact List.nodup_singleton _)

end AccountService
