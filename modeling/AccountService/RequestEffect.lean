import AccountService.DatabaseSpec
import AccountService.RequestFrame

/-! What a request does to the two tables when no statement fails: one effect for each way in which a request
can end. A run of requests is then a run of effects, whatever happens in Redis. -/

namespace AccountService

open AuthService Interaction

/-- The tables at an instant, with no statement about to fail. -/
structure Calm (t : Nat) (db : Database) (w : World) : Prop where
  clock : w.clock = t
  db : w.db = db
  faults : w.sqlFaults = []

/-- Run at the instant `t` on the tables `db`, no statement failing, the program returns and leaves what `Q`
says. -/
def Leaves {α : Type} (t : Nat) (db : Database) (p : Action α) (Q : α → Database → Prop) : Prop :=
  ∀ w, Calm t db w → ∃ db', Calm t db' (Program.run exec p w).2 ∧ Q (Program.run exec p w).1 db'

section Rules

variable {α β : Type} {t : Nat} {db : Database}

theorem leaves_pure {a : α} {Q : α → Database → Prop} (h : Q a db) : Leaves t db (pure a) Q :=
  fun _ hw => ⟨db, hw, h⟩

theorem Leaves.bind {p : Action α} {f : α → Action β} {R : α → Database → Prop} {Q : β → Database → Prop}
    (hp : Leaves t db p R) (hf : ∀ a db', R a db' → Leaves t db' (f a) Q) : Leaves t db (p >>= f) Q := by
  intro w hw
  obtain ⟨db', hmid, hR⟩ := hp w hw
  rw [Program.run_bind]
  exact hf _ db' hR _ hmid

theorem Leaves.mono {p : Action α} {R Q : α → Database → Prop} (hp : Leaves t db p R)
    (h : ∀ a db', R a db' → Q a db') : Leaves t db p Q := by
  intro w hw
  obtain ⟨db', hmid, hR⟩ := hp w hw
  exact ⟨db', hmid, h _ _ hR⟩

theorem leaves_now : Leaves t db now fun a db' => a = t ∧ db' = db :=
  fun _ hw => ⟨db, hw, hw.clock, rfl⟩

theorem leaves_sql (s : SqlStmt) :
    Leaves t db (sql s) fun reply db' =>
      reply = (s.apply (toTimeT t) db).1 ∧ db' = (s.apply (toTimeT t) db).2 := by
  rintro ⟨clock, redis, db', redisFaults, sqlFaults⟩ ⟨rfl, rfl, rfl⟩
  exact ⟨_, ⟨rfl, rfl, rfl⟩, rfl, rfl⟩

theorem leaves_sqlCall (s : SqlStmt) :
    Leaves t db (sqlCall s) fun r db' =>
      r = .ofSql (s.apply (toTimeT t) db).1 ∧ db' = (s.apply (toTimeT t) db).2 := by
  refine (leaves_sql s).bind fun reply db' h => ?_
  obtain ⟨rfl, rfl⟩ := h
  cases (s.apply (toTimeT t) db).1 with
  | ok rows => exact leaves_pure ⟨rfl, rfl⟩
  | error e => exact leaves_pure ⟨rfl, rfl⟩

/-- A program of Redis commands leaves the tables as they are. -/
theorem leaves_redis {keys : Bytes → Prop} {p : Action α} (hp : Program.Uses (Cmd.RedisOn keys) p) :
    Leaves t db p fun _ db' => db' = db := by
  intro w hw
  have hcalm : Calm t db (Program.run exec p w).2 := by
    refine Program.run_invariant (I := Calm t db) exec (fun c hc w hw => ?_) hp hw
    cases c with
    | redis c =>
        exact ⟨(exec_clock w _).trans hw.clock, (exec_redis_db w c).trans hw.db,
          (exec_redis_sqlFaults w c).trans hw.faults⟩
    | now => cases hc
    | sql s => cases hc
  exact ⟨db, hcalm, rfl⟩

theorem leaves_orFail {r : Result α} {next : α → Action (Result β)} {Q : Result β → Database → Prop}
    (hfail : ∀ code message, r = .fail code message → Q (.failWith code message) db)
    (hok : ∀ a, r = .ok a → Leaves t db (next a) Q) : Leaves t db (orFail r next) Q := by
  cases r with
  | ok a => exact hok a rfl
  | fail code message => exact leaves_pure (hfail code message rfl)

theorem leaves_requireValid {check : Except String Unit} {next : Action (Result α)}
    {Q : Result α → Database → Prop} (hfail : ∀ code message, Q (.failWith code message) db)
    (hnext : Leaves t db next Q) : Leaves t db (requireValid check next) Q := by
  cases check with
  | ok _ => exact hnext
  | error message => exact leaves_pure (hfail _ message)

theorem leaves_requireUuid {uuid : Bytes} {next : Action (Result α)} {Q : Result α → Database → Prop}
    (hfail : ∀ code message, Q (.failWith code message) db) (hnext : Leaves t db next Q) :
    Leaves t db (UserService.requireUuid uuid next) Q := by
  unfold UserService.requireUuid
  split
  · exact leaves_pure (hfail _ _)
  · exact hnext

end Rules

/-- `UPDATE users` with the columns of an entity. -/
def Database.put (db : Database) (second : Nat) (user : UserEntity) : Database :=
  { db with users := db.users.map ((UserDB.updateOf user).write db second) }

/-- `INSERT INTO user_sessions`, whose failure is only logged. -/
def Database.store (db : Database) (second : Nat) (userId : Int) (tokenHash : Bytes) (expiresAt : Nat) : Database :=
  ((SqlStmt.insertSession userId tokenHash expiresAt).apply second db).2

def Database.dropUser (db : Database) (userId : Int) : Database :=
  { db with sessions := db.sessions.filter (·.userId ≠ userId) }

def Database.dropHash (db : Database) (tokenHash : Bytes) : Database :=
  { db with sessions := db.sessions.filter (·.tokenHash ≠ tokenHash) }

/-- The token pair that is made at an instant. -/
def tokensAt (env : Env) (t : Nat) (draws : Draws) (user : UserEntity) : TokenPair where
  accessToken := generateAccessToken env.crypto env.config.security t draws.accessJti user
  refreshToken := generateRefreshToken env.crypto env.config.security t draws.refreshJti user
  expiresIn := env.config.security.accessTokenTtlSeconds.toInt

/-- The tables after the refresh token made at an instant has been stored. -/
def Database.issue (db : Database) (env : Env) (t : Nat) (draws : Draws) (user : UserEntity) : Database :=
  db.store (toTimeT t) user.id (hashToken env.crypto (tokensAt env t draws user).refreshToken)
    (toTimeT (addSeconds t env.config.security.refreshTokenTtlSeconds))

/-- `Logout` and `CleanExpiredTokens` fail with their statement only. -/
def Request.CanFail : Request → Prop
  | .logout _ | .cleanExpiredTokens => False
  | _ => True

/-- What a request served at the instant `t` on the tables `db` returns and leaves, no statement failing. -/
inductive Effect (env : Env) (t : Nat) (draws : Draws) (db : Database) :
    Request → Outcome Answer → Database → Prop
  | failed {request : Request} {outcome : Outcome Answer} (h : outcome.isOk = false)
      (hrequest : request.CanFail := by trivial) :
      Effect env t draws db request outcome db
  | sent {mobile : Bytes} {scene : SmsScene} (n : Int) :
      Effect env t draws db (.sendVerifyCode mobile scene) (.returned (.ok (.seconds n))) db
  | registered {mobile verifyCode password displayName : Bytes} {user : UserEntity}
      (huser : user = db.newUser (toTimeT t) draws.uuid mobile displayName
        (passwordHash env.crypto draws.salt password) .user)
      (huuid : ∀ row ∈ db.users, db.uuidKey row.uuid ≠ db.uuidKey draws.uuid)
      (hmobile : ∀ row ∈ db.users, row.mobile ≠ mobile) (hvalid : isValidMobile mobile = .ok ()) :
      Effect env t draws db (.register mobile verifyCode password displayName)
        (.returned (.ok (.signedIn ⟨user.cleared, tokensAt env t draws user⟩)))
        (({ db with users := db.users ++ [user], nextUserId := db.nextUserId + 1 } : Database).issue env t draws user)
  | loggedIn {request : Request} {mobile : Bytes} {user : UserEntity}
      (hrequest : (∃ password, request = .loginByPassword mobile password) ∨
        ∃ verifyCode, request = .loginByCode mobile verifyCode)
      (huser : user ∈ db.users) (hmobile : user.mobile = mobile) (henabled : user.disabled = false) :
      Effect env t draws db request (.returned (.ok (.signedIn ⟨user.cleared, tokensAt env t draws user⟩)))
        (db.issue env t draws user)
  | reset {mobile verifyCode newPassword : Bytes} {user : UserEntity} (huser : user ∈ db.users)
      (hmobile : user.mobile = mobile) :
      Effect env t draws db (.resetPassword mobile verifyCode newPassword) (.returned (.ok .nothing))
        ((db.put (toTimeT t) { user with
          passwordHash := passwordHash env.crypto draws.salt newPassword }).dropUser user.id)
  | refreshed {token text : Bytes} {user : UserEntity}
      (hparse : parseRefreshToken env.crypto env.config.security t token = .ok text)
      (hid : stoll text = some user.id) (huser : user ∈ db.users) (henabled : user.disabled = false)
      (hvalid : ∃ r ∈ db.sessions, r.tokenHash = hashToken env.crypto token ∧ toTimeT t < r.expiresAt) :
      Effect env t draws db (.refreshToken token) (.returned (.ok (.tokens (tokensAt env t draws user))))
        ((db.dropHash (hashToken env.crypto token)).issue env t draws user)
  | loggedOut {token : Bytes} :
      Effect env t draws db (.logout token) (.returned (.ok .nothing))
        (if token = [] then db else db.dropHash (hashToken env.crypto token))
  | loggedOutAll {userUuid : Bytes} {user : UserEntity} (huser : user ∈ db.users)
      (huuid : db.sameUuid user.uuid userUuid = true) :
      Effect env t draws db (.logoutAll userUuid) (.returned (.ok .nothing)) (db.dropUser user.id)
  | got {userUuid : Bytes} {user : UserEntity} :
      Effect env t draws db (.getUser userUuid) (.returned (.ok (.user user.cleared))) db
  | read {userUuid : Bytes} {user : UserEntity} :
      Effect env t draws db (.updateUser userUuid none) (.returned (.ok (.user user.cleared))) db
  | renamed {userUuid name : Bytes} {user : UserEntity} (huser : user ∈ db.users)
      (huuid : db.sameUuid user.uuid userUuid = true) (henabled : user.disabled = false) :
      Effect env t draws db (.updateUser userUuid (some name))
        (.returned (.ok (.user ({ user with displayName := name } : UserEntity).cleared)))
        (db.put (toTimeT t) { user with displayName := name })
  | changed {userUuid oldPassword newPassword : Bytes} {user : UserEntity} (huser : user ∈ db.users)
      (huuid : db.sameUuid user.uuid userUuid = true) (henabled : user.disabled = false) :
      Effect env t draws db (.changePassword userUuid oldPassword newPassword) (.returned (.ok .nothing))
        (db.put (toTimeT t) { user with passwordHash := passwordHash env.crypto draws.salt newPassword })
  -- the sessions go before the row is written, and stay away if the row is not
  | deleted {userUuid verifyCode : Bytes} {user : UserEntity} {result : Result Unit} (huser : user ∈ db.users)
      (huuid : db.sameUuid user.uuid userUuid = true) (hok : result.isOk = true ↔ user.disabled = false) :
      Effect env t draws db (.deleteUser userUuid verifyCode) (.returned (result.map fun _ => .nothing))
        ((db.dropUser user.id).put (toTimeT t) { user with
          disabled := true
          mobile := UserService.releasedMobile user })
  | unchanged {userUuid : Bytes} {disabled : Bool} {user : UserEntity} (huser : user ∈ db.users)
      (huuid : db.sameUuid user.uuid userUuid = true) (hsame : user.disabled = disabled) :
      Effect env t draws db (.setUserDisabled userUuid disabled) (.returned (.ok .nothing)) db
  | switched {userUuid : Bytes} {disabled : Bool} {user : UserEntity} (huser : user ∈ db.users)
      (huuid : db.sameUuid user.uuid userUuid = true) (hother : user.disabled ≠ disabled) :
      Effect env t draws db (.setUserDisabled userUuid disabled) (.returned (.ok .nothing))
        (if disabled then (db.put (toTimeT t) { user with disabled := disabled }).dropUser user.id
          else db.put (toTimeT t) { user with disabled := disabled })
  | cleaned (n : Nat) :
      Effect env t draws db .cleanExpiredTokens (.returned (.ok (.count n)))
        { db with sessions := db.sessions.filter (toTimeT t < ·.expiresAt) }

section Calls

variable {t : Nat} {db : Database}

/-- A row that a lookup returns is in the table and satisfies its condition. -/
theorem foundUser_find {p : UserEntity → Bool} {user : UserEntity}
    (h : foundUser (.ofSql (.ok (db.users.find? p))) = .ok user) : user ∈ db.users ∧ p user = true := by
  cases hfind : db.users.find? p with
  | none =>
      rw [hfind] at h
      cases h
  | some row =>
      rw [hfind] at h
      cases h
      exact ⟨List.mem_of_find?_eq_some hfind, List.find?_some hfind⟩

theorem leaves_findByUUID (uuid : Bytes) :
    Leaves t db (UserDB.findByUUID uuid) fun r db' => db' = db ∧
      ∀ user, r = .ok user → user ∈ db.users ∧ db.sameUuid user.uuid uuid = true := by
  refine (leaves_sqlCall (.selectUserByUuid uuid)).bind fun r db' h => leaves_pure ?_
  obtain ⟨rfl, rfl⟩ := h
  exact ⟨rfl, fun user huser => foundUser_find huser⟩

theorem leaves_findByMobile (mobile : Bytes) :
    Leaves t db (UserDB.findByMobile mobile) fun r db' => db' = db ∧
      ∀ user, r = .ok user → user ∈ db.users ∧ user.mobile = mobile := by
  refine (leaves_sqlCall (.selectUserByMobile mobile)).bind fun r db' h => leaves_pure ?_
  obtain ⟨rfl, rfl⟩ := h
  refine ⟨rfl, fun user huser => ?_⟩
  obtain ⟨hmem, hfound⟩ := foundUser_find huser
  exact ⟨hmem, by simpa using hfound⟩

theorem leaves_findById (id : Int) :
    Leaves t db (UserDB.findById id) fun r db' => db' = db ∧
      ∀ user, r = .ok user → user ∈ db.users ∧ user.id = id := by
  refine (leaves_sqlCall (.selectUserById id)).bind fun r db' h => leaves_pure ?_
  obtain ⟨rfl, rfl⟩ := h
  refine ⟨rfl, fun user huser => ?_⟩
  obtain ⟨hmem, hfound⟩ := foundUser_find huser
  exact ⟨hmem, by simpa using hfound⟩

/-- An update that affects no row changes none. -/
theorem put_of_affected_zero {second : Nat} {user : UserEntity} (h : (UserDB.updateOf user).affected db = 0) :
    db.put second user = db := by
  have hrows : db.users.map ((UserDB.updateOf user).write db second) = db.users := by
    refine (List.map_congr_left fun row hrow => ?_).trans (List.map_id _)
    rw [UserUpdate.affected, List.countP_eq_zero] at h
    rw [UserUpdate.write, if_neg fun hboth => h row hrow (by simpa using hboth)]
    rfl
  rw [Database.put, hrows]

theorem leaves_update (user : UserEntity) :
    Leaves t db (UserDB.update user) fun r db' => db' = db.put (toTimeT t) user ∧
      (r.isOk = true ↔ (UserDB.updateOf user).affected db ≠ 0) := by
  refine (leaves_sqlCall (.updateUser (UserDB.updateOf user))).bind fun r db' h => ?_
  obtain ⟨rfl, rfl⟩ := h
  show Leaves t _ (if (UserDB.updateOf user).affected db = 0 then _ else _) _
  split
  · rename_i hzero
    exact leaves_pure ⟨rfl, by simp [failPlain, hzero]⟩
  · rename_i hsome
    exact leaves_pure ⟨rfl, by simp [Result.isOk, hsome]⟩

/-- `Create` fails and changes nothing, or appends the new row and returns it. -/
theorem leaves_create (uuid : Bytes) (user : UserEntity) :
    Leaves t db (UserDB.create uuid user) fun r db' => (r.isOk = false ∧ db' = db) ∨
      ∃ row, row = db.newUser (toTimeT t) uuid user.mobile user.displayName user.passwordHash user.role ∧
        (∀ old ∈ db.users, db.uuidKey old.uuid ≠ db.uuidKey uuid) ∧ (∀ old ∈ db.users, old.mobile ≠ user.mobile) ∧
        r = .ok row ∧ db' = { db with users := db.users ++ [row], nextUserId := db.nextUserId + 1 } := by
  refine (leaves_sql _).bind fun reply db' h => ?_
  obtain ⟨hreply, rfl⟩ := h
  rcases apply_insertUser (toTimeT t) db uuid user.mobile user.displayName user.passwordHash user.role with
    ⟨e, he⟩ | ⟨huuid, hmobile, he⟩
  · rw [he] at hreply ⊢
    subst hreply
    rcases e with key | _
    · cases key <;> exact leaves_pure (Or.inl ⟨rfl, rfl⟩)
    · exact leaves_pure (Or.inl ⟨rfl, rfl⟩)
  · rw [he] at hreply ⊢
    subst hreply
    refine (leaves_sqlCall (.selectUserByUuid uuid)).bind fun r db' h => leaves_pure ?_
    obtain ⟨rfl, rfl⟩ := h
    refine Or.inr ⟨_, rfl, huuid, hmobile, ?_, rfl⟩
    have hold : db.users.find? (db.sameUuid ·.uuid uuid) = none :=
      List.find?_eq_none.mpr fun row hrow => by simpa [Database.sameUuid] using huuid row hrow
    have hfind : ∀ row : UserEntity, row.uuid = uuid →
        (db.users ++ [row]).find? (db.sameUuid ·.uuid uuid) = some row := by
      intro row hrow
      rw [List.find?_append, hold, Option.none_or, List.find?_cons_of_pos]
      simp [Database.sameUuid, hrow]
    exact congrArg (fun row => foundUser (.ofSql (.ok row))) (hfind _ rfl)

theorem leaves_deleteByUserId (userId : Int) :
    Leaves t db (TokenRepository.deleteByUserId userId) fun _ db' => db' = db.dropUser userId := by
  refine (leaves_sqlCall (.deleteSessionsByUser userId)).bind fun r db' h => ?_
  obtain ⟨rfl, rfl⟩ := h
  exact leaves_pure rfl

theorem leaves_deleteByTokenHash (tokenHash : Bytes) :
    Leaves t db (TokenRepository.deleteByTokenHash tokenHash) fun _ db' => db' = db.dropHash tokenHash := by
  refine (leaves_sqlCall (.deleteSessionByHash tokenHash)).bind fun r db' h => ?_
  obtain ⟨rfl, rfl⟩ := h
  exact leaves_pure rfl

variable (env : Env) (draws : Draws)

theorem leaves_generateTokenPair (user : UserEntity) :
    Leaves t db (JwtService.generateTokenPair env draws user) fun pair db' =>
      pair = tokensAt env t draws user ∧ db' = db := by
  refine leaves_now.bind fun a db' h => ?_
  obtain ⟨rfl, rfl⟩ := h
  refine leaves_now.bind fun a db' h => ?_
  obtain ⟨rfl, rfl⟩ := h
  exact leaves_pure ⟨rfl, rfl⟩

theorem leaves_storeRefreshToken (userId : Int) (token : Bytes) :
    Leaves t db (storeRefreshToken env userId token) fun _ db' =>
      db' = db.store (toTimeT t) userId (hashToken env.crypto token)
        (toTimeT (addSeconds t env.config.security.refreshTokenTtlSeconds)) := by
  refine leaves_now.bind fun a db' h => ?_
  obtain ⟨rfl, rfl⟩ := h
  refine (leaves_sql _).bind fun reply db' h => ?_
  obtain ⟨-, rfl⟩ := h
  rcases reply with (_ | _) | _ <;> exact leaves_pure rfl

theorem leaves_signIn (user : UserEntity) :
    Leaves t db (signIn env draws user) fun r db' =>
      r = .ok ⟨user.cleared, tokensAt env t draws user⟩ ∧ db' = db.issue env t draws user := by
  refine (leaves_generateTokenPair env draws user).bind fun pair db' h => ?_
  obtain ⟨rfl, rfl⟩ := h
  refine (leaves_storeRefreshToken env user.id _).bind fun _ db' h => ?_
  subst h
  exact leaves_pure ⟨rfl, rfl⟩

end Calls

theorem leaves_answered {α : Type} {t : Nat} {db : Database} {p : Action (Result α)} {f : α → Answer}
    {Q : Outcome Answer → Database → Prop} (hp : Leaves t db p fun r db' => Q (.returned (r.map f)) db') :
    Leaves t db (answered f p) Q :=
  hp.bind fun _ _ h => leaves_pure h

section Requests

variable (env : Env) {t : Nat} (draws : Draws) {db : Database}

/-- What a request returns as a result, and what it leaves. -/
abbrev EffectOf {α : Type} (env : Env) (t : Nat) (draws : Draws) (db : Database) (request : Request)
    (f : α → Answer) (r : Result α) (db' : Database) : Prop :=
  Effect env t draws db request (.returned (r.map f)) db'

theorem effect_sendVerifyCode (mobile : Bytes) (scene : SmsScene) :
    Leaves t db (sendVerifyCode env draws mobile scene)
      (EffectOf env t draws db (.sendVerifyCode mobile scene) .seconds) := by
  have hsend : Leaves t db (sendCaptcha env.config.sms draws.captcha scene mobile)
      (EffectOf env t draws db (.sendVerifyCode mobile scene) .seconds) := by
    refine (leaves_redis (uses_sendCaptcha env.config.sms scene mobile draws.captcha)).mono fun r db' h => ?_
    subst h
    cases r with
    | ok n => exact .sent n
    | fail code message => exact .failed rfl trivial
  refine leaves_requireValid (fun _ _ => .failed rfl trivial) ?_
  cases scene with
  | unKnow => exact hsend
  | register | login | resetPassword | deleteUser =>
      refine (leaves_sqlCall (.existsMobile mobile)).bind fun r db' h => ?_
      obtain ⟨rfl, rfl⟩ := h
      refine leaves_orFail (fun _ _ _ => .failed rfl trivial) fun known _ => ?_
      split
      · exact leaves_pure (.failed rfl trivial)
      · exact hsend

/-- A captcha that is looked at before the rest of an operation. -/
theorem leaves_verifyCaptcha {β : Type} {scene : SmsScene} {mobile verifyCode : Bytes}
    {next : Unit → Action (Result β)} {Q : Result β → Database → Prop}
    (hfail : ∀ code message, Q (.failWith code message) db) (hnext : Leaves t db (next ()) Q) :
    Leaves t db (verifyCaptcha env.config.sms scene mobile verifyCode >>= fun r => orFail r next) Q := by
  refine (leaves_redis (uses_verifyCaptcha env.config.sms scene mobile verifyCode)).bind fun r db' h => ?_
  subst h
  exact leaves_orFail (fun code message _ => hfail code message) fun _ _ => hnext

theorem effect_register (mobile verifyCode password displayName : Bytes) :
    Leaves t db (register env draws mobile verifyCode password displayName)
      (EffectOf env t draws db (.register mobile verifyCode password displayName) .signedIn) := by
  unfold register
  cases hvalid : isValidMobile mobile with
  | error message => exact leaves_pure (.failed rfl trivial)
  | ok _ =>
      refine leaves_requireValid (fun _ _ => .failed rfl trivial) (leaves_requireValid (fun _ _ => .failed rfl trivial) ?_)
      refine leaves_requireValid (fun _ _ => .failed rfl trivial) (leaves_requireValid (fun _ _ => .failed rfl trivial) ?_)
      refine leaves_verifyCaptcha env (fun _ _ => .failed rfl trivial) ?_
      refine (leaves_create draws.uuid _).bind fun r db' h => ?_
      rcases h with ⟨hfail, rfl⟩ | ⟨user, huser, huuid, hmobile, rfl, rfl⟩
      · cases r with
        | ok user => cases hfail
        | fail code message => exact leaves_pure (.failed rfl trivial)
      · refine (leaves_signIn env draws user).mono fun r db' h => ?_
        obtain ⟨rfl, rfl⟩ := h
        exact .registered huser huuid hmobile hvalid

theorem effect_loginByPassword (mobile password : Bytes) :
    Leaves t db (loginByPassword env draws mobile password) fun o db' =>
      Effect env t draws db (.loginByPassword mobile password) (o.map .signedIn) db' := by
  have hkey : ∀ c : RedisCmd, c.key = loginFailKey mobile → Cmd.RedisOn (· = loginFailKey mobile) (.redis c) :=
    fun _ h => h
  have hrecord : Leaves t db (do
      recordLoginFailure env mobile
      return (.failWith .wrongPassword "账号或密码错误" : Result AuthResult))
      (EffectOf env t draws db (.loginByPassword mobile password) .signedIn) := by
    refine (leaves_redis (uses_recordLoginFailure env hkey)).bind fun _ db' h => ?_
    subst h
    exact leaves_pure (.failed rfl trivial)
  unfold loginByPassword
  split
  · exact leaves_pure (.failed rfl trivial)
  · split
    · exact leaves_pure (.failed rfl trivial)
    · refine (leaves_redis (uses_checkLoginFailedAttempts env hkey)).bind fun attempt db' h => ?_
      subst h
      cases attempt with
      | none => exact leaves_pure (.failed rfl trivial)
      | some attempt =>
          refine Leaves.bind (R := EffectOf env t draws db' (.loginByPassword mobile password) .signedIn) ?_
            fun r db' h => leaves_pure h
          refine leaves_orFail (fun _ _ _ => .failed rfl trivial) fun _ _ => ?_
          refine (leaves_findByMobile mobile).bind fun r db' h => ?_
          obtain ⟨rfl, hfound⟩ := h
          cases r with
          | fail code message =>
              show Leaves t _ (ite _ _ _) _
              split
              · exact hrecord
              · exact leaves_pure (.failed rfl trivial)
          | ok user =>
              obtain ⟨hmem, hmobile⟩ := hfound user rfl
              show Leaves t _ (ite _ _ _) _
              split
              · exact leaves_pure (.failed rfl trivial)
              · rename_i henabled
                split
                · exact hrecord
                · refine (leaves_redis (uses_clearLoginFailure hkey)).bind fun _ db' h => ?_
                  subst h
                  refine (leaves_signIn env draws user).mono fun r db' h => ?_
                  obtain ⟨rfl, rfl⟩ := h
                  exact .loggedIn (Or.inl ⟨password, rfl⟩) hmem hmobile (by simpa using henabled)

theorem effect_loginByCode (mobile verifyCode : Bytes) :
    Leaves t db (loginByCode env draws mobile verifyCode)
      (EffectOf env t draws db (.loginByCode mobile verifyCode) .signedIn) := by
  refine leaves_requireValid (fun _ _ => .failed rfl trivial) (leaves_requireValid (fun _ _ => .failed rfl trivial) ?_)
  refine leaves_verifyCaptcha env (fun _ _ => .failed rfl trivial) ?_
  refine (leaves_findByMobile mobile).bind fun r db' h => ?_
  obtain ⟨rfl, hfound⟩ := h
  cases r with
  | fail code message =>
      show Leaves t _ (ite _ _ _) _
      split <;> exact leaves_pure (.failed rfl trivial)
  | ok user =>
      obtain ⟨hmem, hmobile⟩ := hfound user rfl
      show Leaves t _ (ite _ _ _) _
      split
      · exact leaves_pure (.failed rfl trivial)
      · rename_i henabled
        have hclear := uses_clearLoginFailure (P := Cmd.RedisOn (· = loginFailKey mobile)) fun _ h => h
        refine (leaves_redis hclear).bind fun _ db' h => ?_
        subst h
        refine (leaves_signIn env draws user).mono fun r db' h => ?_
        obtain ⟨rfl, rfl⟩ := h
        exact .loggedIn (Or.inr ⟨verifyCode, rfl⟩) hmem hmobile (by simpa using henabled)

/-- A write whose failure is the failure of the request. -/
theorem leaves_update_orFail {β : Type} {user : UserEntity} {next : Unit → Action (Result β)}
    {Q : Result β → Database → Prop} (hfail : ∀ code message, Q (.failWith code message) db)
    (hok : Leaves t (db.put (toTimeT t) user) (next ()) Q) :
    Leaves t db (UserDB.update user >>= fun r => orFail r next) Q := by
  refine (leaves_update user).bind fun r db' h => ?_
  obtain ⟨rfl, hiff⟩ := h
  cases r with
  | ok _ => exact hok
  | fail code message =>
      have hzero : (UserDB.updateOf user).affected db = 0 := by
        by_contra hne
        cases hiff.mpr hne
      rw [put_of_affected_zero hzero]
      exact leaves_pure (hfail code message)

theorem effect_resetPassword (mobile verifyCode newPassword : Bytes) :
    Leaves t db (resetPassword env draws mobile verifyCode newPassword)
      (EffectOf env t draws db (.resetPassword mobile verifyCode newPassword) fun _ => .nothing) := by
  refine leaves_requireValid (fun _ _ => .failed rfl trivial) (leaves_requireValid (fun _ _ => .failed rfl trivial) ?_)
  refine leaves_requireValid (fun _ _ => .failed rfl trivial) (leaves_verifyCaptcha env (fun _ _ => .failed rfl trivial) ?_)
  refine (leaves_findByMobile mobile).bind fun r db' h => ?_
  obtain ⟨rfl, hfound⟩ := h
  cases r with
  | fail code message =>
      show Leaves t _ (ite _ _ _) _
      split <;> exact leaves_pure (.failed rfl trivial)
  | ok user =>
      obtain ⟨hmem, hmobile⟩ := hfound user rfl
      refine leaves_update_orFail (fun _ _ => .failed rfl trivial) ?_
      refine (leaves_deleteByUserId user.id).bind fun _ db' h => ?_
      subst h
      have hclear := uses_clearLoginFailure (P := Cmd.RedisOn (· = loginFailKey mobile)) fun _ h => h
      refine (leaves_redis hclear).bind fun _ db' h => ?_
      subst h
      exact leaves_pure (.reset hmem hmobile)

theorem effect_refreshToken (token : Bytes) :
    Leaves t db (refreshToken env draws token) fun o db' =>
      Effect env t draws db (.refreshToken token) (o.map .tokens) db' := by
  unfold refreshToken
  split
  · exact leaves_pure (.failed rfl trivial)
  · refine leaves_now.bind fun a db' h => ?_
    obtain ⟨rfl, rfl⟩ := h
    unfold refreshAt
    split
    · exact leaves_pure (.failed rfl trivial)
    · rename_i text hparse
      split
      · exact leaves_pure (.failed rfl trivial)
      · rename_i userId hid
        refine Leaves.bind (R := EffectOf env a draws db' (.refreshToken token) .tokens) ?_
          fun r db' h => leaves_pure h
        refine (leaves_findById userId).bind fun r db' h => ?_
        obtain ⟨rfl, hfound⟩ := h
        refine leaves_orFail (fun _ _ _ => .failed rfl trivial) fun user huser => ?_
        obtain ⟨hmem, rfl⟩ := hfound user huser
        split
        · exact leaves_pure (.failed rfl trivial)
        · rename_i henabled
          refine (leaves_sqlCall (.selectValidSession (hashToken env.crypto token))).bind fun r db' h => ?_
          obtain ⟨rfl, rfl⟩ := h
          refine leaves_orFail (fun _ _ _ => .failed rfl trivial) fun valid hvalid => ?_
          obtain rfl : _ = valid := Result.ok.inj hvalid
          split
          · exact leaves_pure (.failed rfl trivial)
          · rename_i hvalid
            refine (leaves_deleteByTokenHash _).bind fun _ db' h => ?_
            subst h
            refine (leaves_generateTokenPair env draws user).bind fun pair db' h => ?_
            obtain ⟨rfl, rfl⟩ := h
            refine (leaves_storeRefreshToken env user.id _).bind fun _ db' h => ?_
            subst h
            refine leaves_pure (.refreshed hparse hid hmem (by simpa using henabled) ?_)
            simpa [SqlStmt.apply] using hvalid

theorem effect_logout (token : Bytes) :
    Leaves t db (logout env token) (EffectOf env t draws db (.logout token) fun _ => .nothing) := by
  have heffect := @Effect.loggedOut env t draws db token
  unfold logout
  split
  · rename_i hempty
    rw [if_pos hempty] at heffect
    exact leaves_pure heffect
  · rename_i hsome
    rw [if_neg hsome] at heffect
    refine (leaves_deleteByTokenHash _).bind fun _ db' h => ?_
    subst h
    exact leaves_pure heffect

theorem effect_logoutAll (userUuid : Bytes) :
    Leaves t db (logoutAll userUuid) (EffectOf env t draws db (.logoutAll userUuid) fun _ => .nothing) := by
  refine (leaves_findByUUID userUuid).bind fun r db' h => ?_
  obtain ⟨rfl, hfound⟩ := h
  refine leaves_orFail (fun _ _ _ => .failed rfl trivial) fun user huser => ?_
  obtain ⟨hmem, huuid⟩ := hfound user huser
  refine (leaves_deleteByUserId user.id).bind fun _ db' h => ?_
  subst h
  exact leaves_pure (.loggedOutAll hmem huuid)

theorem effect_getUser (userUuid : Bytes) :
    Leaves t db (UserService.getUser userUuid) (EffectOf env t draws db (.getUser userUuid) .user) := by
  refine leaves_requireUuid (fun _ _ => .failed rfl trivial) ((leaves_findByUUID userUuid).bind fun r db' h => ?_)
  obtain ⟨rfl, -⟩ := h
  exact leaves_orFail (fun _ _ _ => .failed rfl trivial) fun user _ => leaves_pure .got

theorem effect_updateUser (userUuid : Bytes) (displayName : Option Bytes) :
    Leaves t db (UserService.updateUser userUuid displayName)
      (EffectOf env t draws db (.updateUser userUuid displayName) .user) := by
  refine leaves_requireUuid (fun _ _ => .failed rfl trivial) ((leaves_findByUUID userUuid).bind fun r db' h => ?_)
  obtain ⟨rfl, hfound⟩ := h
  refine leaves_orFail (fun _ _ _ => .failed rfl trivial) fun user huser => ?_
  obtain ⟨hmem, huuid⟩ := hfound user huser
  split
  · exact leaves_pure (.failed rfl trivial)
  · rename_i henabled
    cases displayName with
    | none => exact leaves_pure .read
    | some name =>
        refine leaves_requireValid (fun _ _ => .failed rfl trivial) (leaves_update_orFail (fun _ _ => .failed rfl trivial) ?_)
        exact leaves_pure (.renamed hmem huuid (by simpa using henabled))

theorem effect_changePassword (userUuid oldPassword newPassword : Bytes) :
    Leaves t db (UserService.changePassword env draws userUuid oldPassword newPassword)
      (EffectOf env t draws db (.changePassword userUuid oldPassword newPassword) fun _ => .nothing) := by
  refine leaves_requireUuid (fun _ _ => .failed rfl trivial) (leaves_requireValid (fun _ _ => .failed rfl trivial) ?_)
  refine leaves_requireValid (fun _ _ => .failed rfl trivial) ?_
  split
  · exact leaves_pure (.failed rfl trivial)
  · refine (leaves_findByUUID userUuid).bind fun r db' h => ?_
    obtain ⟨rfl, hfound⟩ := h
    refine leaves_orFail (fun _ _ _ => .failed rfl trivial) fun user huser => ?_
    obtain ⟨hmem, huuid⟩ := hfound user huser
    split
    · exact leaves_pure (.failed rfl trivial)
    · rename_i henabled
      split
      · exact leaves_pure (.failed rfl trivial)
      · refine leaves_update_orFail (fun _ _ => .failed rfl trivial) ?_
        exact leaves_pure (.changed hmem huuid (by simpa using henabled))

/-- The write of `DeleteUser` changes a row exactly when the user is enabled. -/
theorem affected_disable (hdb : db.WellFormed) {user : UserEntity} (huser : user ∈ db.users) (mobile : Bytes) :
    (UserDB.updateOf { user with disabled := true, mobile := mobile }).affected (db.dropUser user.id) ≠ 0 ↔
      user.disabled = false := by
  have hiff : (UserDB.updateOf { user with disabled := true, mobile := mobile }).affected db ≠ 0 ↔ _ :=
    affected_iff hdb huser rfl
  refine hiff.trans ?_
  simp [UserUpdate.Holds, UserDB.updateOf]

theorem effect_deleteUser (hdb : db.WellFormed) (userUuid verifyCode : Bytes) :
    Leaves t db (UserService.deleteUser env userUuid verifyCode)
      (EffectOf env t draws db (.deleteUser userUuid verifyCode) fun _ => .nothing) := by
  refine leaves_requireUuid (fun _ _ => .failed rfl trivial) (leaves_requireValid (fun _ _ => .failed rfl trivial) ?_)
  refine (leaves_findByUUID userUuid).bind fun r db' h => ?_
  obtain ⟨rfl, hfound⟩ := h
  refine leaves_orFail (fun _ _ _ => .failed rfl trivial) fun user huser => ?_
  obtain ⟨hmem, huuid⟩ := hfound user huser
  refine leaves_verifyCaptcha env (fun _ _ => .failed rfl trivial) ?_
  refine (leaves_deleteByUserId user.id).bind fun _ db'' h => ?_
  subst h
  refine (leaves_update _).bind fun r db'' h => ?_
  obtain ⟨rfl, hiff⟩ := h
  have hok := hiff.trans (affected_disable hdb hmem (UserService.releasedMobile user))
  cases r with
  | ok _ => exact leaves_pure (.deleted hmem huuid hok)
  | fail code message => exact leaves_pure (.deleted hmem huuid hok)

theorem effect_setUserDisabled (userUuid : Bytes) (disabled : Bool) :
    Leaves t db (UserService.setUserDisabled userUuid disabled)
      (EffectOf env t draws db (.setUserDisabled userUuid disabled) fun _ => .nothing) := by
  refine leaves_requireUuid (fun _ _ => .failed rfl trivial) ((leaves_findByUUID userUuid).bind fun r db' h => ?_)
  obtain ⟨rfl, hfound⟩ := h
  refine leaves_orFail (fun _ _ _ => .failed rfl trivial) fun user huser => ?_
  obtain ⟨hmem, huuid⟩ := hfound user huser
  split
  · rename_i hsame
    exact leaves_pure (.unchanged hmem huuid hsame)
  · rename_i hother
    have heffect := @Effect.switched env t draws db' userUuid disabled user hmem huuid hother
    refine leaves_update_orFail (fun _ _ => .failed rfl trivial) ?_
    cases disabled with
    | true =>
        refine (leaves_deleteByUserId user.id).bind fun _ db'' h => ?_
        subst h
        exact leaves_pure heffect
    | false => exact leaves_pure heffect

/-- **Effect.** Every request has one of the effects. -/
theorem handle_effect (hdb : db.WellFormed) (request : Request) :
    Leaves t db (handle env draws request) (Effect env t draws db request) := by
  cases request with
  | sendVerifyCode mobile scene => exact leaves_answered (effect_sendVerifyCode env draws mobile scene)
  | register mobile verifyCode password displayName =>
      exact leaves_answered (effect_register env draws mobile verifyCode password displayName)
  | loginByPassword mobile password =>
      exact (effect_loginByPassword env draws mobile password).bind fun _ _ h => leaves_pure h
  | loginByCode mobile verifyCode => exact leaves_answered (effect_loginByCode env draws mobile verifyCode)
  | resetPassword mobile verifyCode newPassword =>
      exact leaves_answered (effect_resetPassword env draws mobile verifyCode newPassword)
  | refreshToken token => exact (effect_refreshToken env draws token).bind fun _ _ h => leaves_pure h
  | logout token => exact leaves_answered (effect_logout env draws token)
  | logoutAll userUuid => exact leaves_answered (effect_logoutAll env draws userUuid)
  | getUser userUuid => exact leaves_answered (effect_getUser env draws userUuid)
  | updateUser userUuid displayName => exact leaves_answered (effect_updateUser env draws userUuid displayName)
  | changePassword userUuid oldPassword newPassword =>
      exact leaves_answered (effect_changePassword env draws userUuid oldPassword newPassword)
  | deleteUser userUuid verifyCode => exact leaves_answered (effect_deleteUser env draws hdb userUuid verifyCode)
  | setUserDisabled userUuid disabled => exact leaves_answered (effect_setUserDisabled env draws userUuid disabled)
  | cleanExpiredTokens =>
      refine leaves_answered ((leaves_sqlCall .deleteExpiredSessions).mono fun r db' h => ?_)
      obtain ⟨rfl, rfl⟩ := h
      exact .cleaned _

end Requests

end AccountService
