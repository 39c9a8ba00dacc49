import AccountService.RequestEffect
import AccountService.UserWrites
import Mathlib.Data.Set.Lattice
import Mathlib.Order.CompletePartialOrder

/-! `CleanExpiredTokens` removes rows that no other operation looks at. Two runs that differ in their cleanups keep
tables that are equal up to expired rows. -/

namespace AccountService

open AuthService Interaction

/-- The rows that have not expired at a second. -/
def Database.live (db : Database) (second : Nat) : List TokenSession := db.sessions.filter (second < ·.expiresAt)

/-- The two worlds differ in expired rows only, and the hashes of all rows are among `known`. -/
structure Alike (second : Nat) (known : Set Bytes) (a b : World) : Prop where
  redis : a.redis = b.redis
  users : a.db.users = b.db.users
  nextUserId : a.db.nextUserId = b.db.nextUserId
  uuidKey : a.db.uuidKey = b.db.uuidKey
  nextSessionId : a.db.nextSessionId = b.db.nextSessionId
  live : a.db.live second = b.db.live second
  left : ∀ r ∈ a.db.sessions, r.tokenHash ∈ known
  right : ∀ r ∈ b.db.sessions, r.tokenHash ∈ known

/-- The two worlds are alike at the instant at which an operation runs, and no statement is about to fail. -/
structure Twins (t : Nat) (known : Set Bytes) (a b : World) : Prop extends Alike (toTimeT t) known a b where
  clock : a.clock = t ∧ b.clock = t
  redisFaults : a.redisFaults = b.redisFaults
  sqlFaults : a.sqlFaults = [] ∧ b.sqlFaults = []

/-- The program returns the same in twin worlds and leaves them twins, with the hashes `saved` says it has stored,
provided that none of these was known before. -/
def Agrees {α : Type} (t : Nat) (p : Action α) (saved : α → Set Bytes) : Prop :=
  ∀ known a b, Twins t known a b → (∀ h ∈ saved (Program.run exec p b).1, h ∉ known) →
    (Program.run exec p a).1 = (Program.run exec p b).1 ∧
      Twins t (known ∪ saved (Program.run exec p b).1) (Program.run exec p a).2 (Program.run exec p b).2

/-- Nothing is stored. -/
def nothingSaved {α : Type} : α → Set Bytes := fun _ => ∅

/-- A statement that does not write sessions, whose reply does not depend on expired rows. -/
def Cmd.Quiet : Cmd → Prop
  | .sql s => s.kind ≠ .insertSession ∧ s.kind ≠ .deleteSession
  | _ => True

section Rules

variable {α β : Type} {t : Nat} {known known' : Set Bytes} {a b : World} {saved : β → Set Bytes}

theorem Twins.mono (h : Twins t known a b) (hsub : known ⊆ known') : Twins t known' a b :=
  { h with
    left := fun r hr => hsub (h.left r hr)
    right := fun r hr => hsub (h.right r hr) }

theorem any_live (db : Database) (second : Nat) (p : TokenSession → Bool) :
    (db.sessions.any fun r => p r ∧ second < r.expiresAt) = (db.live second).any p := by
  rw [Database.live, List.any_filter]
  congr 1
  funext r
  simp [Bool.and_comm]

theorem countP_live (db : Database) (second : Nat) (p : TokenSession → Bool) :
    (db.sessions.countP fun r => p r ∧ second < r.expiresAt) = (db.live second).countP p := by
  rw [Database.live, List.countP_filter]
  simp

/-- What a quiet statement replies, and does to the users, depends on neither table of sessions but for the live
rows. -/
theorem apply_quiet {s : SqlStmt} (hc : Cmd.Quiet (.sql s)) {second : Nat} {da db : Database}
    (husers : da.users = db.users) (hid : da.nextUserId = db.nextUserId) (hkey : da.uuidKey = db.uuidKey)
    (hlive : da.live second = db.live second) :
    (s.apply second da).1 = (s.apply second db).1 ∧
      (s.apply second da).2.users = (s.apply second db).2.users ∧
      (s.apply second da).2.nextUserId = (s.apply second db).2.nextUserId := by
  obtain ⟨users, nextUserId, sa, nextA, uuidKey⟩ := da
  obtain ⟨_, _, sb, nextB, _⟩ := db
  obtain rfl : users = _ := husers
  obtain rfl : nextUserId = _ := hid
  obtain rfl : uuidKey = _ := hkey
  cases s with
  | selectUserById _ | selectUserByUuid _ | selectUserByMobile _ | existsMobile _ | countUsers _
  | selectUsers _ _ _ | updateUser _ => exact ⟨rfl, rfl, rfl⟩
  | insertUser uuid mobile displayName passwordHash role =>
      simp only [SqlStmt.apply, Database.sameUuid]
      split
      · exact ⟨rfl, rfl, rfl⟩
      · split
        · exact ⟨rfl, rfl, rfl⟩
        · split <;> exact ⟨rfl, rfl, rfl⟩
  | selectValidSession tokenHash =>
      refine ⟨?_, rfl, rfl⟩
      have hany := congrArg (fun rows => rows.any (·.tokenHash = tokenHash)) hlive
      simp only [← any_live, decide_eq_true_eq] at hany
      exact congrArg Except.ok hany
  | countActiveSessions userId =>
      refine ⟨?_, rfl, rfl⟩
      have hcount := congrArg (fun rows => rows.countP (·.userId = userId)) hlive
      simp only [← countP_live, decide_eq_true_eq] at hcount
      exact congrArg Except.ok hcount
  | insertSession _ _ _ => exact absurd rfl hc.1
  | deleteSessionByHash _ | deleteSessionsByUser _ | deleteExpiredSessions => exact absurd rfl hc.2

/-- A quiet statement leaves the sessions alone. -/
theorem sessions_quiet {s : SqlStmt} (hc : Cmd.Quiet (.sql s)) (second : Nat) (db : Database) :
    (s.apply second db).2.sessions = db.sessions ∧ (s.apply second db).2.nextSessionId = db.nextSessionId ∧
      (s.apply second db).2.uuidKey = db.uuidKey := by
  cases s with
  | insertUser uuid mobile displayName passwordHash role =>
      simp only [SqlStmt.apply]
      split
      · exact ⟨rfl, rfl, rfl⟩
      · split
        · exact ⟨rfl, rfl, rfl⟩
        · split <;> exact ⟨rfl, rfl, rfl⟩
  | insertSession _ _ _ => exact absurd rfl hc.1
  | deleteSessionByHash _ | deleteSessionsByUser _ | deleteExpiredSessions => exact absurd rfl hc.2
  | _ => exact ⟨rfl, rfl, rfl⟩

theorem twins_exec {c : Cmd} (hc : c.Quiet) (h : Twins t known a b) :
    (exec c a).1 = (exec c b).1 ∧ Twins t known (exec c a).2 (exec c b).2 := by
  cases c with
  | now => exact ⟨h.clock.1.trans h.clock.2.symm, h⟩
  | redis c =>
      obtain ⟨clockA, redisA, dbA, faultsA, sqlA⟩ := a
      obtain ⟨clockB, redisB, dbB, faultsB, sqlB⟩ := b
      obtain ⟨rfl, rfl⟩ := h.clock
      obtain rfl : redisA = redisB := h.redis
      obtain rfl : faultsA = faultsB := h.redisFaults
      show (World.execRedis _ c).1 = (World.execRedis _ c).1 ∧ Twins _ _ (World.execRedis _ c).2 (World.execRedis _ c).2
      rcases faultsA with _ | ⟨_ | message, rest⟩
      · exact ⟨rfl, { h with redis := rfl, redisFaults := rfl }⟩
      · exact ⟨rfl, { h with redis := rfl, redisFaults := rfl }⟩
      · exact ⟨rfl, { h with redis := rfl, redisFaults := rfl }⟩
  | sql s =>
      rw [show exec (.sql s) a = a.execSql s from rfl, show exec (.sql s) b = b.execSql s from rfl,
        execSql_eq h.sqlFaults.1, execSql_eq h.sqlFaults.2, h.clock.1, h.clock.2]
      obtain ⟨hreply, husers, hid⟩ := apply_quiet hc h.users h.nextUserId h.uuidKey h.live
      obtain ⟨hsa, hna, hka⟩ := sessions_quiet hc (toTimeT t) a.db
      obtain ⟨hsb, hnb, hkb⟩ := sessions_quiet hc (toTimeT t) b.db
      refine ⟨hreply, ⟨⟨h.redis, husers, hid, ?_, ?_, ?_, ?_, ?_⟩, ⟨rfl, rfl⟩, h.redisFaults, h.sqlFaults⟩⟩
      · exact hka.trans (h.uuidKey.trans hkb.symm)
      · exact hna.trans (h.nextSessionId.trans hnb.symm)
      · simp only [Database.live, hsa, hsb]
        exact h.live
      · simp only [hsa]
        exact h.left
      · simp only [hsb]
        exact h.right

/-- A quiet program agrees with itself, whatever is said to be saved. -/
theorem agrees_quiet {p : Action β} (hp : Program.Uses Cmd.Quiet p) : Agrees t p saved := by
  intro known a b h _
  have hstep : ∀ c, Cmd.Quiet c → ∀ a b, Twins t known a b →
      True ∧ (exec c a).1 = (exec c b).1 ∧ Twins t known (exec c a).2 (exec c b).2 := fun c hc a b hab =>
    ⟨trivial, twins_exec hc hab⟩
  obtain ⟨hsame, htwins⟩ := Program.run_lockstep exec hstep (hp.within fun _ _ => True) h
  exact ⟨hsame, htwins.mono Set.subset_union_left⟩

theorem agrees_pure (x : β) : Agrees t (pure x) saved := agrees_quiet trivial

/-- What stores nothing, and then the rest. -/
theorem Agrees.bind {p : Action α} {f : α → Action β} (hp : Agrees t p nothingSaved) (hf : ∀ x, Agrees t (f x) saved) :
    Agrees t (p >>= f) saved := by
  intro known a b h hnew
  rw [Program.run_bind] at hnew
  rw [Program.run_bind, Program.run_bind]
  obtain ⟨hsame, htwins⟩ := hp known a b h fun _ hh => absurd hh (Set.notMem_empty _)
  rw [hsame]
  exact hf _ _ _ _ (htwins.mono (Set.union_subset subset_rfl (Set.empty_subset _))) hnew

/-- A result that is made into an answer. -/
theorem Agrees.map {p : Action α} {stored : α → Set Bytes} (hp : Agrees t p stored) {f : α → β}
    (hf : ∀ x, saved (f x) = stored x) : Agrees t (p >>= fun x => pure (f x)) saved := by
  intro known a b h hnew
  rw [Program.run_bind, Program.run_pure, hf] at hnew
  rw [Program.run_bind, Program.run_bind, Program.run_pure, Program.run_pure, hf]
  obtain ⟨hsame, htwins⟩ := hp known a b h hnew
  exact ⟨congrArg f hsame, htwins⟩

theorem agrees_orFail {r : Result α} {next : α → Action (Result β)} {saved : Result β → Set Bytes}
    (h : ∀ x, Agrees t (next x) saved) : Agrees t (orFail r next) saved := by
  cases r with
  | ok x => exact h x
  | fail code message => exact agrees_pure _

theorem agrees_requireValid {check : Except String Unit} {next : Action (Result β)} {saved : Result β → Set Bytes}
    (h : Agrees t next saved) : Agrees t (requireValid check next) saved := by
  cases check with
  | error message => exact agrees_pure _
  | ok _ => exact h

theorem agrees_requireUuid {userUuid : Bytes} {next : Action (Result β)} {saved : Result β → Set Bytes}
    (h : Agrees t next saved) : Agrees t (UserService.requireUuid userUuid next) saved := by
  unfold UserService.requireUuid
  split
  · exact agrees_pure _
  · exact h

/-- Rows are taken out of both tables. -/
theorem Twins.drop (h : Twins t known a b) (keep : TokenSession → Bool) :
    Twins t known { a with db := { a.db with sessions := a.db.sessions.filter keep } }
      { b with db := { b.db with sessions := b.db.sessions.filter keep } } := by
  have hlive : ∀ db : Database, { db with sessions := db.sessions.filter keep }.live (toTimeT t) =
      (db.live (toTimeT t)).filter keep := by
    intro db
    simp only [Database.live, List.filter_filter, Bool.and_comm]
  exact { h with
    live := by rw [hlive, hlive, h.live]
    left := fun r hr => h.left r (List.mem_of_mem_filter hr)
    right := fun r hr => h.right r (List.mem_of_mem_filter hr) }

theorem agrees_deleteByTokenHash (tokenHash : Bytes) :
    Agrees t (TokenRepository.deleteByTokenHash tokenHash) nothingSaved := by
  intro known a b h _
  have hrun : ∀ w : World, w.sqlFaults = [] → Program.run exec (TokenRepository.deleteByTokenHash tokenHash) w =
      (.ok (), { w with db := { w.db with sessions := w.db.sessions.filter (·.tokenHash ≠ tokenHash) } }) := by
    rintro ⟨clock, redis, db, redisFaults, sqlFaults⟩ rfl
    rfl
  rw [hrun a h.sqlFaults.1, hrun b h.sqlFaults.2]
  exact ⟨rfl, (h.drop _).mono Set.subset_union_left⟩

theorem agrees_deleteByUserId (userId : Int) : Agrees t (TokenRepository.deleteByUserId userId) nothingSaved := by
  intro known a b h _
  have hrun : ∀ w : World, w.sqlFaults = [] → Program.run exec (TokenRepository.deleteByUserId userId) w =
      (.ok (), { w with db := { w.db with sessions := w.db.sessions.filter (·.userId ≠ userId) } }) := by
    rintro ⟨clock, redis, db, redisFaults, sqlFaults⟩ rfl
    rfl
  rw [hrun a h.sqlFaults.1, hrun b h.sqlFaults.2]
  exact ⟨rfl, (h.drop _).mono Set.subset_union_left⟩

/-- The row that `SaveRefreshToken` adds. -/
def World.newSession (w : World) (userId : Int) (tokenHash : Bytes) (expiresInSeconds : Int32) : TokenSession where
  id := w.db.nextSessionId
  userId := userId
  tokenHash := tokenHash
  expiresAt := toTimeT (addSeconds w.clock expiresInSeconds)
  createdAt := toTimeT w.clock

/-- `SaveRefreshToken` of a hash that is not stored. -/
theorem run_saveRefreshToken {w : World} (hfaults : w.sqlFaults = []) (userId : Int) {tokenHash : Bytes}
    (expiresInSeconds : Int32) (hnew : ∀ r ∈ w.db.sessions, r.tokenHash ≠ tokenHash) :
    Program.run exec (TokenRepository.saveRefreshToken userId tokenHash expiresInSeconds) w =
      if w.db.users.any (·.id = userId) then
        (.ok (), { w with db := { w.db with
          sessions := w.db.sessions ++ [w.newSession userId tokenHash expiresInSeconds]
          nextSessionId := w.db.nextSessionId + 1 } })
      else (failPlain .serviceUnavailable, w) := by
  obtain ⟨clock, redis, db, redisFaults, sqlFaults⟩ := w
  obtain rfl : sqlFaults = [] := hfaults
  have hany : ¬db.sessions.any (·.tokenHash = tokenHash) = true := by
    simpa using hnew
  rw [TokenRepository.saveRefreshToken, Program.run_bind, run_now, Program.run_bind, run_sql, execSql_eq rfl,
    SqlStmt.apply, if_neg hany]
  by_cases huser : db.users.any (·.id = userId) = true
  · rw [if_neg (not_not.mpr huser), if_pos huser]
    rfl
  · rw [if_pos huser, if_neg huser]
    rfl

theorem agrees_saveRefreshToken (userId : Int) (tokenHash : Bytes) (expiresInSeconds : Int32) :
    Agrees t (TokenRepository.saveRefreshToken userId tokenHash expiresInSeconds) fun _ => {tokenHash} := by
  intro known a b h hnew
  have hfresh : tokenHash ∉ known := hnew tokenHash rfl
  have hleft : ∀ r ∈ a.db.sessions, r.tokenHash ≠ tokenHash := fun r hr heq => hfresh (heq ▸ h.left r hr)
  have hright : ∀ r ∈ b.db.sessions, r.tokenHash ≠ tokenHash := fun r hr heq => hfresh (heq ▸ h.right r hr)
  rw [run_saveRefreshToken h.sqlFaults.1 userId expiresInSeconds hleft,
    run_saveRefreshToken h.sqlFaults.2 userId expiresInSeconds hright, h.users]
  split
  · refine ⟨rfl, ?_⟩
    have hrow : a.newSession userId tokenHash expiresInSeconds = b.newSession userId tokenHash expiresInSeconds := by
      simp only [World.newSession, h.nextSessionId, h.clock]
    have hlive := h.live
    simp only [Database.live] at hlive
    exact { h with
      nextSessionId := congrArg (· + 1) h.nextSessionId
      live := by simp only [Database.live, List.filter_append, hlive, hrow]
      left := fun r hr => by
        rcases List.mem_append.mp hr with hr | hr
        · exact Or.inl (h.left r hr)
        · rw [List.mem_singleton.mp hr]
          exact Or.inr rfl
      right := fun r hr => by
        rcases List.mem_append.mp hr with hr | hr
        · exact Or.inl (h.right r hr)
        · rw [List.mem_singleton.mp hr]
          exact Or.inr rfl }
  · exact ⟨rfl, h.mono Set.subset_union_left⟩

end Rules

/-- The hashes that an operation has stored if it ended so. -/
def savedBySignIn (env : Env) : Result AuthResult → Set Bytes
  | .ok result => {hashToken env.crypto result.tokens.refreshToken}
  | .fail _ _ => ∅

def savedByRefresh (env : Env) : Result TokenPair → Set Bytes
  | .ok pair => {hashToken env.crypto pair.refreshToken}
  | .fail _ _ => ∅

/-- The same for a call that may end in an exception. -/
def savedIfReturned {α : Type} (saved : Result α → Set Bytes) : Outcome α → Set Bytes
  | .returned r => saved r
  | .threw => ∅

section Operations

variable (env : Env) (draws : Draws) {t : Nat}

theorem quiet_redis {α : Type} {keys : Bytes → Prop} {p : Action α} (h : Program.Uses (Cmd.RedisOn keys) p) :
    Program.Uses Cmd.Quiet p := h.mono fun c hc => by
  cases c with
  | redis _ | now => trivial
  | sql _ => cases hc

theorem agrees_signIn (user : UserEntity) : Agrees t (signIn env draws user) (savedBySignIn env) := by
  refine Agrees.bind (agrees_quiet (uses_generateTokenPair env draws user trivial)) fun tokens => ?_
  exact (agrees_saveRefreshToken _ _ _).map fun _ => rfl

theorem agrees_register (mobile verifyCode password displayName : Bytes) :
    Agrees t (register env draws mobile verifyCode password displayName) (savedBySignIn env) := by
  refine agrees_requireValid (agrees_requireValid (agrees_requireValid (agrees_requireValid ?_)))
  refine Agrees.bind (agrees_quiet (quiet_redis (uses_verifyCaptcha _ _ _ _))) fun r => agrees_orFail fun _ => ?_
  refine Agrees.bind (agrees_quiet (uses_create ⟨nofun, nofun⟩ ⟨nofun, nofun⟩)) fun r => agrees_orFail fun user => ?_
  exact agrees_signIn env draws user

theorem agrees_loginByCode (mobile verifyCode : Bytes) :
    Agrees t (loginByCode env draws mobile verifyCode) (savedBySignIn env) := by
  refine agrees_requireValid (agrees_requireValid ?_)
  refine Agrees.bind (agrees_quiet (quiet_redis (uses_verifyCaptcha _ _ _ _))) fun r => agrees_orFail fun _ => ?_
  refine Agrees.bind (agrees_quiet (uses_findByMobile ⟨nofun, nofun⟩)) fun r => ?_
  cases r with
  | fail code message =>
      show Agrees t (ite _ _ _) _
      split <;> exact agrees_pure _
  | ok user =>
      show Agrees t (ite _ _ _) _
      split
      · exact agrees_pure _
      · exact Agrees.bind (agrees_quiet (uses_clearLoginFailure fun _ _ => trivial)) fun _ => agrees_signIn env draws user

/-- The part of `LoginByPassword` after its checks. -/
theorem agrees_loginByPassword (mobile password : Bytes) :
    Agrees t (loginByPassword env draws mobile password) (savedIfReturned (savedBySignIn env)) := by
  have hrecord : Program.Uses Cmd.Quiet (recordLoginFailure env mobile) :=
    uses_recordLoginFailure env fun _ _ => trivial
  rw [loginByPassword]
  cases isValidMobile mobile with
  | error message => exact agrees_pure _
  | ok _ =>
  cases isValidPassword password env.config.password with
  | error message => exact agrees_pure _
  | ok _ =>
  refine Agrees.bind (agrees_quiet (uses_checkLoginFailedAttempts env fun _ _ => trivial)) fun attempt => ?_
  cases attempt with
  | none => exact agrees_pure _
  | some attempt =>
      refine Agrees.map (agrees_orFail fun _ => ?_) fun _ => rfl
      refine Agrees.bind (agrees_quiet (uses_findByMobile ⟨nofun, nofun⟩)) fun r => ?_
      cases r with
      | fail code message =>
          show Agrees t (ite _ _ _) _
          split
          · exact Agrees.bind (agrees_quiet hrecord) fun _ => agrees_pure _
          · exact agrees_pure _
      | ok user =>
          show Agrees t (ite _ _ _) _
          split
          · exact agrees_pure _
          · split
            · exact Agrees.bind (agrees_quiet hrecord) fun _ => agrees_pure _
            · refine Agrees.bind (agrees_quiet (uses_clearLoginFailure fun _ _ => trivial)) fun _ => ?_
              exact agrees_signIn env draws user

theorem agrees_resetPassword (mobile verifyCode newPassword : Bytes) :
    Agrees t (resetPassword env draws mobile verifyCode newPassword) nothingSaved := by
  refine agrees_requireValid (agrees_requireValid (agrees_requireValid ?_))
  refine Agrees.bind (agrees_quiet (quiet_redis (uses_verifyCaptcha _ _ _ _))) fun r => agrees_orFail fun _ => ?_
  refine Agrees.bind (agrees_quiet (uses_findByMobile ⟨nofun, nofun⟩)) fun r => ?_
  cases r with
  | fail code message =>
      show Agrees t (ite _ _ _) _
      split <;> exact agrees_pure _
  | ok user =>
      refine Agrees.bind (agrees_quiet (uses_update ⟨nofun, nofun⟩)) fun r => agrees_orFail fun _ => ?_
      refine Agrees.bind (agrees_deleteByUserId user.id) fun _ => ?_
      exact Agrees.bind (agrees_quiet (uses_clearLoginFailure fun _ _ => trivial)) fun _ => agrees_pure _

theorem agrees_renewSession (token : Bytes) (userId : Int) (user : UserEntity) :
    Agrees t (renewSession env draws token userId user) (savedByRefresh env) := by
  refine Agrees.bind (agrees_deleteByTokenHash _) fun _ => ?_
  refine Agrees.bind (agrees_quiet (uses_generateTokenPair env draws user trivial)) fun tokens => ?_
  exact (agrees_saveRefreshToken _ _ _).map fun _ => rfl

theorem agrees_refreshSession (token : Bytes) (userId : Int) :
    Agrees t (refreshSession env draws token userId) (savedByRefresh env) := by
  refine Agrees.bind (agrees_quiet (uses_findById ⟨nofun, nofun⟩)) fun r => agrees_orFail fun user => ?_
  split
  · exact agrees_pure _
  · refine Agrees.bind (agrees_quiet (uses_sqlCall ⟨nofun, nofun⟩)) fun r => agrees_orFail fun valid => ?_
    split
    · exact agrees_pure _
    · exact agrees_renewSession env draws token userId user

theorem agrees_refreshToken (token : Bytes) :
    Agrees t (refreshToken env draws token) (savedIfReturned (savedByRefresh env)) := by
  rw [refreshToken]
  split
  · exact agrees_pure _
  · refine Agrees.bind (agrees_quiet (uses_now trivial)) fun now => ?_
    rw [refreshAt]
    split
    · exact agrees_pure _
    · split
      · exact agrees_pure _
      · exact Agrees.map (agrees_refreshSession env draws token _) fun _ => rfl

theorem agrees_logout (token : Bytes) : Agrees t (logout env token) nothingSaved := by
  rw [logout]
  split
  · exact agrees_pure _
  · exact Agrees.bind (agrees_deleteByTokenHash _) fun _ => agrees_pure _

theorem agrees_logoutAll (userUuid : Bytes) : Agrees t (logoutAll userUuid) nothingSaved := by
  refine Agrees.bind (agrees_quiet (uses_findByUUID ⟨nofun, nofun⟩)) fun r => agrees_orFail fun user => ?_
  exact Agrees.bind (agrees_deleteByUserId user.id) fun _ => agrees_pure _

theorem agrees_deleteUser (userUuid verifyCode : Bytes) :
    Agrees t (UserService.deleteUser env userUuid verifyCode) nothingSaved := by
  refine agrees_requireUuid (agrees_requireValid ?_)
  refine Agrees.bind (agrees_quiet (uses_findByUUID ⟨nofun, nofun⟩)) fun r => agrees_orFail fun user => ?_
  refine Agrees.bind (agrees_quiet (quiet_redis (uses_verifyCaptcha _ _ _ _))) fun r => agrees_orFail fun _ => ?_
  refine Agrees.bind (agrees_deleteByUserId user.id) fun _ => ?_
  exact Agrees.bind (agrees_quiet (uses_update ⟨nofun, nofun⟩)) fun r => agrees_orFail fun _ => agrees_pure _

theorem agrees_setUserDisabled (userUuid : Bytes) (disabled : Bool) :
    Agrees t (UserService.setUserDisabled userUuid disabled) nothingSaved := by
  refine agrees_requireUuid ?_
  refine Agrees.bind (agrees_quiet (uses_findByUUID ⟨nofun, nofun⟩)) fun r => agrees_orFail fun user => ?_
  split
  · exact agrees_pure _
  · refine Agrees.bind (agrees_quiet (uses_update ⟨nofun, nofun⟩)) fun r => agrees_orFail fun _ => ?_
    split
    · exact Agrees.bind (agrees_deleteByUserId user.id) fun _ => agrees_pure _
    · exact agrees_pure _

/-- The hashes that a request has stored if it ended so. -/
def savedBy : Outcome Answer → Set Bytes
  | .returned (.ok (.signedIn result)) => {hashToken env.crypto result.tokens.refreshToken}
  | .returned (.ok (.tokens pair)) => {hashToken env.crypto pair.refreshToken}
  | _ => ∅

/-- Every request but the cleanup agrees. -/
theorem agrees_handle {request : Request} (h : request ≠ .cleanExpiredTokens) :
    Agrees t (handle env draws request) (savedBy env) := by
  have hsignIn : ∀ r : Result AuthResult, savedBy env (.returned (r.map .signedIn)) = savedBySignIn env r := by
    intro r
    cases r <;> rfl
  have hnothing : ∀ r : Result Unit, savedBy env (.returned (r.map fun _ => .nothing)) = nothingSaved r := by
    intro r
    cases r <;> rfl
  have hquiet : (∀ s, request.footprint.stmts s → Cmd.Quiet (.sql s)) →
      Agrees t (handle env draws request) (savedBy env) := by
    intro hstmts
    refine agrees_quiet ((uses_handle env draws request).mono fun c hc => ?_)
    cases c with
    | sql s => exact hstmts s hc
    | redis _ | now => trivial
  cases request with
  | sendVerifyCode mobile scene =>
      exact hquiet fun s hs => by
        rw [Cmd.Quiet, show s.kind = .readUser from hs]
        exact ⟨nofun, nofun⟩
  | register mobile verifyCode password displayName =>
      exact (agrees_register env draws mobile verifyCode password displayName).map hsignIn
  | loginByPassword mobile password =>
      refine (agrees_loginByPassword env draws mobile password).map fun o => ?_
      cases o with
      | returned r => exact hsignIn r
      | threw => rfl
  | loginByCode mobile verifyCode => exact (agrees_loginByCode env draws mobile verifyCode).map hsignIn
  | resetPassword mobile verifyCode newPassword =>
      exact (agrees_resetPassword env draws mobile verifyCode newPassword).map hnothing
  | refreshToken token =>
      refine (agrees_refreshToken env draws token).map fun o => ?_
      rcases o with (_ | _) | _ <;> rfl
  | logout token => exact (agrees_logout env token).map hnothing
  | logoutAll userUuid => exact (agrees_logoutAll userUuid).map hnothing
  | getUser userUuid =>
      exact hquiet fun s hs => by
        rw [Cmd.Quiet, show s.kind = .readUser from hs]
        exact ⟨nofun, nofun⟩
  | updateUser _ _ | changePassword _ _ _ =>
      refine hquiet fun s hs => ?_
      have hs : s.kind = .readUser ∨ s.kind = .updateUser := hs
      rcases hs with hs | hs <;> rw [Cmd.Quiet, hs] <;> exact ⟨nofun, nofun⟩
  | deleteUser userUuid verifyCode => exact (agrees_deleteUser env userUuid verifyCode).map hnothing
  | setUserDisabled userUuid disabled => exact (agrees_setUserDisabled userUuid disabled).map hnothing
  | cleanExpiredTokens => exact absurd rfl h

end Operations

/-- The operations of `TokenRepository` and those of the services that are built on them. The cleanup is one of the
requests. -/
inductive SessionOp
  | saveRefreshToken (userId : Int) (tokenHash : Bytes) (expiresInSeconds : Int32)
  | isTokenValid (tokenHash : Bytes)
  | countActiveSessionsByUserId (userId : Int)
  | deleteByTokenHash (tokenHash : Bytes)
  | deleteByUserId (userId : Int)
  | validateAccessToken (accessToken : Bytes)
  | service (request : Request)
  deriving DecidableEq

inductive SessionAnswer
  | done (result : Result Unit)
  | valid (result : Result Bool)
  | count (result : Result Nat)
  | validated (result : Result TokenValidationResult)
  | service (outcome : Outcome Answer)
  deriving DecidableEq

def SessionOp.program (env : Env) (draws : Draws) : SessionOp → Action SessionAnswer
  | saveRefreshToken userId tokenHash expiresInSeconds => do
      return .done (← TokenRepository.saveRefreshToken userId tokenHash expiresInSeconds)
  | isTokenValid tokenHash => do return .valid (← TokenRepository.isTokenValid tokenHash)
  | countActiveSessionsByUserId userId => do return .count (← TokenRepository.countActiveSessionsByUserId userId)
  | deleteByTokenHash tokenHash => do return .done (← TokenRepository.deleteByTokenHash tokenHash)
  | deleteByUserId userId => do return .done (← TokenRepository.deleteByUserId userId)
  | validateAccessToken accessToken => do return .validated (← AuthService.validateAccessToken env accessToken)
  | service request => do return .service (← handle env draws request)

/-- An operation of a run: when it is called, what it draws, and which of its Redis commands fail. No statement
fails. -/
structure SessionCall where
  clock : Nat
  op : SessionOp
  draws : Draws
  redisFaults : List (Option String) := []

def SessionCall.IsCleanup (call : SessionCall) : Prop := call.op = .service .cleanExpiredTokens

instance (call : SessionCall) : Decidable call.IsCleanup := inferInstanceAs (Decidable (_ = _))

def SessionCall.world (call : SessionCall) (w : World) : World :=
  { w with
    clock := call.clock
    redisFaults := call.redisFaults
    sqlFaults := [] }

def serveSession (env : Env) (call : SessionCall) (w : World) : (SessionCall × SessionAnswer) × World :=
  let r := Program.run exec (call.op.program env call.draws) (call.world w)
  ((call, r.1), r.2)

/-- The operations of a run but for the cleanups, with their results. -/
def observed (env : Env) (calls : List SessionCall) (w : World) : List (SessionCall × SessionAnswer) :=
  (history (serveSession env) calls w).1.filter fun e => ¬e.1.IsCleanup

/-- The hash that an operation has passed to `SaveRefreshToken`, by itself or for the tokens it returned. -/
def savedHashes (env : Env) (e : SessionCall × SessionAnswer) : Set Bytes :=
  match e.1.op, e.2 with
  | .saveRefreshToken _ tokenHash _, _ => {tokenHash}
  | .service _, .service outcome => savedBy env outcome
  | _, _ => ∅

/-- No hash is saved twice, nor one that was stored before the run. -/
structure NoHashTwice (env : Env) (db : Database) (log : List (SessionCall × SessionAnswer)) : Prop where
  stored : ∀ e ∈ log, ∀ r ∈ db.sessions, r.tokenHash ∉ savedHashes env e
  saved : log.Pairwise fun e e' => Disjoint (savedHashes env e) (savedHashes env e')

/-- The hashes that were stored before the run or have been saved since. -/
def knownHashes (env : Env) (db : Database) (log : List (SessionCall × SessionAnswer)) : Set Bytes :=
  { h | (∃ r ∈ db.sessions, r.tokenHash = h) ∨ ∃ e ∈ log, h ∈ savedHashes env e }

/-- The clock does not go back. -/
def NeverBack (calls : List SessionCall) : Prop := calls.Pairwise fun c c' => c.clock ≤ c'.clock

section Runs

variable (env : Env) {second : Nat} {known : Set Bytes} {a b : World}

/-- Every operation but the cleanup agrees. -/
theorem agrees_program {call : SessionCall} (h : ¬call.IsCleanup) {t : Nat} :
    Agrees t (call.op.program env call.draws) fun answer => savedHashes env (call, answer) := by
  obtain ⟨clock, op, draws, redisFaults⟩ := call
  cases op with
  | saveRefreshToken userId tokenHash expiresInSeconds =>
      exact (agrees_saveRefreshToken userId tokenHash expiresInSeconds).map fun _ => rfl
  | isTokenValid tokenHash =>
      exact agrees_quiet (Program.Uses.bind (uses_sqlCall ⟨nofun, nofun⟩) fun _ => trivial)
  | countActiveSessionsByUserId userId =>
      exact agrees_quiet (Program.Uses.bind (uses_sqlCall ⟨nofun, nofun⟩) fun _ => trivial)
  | deleteByTokenHash tokenHash => exact (agrees_deleteByTokenHash tokenHash).map fun _ => rfl
  | deleteByUserId userId => exact (agrees_deleteByUserId userId).map fun _ => rfl
  | validateAccessToken accessToken =>
      refine agrees_quiet (Program.Uses.bind ?_ fun _ => trivial)
      rw [validateAccessToken]
      split
      · trivial
      · exact Program.Uses.bind (uses_now trivial) fun _ => uses_orFail fun _ => trivial
  | service request =>
      have hrequest : request ≠ .cleanExpiredTokens := fun heq => h (congrArg SessionOp.service heq)
      exact (agrees_handle env draws hrequest).map fun _ => rfl

/-- Time passes: fewer rows are live in both tables. -/
theorem Alike.later (h : Alike second known a b) {later : Nat} (hle : second ≤ later) : Alike later known a b := by
  have hlive : ∀ db : Database, db.live later = (db.live second).filter (later < ·.expiresAt) := by
    intro db
    rw [Database.live, Database.live, List.filter_filter]
    refine List.filter_congr fun r _ => ?_
    rw [Bool.eq_iff_iff, Bool.and_eq_true, decide_eq_true_iff, decide_eq_true_iff]
    omega
  exact { h with live := by rw [hlive, hlive, h.live] }

theorem Alike.symm (h : Alike second known a b) : Alike second known b a where
  redis := h.redis.symm
  users := h.users.symm
  nextUserId := h.nextUserId.symm
  uuidKey := h.uuidKey.symm
  nextSessionId := h.nextSessionId.symm
  live := h.live.symm
  left := h.right
  right := h.left

/-- A cleanup in one of the worlds. -/
theorem alike_cleanup (h : Alike second known a b) {call : SessionCall} (hcall : call.IsCleanup)
    (hle : toTimeT call.clock ≤ second) : Alike second known (serveSession env call a).2 b := by
  obtain ⟨clock, op, draws, redisFaults⟩ := call
  obtain rfl : op = .service .cleanExpiredTokens := hcall
  have hafter : (serveSession env ⟨clock, .service .cleanExpiredTokens, draws, redisFaults⟩ a).2 =
      { a with
        clock := clock
        redisFaults := redisFaults
        sqlFaults := []
        db := { a.db with sessions := a.db.sessions.filter (toTimeT clock < ·.expiresAt) } } := rfl
  rw [hafter]
  -- a row that is live later on is kept by the cleanup
  have hlive : ({ a.db with
      sessions := a.db.sessions.filter (toTimeT clock < ·.expiresAt) } : Database).live second =
      a.db.live second := by
    rw [Database.live, Database.live, List.filter_filter]
    refine List.filter_congr fun r _ => ?_
    rw [Bool.eq_iff_iff, Bool.and_eq_true, decide_eq_true_iff, decide_eq_true_iff]
    have hle : toTimeT clock ≤ second := hle
    omega
  exact { h with
    live := hlive.trans h.live
    left := fun r hr => h.left r (List.mem_of_mem_filter hr) }

/-- An operation that is no cleanup, in both worlds. -/
theorem alike_serve {call : SessionCall} (h : Alike (toTimeT call.clock) known a b) (hcall : ¬call.IsCleanup)
    (hnew : Disjoint known (savedHashes env (serveSession env call b).1)) :
    (serveSession env call a).1 = (serveSession env call b).1 ∧
      Alike (toTimeT call.clock) (known ∪ savedHashes env (serveSession env call b).1) (serveSession env call a).2
        (serveSession env call b).2 := by
  have htwins : Twins call.clock known (call.world a) (call.world b) :=
    { h with clock := ⟨rfl, rfl⟩, redisFaults := rfl, sqlFaults := ⟨rfl, rfl⟩ }
  obtain ⟨hsame, hafter⟩ := agrees_program env hcall known _ _ htwins fun x hx hknown =>
    Set.disjoint_left.mp hnew hknown hx
  exact ⟨congrArg (Prod.mk call) hsame, hafter.toAlike⟩

/-- The same if it is the first world in which the hash is known to be new. -/
theorem alike_serve_left {call : SessionCall} (h : Alike (toTimeT call.clock) known a b) (hcall : ¬call.IsCleanup)
    (hnew : Disjoint known (savedHashes env (serveSession env call a).1)) :
    (serveSession env call a).1 = (serveSession env call b).1 ∧
      Alike (toTimeT call.clock) (known ∪ savedHashes env (serveSession env call b).1) (serveSession env call a).2
        (serveSession env call b).2 := by
  obtain ⟨hsame, hafter⟩ := alike_serve env h.symm hcall hnew
  rw [hsame]
  exact ⟨rfl, hafter.symm⟩

theorem NoHashTwice.filter {db : Database} {log : List (SessionCall × SessionAnswer)} (h : NoHashTwice env db log)
    (p : SessionCall × SessionAnswer → Bool) : NoHashTwice env db (log.filter p) where
  stored e he := h.stored e (List.mem_of_mem_filter he)
  saved := h.saved.filter p

/-- A log with one more event: the log, and a hash that was not known. -/
theorem noHashTwice_snoc {db : Database} {log : List (SessionCall × SessionAnswer)} {e : SessionCall × SessionAnswer}
    (h : NoHashTwice env db (log ++ [e])) :
    NoHashTwice env db log ∧ Disjoint (knownHashes env db log) (savedHashes env e) := by
  obtain ⟨hlog, -, hpair⟩ := List.pairwise_append.mp h.saved
  refine ⟨⟨fun e he => h.stored e (List.mem_append_left _ he), hlog⟩, Set.disjoint_left.mpr ?_⟩
  rintro x (⟨r, hr, rfl⟩ | ⟨e', he', hx⟩)
  · exact h.stored e (by simp) r hr
  · exact Set.disjoint_left.mp (hpair e' he' e (by simp)) hx

theorem knownHashes_snoc (db : Database) (log : List (SessionCall × SessionAnswer)) (e : SessionCall × SessionAnswer) :
    knownHashes env db (log ++ [e]) = knownHashes env db log ∪ savedHashes env e := by
  ext x
  simp only [knownHashes, List.mem_append, List.mem_singleton, Set.mem_union, Set.mem_ofPred_eq, or_and_right,
    exists_or, exists_eq_left, or_assoc]

theorem observed_snoc_cleanup (w : World) (calls : List SessionCall) {call : SessionCall} (hcall : call.IsCleanup) :
    observed env (calls ++ [call]) w = observed env calls w := by
  rw [observed, history_snoc, List.filter_append, ← observed]
  simp [serveSession, hcall]

theorem observed_snoc (w : World) (calls : List SessionCall) {call : SessionCall} (hcall : ¬call.IsCleanup) :
    observed env (calls ++ [call]) w =
      observed env calls w ++ [(serveSession env call (history (serveSession env) calls w).2).1] := by
  rw [observed, history_snoc, List.filter_append, ← observed]
  simp [serveSession, hcall]

/-- **Two runs.** A run and the same run without its cleanups give the same results, and the tables they leave are
equal up to rows that have expired. -/
theorem alike_runs (w : World) {calls : List SessionCall} (hclock : NeverBack calls)
    (honce : NoHashTwice env w.db (observed env calls w) ∨
      NoHashTwice env w.db (history (serveSession env) (calls.filter (¬·.IsCleanup)) w).1) :
    observed env calls w = (history (serveSession env) (calls.filter (¬·.IsCleanup)) w).1 ∧
      ∀ t, (∀ c ∈ calls, c.clock ≤ t) →
        Alike (toTimeT t) (knownHashes env w.db (observed env calls w)) (history (serveSession env) calls w).2
          (history (serveSession env) (calls.filter (¬·.IsCleanup)) w).2 := by
  induction calls using List.reverseRecOn with
  | nil =>
      have hknown : ∀ r ∈ w.db.sessions, r.tokenHash ∈ knownHashes env w.db [] := fun r hr => .inl ⟨r, hr, rfl⟩
      exact ⟨rfl, fun t _ => ⟨rfl, rfl, rfl, rfl, rfl, rfl, hknown, hknown⟩⟩
  | append_singleton calls call ih =>
      obtain ⟨hbefore, -, hlast⟩ := List.pairwise_append.mp hclock
      have hlast : ∀ c ∈ calls, c.clock ≤ call.clock := fun c hc => hlast c hc call (by simp)
      have hle : ∀ {s t : Nat}, s ≤ t → toTimeT s ≤ toTimeT t := fun h => Nat.div_le_div_right h
      by_cases hcall : call.IsCleanup
      · have hfilter : (calls ++ [call]).filter (¬·.IsCleanup) = calls.filter (¬·.IsCleanup) := by
          simp [List.filter_append, hcall]
        rw [hfilter, observed_snoc_cleanup env w calls hcall] at honce ⊢
        obtain ⟨hsame, halike⟩ := ih hbefore honce
        refine ⟨hsame, fun t ht => ?_⟩
        rw [history_snoc]
        exact alike_cleanup env (halike t fun c hc => ht c (by simp [hc])) hcall (hle (ht call (by simp)))
      · have hfilter : (calls ++ [call]).filter (¬·.IsCleanup) = calls.filter (¬·.IsCleanup) ++ [call] := by
          simp [List.filter_append, hcall]
        rw [hfilter, observed_snoc env w calls hcall, history_snoc] at honce
        rw [hfilter, observed_snoc env w calls hcall, history_snoc, history_snoc, knownHashes_snoc]
        obtain ⟨hsame, halike⟩ := ih hbefore
          (honce.imp (fun h => (noHashTwice_snoc env h).1) fun h => (noHashTwice_snoc env h).1)
        have hnow := halike call.clock hlast
        obtain ⟨hevent, hafter⟩ := honce.elim
          (fun h => alike_serve_left env hnow hcall (noHashTwice_snoc env h).2)
          fun h => alike_serve env hnow hcall (by rw [hsame]; exact (noHashTwice_snoc env h).2)
        rw [hevent, hsame]
        exact ⟨rfl, fun t ht => (hsame ▸ hafter).later (hle (ht call (by simp)))⟩

end Runs

/-- **The cleanup is not observed.** Two runs from one state that differ in their cleanups only give the same results
to all other operations. -/
theorem cleanup_invisible (env : Env) (w : World) {calls calls' : List SessionCall}
    (hsame : calls.filter (¬·.IsCleanup) = calls'.filter (¬·.IsCleanup)) (hclock : NeverBack calls)
    (hclock' : NeverBack calls') (honce : NoHashTwice env w.db (history (serveSession env) calls w).1) :
    observed env calls w = observed env calls' w := by
  have hleft := (alike_runs env w hclock (.inl (honce.filter env _))).1
  -- the run without cleanups saves the same hashes
  have hmiddle : NoHashTwice env w.db (history (serveSession env) (calls.filter (¬·.IsCleanup)) w).1 :=
    hleft ▸ honce.filter env _
  rw [hsame] at hleft hmiddle
  exact hleft.trans (alike_runs env w hclock' (.inr hmiddle)).1.symm

def SessionCall.sample (seconds : Nat) (op : SessionOp) : SessionCall where
  clock := 1700000000000000000 + seconds * nanosPerSecond
  op := op
  draws := (Call.sample 0 .cleanExpiredTokens).draws

/-- A session of one minute that is looked at twice. -/
def watchedSession : List SessionCall :=
  [.sample 0 (.saveRefreshToken 1 (ascii "5feceb66") 60), .sample 30 (.countActiveSessionsByUserId 1),
    .sample 90 (.isTokenValid (ascii "5feceb66"))]

/-- The same with a cleanup after the session has expired. -/
def cleanedSession : List SessionCall :=
  [.sample 0 (.saveRefreshToken 1 (ascii "5feceb66") 60), .sample 30 (.countActiveSessionsByUserId 1),
    .sample 60 (.service .cleanExpiredTokens), .sample 90 (.isTokenValid (ascii "5feceb66"))]

theorem cleanup_invisible_sample :
    (history (serveSession defaultEnv) cleanedSession oneUser).2.db.sessions ≠
        (history (serveSession defaultEnv) watchedSession oneUser).2.db.sessions ∧
      observed defaultEnv cleanedSession oneUser = observed defaultEnv watchedSession oneUser := by
  have hcount : ∀ w, savedHashes defaultEnv
      (serveSession defaultEnv (.sample 30 (.countActiveSessionsByUserId 1)) w).1 = ∅ := fun _ => rfl
  have hclean : ∀ w, savedHashes defaultEnv
      (serveSession defaultEnv (.sample 60 (.service .cleanExpiredTokens)) w).1 = ∅ := fun _ => rfl
  have hvalid : ∀ w, savedHashes defaultEnv
      (serveSession defaultEnv (.sample 90 (.isTokenValid (ascii "5feceb66"))) w).1 = ∅ := fun _ => rfl
  refine ⟨by decide +kernel, cleanup_invisible defaultEnv oneUser rfl ?_ ?_ ⟨?_, ?_⟩⟩
  · rw [NeverBack]
    decide +kernel
  · rw [NeverBack]
    decide +kernel
  · intro e _ r hr
    cases hr
  · simp [history, cleanedSession, hcount, hclean, hvalid]

end AccountService
