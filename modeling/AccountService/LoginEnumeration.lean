import AccountService.LibraryRelational
import AccountService.ModelCalls
import AccountService.RequestFrame

/-! What password logins with wrong passwords tell about a mobile. Two runs with the same Redis, one in which
the mobile is unknown and one in which it belongs to an account, are compared attempt by attempt: the
failure counter, the lockout and the answers evolve alike, unless the account is disabled. A disabled
account is reported as such before the password is looked at, and the failure is not counted. -/

namespace AccountService

open AuthService Interaction

/-- A login with a password: the time since the one before, what it draws, and which of its commands
fail. -/
structure PasswordAttempt where
  delay : Nat
  password : Bytes
  draws : Draws
  redisFaults : List (Option String) := []
  sqlFaults : List Bool := []

/-- The world in which an attempt is made. -/
def PasswordAttempt.world (a : PasswordAttempt) (w : World) : World :=
  { w with
    clock := w.clock + a.delay
    redisFaults := a.redisFaults
    sqlFaults := a.sqlFaults }

/-- What each attempt returns and how it leaves Redis. -/
def observe (env : Env) (mobile : Bytes) : List PasswordAttempt → World → List (Outcome AuthResult × Redis)
  | [], _ => []
  | a :: rest, w =>
      let r := Action.run (loginByPassword env a.draws mobile a.password) (a.world w)
      (r.1, r.2.redis) :: observe env mobile rest r.2

/-- The attempt gets as far as the row of the account: the formats are right, the mobile is not locked, and
the lookup does not fail. -/
def ReachesAccount (env : Env) (mobile password : Bytes) (w : World) : Prop :=
  isValidMobile mobile = .ok () ∧ isValidPassword password env.config.password = .ok () ∧
    (Action.run (checkLoginFailedAttempts env mobile) w).1 = some (.ok ()) ∧ w.sqlFaults.head? ≠ some true

/-- No attempt gets there, in a state that does not change but for the time. -/
def NeverReached (env : Env) (mobile : Bytes) : List PasswordAttempt → World → Prop
  | [], _ => True
  | a :: rest, w => ¬ ReachesAccount env mobile a.password (a.world w) ∧ NeverReached env mobile rest (a.world w)

/-- Two worlds with the same Redis at the same time, over their own tables. -/
structure Apart (db db' : Database) (s t : World) : Prop where
  clock : s.clock = t.clock
  redis : s.redis = t.redis
  redisFaults : s.redisFaults = t.redisFaults
  sqlFaults : s.sqlFaults = t.sqlFaults
  db : s.db = db
  db' : t.db = db'

/-- The two states compared: the mobile is unknown in the first and belongs to `user` in the second. -/
structure LookupTwins (mobile : Bytes) (user : UserEntity) (s t : World) : Prop where
  clock : s.clock = t.clock
  redis : s.redis = t.redis
  unknown : s.db.users.find? (·.mobile = mobile) = none
  known : t.db.users.find? (·.mobile = mobile) = some user

/-- Equal results, and still apart. -/
def SameReply (db db' : Database) {α : Type} (a b : α) (s t : World) : Prop := a = b ∧ Apart db db' s t

/-- Commands of the failure counter. -/
def Cmd.OfRedis : Cmd → Prop
  | .redis _ => True
  | _ => False

/-- Commands that only read it. -/
def Cmd.ReadsRedis : Cmd → Prop
  | .redis (.get _) | .redis (.pttl _) => True
  | _ => False

section Steps

variable {db db' : Database} {s t : World}

theorem apart_ofRedis (c : Cmd) (hc : Cmd.OfRedis c) (s t : World) (h : Apart db db' s t) :
    (exec c s).1 = (exec c t).1 ∧ Apart db db' (exec c s).2 (exec c t).2 := by
  obtain ⟨clock, redis, left, redisFaults, sqlFaults⟩ := s
  obtain ⟨clock', redis', right, redisFaults', sqlFaults'⟩ := t
  obtain ⟨rfl, rfl, rfl, rfl, rfl, rfl⟩ := h
  cases c with
  | redis c =>
      simp only [exec, World.execRedis]
      split <;> exact ⟨rfl, rfl, rfl, rfl, rfl, rfl, rfl⟩
  | now => cases hc
  | sql _ => cases hc

/-- Programs of Redis commands do not see the tables. -/
theorem paired_ofRedis {α : Type} {p : Action α} (hp : Program.Uses Cmd.OfRedis p) :
    Program.Paired exec (Apart db db') p p (SameReply db db') :=
  Program.paired_self apart_ofRedis hp

theorem exec_readsRedis (c : Cmd) (hc : Cmd.ReadsRedis c) (w : World) :
    (exec c w).2 = { w with redisFaults := (exec c w).2.redisFaults } := by
  cases c with
  | redis c =>
      cases c with
      | get k =>
          simp only [exec, World.execRedis]
          split <;> rfl
      | pttl k =>
          simp only [exec, World.execRedis, RedisCmd.apply]
          split
          · rfl
          · split <;> rfl
      | _ => cases hc
  | now => cases hc
  | sql _ => cases hc

/-- The check reads the counter and leaves everything as it is. -/
theorem reads_checkLoginFailedAttempts (env : Env) (mobile : Bytes) :
    Program.Uses Cmd.ReadsRedis (checkLoginFailedAttempts env mobile) := by
  refine Program.Uses.bind (uses_redisCall trivial) fun r => ?_
  rcases r with (_ | text) | _
  · trivial
  · dsimp only
    split
    · trivial
    · split
      · exact Program.Uses.bind (uses_redisCall trivial) fun _ => trivial
      · trivial
  · trivial

theorem Cmd.ReadsRedis.ofRedis {c : Cmd} (h : Cmd.ReadsRedis c) : Cmd.OfRedis c := by
  cases c with
  | redis c => trivial
  | now => cases h
  | sql _ => cases h

/-- What a reading program leaves alone. -/
theorem run_readsRedis {α : Type} {p : Action α} (hp : Program.Uses Cmd.ReadsRedis p) (w : World) :
    (Program.run exec p w).2 = { w with redisFaults := (Program.run exec p w).2.redisFaults } := by
  have hframe := Program.run_frame exec (fun w : World => (w.clock, w.redis, w.db, w.sqlFaults))
    (fun c hc w => by rw [exec_readsRedis c hc w]) hp w
  obtain ⟨clock, redis, db, redisFaults, sqlFaults⟩ := w
  simp only [Prod.mk.injEq] at hframe
  obtain ⟨hclock, hredis, hdb, hsql⟩ := hframe
  cases hrun : (Program.run exec p ⟨clock, redis, db, redisFaults, sqlFaults⟩).2
  rw [hrun] at hclock hredis hdb hsql
  cases hclock; cases hredis; cases hdb; cases hsql
  rfl

end Steps

section Attempt

variable (env : Env) (draws : Draws) (mobile password : Bytes)

/-- The part of `LoginByPassword` behind the lookup. -/
def afterLookup (found : Result UserEntity) : Action (Result AuthResult) :=
  match found with
  | .fail code message =>
      if code = .userNotFound then do
        recordLoginFailure env mobile
        return .failWith .wrongPassword "账号或密码错误"
      else return .failWith code message
  | .ok user =>
      if user.disabled then return .failWith .userDisabled "账号已被禁用"
      else if ¬passwordVerify env.crypto password user.passwordHash then do
        recordLoginFailure env mobile
        return .failWith .wrongPassword "账号或密码错误"
      else do
        clearLoginFailure mobile
        signIn env draws user

/-- The part behind the format checks. -/
def afterFormats (checked : Option (Result Unit)) : Action (Outcome AuthResult) :=
  match checked with
  | none => return .threw
  | some attempt => do
      let result ← orFail attempt fun _ => do
        afterLookup env draws mobile password (← UserDB.findByMobile mobile)
      return .returned result

theorem loginByPassword_eq (hmobile : isValidMobile mobile = .ok ())
    (hpassword : isValidPassword password env.config.password = .ok ()) :
    loginByPassword env draws mobile password =
      checkLoginFailedAttempts env mobile >>= afterFormats env draws mobile password := by
  unfold loginByPassword
  rw [hmobile, hpassword]
  rfl

variable {env mobile password} {w : World}

/-- How an attempt ends that does not get to the account. -/
def earlyOutcome (env : Env) (mobile password : Bytes) (checked : Option (Result Unit)) : Outcome AuthResult :=
  match isValidMobile mobile with
  | .error message => .returned (.failWith .invalidArgument message)
  | .ok () =>
  match isValidPassword password env.config.password with
  | .error message => .returned (.failWith .invalidArgument message)
  | .ok () =>
  match checked with
  | none => .threw
  | some (.fail code message) => .returned (.failWith code message)
  | some (.ok ()) => .returned (failPlain .serviceUnavailable)

/-- An attempt that does not get to the account changes nothing. -/
theorem run_not_reached (h : ¬ ReachesAccount env mobile password w) :
    ∃ redisFaults sqlFaults, Action.run (loginByPassword env draws mobile password) w =
      (earlyOutcome env mobile password (Action.run (checkLoginFailedAttempts env mobile) w).1,
        { w with
          redisFaults := redisFaults
          sqlFaults := sqlFaults }) := by
  cases hmobile : isValidMobile mobile with
  | error message =>
      refine ⟨w.redisFaults, w.sqlFaults, ?_⟩
      simp [earlyOutcome, loginByPassword, hmobile, Action.run]
  | ok _ =>
      cases hpassword : isValidPassword password env.config.password with
      | error message =>
          refine ⟨w.redisFaults, w.sqlFaults, ?_⟩
          simp [earlyOutcome, loginByPassword, hmobile, hpassword, Action.run]
      | ok _ =>
          obtain ⟨left, hworld⟩ : ∃ left, (Program.run exec (checkLoginFailedAttempts env mobile) w).2 =
              { w with redisFaults := left } := ⟨_, run_readsRedis (reads_checkLoginFailedAttempts env mobile) w⟩
          rw [loginByPassword_eq env draws mobile password hmobile hpassword]
          simp only [Action.run, Program.run_bind, earlyOutcome, hmobile, hpassword]
          cases hchecked : (Program.run exec (checkLoginFailedAttempts env mobile) w).1 with
          | none => exact ⟨left, w.sqlFaults, Prod.ext rfl hworld⟩
          | some attempt =>
              cases attempt with
              | fail code message => exact ⟨left, w.sqlFaults, Prod.ext rfl hworld⟩
              | ok _ =>
                  have hfault : w.sqlFaults.head? = some true := by
                    by_contra hnone
                    exact h ⟨hmobile, hpassword, hchecked, hnone⟩
                  refine ⟨left, w.sqlFaults.tail, ?_⟩
                  simp only [afterFormats, orFail_ok, Program.run_bind, run_findByMobile]
                  rw [hworld]
                  simp only [World.userByMobile, World.lookup, hfault, if_true]
                  rfl

/-- An attempt that gets there goes on with the row, in a world of which the time, Redis and the tables are
as they were. -/
theorem run_reached (h : ReachesAccount env mobile password w) :
    Action.run (loginByPassword env draws mobile password) w =
      let found := foundUser (.ok (w.db.users.find? (·.mobile = mobile)))
      let r := Action.run (afterLookup env draws mobile password found)
        (Action.run (checkLoginFailedAttempts env mobile) w).2.read
      (.returned r.1, r.2) := by
  obtain ⟨hmobile, hpassword, hchecked, hfault⟩ := h
  obtain ⟨left, hworld⟩ : ∃ left, (Program.run exec (checkLoginFailedAttempts env mobile) w).2 =
      { w with redisFaults := left } := ⟨_, run_readsRedis (reads_checkLoginFailedAttempts env mobile) w⟩
  rw [loginByPassword_eq env draws mobile password hmobile hpassword]
  simp only [Action.run, Program.run_bind] at hchecked ⊢
  rw [hchecked]
  simp only [afterFormats, orFail_ok, Program.run_bind, run_findByMobile]
  rw [hworld]
  simp only [World.userByMobile, World.lookup, hfault, if_false]
  rfl

theorem run_afterLookup_unknown :
    Action.run (afterLookup env draws mobile password (foundUser (.ok none))) w =
      (.failWith .wrongPassword "账号或密码错误", (Action.run (recordLoginFailure env mobile) w).2) :=
  Program.run_bind ..

theorem run_afterLookup_disabled {user : UserEntity} (h : user.disabled = true) :
    Action.run (afterLookup env draws mobile password (foundUser (.ok (some user)))) w =
      (.failWith .userDisabled "账号已被禁用", w) := by
  simp only [afterLookup, foundUser, h, if_true]
  rfl

theorem run_afterLookup_wrong {user : UserEntity} (henabled : user.disabled = false)
    (hwrong : passwordVerify env.crypto password user.passwordHash = false) :
    Action.run (afterLookup env draws mobile password (foundUser (.ok (some user)))) w =
      (.failWith .wrongPassword "账号或密码错误", (Action.run (recordLoginFailure env mobile) w).2) := by
  simp only [afterLookup, foundUser, henabled, hwrong, Bool.false_eq_true, if_false, not_false_eq_true, if_true]
  exact Program.run_bind ..

end Attempt

section TwoRuns

variable {env : Env} {mobile password : Bytes} {user : UserEntity} {db db' : Database} {s t : World}

theorem LookupTwins.world (h : LookupTwins mobile user s t) (a : PasswordAttempt) :
    LookupTwins mobile user (a.world s) (a.world t) where
  clock := by rw [PasswordAttempt.world, PasswordAttempt.world, h.clock]
  redis := h.redis
  unknown := h.unknown
  known := h.known

theorem LookupTwins.apart (h : LookupTwins mobile user s t) (a : PasswordAttempt) :
    Apart s.db t.db (a.world s) (a.world t) where
  clock := (h.world a).clock
  redis := h.redis
  redisFaults := rfl
  sqlFaults := rfl
  db := rfl
  db' := rfl

theorem Apart.twins (h : Apart db db' s t) (hunknown : db.users.find? (·.mobile = mobile) = none)
    (hknown : db'.users.find? (·.mobile = mobile) = some user) : LookupTwins mobile user s t where
  clock := h.clock
  redis := h.redis
  unknown := h.db ▸ hunknown
  known := h.db' ▸ hknown

theorem apart_checked (env : Env) (mobile : Bytes) (h : Apart db db' s t) :
    SameReply db db' (Action.run (checkLoginFailedAttempts env mobile) s).1
      (Action.run (checkLoginFailedAttempts env mobile) t).1 (Action.run (checkLoginFailedAttempts env mobile) s).2
      (Action.run (checkLoginFailedAttempts env mobile) t).2 :=
  paired_ofRedis ((reads_checkLoginFailedAttempts env mobile).mono fun _ hc => hc.ofRedis) s t h

theorem apart_recorded (env : Env) (mobile : Bytes) (h : Apart db db' s t) :
    Apart db db' (Action.run (recordLoginFailure env mobile) s).2 (Action.run (recordLoginFailure env mobile) t).2 :=
  (paired_ofRedis (uses_recordLoginFailure env fun _ _ => trivial) s t h).2

theorem Apart.read (h : Apart db db' s t) : Apart db db' s.read t.read where
  clock := h.clock
  redis := h.redis
  redisFaults := h.redisFaults
  sqlFaults := congrArg List.tail h.sqlFaults
  db := h.db
  db' := h.db'

/-- The account is reached in both runs or in neither. -/
theorem Apart.reaches_iff (h : Apart db db' s t) :
    ReachesAccount env mobile password s ↔ ReachesAccount env mobile password t := by
  unfold ReachesAccount
  rw [(apart_checked env mobile h).1, h.sqlFaults]

/-- Short of the account the two runs are told the same, and nothing changes. -/
theorem twins_not_reached (draws : Draws) (h : Apart db db' s t) (htwins : LookupTwins mobile user s t)
    (hearly : ¬ ReachesAccount env mobile password s) :
    (Action.run (loginByPassword env draws mobile password) s).1 =
        (Action.run (loginByPassword env draws mobile password) t).1 ∧
      LookupTwins mobile user (Action.run (loginByPassword env draws mobile password) s).2
        (Action.run (loginByPassword env draws mobile password) t).2 := by
  obtain ⟨_, _, hrun⟩ := run_not_reached draws hearly
  obtain ⟨_, _, hrun'⟩ := run_not_reached draws fun hreached => hearly (h.reaches_iff.mpr hreached)
  rw [hrun, hrun', (apart_checked env mobile h).1]
  exact ⟨rfl, htwins.clock, htwins.redis, htwins.unknown, htwins.known⟩

/-- At the account a wrong password is counted in both runs, and answered alike. -/
theorem twins_counted (draws : Draws) (h : Apart db db' s t) (htwins : LookupTwins mobile user s t)
    (hreached : ReachesAccount env mobile password s) (henabled : user.disabled = false)
    (hwrong : passwordVerify env.crypto password user.passwordHash = false) :
    (Action.run (loginByPassword env draws mobile password) s).1 =
        (Action.run (loginByPassword env draws mobile password) t).1 ∧
      LookupTwins mobile user (Action.run (loginByPassword env draws mobile password) s).2
        (Action.run (loginByPassword env draws mobile password) t).2 := by
  have hafter := apart_recorded env mobile (apart_checked env mobile h).2.read
  rw [run_reached draws hreached, run_reached draws (h.reaches_iff.mp hreached), htwins.unknown, htwins.known]
  simp only [run_afterLookup_unknown, run_afterLookup_wrong draws henabled hwrong]
  exact ⟨trivial, hafter.twins (h.db ▸ htwins.unknown) (h.db' ▸ htwins.known)⟩

/-- A disabled account is named before the password is looked at. -/
theorem twins_disabled (draws : Draws) (h : Apart db db' s t) (htwins : LookupTwins mobile user s t)
    (hreached : ReachesAccount env mobile password s) (hdisabled : user.disabled = true) :
    (Action.run (loginByPassword env draws mobile password) s).1 ≠
      (Action.run (loginByPassword env draws mobile password) t).1 := by
  rw [run_reached draws hreached, run_reached draws (h.reaches_iff.mp hreached), htwins.unknown, htwins.known]
  simp only [run_afterLookup_unknown, run_afterLookup_disabled draws hdisabled]
  intro hsame
  injection hsame with hsame
  injection hsame with hcode
  cases hcode

/-- What is reached depends on the attempts, the time and the stores alone. -/
theorem neverReached_congr {w w' : World} (hclock : w.clock = w'.clock) (hredis : w.redis = w'.redis)
    (hdb : w.db = w'.db) : ∀ attempts : List PasswordAttempt,
      NeverReached env mobile attempts w ↔ NeverReached env mobile attempts w'
  | [] => Iff.rfl
  | a :: _ => by
      have hworld : a.world w = a.world w' := by simp only [PasswordAttempt.world, hclock, hredis, hdb]
      rw [NeverReached, NeverReached, hworld]

/-- **Account enumeration.** The answers to wrong passwords, and Redis after each of them, tell an unknown
mobile from a known one exactly when the account is disabled and some attempt gets to it. -/
theorem observe_eq_iff {attempts : List PasswordAttempt} (h : LookupTwins mobile user s t)
    (hwrong : ∀ a ∈ attempts, passwordVerify env.crypto a.password user.passwordHash = false) :
    observe env mobile attempts s = observe env mobile attempts t ↔
      user.disabled = false ∨ NeverReached env mobile attempts s := by
  induction attempts generalizing s t with
  | nil => exact iff_of_true rfl (Or.inr trivial)
  | cons a rest ih =>
      have hapart := h.apart a
      have htwins := h.world a
      have hrest : ∀ b ∈ rest, passwordVerify env.crypto b.password user.passwordHash = false :=
        fun b hb => hwrong b (List.mem_cons_of_mem _ hb)
      rw [observe, observe, NeverReached]
      by_cases hreached : ReachesAccount env mobile a.password (a.world s)
      · cases hdisabled : user.disabled with
        | false =>
            obtain ⟨hsame, hnext⟩ := twins_counted a.draws hapart htwins hreached hdisabled
              (hwrong a List.mem_cons_self)
            have htail := (ih hnext hrest).mpr (Or.inl hdisabled)
            exact iff_of_true (by rw [hsame, hnext.redis, htail]) (Or.inl rfl)
        | true =>
            have hdiffer := twins_disabled a.draws hapart htwins hreached hdisabled
            refine iff_of_false (fun hsame => hdiffer ?_) (fun hnever => ?_)
            · injection hsame with hhead
              injection hhead
            · rcases hnever with hfalse | hnever
              · cases hfalse
              · exact hnever.1 hreached
      · obtain ⟨hsame, hnext⟩ := twins_not_reached a.draws hapart htwins hreached
        obtain ⟨_, _, hrun⟩ := run_not_reached a.draws hreached
        have hcongr : NeverReached env mobile rest (Action.run (loginByPassword env a.draws mobile a.password)
            (a.world s)).2 ↔ NeverReached env mobile rest (a.world s) := by
          rw [hrun]
          exact neverReached_congr (by rfl) (by rfl) (by rfl) rest
        rw [hsame, hnext.redis, List.cons_inj_right, ih hnext hrest, hcongr]
        exact or_congr Iff.rfl (and_iff_right hreached).symm

end TwoRuns

/-- An account, enabled or not. -/
def knownRow (disabled : Bool) : UserEntity where
  id := 1
  uuid := (Call.sample 0 (.logout [])).draws.uuid
  mobile := ascii "13800138000"
  displayName := ascii "Alice"
  passwordHash := passwordHash .openssl (Call.sample 0 (.logout [])).draws.salt (ascii "Right123")
  disabled := disabled

def knownWorld (disabled : Bool) : World :=
  let empty := emptyWorld 0
  { empty with db := { empty.db with users := [knownRow disabled], nextUserId := 2 } }

def wrongAttempt : PasswordAttempt where
  delay := 0
  password := ascii "Wrong123"
  draws := (Call.sample 0 (.logout [])).draws

theorem knownWorld_twins (disabled : Bool) :
    LookupTwins (ascii "13800138000") (knownRow disabled) (emptyWorld 0) (knownWorld disabled) where
  clock := rfl
  redis := rfl
  unknown := rfl
  known := by
    show List.find? _ [knownRow disabled] = _
    exact List.find?_cons_of_pos (decide_eq_true rfl)

theorem knownRow_wrong (disabled : Bool) :
    ∀ a ∈ [wrongAttempt], passwordVerify defaultEnv.crypto a.password (knownRow disabled).passwordHash = false := by
  intro a ha
  rw [List.mem_singleton.mp ha]
  cases disabled <;> decide +kernel

/-- One wrong password tells a disabled account from an unknown mobile. -/
theorem observe_tells_disabled :
    LookupTwins (ascii "13800138000") (knownRow true) (emptyWorld 0) (knownWorld true) ∧
      (∀ a ∈ [wrongAttempt], passwordVerify defaultEnv.crypto a.password (knownRow true).passwordHash = false) ∧
      (observe defaultEnv (ascii "13800138000") [wrongAttempt] (emptyWorld 0)).map Prod.fst ≠
        (observe defaultEnv (ascii "13800138000") [wrongAttempt] (knownWorld true)).map Prod.fst :=
  ⟨knownWorld_twins true, knownRow_wrong true, by decide +kernel⟩

theorem observe_eq_iff_sample :
    observe defaultEnv (ascii "13800138000") [wrongAttempt] (emptyWorld 0) =
      observe defaultEnv (ascii "13800138000") [wrongAttempt] (knownWorld false) :=
  (observe_eq_iff (knownWorld_twins false) (knownRow_wrong false)).mpr (Or.inl rfl)

end AccountService
