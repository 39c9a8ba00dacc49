import AccountService.CaptchaRuns
import AccountService.DatabaseSpec

/-! How often a verification code authorises an operation. No service calls `ConsumeCaptcha`, so a code
stays live until it expires. A second registration and a second deletion are stopped by the tables; a
second login and a second password reset are not. -/

namespace AccountService

open AuthService Expiring Interaction Table

/-- Every user is still there, and those who were disabled still are. -/
def KeepsDisabled (users users' : List UserEntity) : Prop :=
  ∀ row ∈ users, ∃ row' ∈ users', row'.mobile = row.mobile ∧ (row.disabled = true → row'.disabled = true)

theorem KeepsDisabled.refl (users : List UserEntity) : KeepsDisabled users users :=
  fun row hrow => ⟨row, hrow, rfl, id⟩

theorem KeepsDisabled.append (users : List UserEntity) (row : UserEntity) :
    KeepsDisabled users (users ++ [row]) :=
  fun r hr => ⟨r, List.mem_append_left _ hr, rfl, id⟩

/-- An update of a user that does not enable it. -/
theorem keepsDisabled_map_write {db : Database} (h : db.WellFormed) {user : UserEntity}
    (huser : user ∈ db.users) {u : UserUpdate} (huuid : u.uuid = user.uuid)
    (hdisabled : user.disabled = true → u.disabled = true) (second : Nat) :
    KeepsDisabled db.users (db.users.map (u.write db second)) := by
  intro row hrow
  refine ⟨_, List.mem_map_of_mem hrow, u.write_mobile db second row, fun hrowDisabled => ?_⟩
  unfold UserUpdate.write
  split
  · rename_i hsame
    have hkey : db.uuidKey row.uuid = db.uuidKey user.uuid := by
      rw [← huuid]
      simpa [Database.sameUuid] using hsame.1
    rw [h.uuid.eq_of_key hrow huser hkey] at hrowDisabled
    exact hdisabled hrowDisabled
  · exact hrowDisabled

/-- An update that changes a row changes the row of its user. -/
theorem changes_self {db : Database} (h : db.WellFormed) {user : UserEntity} (huser : user ∈ db.users)
    {u : UserUpdate} (huuid : u.uuid = user.uuid) (hne : u.affected db ≠ 0) :
    db.sameUuid user.uuid u.uuid = true ∧ ¬u.Holds user := by
  obtain ⟨row, hrow, hchanged⟩ := List.countP_pos_iff.mp (Nat.pos_of_ne_zero hne)
  simp only [decide_eq_true_eq] at hchanged
  have hkey : db.uuidKey row.uuid = db.uuidKey user.uuid := by
    rw [← huuid]
    simpa [Database.sameUuid] using hchanged.1
  rw [h.uuid.eq_of_key hrow huser hkey] at hchanged
  exact hchanged

/-- `Create` leaves the users as they are, or appends one with a new mobile. -/
theorem run_create_users (uuid : Bytes) (user : UserEntity) (w : World) :
    ((Program.run exec (UserDB.create uuid user) w).1.isOk = false ∧
        (Program.run exec (UserDB.create uuid user) w).2.db.users = w.db.users) ∨
      ∃ row, row.mobile = user.mobile ∧ (∀ r ∈ w.db.users, r.mobile ≠ user.mobile) ∧
        (Program.run exec (UserDB.create uuid user) w).2.db.users = w.db.users ++ [row] := by
  simp only [UserDB.create, Program.run_bind]
  rw [run_sql]
  rcases execSql_cases w (.insertUser uuid user.mobile user.displayName user.passwordHash user.role) with
    ⟨hreply, hdb⟩ | ⟨hreply, hdb⟩
  · rw [hreply]
    exact Or.inl ⟨rfl, congrArg Database.users hdb⟩
  · rw [hreply]
    rcases apply_insertUser (toTimeT w.clock) w.db uuid user.mobile user.displayName user.passwordHash
      user.role with ⟨e, happly⟩ | ⟨-, hmobile, happly⟩
    · rw [happly] at hdb ⊢
      refine Or.inl ?_
      rcases e with (_ | _ | _) | _ <;> exact ⟨rfl, congrArg Database.users hdb⟩
    · rw [happly] at hdb ⊢
      have hrow : (w.db.newUser (toTimeT w.clock) uuid user.mobile user.displayName user.passwordHash
        user.role).mobile = user.mobile := rfl
      refine Or.inr ⟨_, hrow, hmobile, ?_⟩
      rw [run_findByUUID]
      show (w.execSql _).2.db.users = _
      rw [hdb]

/-- A program of Redis commands leaves the database alone. -/
theorem run_db_of_redisOn {α : Type} {keys : Bytes → Prop} {p : Action α}
    (hp : Program.Uses (Cmd.RedisOn keys) p) (w : World) : (Program.run exec p w).2.db = w.db :=
  run_db_invariant (I := fun db => db = w.db) (fun _ hs => absurd hs id) hp rfl

/-- A request with a code has done to the users what it can: nobody is lost or enabled; a registration
succeeds for a new mobile only, and a deletion for an enabled user only. -/
structure CodeStep (users users' : List UserEntity) (ok : Bool) (ask : Option SmsCall) : Prop where
  keeps : KeepsDisabled users users'
  registers : ok = true → ∀ mobile code, ask = some (.verify .register mobile code) →
    (∀ row ∈ users, row.mobile ≠ mobile) ∧ ∃ row ∈ users', row.mobile = mobile
  deletes : ok = true → ∀ mobile code, ask = some (.verify .deleteUser mobile code) →
    (∃ row ∈ users, row.mobile = mobile ∧ row.disabled = false) ∧
      ∃ row ∈ users', row.mobile = mobile ∧ row.disabled = true

/-- A request that fails without a trace in the users. -/
theorem CodeStep.failed {users : List UserEntity} {ok : Bool} {ask : Option SmsCall} (hok : ok = false) :
    CodeStep users users ok ask := by
  subst hok
  exact ⟨.refl users, fun h => (by cases h), fun h => by cases h⟩

theorem CodeStep.requireValid {α : Type} {w : World} {check : Except String Unit}
    {next : Action (Result α)} {ask : Option SmsCall}
    (h : CodeStep w.db.users (Program.run exec next w).2.db.users (Program.run exec next w).1.isOk ask) :
    CodeStep w.db.users (Program.run exec (requireValid check next) w).2.db.users
      (Program.run exec (requireValid check next) w).1.isOk ask := by
  cases check with
  | error message => exact .failed rfl
  | ok _ => exact h

/-- The verification is over Redis alone. -/
theorem CodeStep.verify {α : Type} (env : Env) {w : World} {scene : SmsScene} {mobile input : Bytes}
    {next : Unit → Action (Result α)} {ask : Option SmsCall}
    (h : ∀ w₁ : World, w₁.db = w.db → CodeStep w.db.users (Program.run exec (next ()) w₁).2.db.users
      (Program.run exec (next ()) w₁).1.isOk ask) :
    CodeStep w.db.users
      (Program.run exec (do orFail (← verifyCaptcha env.config.sms scene mobile input) next) w).2.db.users
      (Program.run exec (do orFail (← verifyCaptcha env.config.sms scene mobile input) next) w).1.isOk
      ask := by
  have hdb := run_db_of_redisOn (uses_verifyCaptcha env.config.sms scene mobile input) w
  rw [Program.run_bind]
  cases (Program.run exec (verifyCaptcha env.config.sms scene mobile input) w).1 with
  | fail code message =>
      show CodeStep w.db.users (Program.run exec (verifyCaptcha _ _ _ _) w).2.db.users false ask
      rw [hdb]
      exact .failed rfl
  | ok _ => exact h _ hdb

section Operations

variable (env : Env) (draws : Draws) (w : World)

theorem codeStep_register (mobile verifyCode password displayName : Bytes) :
    CodeStep w.db.users
      (Program.run exec (register env draws mobile verifyCode password displayName) w).2.db.users
      (Program.run exec (register env draws mobile verifyCode password displayName) w).1.isOk
      (some (.verify .register mobile verifyCode)) := by
  refine .requireValid (.requireValid (.requireValid (.requireValid (.verify env fun w₁ hdb => ?_))))
  rw [← hdb, Program.run_bind]
  generalize huser : ({
    mobile := mobile
    passwordHash := passwordHash env.crypto draws.salt password
    displayName := displayName } : UserEntity) = user
  have hmobile : user.mobile = mobile := by rw [← huser]
  cases hcreate : (Program.run exec (UserDB.create draws.uuid user) w₁).1 with
  | fail code message =>
      show CodeStep _ (Program.run exec (UserDB.create draws.uuid user) w₁).2.db.users false _
      rcases run_create_users draws.uuid user w₁ with ⟨-, husers⟩ | ⟨row, -, -, husers⟩
      · rw [husers]
        exact .failed rfl
      · rw [husers]
        exact ⟨.append _ _, fun h => (by cases h), fun h => by cases h⟩
  | ok created =>
      rcases run_create_users draws.uuid user w₁ with ⟨hfail, -⟩ | ⟨row, hrow, hnew, husers⟩
      · rw [hcreate] at hfail
        cases hfail
      · have hsigned := (run_users (uses_signIn env draws created trivial fun _ _ => trivial)
          (Program.run exec (UserDB.create draws.uuid user) w₁).2).1
        simp only [orFail]
        rw [hsigned, husers]
        refine ⟨.append _ _, fun _ m c hask => ?_, fun _ m c hask => by cases hask⟩
        cases hask
        rw [hmobile] at hrow hnew
        exact ⟨hnew, row, by simp, hrow⟩

/-- Without a statement that writes to `users`, the users stay. -/
theorem run_users_footprint {α : Type} {f : Footprint} {p : Action α} (hp : Program.Uses f.Covers p)
    (hf : ∀ s, f.stmts s → s.kind ≠ .insertUser ∧ s.kind ≠ .updateUser) (w : World) :
    (Program.run exec p w).2.db.users = w.db.users := by
  refine (run_users (hp.mono fun c hc => ?_) w).1
  cases c with
  | now => trivial
  | redis c => trivial
  | sql s =>
      obtain ⟨hinsert, hupdate⟩ := hf s hc
      cases s with
      | insertUser _ _ _ _ _ => exact absurd rfl hinsert
      | updateUser _ => exact absurd rfl hupdate
      | _ => trivial

theorem codeStep_sendVerifyCode (mobile : Bytes) (scene : SmsScene) (code : Bytes) :
    CodeStep w.db.users (Program.run exec (sendVerifyCode env draws mobile scene) w).2.db.users
      (Program.run exec (sendVerifyCode env draws mobile scene) w).1.isOk
      (some (.send scene mobile code)) := by
  rw [run_users_footprint (uses_sendVerifyCode env draws mobile scene)]
  · exact ⟨.refl _, fun _ m c hask => (by cases hask), fun _ m c hask => by cases hask⟩
  · intro s hs
    rw [show s.kind = .readUser from hs]
    decide

theorem codeStep_loginByCode (mobile verifyCode : Bytes) :
    CodeStep w.db.users (Program.run exec (loginByCode env draws mobile verifyCode) w).2.db.users
      (Program.run exec (loginByCode env draws mobile verifyCode) w).1.isOk
      (some (.verify .login mobile verifyCode)) := by
  rw [run_users_footprint (uses_loginByCode env draws mobile verifyCode)]
  · exact ⟨.refl _, fun _ m c hask => (by cases hask), fun _ m c hask => by cases hask⟩
  · rintro s (hs | hs) <;> rw [hs] <;> decide

theorem codeStep_resetPassword (h : w.db.WellFormed) (mobile verifyCode newPassword : Bytes) :
    CodeStep w.db.users
      (Program.run exec (resetPassword env draws mobile verifyCode newPassword) w).2.db.users
      (Program.run exec (resetPassword env draws mobile verifyCode newPassword) w).1.isOk
      (some (.verify .resetPassword mobile verifyCode)) := by
  refine .requireValid (.requireValid (.requireValid (.verify env fun w₁ hdb => ?_)))
  rw [← hdb] at h ⊢
  refine ⟨?_, fun _ m c hask => (by cases hask), fun _ m c hask => by cases hask⟩
  rw [Program.run_bind, run_findByMobile]
  cases hfind : w₁.userByMobile mobile with
  | fail code message =>
      simp only
      split <;> exact .refl _
  | ok user =>
      have hmem := List.mem_of_find?_eq_some (lookup_of_ok hfind)
      simp only [Program.run_bind]
      generalize huser' : { user with passwordHash := passwordHash env.crypto draws.salt newPassword } = user'
      have hkeeps : KeepsDisabled w₁.db.users (Program.run exec (UserDB.update user') w₁.read).2.db.users := by
        rcases run_update user' w₁.read with ⟨-, hsame⟩ | ⟨hwrite, -⟩
        · rw [hsame]
          exact .refl _
        · rw [hwrite]
          subst huser'
          exact keepsDisabled_map_write h hmem rfl id _
      cases (Program.run exec (UserDB.update user') w₁.read).1 with
      | fail code message => exact hkeeps
      | ok _ =>
          have hfinish : Program.Uses Cmd.KeepsUsers (do
              let _ ← TokenRepository.deleteByUserId user.id
              clearLoginFailure mobile
              return (.ok () : Result Unit)) :=
            (uses_deleteByUserId trivial).bind fun _ =>
              (uses_clearLoginFailure fun _ _ => trivial).bind fun _ => trivial
          simp only [orFail]
          rw [(run_users hfinish _).1]
          exact hkeeps

theorem codeStep_deleteUser (h : w.db.WellFormed) (userUuid verifyCode : Bytes) :
    CodeStep w.db.users (Program.run exec (UserService.deleteUser env userUuid verifyCode) w).2.db.users
      (Program.run exec (UserService.deleteUser env userUuid verifyCode) w).1.isOk
      ((w.db.users.find? (w.db.sameUuid ·.uuid userUuid)).map fun user =>
        .verify .deleteUser user.mobile verifyCode) := by
  unfold UserService.deleteUser UserService.requireUuid
  split
  · exact .failed rfl
  · refine .requireValid ?_
    rw [Program.run_bind, run_findByUUID]
    cases hfind : w.lookup (w.db.users.find? (w.db.sameUuid ·.uuid userUuid)) with
    | fail code message => exact .failed rfl
    | ok user =>
        have hrow := lookup_of_ok hfind
        have hmem := List.mem_of_find?_eq_some hrow
        rw [hrow]
        have hread : w.read.db = w.db := rfl
        rw [orFail_ok, ← hread]
        rw [← hread] at h hmem
        refine .verify env fun w₁ hdb => ?_
        rw [← hdb] at h hmem ⊢
        rw [Program.run_bind]
        generalize hw₂ : (Program.run exec (TokenRepository.deleteByUserId user.id) w₁).2 = w₂
        have husers : w₂.db.users = w₁.db.users ∧ w₂.db.uuidKey = w₁.db.uuidKey := by
          rw [← hw₂]
          exact run_users (uses_deleteByUserId trivial) w₁
        have hwf : w₂.db.WellFormed := by
          rw [← hw₂]
          exact run_wellFormed _ h
        rw [← husers.1] at hmem ⊢
        rw [Program.run_bind]
        generalize huser' : { user with disabled := true, mobile := UserService.releasedMobile user } = user'
        have hcolumns : UserDB.updateOf user' = { UserDB.updateOf user with disabled := true } := by
          rw [← huser']
          rfl
        have hend : ∀ (r : Result Unit) (w₃ : World),
            (Program.run exec (orFail r fun _ => return (.ok () : Result Unit)) w₃).1.isOk = r.isOk ∧
              (Program.run exec (orFail r fun _ => return (.ok () : Result Unit)) w₃).2 = w₃ := by
          intro r w₃
          cases r <;> exact ⟨rfl, rfl⟩
        rw [(hend _ _).1, (hend _ _).2]
        rcases run_update user' w₂ with ⟨hfail, hsame⟩ | ⟨hwrite, hok⟩
        · rw [hfail, hsame]
          exact .failed rfl
        · rw [hwrite, hcolumns]
          refine ⟨keepsDisabled_map_write hwf hmem rfl (fun _ => rfl) _, fun _ m c hask => (by cases hask), ?_⟩
          intro hsucc m c hask
          cases hask
          rw [hcolumns] at hok
          obtain ⟨hself, hnot⟩ := changes_self hwf hmem rfl (hok.mp hsucc)
          have hdisabled : user.disabled = false := by
            cases hd : user.disabled with
            | false => rfl
            | true => exact absurd ⟨rfl, rfl, hd, rfl⟩ hnot
          refine ⟨⟨user, hmem, rfl, hdisabled⟩, _, List.mem_map_of_mem hmem, UserUpdate.write_mobile _ _ _ _, ?_⟩
          rw [UserUpdate.write, if_pos ⟨hself, hnot⟩]

end Operations

/-- The requests that send or verify a code. -/
def Request.IsCode : Request → Prop
  | .sendVerifyCode _ _ | .register _ _ _ _ | .loginByCode _ _ | .resetPassword _ _ _
  | .deleteUser _ _ => True
  | _ => False

instance (request : Request) : Decidable request.IsCode := by
  cases request <;> simp only [Request.IsCode] <;> infer_instance

theorem serve_codeStep (env : Env) {call : Call} (w : World) (h : w.db.WellFormed)
    (hcode : call.request.IsCode) :
    CodeStep w.db.users (serve env call w).2.db.users (serve env call w).1.outcome.isOk
      (serve env call w).1.smsCall? := by
  have hanswered : ∀ {α : Type} {f : α → Answer} {p : Action (Result α)} {ask : Option SmsCall},
      handle env call.draws call.request = answered f p → (serve env call w).1.smsCall? = ask →
      CodeStep w.db.users (Program.run exec p (call.world w)).2.db.users
        (Program.run exec p (call.world w)).1.isOk ask →
      CodeStep w.db.users (serve env call w).2.db.users (serve env call w).1.outcome.isOk
        (serve env call w).1.smsCall? := by
    intro α f p ask hhandle hask hstep
    rw [hask, serve_answered hhandle w]
    simpa only [Outcome.isOk, Result.isOk_map] using hstep
  cases hreq : call.request with
  | sendVerifyCode mobile scene =>
      exact hanswered (by rw [hreq]; rfl) (by simp only [Event.smsCall?, Event.request, serve, hreq])
        (codeStep_sendVerifyCode env call.draws (call.world w) mobile scene call.draws.captcha)
  | register mobile verifyCode password displayName =>
      exact hanswered (by rw [hreq]; rfl) (by simp only [Event.smsCall?, Event.request, serve, hreq])
        (codeStep_register env call.draws (call.world w) mobile verifyCode password displayName)
  | loginByCode mobile verifyCode =>
      exact hanswered (by rw [hreq]; rfl) (by simp only [Event.smsCall?, Event.request, serve, hreq])
        (codeStep_loginByCode env call.draws (call.world w) mobile verifyCode)
  | resetPassword mobile verifyCode newPassword =>
      exact hanswered (by rw [hreq]; rfl) (by simp only [Event.smsCall?, Event.request, serve, hreq])
        (codeStep_resetPassword env call.draws (call.world w) h mobile verifyCode newPassword)
  | deleteUser userUuid verifyCode =>
      exact hanswered (by rw [hreq]; rfl) (by simp only [Event.smsCall?, Event.request, serve, hreq])
        (codeStep_deleteUser env (call.world w) h userUuid verifyCode)
  | _ =>
      rw [hreq] at hcode
      cases hcode

/-- The live code of a scene and a mobile. -/
def liveCode (w : World) (scene : SmsScene) (mobile : Bytes) : Option Bytes :=
  (seen w.redis w.clock (.code scene mobile)).map (·.value)

theorem returns_countWrongCode (config : SmsConfig) (scene : SmsScene) (mobile : Bytes) :
    Program.Returns (fun r => r.code ≠ .ok) (countWrongCode config scene mobile) := by
  refine (Program.returns_true _).bind fun count _ => ?_
  cases count with
  | fail _ _ => exact (by decide : ErrorCode.serviceUnavailable ≠ .ok)
  | ok n =>
      refine (Program.returns_true _).bind fun _ _ => ?_
      split
      · refine (Program.returns_true _).bind fun _ _ => (Program.returns_true _).bind fun _ _ => ?_
        exact (Program.returns_true _).bind fun _ _ => (by decide : ErrorCode.accountLocked ≠ .ok)
      · exact (by decide : ErrorCode.captchaWrong ≠ .ok)

/-- Only the live code authorises. -/
theorem liveCode_of_authorises (env : Env) {call : Call} (w : World) (hfaults : call.redisFaults = [])
    {scene : SmsScene} {mobile code : Bytes} (h : (serve env call w).1.Authorises scene mobile code) :
    liveCode (call.world w) scene mobile = some code := by
  obtain ⟨hcall, hsucc⟩ := h
  rcases serve_asks env w hfaults with ⟨hnone, -⟩ | ⟨r, hout, hasks⟩
  · rw [hnone] at hcall
    cases hcall
  · have hok : r.isOk = true := by
      rw [Event.Succeeded, hout] at hsucc
      exact hsucc
    rw [hcall] at hasks
    cases hasks with
    | nothing _ hne =>
        obtain ⟨hfail, -⟩ := hne.resolve_left (by simp)
        rw [hok] at hfail
        cases hfail
    | @asked _ w₁ hredis hclock hw₁ _ hprogram _ _ =>
        have hverify := hprogram hok
        simp only [SmsCall.program, Program.run_bind, Program.run_pure] at hverify
        rw [liveCode, ← hredis, ← hclock]
        rcases run_verifyCaptcha env.config.sms hw₁ scene mobile code with ⟨-, message, hrun⟩ |
          ⟨-, ⟨-, message, hrun⟩ | ⟨e, hcode, ⟨he, -⟩ | ⟨-, hrun⟩⟩⟩
        · rw [hrun] at hverify
          cases hverify
        · rw [hrun] at hverify
          cases hverify
        · rw [hcode, ← he]
          rfl
        · rw [hrun] at hverify
          exact absurd hverify ((returns_countWrongCode _ _ _).run exec w₁)

/-- Since the last code was sent for the pair, an operation has been authorised. -/
def CodeUsed (log : List Event) (scene : SmsScene) (mobile : Bytes) : Prop :=
  ∃ before e rest code, log = before ++ e :: rest ∧ e.Authorises scene mobile code ∧
    ∀ x ∈ rest, ∀ c, ¬x.Sends scene mobile c

/-- No login and no password reset presents a live code that has already been used. -/
def PresentsUnusedCode (log : List Event) (w : World) (call : Call) : Prop :=
  match call.request with
  | .loginByCode mobile code =>
      CodeUsed log .login mobile → liveCode (call.world w) .login mobile ≠ some code
  | .resetPassword mobile code _ =>
      CodeUsed log .resetPassword mobile → liveCode (call.world w) .resetPassword mobile ≠ some code
  | _ => True

/-- Between two operations that a code of the same scene and mobile has authorised, another code was
sent. -/
def SingleUse (log : List Event) : Prop :=
  ∀ before e between e' after scene mobile code code', log = before ++ e :: (between ++ e' :: after) →
    e.Authorises scene mobile code → e'.Authorises scene mobile code' →
      ∃ x ∈ between, ∃ c, x.Sends scene mobile c

/-- The invariant of a run. -/
structure SingleUseInv (log : List Event) (w : World) : Prop where
  wellFormed : w.db.WellFormed
  registered : ∀ e ∈ log, ∀ mobile code, e.Authorises .register mobile code →
    ∃ row ∈ w.db.users, row.mobile = mobile
  deleted : ∀ e ∈ log, ∀ mobile code, e.Authorises .deleteUser mobile code →
    ∃ row ∈ w.db.users, row.mobile = mobile ∧ row.disabled = true
  single : SingleUse log

/-- **Step.** A call that presents no used code keeps the invariant. -/
theorem SingleUseInv.serve {env : Env} {log : List Event} {w : World} {call : Call}
    (h : SingleUseInv log w) (hcode : call.request.IsCode) (hfaults : call.redisFaults = [])
    (hunused : PresentsUnusedCode log w call) :
    SingleUseInv (log ++ [(serve env call w).1]) (serve env call w).2 := by
  have hstep := serve_codeStep env w h.wellFormed hcode
  have hwf : (AccountService.serve env call w).2.db.WellFormed :=
    run_wellFormed (w := call.world w) _ h.wellFormed
  refine ⟨hwf, ?_, ?_, ?_⟩
  · intro e he mobile code hauth
    rcases List.mem_append.mp he with he | he
    · obtain ⟨row, hrow, rfl⟩ := h.registered e he mobile code hauth
      obtain ⟨row', hrow', hmobile, -⟩ := hstep.keeps row hrow
      exact ⟨row', hrow', hmobile⟩
    · obtain rfl := List.mem_singleton.mp he
      exact (hstep.registers hauth.2 mobile code hauth.1).2
  · intro e he mobile code hauth
    rcases List.mem_append.mp he with he | he
    · obtain ⟨row, hrow, rfl, hdisabled⟩ := h.deleted e he mobile code hauth
      obtain ⟨row', hrow', hmobile, hkeeps⟩ := hstep.keeps row hrow
      exact ⟨row', hrow', hmobile, hkeeps hdisabled⟩
    · obtain rfl := List.mem_singleton.mp he
      exact (hstep.deletes hauth.2 mobile code hauth.1).2
  · intro before e between e' after scene mobile code code' hlog hauth hauth'
    have hlog' : log ++ [(AccountService.serve env call w).1] = (before ++ e :: between) ++ e' :: after := by
      rw [hlog, List.append_assoc, List.cons_append]
    rcases snoc_eq_append_cons hlog' with ⟨hbefore, rfl⟩ | ⟨rest, -, hrest⟩
    · -- the second operation is the new one: if nothing was sent in between, the code has been used
      by_contra hnone
      have hused : CodeUsed log scene mobile :=
        ⟨before, e, between, code, hbefore, hauth, fun x hx c hsend => hnone ⟨x, hx, c, hsend⟩⟩
      have hmem : e ∈ log := by
        rw [hbefore]
        simp
      have hlive := liveCode_of_authorises env w hfaults hauth'
      have hcall : (AccountService.serve env call w).1.smsCall? = some (.verify scene mobile code') := hauth'.1
      cases hreq : call.request with
      | sendVerifyCode m s =>
          simp only [Event.smsCall?, Event.request, AccountService.serve, hreq] at hcall
          cases hcall
      | register m c p d =>
          simp only [Event.smsCall?, Event.request, AccountService.serve, hreq] at hcall
          cases hcall
          obtain ⟨row, hrow, hmobile⟩ := h.registered e hmem mobile code hauth
          exact (hstep.registers hauth'.2 mobile code' hauth'.1).1 row hrow hmobile
      | loginByCode m c =>
          simp only [Event.smsCall?, Event.request, AccountService.serve, hreq] at hcall
          cases hcall
          simp only [PresentsUnusedCode, hreq] at hunused
          exact hunused hused hlive
      | resetPassword m c p =>
          simp only [Event.smsCall?, Event.request, AccountService.serve, hreq] at hcall
          cases hcall
          simp only [PresentsUnusedCode, hreq] at hunused
          exact hunused hused hlive
      | deleteUser uuid c =>
          simp only [Event.smsCall?, Event.request, AccountService.serve, hreq] at hcall
          obtain ⟨user, -, hverify⟩ := Option.map_eq_some_iff.mp hcall
          cases hverify
          obtain ⟨row, hrow, hmobile, hdisabled⟩ := h.deleted e hmem _ code hauth
          obtain ⟨row', hrow', hmobile', henabled⟩ := (hstep.deletes hauth'.2 _ code' hauth'.1).1
          rw [h.wellFormed.mobile.eq_of_key hrow hrow' (hmobile.trans hmobile'.symm), henabled] at hdisabled
          cases hdisabled
      | _ =>
          rw [hreq] at hcode
          cases hcode
    · refine h.single before e between e' rest scene mobile code code' ?_ hauth hauth'
      rw [hrest, List.append_assoc, List.cons_append]

/-- **Single use.** In every run of requests with codes in which no login and no password reset presents a
live code that has already been used, a code authorises at most one operation. -/
theorem code_single_use (env : Env) (w : World) (hw : w.db.WellFormed) (calls : List Call)
    (hcalls : ∀ before call after, calls = before ++ call :: after →
      call.request.IsCode ∧ call.redisFaults = [] ∧
        PresentsUnusedCode (history (serve env) before w).1 (history (serve env) before w).2 call) :
    SingleUse (history (serve env) calls w).1 := by
  have hinit : SingleUseInv [] w := by
    refine ⟨hw, fun e he => absurd he List.not_mem_nil, fun e he => absurd he List.not_mem_nil, ?_⟩
    intro before e between e' after scene mobile code code' hlog
    exact absurd hlog (by simp)
  exact (history_invariant (P := fun log w call =>
      call.request.IsCode ∧ call.redisFaults = [] ∧ PresentsUnusedCode log w call) (serve env) hinit
    (fun log w call h ⟨hcode, hfaults, hunused⟩ => h.serve hcode hfaults hunused) calls hcalls).single

/-- A user registers and asks for a code to reset the password. -/
def askingCalls : List Call :=
  [.sample 0 (.sendVerifyCode (ascii "13800138000") .register),
    .sample 1 (.register (ascii "13800138000") (ascii "123456") (ascii "Password123") (ascii "A")),
    .sample 60 (.sendVerifyCode (ascii "13800138000") .resetPassword)]

def resetCall (code password : String) : Call :=
  .sample 1 (.resetPassword (ascii "13800138000") (ascii code) (ascii password))

/-- The code resets the password twice. -/
theorem code_used_twice :
    (∀ call ∈ askingCalls ++ [resetCall "123456" "Password456"] ++ [resetCall "123456" "Password789"],
      call.request.IsCode ∧ call.redisFaults = [] ∧ call.sqlFaults = []) ∧
      ¬SingleUse (history (serve defaultEnv)
        (askingCalls ++ [resetCall "123456" "Password456"] ++ [resetCall "123456" "Password789"])
        (emptyWorld 0)).1 := by
  refine ⟨by decide, fun h => ?_⟩
  simp only [history_snoc] at h
  obtain ⟨x, hx, -⟩ := h _ _ [] _ [] .resetPassword (ascii "13800138000") (ascii "123456") (ascii "123456")
    (List.append_assoc _ _ _) ⟨rfl, by decide +kernel⟩ ⟨rfl, by decide +kernel⟩
  exact absurd hx List.not_mem_nil

/-- One reset with the code and an attempt with another one. -/
theorem code_single_use_sample :
    SingleUse (history (serve defaultEnv)
      (askingCalls ++ [resetCall "123456" "Password456"] ++ [resetCall "000000" "Password789"])
      (emptyWorld 0)).1 := by
  refine code_single_use defaultEnv (emptyWorld 0) (Database.wellFormed_empty id) _ ?_
  intro before call after hsplit
  rcases snoc_eq_append_cons hsplit with ⟨rfl, rfl⟩ | ⟨rest, -, hsplit⟩
  · exact ⟨by decide, rfl, fun _ => by decide +kernel⟩
  rcases snoc_eq_append_cons hsplit with ⟨rfl, rfl⟩ | ⟨rest, -, hsplit⟩
  · refine ⟨by decide, rfl, fun hused => ?_⟩
    obtain ⟨before, e, rest, code, hlog, ⟨hcall, -⟩, -⟩ := hused
    have hfirst : (history (serve defaultEnv) askingCalls (emptyWorld 0)).1.all
        (fun e => e.smsCall?.all fun call => decide (call.scene ≠ .resetPassword ∨
          call = .send .resetPassword (ascii "13800138000") (ascii "123456"))) = true := by
      decide +kernel
    rw [hlog] at hfirst
    simp [hcall, SmsCall.scene] at hfirst
  · have hmem : call ∈ askingCalls := by
      rw [hsplit]
      simp
    simp only [askingCalls, List.mem_cons, List.not_mem_nil, or_false] at hmem
    rcases hmem with rfl | rfl | rfl <;> exact ⟨by decide, rfl, trivial⟩

end AccountService
