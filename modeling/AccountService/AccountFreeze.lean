import AccountService.ModelTurns
import AccountService.RequestEffect

/-! A disabled account over whole runs: from the moment it is disabled until it is enabled again it has no
session, nobody signs in to it, and only a reset of the password writes to its row. -/

namespace AccountService

open AuthService Interaction Table

section Acts

variable (env : Env) {t : Nat} (draws : Draws) {db : Database}

theorem leaves_authenticate (header : Option Bytes) :
    Leaves t db (UserHandler.authenticate env header) fun r db' =>
      r = UserHandler.authenticateAt env t header ∧ db' = db := by
  unfold UserHandler.authenticate UserHandler.authenticateAt
  cases header with
  | none => exact leaves_pure ⟨rfl, rfl⟩
  | some text =>
      simp only
      split
      · exact leaves_pure ⟨rfl, rfl⟩
      · split
        · exact leaves_pure ⟨rfl, rfl⟩
        · refine leaves_now.bind fun a db' h => ?_
          obtain ⟨rfl, rfl⟩ := h
          cases verifyAccessToken env.crypto env.config.security a (text.drop UserHandler.bearer.length) with
          | fail code message => exact leaves_pure ⟨rfl, rfl⟩
          | ok payload => exact leaves_pure ⟨rfl, rfl⟩

/-- What an operation behind a request returns and leaves. -/
def Act.Leads (env : Env) (t : Nat) (draws : Draws) (db : Database) (request : Option Request) (ok : Bool)
    (db' : Database) : Prop :=
  match request with
  | none => db' = db
  | some request => ∃ outcome, outcome.isOk = ok ∧ Effect env t draws db request outcome db'

/-- A remote call that goes on with a request of the services. -/
theorem leads_of_effect {α : Type} {p : Action (Result α)} {request : Request} {f : α → Answer} {g : α → RpcAnswer}
    (h : Leaves t db p (EffectOf env t draws db request f)) :
    Leaves t db (do return (← p).map g) fun r db' =>
      Act.Leads env t draws db (some request) (Result.isOk r) db' := by
  refine h.bind fun r db' heffect => leaves_pure ⟨_, ?_, heffect⟩
  simp [Outcome.isOk]

theorem leaves_listUsers (mobileFilter : Option Bytes) (disabledFilter : Option Bool) (page pageSize : Int32) :
    Leaves t db (UserService.listUsers mobileFilter disabledFilter page pageSize) fun _ db' => db' = db := by
  refine (leaves_sqlCall (.countUsers _)).bind fun r db' h => ?_
  obtain ⟨-, rfl⟩ := h
  refine leaves_orFail (fun _ _ _ => rfl) fun total _ => ?_
  refine (leaves_sqlCall (.selectUsers _ _ _)).bind fun r db' h => ?_
  obtain ⟨-, rfl⟩ := h
  exact leaves_orFail (fun _ _ _ => rfl) fun users _ => leaves_pure rfl

/-- What comes after `Authenticate`. -/
theorem leads_behind {header : Option Bytes} {rpc : Rpc} {next : AuthContext → Action (Result RpcAnswer)}
    (h : ∀ auth, Leaves t db (next auth) fun r db' =>
      Act.Leads env t draws db (rpc.request? auth) (Result.isOk r) db') :
    Leaves t db (UserHandler.authenticate env header >>= fun r => orFail r next) fun r db' =>
      Act.Leads env t draws db ((Act.remote header rpc).request? env t) (Result.isOk r) db' := by
  refine (leaves_authenticate env header).bind fun r db' hr => ?_
  obtain ⟨rfl, rfl⟩ := hr
  cases hauth : UserHandler.authenticateAt env t header with
  | fail code message =>
      simp only [Act.request?, hauth]
      exact leaves_pure rfl
  | ok auth =>
      simp only [Act.request?, hauth]
      exact h auth

/-- A remote call of an authenticated user does what its request does. -/
theorem leads_rpc (hdb : db.WellFormed) (header : Option Bytes) (rpc : Rpc) :
    Leaves t db (UserHandler.serve env draws header rpc) fun r db' =>
      Act.Leads env t draws db ((Act.remote header rpc).request? env t) (Result.isOk r) db' := by
  cases rpc with
  | getCurrentUser =>
      exact leads_behind env draws fun auth => leads_of_effect env draws (effect_getUser env draws auth.userUuid)
  | updateUser displayName =>
      exact leads_behind env draws fun auth =>
        leads_of_effect env draws (effect_updateUser env draws auth.userUuid displayName)
  | changePassword oldPassword newPassword =>
      refine leads_behind env draws fun auth => ?_
      simp only [Rpc.request?]
      split
      · rename_i hold
        rw [if_neg fun h => h.1 hold]
        exact leaves_pure rfl
      · rename_i hold
        split
        · rename_i hnew
          rw [if_neg fun h => h.2.1 hnew]
          exact leaves_pure rfl
        · rename_i hnew
          cases hvalid : isValidPasswordPlain newPassword with
          | error message =>
              rw [if_neg fun h => by cases h.2.2]
              exact leaves_pure rfl
          | ok _ =>
              rw [if_pos ⟨hold, hnew, rfl⟩]
              exact leads_of_effect env draws
                (effect_changePassword env draws auth.userUuid oldPassword newPassword)
  | deleteUser verifyCode =>
      refine leads_behind env draws fun auth => ?_
      simp only [Rpc.request?]
      cases hvalid : isValidVerifyCodePlain verifyCode with
      | error message =>
          rw [if_neg fun h => by cases h]
          exact leaves_pure rfl
      | ok _ =>
          rw [if_pos rfl]
          exact leads_of_effect env draws (effect_deleteUser env draws hdb auth.userUuid verifyCode)
  | getUser id =>
      refine leads_behind env draws fun auth => ?_
      simp only [Rpc.request?, UserHandler.requireAdmin]
      split
      · rename_i hrole
        rw [if_neg fun h => h.1.elim hrole.1 hrole.2]
        exact leaves_pure rfl
      · rename_i hrole
        split
        · rename_i hempty
          rw [if_neg fun h => h.2 hempty]
          exact leaves_pure rfl
        · rename_i hsome
          have hadmin : auth.role = .admin ∨ auth.role = .superAdmin := by
            by_contra hnone
            exact hrole ⟨fun h => hnone (Or.inl h), fun h => hnone (Or.inr h)⟩
          rw [if_pos ⟨hadmin, hsome⟩]
          exact leads_of_effect env draws (effect_getUser env draws id)
  | listUsers page mobileFilter disabledFilter =>
      refine leads_behind env draws fun auth => ?_
      simp only [Rpc.request?, UserHandler.requireAdmin]
      split
      · exact leaves_pure rfl
      · exact (leaves_listUsers _ _ _ _).bind fun r db' h => leaves_pure h

/-- **Operations.** An operation does what its request does; one without a request leaves the tables alone. -/
theorem leads_act (hdb : db.WellFormed) (act : Act) :
    Leaves t db (act.handle env draws) fun o db' =>
      Act.Leads env t draws db (act.request? env t) o.isOk db' := by
  cases act with
  | service request =>
      refine (handle_effect env draws hdb request).bind fun o db' h => leaves_pure ⟨o, ?_, h⟩
      exact (Outcome.isOk_map _ o).symm
  | validateAccessToken token =>
      refine Leaves.bind (R := fun _ db' => db' = db) ?_ fun r db' h => leaves_pure h
      unfold validateAccessToken
      split
      · exact leaves_pure rfl
      · refine leaves_now.bind fun a db' h => ?_
        obtain ⟨-, rfl⟩ := h
        exact leaves_orFail (fun _ _ _ => rfl) fun payload _ => leaves_pure rfl
  | listUsers mobileFilter disabledFilter page pageSize =>
      exact (leaves_listUsers mobileFilter disabledFilter page pageSize).bind fun r db' h => leaves_pure h
  | remote header rpc =>
      refine (leads_rpc env draws hdb header rpc).bind fun r db' h => leaves_pure ?_
      rwa [show (Outcome.returned (r.map ActAnswer.remote)).isOk = r.isOk from Result.isOk_map _ r]

end Acts

section Writes

variable {db : Database} {user changed : UserEntity} {second : Nat}

/-- The rows after a write: the row of the user, and the other rows as they were. -/
theorem mem_put (hdb : db.WellFormed) (huser : user ∈ db.users) (hsame : changed.uuid = user.uuid) {row : UserEntity} :
    row ∈ (db.put second changed).users ↔
      (row ∈ db.users ∧ row.id ≠ user.id) ∨ row = (UserDB.updateOf changed).write db second user := by
  have hother : ∀ x ∈ db.users, x.id ≠ user.id → (UserDB.updateOf changed).write db second x = x := by
    intro x hx hne
    rw [UserUpdate.write, if_neg]
    rintro ⟨hkey, -⟩
    have hkey : db.uuidKey x.uuid = db.uuidKey user.uuid := by
      simpa [Database.sameUuid, UserDB.updateOf, hsame] using hkey
    exact hne (congrArg UserEntity.id (hdb.uuid.eq_of_key hx huser hkey))
  constructor
  · intro hrow
    obtain ⟨x, hx, rfl⟩ := List.mem_map.mp hrow
    by_cases hid : x.id = user.id
    · rw [hdb.id.eq_of_key hx huser hid]
      exact Or.inr rfl
    · rw [hother x hx hid]
      exact Or.inl ⟨hx, hid⟩
  · rintro (⟨hrow, hne⟩ | rfl)
    · exact List.mem_map.mpr ⟨row, hrow, hother row hrow hne⟩
    · exact List.mem_map_of_mem huser

/-- What the write makes of the row of the user. -/
theorem write_self (hsame : changed.uuid = user.uuid) :
    ((UserDB.updateOf changed).Holds user ∧ (UserDB.updateOf changed).write db second user = user) ∨
      (¬(UserDB.updateOf changed).Holds user ∧ (UserDB.updateOf changed).write db second user = { user with
        displayName := changed.displayName
        passwordHash := changed.passwordHash
        disabled := changed.disabled
        role := changed.role
        updatedAt := second }) := by
  by_cases hholds : (UserDB.updateOf changed).Holds user
  · exact Or.inl ⟨hholds, by rw [UserUpdate.write, if_neg fun h => h.2 hholds]⟩
  · refine Or.inr ⟨hholds, ?_⟩
    rw [UserUpdate.write, if_pos ⟨by simp [Database.sameUuid, UserDB.updateOf, hsame], hholds⟩]
    rfl

theorem write_self_disabled (hsame : changed.uuid = user.uuid) :
    ((UserDB.updateOf changed).write db second user).disabled = changed.disabled := by
  rcases @write_self db user changed second hsame with ⟨⟨-, -, hdisabled, -⟩, h⟩ | ⟨-, h⟩
  · rw [h, hdisabled]
    rfl
  · rw [h]

end Writes

/-- The constraints hold, and a disabled user has no session. -/
structure Database.Settled (db : Database) : Prop where
  wellFormed : db.WellFormed
  quiet : ∀ user ∈ db.users, user.disabled = true → ∀ r ∈ db.sessions, r.userId ≠ user.id

section Settled

variable {db db' : Database}

theorem mem_store {second : Nat} {userId : Int} {tokenHash : Bytes} {expiresAt : Nat} {r : TokenSession}
    (hr : r ∈ (db.store second userId tokenHash expiresAt).sessions) : r ∈ db.sessions ∨ r.userId = userId := by
  rcases SqlStmt.apply_sessions_origin hr with h | h
  · exact Or.inl h
  · cases h
    exact Or.inr rfl

theorem users_store (second : Nat) (userId : Int) (tokenHash : Bytes) (expiresAt : Nat) :
    (db.store second userId tokenHash expiresAt).users = db.users :=
  (@SqlStmt.apply_users (.insertSession userId tokenHash expiresAt) trivial second db).1

/-- A sign-in of an enabled user keeps the tables settled. -/
theorem quiet_issue {env : Env} {t : Nat} {draws : Draws} {user : UserEntity}
    (hquiet : ∀ x ∈ db.users, x.disabled = true → (∀ r ∈ db.sessions, r.userId ≠ x.id) ∧ user.id ≠ x.id) :
    ∀ x ∈ (db.issue env t draws user).users, x.disabled = true →
      ∀ r ∈ (db.issue env t draws user).sessions, r.userId ≠ x.id := by
  intro x hx hdisabled r hr
  rw [Database.issue, users_store] at hx
  obtain ⟨hold, hne⟩ := hquiet x hx hdisabled
  rcases mem_store hr with hr | hr
  · exact hold r hr
  · rw [hr]
    exact hne

/-- A write keeps the tables quiet if it leaves the user enabled, or disabled and without sessions. -/
theorem quiet_put (hdb : db.Settled) {user changed : UserEntity} {second : Nat} (huser : user ∈ db.users)
    (hsame : changed.uuid = user.uuid) {sessions : List TokenSession} (hsub : sessions ⊆ db.sessions)
    (hnew : changed.disabled = true → ∀ r ∈ sessions, r.userId ≠ user.id) :
    ∀ x ∈ (db.put second changed).users, x.disabled = true → ∀ r ∈ sessions, r.userId ≠ x.id := by
  intro x hx hdisabled r hr
  rcases (mem_put hdb.wellFormed huser hsame).mp hx with ⟨hx, -⟩ | rfl
  · exact hdb.quiet x hx hdisabled r (hsub hr)
  · rw [write_self_disabled hsame] at hdisabled
    rw [UserUpdate.write_id]
    exact hnew hdisabled r hr

theorem not_mem_dropUser {userId : Int} {r : TokenSession} (hr : r ∈ (db.dropUser userId).sessions) :
    r.userId ≠ userId := by
  simpa using (List.mem_filter.mp hr).2

/-- **One effect.** A disabled user still has no session. -/
theorem Effect.quiet {env : Env} {t : Nat} {draws : Draws} {request : Request} {outcome : Outcome Answer}
    (h : Effect env t draws db request outcome db') (hdb : db.Settled) :
    ∀ user ∈ db'.users, user.disabled = true → ∀ r ∈ db'.sessions, r.userId ≠ user.id := by
  have hwf := hdb.wellFormed
  have henabled : ∀ user ∈ db.users, user.disabled = false → ∀ x ∈ db.users, x.disabled = true → user.id ≠ x.id := by
    intro user huser hoff x hx hon hid
    rw [hwf.id.eq_of_key huser hx hid, hon] at hoff
    cases hoff
  cases h with
  | failed _ | sent _ | got | read | unchanged _ _ _ => exact hdb.quiet
  | @registered mobile _ _ _ user huser _ _ _ =>
      refine quiet_issue fun x hx hdisabled => ?_
      rcases List.mem_append.mp hx with hx | hx
      · refine ⟨hdb.quiet x hx hdisabled, ?_⟩
        have hbelow := (hwf.idBelow x hx).2
        subst huser
        exact hbelow.ne'
      · obtain rfl := List.mem_singleton.mp hx
        subst huser
        cases hdisabled
  | @loggedIn _ _ user _ huser _ hoff =>
      exact quiet_issue fun x hx hdisabled => ⟨hdb.quiet x hx hdisabled, henabled user huser hoff x hx hdisabled⟩
  | @refreshed _ _ user _ _ huser hoff _ =>
      refine quiet_issue fun x hx hdisabled => ⟨fun r hr => ?_, henabled user huser hoff x hx hdisabled⟩
      exact hdb.quiet x hx hdisabled r (List.mem_of_mem_filter hr)
  | reset huser _ =>
      exact quiet_put hdb huser (by rfl) (fun _ hr => List.mem_of_mem_filter hr) fun _ r hr => not_mem_dropUser hr
  | loggedOut =>
      split
      · exact hdb.quiet
      · exact fun x hx hdisabled r hr => hdb.quiet x hx hdisabled r (List.mem_of_mem_filter hr)
  | loggedOutAll _ _ | cleaned _ =>
      exact fun x hx hdisabled r hr => hdb.quiet x hx hdisabled r (List.mem_of_mem_filter hr)
  | renamed huser _ hoff | changed huser _ hoff =>
      exact quiet_put hdb huser (by rfl) (fun _ hr => hr) fun hon => absurd (hoff.symm.trans hon) (by decide)
  | @deleted _ _ user _ huser _ _ =>
      have hdropped : (db.dropUser user.id).Settled :=
        ⟨hwf.apply 0 (.deleteSessionsByUser user.id), fun x hx hdisabled r hr =>
          hdb.quiet x hx hdisabled r (List.mem_of_mem_filter hr)⟩
      exact quiet_put hdropped huser (by rfl) (fun _ hr => hr) fun _ r hr => not_mem_dropUser hr
  | @switched _ disabled user huser _ _ =>
      cases disabled with
      | true =>
          rw [if_pos rfl]
          exact quiet_put hdb huser (by rfl) (fun _ hr => List.mem_of_mem_filter hr) fun _ r hr => not_mem_dropUser hr
      | false =>
          rw [if_neg Bool.false_ne_true]
          exact quiet_put hdb huser (by rfl) (fun _ hr => hr) fun hon => by cases hon

end Settled

/-- What a reset of the password leaves alone. -/
def UserEntity.kept (user : UserEntity) : UserEntity := { user with passwordHash := [], updatedAt := 0 }

section Frozen

variable {env : Env} {t : Nat} {draws : Draws} {db db' : Database} {request : Request} {outcome : Outcome Answer}

/-- **One effect.** A disabled user is enabled, or the row stays; only a reset writes to it. -/
theorem Effect.frozen (h : Effect env t draws db request outcome db') (hdb : db.WellFormed) {x : UserEntity}
    (hx : x ∈ db.users) (hon : x.disabled = true) :
    (∃ text, request = .setUserDisabled text false ∧ db.sameUuid x.uuid text = true ∧ outcome.isOk = true) ∨
      ∃ x' ∈ db'.users, x'.kept = x.kept ∧
        (x' = x ∨ (∃ code password, request = .resetPassword x.mobile code password) ∧ outcome.isOk = true) := by
  have hstays : x ∈ db'.users → ∃ x' ∈ db'.users, x'.kept = x.kept ∧
      (x' = x ∨ (∃ code password, request = .resetPassword x.mobile code password) ∧ outcome.isOk = true) :=
    fun hmem => ⟨x, hmem, rfl, Or.inl rfl⟩
  have hother : ∀ user : UserEntity, user.disabled = false → user ∈ db.users → x.id ≠ user.id := by
    intro user hoff huser hid
    rw [← hdb.id.eq_of_key hx huser hid, hon] at hoff
    cases hoff
  cases h with
  | failed _ | sent _ | got | read | unchanged _ _ _ | loggedOutAll _ _ | cleaned _ => exact Or.inr (hstays hx)
  | registered _ _ _ _ =>
      refine Or.inr (hstays ?_)
      rw [Database.issue, users_store]
      exact List.mem_append_left _ hx
  | loggedIn _ _ _ _ | refreshed _ _ _ _ _ =>
      refine Or.inr (hstays ?_)
      rw [Database.issue, users_store]
      exact hx
  | loggedOut =>
      refine Or.inr (hstays ?_)
      split <;> exact hx
  | renamed huser _ hoff | changed huser _ hoff =>
      exact Or.inr (hstays ((mem_put hdb huser (by rfl)).mpr (Or.inl ⟨hx, hother _ hoff huser⟩)))
  | @reset _ code password user huser hmobile =>
      refine Or.inr ?_
      by_cases hid : x.id = user.id
      · obtain rfl := hdb.id.eq_of_key hx huser hid
        refine ⟨_, (mem_put hdb huser (by rfl)).mpr (Or.inr rfl), ?_, Or.inr ⟨⟨code, password, by rw [hmobile]⟩, rfl⟩⟩
        rcases @write_self db x { x with passwordHash := passwordHash env.crypto draws.salt password } (toTimeT t) rfl
          with ⟨-, h⟩ | ⟨-, h⟩
        · rw [h]
        · rw [h]
          rfl
      · exact hstays ((mem_put hdb huser (by rfl)).mpr (Or.inl ⟨hx, hid⟩))
  | @deleted _ _ user _ huser _ _ =>
      have hdropped : (db.dropUser user.id).WellFormed := hdb.apply 0 (.deleteSessionsByUser user.id)
      refine Or.inr (hstays ((mem_put hdropped huser (by rfl)).mpr ?_))
      by_cases hid : x.id = user.id
      · obtain rfl := hdb.id.eq_of_key hx huser hid
        -- the row already holds what is written
        rcases @write_self (db.dropUser x.id) x
          { x with disabled := true, mobile := UserService.releasedMobile x } (toTimeT t) rfl with ⟨-, h⟩ | ⟨hnot, -⟩
        · exact Or.inr h.symm
        · exact absurd ⟨rfl, rfl, hon, rfl⟩ hnot
      · exact Or.inl ⟨hx, hid⟩
  | @switched text disabled user huser huuid hne =>
      by_cases hid : x.id = user.id
      · obtain rfl := hdb.id.eq_of_key hx huser hid
        cases disabled with
        | true => exact absurd hon hne
        | false => exact Or.inl ⟨text, rfl, huuid, rfl⟩
      · refine Or.inr (hstays ?_)
        split <;> exact (mem_put hdb huser (by rfl)).mpr (Or.inl ⟨hx, hid⟩)

/-- A user that has just been disabled or deleted is disabled. -/
theorem Effect.disables (h : Effect env t draws db request outcome db') (hdb : db.WellFormed) {text : Bytes}
    (hrequest : request = .setUserDisabled text true ∨ ∃ code, request = .deleteUser text code)
    (hok : outcome.isOk = true) {u : UserEntity} (hu : u ∈ db'.users) (huuid : db.sameUuid u.uuid text = true) :
    u.disabled = true := by
  have hsame : ∀ {user : UserEntity}, user ∈ db.users → db.sameUuid user.uuid text = true → u ∈ db.users →
      u = user := by
    intro user huser htext hu
    have hkeys : db.uuidKey u.uuid = db.uuidKey user.uuid := by
      simp only [Database.sameUuid, decide_eq_true_eq] at huuid htext
      rw [huuid, htext]
    exact hdb.uuid.eq_of_key hu huser hkeys
  rcases hrequest with rfl | ⟨code, rfl⟩
  · cases h with
    | failed hfail =>
        rw [hfail] at hok
        cases hok
    | loggedIn hlogin _ _ _ => rcases hlogin with ⟨_, h⟩ | ⟨_, h⟩ <;> cases h
    | unchanged huser htext hdisabled => rwa [hsame huser htext hu]
    | switched huser htext _ =>
        rw [if_pos rfl] at hu
        rcases (mem_put hdb huser (by rfl)).mp hu with ⟨hold, hne⟩ | rfl
        · exact absurd (congrArg UserEntity.id (hsame huser htext hold)) hne
        · exact write_self_disabled rfl
  · cases h with
    | failed hfail =>
        rw [hfail] at hok
        cases hok
    | loggedIn hlogin _ _ _ => rcases hlogin with ⟨_, h⟩ | ⟨_, h⟩ <;> cases h
    | @deleted _ _ user _ huser htext _ =>
        have hdropped : (db.dropUser user.id).WellFormed := hdb.apply 0 (.deleteSessionsByUser user.id)
        rcases (mem_put hdropped huser (by rfl)).mp hu with ⟨hold, hne⟩ | rfl
        · exact absurd (congrArg UserEntity.id (hsame huser htext hold)) hne
        · exact write_self_disabled rfl

/-- Nobody signs in to a disabled account. -/
theorem Effect.no_login (h : Effect env t draws db request outcome db') (hdb : db.WellFormed) {x : UserEntity}
    (hx : x ∈ db.users) (hon : x.disabled = true)
    (hrequest : (∃ password, request = .loginByPassword x.mobile password) ∨
      ∃ code, request = .loginByCode x.mobile code) : outcome.isOk = false := by
  have hnone : ∀ {mobile : Bytes} {user : UserEntity}, mobile = x.mobile → user ∈ db.users → user.mobile = mobile →
      user.disabled = false → False := by
    intro mobile user hmobile huser hsame hoff
    rw [hdb.mobile.eq_of_key huser hx (hsame.trans hmobile), hon] at hoff
    cases hoff
  cases h with
  | failed hfail => exact hfail
  | loggedIn hlogin huser hmobile hoff =>
      refine (hnone ?_ huser hmobile hoff).elim
      rcases hrequest with ⟨_, rfl⟩ | ⟨_, rfl⟩ <;> rcases hlogin with ⟨_, h⟩ | ⟨_, h⟩ <;> cases h <;> rfl
  | _ => rcases hrequest with ⟨_, h⟩ | ⟨_, h⟩ <;> cases h

end Frozen

namespace Deed

variable (env : Env) (d : Deed) (u : UserEntity)

/-- `SetUserDisabled(u, true)` or `DeleteUser(u)` returned `Ok`. -/
def Disables : Prop :=
  d.Succeeded ∧ ∃ text, d.world.db.sameUuid u.uuid text = true ∧
    (d.request? env = some (.setUserDisabled text true) ∨ ∃ code, d.request? env = some (.deleteUser text code))

/-- `SetUserDisabled(u, false)` returned `Ok`. -/
def Enables : Prop :=
  d.Succeeded ∧ ∃ text, d.world.db.sameUuid u.uuid text = true ∧
    d.request? env = some (.setUserDisabled text false)

/-- `ResetPassword` for the mobile of the user returned `Ok`. -/
def Resets : Prop := d.Succeeded ∧ ∃ code password, d.request? env = some (.resetPassword u.mobile code password)

/-- `LoginByPassword` or `LoginByCode` for the mobile of the user. -/
def IsLogin : Prop :=
  (∃ password, d.request? env = some (.loginByPassword u.mobile password)) ∨
    ∃ code, d.request? env = some (.loginByCode u.mobile code)

end Deed

section Runs

variable (env : Env) {w : World}

/-- An operation of a run does what its request does. -/
theorem serveTurn_leads (hdb : w.db.WellFormed) (turn : Turn) :
    (serveTurn env turn w).2.db.WellFormed ∧
      Act.Leads env (turn.world w).clock turn.draws w.db ((serveTurn env turn w).1.request? env)
        (serveTurn env turn w).1.outcome.isOk (serveTurn env turn w).2.db := by
  obtain ⟨db', hcalm, hleads⟩ := leads_act env turn.draws hdb turn.act (turn.world w) ⟨rfl, rfl, rfl⟩
  refine ⟨run_wellFormed _ hdb, ?_⟩
  rw [← hcalm.db] at hleads
  exact hleads

theorem settled_serveTurn (hdb : w.db.Settled) (turn : Turn) : (serveTurn env turn w).2.db.Settled := by
  obtain ⟨hwf, hleads⟩ := serveTurn_leads env hdb.wellFormed turn
  refine ⟨hwf, ?_⟩
  cases hrequest : (serveTurn env turn w).1.request? env with
  | none =>
      rw [hrequest] at hleads
      rw [show (serveTurn env turn w).2.db = w.db from hleads]
      exact hdb.quiet
  | some request =>
      rw [hrequest] at hleads
      obtain ⟨outcome, -, heffect⟩ := hleads
      exact heffect.quiet hdb

/-- Every run from empty tables leaves them settled. -/
theorem settled_history {uuidKey : Bytes → Bytes} (hw : w.db = Database.empty uuidKey) (turns : List Turn) :
    (history (serveTurn env) turns w).2.db.Settled := by
  induction turns using List.reverseRecOn with
  | nil =>
      rw [history_nil, hw]
      exact ⟨Database.wellFormed_empty uuidKey, fun _ hu => absurd hu List.not_mem_nil⟩
  | append_singleton earlier turn ih =>
      rw [history_snoc]
      exact settled_serveTurn env ih turn

/-- The account of a user that was disabled: settled tables, the row with what was written to it, and no login. -/
structure Frozen (u : UserEntity) (log : List Deed) (db : Database) : Prop where
  settled : db.Settled
  row : ∃ row ∈ db.users, row.kept = u.kept ∧ (row = u ∨ ∃ d ∈ log, d.Resets env u)
  logins : ∀ d ∈ log, d.IsLogin env u → ¬d.Succeeded

variable {env} {u : UserEntity} {log : List Deed}

theorem UserEntity.kept_fields {row : UserEntity} (h : row.kept = u.kept) :
    row.id = u.id ∧ row.uuid = u.uuid ∧ row.mobile = u.mobile ∧ row.disabled = u.disabled := by
  have hfields := h
  simp only [UserEntity.kept, UserEntity.mk.injEq] at hfields
  exact ⟨hfields.1, hfields.2.1, hfields.2.2.1, hfields.2.2.2.2.2.2.1⟩

/-- **One operation.** Unless it enables the user, the account stays frozen. -/
theorem Frozen.serve (h : Frozen env u log w.db) (hu : u.disabled = true) (turn : Turn)
    (hnot : ¬(serveTurn env turn w).1.Enables env u) :
    Frozen env u (log ++ [(serveTurn env turn w).1]) (serveTurn env turn w).2.db := by
  obtain ⟨row, hrow, hkept, hwritten⟩ := h.row
  obtain ⟨-, huuid, hmobile, hdisabled⟩ := UserEntity.kept_fields hkept
  have hwf := h.settled.wellFormed
  have holder : ∀ row' ∈ (serveTurn env turn w).2.db.users, row'.kept = u.kept →
      (row' = row ∨ (serveTurn env turn w).1.Resets env u) →
        ∃ x ∈ (serveTurn env turn w).2.db.users, x.kept = u.kept ∧
          (x = u ∨ ∃ d ∈ log ++ [(serveTurn env turn w).1], d.Resets env u) := by
    rintro row' hrow' hkept' (rfl | hreset)
    · refine ⟨row', hrow', hkept', hwritten.imp_right ?_⟩
      rintro ⟨d, hd, hreset⟩
      exact ⟨d, List.mem_append_left _ hd, hreset⟩
    · exact ⟨row', hrow', hkept', Or.inr ⟨_, List.mem_append_right _ List.mem_cons_self, hreset⟩⟩
  obtain ⟨-, hleads⟩ := serveTurn_leads env hwf turn
  refine ⟨settled_serveTurn env h.settled turn, ?_, ?_⟩
  · cases hrequest : (serveTurn env turn w).1.request? env with
    | none =>
        rw [hrequest] at hleads
        have hsame : (serveTurn env turn w).2.db = w.db := hleads
        exact holder row (by rw [hsame]; exact hrow) hkept (Or.inl rfl)
    | some request =>
        rw [hrequest] at hleads
        obtain ⟨outcome, hok, heffect⟩ := hleads
        rcases heffect.frozen hwf hrow (hdisabled.trans hu) with ⟨text, rfl, htext, hsuccess⟩ | ⟨row', hmem, hkept', hkind⟩
        · refine absurd ⟨hok.symm.trans hsuccess, text, ?_, hrequest⟩ hnot
          rwa [huuid] at htext
        · refine holder row' hmem (hkept'.trans hkept) (hkind.imp_right ?_)
          rintro ⟨⟨code, password, rfl⟩, hsuccess⟩
          exact ⟨hok.symm.trans hsuccess, code, password, by rw [← hmobile]; exact hrequest⟩
  · intro d hd hlogin hsuccess
    rcases List.mem_append.mp hd with hd | hd
    · exact h.logins d hd hlogin hsuccess
    · obtain rfl := List.mem_singleton.mp hd
      have hfail : (serveTurn env turn w).1.outcome.isOk = false := by
        rcases hlogin with ⟨password, hrequest⟩ | ⟨code, hrequest⟩
        · rw [hrequest] at hleads
          obtain ⟨outcome, hok, heffect⟩ := hleads
          rw [← hok]
          exact heffect.no_login hwf hrow (hdisabled.trans hu) (Or.inl ⟨password, by rw [hmobile]⟩)
        · rw [hrequest] at hleads
          obtain ⟨outcome, hok, heffect⟩ := hleads
          rw [← hok]
          exact heffect.no_login hwf hrow (hdisabled.trans hu) (Or.inr ⟨code, by rw [hmobile]⟩)
      exact absurd hsuccess (by rw [Deed.Succeeded, hfail]; decide)

theorem Frozen.history (h : Frozen env u [] w.db) (hu : u.disabled = true) (turns : List Turn)
    (hnot : ∀ d ∈ (history (serveTurn env) turns w).1, ¬d.Enables env u) :
    Frozen env u (history (serveTurn env) turns w).1 (history (serveTurn env) turns w).2.db := by
  induction turns using List.reverseRecOn with
  | nil => exact h
  | append_singleton earlier turn ih =>
      rw [history_snoc] at hnot ⊢
      refine (ih fun d hd => hnot d (List.mem_append_left _ hd)).serve hu turn ?_
      exact hnot _ (List.mem_append_right _ List.mem_cons_self)

end Runs

/-- **A disabled account is frozen.** In a run from empty tables, once `SetUserDisabled(u, true)` or `DeleteUser(u)`
has returned `Ok`, and as long as no `SetUserDisabled(u, false)` does, the user has no session, nobody signs in
with the mobile of the user, and the row is what it was, except that a `ResetPassword` for that mobile replaces the
password hash and the time of the last update. -/
theorem disabled_frozen (env : Env) {uuidKey : Bytes → Bytes} {w before after : World} {d : Deed} {u : UserEntity}
    (earlier later : List Turn) (turn : Turn) (hempty : w.db = Database.empty uuidKey)
    (hbefore : (history (serveTurn env) earlier w).2 = before) (hserved : serveTurn env turn before = (d, after))
    (hdisables : d.Disables env u) (hu : u ∈ after.db.users)
    (hnever : ∀ e ∈ (history (serveTurn env) later after).1, ¬e.Enables env u) :
    (∀ r ∈ (history (serveTurn env) later after).2.db.sessions, r.userId ≠ u.id) ∧
      (∃ row ∈ (history (serveTurn env) later after).2.db.users, row.kept = u.kept ∧
        (row = u ∨ ∃ e ∈ (history (serveTurn env) later after).1, e.Resets env u)) ∧
      ∀ e ∈ (history (serveTurn env) later after).1, e.IsLogin env u → ¬e.Succeeded := by
  have hsettled : before.db.Settled := hbefore ▸ settled_history env hempty earlier
  obtain rfl : (serveTurn env turn before).1 = d := congrArg Prod.fst hserved
  obtain rfl : (serveTurn env turn before).2 = after := congrArg Prod.snd hserved
  have hdisabled : u.disabled = true := by
    obtain ⟨hok, text, huuid, hrequest⟩ := hdisables
    obtain ⟨-, hleads⟩ := serveTurn_leads env hsettled.wellFormed turn
    rcases hrequest with hrequest | ⟨code, hrequest⟩
    · rw [hrequest] at hleads
      obtain ⟨outcome, houtcome, heffect⟩ := hleads
      exact heffect.disables hsettled.wellFormed (Or.inl rfl) (houtcome.trans hok) hu huuid
    · rw [hrequest] at hleads
      obtain ⟨outcome, houtcome, heffect⟩ := hleads
      exact heffect.disables hsettled.wellFormed (Or.inr ⟨code, rfl⟩) (houtcome.trans hok) hu huuid
  have hstart : Frozen env u [] (serveTurn env turn before).2.db :=
    ⟨settled_serveTurn env hsettled turn, ⟨u, hu, rfl, Or.inl rfl⟩, fun _ h => absurd h List.not_mem_nil⟩
  obtain ⟨hquiet, ⟨row, hrow, hkept, hwritten⟩, hlogins⟩ := hstart.history hdisabled later hnever
  obtain ⟨hid, -, -, hsame⟩ := UserEntity.kept_fields hkept
  refine ⟨fun r hr => ?_, ⟨row, hrow, hkept, hwritten⟩, hlogins⟩
  rw [← hid]
  exact hquiet.quiet row hrow (hsame.trans hdisabled) r hr

/-- A request some seconds after the operation before, with fixed draws. -/
def Turn.sample (seconds : Nat) (request : Request) : Turn where
  delay := seconds * nanosPerSecond
  act := .service request
  draws := (Call.sample seconds request).draws

def disabledUuid : Bytes := (Call.sample 0 .cleanExpiredTokens).draws.uuid

def signUpTurns : List Turn :=
  [.sample 0 (.sendVerifyCode (ascii "13800138000") .register),
    .sample 1 (.register (ascii "13800138000") (ascii "123456") (ascii "Password123") (ascii "A"))]

def disableTurn : Turn := .sample 1 (.setUserDisabled disabledUuid true)

/-- The password is reset a hundred seconds after the account was disabled. -/
def resetTurns : List Turn :=
  [.sample 99 (.sendVerifyCode (ascii "13800138000") .resetPassword),
    .sample 1 (.resetPassword (ascii "13800138000") (ascii "123456") (ascii "Password456"))]

/-- The disabling of the sample user, and the world after it. -/
def disabling : Deed × World :=
  serveTurn defaultEnv disableTurn (history (serveTurn defaultEnv) signUpTurns (emptyWorld 0)).2

def disabledUser : UserEntity := disabling.2.db.users.headD {}

/-- The operations of a run are those that were served. -/
theorem turn_mem_of_history {env : Env} {turns : List Turn} {w : World} {d : Deed}
    (hd : d ∈ (history (serveTurn env) turns w).1) : d.turn ∈ turns := by
  induction turns using List.reverseRecOn with
  | nil => exact absurd hd List.not_mem_nil
  | append_singleton earlier turn ih =>
      rw [history_snoc] at hd
      rcases List.mem_append.mp hd with hd | hd
      · exact List.mem_append_left _ (ih hd)
      · obtain rfl := List.mem_singleton.mp hd
        exact List.mem_append_right _ List.mem_cons_self

theorem resetTurns_never_enable :
    ∀ e ∈ (history (serveTurn defaultEnv) resetTurns disabling.2).1, ¬e.Enables defaultEnv disabledUser := by
  rintro e he ⟨-, text, -, hrequest⟩
  rw [Deed.request?] at hrequest
  rcases List.mem_cons.mp (turn_mem_of_history he) with hturn | hturn
  · rw [hturn] at hrequest
    cases hrequest
  · rw [List.mem_singleton.mp hturn] at hrequest
    cases hrequest

theorem disabling_disables : disabling.1.Disables defaultEnv disabledUser := by
  have hok : disabling.1.outcome.isOk = true := by decide +kernel
  have huuid : disabling.1.world.db.sameUuid disabledUser.uuid disabledUuid = true := by decide +kernel
  exact ⟨hok, disabledUuid, huuid, Or.inl rfl⟩

theorem disabled_frozen_sample :
    (∀ r ∈ (history (serveTurn defaultEnv) resetTurns disabling.2).2.db.sessions, r.userId ≠ disabledUser.id) ∧
      (∃ row ∈ (history (serveTurn defaultEnv) resetTurns disabling.2).2.db.users,
        row.kept = disabledUser.kept ∧ (row = disabledUser ∨
          ∃ e ∈ (history (serveTurn defaultEnv) resetTurns disabling.2).1, e.Resets defaultEnv disabledUser)) ∧
      ∀ e ∈ (history (serveTurn defaultEnv) resetTurns disabling.2).1,
        e.IsLogin defaultEnv disabledUser → ¬e.Succeeded := by
  have hempty : (emptyWorld 0).db = Database.empty id := rfl
  have hserved : disabling = (disabling.1, disabling.2) := Prod.mk.eta.symm
  have hmem : disabledUser ∈ disabling.2.db.users := by decide +kernel
  exact disabled_frozen defaultEnv signUpTurns resetTurns disableTurn hempty rfl hserved disabling_disables hmem
    resetTurns_never_enable

/-- The reset of the password writes the time of the last update too. -/
theorem reset_touches_disabled_row :
    disabling.1.Disables defaultEnv disabledUser ∧ disabledUser ∈ disabling.2.db.users ∧
      (∀ e ∈ (history (serveTurn defaultEnv) resetTurns disabling.2).1, ¬e.Enables defaultEnv disabledUser) ∧
      ∀ row ∈ (history (serveTurn defaultEnv) resetTurns disabling.2).2.db.users,
        ({ row with passwordHash := [] } : UserEntity) ≠ { disabledUser with passwordHash := [] } :=
  ⟨disabling_disables, by decide +kernel, resetTurns_never_enable, by decide +kernel⟩

end AccountService
