import AccountService.SessionSemantics

/-! The accounts as a fold of the successful requests: what the table of users is for, without its rows, statements
and keys. -/

namespace AccountService

open Interaction

/-- An account without its number and the times at which its row was written. -/
structure Profile where
  uuid : Bytes
  mobile : Bytes
  displayName : Bytes
  passwordHash : Bytes
  role : UserRole
  disabled : Bool
  deriving DecidableEq

def UserEntity.profile (u : UserEntity) : Profile where
  uuid := u.uuid
  mobile := u.mobile
  displayName := u.displayName
  passwordHash := u.passwordHash
  role := u.role
  disabled := u.disabled

def Database.profiles (db : Database) : List Profile := db.users.map UserEntity.profile

section Replay

variable (crypto : Crypto) (uuidKey : Bytes → Bytes)

/-- What a successful request makes of an account. -/
def Request.edit (draws : Draws) (request : Request) (a : Profile) : Profile :=
  match request with
  | .resetPassword mobile _ newPassword =>
      if a.mobile = mobile then { a with passwordHash := passwordHash crypto draws.salt newPassword } else a
  | .changePassword userUuid _ newPassword =>
      if uuidKey a.uuid = uuidKey userUuid then { a with passwordHash := passwordHash crypto draws.salt newPassword }
      else a
  | .updateUser userUuid (some name) => if uuidKey a.uuid = uuidKey userUuid then { a with displayName := name } else a
  | .deleteUser userUuid _ => if uuidKey a.uuid = uuidKey userUuid then { a with disabled := true } else a
  | .setUserDisabled userUuid disabled =>
      if uuidKey a.uuid = uuidKey userUuid then { a with disabled := disabled } else a
  | _ => a

/-- The account that a successful request adds. -/
def Request.enrolled (draws : Draws) (request : Request) : List Profile :=
  match request with
  | .register mobile _ password displayName =>
      [⟨draws.uuid, mobile, displayName, passwordHash crypto draws.salt password, .user, false⟩]
  | _ => []

/-- The accounts after a call. -/
def Event.replay (accounts : List Profile) (e : Event) : List Profile :=
  if e.Succeeded then
    accounts.map (e.request.edit crypto uuidKey e.call.draws) ++ e.request.enrolled crypto e.call.draws
  else accounts

end Replay

section Effects

variable {env : Env} {t : Nat} {draws : Draws} {db db' : Database} {user changed row : UserEntity} {second : Nat}
  {crypto : Crypto}

theorem profile_write (hsame : changed.uuid = user.uuid) :
    ((UserDB.updateOf changed).write db second user).profile = { changed.profile with mobile := user.mobile } := by
  rcases @write_self db user changed second hsame with ⟨⟨hname, hhash, hdisabled, hrole⟩, h⟩ | ⟨-, h⟩
  · rw [h]
    simp only [UserDB.updateOf] at hname hhash hdisabled hrole
    simp [UserEntity.profile, hsame, hname, hhash, hdisabled, hrole]
  · rw [h]
    simp [UserEntity.profile, hsame]

/-- A write to a row changes this account and no other. -/
theorem profiles_put (hdb : db.WellFormed) (huser : user ∈ db.users) (hsame : changed.uuid = user.uuid)
    {f : Profile → Profile} (hf : f user.profile = { changed.profile with mobile := user.mobile })
    (hother : ∀ x ∈ db.users, x ≠ user → f x.profile = x.profile) :
    (db.put second changed).profiles = db.profiles.map f := by
  rw [Database.profiles, Database.put, Database.profiles, List.map_map, List.map_map]
  refine List.map_congr_left fun x hx => ?_
  by_cases h : x = user
  · rw [h]
    exact (profile_write hsame).trans hf.symm
  · have hkey : db.sameUuid x.uuid changed.uuid = false := by
      rw [hsame]
      simpa [Database.sameUuid] using fun hkey => h (hdb.uuid.eq_of_key hx huser hkey)
    have hwrite : (UserDB.updateOf changed).write db second x = x := by
      rw [UserUpdate.write, if_neg fun hboth => ?_]
      exact Bool.noConfusion (hkey.symm.trans hboth.1)
    exact (congrArg UserEntity.profile hwrite).trans (hother x hx h).symm

theorem profiles_store (userId : Int) (tokenHash : Bytes) (expiresAt : Nat) :
    (db.store second userId tokenHash expiresAt).profiles = db.profiles := by
  rw [Database.profiles, users_store]
  rfl

theorem edit_rest {uuidKey : Bytes → Bytes} {request : Request}
    (h : ∀ a, request.edit crypto uuidKey draws a = a) (accounts : List Profile) :
    accounts.map (request.edit crypto uuidKey draws) = accounts :=
  (List.map_congr_left fun a _ => h a).trans (List.map_id _)

/-- A request that writes to the row of one uuid. -/
theorem profiles_put_uuid (hdb : db.WellFormed) (huser : user ∈ db.users) {userUuid : Bytes}
    (huuid : db.sameUuid user.uuid userUuid = true) (changed : UserEntity) (hsame : changed.uuid = user.uuid)
    (f : Profile → Profile) (hf : f user.profile = { changed.profile with mobile := user.mobile }) :
    (db.put second changed).profiles =
      db.profiles.map fun a => if db.uuidKey a.uuid = db.uuidKey userUuid then f a else a := by
  have hkey : db.uuidKey user.uuid = db.uuidKey userUuid := by simpa [Database.sameUuid] using huuid
  refine profiles_put hdb huser hsame ?_ fun x hx hne => if_neg fun h => hne ?_
  · rw [← hf]
    exact if_pos hkey
  · exact hdb.uuid.eq_of_key hx huser (h.trans hkey.symm)

/-- A request that writes to the row of one mobile. -/
theorem profiles_put_mobile (hdb : db.WellFormed) (huser : user ∈ db.users) {mobile : Bytes}
    (hmobile : user.mobile = mobile) (changed : UserEntity) (hsame : changed.uuid = user.uuid) (f : Profile → Profile)
    (hf : f user.profile = { changed.profile with mobile := user.mobile }) :
    (db.put second changed).profiles = db.profiles.map fun a => if a.mobile = mobile then f a else a := by
  refine profiles_put hdb huser hsame ?_ fun x hx hne => if_neg fun h => hne ?_
  · rw [← hf]
    exact if_pos hmobile
  · exact hdb.mobile.eq_of_key hx huser (h.trans hmobile.symm)

/-- A request that leaves the row of one uuid as it is. -/
theorem profiles_same_uuid (hdb : db.WellFormed) (huser : user ∈ db.users) {userUuid : Bytes}
    (huuid : db.sameUuid user.uuid userUuid = true) (f : Profile → Profile) (hf : f user.profile = user.profile) :
    db.profiles = db.profiles.map fun a => if db.uuidKey a.uuid = db.uuidKey userUuid then f a else a := by
  have hkey : db.uuidKey user.uuid = db.uuidKey userUuid := by simpa [Database.sameUuid] using huuid
  rw [Database.profiles, List.map_map]
  refine List.map_congr_left fun x hx => ?_
  by_cases h : db.uuidKey x.uuid = db.uuidKey userUuid
  · obtain rfl := hdb.uuid.eq_of_key hx huser (h.trans hkey.symm)
    exact ((if_pos h).trans hf).symm
  · exact (if_neg h).symm

/-- **One request.** What it does to the accounts is known from whether it succeeded. -/
theorem Effect.replayed {request : Request} {outcome : Outcome Answer}
    (h : Effect env t draws db request outcome db') (hdb : db.WellFormed) :
    db'.profiles = if outcome.isOk = true then
      db.profiles.map (request.edit env.crypto db.uuidKey draws) ++ request.enrolled env.crypto draws
    else db.profiles := by
  have hrest : ∀ {request : Request} {outcome : Outcome Answer} {db' : Database},
      (∀ a, request.edit env.crypto db.uuidKey draws a = a) → request.enrolled env.crypto draws = [] →
      db'.profiles = db.profiles → db'.profiles = if outcome.isOk = true then
        db.profiles.map (request.edit env.crypto db.uuidKey draws) ++ request.enrolled env.crypto draws
      else db.profiles := by
    intro request outcome db' hedit henrolled hsame
    rw [edit_rest hedit, henrolled, List.append_nil, ite_self, hsame]
  cases h with
  | failed hfail _ => rw [hfail, if_neg (by simp)]
  | sent _ | got | read => exact hrest (fun _ => rfl) rfl rfl
  | loggedIn hrequest _ _ _ =>
      rcases hrequest with ⟨_, rfl⟩ | ⟨_, rfl⟩
      · exact hrest (fun _ => rfl) rfl (profiles_store _ _ _)
      · exact hrest (fun _ => rfl) rfl (profiles_store _ _ _)
  | refreshed _ _ _ _ _ => exact hrest (fun _ => rfl) rfl (profiles_store _ _ _)
  | loggedOut =>
      refine hrest (fun _ => rfl) rfl ?_
      split <;> rfl
  | loggedOutAll _ _ => exact hrest (fun _ => rfl) rfl rfl
  | cleaned _ => exact hrest (fun _ => rfl) rfl rfl
  | registered huser _ _ _ =>
      refine ((profiles_store _ _ _).trans ?_).trans (if_pos rfl).symm
      rw [edit_rest fun _ => rfl, Database.profiles, List.map_append, huser]
      rfl
  | @reset mobile _ newPassword user huser hmobile =>
      refine Eq.trans ?_ ((if_pos rfl).trans (List.append_nil _)).symm
      exact profiles_put_mobile hdb huser hmobile
        { user with passwordHash := passwordHash env.crypto draws.salt newPassword } rfl
        (fun a => { a with passwordHash := passwordHash env.crypto draws.salt newPassword }) rfl
  | @renamed _ name user huser huuid _ =>
      refine Eq.trans ?_ ((if_pos rfl).trans (List.append_nil _)).symm
      exact profiles_put_uuid hdb huser huuid { user with displayName := name } rfl
        (fun a => { a with displayName := name }) rfl
  | @changed _ _ newPassword user huser huuid _ =>
      refine Eq.trans ?_ ((if_pos rfl).trans (List.append_nil _)).symm
      exact profiles_put_uuid hdb huser huuid
        { user with passwordHash := passwordHash env.crypto draws.salt newPassword } rfl
        (fun a => { a with passwordHash := passwordHash env.crypto draws.salt newPassword }) rfl
  | @deleted userUuid _ user result huser huuid hok =>
      have hput : ∀ f : Profile → Profile, f user.profile = { user.profile with disabled := true } →
          ((db.dropUser user.id).put (toTimeT t) { user with
            disabled := true
            mobile := UserService.releasedMobile user }).profiles =
          db.profiles.map fun a => if db.uuidKey a.uuid = db.uuidKey userUuid then f a else a := fun f hf =>
        @profiles_put_uuid db user (toTimeT t) hdb huser userUuid huuid { user with
          disabled := true
          mobile := UserService.releasedMobile user } rfl f hf
      have hresult : (Outcome.returned (result.map fun _ => Answer.nothing)).isOk = result.isOk :=
        Result.isOk_map _ result
      rw [hresult]
      split
      · exact (hput (fun a => { a with disabled := true }) rfl).trans (List.append_nil _).symm
      · rename_i hfail
        -- the account has been disabled before
        have hdisabled : user.disabled = true := by
          simpa using fun h => hfail (hok.mpr h)
        refine (hput id ?_).trans (profiles_same_uuid hdb huser huuid id rfl).symm
        simp [UserEntity.profile, hdisabled]
  | @unchanged _ disabled user huser huuid hsame =>
      refine Eq.trans ?_ ((if_pos rfl).trans (List.append_nil _)).symm
      exact profiles_same_uuid hdb huser huuid (fun a => { a with disabled := disabled }) (by rw [← hsame]; rfl)
  | @switched _ disabled user huser huuid _ =>
      refine Eq.trans ?_ ((if_pos rfl).trans (List.append_nil _)).symm
      have hput := @profiles_put_uuid db user (toTimeT t) hdb huser _ huuid { user with disabled := disabled } rfl
        (fun a => { a with disabled := disabled }) rfl
      split <;> exact hput

end Effects

section Runs

variable {env : Env} {w : World}

theorem serve_uuidKey (env : Env) (call : Call) (w : World) : (serve env call w).2.db.uuidKey = w.db.uuidKey :=
  run_db_invariant (I := fun db => db.uuidKey = w.db.uuidKey) (P := fun _ => True)
    (fun s _ second db h => (SqlStmt.apply_uuidKey s second db).trans h) (Program.uses_true _) rfl

theorem serve_replayed {call : Call} (hdb : w.db.WellFormed) (hfaults : call.sqlFaults = []) :
    (serve env call w).2.db.profiles =
      (serve env call w).1.replay env.crypto w.db.uuidKey w.db.profiles :=
  (serve_effect hdb hfaults).replayed hdb

/-- The sample user forgets the password, sets another one, and then tries the old one. -/
def recoveryCalls : List Call :=
  signUpCalls ++ [.sample 100 (.sendVerifyCode (ascii "13800138000") .resetPassword),
    .sample 1 (.resetPassword (ascii "13800138000") (ascii "123456") (ascii "Better123")),
    .sample 1 (.loginByPassword (ascii "13800138000") (ascii "Password123"))]

def recovered : List Event × World := history (serve defaultEnv) recoveryCalls (emptyWorld 0)

theorem recoveryCalls_faults : ∀ call ∈ recoveryCalls, call.sqlFaults = [] := by
  intro call hcall
  simp only [recoveryCalls, signUpCalls, List.cons_append, List.nil_append, List.mem_cons, List.not_mem_nil,
    or_false] at hcall
  rcases hcall with rfl | rfl | rfl | rfl | rfl <;> rfl

end Runs

end AccountService
