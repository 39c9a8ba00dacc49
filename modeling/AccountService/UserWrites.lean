import AccountService.AccountFreeze
import AccountService.TokenRoundTrip

/-! `UserDB::Update` decides from the number of changed rows whether there is such a user, and does not write the
mobile. What follows for `UpdateUser` and `DeleteUser`, no statement failing. -/

namespace AccountService

open AuthService Interaction Table

section Update

variable {w : World}

/-- `Update` in full. -/
theorem run_update_eq (hfaults : w.sqlFaults = []) (user : UserEntity) :
    Program.run exec (UserDB.update user) w =
      (if (UserDB.updateOf user).affected w.db = 0 then failPlain .userNotFound else .ok (),
        { w with db := w.db.put (toTimeT w.clock) user }) := by
  obtain ⟨clock, redis, db, redisFaults, sqlFaults⟩ := w
  obtain rfl : sqlFaults = [] := hfaults
  show Program.run exec (if (UserDB.updateOf user).affected db = 0 then _ else _) _ = _
  split <;> rfl

/-- No row has the uuid. -/
def Database.Lacks (db : Database) (uuid : Bytes) : Prop := ∀ row ∈ db.users, ¬db.sameUuid row.uuid uuid = true

theorem affected_eq_zero_iff (db : Database) (upd : UserUpdate) :
    upd.affected db = 0 ↔ ∀ row ∈ db.users, db.sameUuid row.uuid upd.uuid = true → upd.Holds row := by
  rw [UserUpdate.affected, List.countP_eq_zero]
  refine forall₂_congr fun row _ => ?_
  rw [decide_eq_true_iff, not_and, not_not]

/-- `Update` returns `UserNotFound` exactly when no row has the uuid. -/
def UpdateTruthful (w : World) (user : UserEntity) : Prop :=
  ((UserDB.update user).run w).1 = failPlain .userNotFound ↔ w.db.Lacks user.uuid

/-- `UpdateUser` returns `Ok`, and so it does when it is called again, with the same name. -/
def UpdateRepeats (w : World) (userUuid name : Bytes) (delay : Nat) : Prop :=
  let first := (UserService.updateUser userUuid (some name)).run w
  let second := (UserService.updateUser userUuid (some name)).run { first.2 with clock := first.2.clock + delay }
  first.1.isOk = true ∧ second.1.isOk = true

instance (w : World) (userUuid name : Bytes) (delay : Nat) : Decidable (UpdateRepeats w userUuid name delay) :=
  inferInstanceAs (Decidable (_ ∧ _))

theorem updateTruthful_iff (hfaults : w.sqlFaults = []) (user : UserEntity) :
    UpdateTruthful w user ↔ w.db.Lacks user.uuid ∨
      ∃ row ∈ w.db.users, w.db.sameUuid row.uuid user.uuid = true ∧ ¬(UserDB.updateOf user).Holds row := by
  have hresult : ((UserDB.update user).run w).1 = failPlain .userNotFound ↔
      (UserDB.updateOf user).affected w.db = 0 := by
    rw [Action.run, run_update_eq hfaults]
    split
    · simp [*]
    · simp [*, failPlain, Result.failWith]
  have hlacks : w.db.Lacks user.uuid → (UserDB.updateOf user).affected w.db = 0 := fun h =>
    (affected_eq_zero_iff _ _).mpr fun row hrow hsame => absurd hsame (h row hrow)
  have hchanges : (UserDB.updateOf user).affected w.db ≠ 0 ↔
      ∃ row ∈ w.db.users, w.db.sameUuid row.uuid user.uuid = true ∧ ¬(UserDB.updateOf user).Holds row := by
    rw [ne_eq, affected_eq_zero_iff]
    push Not
    rfl
  rw [UpdateTruthful, hresult, ← hchanges]
  constructor
  · intro h
    by_cases hzero : (UserDB.updateOf user).affected w.db = 0
    · exact Or.inl (h.mp hzero)
    · exact Or.inr hzero
  · rintro (h | h)
    · exact iff_of_true (hlacks h) h
    · exact iff_of_false h fun hl => h (hlacks hl)

theorem Database.WellFormed.find_uuid {db : Database} (hdb : db.WellFormed) {row : UserEntity}
    (hrow : row ∈ db.users) {userUuid : Bytes} (hsame : db.sameUuid row.uuid userUuid = true) :
    db.users.find? (db.sameUuid ·.uuid userUuid) = some row := by
  have hkey : db.uuidKey row.uuid = db.uuidKey userUuid := by simpa [Database.sameUuid] using hsame
  have hfind := hdb.uuid.find hrow
  rw [hkey] at hfind
  exact hfind

/-- The write of `UpdateUser` changes a row exactly when the name is a new one. -/
theorem affected_rename {db : Database} (hdb : db.WellFormed) {row : UserEntity} (hrow : row ∈ db.users)
    (name : Bytes) :
    (UserDB.updateOf { row with displayName := name }).affected db ≠ 0 ↔ row.displayName ≠ name := by
  rw [affected_iff hdb hrow (by rfl), not_iff_not]
  exact ⟨fun h => h.1, fun h => ⟨h, rfl, rfl, rfl⟩⟩

/-- `UpdateUser` of an enabled user with a valid name. -/
theorem leaves_updateUser {t : Nat} {db : Database} (hdb : db.WellFormed) {row : UserEntity} (hrow : row ∈ db.users)
    (henabled : row.disabled = false) {userUuid name : Bytes} (hne : userUuid ≠ [])
    (hsame : db.sameUuid row.uuid userUuid = true) (hname : isValidDisplayName name = .ok ()) :
    Leaves t db (UserService.updateUser userUuid (some name)) fun r db' =>
      (r.isOk = true ↔ row.displayName ≠ name) ∧ db' = db.put (toTimeT t) { row with displayName := name } := by
  rw [UserService.updateUser, UserService.requireUuid, if_neg hne]
  refine Leaves.bind (R := fun r db' => r = .ok row ∧ db' = db) ?_ fun r db' h => ?_
  · refine (leaves_sqlCall (.selectUserByUuid userUuid)).bind fun r db' h => leaves_pure ?_
    obtain ⟨rfl, rfl⟩ := h
    exact ⟨congrArg (fun found => foundUser (.ofSql (.ok found))) (hdb.find_uuid hrow hsame), rfl⟩
  · obtain ⟨rfl, rfl⟩ := h
    rw [orFail_ok, if_neg (by simp [henabled])]
    simp only [hname, requireValid]
    refine (leaves_update _).bind fun r db'' h => ?_
    obtain ⟨rfl, hok⟩ := h
    rw [affected_rename hdb hrow] at hok
    cases r with
    | ok _ => exact leaves_pure ⟨hok, rfl⟩
    | fail code message => exact leaves_pure ⟨hok, rfl⟩

/-- What a rename leaves in the row. -/
theorem exists_renamed {db : Database} (hdb : db.WellFormed) {row : UserEntity} (hrow : row ∈ db.users)
    (henabled : row.disabled = false) (name : Bytes) (second : Nat) :
    ∃ written ∈ (db.put second { row with displayName := name }).users,
      written.displayName = name ∧ written.disabled = false ∧ written.uuid = row.uuid := by
  refine ⟨_, (mem_put hdb hrow (by rfl)).mpr (Or.inr rfl), ?_, ?_, UserUpdate.write_uuid _ _ _ _⟩
  · rcases @write_self db row { row with displayName := name } second rfl with ⟨⟨hholds, -⟩, h⟩ | ⟨-, h⟩
    · rw [h, hholds]
      rfl
    · rw [h]
  · exact (write_self_disabled (by rfl)).trans henabled

end Update

/-- **`Update` and the truth.** `Update` reports a missing user truthfully exactly when there is none or when the
write changes a row of the uuid. So `UpdateUser` of an enabled user returns `Ok` exactly when the name is a new one,
and never twice in a row. -/
theorem update_truthful_iff {w : World} (hfaults : w.sqlFaults = []) (hdb : w.db.WellFormed) :
    (∀ user, UpdateTruthful w user ↔ w.db.Lacks user.uuid ∨
      ∃ row ∈ w.db.users, w.db.sameUuid row.uuid user.uuid = true ∧ ¬(UserDB.updateOf user).Holds row) ∧
    ∀ row ∈ w.db.users, row.disabled = false → ∀ userUuid name delay, userUuid ≠ [] →
      w.db.sameUuid row.uuid userUuid = true → isValidDisplayName name = .ok () →
        (((UserService.updateUser userUuid (some name)).run w).1.isOk = true ↔ row.displayName ≠ name) ∧
          ¬UpdateRepeats w userUuid name delay := by
  refine ⟨updateTruthful_iff hfaults, fun row hrow henabled userUuid name delay hne hsame hname => ?_⟩
  obtain ⟨db', hcalm, hfirst, rfl⟩ := leaves_updateUser hdb hrow henabled hne hsame hname w ⟨rfl, rfl, hfaults⟩
  refine ⟨hfirst, fun hrepeats => ?_⟩
  obtain ⟨-, hagain⟩ := hrepeats
  -- the row has the name already: the second write changes nothing
  obtain ⟨written, hwritten, hnow, hon, huuid⟩ := exists_renamed hdb hrow henabled name (toTimeT w.clock)
  have hput : (w.db.put (toTimeT w.clock) { row with displayName := name }).WellFormed :=
    hdb.apply (toTimeT w.clock) (.updateUser (UserDB.updateOf { row with displayName := name }))
  have hsame' : (w.db.put (toTimeT w.clock) { row with displayName := name }).sameUuid written.uuid userUuid =
      true := by
    rw [huuid]
    exact hsame
  obtain ⟨-, -, hsecond, -⟩ := leaves_updateUser hput hwritten hon hne hsame' hname
    { ((UserService.updateUser userUuid (some name)).run w).2 with
      clock := ((UserService.updateUser userUuid (some name)).run w).2.clock + delay }
    ⟨rfl, hcalm.db, hcalm.faults⟩
  exact hsecond.mp hagain hnow

/-- A table with one user. -/
def oneUser : World :=
  { emptyWorld 1700000000000000000 with db := { Database.empty id with users := [sampleUser], nextUserId := 2 } }

theorem oneUser_wellFormed : oneUser.db.WellFormed where
  mobile := List.nodup_singleton _
  uuid := List.nodup_singleton _
  id := List.nodup_singleton _
  next := by decide
  idBelow u hu := by
    obtain rfl := List.mem_singleton.mp hu
    decide
  hash := List.nodup_nil
  owner _ hr := absurd hr List.not_mem_nil

theorem update_truthful_sample :
    (UpdateTruthful oneUser sampleUser ↔ oneUser.db.Lacks sampleUser.uuid ∨
      ∃ row ∈ oneUser.db.users, oneUser.db.sameUuid row.uuid sampleUser.uuid = true ∧
        ¬(UserDB.updateOf sampleUser).Holds row) ∧
    ¬UpdateRepeats oneUser sampleUser.uuid (ascii "Alice") 0 := by
  obtain ⟨htruth, hrename⟩ := update_truthful_iff rfl oneUser_wellFormed
  refine ⟨htruth sampleUser, ?_⟩
  exact (hrename sampleUser List.mem_cons_self rfl sampleUser.uuid (ascii "Alice") 0 (by decide) (by decide)
    (by decide)).2

/-- A write of what is stored reports the user missing, and the second of two equal calls fails. -/
theorem update_reports_present_user :
    ((UserDB.update sampleUser).run oneUser).1 = failPlain .userNotFound ∧ ¬oneUser.db.Lacks sampleUser.uuid ∧
      ¬UpdateRepeats oneUser sampleUser.uuid (ascii "Alice") 0 := by
  exact ⟨by decide +kernel, fun h => h sampleUser List.mem_cons_self (by decide), by decide +kernel⟩

/-! ### The mobile of a deleted user -/

/-- The deletion has freed the mobile: lookups do not find it and it can be registered again, the row of the user is
there and disabled, and the other rows are as they were. -/
structure FreesMobile (before after : World) (user : UserEntity) : Prop where
  find : ((UserDB.findByMobile user.mobile).run after).1 = failPlain .userNotFound
  absent : ((UserDB.existsByMobile user.mobile).run after).1 = .ok false
  create : ∀ uuid entity, entity.mobile = user.mobile →
    ((UserDB.create uuid entity).run after).1.code ≠ .mobileTaken
  row : ∃ row ∈ after.db.users, row.id = user.id ∧ row.disabled = true
  others : ∀ row ∈ before.db.users, row.id ≠ user.id → row ∈ after.db.users

section Delete

variable {env : Env} {t : Nat} {draws : Draws} {db db' : Database}

/-- What a deletion that succeeds has done. -/
theorem Effect.of_deleted {request : Request} {outcome : Outcome Answer} (h : Effect env t draws db request outcome db')
    {userUuid code : Bytes} (hrequest : request = .deleteUser userUuid code) (hok : outcome.isOk = true) :
    ∃ user ∈ db.users, db.sameUuid user.uuid userUuid = true ∧
      db' = (db.dropUser user.id).put (toTimeT t)
        { user with disabled := true, mobile := UserService.releasedMobile user } := by
  cases h with
  | failed hfail _ =>
      rw [hfail] at hok
      cases hok
  | loggedIn hlogin _ _ _ =>
      rw [hrequest] at hlogin
      rcases hlogin with ⟨_, hlogin⟩ | ⟨_, hlogin⟩ <;> cases hlogin
  | @deleted _ _ user _ huser huuid _ =>
      cases hrequest
      exact ⟨user, huser, huuid, rfl⟩
  | _ => cases hrequest

end Delete

/-- The state after `DeleteUser`. -/
def deleted (env : Env) (w : World) (userUuid code : Bytes) : World :=
  ((UserService.deleteUser env userUuid code).run w).2

/-- A deletion that returns `Ok` leaves the mobile in the row, disables it, and keeps the other rows. -/
theorem users_of_deleted (env : Env) {w : World} (hfaults : w.sqlFaults = []) (hdb : w.db.WellFormed)
    {user : UserEntity} (huser : user ∈ w.db.users) {userUuid : Bytes}
    (hsame : w.db.sameUuid user.uuid userUuid = true) (code : Bytes)
    (hok : ((UserService.deleteUser env userUuid code).run w).1.isOk = true) :
    (∃ row ∈ (deleted env w userUuid code).db.users,
        row.id = user.id ∧ row.mobile = user.mobile ∧ row.disabled = true) ∧
      ∀ row ∈ w.db.users, row.id ≠ user.id → row ∈ (deleted env w userUuid code).db.users := by
  obtain ⟨db', hcalm, heffect⟩ := effect_deleteUser env (Call.sample 0 .cleanExpiredTokens).draws hdb userUuid code w
    ⟨rfl, rfl, hfaults⟩
  have hafter : (deleted env w userUuid code).db = db' := hcalm.db
  obtain ⟨found, hfound, hkey, rfl⟩ := heffect.of_deleted rfl ((Result.isOk_map _ _).trans hok)
  have hkeys : w.db.uuidKey found.uuid = w.db.uuidKey user.uuid :=
    (of_decide_eq_true hkey).trans (of_decide_eq_true hsame).symm
  obtain rfl : found = user := hdb.uuid.eq_of_key hfound huser hkeys
  have hdrop : (w.db.dropUser found.id).WellFormed := hdb.apply 0 (.deleteSessionsByUser found.id)
  rw [hafter]
  constructor
  · refine ⟨_, (mem_put hdrop hfound (by rfl)).mpr (Or.inr rfl), ?_, ?_, write_self_disabled (by rfl)⟩
    · rw [UserUpdate.write_id]
    · rw [UserUpdate.write_mobile]
  · intro row hrow hne
    exact (mem_put hdrop hfound (by rfl)).mpr (Or.inl ⟨hrow, hne⟩)

/-- **Deletion keeps the mobile.** After every deletion that returns `Ok` the row is disabled and the other rows are
as they were, but the mobile is still taken: the code never frees it. -/
theorem delete_never_frees_mobile (env : Env) {w : World} (hfaults : w.sqlFaults = []) (hdb : w.db.WellFormed)
    {user : UserEntity} (huser : user ∈ w.db.users) {userUuid : Bytes}
    (hsame : w.db.sameUuid user.uuid userUuid = true) (code : Bytes)
    (hok : ((UserService.deleteUser env userUuid code).run w).1.isOk = true) :
    ¬FreesMobile w (deleted env w userUuid code) user ∧
      (∃ row ∈ (deleted env w userUuid code).db.users,
        row.id = user.id ∧ row.mobile = user.mobile ∧ row.disabled = true) ∧
      ∀ row ∈ w.db.users, row.id ≠ user.id → row ∈ (deleted env w userUuid code).db.users := by
  obtain ⟨hrow, hothers⟩ := users_of_deleted env hfaults hdb huser hsame code hok
  refine ⟨fun hfrees => ?_, hrow, hothers⟩
  obtain ⟨row, hrow, -, hmobile, -⟩ := hrow
  -- `ExistsByMobile` still sees the row, whatever has been made to fail
  have habsent : (Program.run exec (sqlCall (.existsMobile user.mobile)) (deleted env w userUuid code)).1 = .ok false :=
    hfrees.absent
  rcases run_sqlCall (.existsMobile user.mobile) (deleted env w userUuid code) with ⟨-, h⟩ | ⟨-, h⟩
  · rw [h] at habsent
    cases habsent
  · rw [h] at habsent
    have hnone : (deleted env w userUuid code).db.users.any (·.mobile = user.mobile) = false :=
      Result.ok.inj habsent
    exact List.any_eq_false.mp hnone row hrow (decide_eq_true hmobile)

/-- The user has asked for a code to delete the account with. -/
def askedToDelete : World :=
  ((AuthService.sendVerifyCode defaultEnv (Call.sample 0 .cleanExpiredTokens).draws (ascii "13800138000")
    .deleteUser).run oneUser).2

theorem askedToDelete_db : askedToDelete.db = oneUser.db := by rfl

theorem delete_never_frees_sample :
    ¬FreesMobile askedToDelete (deleted defaultEnv askedToDelete sampleUser.uuid (ascii "123456")) sampleUser := by
  have hfaults : askedToDelete.sqlFaults = [] := by decide +kernel
  have hdb : askedToDelete.db.WellFormed := askedToDelete_db ▸ oneUser_wellFormed
  have huser : sampleUser ∈ askedToDelete.db.users := by
    rw [askedToDelete_db]
    exact List.mem_cons_self
  exact (delete_never_frees_mobile defaultEnv hfaults hdb huser (by decide +kernel) (ascii "123456")
    (by decide +kernel)).1

/-- After the deletion the mobile is found and cannot be registered again. -/
theorem deleted_mobile_stays_taken :
    ((UserService.deleteUser defaultEnv sampleUser.uuid (ascii "123456")).run askedToDelete).1.isOk = true ∧
      ¬FreesMobile askedToDelete (deleted defaultEnv askedToDelete sampleUser.uuid (ascii "123456")) sampleUser := by
  refine ⟨by decide +kernel, fun hfrees => ?_⟩
  exact hfrees.create (ascii "0f8e7d6c-0000-4000-8000-000000000001") sampleUser rfl (by decide +kernel)

end AccountService
