import AccountService.RequestEffect
import AccountService.RevocationRace
import AccountService.UserWrites

/-! Requests that write the row of one user at the same time. Each of them reads the whole row and writes all its
columns back, those that it is not about included. -/

namespace AccountService

open AuthService Interaction

/-- The request is one of the five that write the row, and names the user. -/
def Request.OnRow (db : Database) (u : UserEntity) : Request → Prop
  | .updateUser userUuid _ | .changePassword userUuid _ _ | .setUserDisabled userUuid _ | .deleteUser userUuid _ =>
      db.sameUuid u.uuid userUuid = true
  | .resetPassword mobile _ _ => mobile = u.mobile
  | _ => False

section Serial

variable (env : Env) (draws : Draws)

/-- The row that the request wants to write, if it goes as far as that. -/
def Request.change (row : UserEntity) : Request → Option UserEntity
  | .updateUser _ (some name) => if row.disabled then none else some { row with displayName := name }
  | .changePassword _ oldPassword newPassword =>
      if row.disabled ∨ ¬passwordVerify env.crypto oldPassword row.passwordHash then none
      else some { row with passwordHash := passwordHash env.crypto draws.salt newPassword }
  | .resetPassword _ _ newPassword => some { row with passwordHash := passwordHash env.crypto draws.salt newPassword }
  | .setUserDisabled _ disabled => some { row with disabled := disabled }
  | .deleteUser _ _ => some { row with disabled := true }
  | _ => none

/-- What the request makes of the row when it is served alone and its arguments and its code are good. -/
def Request.rowAfter (second : Nat) (request : Request) (row : UserEntity) : UserEntity :=
  match request.change env draws row with
  | none => row
  | some changed => if changed = row then row else { changed with updatedAt := second }

/-- The columns that the update is meant to change. -/
def Request.Aims (request : Request) (upd : UserUpdate) : Prop :=
  match request with
  | .updateUser _ (some name) => upd.displayName = name ∧ upd.disabled = false
  | .changePassword _ _ newPassword =>
      upd.passwordHash = passwordHash env.crypto draws.salt newPassword ∧ upd.disabled = false
  | .resetPassword _ _ newPassword => upd.passwordHash = passwordHash env.crypto draws.salt newPassword
  | .setUserDisabled _ disabled => upd.disabled = disabled
  | .deleteUser _ _ => upd.disabled = true
  | _ => False

/-- The columns that the update is not meant to change hold what it writes, and a `ChangePassword` was made with the
password that is still the current one. -/
def Request.Fresh (request : Request) (upd : UserUpdate) (row : UserEntity) : Prop :=
  match request with
  | .updateUser _ _ => upd.passwordHash = row.passwordHash ∧ upd.disabled = row.disabled ∧ upd.role = row.role
  | .changePassword _ oldPassword _ =>
      upd.displayName = row.displayName ∧ upd.disabled = row.disabled ∧ upd.role = row.role ∧
        passwordVerify env.crypto oldPassword row.passwordHash = true
  | .resetPassword _ _ _ => upd.displayName = row.displayName ∧ upd.disabled = row.disabled ∧ upd.role = row.role
  | .setUserDisabled _ _ | .deleteUser _ _ =>
      upd.displayName = row.displayName ∧ upd.passwordHash = row.passwordHash ∧ upd.role = row.role
  | _ => True

variable {env draws}

/-- A write that changes one column at most. -/
theorem write_eq_ite {upd : UserUpdate} {row changed : UserEntity} {db : Database} (second : Nat)
    (hsame : db.sameUuid row.uuid upd.uuid = true)
    (hchanged : changed = { row with
      displayName := upd.displayName
      passwordHash := upd.passwordHash
      disabled := upd.disabled
      role := upd.role }) :
    upd.write db second row = if changed = row then row else { changed with updatedAt := second } := by
  have hholds : upd.Holds row ↔ changed = row := by
    obtain ⟨id, uuid, mobile, displayName, passwordHash, role, disabled, createdAt, updatedAt⟩ := row
    simp only [hchanged, UserUpdate.Holds, UserEntity.mk.injEq, true_and, and_true]
    constructor
    · rintro ⟨rfl, rfl, rfl, rfl⟩
      exact ⟨rfl, rfl, rfl, rfl⟩
    · rintro ⟨rfl, rfl, rfl, rfl⟩
      exact ⟨rfl, rfl, rfl, rfl⟩
  by_cases h : changed = row
  · rw [if_pos h, UserUpdate.write, if_neg fun hw => hw.2 (hholds.mpr h)]
  · rw [if_neg h, UserUpdate.write, if_pos ⟨hsame, fun hh => h (hholds.mp hh)⟩, hchanged]

/-- An update that is fresh does to the row what the request does alone. -/
theorem write_of_fresh {request : Request} {upd : UserUpdate} {row : UserEntity} {db : Database} (second : Nat)
    (haims : request.Aims env draws upd) (hfresh : request.Fresh env upd row)
    (hsame : db.sameUuid row.uuid upd.uuid = true) :
    upd.write db second row = request.rowAfter env draws second row := by
  have hwrite : ∀ changed, request.change env draws row = some changed → changed = { row with
      displayName := upd.displayName
      passwordHash := upd.passwordHash
      disabled := upd.disabled
      role := upd.role } → upd.write db second row = request.rowAfter env draws second row := by
    intro changed hchange hchanged
    rw [Request.rowAfter, hchange]
    exact write_eq_ite second hsame hchanged
  cases request with
  | updateUser userUuid displayName =>
      cases displayName with
      | none => exact haims.elim
      | some name =>
          obtain ⟨hname, henabled⟩ := haims
          obtain ⟨hhash, hdisabled, hrole⟩ := hfresh
          refine hwrite _ (if_neg ?_) ?_
          · rw [← hdisabled, henabled]
            nofun
          · rw [hname, hhash, hdisabled, hrole]
  | changePassword userUuid oldPassword newPassword =>
      obtain ⟨hhash, henabled⟩ := haims
      obtain ⟨hname, hdisabled, hrole, hverify⟩ := hfresh
      refine hwrite _ (if_neg ?_) ?_
      · rw [← hdisabled, henabled, hverify]
        nofun
      · rw [hname, hhash, hdisabled, hrole]
  | resetPassword mobile verifyCode newPassword =>
      obtain ⟨hname, hdisabled, hrole⟩ := hfresh
      have hhash : upd.passwordHash = _ := haims
      refine hwrite _ rfl ?_
      rw [hname, hhash, hdisabled, hrole]
  | setUserDisabled userUuid disabled =>
      obtain ⟨hname, hhash, hrole⟩ := hfresh
      have hdisabled : upd.disabled = _ := haims
      refine hwrite _ rfl ?_
      rw [hname, hhash, hdisabled, hrole]
  | deleteUser userUuid verifyCode =>
      obtain ⟨hname, hhash, hrole⟩ := hfresh
      have hdisabled : upd.disabled = _ := haims
      refine hwrite _ rfl ?_
      rw [hname, hhash, hdisabled, hrole]
  | _ => exact haims.elim

end Serial

/-- The command does not touch the users. -/
def Cmd.LeavesUsers : Cmd → Prop
  | .now | .redis _ | .sql (.deleteSessionsByUser _) => True
  | _ => False

/-- The request has failed. -/
def Failed (p : Thread) : Prop := ∃ o, p = .done o ∧ o.isOk = false

/-- The row has been written. -/
def Written (p : Thread) : Prop :=
  Program.Uses (S := Service) Cmd.LeavesUsers p ∧ Program.Returns (S := Service) (fun o => o.isOk = true) p

section Stages

variable (env : Env) (draws : Draws) (db : Database) (u : UserEntity) (request : Request)

/-- The request has read `row`, and fails or writes it. -/
def Pending (row : UserEntity) : Thread → Prop
  | .done o => o.isOk = false
  | .call (.sql (.updateUser upd)) next =>
      (upd.uuid = u.uuid ∧ request.Aims env draws upd ∧ request.Fresh env upd row) ∧
        (∀ e, Failed (next (.error e))) ∧ Failed (next (.ok (0 : Nat))) ∧
        ∀ n : Nat, n ≠ 0 → Written (next (.ok n))
  | .call c next => c.LeavesUsers ∧ ∀ reply, Pending row (next reply)

/-- What follows the reading of `row`: the request has nothing to change and returns `Ok`, or is pending. -/
def AfterRead (row : UserEntity) (p : Thread) : Prop :=
  (∃ o, p = .done o ∧ o.isOk = true ∧ ∀ second, request.rowAfter env draws second row = row) ∨
    Pending env draws u request row p

/-- What follows a lookup. -/
def AfterLookup (next : Except SqlError (Option UserEntity) → Thread) : Prop :=
  (∀ e, Failed (next (.error e))) ∧ ∀ row, row.uuid = u.uuid → AfterRead env draws u request row (next (.ok (some row)))

/-- The row has not been read. -/
def Unread : Thread → Prop
  | .done o => o.isOk = false
  | .call (.sql (.selectUserByUuid uuid)) next => db.sameUuid u.uuid uuid = true ∧ AfterLookup env draws u request next
  | .call (.sql (.selectUserByMobile mobile)) next => mobile = u.mobile ∧ AfterLookup env draws u request next
  | .call c next => c.LeavesUsers ∧ ∀ reply, Unread (next reply)

variable {env draws db u request} {α β : Type}

theorem pending_call {row : UserEntity} {c : Cmd} (hc : c.LeavesUsers) {next : Service.Reply c → Thread}
    (h : ∀ reply, Pending env draws u request row (next reply)) : Pending env draws u request row (.call c next) := by
  cases c with
  | now => exact ⟨hc, h⟩
  | redis c => exact ⟨hc, h⟩
  | sql s =>
      cases s with
      | deleteSessionsByUser userId => exact ⟨hc, h⟩
      | _ => exact hc.elim

theorem unread_call {c : Cmd} (hc : c.LeavesUsers) {next : Service.Reply c → Thread}
    (h : ∀ reply, Unread env draws db u request (next reply)) : Unread env draws db u request (.call c next) := by
  cases c with
  | now => exact ⟨hc, h⟩
  | redis c => exact ⟨hc, h⟩
  | sql s =>
      cases s with
      | deleteSessionsByUser userId => exact ⟨hc, h⟩
      | _ => exact hc.elim

theorem pending_bind {row : UserEntity} {p : Action α} (hp : Program.Uses (S := Service) Cmd.LeavesUsers p)
    {f : α → Thread} (hf : ∀ a, Pending env draws u request row (f a)) : Pending env draws u request row (p >>= f) := by
  induction p with
  | done a => exact hf a
  | call c next ih => exact pending_call hp.1 fun reply => ih reply (hp.2 reply)

theorem unread_bind {p : Action α} (hp : Program.Uses (S := Service) Cmd.LeavesUsers p) {f : α → Thread}
    (hf : ∀ a, Unread env draws db u request (f a)) : Unread env draws db u request (p >>= f) := by
  induction p with
  | done a => exact hf a
  | call c next ih => exact unread_call hp.1 fun reply => ih reply (hp.2 reply)

theorem leavesUsers_redisOn {keys : Bytes → Prop} {p : Action α} (hp : Program.Uses (Cmd.RedisOn keys) p) :
    Program.Uses (S := Service) Cmd.LeavesUsers p := by
  refine hp.mono fun c hc => ?_
  cases c with
  | redis c => trivial
  | _ => exact hc.elim

/-- The failure of a check. -/
theorem unread_requireValid {f : Result α → Thread} {check : Except String Unit} {next : Action (Result α)}
    (hf : ∀ code message, Unread env draws db u request (f (.failWith code message)))
    (hnext : Unread env draws db u request (next >>= f)) :
    Unread env draws db u request (requireValid check next >>= f) := by
  cases check with
  | error message => exact hf _ message
  | ok _ => exact hnext

theorem unread_requireUuid {f : Result α → Thread} {userUuid : Bytes} {next : Action (Result α)}
    (hf : ∀ code message, Unread env draws db u request (f (.failWith code message)))
    (hnext : Unread env draws db u request (next >>= f)) :
    Unread env draws db u request (UserService.requireUuid userUuid next >>= f) := by
  unfold UserService.requireUuid
  split
  · exact hf _ _
  · exact hnext

/-- `Update`, and what follows it in the request. -/
theorem pending_update {row changed : UserEntity} {f : Result Unit → Thread} (huuid : changed.uuid = u.uuid)
    (haims : request.Aims env draws (UserDB.updateOf changed))
    (hfresh : request.Fresh env (UserDB.updateOf changed) row) (hfail : ∀ code message, Failed (f (.fail code message)))
    (hok : Written (f (.ok ()))) : Pending env draws u request row (UserDB.update changed >>= f) := by
  refine ⟨⟨huuid, haims, hfresh⟩, fun e => hfail _ _, hfail _ _, fun n hn => ?_⟩
  cases n with
  | zero => exact absurd rfl hn
  | succ n => exact hok

theorem unread_findByUUID {userUuid : Bytes} {f : Result UserEntity → Thread}
    (huuid : db.sameUuid u.uuid userUuid = true) (hfail : ∀ code message, Failed (f (.fail code message)))
    (hrow : ∀ row, row.uuid = u.uuid → AfterRead env draws u request row (f (.ok row))) :
    Unread env draws db u request (UserDB.findByUUID userUuid >>= f) :=
  ⟨huuid, fun _ => hfail _ _, hrow⟩

theorem unread_findByMobile {mobile : Bytes} {f : Result UserEntity → Thread} (hmobile : mobile = u.mobile)
    (hfail : ∀ code message, Failed (f (.fail code message)))
    (hrow : ∀ row, row.uuid = u.uuid → AfterRead env draws u request row (f (.ok row))) :
    Unread env draws db u request (UserDB.findByMobile mobile >>= f) :=
  ⟨hmobile, fun _ => hfail _ _, hrow⟩

/-- The result of the request is at hand. -/
abbrev answerWith (f : α → Answer) (r : Result α) : Thread := pure (.returned (r.map f))

theorem written_answer (f : α → Answer) (a : α) : Written (answerWith f (.ok a)) := ⟨trivial, rfl⟩

theorem unread_updateUser (userUuid : Bytes) (displayName : Option Bytes) (huuid : db.sameUuid u.uuid userUuid = true) :
    Unread env draws db u (.updateUser userUuid displayName)
      (UserService.updateUser userUuid displayName >>= answerWith .user) := by
  refine unread_requireUuid (fun _ _ => rfl) ?_
  rw [Program.bind_assoc]
  refine unread_findByUUID huuid (fun _ _ => ⟨_, rfl, rfl⟩) fun row hrow => ?_
  rw [orFail_ok]
  split
  · exact Or.inr rfl
  · rename_i henabled
    cases displayName with
    | none => exact Or.inl ⟨_, rfl, rfl, fun _ => rfl⟩
    | some name =>
        refine Or.inr ?_
        show Pending env draws u _ row (requireValid (isValidDisplayName name) _ >>= _)
        cases isValidDisplayName name with
        | error message => exact rfl
        | ok _ =>
            show Pending env draws u _ row ((UserDB.update _ >>= _) >>= _)
            rw [Program.bind_assoc]
            refine pending_update hrow ⟨rfl, ?_⟩ ⟨rfl, rfl, rfl⟩ (fun _ _ => ⟨_, rfl, rfl⟩) (written_answer _ _)
            simpa [UserDB.updateOf] using henabled

theorem unread_changePassword (userUuid oldPassword newPassword : Bytes)
    (huuid : db.sameUuid u.uuid userUuid = true) :
    Unread env draws db u (.changePassword userUuid oldPassword newPassword)
      (UserService.changePassword env draws userUuid oldPassword newPassword >>= answerWith fun _ => .nothing) := by
  refine unread_requireUuid (fun _ _ => rfl) (unread_requireValid (fun _ _ => rfl) ?_)
  refine unread_requireValid (fun _ _ => rfl) ?_
  split
  · exact rfl
  · rw [Program.bind_assoc]
    refine unread_findByUUID huuid (fun _ _ => ⟨_, rfl, rfl⟩) fun row hrow => Or.inr ?_
    rw [orFail_ok]
    split
    · exact rfl
    · rename_i henabled
      split
      · exact rfl
      · rename_i hverify
        show Pending env draws u _ row ((UserDB.update _ >>= _) >>= _)
        rw [Program.bind_assoc]
        refine pending_update hrow ⟨rfl, ?_⟩ ⟨rfl, rfl, rfl, not_not.mp hverify⟩ (fun _ _ => ⟨_, rfl, rfl⟩)
          (written_answer (fun _ => .nothing) ())
        simpa [UserDB.updateOf] using henabled

theorem unread_resetPassword (mobile verifyCode newPassword : Bytes) (hmobile : mobile = u.mobile) :
    Unread env draws db u (.resetPassword mobile verifyCode newPassword)
      (resetPassword env draws mobile verifyCode newPassword >>= answerWith fun _ => .nothing) := by
  refine unread_requireValid (fun _ _ => rfl) (unread_requireValid (fun _ _ => rfl) ?_)
  refine unread_requireValid (fun _ _ => rfl) ?_
  rw [Program.bind_assoc]
  refine unread_bind (leavesUsers_redisOn (uses_verifyCaptcha _ _ _ _)) fun r => ?_
  cases r with
  | fail code message => exact rfl
  | ok _ =>
      rw [orFail_ok, Program.bind_assoc]
      refine unread_findByMobile hmobile (fun code message => ?_) fun row hrow => Or.inr ?_
      · show Failed ((if code = .userNotFound then _ else _) >>= _)
        split <;> exact ⟨_, rfl, rfl⟩
      · show Pending env draws u _ row ((UserDB.update _ >>= _) >>= _)
        rw [Program.bind_assoc]
        refine pending_update hrow rfl ⟨rfl, rfl, rfl⟩ (fun _ _ => ⟨_, rfl, rfl⟩)
          ⟨⟨trivial, fun reply => ?_⟩, fun reply => ?_⟩
        · cases reply <;> exact ⟨trivial, fun reply => by cases reply <;> trivial⟩
        · cases reply <;> exact fun reply => by cases reply <;> rfl

theorem unread_setUserDisabled (userUuid : Bytes) (disabled : Bool) (huuid : db.sameUuid u.uuid userUuid = true) :
    Unread env draws db u (.setUserDisabled userUuid disabled)
      (UserService.setUserDisabled userUuid disabled >>= answerWith fun _ => .nothing) := by
  refine unread_requireUuid (fun _ _ => rfl) ?_
  rw [Program.bind_assoc]
  refine unread_findByUUID huuid (fun _ _ => ⟨_, rfl, rfl⟩) fun row hrow => ?_
  rw [orFail_ok]
  split
  · rename_i hsame
    exact Or.inl ⟨_, rfl, rfl, fun second => by rw [← hsame]; exact if_pos rfl⟩
  · refine Or.inr ?_
    show Pending env draws u _ row ((UserDB.update _ >>= _) >>= _)
    rw [Program.bind_assoc]
    refine pending_update hrow rfl ⟨rfl, rfl, rfl⟩ (fun _ _ => ⟨_, rfl, rfl⟩) ?_
    cases disabled with
    | false => exact written_answer (fun _ => .nothing) ()
    | true =>
        refine ⟨⟨trivial, fun reply => ?_⟩, fun reply => ?_⟩
        · cases reply <;> trivial
        · cases reply <;> exact rfl

theorem unread_deleteUser (userUuid verifyCode : Bytes) (huuid : db.sameUuid u.uuid userUuid = true) :
    Unread env draws db u (.deleteUser userUuid verifyCode)
      (UserService.deleteUser env userUuid verifyCode >>= answerWith fun _ => .nothing) := by
  refine unread_requireUuid (fun _ _ => rfl) (unread_requireValid (fun _ _ => rfl) ?_)
  rw [Program.bind_assoc]
  refine unread_findByUUID huuid (fun _ _ => ⟨_, rfl, rfl⟩) fun row hrow => Or.inr ?_
  rw [orFail_ok, Program.bind_assoc]
  refine pending_bind (leavesUsers_redisOn (uses_verifyCaptcha _ _ _ _)) fun r => ?_
  cases r with
  | fail code message => exact rfl
  | ok _ =>
      rw [orFail_ok, Program.bind_assoc]
      refine pending_bind (uses_deleteByUserId trivial) fun _ => ?_
      show Pending env draws u _ row ((UserDB.update _ >>= _) >>= _)
      rw [Program.bind_assoc]
      exact pending_update hrow rfl ⟨rfl, rfl, rfl⟩ (fun _ _ => ⟨_, rfl, rfl⟩) (written_answer (fun _ => .nothing) ())

/-- Every request on the row begins without knowing it. -/
theorem unread_handle (h : request.OnRow db u) : Unread env draws db u request (handle env draws request) := by
  cases request with
  | updateUser userUuid displayName => exact unread_updateUser userUuid displayName h
  | changePassword userUuid oldPassword newPassword => exact unread_changePassword userUuid oldPassword newPassword h
  | resetPassword mobile verifyCode newPassword => exact unread_resetPassword mobile verifyCode newPassword h
  | setUserDisabled userUuid disabled => exact unread_setUserDisabled userUuid disabled h
  | deleteUser userUuid verifyCode => exact unread_deleteUser userUuid verifyCode h
  | _ => exact h.elim

end Stages

/-- The table is `before`, the row of the user, `after`. Nobody else has his id, his UUID or his mobile. -/
structure RowAt (u row : UserEntity) (before after : List UserEntity) (db : Database) : Prop where
  users : db.users = before ++ row :: after
  id : row.id = u.id
  uuid : row.uuid = u.uuid
  mobile : row.mobile = u.mobile
  others : ∀ x ∈ before ++ after, x.id ≠ u.id ∧ db.uuidKey x.uuid ≠ db.uuidKey u.uuid ∧ x.mobile ≠ u.mobile

section Table

variable {u row : UserEntity} {before after : List UserEntity} {db db' : Database}

theorem RowAt.mem (h : RowAt u row before after db) : row ∈ db.users := by
  rw [h.users]
  exact List.mem_append_right _ List.mem_cons_self

theorem RowAt.keep (h : RowAt u row before after db) (husers : db'.users = db.users) (hkey : db'.uuidKey = db.uuidKey) :
    RowAt u row before after db' :=
  ⟨husers.trans h.users, h.id, h.uuid, h.mobile, by rw [hkey]; exact h.others⟩

/-- A lookup that only the row of the user answers finds it. -/
theorem RowAt.find (h : RowAt u row before after db) {p : UserEntity → Bool} (hrow : p row = true)
    (hothers : ∀ x ∈ before ++ after, p x = false) : db.users.find? p = some row := by
  rw [h.users, List.find?_append, List.find?_eq_none.mpr fun x hx => by
    rw [hothers x (List.mem_append_left _ hx)]; nofun]
  exact List.find?_cons_of_pos hrow

theorem RowAt.find_uuid (h : RowAt u row before after db) {uuid : Bytes} (huuid : db.sameUuid u.uuid uuid = true) :
    db.users.find? (db.sameUuid ·.uuid uuid) = some row := by
  have hkey : db.uuidKey u.uuid = db.uuidKey uuid := of_decide_eq_true huuid
  refine h.find ?_ fun x hx => ?_
  · rw [h.uuid]
    exact huuid
  · exact decide_eq_false fun heq => (h.others x hx).2.1 (heq.trans hkey.symm)

theorem RowAt.find_mobile (h : RowAt u row before after db) : db.users.find? (·.mobile = u.mobile) = some row :=
  h.find (decide_eq_true h.mobile) fun x hx => decide_eq_false (h.others x hx).2.2

/-- An update of the row. -/
theorem RowAt.update (h : RowAt u row before after db) {upd : UserUpdate} (huuid : upd.uuid = u.uuid) (second : Nat) :
    RowAt u (upd.write db second row) before after { db with users := db.users.map (upd.write db second) } ∧
      (upd.affected db = 0 → upd.write db second row = row) := by
  have hsame : db.sameUuid row.uuid upd.uuid = true := by
    rw [h.uuid, huuid]
    exact decide_eq_true rfl
  have hother : ∀ x ∈ before ++ after, upd.write db second x = x := by
    intro x hx
    rw [UserUpdate.write, if_neg]
    rintro ⟨hx', -⟩
    rw [huuid] at hx'
    exact (h.others x hx).2.1 (of_decide_eq_true hx')
  have hmap : ∀ l : List UserEntity, (∀ x ∈ l, x ∈ before ++ after) → l.map (upd.write db second) = l := by
    intro l hl
    exact (List.map_congr_left fun x hx => hother x (hl x hx)).trans (List.map_id l)
  have hfield : (upd.write db second row).id = row.id ∧ (upd.write db second row).uuid = row.uuid ∧
      (upd.write db second row).mobile = row.mobile := by
    rw [UserUpdate.write]
    split <;> exact ⟨rfl, rfl, rfl⟩
  refine ⟨⟨?_, hfield.1.trans h.id, hfield.2.1.trans h.uuid, hfield.2.2.trans h.mobile, h.others⟩, fun hzero => ?_⟩
  · show db.users.map _ = _
    rw [h.users, List.map_append, List.map_cons, hmap before fun x hx => List.mem_append_left _ hx,
      hmap after fun x hx => List.mem_append_right _ hx]
  · have hnone := List.countP_eq_zero.mp hzero row h.mem
    rw [UserUpdate.write, if_neg]
    exact fun hw => hnone (decide_eq_true hw)

/-- An update that is fresh does to the row what its request does alone. -/
theorem RowAt.serve (h : RowAt u row before after db) {env : Env} {draws : Draws} {request : Request} {upd : UserUpdate}
    (huuid : upd.uuid = u.uuid) (haims : request.Aims env draws upd) (hfresh : request.Fresh env upd row)
    (second : Nat) :
    RowAt u (request.rowAfter env draws second row) before after
        { db with users := db.users.map (upd.write db second) } ∧
      (upd.affected db = 0 → request.rowAfter env draws second row = row) := by
  have hsame : db.sameUuid row.uuid upd.uuid = true := by
    rw [h.uuid, huuid]
    exact decide_eq_true rfl
  rw [← write_of_fresh second haims hfresh hsame]
  exact h.update huuid second

end Table

/-- A command that does not touch the users. -/
theorem exec_leavesUsers {c : Cmd} (hc : c.LeavesUsers) {w : World} (hfaults : w.sqlFaults = []) :
    (exec c w).2.db.users = w.db.users ∧ (exec c w).2.db.uuidKey = w.db.uuidKey := by
  cases c with
  | now => exact ⟨rfl, rfl⟩
  | redis c =>
      rw [exec_redis_db]
      exact ⟨rfl, rfl⟩
  | sql s =>
      cases s with
      | deleteSessionsByUser userId =>
          show (w.execSql _).2.db.users = _ ∧ (w.execSql _).2.db.uuidKey = _
          rw [execSql_eq hfaults]
          exact ⟨rfl, rfl⟩
      | _ => exact hc.elim

section Runs

variable (env : Env) (requests : List (Draws × Request)) (u : UserEntity)

/-- The row after some of the requests have been served one after another, each at its second. -/
def serialRow (order : List (Nat × Nat)) (row : UserEntity) : UserEntity :=
  order.foldl (fun row e => match requests[e.2]? with
    | some (draws, request) => request.rowAfter env draws e.1 row
    | none => row) row

/-- The condition on a step: an update writes nothing back that has changed since it was read. -/
def WritesFresh (s : Concurrent) : Move Nat → Prop
  | .outside _ => True
  | .thread i =>
      match s.pending i, requests[i]? with
      | some (.sql (.updateUser upd)), some (_, request) =>
          ∀ row ∈ s.shared.db.users, row.id = u.id → request.Fresh env upd row
      | _, _ => True

instance (request : Request) (upd : UserUpdate) (row : UserEntity) : Decidable (request.Fresh env upd row) :=
  match request with
  | .updateUser _ _ | .changePassword _ _ _ | .resetPassword _ _ _ | .setUserDisabled _ _ | .deleteUser _ _ => by
      dsimp only [Request.Fresh]
      infer_instance
  | .sendVerifyCode _ _ | .register _ _ _ _ | .loginByPassword _ _ | .loginByCode _ _ | .refreshToken _ | .logout _
  | .logoutAll _ | .getUser _ | .cleanExpiredTokens => .isTrue trivial

instance (s : Concurrent) (m : Move Nat) : Decidable (WritesFresh env requests u s m) :=
  match m with
  | .outside _ => .isTrue trivial
  | .thread _ => by
      dsimp only [WritesFresh]
      split <;> infer_instance

/-- The row is what the accepted requests give when they are served one after another in some order. -/
def Serializable (s : Concurrent) (row : UserEntity) : Prop :=
  ∃ order : List (Nat × Nat), (order.map Prod.snd).Nodup ∧ (∀ i, i ∈ order.map Prod.snd ↔ acceptedAt s i = true) ∧
    row = serialRow env requests order u

/-- Where request `i` stands: it has not written and is not in the order, or it has its place there. -/
def Stands (uuidKey : Bytes → Bytes) (order : List (Nat × Nat)) (i : Nat) (p : Thread) : Prop :=
  (i ∉ order.map Prod.snd ∧ ∃ draws request, requests[i]? = some (draws, request) ∧
    (Unread env draws (Database.empty uuidKey) u request p ∨ ∃ row, Pending env draws u request row p)) ∨
  (i ∈ order.map Prod.snd ∧ Written p)

/-- The row is what the order gives, and every request stands where the order says. -/
structure Serial (before after : List UserEntity) (uuidKey : Bytes → Bytes) (order : List (Nat × Nat))
    (s : Concurrent) : Prop where
  row : RowAt u (serialRow env requests order u) before after s.shared.db
  key : s.shared.db.uuidKey = uuidKey
  faults : s.shared.sqlFaults = []
  nodup : (order.map Prod.snd).Nodup
  started : ∀ i ∈ order.map Prod.snd, i < s.threads.length
  stands : ∀ i p, s.threads[i]? = some p → Stands env requests u uuidKey order i p

variable {env requests u} {before after : List UserEntity} {uuidKey : Bytes → Bytes} {order : List (Nat × Nat)}
  {s : Concurrent} {i : Nat} {p p' : Thread} {w' : World}

theorem serialRow_snoc (order : List (Nat × Nat)) {second i : Nat} {draws : Draws} {request : Request}
    (hi : requests[i]? = some (draws, request)) (row : UserEntity) :
    serialRow env requests (order ++ [(second, i)]) row =
      request.rowAfter env draws second (serialRow env requests order row) := by
  simp [serialRow, hi]

/-- A step of request `i` that gives it no place in the order. -/
theorem Serial.step (h : Serial env requests u before after uuidKey order s)
    (hrow : RowAt u (serialRow env requests order u) before after w'.db) (hkey : w'.db.uuidKey = uuidKey)
    (hfaults : w'.sqlFaults = []) (hstands : Stands env requests u uuidKey order i p') :
    Serial env requests u before after uuidKey order ⟨w', s.threads.set i p'⟩ where
  row := hrow
  key := hkey
  faults := hfaults
  nodup := h.nodup
  started j hj := by
    rw [List.length_set]
    exact h.started j hj
  stands j q hq := by
    rcases System.getElem?_set_cases hq with ⟨rfl, rfl⟩ | ⟨-, hj⟩
    · exact hstands
    · exact h.stands j q hj

/-- A step by which request `i` gets its place in the order. -/
theorem Serial.commit (h : Serial env requests u before after uuidKey order s) {draws : Draws} {request : Request}
    (hi : requests[i]? = some (draws, request)) (hnew : i ∉ order.map Prod.snd) (hlt : i < s.threads.length)
    (second : Nat)
    (hrow : RowAt u (request.rowAfter env draws second (serialRow env requests order u)) before after w'.db)
    (hkey : w'.db.uuidKey = uuidKey) (hfaults : w'.sqlFaults = []) (hwritten : Written p') :
    Serial env requests u before after uuidKey (order ++ [(second, i)]) ⟨w', s.threads.set i p'⟩ where
  row := by
    rw [serialRow_snoc order hi]
    exact hrow
  key := hkey
  faults := hfaults
  nodup := by
    rw [List.map_append]
    exact h.nodup.append (List.nodup_singleton i) (by simpa using hnew)
  started j hj := by
    rw [List.length_set]
    rw [List.map_append, List.mem_append] at hj
    rcases hj with hj | hj
    · exact h.started j hj
    · rw [List.mem_singleton.mp hj]
      exact hlt
  stands j q hq := by
    rw [Stands, List.map_append, List.mem_append]
    rcases System.getElem?_set_cases hq with ⟨rfl, rfl⟩ | ⟨hne, hj⟩
    · exact Or.inr ⟨Or.inr (List.mem_singleton.mpr rfl), hwritten⟩
    · rcases h.stands j q hj with ⟨hout, hstage⟩ | ⟨hin, hw⟩
      · refine Or.inl ⟨?_, hstage⟩
        rintro (hin | hin)
        · exact hout hin
        · exact hne (List.mem_singleton.mp hin)
      · exact Or.inr ⟨Or.inl hin, hw⟩

theorem lt_of_getElem? {threads : List Thread} (hi : threads[i]? = some p) : i < threads.length :=
  (List.getElem?_eq_some_iff.mp hi).1

/-- A lookup reads the row. -/
theorem Serial.lookup (h : Serial env requests u before after uuidKey order s) (hi : s.threads[i]? = some p)
    {draws : Draws} {request : Request} (hreq : requests[i]? = some (draws, request)) (hout : i ∉ order.map Prod.snd)
    {next : Except SqlError (Option UserEntity) → Thread} (hafter : AfterLookup env draws u request next) :
    ∃ order', Serial env requests u before after uuidKey order'
      ⟨s.shared, s.threads.set i (next (.ok (some (serialRow env requests order u))))⟩ := by
  rcases hafter.2 _ h.row.uuid with ⟨o, hp, hok, hsame⟩ | hpending
  · refine ⟨_, h.commit hreq hout (lt_of_getElem? hi) (toTimeT s.shared.clock) ?_ h.key h.faults ?_⟩
    · rw [hsame]
      exact h.row
    · rw [hp]
      exact ⟨trivial, hok⟩
  · exact ⟨order, h.step h.row h.key h.faults (Or.inl ⟨hout, draws, request, hreq, Or.inr ⟨_, hpending⟩⟩)⟩

/-- An update writes the row. -/
theorem Serial.update (h : Serial env requests u before after uuidKey order s) {upd : UserUpdate}
    {next : Except SqlError Nat → Thread} (hi : s.threads[i]? = some (.call (.sql (.updateUser upd)) next))
    {draws : Draws} {request : Request} (hreq : requests[i]? = some (draws, request)) (hout : i ∉ order.map Prod.snd)
    {row : UserEntity} (hpending : Pending env draws u request row (.call (.sql (.updateUser upd)) next))
    (hguard : WritesFresh env requests u s (.thread i)) :
    ∃ order', Serial env requests u before after uuidKey order'
      ⟨(s.shared.execSql (.updateUser upd)).2, s.threads.set i (next (s.shared.execSql (.updateUser upd)).1)⟩ := by
  obtain ⟨⟨huuid, haims, -⟩, -, hnone, hsome⟩ := hpending
  have hfresh : request.Fresh env upd (serialRow env requests order u) := by
    have hnext : s.pending i = some (.sql (.updateUser upd)) := by
      rw [System.pending, hi]
      rfl
    simp only [WritesFresh, hnext, hreq] at hguard
    exact hguard _ h.row.mem h.row.id
  obtain ⟨hrow, hzero⟩ := h.row.serve huuid haims hfresh (toTimeT s.shared.clock)
  rw [execSql_eq h.faults]
  by_cases haffected : upd.affected s.shared.db = 0
  · obtain ⟨o, hp, hfail⟩ := hnone
    rw [show ((SqlStmt.updateUser upd).apply (toTimeT s.shared.clock) s.shared.db).1 = .ok (0 : Nat) from
      congrArg Except.ok haffected]
    refine ⟨order, h.step ?_ h.key h.faults (Or.inl ⟨hout, draws, request, hreq, Or.inr ⟨row, ?_⟩⟩)⟩
    · rw [hzero haffected] at hrow
      exact hrow
    · rw [hp]
      exact hfail
  · refine ⟨_, h.commit hreq hout (lt_of_getElem? hi) (toTimeT s.shared.clock) ?_ h.key h.faults
      (hsome _ haffected)⟩
    exact hrow

/-- **Step.** A command of request `i`. -/
theorem Serial.call (h : Serial env requests u before after uuidKey order s) {c : Cmd} {next : Service.Reply c → Thread}
    (hi : s.threads[i]? = some (.call c next)) (hguard : WritesFresh env requests u s (.thread i)) :
    ∃ order', Serial env requests u before after uuidKey order'
      ⟨(exec c s.shared).2, s.threads.set i (next (exec c s.shared).1)⟩ := by
  have hkeep : c.LeavesUsers → Stands env requests u uuidKey order i (next (exec c s.shared).1) →
      ∃ order', Serial env requests u before after uuidKey order'
        ⟨(exec c s.shared).2, s.threads.set i (next (exec c s.shared).1)⟩ := by
    intro hc hstands
    obtain ⟨husers, hkey⟩ := exec_leavesUsers hc h.faults
    exact ⟨order, h.step (h.row.keep husers hkey) (hkey.trans h.key) (exec_sqlFaults h.faults c) hstands⟩
  have hsame : ∀ uuid, (Database.empty uuidKey).sameUuid u.uuid uuid = true →
      s.shared.db.sameUuid u.uuid uuid = true := by
    intro uuid huuid
    rw [Database.sameUuid, h.key]
    exact huuid
  rcases h.stands i _ hi with ⟨hout, draws, request, hreq, hunread | ⟨row, hpending⟩⟩ | ⟨hin, hwritten⟩
  · have hstay : c.LeavesUsers → (∀ reply, Unread env draws (Database.empty uuidKey) u request (next reply)) → _ :=
      fun hc hnext => hkeep hc (Or.inl ⟨hout, draws, request, hreq, Or.inl (hnext _)⟩)
    cases c with
    | now => exact hstay hunread.1 hunread.2
    | redis c => exact hstay hunread.1 hunread.2
    | sql stmt =>
        cases stmt with
        | selectUserByUuid uuid =>
            obtain ⟨huuid, hafter⟩ := hunread
            have hexec : exec (.sql (.selectUserByUuid uuid)) s.shared =
                (.ok (some (serialRow env requests order u)), s.shared) := by
              show s.shared.execSql _ = _
              rw [execSql_eq h.faults, SqlStmt.apply, h.row.find_uuid (hsame uuid huuid)]
            rw [hexec]
            exact h.lookup hi hreq hout hafter
        | selectUserByMobile mobile =>
            obtain ⟨rfl, hafter⟩ := hunread
            have hexec : exec (.sql (.selectUserByMobile u.mobile)) s.shared =
                (.ok (some (serialRow env requests order u)), s.shared) := by
              show s.shared.execSql _ = _
              rw [execSql_eq h.faults, SqlStmt.apply, h.row.find_mobile]
            rw [hexec]
            exact h.lookup hi hreq hout hafter
        | deleteSessionsByUser userId => exact hstay hunread.1 hunread.2
        | _ => exact hunread.1.elim
  · have hstay : c.LeavesUsers → (∀ reply, Pending env draws u request row (next reply)) → _ :=
      fun hc hnext => hkeep hc (Or.inl ⟨hout, draws, request, hreq, Or.inr ⟨row, hnext _⟩⟩)
    cases c with
    | now => exact hstay hpending.1 hpending.2
    | redis c => exact hstay hpending.1 hpending.2
    | sql stmt =>
        cases stmt with
        | updateUser upd => exact h.update hi hreq hout hpending hguard
        | deleteSessionsByUser userId => exact hstay hpending.1 hpending.2
        | _ => exact hpending.1.elim
  · exact hkeep hwritten.1.1 (Or.inr ⟨hin, hwritten.1.2 _, hwritten.2 _⟩)

/-- **Run.** If every update of a schedule is fresh, the row is what the order gives, in every state. -/
theorem Serial.interleave {schedule : List (Move Nat)} (h : ∃ order, Serial env requests u before after uuidKey order s)
    (hguard : System.Meets exec passTime (WritesFresh env requests u) schedule s) :
    ∃ order, Serial env requests u before after uuidKey order (interleave schedule s) := by
  have hstep : ∀ (s : Concurrent) (m : Move Nat), (∃ order, Serial env requests u before after uuidKey order s) →
      WritesFresh env requests u s m →
      ∃ order, Serial env requests u before after uuidKey order (System.move exec passTime m s) := by
    rintro s m ⟨order, h⟩ hm
    rcases System.move_cases exec passTime m s with ⟨i, c, next, rfl, hi, hmove⟩ | ⟨delay, -, hmove⟩ | ⟨i, -, -, hmove⟩
    · rw [hmove]
      exact h.call hi hm
    · rw [hmove]
      exact ⟨order, ⟨h.row.keep rfl rfl, h.key, h.faults, h.nodup, h.started, h.stands⟩⟩
    · rw [hmove]
      exact ⟨order, h⟩
  exact System.play_invariant exec passTime hstep schedule s h hguard

/-- When all requests have returned, those in the order are the accepted ones. -/
theorem Serial.mem_iff (h : Serial env requests u before after uuidKey order s)
    (hdone : ∀ p ∈ s.threads, Program.next? p = none) (i : Nat) :
    i ∈ order.map Prod.snd ↔ acceptedAt s i = true := by
  have hstands := fun p => h.stands i p
  constructor
  · intro hin
    obtain ⟨p, hi⟩ : ∃ p, s.threads[i]? = some p := ⟨_, List.getElem?_eq_getElem (h.started i hin)⟩
    have hnone := hdone p (List.mem_of_getElem? hi)
    rcases hstands p hi with ⟨hout, -⟩ | ⟨-, hwritten⟩
    · exact absurd hin hout
    · cases p with
      | call c next => cases hnone
      | done o =>
          rw [acceptedAt, hi]
          exact hwritten.2
  · intro haccepted
    obtain ⟨p, hi, o, rfl, hok⟩ := accepted_of_acceptedAt haccepted
    rcases hstands _ hi with ⟨-, draws, request, -, hfailed | ⟨row, hfailed⟩⟩ | ⟨hin, -⟩
    · exact absurd hok (by rw [show o.isOk = false from hfailed]; nofun)
    · exact absurd hok (by rw [show o.isOk = false from hfailed]; nofun)
    · exact hin

end Runs

/-- The row of a user in a table. -/
theorem rowAt_of_mem {db : Database} (hdb : db.WellFormed) {u : UserEntity} (hu : u ∈ db.users) :
    ∃ before after, RowAt u u before after db := by
  obtain ⟨before, after, hsplit⟩ := List.append_of_mem hu
  have hother : ∀ {β : Type} (f : UserEntity → β), (db.users.map f).Nodup → ∀ x ∈ before ++ after, f x ≠ f u := by
    intro β f hnodup x hx heq
    rw [hsplit, List.map_append, List.map_cons, List.nodup_middle, List.nodup_cons, ← List.map_append] at hnodup
    exact hnodup.1 (heq ▸ List.mem_map_of_mem hx)
  exact ⟨before, after, hsplit, rfl, rfl, rfl, fun x hx =>
    ⟨hother _ hdb.id x hx, hother _ hdb.uuid x hx, hother _ hdb.mobile x hx⟩⟩

/-- **No lost update.** If no update writes back a column that has changed since it was read, the row that remains when
all requests have returned is what the accepted ones give in some order, one after another. -/
theorem row_serializable (env : Env) (requests : List (Draws × Request)) {w : World} {u : UserEntity}
    (hdb : w.db.WellFormed) (hu : u ∈ w.db.users) (hfaults : w.sqlFaults = [])
    (habout : ∀ r ∈ requests, r.2.OnRow w.db u) (schedule : List (Move Nat))
    (hguard : System.Meets exec passTime (WritesFresh env requests u) schedule ⟨w, requestThreads env requests⟩)
    (hdone : ∀ p ∈ (interleave schedule ⟨w, requestThreads env requests⟩).threads, Program.next? p = none) :
    ∃ row, (interleave schedule ⟨w, requestThreads env requests⟩).shared.db.users.find? (·.id = u.id) = some row ∧
      Serializable env requests u (interleave schedule ⟨w, requestThreads env requests⟩) row := by
  obtain ⟨before, after, hrow⟩ := rowAt_of_mem hdb hu
  have hstart : Serial env requests u before after w.db.uuidKey [] ⟨w, requestThreads env requests⟩ := by
    refine ⟨hrow, rfl, hfaults, List.nodup_nil, nofun, fun i p hi => Or.inl ⟨List.not_mem_nil, ?_⟩⟩
    have hi : (requests.map fun r => handle env r.1 r.2)[i]? = some p := hi
    rw [List.getElem?_map, Option.map_eq_some_iff] at hi
    obtain ⟨⟨draws, request⟩, hreq, rfl⟩ := hi
    exact ⟨draws, request, hreq, Or.inl (unread_handle (habout _ (List.mem_of_getElem? hreq)))⟩
  obtain ⟨order, hfinal⟩ := Serial.interleave ⟨[], hstart⟩ hguard
  refine ⟨_, hfinal.row.find (decide_eq_true hfinal.row.id) fun x hx => ?_, order, hfinal.nodup,
    hfinal.mem_iff hdone, rfl⟩
  exact decide_eq_false (hfinal.row.others x hx).1

section Alone

variable {env : Env} {draws : Draws} {request : Request} {u row : UserEntity} {before after : List UserEntity}

theorem alone_written {p : Thread} (hp : Written p) {w : World} (hrow : RowAt u row before after w.db)
    (hfaults : w.sqlFaults = []) : RowAt u row before after (Program.run exec p w).2.db := by
  have hkeep : RowAt u row before after (Program.run exec p w).2.db ∧ (Program.run exec p w).2.sqlFaults = [] := by
    have hinv : ∀ c : Cmd, c.LeavesUsers → ∀ w : World, RowAt u row before after w.db ∧ w.sqlFaults = [] →
        RowAt u row before after (exec c w).2.db ∧ (exec c w).2.sqlFaults = [] := by
      rintro c hc w ⟨hrow, hfaults⟩
      obtain ⟨husers, hkey⟩ := exec_leavesUsers hc hfaults
      exact ⟨hrow.keep husers hkey, exec_sqlFaults hfaults c⟩
    exact Program.run_invariant exec hinv hp.1 ⟨hrow, hfaults⟩
  exact hkeep.1

theorem alone_pending {p : Thread} (hp : Pending env draws u request row p) {w : World}
    (hrow : RowAt u row before after w.db) (hfaults : w.sqlFaults = [])
    (hok : (Program.run exec p w).1.isOk = true) :
    RowAt u (request.rowAfter env draws (toTimeT w.clock) row) before after (Program.run exec p w).2.db := by
  induction p generalizing w with
  | done o => exact absurd hok (by rw [show (Program.run exec (.done o) w).1.isOk = false from hp]; nofun)
  | call c next ih =>
      have hstay : c.LeavesUsers → (∀ reply, Pending env draws u request row (next reply)) →
          RowAt u (request.rowAfter env draws (toTimeT w.clock) row) before after
            (Program.run exec (.call c next) w).2.db := by
        intro hc hnext
        obtain ⟨husers, hkey⟩ := exec_leavesUsers hc hfaults
        have h := ih _ (hnext _) (hrow.keep husers hkey) (exec_sqlFaults hfaults c) hok
        rw [exec_clock] at h
        exact h
      cases c with
      | now => exact hstay hp.1 hp.2
      | redis c => exact hstay hp.1 hp.2
      | sql s =>
          cases s with
          | updateUser upd =>
              obtain ⟨⟨huuid, haims, hfresh⟩, -, hnone, hsome⟩ := hp
              have hwrite := (hrow.serve huuid haims hfresh (toTimeT w.clock)).1
              have hexec : exec (.sql (.updateUser upd)) w = w.execSql (.updateUser upd) := rfl
              rw [Program.run_call, hexec, execSql_eq hfaults] at hok ⊢
              by_cases haffected : upd.affected w.db = 0
              · obtain ⟨o, hdone, hfail⟩ := hnone
                have hreply : ((SqlStmt.updateUser upd).apply (toTimeT w.clock) w.db).1 = .ok (0 : Nat) :=
                  congrArg Except.ok haffected
                rw [hreply, hdone] at hok
                exact absurd hok (by rw [show (Program.run exec (.done o) _).1.isOk = false from hfail]; nofun)
              · exact alone_written (hsome _ haffected) hwrite hfaults
          | deleteSessionsByUser userId => exact hstay hp.1 hp.2
          | _ => exact hp.1.elim

theorem alone_lookup {next : Except SqlError (Option UserEntity) → Thread} (h : AfterLookup env draws u request next)
    {w : World} (hrow : RowAt u row before after w.db) (hfaults : w.sqlFaults = [])
    (hok : (Program.run exec (next (.ok (some row))) w).1.isOk = true) :
    RowAt u (request.rowAfter env draws (toTimeT w.clock) row) before after
      (Program.run exec (next (.ok (some row))) w).2.db := by
  rcases h.2 row hrow.uuid with ⟨o, hp, -, hsame⟩ | hpending
  · rw [hp, hsame]
    exact hrow
  · exact alone_pending hpending hrow hfaults hok

theorem alone_unread {p : Thread} {db : Database} (hp : Unread env draws db u request p) {w : World}
    (hdb : w.db.uuidKey = db.uuidKey) (hrow : RowAt u row before after w.db) (hfaults : w.sqlFaults = [])
    (hok : (Program.run exec p w).1.isOk = true) :
    RowAt u (request.rowAfter env draws (toTimeT w.clock) row) before after (Program.run exec p w).2.db := by
  induction p generalizing w with
  | done o => exact absurd hok (by rw [show (Program.run exec (.done o) w).1.isOk = false from hp]; nofun)
  | call c next ih =>
      have hstay : c.LeavesUsers → (∀ reply, Unread env draws db u request (next reply)) →
          RowAt u (request.rowAfter env draws (toTimeT w.clock) row) before after
            (Program.run exec (.call c next) w).2.db := by
        intro hc hnext
        obtain ⟨husers, hkey⟩ := exec_leavesUsers hc hfaults
        have h := ih _ (hnext _) (hkey.trans hdb) (hrow.keep husers hkey) (exec_sqlFaults hfaults c) hok
        rw [exec_clock] at h
        exact h
      cases c with
      | now => exact hstay hp.1 hp.2
      | redis c => exact hstay hp.1 hp.2
      | sql s =>
          cases s with
          | selectUserByUuid uuid =>
              obtain ⟨huuid, hafter⟩ := hp
              rw [Database.sameUuid, ← hdb] at huuid
              have hexec : exec (.sql (.selectUserByUuid uuid)) w = (.ok (some row), w) := by
                show w.execSql _ = _
                rw [execSql_eq hfaults, SqlStmt.apply, hrow.find_uuid huuid]
              rw [Program.run_call, hexec] at hok ⊢
              exact alone_lookup hafter hrow hfaults hok
          | selectUserByMobile mobile =>
              obtain ⟨rfl, hafter⟩ := hp
              have hexec : exec (.sql (.selectUserByMobile u.mobile)) w = (.ok (some row), w) := by
                show w.execSql _ = _
                rw [execSql_eq hfaults, SqlStmt.apply, hrow.find_mobile]
              rw [Program.run_call, hexec] at hok ⊢
              exact alone_lookup hafter hrow hfaults hok
          | deleteSessionsByUser userId => exact hstay hp.1 hp.2
          | _ => exact hp.1.elim

/-- What `rowAfter` says is what the code does: a request that is served alone and returns `Ok` leaves that row. -/
theorem row_alone (env : Env) (draws : Draws) {request : Request} {w : World} {u : UserEntity} (hdb : w.db.WellFormed)
    (hu : u ∈ w.db.users) (hfaults : w.sqlFaults = []) (habout : request.OnRow w.db u)
    (hok : ((handle env draws request).run w).1.isOk = true) :
    ((handle env draws request).run w).2.db.users.find? (·.id = u.id) =
      some (request.rowAfter env draws (toTimeT w.clock) u) := by
  obtain ⟨before, after, hrow⟩ := rowAt_of_mem hdb hu
  have hfinal := alone_unread (unread_handle habout) rfl hrow hfaults hok
  exact hfinal.find (decide_eq_true hfinal.id) fun x hx => decide_eq_false (hfinal.others x hx).1

end Alone

/-- A change of the display name, and the account is disabled. -/
def rivals : List (Draws × Request) :=
  [(earlierDraws, .updateUser sampleUser.uuid (some (ascii "B"))),
    (earlierDraws, .setUserDisabled sampleUser.uuid true)]

/-- `UpdateUser` reads the row, the account is disabled, and `UpdateUser` writes the row. -/
def losingSchedule : List (Move Nat) := [.thread 0, .thread 1, .thread 1, .thread 1, .thread 0]

/-- Served in any order, the two requests leave a disabled account. -/
theorem serialRow_rivals (order : List (Nat × Nat)) (row : UserEntity)
    (h : row.disabled = true ∨ 1 ∈ order.map Prod.snd) : (serialRow defaultEnv rivals order row).disabled = true := by
  induction order generalizing row with
  | nil => exact h.resolve_right List.not_mem_nil
  | cons e rest ih =>
      obtain ⟨second, i⟩ := e
      refine ih _ ?_
      rw [List.map_cons, List.mem_cons] at h
      match i with
      | 0 =>
          refine h.imp (fun hrow => ?_) fun h => h.resolve_left Nat.one_ne_zero
          simp [rivals, Request.rowAfter, Request.change, hrow]
      | 1 =>
          refine Or.inl ?_
          simp only [rivals, Request.rowAfter, Request.change, List.getElem?_cons_succ, List.getElem?_cons_zero]
          split
          · rename_i hsame
            rw [← hsame]
          · rfl
      | i + 2 => exact h.imp id fun h => h.resolve_left (by simp)

theorem name_change_enables :
    (∀ p ∈ (interleave losingSchedule ⟨oneUser, requestThreads defaultEnv rivals⟩).threads, Program.next? p = none) ∧
      ∃ row, (interleave losingSchedule ⟨oneUser, requestThreads defaultEnv rivals⟩).shared.db.users.find? (·.id = 1) =
          some row ∧
        ¬Serializable defaultEnv rivals sampleUser
          (interleave losingSchedule ⟨oneUser, requestThreads defaultEnv rivals⟩) row := by
  refine ⟨by decide +kernel, _, rfl, ?_⟩
  rintro ⟨order, -, hmem, hrow⟩
  have hdisabled := serialRow_rivals order
    sampleUser
    (Or.inr ((hmem 1).mpr (by decide +kernel)))
  rw [← hrow] at hdisabled
  exact absurd hdisabled (by decide +kernel)

/-- One request after the other. -/
def patientSchedule : List (Move Nat) := [.thread 0, .thread 0, .thread 1, .thread 1, .thread 1]

theorem row_serializable_sample :
    ∃ row, (interleave patientSchedule ⟨oneUser, requestThreads defaultEnv rivals⟩).shared.db.users.find? (·.id = 1) =
        some row ∧
      Serializable defaultEnv rivals sampleUser
        (interleave patientSchedule ⟨oneUser, requestThreads defaultEnv rivals⟩) row := by
  have hguard : System.Meets exec passTime (WritesFresh defaultEnv rivals sampleUser) patientSchedule
      ⟨oneUser, requestThreads defaultEnv rivals⟩ := by
    decide +kernel
  refine row_serializable defaultEnv rivals oneUser_wellFormed List.mem_cons_self rfl ?_ patientSchedule hguard
    (by decide +kernel)
  intro r hr
  simp only [rivals, List.mem_cons, List.not_mem_nil, or_false] at hr
  rcases hr with rfl | rfl <;> rfl

end AccountService
