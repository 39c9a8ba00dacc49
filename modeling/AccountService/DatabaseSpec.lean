import AccountService.LibraryTable
import AccountService.RepositorySpec

/-! The constraints of the schema: unique keys, ids that grow, and sessions that belong to a user. Every
statement keeps them. -/

namespace AccountService

open Interaction Table

/-- The constraints. -/
structure Database.WellFormed (db : Database) : Prop where
  mobile : Unique (·.mobile) db.users
  uuid : Unique (fun u => db.uuidKey u.uuid) db.users
  id : Unique (·.id) db.users
  next : 0 < db.nextUserId ∧ db.nextUserId ≤ 2 ^ 63
  idBelow : ∀ u ∈ db.users, 0 < u.id ∧ u.id < db.nextUserId
  hash : Unique (·.tokenHash) db.sessions
  owner : ∀ r ∈ db.sessions, ∃ u ∈ db.users, u.id = r.userId

namespace UserUpdate

variable (u : UserUpdate) (db : Database) (second : Nat) (row : UserEntity)

@[simp] theorem write_id : (u.write db second row).id = row.id := by
  unfold write
  split <;> rfl

@[simp] theorem write_uuid : (u.write db second row).uuid = row.uuid := by
  unfold write
  split <;> rfl

@[simp] theorem write_mobile : (u.write db second row).mobile = row.mobile := by
  unfold write
  split <;> rfl

end UserUpdate

theorem Database.WellFormed.apply {db : Database} (h : db.WellFormed) (second : Nat) (s : SqlStmt) :
    (s.apply second db).2.WellFormed := by
  cases s with
  | selectUserById _ | selectUserByUuid _ | selectUserByMobile _ | existsMobile _ | countUsers _
  | selectUsers _ _ _ | selectValidSession _ | countActiveSessions _ => exact h
  | insertUser uuid mobile displayName passwordHash role =>
      simp only [SqlStmt.apply]
      split
      · exact h
      · rename_i huuid
        split
        · exact h
        · rename_i hmobile
          split
          · exact h
          · rename_i hroom
            have hnext := h.next
            refine ⟨h.mobile.insert ?_, h.uuid.insert ?_, h.id.insert ?_, ?_, ?_, h.hash, ?_⟩
            · simpa using hmobile
            · simpa [Database.sameUuid] using huuid
            · intro r hr
              exact (h.idBelow r hr).2.ne
            · show 0 < db.nextUserId + 1 ∧ db.nextUserId + 1 ≤ 2 ^ 63
              omega
            · intro u hu
              rcases List.mem_append.mp hu with hu | hu
              · have := h.idBelow u hu
                show 0 < u.id ∧ u.id < ((db.nextUserId + 1 : Nat) : Int)
                omega
              · obtain rfl := List.mem_singleton.mp hu
                show 0 < (db.nextUserId : Int) ∧ (db.nextUserId : Int) < ((db.nextUserId + 1 : Nat) : Int)
                omega
            · intro r hr
              obtain ⟨u, hu, hid⟩ := h.owner r hr
              exact ⟨u, List.mem_append_left _ hu, hid⟩
  | updateUser u =>
      refine ⟨h.mobile.map fun _ => by simp, h.uuid.map fun _ => by simp, h.id.map fun _ => by simp, h.next, ?_,
        h.hash, ?_⟩
      · intro x hx
        obtain ⟨row, hrow, rfl⟩ := List.mem_map.mp hx
        rw [UserUpdate.write_id]
        exact h.idBelow row hrow
      · intro r hr
        obtain ⟨row, hrow, hid⟩ := h.owner r hr
        exact ⟨_, List.mem_map_of_mem hrow, by rw [UserUpdate.write_id, hid]⟩
  | insertSession userId tokenHash expiresAt =>
      simp only [SqlStmt.apply]
      split
      · exact h
      · rename_i hhash
        split
        · exact h
        · rename_i howner
          refine ⟨h.mobile, h.uuid, h.id, h.next, h.idBelow, h.hash.insert (by simpa using hhash), ?_⟩
          intro r hr
          rcases List.mem_append.mp hr with hr | hr
          · exact h.owner r hr
          · obtain rfl := List.mem_singleton.mp hr
            simpa using howner
  | deleteSessionByHash _ | deleteSessionsByUser _ | deleteExpiredSessions =>
      exact ⟨h.mobile, h.uuid, h.id, h.next, h.idBelow, h.hash.filter _, fun r hr =>
        h.owner r (List.mem_of_mem_filter hr)⟩

theorem Database.wellFormed_empty (uuidKey : Bytes → Bytes) : (Database.empty uuidKey).WellFormed where
  mobile := unique_nil
  uuid := unique_nil
  id := unique_nil
  next := (by decide : 0 < 1 ∧ 1 ≤ 2 ^ 63)
  idBelow _ hu := absurd hu List.not_mem_nil
  hash := unique_nil
  owner _ hr := absurd hr List.not_mem_nil

/-- What a statement preserves, a command preserves. -/
theorem exec_db_invariant {I : Database → Prop} {P : Cmd → Prop}
    (hInv : ∀ s, P (.sql s) → ∀ second db, I db → I (s.apply second db).2) (c : Cmd) (hc : P c)
    (w : World) (hw : I w.db) : I (exec c w).2.db := by
  cases c with
  | now => exact hw
  | redis c =>
      rw [exec_redis_db]
      exact hw
  | sql s =>
      rcases execSql_cases w s with ⟨-, hdb⟩ | ⟨-, hdb⟩
      · exact hdb ▸ hw
      · exact hdb ▸ hInv s hc _ _ hw

/-- **Invariant.** What the statements of a program preserve holds of the database after its run. -/
theorem run_db_invariant {α : Type} {I : Database → Prop} {P : Cmd → Prop}
    (hInv : ∀ s, P (.sql s) → ∀ second db, I db → I (s.apply second db).2) {p : Action α}
    (hp : Program.Uses P p) {w : World} (hw : I w.db) : I (Program.run exec p w).2.db :=
  Program.run_invariant (I := fun w => I w.db) exec (exec_db_invariant hInv) hp hw

theorem run_wellFormed {α : Type} (p : Action α) {w : World} (h : w.db.WellFormed) :
    (Program.run exec p w).2.db.WellFormed :=
  run_db_invariant (fun s _ second _ hdb => hdb.apply second s) (Program.uses_true p) h

/-- The row that `INSERT INTO users` writes. -/
def Database.newUser (db : Database) (second : Nat) (uuid mobile displayName passwordHash : Bytes)
    (role : UserRole) : UserEntity where
  id := db.nextUserId
  uuid := uuid
  mobile := mobile
  displayName := displayName
  passwordHash := passwordHash
  role := role
  createdAt := second
  updatedAt := second

/-- An insertion fails and changes nothing, or appends a row whose uuid and mobile are new. -/
theorem apply_insertUser (second : Nat) (db : Database) (uuid mobile displayName passwordHash : Bytes)
    (role : UserRole) :
    (∃ e, (SqlStmt.insertUser uuid mobile displayName passwordHash role).apply second db = (.error e, db)) ∨
      ((∀ r ∈ db.users, db.uuidKey r.uuid ≠ db.uuidKey uuid) ∧ (∀ r ∈ db.users, r.mobile ≠ mobile) ∧
        (SqlStmt.insertUser uuid mobile displayName passwordHash role).apply second db =
          (.ok (), { db with
            users := db.users ++ [db.newUser second uuid mobile displayName passwordHash role]
            nextUserId := db.nextUserId + 1 })) := by
  by_cases huuid : db.users.any (db.sameUuid ·.uuid uuid) = true
  · refine Or.inl ⟨.duplicateKey .ukUuid, ?_⟩
    simp only [SqlStmt.apply, if_pos huuid]
  · by_cases hmobile : db.users.any (·.mobile = mobile) = true
    · refine Or.inl ⟨.duplicateKey .ukMobile, ?_⟩
      simp only [SqlStmt.apply, if_neg huuid, if_pos hmobile]
    · by_cases hroom : 2 ^ 63 ≤ db.nextUserId
      · refine Or.inl ⟨.other, ?_⟩
        simp only [SqlStmt.apply, if_neg huuid, if_neg hmobile, if_pos hroom]
      · refine Or.inr ⟨by simpa [Database.sameUuid] using huuid, by simpa using hmobile, ?_⟩
        simp only [SqlStmt.apply, if_neg huuid, if_neg hmobile, if_neg hroom]
        rfl

/-- A user after a statement that inserts none was there before, with the same keys. -/
theorem SqlStmt.apply_users_origin {s : SqlStmt} (h : s.kind ≠ .insertUser) {second : Nat} {db : Database}
    {row : UserEntity} (hrow : row ∈ (s.apply second db).2.users) :
    ∃ old ∈ db.users, row.id = old.id ∧ row.uuid = old.uuid ∧ row.mobile = old.mobile := by
  cases s with
  | insertUser _ _ _ _ _ => exact absurd rfl h
  | updateUser u =>
      obtain ⟨old, hold, rfl⟩ := List.mem_map.mp hrow
      exact ⟨old, hold, by simp⟩
  | insertSession userId tokenHash expiresAt =>
      simp only [apply] at hrow
      split at hrow
      · exact ⟨row, hrow, rfl, rfl, rfl⟩
      · split at hrow <;> exact ⟨row, hrow, rfl, rfl, rfl⟩
  | _ => exact ⟨row, hrow, rfl, rfl, rfl⟩

/-- The collation does not change. -/
@[simp] theorem SqlStmt.apply_uuidKey (s : SqlStmt) (second : Nat) (db : Database) :
    (s.apply second db).2.uuidKey = db.uuidKey := by
  cases s with
  | insertUser uuid mobile displayName passwordHash role =>
      rcases apply_insertUser second db uuid mobile displayName passwordHash role with ⟨e, he⟩ | ⟨-, -, he⟩ <;>
        rw [he]
  | insertSession userId tokenHash expiresAt =>
      simp only [apply]
      split
      · rfl
      · split <;> rfl
  | _ => rfl

/-- A session after a statement was there before, or the statement has inserted it. -/
theorem SqlStmt.apply_sessions_origin {s : SqlStmt} {second : Nat} {db : Database} {r : TokenSession}
    (h : r ∈ (s.apply second db).2.sessions) :
    r ∈ db.sessions ∨ s = .insertSession r.userId r.tokenHash r.expiresAt := by
  cases s with
  | insertUser uuid mobile displayName passwordHash role =>
      rcases apply_insertUser second db uuid mobile displayName passwordHash role with ⟨e, he⟩ | ⟨-, -, he⟩ <;>
      · rw [he] at h
        exact Or.inl h
  | insertSession userId tokenHash expiresAt =>
      simp only [apply] at h
      split at h
      · exact Or.inl h
      · split at h
        · exact Or.inl h
        · rcases List.mem_append.mp h with h | h
          · exact Or.inl h
          · obtain rfl := List.mem_singleton.mp h
            exact Or.inr rfl
  | deleteSessionByHash _ | deleteSessionsByUser _ | deleteExpiredSessions =>
      exact Or.inl (List.mem_of_mem_filter h)
  | _ => exact Or.inl h

/-- The command does not write to `users`. -/
def Cmd.KeepsUsers : Cmd → Prop
  | .sql (.insertUser _ _ _ _ _) | .sql (.updateUser _) => False
  | _ => True

theorem SqlStmt.apply_users {s : SqlStmt} (h : Cmd.KeepsUsers (.sql s)) (second : Nat) (db : Database) :
    (s.apply second db).2.users = db.users ∧ (s.apply second db).2.uuidKey = db.uuidKey := by
  cases s with
  | insertUser _ _ _ _ _ | updateUser _ => cases h
  | insertSession userId tokenHash expiresAt =>
      simp only [apply]
      split
      · exact ⟨rfl, rfl⟩
      · split <;> exact ⟨rfl, rfl⟩
  | _ => exact ⟨rfl, rfl⟩

theorem run_users {α : Type} {p : Action α} (hp : Program.Uses Cmd.KeepsUsers p) (w : World) :
    (Program.run exec p w).2.db.users = w.db.users ∧
      (Program.run exec p w).2.db.uuidKey = w.db.uuidKey := by
  refine run_db_invariant (I := fun db => db.users = w.db.users ∧ db.uuidKey = w.db.uuidKey) ?_ hp
    ⟨rfl, rfl⟩
  intro s hs second db hdb
  obtain ⟨husers, hkey⟩ := SqlStmt.apply_users hs second db
  rw [husers, hkey]
  exact hdb

/-- `Update` fails and changes nothing, or writes the rows of the uuid; it succeeds if a row changes. -/
theorem run_update (user : UserEntity) (w : World) :
    (((Program.run exec (UserDB.update user) w).1.isOk = false ∧
        (Program.run exec (UserDB.update user) w).2.db = w.db) ∨
      ((Program.run exec (UserDB.update user) w).2.db =
          { w.db with
            users := w.db.users.map ((UserDB.updateOf user).write w.db (toTimeT w.clock)) } ∧
        ((Program.run exec (UserDB.update user) w).1.isOk = true ↔
          (UserDB.updateOf user).affected w.db ≠ 0))) := by
  simp only [UserDB.update, Program.run_bind]
  rcases run_sqlCall (.updateUser (UserDB.updateOf user)) w with ⟨-, h⟩ | ⟨-, h⟩
  · rw [h]
    exact Or.inl ⟨rfl, rfl⟩
  · rw [h]
    refine Or.inr ?_
    simp only [SqlStmt.apply, Result.ofSql]
    split
    · exact ⟨rfl, by simp [failPlain, *]⟩
    · exact ⟨rfl, by simp [Result.isOk, *]⟩

/-- A write changes a row exactly when the row of the user does not hold the new values. -/
theorem affected_iff {db : Database} {user changed : UserEntity} (hdb : db.WellFormed) (huser : user ∈ db.users)
    (hsame : changed.uuid = user.uuid) :
    (UserDB.updateOf changed).affected db ≠ 0 ↔ ¬(UserDB.updateOf changed).Holds user := by
  rw [UserUpdate.affected, Nat.ne_zero_iff_zero_lt, List.countP_pos_iff]
  constructor
  · rintro ⟨row, hrow, hchanges⟩
    obtain ⟨hkey, hnot⟩ := of_decide_eq_true hchanges
    have hkey : db.uuidKey row.uuid = db.uuidKey user.uuid := by
      simpa [Database.sameUuid, UserDB.updateOf, hsame] using hkey
    obtain rfl : row = user := hdb.uuid.eq_of_key hrow huser hkey
    exact hnot
  · intro hnot
    exact ⟨user, huser, decide_eq_true ⟨by simp [Database.sameUuid, UserDB.updateOf, hsame], hnot⟩⟩

end AccountService
