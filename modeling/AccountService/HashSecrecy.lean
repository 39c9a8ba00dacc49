import AccountService.CaptchaSpec
import AccountService.DatabaseSpec
import AccountService.LibraryLog
import AccountService.LibraryRelational
import AccountService.ModelCalls
import AccountService.Pagination

/-! The stored password hashes do not show in what the user service answers. An entity carries its hash
from the lookup to the update that writes the row back, and every answer is cleared of it; two runs over
tables that differ in the hashes alone therefore answer alike, and every hash stays where it is. -/

namespace AccountService

open Interaction Table

/-- The hash of every user. -/
def World.hashes (w : World) : List (Int × Bytes) := w.db.users.map fun u => (u.id, u.passwordHash)

/-- Equal but for the values of `password_hash`. -/
structure SameButHashes (s t : World) : Prop where
  clock : s.clock = t.clock
  redis : s.redis = t.redis
  redisFaults : s.redisFaults = t.redisFaults
  sqlFaults : s.sqlFaults = t.sqlFaults
  users : s.db.users.map UserEntity.cleared = t.db.users.map UserEntity.cleared
  nextUserId : s.db.nextUserId = t.db.nextUserId
  sessions : s.db.sessions = t.db.sessions
  nextSessionId : s.db.nextSessionId = t.db.nextSessionId
  uuidKey : s.db.uuidKey = t.db.uuidKey

/-- Two runs side by side: `hs` and `ht` are the hashes they started with. -/
structure Coupled (hs ht : List (Int × Bytes)) (s t : World) : Prop where
  same : SameButHashes s t
  wellFormed : s.db.WellFormed
  wellFormed' : t.db.WellFormed
  hashes : s.hashes = hs
  hashes' : t.hashes = ht

/-- The results are equal and the worlds still coupled. -/
def SameAnswer (hs ht : List (Int × Bytes)) {α : Type} (a b : α) (s t : World) : Prop := a = b ∧ Coupled hs ht s t

/-- The rows of the two tables that a lookup has returned. -/
def CoupledAt (hs ht : List (Int × Bytes)) (a b : UserEntity) (s t : World) : Prop :=
  a ∈ s.db.users ∧ b ∈ t.db.users ∧ Coupled hs ht s t

section Lists

variable {l l' : List UserEntity} (h : l.map UserEntity.cleared = l'.map UserEntity.cleared)

include h

theorem find_cleared {p : UserEntity → Bool} (hp : ∀ u, p u.cleared = p u) :
    (l.find? p).map UserEntity.cleared = (l'.find? p).map UserEntity.cleared := by
  have hcomp : p ∘ UserEntity.cleared = p := funext hp
  have hfind := congrArg (List.find? p) h
  rwa [List.find?_map, List.find?_map, hcomp] at hfind

theorem filter_cleared {p : UserEntity → Bool} (hp : ∀ u, p u.cleared = p u) :
    (l.filter p).map UserEntity.cleared = (l'.filter p).map UserEntity.cleared := by
  have hcomp : p ∘ UserEntity.cleared = p := funext hp
  have hfilter := congrArg (List.filter p) h
  rwa [List.filter_map, List.filter_map, hcomp] at hfilter

theorem countP_cleared {p q : UserEntity → Bool} (hpq : ∀ u ∈ l, p u = q u.cleared)
    (hpq' : ∀ u ∈ l', p u = q u.cleared) : l.countP p = l'.countP p := by
  calc l.countP p = (l.map UserEntity.cleared).countP q := by
        rw [List.countP_map]
        exact List.countP_congr fun u hu => by rw [Function.comp_apply, hpq u hu]
    _ = (l'.map UserEntity.cleared).countP q := by rw [h]
    _ = l'.countP p := by
        rw [List.countP_map]
        exact List.countP_congr fun u hu => by rw [Function.comp_apply, hpq' u hu]

theorem unique_cleared {κ : Type} {key : UserEntity → κ} (hkey : ∀ u, key u.cleared = key u)
    (hl : Unique key l) : Unique key l' := by
  have hcomp : key ∘ UserEntity.cleared = key := funext hkey
  have hmap := congrArg (List.map key) h
  rw [List.map_map, List.map_map, hcomp] at hmap
  rwa [Table.Unique, ← hmap]

theorem exists_cleared {u : UserEntity} (hu : u ∈ l') : ∃ v ∈ l, v.cleared = u.cleared := by
  have hmem : u.cleared ∈ l.map UserEntity.cleared := h ▸ List.mem_map_of_mem hu
  exact List.mem_map.mp hmem

end Lists

/-- The constraints do not read the hashes. -/
theorem SameButHashes.wellFormed {s t : World} (h : SameButHashes s t) (hs : s.db.WellFormed) :
    t.db.WellFormed where
  mobile := unique_cleared h.users (fun _ => rfl) hs.mobile
  uuid := by
    rw [← h.uuidKey]
    exact unique_cleared h.users (fun _ => rfl) hs.uuid
  id := unique_cleared h.users (fun _ => rfl) hs.id
  next := h.nextUserId ▸ hs.next
  idBelow u hu := by
    obtain ⟨v, hv, hclear⟩ := exists_cleared h.users hu
    have hsame : v.cleared.id = u.cleared.id := by rw [hclear]
    have hid : v.id = u.id := hsame
    rw [← hid, ← h.nextUserId]
    exact hs.idBelow v hv
  hash := h.sessions ▸ hs.hash
  owner r hr := by
    obtain ⟨u, hu, hid⟩ := hs.owner r (h.sessions ▸ hr)
    obtain ⟨v, hv, hclear⟩ := exists_cleared h.users.symm hu
    have hsame : v.cleared.id = u.cleared.id := by rw [hclear]
    exact ⟨v, hv, hsame.trans hid⟩

namespace UserUpdate

variable (u : UserUpdate) (db : Database) (second : Nat) (row : UserEntity)

/-- The row already holds what the update writes, the hash left aside. -/
def HoldsPublic : Prop := row.displayName = u.displayName ∧ row.disabled = u.disabled ∧ row.role = u.role

instance : Decidable (u.HoldsPublic row) := inferInstanceAs (Decidable (_ ∧ _))

/-- An update that leaves the hash alone. -/
def writePublic : UserEntity :=
  if db.sameUuid row.uuid u.uuid ∧ ¬ u.HoldsPublic row then
    { row with
      displayName := u.displayName
      disabled := u.disabled
      role := u.role
      updatedAt := second }
  else row

@[simp] theorem writePublic_id : (u.writePublic db second row).id = row.id := by
  unfold writePublic
  split <;> rfl

@[simp] theorem writePublic_passwordHash : (u.writePublic db second row).passwordHash = row.passwordHash := by
  unfold writePublic
  split <;> rfl

theorem writePublic_cleared : (u.writePublic db second row).cleared = u.writePublic db second row.cleared := by
  unfold writePublic
  split
  · rename_i h
    rw [if_pos (show db.sameUuid row.cleared.uuid u.uuid ∧ ¬ u.HoldsPublic row.cleared from h)]
    rfl
  · rename_i h
    rw [if_neg (show ¬ (db.sameUuid row.cleared.uuid u.uuid ∧ ¬ u.HoldsPublic row.cleared) from h)]

variable {u db row}

/-- The rows with the uuid of the update hold its hash. -/
def CarriesHash (u : UserUpdate) (db : Database) : Prop :=
  ∀ row ∈ db.users, db.sameUuid row.uuid u.uuid = true → row.passwordHash = u.passwordHash

theorem holds_iff (h : row.passwordHash = u.passwordHash) : u.Holds row ↔ u.HoldsPublic row :=
  ⟨fun hh => ⟨hh.1, hh.2.2⟩, fun hp => ⟨hp.1, h, hp.2⟩⟩

theorem write_eq (h : u.CarriesHash db) (hrow : row ∈ db.users) :
    u.write db second row = u.writePublic db second row := by
  unfold write writePublic
  by_cases hsame : db.sameUuid row.uuid u.uuid = true
  · have hhash := h row hrow hsame
    by_cases hholds : u.HoldsPublic row
    · rw [if_neg fun hc => hc.2 ((holds_iff hhash).mpr hholds), if_neg fun hc => hc.2 hholds]
    · rw [if_pos ⟨hsame, fun hh => hholds ((holds_iff hhash).mp hh)⟩, if_pos ⟨hsame, hholds⟩, hhash]
  · rw [if_neg fun hc => hsame hc.1, if_neg fun hc => hsame hc.1]

theorem affected_eq (h : u.CarriesHash db) :
    u.affected db = db.users.countP fun row => db.sameUuid row.uuid u.uuid ∧ ¬ u.HoldsPublic row := by
  refine List.countP_congr fun row hrow => ?_
  simp only [decide_eq_true_eq]
  exact and_congr_right fun hsame => not_congr (holds_iff (h row hrow hsame))

end UserUpdate

/-- An entity that a lookup has returned, with other columns changed, still carries the hash of its row. -/
theorem carriesHash_updateOf {db : Database} (hdb : db.WellFormed) {row user : UserEntity}
    (hrow : row ∈ db.users) (huuid : user.uuid = row.uuid) (hhash : user.passwordHash = row.passwordHash) :
    (UserDB.updateOf user).CarriesHash db := by
  intro other hother hsame
  have hkey : db.uuidKey other.uuid = db.uuidKey row.uuid := by
    simpa [Database.sameUuid, UserDB.updateOf, huuid] using hsame
  rw [hdb.uuid.eq_of_key hother hrow hkey]
  exact hhash.symm

section Commands

variable {hs ht : List (Int × Bytes)} {s t : World}

theorem Coupled.read (h : Coupled hs ht s t) : Coupled hs ht s.read t.read where
  same := { h.same with sqlFaults := congrArg List.tail h.same.sqlFaults }
  wellFormed := h.wellFormed
  wellFormed' := h.wellFormed'
  hashes := h.hashes
  hashes' := h.hashes'

theorem Coupled.sameUuid (h : Coupled hs ht s t) : s.db.sameUuid = t.db.sameUuid := by
  funext a b
  rw [Database.sameUuid, Database.sameUuid, h.same.uuidKey]

/-- A lookup finds a row in both tables, the same but for the hash, or in none. -/
theorem Coupled.lookup (h : Coupled hs ht s t) (uuid : Bytes) :
    (∃ code message, s.lookup (s.db.users.find? (s.db.sameUuid ·.uuid uuid)) = .fail code message ∧
      t.lookup (t.db.users.find? (t.db.sameUuid ·.uuid uuid)) = .fail code message) ∨
    ∃ a b, s.lookup (s.db.users.find? (s.db.sameUuid ·.uuid uuid)) = .ok a ∧
      t.lookup (t.db.users.find? (t.db.sameUuid ·.uuid uuid)) = .ok b ∧
      a ∈ s.db.users ∧ b ∈ t.db.users ∧ a.cleared = b.cleared := by
  rw [World.lookup, World.lookup, ← h.same.sqlFaults, ← h.sameUuid]
  by_cases hfault : s.sqlFaults.head? = some true
  · rw [if_pos hfault, if_pos hfault]
    exact Or.inl ⟨_, _, rfl, rfl⟩
  · rw [if_neg hfault, if_neg hfault]
    have hfind := find_cleared h.same.users (p := fun u => s.db.sameUuid u.uuid uuid) fun _ => rfl
    cases ha : s.db.users.find? (s.db.sameUuid ·.uuid uuid) with
    | none =>
        rw [ha, Option.map_none] at hfind
        rw [Option.map_eq_none_iff.mp hfind.symm]
        exact Or.inl ⟨_, _, rfl, rfl⟩
    | some a =>
        rw [ha, Option.map_some] at hfind
        obtain ⟨b, hb, hclear⟩ := Option.map_eq_some_iff.mp hfind.symm
        rw [hb]
        exact Or.inr ⟨a, b, rfl, rfl, List.mem_of_find?_eq_some ha, List.mem_of_find?_eq_some hb, hclear.symm⟩

/-- **Lookups.** What follows a lookup may use the two rows; a failed lookup ends both runs alike. -/
theorem paired_findByUUID {α : Type} (uuid : Bytes) {f : UserEntity → Action (Result α)}
    (hf : ∀ a b : UserEntity, a.cleared = b.cleared →
      Program.Paired exec (CoupledAt hs ht a b) (f a) (f b) (SameAnswer hs ht)) :
    Program.Paired exec (Coupled hs ht) (do orFail (← UserDB.findByUUID uuid) f)
      (do orFail (← UserDB.findByUUID uuid) f) (SameAnswer hs ht) := by
  intro s t hst
  rw [Program.run_bind, Program.run_bind, run_findByUUID, run_findByUUID]
  rcases hst.lookup uuid with ⟨code, message, hs', ht'⟩ | ⟨a, b, hs', ht', ha, hb, hclear⟩
  · rw [hs', ht']
    exact ⟨rfl, hst.read⟩
  · rw [hs', ht']
    exact hf a b hclear s.read t.read ⟨ha, hb, hst.read⟩

/-- The two tables after an update that carries its hash in both. -/
theorem Coupled.update (h : Coupled hs ht s t) {u v : UserUpdate} (hu : u.CarriesHash s.db)
    (hv : v.CarriesHash t.db) (huv : { u with passwordHash := [] } = { v with passwordHash := [] })
    (second : Nat) :
    u.affected s.db = v.affected t.db ∧
      Coupled hs ht
        { s with db := ((SqlStmt.updateUser u).apply second s.db).2, sqlFaults := s.sqlFaults.tail }
        { t with db := ((SqlStmt.updateUser v).apply second t.db).2, sqlFaults := t.sqlFaults.tail } := by
  obtain ⟨displayName, hash, disabled, role, uuid⟩ := u
  obtain ⟨displayName', hash', disabled', role', uuid'⟩ := v
  simp only [UserUpdate.mk.injEq, true_and] at huv
  obtain ⟨rfl, rfl, rfl, rfl⟩ := huv
  have hpublic : UserUpdate.writePublic ⟨displayName, hash, disabled, role, uuid⟩ s.db second =
      UserUpdate.writePublic ⟨displayName, hash', disabled, role, uuid⟩ t.db second := by
    funext row
    simp only [UserUpdate.writePublic, UserUpdate.HoldsPublic, h.sameUuid]
    exact if_congr Iff.rfl rfl rfl
  have hleft := List.map_congr_left fun row (hrow : row ∈ s.db.users) => UserUpdate.write_eq second hu hrow
  have hright := List.map_congr_left fun row (hrow : row ∈ t.db.users) => UserUpdate.write_eq second hv hrow
  have hcleared : ∀ (w : UserUpdate) (db : Database) (rows : List UserEntity),
      (rows.map (w.writePublic db second)).map UserEntity.cleared =
        (rows.map UserEntity.cleared).map (w.writePublic db second) := by
    intro w db rows
    rw [List.map_map, List.map_map]
    exact List.map_congr_left fun row _ => w.writePublic_cleared db second row
  have hhashes : ∀ (w : UserUpdate) (db : Database) (rows : List UserEntity),
      (rows.map (w.writePublic db second)).map (fun u => (u.id, u.passwordHash)) =
        rows.map fun u => (u.id, u.passwordHash) := by
    intro w db rows
    rw [List.map_map]
    exact List.map_congr_left fun row _ => by simp
  refine ⟨?_, ?_, h.wellFormed.apply second _, h.wellFormed'.apply second _, ?_, ?_⟩
  · rw [UserUpdate.affected_eq hu, UserUpdate.affected_eq hv, ← h.sameUuid]
    exact countP_cleared h.same.users (q := fun row => s.db.sameUuid row.uuid uuid ∧
      ¬ UserUpdate.HoldsPublic ⟨displayName, hash, disabled, role, uuid⟩ row) (fun _ _ => rfl) fun _ _ => rfl
  · refine { h.same with sqlFaults := congrArg List.tail h.same.sqlFaults, users := ?_ }
    show (s.db.users.map _).map _ = (t.db.users.map _).map _
    rw [hleft, hright, hcleared, hcleared, hpublic, h.same.users]
  · show (s.db.users.map _).map _ = hs
    rw [hleft, hhashes]
    exact h.hashes
  · show (t.db.users.map _).map _ = ht
    rw [hright, hhashes]
    exact h.hashes'

/-- **Updates.** Writing back an entity with its own hash changes the two tables alike and no hash. -/
theorem paired_update {a b a' b' : UserEntity} (hsame : a'.cleared = b'.cleared)
    (ha : a'.uuid = a.uuid ∧ a'.passwordHash = a.passwordHash)
    (hb : b'.uuid = b.uuid ∧ b'.passwordHash = b.passwordHash) :
    Program.Paired exec (CoupledAt hs ht a b) (UserDB.update a') (UserDB.update b') (SameAnswer hs ht) := by
  have hcall : Program.Paired exec (CoupledAt hs ht a b) (sqlCall (.updateUser (UserDB.updateOf a')))
      (sqlCall (.updateUser (UserDB.updateOf b')))
      fun (r r' : Result Nat) s t => SameAnswer hs ht r r' s t := by
    rintro s t ⟨hmem, hmem', hst⟩
    have hsent : { UserDB.updateOf a' with passwordHash := [] } =
        { UserDB.updateOf b' with passwordHash := [] } := congrArg UserDB.updateOf hsame
    obtain ⟨haffected, hafter⟩ := hst.update (carriesHash_updateOf hst.wellFormed hmem ha.1 ha.2)
      (carriesHash_updateOf hst.wellFormed' hmem' hb.1 hb.2) hsent (toTimeT s.clock)
    rcases run_sqlCall (.updateUser (UserDB.updateOf a')) s with ⟨hfault, hrun⟩ | ⟨hfault, hrun⟩
    · rcases run_sqlCall (.updateUser (UserDB.updateOf b')) t with ⟨hfault', hrun'⟩ | ⟨hfault', hrun'⟩
      · rw [hrun, hrun']
        exact ⟨rfl, hst.read⟩
      · exact absurd (hst.same.sqlFaults ▸ hfault) hfault'
    · rcases run_sqlCall (.updateUser (UserDB.updateOf b')) t with ⟨hfault', hrun'⟩ | ⟨hfault', hrun'⟩
      · exact absurd (hst.same.sqlFaults ▸ hfault') hfault
      · have hclock : toTimeT t.clock = toTimeT s.clock := by rw [hst.same.clock]
        rw [hrun, hrun', hclock]
        exact ⟨congrArg Result.ok haffected, hafter⟩
  refine hcall.bind fun r r' => Program.Paired.of_pre (fun heq => ?_) fun s t h => h
  subst heq
  cases r with
  | fail code message => exact Program.Paired.done fun s t h => ⟨rfl, h⟩
  | ok n =>
      by_cases hzero : n = 0
      · simp only [if_pos hzero]
        exact Program.Paired.done fun s t h => ⟨rfl, h⟩
      · simp only [if_neg hzero]
        exact Program.Paired.done fun s t h => ⟨rfl, h⟩

/-- Commands that neither read nor write `users`. -/
def Cmd.Blind : Cmd → Prop
  | .now | .redis _ | .sql (.deleteSessionsByUser _) => True
  | _ => False

theorem coupled_blind (c : Cmd) (hc : Cmd.Blind c) (s t : World) (h : Coupled hs ht s t) :
    (exec c s).1 = (exec c t).1 ∧ Coupled hs ht (exec c s).2 (exec c t).2 ∧
      (exec c s).2.db.users = s.db.users ∧ (exec c t).2.db.users = t.db.users := by
  obtain ⟨hsame, hwf, hwf', hhashes, hhashes'⟩ := h
  obtain ⟨clock, redis, ⟨users, nextUserId, sessions, nextSessionId, uuidKey⟩, redisFaults, sqlFaults⟩ := s
  obtain ⟨clock', redis', ⟨users', nextUserId', sessions', nextSessionId', uuidKey'⟩, redisFaults',
    sqlFaults'⟩ := t
  obtain ⟨rfl, rfl, rfl, rfl, husers, rfl, rfl, rfl, rfl⟩ := hsame
  have hkept : ∀ redis' redisFaults' sqlFaults',
      Coupled hs ht ⟨clock, redis', ⟨users, nextUserId, sessions, nextSessionId, uuidKey⟩, redisFaults', sqlFaults'⟩
        ⟨clock, redis', ⟨users', nextUserId, sessions, nextSessionId, uuidKey⟩, redisFaults', sqlFaults'⟩ :=
    fun _ _ _ => ⟨⟨rfl, rfl, rfl, rfl, husers, rfl, rfl, rfl, rfl⟩, hwf, hwf', hhashes, hhashes'⟩
  cases c with
  | now => exact ⟨rfl, hkept _ _ _, rfl, rfl⟩
  | redis c =>
      simp only [exec, World.execRedis]
      split <;> exact ⟨rfl, hkept _ _ _, rfl, rfl⟩
  | sql stmt =>
      cases stmt with
      | deleteSessionsByUser userId =>
          have hleft := hwf.apply (toTimeT clock) (.deleteSessionsByUser userId)
          have hright := hwf'.apply (toTimeT clock) (.deleteSessionsByUser userId)
          simp only [exec, World.execSql]
          split
          · exact ⟨rfl, hkept _ _ _, rfl, rfl⟩
          · exact ⟨rfl, ⟨⟨rfl, rfl, rfl, rfl, husers, rfl, rfl, rfl, rfl⟩, hleft, hright, hhashes, hhashes'⟩,
              rfl, rfl⟩
      | _ => cases hc

/-- A program of such commands runs in lockstep. -/
theorem paired_blind {α : Type} {p : Action α} (hp : Program.Uses Cmd.Blind p) :
    Program.Paired exec (Coupled hs ht) p p (SameAnswer hs ht) :=
  Program.paired_self (fun c hc s t h =>
    have hstep := coupled_blind c hc s t h
    ⟨hstep.1, hstep.2.1⟩) hp

/-- It keeps the rows of a lookup. -/
theorem pairedAt_blind {a b : UserEntity} {α : Type} {p : Action α} (hp : Program.Uses Cmd.Blind p) :
    Program.Paired exec (CoupledAt hs ht a b) p p fun x y s t => x = y ∧ CoupledAt hs ht a b s t :=
  Program.paired_self (fun c hc s t h => by
    obtain ⟨hreply, hafter, husers, husers'⟩ := coupled_blind c hc s t h.2.2
    exact ⟨hreply, husers ▸ h.1, husers' ▸ h.2.1, hafter⟩) hp

theorem blind_deleteByUserId (userId : Int) : Program.Uses Cmd.Blind (TokenRepository.deleteByUserId userId) :=
  uses_deleteByUserId trivial

/-- Equal results lead to the same branch. -/
theorem paired_orFail {α β : Type} {Pre : World → World → Prop} {r r' : Result α}
    {f g : α → Action (Result β)} (hpre : ∀ s t, Pre s t → Coupled hs ht s t)
    (hf : ∀ a, Program.Paired exec Pre (f a) (g a) (SameAnswer hs ht)) :
    Program.Paired exec (fun s t => r = r' ∧ Pre s t) (orFail r f) (orFail r' g) (SameAnswer hs ht) := by
  refine Program.Paired.of_pre (fun heq => ?_) fun s t h => h
  subst heq
  cases r with
  | fail code message => exact Program.Paired.done fun s t h => ⟨rfl, hpre s t h⟩
  | ok a => exact hf a

/-- What follows a write-back no longer needs the rows. -/
theorem paired_update_then {α : Type} {a b a' b' : UserEntity} {f : Action (Result α)}
    (hf : Program.Paired exec (Coupled hs ht) f f (SameAnswer hs ht)) (hsame : a'.cleared = b'.cleared)
    (ha : a'.uuid = a.uuid ∧ a'.passwordHash = a.passwordHash)
    (hb : b'.uuid = b.uuid ∧ b'.passwordHash = b.passwordHash) :
    Program.Paired exec (CoupledAt hs ht a b) (do orFail (← UserDB.update a') fun _ => f)
      (do orFail (← UserDB.update b') fun _ => f) (SameAnswer hs ht) :=
  (paired_update hsame ha hb).bind fun _ _ => paired_orFail (fun _ _ h => h) fun _ => hf

/-- A statement that changes nothing. -/
theorem paired_read {stmt : SqlStmt} {R : stmt.Rows → stmt.Rows → Prop}
    (hquiet : ∀ second db, (stmt.apply second db).2 = db)
    (hsame : ∀ s t second, Coupled hs ht s t →
      (∃ e, (stmt.apply second s.db).1 = .error e ∧ (stmt.apply second t.db).1 = .error e) ∨
      ∃ rows rows', (stmt.apply second s.db).1 = .ok rows ∧ (stmt.apply second t.db).1 = .ok rows' ∧
        R rows rows') :
    Program.Paired exec (Coupled hs ht) (sqlCall stmt) (sqlCall stmt) fun r r' s t =>
      ((∃ code message, r = .fail code message ∧ r' = .fail code message) ∨
        ∃ rows rows', r = .ok rows ∧ r' = .ok rows' ∧ R rows rows') ∧ Coupled hs ht s t := by
  intro s t hst
  have hclock : toTimeT t.clock = toTimeT s.clock := by rw [hst.same.clock]
  rcases run_sqlCall stmt s with ⟨hfault, hrun⟩ | ⟨hfault, hrun⟩
  · rcases run_sqlCall stmt t with ⟨hfault', hrun'⟩ | ⟨hfault', hrun'⟩
    · rw [hrun, hrun']
      exact ⟨Or.inl ⟨_, _, rfl, rfl⟩, hst.read⟩
    · exact absurd (hst.same.sqlFaults ▸ hfault) hfault'
  · rcases run_sqlCall stmt t with ⟨hfault', hrun'⟩ | ⟨hfault', hrun'⟩
    · exact absurd (hst.same.sqlFaults ▸ hfault') hfault
    · rw [hrun, hrun', hclock, hquiet, hquiet]
      refine ⟨?_, hst.read⟩
      rcases hsame s t (toTimeT s.clock) hst with ⟨e, he, he'⟩ | ⟨rows, rows', hrows, hrows', hR⟩
      · rw [he, he']
        exact Or.inl ⟨_, _, rfl, rfl⟩
      · rw [hrows, hrows']
        exact Or.inr ⟨rows, rows', rfl, rfl, hR⟩

theorem paired_countUsers (f : UserFilter) :
    Program.Paired exec (Coupled hs ht) (sqlCall (.countUsers f)) (sqlCall (.countUsers f))
      fun (r r' : Result Nat) s t => r = r' ∧ Coupled hs ht s t := by
  refine (paired_read (R := fun (n n' : Nat) => n = n') (fun _ _ => rfl) fun s t second h => ?_).mono
    (fun s t h => h) fun r r' s t h => ?_
  · exact Or.inr ⟨_, _, rfl, rfl, countP_cleared h.same.users (q := f.Matches) (fun _ _ => rfl) fun _ _ => rfl⟩
  · obtain ⟨⟨code, message, rfl, rfl⟩ | ⟨n, n', rfl, rfl, rfl⟩, hst⟩ := h
    · exact ⟨rfl, hst⟩
    · exact ⟨rfl, hst⟩

theorem paired_selectUsers (f : UserFilter) (offset limit : Int) :
    Program.Paired exec (Coupled hs ht) (sqlCall (.selectUsers f offset limit))
      (sqlCall (.selectUsers f offset limit)) fun (r r' : Result (List UserEntity)) s t =>
        ((∃ code message, r = .fail code message ∧ r' = .fail code message) ∨
          ∃ rows rows', r = .ok rows ∧ r' = .ok rows' ∧
            rows.map UserEntity.cleared = rows'.map UserEntity.cleared) ∧ Coupled hs ht s t := by
  refine paired_read (fun _ _ => rfl) fun s t second h => ?_
  simp only [SqlStmt.apply]
  split
  · exact Or.inl ⟨_, rfl, rfl⟩
  · refine Or.inr ⟨_, _, rfl, rfl, ?_⟩
    have hsort : ∀ l : List UserEntity, (l.insertionSort UserEntity.NotAfter).map UserEntity.cleared =
        (l.map UserEntity.cleared).insertionSort UserEntity.NotAfter := fun l =>
      List.map_insertionSort _ _ _ l fun _ _ _ _ => Iff.rfl
    rw [List.map_take, List.map_drop, List.map_take, List.map_drop, hsort, hsort,
      filter_cleared h.same.users fun _ => rfl]

end Commands

section Queries

variable (env : Env) {hs ht : List (Int × Bytes)}

theorem exists_hash {a b : UserEntity} (h : a.cleared = b.cleared) :
    ∃ hash, b = { a with passwordHash := hash } := by
  obtain ⟨id, uuid, mobile, displayName, hash, role, disabled, createdAt, updatedAt⟩ := a
  obtain ⟨id', uuid', mobile', displayName', hash', role', disabled', createdAt', updatedAt'⟩ := b
  simp only [UserEntity.cleared, UserEntity.mk.injEq, true_and] at h
  obtain ⟨rfl, rfl, rfl, rfl, rfl, rfl, rfl, rfl⟩ := h
  exact ⟨hash', rfl⟩

theorem paired_requireUuid {α : Type} {uuid : Bytes} {p : Action (Result α)}
    (hp : Program.Paired exec (Coupled hs ht) p p (SameAnswer hs ht)) :
    Program.Paired exec (Coupled hs ht) (UserService.requireUuid uuid p) (UserService.requireUuid uuid p)
      (SameAnswer hs ht) := by
  unfold UserService.requireUuid
  split
  · exact Program.Paired.done fun s t h => ⟨rfl, h⟩
  · exact hp

theorem paired_getUser (userUuid : Bytes) :
    Program.Paired exec (Coupled hs ht) (UserService.getUser userUuid) (UserService.getUser userUuid)
      (SameAnswer hs ht) := by
  refine paired_requireUuid (paired_findByUUID userUuid fun a b hclear => ?_)
  exact Program.Paired.done fun s t h => ⟨congrArg Result.ok hclear, h.2.2⟩

theorem paired_updateUser (userUuid : Bytes) (displayName : Option Bytes) :
    Program.Paired exec (Coupled hs ht) (UserService.updateUser userUuid displayName)
      (UserService.updateUser userUuid displayName) (SameAnswer hs ht) := by
  refine paired_requireUuid (paired_findByUUID userUuid fun a b hclear => ?_)
  obtain ⟨hash, rfl⟩ := exists_hash hclear
  by_cases hdisabled : a.disabled = true
  · rw [if_pos hdisabled, if_pos hdisabled]
    exact Program.Paired.done fun s t h => ⟨rfl, h.2.2⟩
  · rw [if_neg hdisabled, if_neg hdisabled]
    cases displayName with
    | none => exact Program.Paired.done fun s t h => ⟨rfl, h.2.2⟩
    | some name =>
        simp only []
        unfold requireValid
        split
        · exact Program.Paired.done fun s t h => ⟨rfl, h.2.2⟩
        · exact paired_update_then (Program.Paired.done fun s t h => ⟨rfl, h⟩) rfl ⟨rfl, rfl⟩ ⟨rfl, rfl⟩

theorem paired_setUserDisabled (userUuid : Bytes) (disabled : Bool) :
    Program.Paired exec (Coupled hs ht) (UserService.setUserDisabled userUuid disabled)
      (UserService.setUserDisabled userUuid disabled) (SameAnswer hs ht) := by
  refine paired_requireUuid (paired_findByUUID userUuid fun a b hclear => ?_)
  obtain ⟨hash, rfl⟩ := exists_hash hclear
  by_cases hsame : a.disabled = disabled
  · rw [if_pos hsame, if_pos hsame]
    exact Program.Paired.done fun s t h => ⟨rfl, h.2.2⟩
  · rw [if_neg hsame, if_neg hsame]
    refine paired_update_then ?_ rfl ⟨rfl, rfl⟩ ⟨rfl, rfl⟩
    split
    · refine (paired_blind (blind_deleteByUserId a.id)).bind fun x y => ?_
      exact Program.Paired.done fun s t h => ⟨rfl, h.2⟩
    · exact Program.Paired.done fun s t h => ⟨rfl, h⟩

theorem paired_deleteUser (userUuid verifyCode : Bytes) :
    Program.Paired exec (Coupled hs ht) (UserService.deleteUser env userUuid verifyCode)
      (UserService.deleteUser env userUuid verifyCode) (SameAnswer hs ht) := by
  refine paired_requireUuid ?_
  unfold requireValid
  split
  · exact Program.Paired.done fun s t h => ⟨rfl, h⟩
  · refine paired_findByUUID userUuid fun a b hclear => ?_
    obtain ⟨hash, rfl⟩ := exists_hash hclear
    have hcaptcha : Program.Uses Cmd.Blind (verifyCaptcha env.config.sms .deleteUser a.mobile verifyCode) :=
      (uses_verifyCaptcha _ _ _ _).mono fun c hc => by
        cases c with
        | redis c => trivial
        | now => cases hc
        | sql s => cases hc
    refine (pairedAt_blind hcaptcha).bind fun r r' => ?_
    refine paired_orFail (fun s t h => h.2.2) fun _ => ?_
    refine (pairedAt_blind (blind_deleteByUserId a.id)).bind fun x y => ?_
    refine Program.Paired.of_pre (fun _ => ?_) fun s t h => h
    exact paired_update_then (Program.Paired.done fun s t h => ⟨rfl, h⟩) rfl ⟨rfl, rfl⟩ ⟨rfl, rfl⟩

theorem paired_listUsers (mobileFilter : Option Bytes) (disabledFilter : Option Bool) (page pageSize : Int32) :
    Program.Paired exec (Coupled hs ht) (UserService.listUsers mobileFilter disabledFilter page pageSize)
      (UserService.listUsers mobileFilter disabledFilter page pageSize) (SameAnswer hs ht) := by
  rw [listUsers_eq]
  refine (paired_countUsers (filterOf mobileFilter disabledFilter)).bind fun r r' => ?_
  refine paired_orFail (fun s t h => h) fun n => ?_
  refine (paired_selectUsers (filterOf mobileFilter disabledFilter) _ _).bind fun r r' => ?_
  refine Program.Paired.of_pre (fun hcases => ?_) fun s t h => h
  rcases hcases with ⟨code, message, rfl, rfl⟩ | ⟨rows, rows', rfl, rfl, hrows⟩
  · exact Program.Paired.done fun s t h => ⟨rfl, h⟩
  · refine Program.Paired.done fun s t h => ⟨?_, h⟩
    rw [hrows]

end Queries

/-- A user that is returned has no hash. -/
def Result.Cleared (r : Result UserEntity) : Prop := ∀ user, r = .ok user → user.passwordHash = []

/-- So has the user of a token pair. -/
def Result.SignedInCleared (r : Result AuthResult) : Prop := ∀ result, r = .ok result → result.user.passwordHash = []

section Cleared

variable (env : Env) (draws : Draws)

theorem cleared_failWith (code : ErrorCode) (message : String) :
    (Result.failWith code message : Result UserEntity).Cleared := nofun

theorem signedInCleared_failWith (code : ErrorCode) (message : String) :
    (Result.failWith code message : Result AuthResult).SignedInCleared := nofun

theorem cleared_ok (user : UserEntity) : (Result.ok user.cleared).Cleared := by
  rintro _ ⟨⟩
  rfl

theorem returns_orFail_cleared {α β : Type} {Q : Result β → Prop}
    (hfail : ∀ code message, Q (.failWith code message)) {r : Result α} {next : α → Action (Result β)}
    (hnext : ∀ a, Program.Returns Q (next a)) : Program.Returns Q (orFail r next) := by
  cases r with
  | fail code message => exact hfail code message
  | ok a => exact hnext a

theorem returns_getUser_cleared (userUuid : Bytes) :
    Program.Returns Result.Cleared (UserService.getUser userUuid) := by
  unfold UserService.getUser UserService.requireUuid
  split
  · exact cleared_failWith _ _
  · exact (Program.returns_true _).bind fun r _ => returns_orFail_cleared cleared_failWith fun user =>
      cleared_ok user

theorem returns_updateUser_cleared (userUuid : Bytes) (displayName : Option Bytes) :
    Program.Returns Result.Cleared (UserService.updateUser userUuid displayName) := by
  unfold UserService.updateUser UserService.requireUuid
  split
  · exact cleared_failWith _ _
  · refine (Program.returns_true _).bind fun r _ => returns_orFail_cleared cleared_failWith fun user => ?_
    split
    · exact cleared_failWith _ _
    · split
      · exact cleared_ok user
      · unfold requireValid
        split
        · exact cleared_failWith _ _
        · exact (Program.returns_true _).bind fun r _ => returns_orFail_cleared cleared_failWith fun _ =>
            cleared_ok _

theorem returns_listUsers_cleared (mobileFilter : Option Bytes) (disabledFilter : Option Bool)
    (page pageSize : Int32) :
    Program.Returns (fun r => ∀ list, r = .ok list → ∀ user ∈ list.users, user.passwordHash = [])
      (UserService.listUsers mobileFilter disabledFilter page pageSize) := by
  refine (Program.returns_true _).bind fun r _ => returns_orFail_cleared (fun _ _ _ h => nomatch h) fun n => ?_
  refine (Program.returns_true _).bind fun r _ => returns_orFail_cleared (fun _ _ _ h => nomatch h) fun rows => ?_
  rintro list ⟨⟩ user huser
  obtain ⟨row, -, rfl⟩ := List.mem_map.mp huser
  rfl

theorem returns_signIn_cleared (user : UserEntity) :
    Program.Returns Result.SignedInCleared (AuthService.signIn env draws user) := by
  refine (Program.returns_true _).bind fun tokens _ => (Program.returns_true _).bind fun _ _ => ?_
  rintro result ⟨⟩
  rfl

theorem returns_register_cleared (mobile verifyCode password displayName : Bytes) :
    Program.Returns Result.SignedInCleared
      (AuthService.register env draws mobile verifyCode password displayName) := by
  unfold AuthService.register requireValid
  split
  · exact signedInCleared_failWith _ _
  · split
    · exact signedInCleared_failWith _ _
    · split
      · exact signedInCleared_failWith _ _
      · split
        · exact signedInCleared_failWith _ _
        · refine (Program.returns_true _).bind fun r _ => ?_
          refine returns_orFail_cleared signedInCleared_failWith fun _ => ?_
          refine (Program.returns_true _).bind fun r _ => ?_
          exact returns_orFail_cleared signedInCleared_failWith fun user => returns_signIn_cleared env draws user

theorem returns_loginByCode_cleared (mobile verifyCode : Bytes) :
    Program.Returns Result.SignedInCleared (AuthService.loginByCode env draws mobile verifyCode) := by
  unfold AuthService.loginByCode requireValid
  split
  · exact signedInCleared_failWith _ _
  · split
    · exact signedInCleared_failWith _ _
    · refine (Program.returns_true _).bind fun r _ => ?_
      refine returns_orFail_cleared signedInCleared_failWith fun _ => ?_
      refine (Program.returns_true _).bind fun r _ => ?_
      cases r with
      | fail code message =>
          simp only []
          split <;> exact signedInCleared_failWith _ _
      | ok user =>
          simp only []
          split
          · exact signedInCleared_failWith _ _
          · exact (Program.returns_true _).bind fun _ _ => returns_signIn_cleared env draws user

theorem returns_loginByPassword_cleared (mobile password : Bytes) :
    Program.Returns (fun o => ∀ r, o = .returned r → r.SignedInCleared)
      (AuthService.loginByPassword env draws mobile password) := by
  have hreturned : ∀ {r : Result AuthResult}, r.SignedInCleared →
      ∀ r', (Outcome.returned r : Outcome AuthResult) = .returned r' → r'.SignedInCleared := by
    rintro r hr _ ⟨⟩
    exact hr
  unfold AuthService.loginByPassword
  split
  · exact hreturned (signedInCleared_failWith _ _)
  · split
    · exact hreturned (signedInCleared_failWith _ _)
    · refine (Program.returns_true _).bind fun attempt _ => ?_
      cases attempt with
      | none => exact nofun
      | some attempt =>
          refine Program.Returns.bind (P := Result.SignedInCleared) ?_ fun r hr => hreturned hr
          refine returns_orFail_cleared signedInCleared_failWith fun _ => ?_
          refine (Program.returns_true _).bind fun r _ => ?_
          cases r with
          | fail code message =>
              simp only []
              split
              · exact (Program.returns_true _).bind fun _ _ => signedInCleared_failWith _ _
              · exact signedInCleared_failWith _ _
          | ok user =>
              simp only []
              split
              · exact signedInCleared_failWith _ _
              · split
                · exact (Program.returns_true _).bind fun _ _ => signedInCleared_failWith _ _
                · exact (Program.returns_true _).bind fun _ _ => returns_signIn_cleared env draws user

end Cleared

inductive UserQuery
  | getCurrentUser (userUuid : Bytes)
  | getUser (userUuid : Bytes)
  | listUsers (mobileFilter : Option Bytes) (disabledFilter : Option Bool) (page pageSize : Int32)
  | updateUser (userUuid : Bytes) (displayName : Option Bytes)
  | setUserDisabled (userUuid : Bytes) (disabled : Bool)
  | deleteUser (userUuid verifyCode : Bytes)

inductive QueryReply
  | user (r : Result UserEntity)
  | list (r : Result ListUsersResult)
  | nothing (r : Result Unit)

/-- The entities in a reply. -/
def QueryReply.entities : QueryReply → List UserEntity
  | .user (.ok found) => [found]
  | .list (.ok page) => page.users
  | _ => []

def UserQuery.answer (env : Env) : UserQuery → Action QueryReply
  | .getCurrentUser userUuid | .getUser userUuid => do return .user (← UserService.getUser userUuid)
  | .listUsers mobileFilter disabledFilter page pageSize => do
      return .list (← UserService.listUsers mobileFilter disabledFilter page pageSize)
  | .updateUser userUuid displayName => do return .user (← UserService.updateUser userUuid displayName)
  | .setUserDisabled userUuid disabled => do return .nothing (← UserService.setUserDisabled userUuid disabled)
  | .deleteUser userUuid verifyCode => do return .nothing (← UserService.deleteUser env userUuid verifyCode)

/-- A query of a run: the time since the one before, and which of its commands fail. -/
structure QueryCall where
  delay : Nat
  query : UserQuery
  redisFaults : List (Option String) := []
  sqlFaults : List Bool := []

def QueryCall.world (call : QueryCall) (w : World) : World :=
  { w with
    clock := w.clock + call.delay
    redisFaults := call.redisFaults
    sqlFaults := call.sqlFaults }

def serveQuery (env : Env) (call : QueryCall) (w : World) : QueryReply × World :=
  Program.run exec (call.query.answer env) (call.world w)

section Runs

variable (env : Env) {hs ht : List (Int × Bytes)} {s t : World}

theorem Coupled.world (h : Coupled hs ht s t) (call : QueryCall) : Coupled hs ht (call.world s) (call.world t) where
  same := { h.same with
    clock := by rw [QueryCall.world, QueryCall.world, h.same.clock]
    redisFaults := rfl
    sqlFaults := rfl }
  wellFormed := h.wellFormed
  wellFormed' := h.wellFormed'
  hashes := h.hashes
  hashes' := h.hashes'

theorem paired_map {α β : Type} {p : Action α} {f : α → β}
    (hp : Program.Paired exec (Coupled hs ht) p p (SameAnswer hs ht)) :
    Program.Paired exec (Coupled hs ht) (do return f (← p)) (do return f (← p)) (SameAnswer hs ht) :=
  hp.bind fun _ _ => Program.Paired.done fun _ _ h => ⟨congrArg f h.1, h.2⟩

/-- **One query.** From coupled worlds it answers alike and leaves the worlds coupled. -/
theorem paired_answer (query : UserQuery) :
    Program.Paired exec (Coupled hs ht) (query.answer env) (query.answer env) (SameAnswer hs ht) := by
  cases query with
  | getCurrentUser userUuid | getUser userUuid => exact paired_map (paired_getUser userUuid)
  | listUsers mobileFilter disabledFilter page pageSize =>
      exact paired_map (paired_listUsers mobileFilter disabledFilter page pageSize)
  | updateUser userUuid displayName => exact paired_map (paired_updateUser userUuid displayName)
  | setUserDisabled userUuid disabled => exact paired_map (paired_setUserDisabled userUuid disabled)
  | deleteUser userUuid verifyCode => exact paired_map (paired_deleteUser env userUuid verifyCode)

theorem returns_answer_cleared (query : UserQuery) :
    Program.Returns (fun reply => ∀ user ∈ reply.entities, user.passwordHash = []) (query.answer env) := by
  have huser : ∀ {r : Result UserEntity}, r.Cleared →
      ∀ user ∈ (QueryReply.user r).entities, user.passwordHash = [] := by
    intro r hr user hmem
    cases r with
    | fail code message => exact absurd hmem List.not_mem_nil
    | ok u =>
        obtain rfl := List.mem_singleton.mp hmem
        exact hr _ rfl
  cases query with
  | getCurrentUser userUuid | getUser userUuid =>
      exact (returns_getUser_cleared userUuid).bind fun r hr => huser hr
  | listUsers mobileFilter disabledFilter page pageSize =>
      refine (returns_listUsers_cleared mobileFilter disabledFilter page pageSize).bind fun r hr => ?_
      cases r with
      | fail code message => exact fun user hmem => absurd hmem List.not_mem_nil
      | ok list => exact hr list rfl
  | updateUser userUuid displayName =>
      exact (returns_updateUser_cleared userUuid displayName).bind fun r hr => huser hr
  | setUserDisabled userUuid disabled =>
      exact (Program.returns_true _).bind fun r _ user hmem => absurd hmem List.not_mem_nil
  | deleteUser userUuid verifyCode =>
      exact (Program.returns_true _).bind fun r _ user hmem => absurd hmem List.not_mem_nil

/-- **Runs.** The answers agree, the worlds stay coupled and no answer holds a hash. -/
theorem history_coupled (h : Coupled hs ht s t) (calls : List QueryCall) :
    (history (serveQuery env) calls s).1 = (history (serveQuery env) calls t).1 ∧
      Coupled hs ht (history (serveQuery env) calls s).2 (history (serveQuery env) calls t).2 ∧
      ∀ reply ∈ (history (serveQuery env) calls s).1, ∀ user ∈ reply.entities, user.passwordHash = [] := by
  induction calls using List.reverseRecOn with
  | nil => exact ⟨rfl, h, fun reply hmem => absurd hmem List.not_mem_nil⟩
  | append_singleton calls call ih =>
      obtain ⟨hlog, hcoupled, hcleared⟩ := ih
      obtain ⟨hreply, hafter⟩ := paired_answer env call.query _ _ (hcoupled.world call)
      rw [history_snoc, history_snoc]
      refine ⟨?_, hafter, fun reply hmem => ?_⟩
      · show _ ++ [_] = _ ++ [_]
        rw [hlog, serveQuery, hreply]
        rfl
      · rcases List.mem_append.mp hmem with hmem | hmem
        · exact hcleared reply hmem
        · obtain rfl := List.mem_singleton.mp hmem
          exact (returns_answer_cleared env call.query).run exec _

end Runs

/-- **Hashes do not leak.** Over two tables that differ in `password_hash` alone, a sequence of queries
gives the same answers and leaves tables that differ in it alone, every user with the hash from before; no
answer of these queries, of `Register` or of a login holds a hash. -/
theorem hash_secrecy (env : Env) {s t : World} (hst : SameButHashes s t) (hwf : s.db.WellFormed) :
    (∀ calls, (history (serveQuery env) calls s).1 = (history (serveQuery env) calls t).1 ∧
      (∀ reply ∈ (history (serveQuery env) calls s).1, ∀ user ∈ reply.entities, user.passwordHash = []) ∧
      SameButHashes (history (serveQuery env) calls s).2 (history (serveQuery env) calls t).2 ∧
      (history (serveQuery env) calls s).2.hashes = s.hashes ∧
      (history (serveQuery env) calls t).2.hashes = t.hashes) ∧
    ∀ (draws : Draws) (w : World) (result : AuthResult),
      (∀ mobile verifyCode password displayName,
        (Action.run (AuthService.register env draws mobile verifyCode password displayName) w).1 = .ok result →
          result.user.passwordHash = []) ∧
      (∀ mobile password,
        (Action.run (AuthService.loginByPassword env draws mobile password) w).1 = .returned (.ok result) →
          result.user.passwordHash = []) ∧
      ∀ mobile verifyCode,
        (Action.run (AuthService.loginByCode env draws mobile verifyCode) w).1 = .ok result →
          result.user.passwordHash = [] := by
  refine ⟨fun calls => ?_, fun draws w result => ⟨?_, ?_, ?_⟩⟩
  · have hstart : Coupled s.hashes t.hashes s t := ⟨hst, hwf, hst.wellFormed hwf, rfl, rfl⟩
    obtain ⟨hlog, hcoupled, hcleared⟩ := history_coupled env hstart calls
    exact ⟨hlog, hcleared, hcoupled.same, hcoupled.hashes, hcoupled.hashes'⟩
  · intro mobile verifyCode password displayName h
    exact (returns_register_cleared env draws mobile verifyCode password displayName).run exec w result h
  · intro mobile password h
    exact (returns_loginByPassword_cleared env draws mobile password).run exec w (.ok result) h result rfl
  · intro mobile verifyCode h
    exact (returns_loginByCode_cleared env draws mobile verifyCode).run exec w result h

/-- One user with one of two hashes: renamed, disabled and looked up. -/
theorem hash_secrecy_sample :
    let w (hash : Bytes) : World := { emptyWorld 0 with db := { Database.empty id with
      users := [⟨1, [117], [109], [110], hash, .user, false, 0, 0⟩], nextUserId := 2 } }
    let calls : List QueryCall := [⟨1, .updateUser [117] (some [120]), [], []⟩, ⟨1, .setUserDisabled [117] true, [], []⟩,
      ⟨1, .getUser [117], [], []⟩]
    (history (serveQuery defaultEnv) calls (w [1])).1 = (history (serveQuery defaultEnv) calls (w [2])).1 := by
  intro w calls
  have hsame : SameButHashes (w [1]) (w [2]) := ⟨rfl, rfl, rfl, rfl, rfl, rfl, rfl, rfl, rfl⟩
  have hwf : (w [1]).db.WellFormed := by
    refine ⟨List.nodup_singleton _, List.nodup_singleton _, List.nodup_singleton _, by decide, ?_, List.nodup_nil, ?_⟩
    · intro u hu
      obtain rfl := List.mem_singleton.mp hu
      decide
    · exact fun r hr => absurd hr List.not_mem_nil
  exact ((hash_secrecy defaultEnv hsame hwf).1 calls).1

end AccountService
