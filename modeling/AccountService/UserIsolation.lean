import AccountService.CaptchaSpec
import AccountService.DatabaseSpec
import AccountService.LibraryLog
import AccountService.ModelCalls
import AccountService.ModelHandler
import AccountService.TokenRoundTrip

/-! What the remote calls of a plain user can reach: the rows of that user and the keys of that user's mobile.
The rows of everybody else stay as they are, and they make no difference to the responses. -/

namespace AccountService

open Expiring Interaction Table

def ServiceKey.mobile : ServiceKey → Bytes
  | .code _ mobile | .interval mobile | .count _ mobile | .lock _ mobile | .loginFail mobile => mobile

/-- A key of a mobile. -/
def OfMobile (mobile key : Bytes) : Prop := ∃ k : ServiceKey, k.mobile = mobile ∧ k.text = key

/-- The rows of a user are those with the user's uuid, and have the user's mobile. -/
structure Database.Owns (db : Database) (u : UserEntity) : Prop where
  same : ∀ row ∈ db.users, (db.sameUuid row.uuid u.uuid = true ↔ row.id = u.id)
  row : ∀ row ∈ db.users, row.id = u.id → row.uuid = u.uuid ∧ row.mobile = u.mobile

theorem Database.owns_of_unique {db : Database} (huuid : Unique (fun u => db.uuidKey u.uuid) db.users)
    (hid : Unique (·.id) db.users) {u : UserEntity} (hu : u ∈ db.users) : db.Owns u := by
  refine ⟨fun row hrow => ⟨fun h => ?_, fun h => ?_⟩, fun row hrow h => ?_⟩
  · have hkey : db.uuidKey row.uuid = db.uuidKey u.uuid := by simpa [Database.sameUuid] using h
    rw [huuid.eq_of_key hrow hu hkey]
  · rw [hid.eq_of_key hrow hu h]
    simp [Database.sameUuid]
  · rw [hid.eq_of_key hrow hu h]
    exact ⟨rfl, rfl⟩

/-- The rows of everybody else. -/
def Database.others (db : Database) (u : UserEntity) : List UserEntity × List TokenSession :=
  (db.users.filter (·.id ≠ u.id), db.sessions.filter (·.userId ≠ u.id))

/-- The rows of a user. -/
def Database.own (db : Database) (u : UserEntity) : List UserEntity × List TokenSession :=
  (db.users.filter (·.id = u.id), db.sessions.filter (·.userId = u.id))

/-- The command is about a user: the user's uuid, the user's sessions or a key of the user's mobile. -/
def Cmd.About (u : UserEntity) : Cmd → Prop
  | .now => True
  | .redis c => OfMobile u.mobile c.key
  | .sql (.selectUserByUuid uuid) => uuid = u.uuid
  | .sql (.updateUser upd) => upd.uuid = u.uuid
  | .sql (.deleteSessionsByUser userId) => userId = u.id
  | .sql _ => False

/-- A row that is found is a row of the user. -/
def Cmd.Finds (u : UserEntity) : (c : Cmd) → Service.Reply c → Prop
  | .sql (.selectUserByUuid _), reply =>
      ∀ row, reply = .ok (some row) → row.id = u.id ∧ row.uuid = u.uuid ∧ row.mobile = u.mobile
  | _, _ => True

section Statements

variable {db : Database} {u : UserEntity}

theorem UserUpdate.write_other (h : db.Owns u) {upd : UserUpdate} (hupd : upd.uuid = u.uuid) (second : Nat)
    {row : UserEntity} (hrow : row ∈ db.users) (hne : row.id ≠ u.id) : upd.write db second row = row := by
  have hother : ¬db.sameUuid row.uuid u.uuid = true := fun hsame => hne ((h.same row hrow).mp hsame)
  rw [UserUpdate.write, hupd, if_neg fun hboth => hother hboth.1]

theorem filter_map_write (upd : UserUpdate) (second : Nat) (p : Int → Bool) (rows : List UserEntity) :
    (rows.map (upd.write db second)).filter (fun row => p row.id) =
      (rows.filter (fun row => p row.id)).map (upd.write db second) := by
  rw [List.filter_map]
  refine congrArg (List.map _) (List.filter_congr fun row _ => ?_)
  simp

theorem find_own (h : db.Owns u) :
    db.users.find? (db.sameUuid ·.uuid u.uuid) = (db.users.filter (·.id = u.id)).head? := by
  rw [← List.head?_filter]
  refine congrArg _ (List.filter_congr fun row hrow => ?_)
  rw [Bool.eq_iff_iff, decide_eq_true_iff]
  exact h.same row hrow

theorem affected_own (h : db.Owns u) {upd : UserUpdate} (hupd : upd.uuid = u.uuid) :
    upd.affected db = (db.users.filter (·.id = u.id)).countP fun row => ¬upd.Holds row := by
  rw [UserUpdate.affected, List.countP_filter]
  refine List.countP_congr fun row hrow => ?_
  simp only [hupd, decide_eq_true_eq, Bool.and_eq_true, (h.same row hrow)]
  exact and_comm

/-- **One statement.** It leaves the rows of everybody else as they are, and what it returns and writes
depends on the rows of the user only. -/
theorem apply_about (h : db.Owns u) {s : SqlStmt} (hs : Cmd.About u (.sql s)) (second : Nat) :
    Cmd.Finds u (.sql s) (s.apply second db).1 ∧ (s.apply second db).2.Owns u ∧
      (s.apply second db).2.others u = db.others u ∧
      ∀ db' : Database, db'.Owns u → db'.uuidKey = db.uuidKey → db'.own u = db.own u →
        (s.apply second db').1 = (s.apply second db).1 ∧
          (s.apply second db').2.own u = (s.apply second db).2.own u := by
  cases s with
  | selectUserByUuid uuid =>
      obtain rfl : uuid = u.uuid := hs
      refine ⟨fun row hrow => ?_, h, rfl, fun db' h' hkey hown => ⟨?_, hown⟩⟩
      · have hfind : db.users.find? (db.sameUuid ·.uuid u.uuid) = some row := Except.ok.inj hrow
        have hmem := List.mem_of_find?_eq_some hfind
        have hid := (h.same row hmem).mp (by simpa using List.find?_some hfind)
        exact ⟨hid, h.row row hmem hid⟩
      · have husers : db'.users.filter (·.id = u.id) = db.users.filter (·.id = u.id) := congrArg Prod.fst hown
        simp only [SqlStmt.apply, find_own h, find_own h', husers]
  | updateUser upd =>
      have hupd : upd.uuid = u.uuid := hs
      refine ⟨trivial, ⟨?_, ?_⟩, ?_, fun db' h' hkey hown => ?_⟩
      · intro row hrow
        obtain ⟨old, hold, rfl⟩ := List.mem_map.mp hrow
        simp only [UserUpdate.write_uuid, UserUpdate.write_id]
        exact h.same old hold
      · intro row hrow
        obtain ⟨old, hold, rfl⟩ := List.mem_map.mp hrow
        simp only [UserUpdate.write_uuid, UserUpdate.write_id, UserUpdate.write_mobile]
        exact h.row old hold
      · refine Prod.ext ?_ rfl
        show (db.users.map (upd.write db second)).filter (·.id ≠ u.id) = db.users.filter (·.id ≠ u.id)
        rw [filter_map_write upd second (fun id => decide (id ≠ u.id))]
        refine (List.map_congr_left fun row hrow => ?_).trans (List.map_id _)
        obtain ⟨hmem, hne⟩ := List.mem_filter.mp hrow
        exact UserUpdate.write_other h hupd second hmem (by simpa using hne)
      · have husers : db'.users.filter (·.id = u.id) = db.users.filter (·.id = u.id) := congrArg Prod.fst hown
        have hsame : db'.sameUuid = db.sameUuid := by
          funext a b
          simp only [Database.sameUuid, hkey]
        have hwrite : upd.write db' second = upd.write db second := by
          funext row
          simp only [UserUpdate.write, hsame]
        have hsessions : db'.sessions.filter (·.userId = u.id) = db.sessions.filter (·.userId = u.id) :=
          congrArg Prod.snd hown
        refine ⟨?_, Prod.ext ?_ hsessions⟩
        · simp only [SqlStmt.apply, affected_own h hupd, affected_own h' hupd, husers]
        · show (db'.users.map (upd.write db' second)).filter (·.id = u.id) =
            (db.users.map (upd.write db second)).filter (·.id = u.id)
          rw [filter_map_write upd second (fun id => decide (id = u.id)),
            filter_map_write upd second (fun id => decide (id = u.id)), husers, hwrite]
  | deleteSessionsByUser userId =>
      obtain rfl : userId = u.id := hs
      refine ⟨trivial, ⟨h.same, h.row⟩, Prod.ext rfl ?_, fun db' h' hkey hown => ?_⟩
      · simp [SqlStmt.apply, Database.others, List.filter_filter]
      · have hsessions : db'.sessions.filter (·.userId = u.id) = db.sessions.filter (·.userId = u.id) :=
          congrArg Prod.snd hown
        have husers : db'.users.filter (·.id = u.id) = db.users.filter (·.id = u.id) := congrArg Prod.fst hown
        refine ⟨?_, Prod.ext husers ?_⟩
        · simp only [SqlStmt.apply, List.countP_eq_length_filter, hsessions]
        · simp [SqlStmt.apply, Database.own, List.filter_filter]
  | _ => cases hs

end Statements

/-- What a Redis command returns and writes depends on its own key only. -/
theorem RedisCmd.apply_congr (c : RedisCmd) (now : Nat) {s t : Redis} (h : s c.key = t c.key) :
    (c.apply now s).1 = (c.apply now t).1 ∧ (c.apply now s).2 c.key = (c.apply now t).2 c.key := by
  have hput : ∀ k e, s.put k e k = t.put k e k := fun k e => by simp [Store.put]
  have herase : ∀ k, s.erase k k = t.erase k k := fun k => by simp [Store.erase]
  cases c with
  | psetex k ttl v =>
      simp only [apply, RedisCmd.key] at h ⊢
      split
      · exact ⟨rfl, hput k _⟩
      · exact ⟨rfl, h⟩
  | get k | existsKey k =>
      have hlook : s.look now k = t.look now k := Store.look_congr t now k h
      simp only [apply, hlook]
      exact ⟨trivial, h⟩
  | del k =>
      have hlook : s.look now k = t.look now k := Store.look_congr t now k h
      simp only [apply, hlook]
      exact ⟨trivial, herase k⟩
  | pexpire k ttl =>
      have hlook : s.look now k = t.look now k := Store.look_congr t now k h
      simp only [apply, hlook]
      split
      · exact ⟨rfl, h⟩
      · split
        · exact ⟨rfl, hput k _⟩
        · exact ⟨rfl, herase k⟩
  | pttl k =>
      have hlook : s.look now k = t.look now k := Store.look_congr t now k h
      simp only [apply, hlook]
      split <;> exact ⟨rfl, h⟩
  | incr k =>
      have hlook : s.look now k = t.look now k := Store.look_congr t now k h
      simp only [apply, hlook]
      split
      · exact ⟨rfl, hput k _⟩
      · split
        · exact ⟨rfl, h⟩
        · split
          · exact ⟨rfl, hput k _⟩
          · exact ⟨rfl, h⟩

/-- Two worlds that agree on a user: the same clock, the same rows of the user and the same keys of the user's
mobile. -/
structure AgreeOn (u : UserEntity) (w w' : World) : Prop where
  clock : w'.clock = w.clock
  uuidKey : w'.db.uuidKey = w.db.uuidKey
  own : w'.db.own u = w.db.own u
  keys : ∀ key, OfMobile u.mobile key → w'.redis key = w.redis key

/-- Two worlds in which the same commands are about to fail. -/
def SameFaults (w w' : World) : Prop := w'.redisFaults = w.redisFaults ∧ w'.sqlFaults = w.sqlFaults

section Commands

variable {u : UserEntity} {w w' : World} {c : Cmd}

/-- **One command.** It leaves the rows of everybody else as they are. -/
theorem exec_about (h : w.db.Owns u) (hc : c.About u) :
    c.Finds u (exec c w).1 ∧ (exec c w).2.db.Owns u ∧ (exec c w).2.db.others u = w.db.others u := by
  cases c with
  | now => exact ⟨trivial, h, rfl⟩
  | redis c =>
      rw [exec_redis_db]
      exact ⟨trivial, h, rfl⟩
  | sql s =>
      obtain ⟨hfinds, howns, hothers, -⟩ := apply_about h hc (toTimeT w.clock)
      rcases execSql_cases w s with ⟨hreply, hdb⟩ | ⟨hreply, hdb⟩
      · refine ⟨?_, ?_, ?_⟩
        · show Cmd.Finds u (.sql s) (w.execSql s).1
          rw [hreply]
          cases s with
          | selectUserByUuid uuid => exact fun row hrow => by cases hrow
          | _ => trivial
        · exact (show (w.execSql s).2.db.Owns u from hdb ▸ h)
        · exact congrArg (Database.others · u) hdb
      · refine ⟨?_, ?_, ?_⟩
        · show Cmd.Finds u (.sql s) (w.execSql s).1
          rw [hreply]
          exact hfinds
        · exact (show (w.execSql s).2.db.Owns u from hdb ▸ howns)
        · exact (congrArg (Database.others · u) hdb).trans hothers

/-- **One command, twice.** In worlds that agree on the user it returns the same, and they still agree. -/
theorem exec_agree (h : w.db.Owns u) (h' : w'.db.Owns u) (hagree : AgreeOn u w w') (hfaults : SameFaults w w')
    (hc : c.About u) :
    (exec c w).1 = (exec c w').1 ∧ AgreeOn u (exec c w).2 (exec c w').2 ∧
      SameFaults (exec c w).2 (exec c w').2 := by
  obtain ⟨hclock, hkey, hown, hkeys⟩ := hagree
  obtain ⟨hredisFaults, hsqlFaults⟩ := hfaults
  cases c with
  | now => exact ⟨hclock.symm, ⟨hclock, hkey, hown, hkeys⟩, hredisFaults, hsqlFaults⟩
  | redis c =>
      have hsame := hkeys c.key hc
      simp only [exec, World.execRedis, hredisFaults]
      split
      · exact ⟨rfl, ⟨hclock, hkey, hown, hkeys⟩, rfl, hsqlFaults⟩
      · obtain ⟨hreply, heffect⟩ := c.apply_congr w.clock hsame
        rw [hclock]
        refine ⟨hreply.symm, ⟨rfl, hkey, hown, fun key hmobile => ?_⟩, rfl, hsqlFaults⟩
        by_cases hk : key = c.key
        · subst hk
          exact heffect
        · show (c.apply w.clock w'.redis).2 key = (c.apply w.clock w.redis).2 key
          rw [c.apply_ne _ _ hk, c.apply_ne _ _ hk]
          exact hkeys key hmobile
  | sql s =>
      obtain ⟨-, -, -, hboth⟩ := apply_about h hc (toTimeT w.clock)
      obtain ⟨hreply, heffect⟩ := hboth w'.db h' hkey hown
      simp only [exec, World.execSql, hsqlFaults]
      split
      · exact ⟨rfl, ⟨hclock, hkey, hown, hkeys⟩, hredisFaults, rfl⟩
      · rw [hclock]
        refine ⟨hreply.symm, ⟨rfl, ?_, heffect, hkeys⟩, hredisFaults, rfl⟩
        show (s.apply (toTimeT w.clock) w'.db).2.uuidKey = (s.apply (toTimeT w.clock) w.db).2.uuidKey
        rw [SqlStmt.apply_uuidKey, SqlStmt.apply_uuidKey, hkey]

end Commands

section Programs

variable {u : UserEntity}

/-- The program is about the user, and its result satisfies `R`. -/
abbrev AboutUser {α : Type} (u : UserEntity) (R : α → Prop) (p : Action α) : Prop :=
  Program.Within (Cmd.About u) (Cmd.Finds u) R p

theorem about_of_uses {α : Type} {p : Action α} (hp : Program.Uses (Cmd.About u) p) :
    AboutUser u (fun _ => True) p :=
  hp.within _

theorem about_orFail {α β : Type} {r : Result α} {next : α → Action (Result β)}
    (h : ∀ a, r = .ok a → AboutUser u (fun _ => True) (next a)) :
    AboutUser u (fun _ => True) (orFail r next) := by
  cases r with
  | ok a => exact h a rfl
  | fail code message => trivial

theorem about_requireValid {α : Type} {check : Except String Unit} {next : Action (Result α)}
    (h : AboutUser u (fun _ => True) next) : AboutUser u (fun _ => True) (requireValid check next) := by
  cases check with
  | ok _ => exact h
  | error message => trivial

theorem about_requireUuid {α : Type} {uuid : Bytes} {next : Action (Result α)}
    (h : AboutUser u (fun _ => True) next) :
    AboutUser u (fun _ => True) (UserService.requireUuid uuid next) := by
  unfold UserService.requireUuid
  split
  · trivial
  · exact h

/-- What `FindByUUID` returns for the user's uuid. -/
theorem about_findByUUID :
    AboutUser u (fun r => ∀ row, r = .ok row → row.id = u.id ∧ row.uuid = u.uuid ∧ row.mobile = u.mobile)
      (UserDB.findByUUID u.uuid) := by
  refine ⟨rfl, fun reply hreply => ?_⟩
  rcases reply with e | _ | row
  · intro row hrow
    cases hrow
  · intro row hrow
    cases hrow
  · intro row' hrow
    cases hrow
    exact hreply row rfl

theorem about_update {user : UserEntity} (h : user.uuid = u.uuid) :
    AboutUser u (fun _ => True) (UserDB.update user) :=
  about_of_uses (uses_update h)

theorem about_verifyCaptcha (config : SmsConfig) (scene : SmsScene) (code : Bytes) :
    AboutUser u (fun _ => True) (verifyCaptcha config scene u.mobile code) := by
  refine about_of_uses ((uses_verifyCaptcha config scene u.mobile code).mono fun c hc => ?_)
  cases c with
  | redis c =>
      rcases hc with h | h | h | h
      · exact ⟨.code scene u.mobile, rfl, h.symm⟩
      · exact ⟨.count scene u.mobile, rfl, h.symm⟩
      · exact ⟨.lock scene u.mobile, rfl, h.symm⟩
      · exact ⟨.interval u.mobile, rfl, h.symm⟩
  | now => cases hc
  | sql s => cases hc

theorem about_getUser : AboutUser u (fun _ => True) (UserService.getUser u.uuid) := by
  refine about_requireUuid (about_findByUUID.bind fun r hr => about_orFail fun user _ => ?_)
  trivial

theorem about_updateUser (displayName : Option Bytes) :
    AboutUser u (fun _ => True) (UserService.updateUser u.uuid displayName) := by
  refine about_requireUuid (about_findByUUID.bind fun r hr => about_orFail fun user huser => ?_)
  obtain ⟨-, huuid, -⟩ := hr user huser
  split
  · trivial
  · cases displayName with
    | none => trivial
    | some name =>
        refine about_requireValid ((about_update ?_).bind fun _ _ => about_orFail fun _ _ => ?_)
        · exact huuid
        · trivial

theorem about_changePassword (env : Env) (draws : Draws) (oldPassword newPassword : Bytes) :
    AboutUser u (fun _ => True) (UserService.changePassword env draws u.uuid oldPassword newPassword) := by
  refine about_requireUuid (about_requireValid (about_requireValid ?_))
  split
  · trivial
  · refine about_findByUUID.bind fun r hr => about_orFail fun user huser => ?_
    obtain ⟨-, huuid, -⟩ := hr user huser
    split
    · trivial
    · split
      · trivial
      · refine (about_update ?_).bind fun _ _ => about_orFail fun _ _ => ?_
        · exact huuid
        · trivial

theorem about_deleteUser (env : Env) (verifyCode : Bytes) :
    AboutUser u (fun _ => True) (UserService.deleteUser env u.uuid verifyCode) := by
  refine about_requireUuid (about_requireValid ?_)
  refine about_findByUUID.bind fun r hr => about_orFail fun user huser => ?_
  obtain ⟨hid, huuid, hmobile⟩ := hr user huser
  rw [hmobile]
  refine (about_verifyCaptcha _ _ _).bind fun _ _ => about_orFail fun _ _ => ?_
  refine (about_of_uses (uses_deleteByUserId hid)).bind fun _ _ => ?_
  refine (about_update ?_).bind fun _ _ => about_orFail fun _ _ => ?_
  · exact huuid
  · trivial

end Programs

/-- A remote call of a run: the time since the one before, the header, what it draws, and which of its commands
fail. -/
structure RpcCall where
  delay : Nat
  header : Option Bytes
  rpc : Rpc
  draws : Draws
  redisFaults : List (Option String) := []
  sqlFaults : List Bool := []

/-- The world in which a remote call is made. -/
def RpcCall.world (call : RpcCall) (w : World) : World :=
  { w with
    clock := w.clock + call.delay
    redisFaults := call.redisFaults
    sqlFaults := call.sqlFaults }

/-- Serve one remote call. -/
def serveRpc (env : Env) (call : RpcCall) (w : World) : Result RpcAnswer × World :=
  (UserHandler.serve env call.draws call.header call.rpc).run (call.world w)

/-- Whenever the token of the header is accepted, it names the user and carries the role of a plain user. -/
def Plain (env : Env) (u : UserEntity) (header : Option Bytes) : Prop :=
  ∀ text ∈ header, ∀ now payload,
    verifyAccessToken env.crypto env.config.security now (text.drop UserHandler.bearer.length) = .ok payload →
      payload.userUuid = u.uuid ∧ payload.role = .user

/-- The header that carries a token. -/
def UserHandler.withToken (token : Bytes) : Option Bytes := some (UserHandler.bearer ++ token)

/-- An access token names the user it was made for, whenever it is accepted. -/
theorem plain_generateAccessToken (env : Env) {u user : UserEntity} (issued : Nat) (jti : Jti)
    (hmobile : isValidMobile user.mobile = .ok ()) (huuid : IsUuidText user.uuid) (hsame : user.uuid = u.uuid)
    (hrole : user.role = .user) :
    Plain env u
      (UserHandler.withToken (generateAccessToken env.crypto env.config.security issued jti user)) := by
  intro text htext now payload hok
  cases htext
  rw [List.drop_left] at hok
  cases hi : survives env.config.security.jwtIssuer with
  | false => exact absurd hok (verifyAccessToken_of_not_survives env.crypto now issued jti hmobile huuid hi payload)
  | true =>
      rw [generateAccessToken, verifyAccessToken, if_neg (createJwt_ne_nil env.crypto _ _), verifyJwt_createJwt,
        parseJson_access issued jti hmobile huuid hi] at hok
      split at hok
      · cases hok
      · rename_i claims hcheck
        rw [checkExp_ok hcheck] at hok
        have huid : (accessClaims env.config.security issued jti user).find (ascii "uid") = some user.uuid := rfl
        have hroleText : (accessClaims env.config.security issued jti user).find (ascii "role") =
            some (userRoleToString user.role) := rfl
        simp only [huid, hroleText, Option.getD_some] at hok
        iterate 5 (split at hok; · cases hok)
        split at hok
        · cases hok
        · cases hok
          exact ⟨hsame, by rw [stringToUserRole_userRoleToString, hrole]⟩

section Rpc

variable {env : Env} {u : UserEntity} {header : Option Bytes}

theorem about_authenticate (h : Plain env u header) :
    AboutUser u (fun r => ∀ auth, r = .ok auth → auth.userUuid = u.uuid ∧ auth.role = .user)
      (UserHandler.authenticate env header) := by
  cases header with
  | none => exact fun auth hauth => by cases hauth
  | some text =>
      unfold UserHandler.authenticate
      simp only
      split
      · exact fun auth hauth => by cases hauth
      · split
        · exact fun auth hauth => by cases hauth
        · refine ⟨trivial, fun t _ => ?_⟩
          simp only [Program.bind]
          cases hverify : verifyAccessToken env.crypto env.config.security t
              (text.drop UserHandler.bearer.length) with
          | fail code message => exact fun auth hauth => by cases hauth
          | ok payload =>
              intro auth hauth
              cases hauth
              exact h text rfl t payload hverify

/-- A remote call of a plain user is about that user. -/
theorem about_serve (h : Plain env u header) (draws : Draws) (rpc : Rpc) :
    AboutUser u (fun _ => True) (UserHandler.serve env draws header rpc) := by
  have hbehind : ∀ {next : AuthContext → Action (Result RpcAnswer)},
      (∀ auth, auth.userUuid = u.uuid → auth.role = .user → AboutUser u (fun _ => True) (next auth)) →
        AboutUser u (fun _ => True) (UserHandler.authenticate env header >>= fun r => orFail r next) := by
    intro next hnext
    refine (about_authenticate h).bind fun r hr => about_orFail fun auth hauth => ?_
    obtain ⟨huuid, hrole⟩ := hr auth hauth
    exact hnext auth huuid hrole
  have hadmin : ∀ {auth : AuthContext} {next : Action (Result RpcAnswer)}, auth.role = .user →
      AboutUser u (fun _ => True) (UserHandler.requireAdmin auth next) := by
    intro auth next hrole
    rw [UserHandler.requireAdmin, if_pos (by rw [hrole]; decide)]
    trivial
  cases rpc with
  | getCurrentUser =>
      refine hbehind fun auth huuid _ => ?_
      rw [huuid]
      exact about_getUser.bind fun _ _ => trivial
  | updateUser displayName =>
      refine hbehind fun auth huuid _ => ?_
      rw [huuid]
      exact (about_updateUser displayName).bind fun _ _ => trivial
  | changePassword oldPassword newPassword =>
      refine hbehind fun auth huuid _ => ?_
      rw [huuid]
      split
      · trivial
      · split
        · trivial
        · exact about_requireValid ((about_changePassword env draws oldPassword newPassword).bind fun _ _ => trivial)
  | deleteUser verifyCode =>
      refine hbehind fun auth huuid _ => ?_
      rw [huuid]
      exact about_requireValid ((about_deleteUser env verifyCode).bind fun _ _ => trivial)
  | getUser id => exact hbehind fun auth _ hrole => hadmin hrole
  | listUsers page mobileFilter disabledFilter => exact hbehind fun auth _ hrole => hadmin hrole

end Rpc

/-- Two worlds in which the user owns the same, and everybody else what they owned at the start. -/
structure Isolated (u : UserEntity) (rest rest' : List UserEntity × List TokenSession) (w w' : World) : Prop where
  owns : w.db.Owns u
  owns' : w'.db.Owns u
  agree : AgreeOn u w w'
  others : w.db.others u = rest
  others' : w'.db.others u = rest'

section Runs

variable {env : Env} {u : UserEntity} {rest rest' : List UserEntity × List TokenSession} {w w' : World}

theorem Isolated.exec (h : Isolated u rest rest' w w') (hfaults : SameFaults w w') {c : Cmd} (hc : c.About u) :
    c.Finds u (exec c w).1 ∧ (exec c w).1 = (exec c w').1 ∧
      Isolated u rest rest' (AccountService.exec c w).2 (AccountService.exec c w').2 ∧
      SameFaults (AccountService.exec c w).2 (AccountService.exec c w').2 := by
  obtain ⟨hfinds, howns, hothers⟩ := exec_about h.owns hc
  obtain ⟨-, howns', hothers'⟩ := exec_about h.owns' hc
  obtain ⟨hreply, hagree, hnext⟩ := exec_agree h.owns h.owns' h.agree hfaults hc
  exact ⟨hfinds, hreply, ⟨howns, howns', hagree, hothers.trans h.others, hothers'.trans h.others'⟩, hnext⟩

/-- **One remote call.** It answers the same in both worlds and keeps them isolated. -/
theorem Isolated.serve (h : Isolated u rest rest' w w') {call : RpcCall} (hplain : Plain env u call.header) :
    (serveRpc env call w).1 = (serveRpc env call w').1 ∧
      Isolated u rest rest' (serveRpc env call w).2 (serveRpc env call w').2 := by
  have hstart : Isolated u rest rest' (call.world w) (call.world w') := by
    obtain ⟨howns, howns', ⟨hclock, hkey, hown, hkeys⟩, hothers, hothers'⟩ := h
    refine ⟨howns, howns', ⟨?_, hkey, hown, hkeys⟩, hothers, hothers'⟩
    exact congrArg (· + call.delay) hclock
  obtain ⟨hanswer, hnext, -⟩ := Program.run_lockstep AccountService.exec
    (J := fun s t => Isolated u rest rest' s t ∧ SameFaults s t)
    (fun c hc s t hst => hst.1.exec hst.2 hc) (about_serve hplain call.draws call.rpc) ⟨hstart, rfl, rfl⟩
  exact ⟨hanswer, hnext⟩

theorem Isolated.history (h : Isolated u rest rest' w w') {calls : List RpcCall}
    (hplain : ∀ call ∈ calls, Plain env u call.header) :
    (history (serveRpc env) calls w).1 = (history (serveRpc env) calls w').1 ∧
      Isolated u rest rest' (history (serveRpc env) calls w).2 (history (serveRpc env) calls w').2 := by
  induction calls using List.reverseRecOn with
  | nil => exact ⟨rfl, h⟩
  | append_singleton earlier call ih =>
      obtain ⟨hsame, hnow⟩ := ih fun c hc => hplain c (List.mem_append_left _ hc)
      obtain ⟨hanswer, hnext⟩ := hnow.serve (hplain call (List.mem_append_right _ List.mem_cons_self))
      rw [history_snoc, history_snoc]
      exact ⟨by rw [hsame, hanswer], hnext⟩

end Runs

/-- **Isolation.** A run of remote calls, all made with access tokens of a plain user, leaves the rows of
everybody else as they are, and in any other world with the same rows and keys of the user the same calls get
the same responses. -/
theorem user_isolation (env : Env) {w : World} (u : UserEntity) (hu : u ∈ w.db.users)
    (huuid : Unique (fun row => w.db.uuidKey row.uuid) w.db.users) (hid : Unique (·.id) w.db.users)
    (calls : List RpcCall) (hplain : ∀ call ∈ calls, Plain env u call.header) :
    (history (serveRpc env) calls w).2.db.others u = w.db.others u ∧
      ∀ w' : World, u ∈ w'.db.users → Unique (fun row => w'.db.uuidKey row.uuid) w'.db.users →
        Unique (·.id) w'.db.users → AgreeOn u w w' →
          (history (serveRpc env) calls w').1 = (history (serveRpc env) calls w).1 := by
  have howns := Database.owns_of_unique huuid hid hu
  refine ⟨?_, fun w' hu' huuid' hid' hagree => ?_⟩
  · -- the frame is the case of one and the same world
    have hself : Isolated u (w.db.others u) (w.db.others u) w w :=
      ⟨howns, howns, ⟨rfl, rfl, rfl, fun _ _ => rfl⟩, rfl, rfl⟩
    exact (hself.history hplain).2.others
  · have hboth : Isolated u (w.db.others u) (w'.db.others u) w w' :=
      ⟨howns, Database.owns_of_unique huuid' hid' hu', hagree, rfl, rfl⟩
    exact (hboth.history hplain).1.symm

/-- A database with the user and one more. -/
def neighbours : World :=
  let other : UserEntity := {
    id := 2, uuid := ascii "9b2c1f6e-0d3a-4c5b-8e7f-1a2b3c4d5e6f", mobile := ascii "13900139000" }
  { emptyWorld 1700000000000000000 with db := { Database.empty id with users := [sampleUser, other] } }

/-- The same user alone. -/
def noNeighbours : World :=
  { emptyWorld 1700000000000000000 with db := { Database.empty id with users := [sampleUser] } }

/-- The header with an access token of the sample user. -/
def sampleHeader : Option Bytes :=
  UserHandler.withToken
    (generateAccessToken defaultEnv.crypto defaultEnv.config.security 1700000000000000000 sampleJti sampleUser)

/-- The user changes the display name, and tries to list all users. -/
def neighbourCalls : List RpcCall :=
  [.updateUser (some (ascii "Alice")), .listUsers none [] none, .getCurrentUser].map fun rpc =>
    { delay := 1000000000, header := sampleHeader, rpc := rpc, draws := (Call.sample 0 .cleanExpiredTokens).draws }

theorem user_isolation_sample :
    (history (serveRpc defaultEnv) neighbourCalls neighbours).2.db.others sampleUser =
        neighbours.db.others sampleUser ∧
      (history (serveRpc defaultEnv) neighbourCalls noNeighbours).1 =
        (history (serveRpc defaultEnv) neighbourCalls neighbours).1 := by
  have hplain : ∀ call ∈ neighbourCalls, Plain defaultEnv sampleUser call.header := by
    intro call hcall
    obtain ⟨rpc, -, rfl⟩ := List.mem_map.mp hcall
    exact plain_generateAccessToken defaultEnv 1700000000000000000 sampleJti (by decide) (by decide +kernel) rfl rfl
  have hunique : ∀ rows : List UserEntity, (rows.map (·.uuid)).Nodup ∧ (rows.map (·.id)).Nodup →
      Unique (fun row => (id row.uuid : Bytes)) rows ∧ Unique (·.id) rows := fun rows h => h
  obtain ⟨huuid, hid⟩ := hunique neighbours.db.users (by decide +kernel)
  obtain ⟨huuid', hid'⟩ := hunique noNeighbours.db.users (by decide +kernel)
  obtain ⟨hothers, hsame⟩ := user_isolation defaultEnv sampleUser List.mem_cons_self huuid hid neighbourCalls hplain
  exact ⟨hothers, hsame noNeighbours List.mem_cons_self huuid' hid'
    ⟨rfl, rfl, by decide +kernel, fun _ _ => rfl⟩⟩

end AccountService
