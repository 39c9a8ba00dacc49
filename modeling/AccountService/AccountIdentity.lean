import AccountService.RevocationRace

/-! Who an account is never changes: its id, uuid, mobile, role and time of creation are those with which its row
was inserted, in every interleaving of requests and whatever fails. An update writes the role it has read back,
and no statement removes a row. What a token says of its account is therefore never out of date. -/

namespace AccountService

open AuthService Interaction JwtService Table

/-- The columns of a row that say who the account is. -/
structure Identity where
  id : Int
  uuid : Bytes
  mobile : Bytes
  role : UserRole
  createdAt : Nat
  deriving DecidableEq

def UserEntity.identity (user : UserEntity) : Identity where
  id := user.id
  uuid := user.uuid
  mobile := user.mobile
  role := user.role
  createdAt := user.createdAt

def Database.identities (db : Database) : List Identity := db.users.map UserEntity.identity

theorem Database.mem_identities {db : Database} {i : Identity} :
    i ∈ db.identities ↔ ∃ user ∈ db.users, user.identity = i := List.mem_map

/-- The access token that an answer carries. -/
def Answer.access? : Answer → Option Bytes
  | .signedIn result => some result.tokens.accessToken
  | .tokens pair => some pair.accessToken
  | _ => none

section Conversation

variable (env : Env) (drawn : Bytes → Prop) (known : List Identity) (time : Nat)

/-- A command that may be sent: an update with the role of its account, or a row for a new account. -/
def Sends : Cmd → Prop
  | .sql (.updateUser u) => ∃ i ∈ known, i.uuid = u.uuid ∧ i.role = u.role
  | .sql (.insertUser uuid mobile _ _ role) => drawn uuid ∧ isValidMobile mobile = .ok () ∧ role = .user
  | _ => True

/-- A reply that may come: the row of a known account, and an instant that is past. -/
def Replies : (c : Cmd) → c.Reply → Prop
  | .now, t => t ≤ time
  | .sql (.selectUserById _), reply => ∀ user, reply = .ok (some user) → user.identity ∈ known
  | .sql (.selectUserByUuid _), reply => ∀ user, reply = .ok (some user) → user.identity ∈ known
  | .sql (.selectUserByMobile _), reply => ∀ user, reply = .ok (some user) → user.identity ∈ known
  | _, _ => True

/-- The access token was made for a known account at a past instant. -/
def Vouched (access : Bytes) : Prop :=
  ∃ user t jti, UserEntity.identity user ∈ known ∧ t ≤ time ∧
    access = generateAccessToken env.crypto env.config.security t jti user

/-- An outcome that may be returned. -/
def Answers : Outcome Answer → Prop
  | .returned (.ok answer) => ∀ access ∈ answer.access?, Vouched env known time access
  | _ => True

end Conversation

section Requests

variable {env : Env} {draws : Draws} {drawn : Bytes → Prop} {known : List Identity} {time : Nat}

/-- A program whose commands are all unimportant. -/
theorem within_of_uses {α : Type} {p : Action α} (h : Program.Uses (Sends drawn known) p) :
    Program.Within (Sends drawn known) (Replies known time) (fun _ => True) p := h.within _

theorem within_of_redis {α : Type} {p : Action α} {keys : Bytes → Prop}
    (h : Program.Uses (Cmd.RedisOn keys) p) :
    Program.Within (Sends drawn known) (Replies known time) (fun _ => True) p := by
  refine within_of_uses (h.mono fun c hc => ?_)
  cases c with
  | redis c => trivial
  | now => trivial
  | sql s => exact absurd hc id

/-- A look-up that finds a row finds the row of a known account. -/
def OfKnown (known : List Identity) (r : Result UserEntity) : Prop := ∀ user, r = .ok user → user.identity ∈ known

theorem found_fail (code : ErrorCode) (message : String) : OfKnown known (.fail code message) :=
  fun user h => by cases h

theorem found_ok {user : UserEntity} (h : user.identity ∈ known) : OfKnown known (.ok user) := by
  intro user' h'
  cases h'
  exact h

theorem within_findByUUID (uuid : Bytes) :
    Program.Within (Sends drawn known) (Replies known time) (OfKnown known) (UserDB.findByUUID uuid) := by
  refine ⟨trivial, fun reply hreply => ?_⟩
  rcases reply with e | (_ | user)
  · exact found_fail _ _
  · exact found_fail _ _
  · exact found_ok (hreply user rfl)

theorem within_findById (id : Int) :
    Program.Within (Sends drawn known) (Replies known time) (OfKnown known) (UserDB.findById id) := by
  refine ⟨trivial, fun reply hreply => ?_⟩
  rcases reply with e | (_ | user)
  · exact found_fail _ _
  · exact found_fail _ _
  · exact found_ok (hreply user rfl)

theorem within_findByMobile (mobile : Bytes) :
    Program.Within (Sends drawn known) (Replies known time) (OfKnown known) (UserDB.findByMobile mobile) := by
  refine ⟨trivial, fun reply hreply => ?_⟩
  rcases reply with e | (_ | user)
  · exact found_fail _ _
  · exact found_fail _ _
  · exact found_ok (hreply user rfl)

theorem within_create {uuid : Bytes} {user : UserEntity} (huuid : drawn uuid)
    (hmobile : isValidMobile user.mobile = .ok ()) (hrole : user.role = .user) :
    Program.Within (Sends drawn known) (Replies known time) (OfKnown known) (UserDB.create uuid user) := by
  refine ⟨⟨huuid, hmobile, hrole⟩, fun reply _ => ?_⟩
  rcases reply with (key | _) | _
  · cases key <;> exact found_fail _ _
  · exact found_fail _ _
  · exact within_findByUUID uuid

/-- An update of a row that has been read, with another name, password or state. -/
theorem within_update {user changed : UserEntity} (h : user.identity ∈ known) (huuid : changed.uuid = user.uuid)
    (hrole : changed.role = user.role) :
    Program.Within (Sends drawn known) (Replies known time) (fun _ => True) (UserDB.update changed) :=
  within_of_uses (uses_update ⟨user.identity, h, huuid.symm, hrole.symm⟩)

theorem within_generateTokenPair {user : UserEntity} (h : user.identity ∈ known) :
    Program.Within (Sends drawn known) (Replies known time) (fun tokens => Vouched env known time tokens.accessToken)
      (generateTokenPair env draws user) :=
  ⟨trivial, fun t ht => ⟨trivial, fun _ _ => ⟨user, t, draws.accessJti, h, ht, rfl⟩⟩⟩

/-- The result carries a token for a known account. -/
def SignedIn (env : Env) (known : List Identity) (time : Nat) (r : Result AuthResult) : Prop :=
  ∀ result, r = .ok result → Vouched env known time result.tokens.accessToken

theorem signedIn_fail (code : ErrorCode) (message : String) : SignedIn env known time (.failWith code message) :=
  fun result h => by cases h

theorem within_signIn {user : UserEntity} (h : user.identity ∈ known) :
    Program.Within (Sends drawn known) (Replies known time) (SignedIn env known time) (signIn env draws user) := by
  refine (within_generateTokenPair h).bind fun tokens htokens => ?_
  refine (within_of_uses (uses_storeRefreshToken env _ trivial fun _ _ => trivial)).bind fun _ _ => ?_
  intro result hresult
  cases hresult
  exact htokens

theorem within_orFail {α β : Type} {R : Result β → Prop} {Q : Result α → Prop} {r : Result α}
    {next : α → Action (Result β)} (hr : Q r) (hfail : ∀ code message, R (.failWith code message))
    (h : ∀ a, Q (.ok a) → Program.Within (Sends drawn known) (Replies known time) R (next a)) :
    Program.Within (Sends drawn known) (Replies known time) R (orFail r next) := by
  cases r with
  | ok a => exact h a hr
  | fail code message => exact hfail code message

theorem within_requireValid {α : Type} {R : Result α → Prop} {check : Except String Unit}
    {next : Action (Result α)} (hfail : ∀ code message, R (.failWith code message))
    (h : check = .ok () → Program.Within (Sends drawn known) (Replies known time) R next) :
    Program.Within (Sends drawn known) (Replies known time) R (requireValid check next) := by
  cases check with
  | error message => exact hfail _ _
  | ok _ => exact h rfl

theorem within_verifyCaptcha (scene : SmsScene) (mobile input : Bytes) :
    Program.Within (Sends drawn known) (Replies known time) (fun _ => True)
      (verifyCaptcha env.config.sms scene mobile input) :=
  within_of_redis (uses_verifyCaptcha _ _ _ _)

/-- The requests that hand out a token. -/
theorem within_register (huuid : drawn draws.uuid) (mobile verifyCode password displayName : Bytes) :
    Program.Within (Sends drawn known) (Replies known time) (SignedIn env known time)
      (register env draws mobile verifyCode password displayName) := by
  refine within_requireValid signedIn_fail fun hmobile => within_requireValid signedIn_fail fun _ =>
    within_requireValid signedIn_fail fun _ => within_requireValid signedIn_fail fun _ => ?_
  refine (within_verifyCaptcha _ _ _).bind fun r _ => within_orFail (Q := fun _ => True) trivial signedIn_fail
    fun _ _ => ?_
  refine (within_create huuid hmobile rfl).bind fun r hr => ?_
  exact within_orFail hr signedIn_fail fun user huser => within_signIn (huser user rfl)

theorem within_loginByPassword (mobile password : Bytes) :
    Program.Within (Sends drawn known) (Replies known time)
      (fun o => ∀ result, o = .returned (.ok result) → Vouched env known time result.tokens.accessToken)
      (loginByPassword env draws mobile password) := by
  have hkey : ∀ c : RedisCmd, c.key = loginFailKey mobile → Sends drawn known (.redis c) := fun _ _ => trivial
  have hfailed : ∀ code message result, (.returned (.failWith code message) : Outcome AuthResult) =
      .returned (.ok result) → Vouched env known time result.tokens.accessToken := by simp
  unfold loginByPassword
  split
  · exact hfailed _ _
  · split
    · exact hfailed _ _
    · refine (within_of_uses (uses_checkLoginFailedAttempts env hkey)).bind fun attempt _ => ?_
      cases attempt with
      | none =>
          intro result h
          cases h
      | some attempt =>
          refine Program.Within.bind (R := SignedIn env known time) ?_ fun r hr result h => ?_
          swap
          · cases h
            exact hr result rfl
          refine within_orFail (Q := fun _ => True) trivial signedIn_fail fun _ _ => ?_
          refine (within_findByMobile mobile).bind fun r hr => ?_
          cases r with
          | fail code message =>
              dsimp only
              split
              · exact (within_of_uses (uses_recordLoginFailure env hkey)).bind fun _ _ => signedIn_fail _ _
              · exact signedIn_fail _ _
          | ok user =>
              dsimp only
              split
              · exact signedIn_fail _ _
              · split
                · exact (within_of_uses (uses_recordLoginFailure env hkey)).bind fun _ _ => signedIn_fail _ _
                · exact (within_of_uses (uses_clearLoginFailure hkey)).bind fun _ _ => within_signIn (hr user rfl)

theorem within_loginByCode (mobile verifyCode : Bytes) :
    Program.Within (Sends drawn known) (Replies known time) (SignedIn env known time)
      (loginByCode env draws mobile verifyCode) := by
  refine within_requireValid signedIn_fail fun _ => within_requireValid signedIn_fail fun _ => ?_
  refine (within_verifyCaptcha _ _ _).bind fun r _ => within_orFail (Q := fun _ => True) trivial signedIn_fail
    fun _ _ => ?_
  refine (within_findByMobile mobile).bind fun r hr => ?_
  cases r with
  | fail code message =>
      dsimp only
      split <;> exact signedIn_fail _ _
  | ok user =>
      dsimp only
      split
      · exact signedIn_fail _ _
      · exact (within_of_uses (uses_clearLoginFailure fun _ _ => trivial)).bind fun _ _ => within_signIn (hr user rfl)

theorem within_refreshToken (token : Bytes) :
    Program.Within (Sends drawn known) (Replies known time)
      (fun o => ∀ pair, o = .returned (.ok pair) → Vouched env known time pair.accessToken)
      (refreshToken env draws token) := by
  have hfailed : ∀ code message pair, (.returned (.fail code message) : Outcome TokenPair) =
      .returned (.ok pair) → Vouched env known time pair.accessToken := by simp
  have hfail : ∀ code message pair, (.failWith code message : Result TokenPair) = .ok pair →
      Vouched env known time pair.accessToken := by simp
  unfold refreshToken
  split
  · exact hfailed _ _
  · refine (within_of_uses (uses_now trivial)).bind fun t _ => ?_
    unfold refreshAt
    split
    · exact hfailed _ _
    · split
      · intro pair h
        cases h
      · refine Program.Within.bind (R := fun r => ∀ pair, r = .ok pair → Vouched env known time pair.accessToken) ?_
          fun r hr pair h => ?_
        swap
        · cases h
          exact hr pair rfl
        refine (within_findById _).bind fun r hr => within_orFail hr hfail fun user huser => ?_
        split
        · exact hfail _ _
        · refine (within_of_uses (uses_sqlCall (s := .selectValidSession _) trivial)).bind fun r _ =>
            within_orFail (Q := fun _ => True) trivial hfail fun valid _ => ?_
          split
          · exact hfail _ _
          · refine (within_of_uses (uses_deleteByTokenHash trivial)).bind fun _ _ => ?_
            refine (within_generateTokenPair (huser user rfl)).bind fun tokens htokens => ?_
            refine (within_of_uses (uses_storeRefreshToken env _ trivial fun _ _ => trivial)).bind fun _ _ => ?_
            intro pair h
            cases h
            exact htokens

/-- The requests that change a row. -/
theorem within_resetPassword (mobile verifyCode newPassword : Bytes) :
    Program.Within (Sends drawn known) (Replies known time) (fun _ => True)
      (resetPassword env draws mobile verifyCode newPassword) := by
  have hfail : ∀ code message, (fun _ : Result Unit => True) (.failWith code message) := fun _ _ => trivial
  refine within_requireValid hfail fun _ => within_requireValid hfail fun _ => within_requireValid hfail fun _ => ?_
  refine (within_verifyCaptcha _ _ _).bind fun r _ => within_orFail (Q := fun _ => True) trivial hfail fun _ _ => ?_
  refine (within_findByMobile mobile).bind fun r hr => ?_
  cases r with
  | fail code message =>
      dsimp only
      split <;> trivial
  | ok user =>
      refine Program.Within.bind (within_update (hr user rfl) rfl rfl) fun r _ =>
        within_orFail (Q := fun _ => True) trivial hfail fun _ _ => ?_
      refine within_of_uses (Program.Uses.bind (uses_deleteByUserId trivial) fun _ => ?_)
      exact Program.Uses.bind (uses_clearLoginFailure fun _ _ => trivial) fun _ => trivial

theorem within_requireUuid {α : Type} {R : Result α → Prop} {uuid : Bytes} {next : Action (Result α)}
    (hfail : ∀ code message, R (.failWith code message))
    (h : Program.Within (Sends drawn known) (Replies known time) R next) :
    Program.Within (Sends drawn known) (Replies known time) R (UserService.requireUuid uuid next) := by
  unfold UserService.requireUuid
  split
  · exact hfail _ _
  · exact h

theorem within_updateUser (userUuid : Bytes) (displayName : Option Bytes) :
    Program.Within (Sends drawn known) (Replies known time) (fun _ => True)
      (UserService.updateUser userUuid displayName) := by
  have hfail : ∀ code message, (fun _ : Result UserEntity => True) (.failWith code message) := fun _ _ => trivial
  refine within_requireUuid hfail ((within_findByUUID userUuid).bind fun r hr => within_orFail hr hfail
    fun user huser => ?_)
  split
  · trivial
  · cases displayName with
    | none => trivial
    | some name =>
        refine within_requireValid hfail fun _ => Program.Within.bind (within_update (huser user rfl) rfl rfl) fun r _ => ?_
        exact within_orFail (Q := fun _ => True) trivial hfail fun _ _ => trivial

theorem within_changePassword (userUuid oldPassword newPassword : Bytes) :
    Program.Within (Sends drawn known) (Replies known time) (fun _ => True)
      (UserService.changePassword env draws userUuid oldPassword newPassword) := by
  have hfail : ∀ code message, (fun _ : Result Unit => True) (.failWith code message) := fun _ _ => trivial
  refine within_requireUuid hfail (within_requireValid hfail fun _ => within_requireValid hfail fun _ => ?_)
  split
  · trivial
  · refine (within_findByUUID userUuid).bind fun r hr => within_orFail hr hfail fun user huser => ?_
    split
    · trivial
    · split
      · trivial
      · refine Program.Within.bind (within_update (huser user rfl) rfl rfl) fun r _ => ?_
        exact within_orFail (Q := fun _ => True) trivial hfail fun _ _ => trivial

theorem within_deleteUser (userUuid verifyCode : Bytes) :
    Program.Within (Sends drawn known) (Replies known time) (fun _ => True)
      (UserService.deleteUser env userUuid verifyCode) := by
  have hfail : ∀ code message, (fun _ : Result Unit => True) (.failWith code message) := fun _ _ => trivial
  refine within_requireUuid hfail (within_requireValid hfail fun _ => ?_)
  refine (within_findByUUID userUuid).bind fun r hr => within_orFail hr hfail fun user huser => ?_
  refine (within_verifyCaptcha _ _ _).bind fun r _ => within_orFail (Q := fun _ => True) trivial hfail fun _ _ => ?_
  refine (within_of_uses (uses_deleteByUserId trivial)).bind fun _ _ => ?_
  -- the entity has another mobile here, which the update does not write
  refine Program.Within.bind (within_update (huser user rfl) rfl rfl) fun r _ => ?_
  exact within_orFail (Q := fun _ => True) trivial hfail fun _ _ => trivial

theorem within_setUserDisabled (userUuid : Bytes) (disabled : Bool) :
    Program.Within (Sends drawn known) (Replies known time) (fun _ => True)
      (UserService.setUserDisabled userUuid disabled) := by
  have hfail : ∀ code message, (fun _ : Result Unit => True) (.failWith code message) := fun _ _ => trivial
  refine within_requireUuid hfail ((within_findByUUID userUuid).bind fun r hr => within_orFail hr hfail
    fun user huser => ?_)
  split
  · trivial
  · refine Program.Within.bind (within_update (huser user rfl) rfl rfl) fun r _ =>
      within_orFail (Q := fun _ => True) trivial hfail fun _ _ => ?_
    split
    · exact (within_of_uses (uses_deleteByUserId trivial)).bind fun _ _ => trivial
    · trivial

/-- A statement that neither inserts nor updates a user. -/
theorem sends_of_kind {s : SqlStmt} (hinsert : s.kind ≠ .insertUser) (hupdate : s.kind ≠ .updateUser) :
    Sends drawn known (.sql s) := by
  cases s with
  | insertUser _ _ _ _ _ => exact absurd rfl hinsert
  | updateUser _ => exact absurd rfl hupdate
  | _ => trivial

/-- A program whose statements neither insert nor update a user. -/
theorem within_of_footprint {α : Type} {p : Action α} {f : Footprint} (hp : Program.Uses f.Covers p)
    (hstmts : ∀ s, f.stmts s → s.kind ≠ .insertUser ∧ s.kind ≠ .updateUser) :
    Program.Within (Sends drawn known) (Replies known time) (fun _ => True) p := by
  refine within_of_uses (hp.mono fun c hc => ?_)
  cases c with
  | now => trivial
  | redis c => trivial
  | sql s => exact sends_of_kind (hstmts s hc).1 (hstmts s hc).2

/-- A request whose answer carries no token. -/
theorem within_answered {α : Type} {f : α → Answer} {p : Action (Result α)}
    (hp : Program.Within (Sends drawn known) (Replies known time) (fun _ => True) p)
    (hf : ∀ a, (f a).access? = none) :
    Program.Within (Sends drawn known) (Replies known time) (Answers env known time) (answered f p) := by
  refine hp.bind fun r _ => ?_
  cases r with
  | fail code message => trivial
  | ok a =>
      intro access haccess
      rw [hf a] at haccess
      cases haccess

theorem within_signedIn {p : Action (Result AuthResult)}
    (hp : Program.Within (Sends drawn known) (Replies known time) (SignedIn env known time) p) :
    Program.Within (Sends drawn known) (Replies known time) (Answers env known time) (answered .signedIn p) := by
  refine hp.bind fun r hr => ?_
  cases r with
  | fail code message => trivial
  | ok result =>
      intro access haccess
      cases haccess
      exact hr result rfl

/-- **Requests.** A request keeps to what may be sent as long as what it reads is so. -/
theorem within_handle (huuid : drawn draws.uuid) (request : Request) :
    Program.Within (Sends drawn known) (Replies known time) (Answers env known time) (handle env draws request) := by
  cases request with
  | sendVerifyCode mobile scene =>
      refine within_answered (within_of_footprint (uses_sendVerifyCode env draws mobile scene) fun s hs => ?_)
        fun _ => rfl
      constructor <;> simp [show s.kind = .readUser from hs]
  | register mobile verifyCode password displayName =>
      exact within_signedIn (within_register huuid mobile verifyCode password displayName)
  | loginByPassword mobile password =>
      refine (within_loginByPassword mobile password).bind fun o ho => ?_
      rcases o with (result | _) | _
      · intro access haccess
        cases haccess
        exact ho result rfl
      · trivial
      · trivial
  | loginByCode mobile verifyCode => exact within_signedIn (within_loginByCode mobile verifyCode)
  | resetPassword mobile verifyCode newPassword =>
      exact within_answered (within_resetPassword mobile verifyCode newPassword) fun _ => rfl
  | refreshToken token =>
      refine (within_refreshToken token).bind fun o ho => ?_
      rcases o with (pair | _) | _
      · intro access haccess
        cases haccess
        exact ho pair rfl
      · trivial
      · trivial
  | logout token =>
      refine within_answered ?_ fun _ => rfl
      unfold logout
      split
      · trivial
      · exact within_of_uses (Program.Uses.bind (uses_deleteByTokenHash trivial) fun _ => trivial)
  | logoutAll userUuid =>
      refine within_answered (within_of_uses ?_) fun _ => rfl
      refine Program.Uses.bind (uses_findByUUID trivial) fun r => uses_orFail fun user => ?_
      exact Program.Uses.bind (uses_deleteByUserId trivial) fun _ => trivial
  | getUser userUuid =>
      refine within_answered (within_of_uses (uses_requireUuid ?_)) fun _ => rfl
      exact Program.Uses.bind (uses_findByUUID trivial) fun r => uses_orFail fun user => trivial
  | updateUser userUuid displayName => exact within_answered (within_updateUser userUuid displayName) fun _ => rfl
  | changePassword userUuid oldPassword newPassword =>
      exact within_answered (within_changePassword userUuid oldPassword newPassword) fun _ => rfl
  | deleteUser userUuid verifyCode => exact within_answered (within_deleteUser userUuid verifyCode) fun _ => rfl
  | setUserDisabled userUuid disabled =>
      exact within_answered (within_setUserDisabled userUuid disabled) fun _ => rfl
  | cleanExpiredTokens =>
      exact within_answered (within_of_uses (uses_sqlCall (s := .deleteExpiredSessions) trivial)) fun _ => rfl

end Requests

/-- An account that a request has made: a later id, a uuid that was drawn, a valid mobile and no privileges. -/
def Enrolled (drawn : Bytes → Prop) (next : Nat) (i : Identity) : Prop :=
  next ≤ i.id ∧ drawn i.uuid ∧ isValidMobile i.mobile = .ok () ∧ i.role = .user

theorem UserUpdate.write_createdAt (u : UserUpdate) (db : Database) (second : Nat) (row : UserEntity) :
    (u.write db second row).createdAt = row.createdAt := by
  unfold write
  split <;> rfl

/-- An update with the role that the account has. -/
theorem UserUpdate.write_identity {u : UserUpdate} {db : Database} (hdb : db.WellFormed)
    (hu : ∃ i ∈ db.identities, i.uuid = u.uuid ∧ i.role = u.role) {row : UserEntity} (hrow : row ∈ db.users)
    (second : Nat) : (u.write db second row).identity = row.identity := by
  have hrole : (u.write db second row).role = row.role := by
    unfold write
    split
    · rename_i hwrites
      obtain ⟨i, hi, huuid, hrole⟩ := hu
      obtain ⟨user, huser, rfl⟩ := Database.mem_identities.mp hi
      -- the unique key: the update is about this row
      obtain rfl : row = user := by
        refine hdb.uuid.eq_of_key hrow huser ?_
        have hsame : db.uuidKey row.uuid = db.uuidKey u.uuid := by simpa [Database.sameUuid] using hwrites.1
        exact hsame.trans (congrArg db.uuidKey huuid.symm)
      exact hrole.symm
    · rfl
  simp only [UserEntity.identity, write_id, write_uuid, write_mobile, write_createdAt, hrole]

/-- What a statement does to the accounts. -/
theorem SqlStmt.apply_identities {drawn : Bytes → Prop} {db : Database} (hdb : db.WellFormed) {s : SqlStmt}
    (hs : Sends drawn db.identities (.sql s)) (second : Nat) :
    db.nextUserId ≤ (s.apply second db).2.nextUserId ∧
      ∃ new, (s.apply second db).2.identities = db.identities ++ new ∧ ∀ i ∈ new, Enrolled drawn db.nextUserId i := by
  have hsame : ∀ db' : Database, db'.users = db.users → db'.nextUserId = db.nextUserId →
      db.nextUserId ≤ db'.nextUserId ∧
        ∃ new, db'.identities = db.identities ++ new ∧ ∀ i ∈ new, Enrolled drawn db.nextUserId i := by
    intro db' husers hnext
    exact ⟨hnext.ge, [], by simp [Database.identities, husers], by simp⟩
  cases s with
  | insertUser uuid mobile displayName passwordHash role =>
      rcases apply_insertUser second db uuid mobile displayName passwordHash role with ⟨e, he⟩ | ⟨-, -, he⟩
      · rw [he]
        exact hsame db rfl rfl
      · rw [he]
        refine ⟨Nat.le_succ _, [_], List.map_append, fun i hi => ?_⟩
        obtain rfl := List.mem_singleton.mp hi
        exact ⟨le_rfl, hs⟩
  | updateUser u =>
      refine ⟨le_rfl, [], ?_, by simp⟩
      rw [List.append_nil]
      show (db.users.map (u.write db second)).map UserEntity.identity = db.users.map UserEntity.identity
      rw [List.map_map]
      exact List.map_congr_left fun row hrow => UserUpdate.write_identity hdb hs hrow second
  | insertSession userId tokenHash expiresAt =>
      simp only [apply]
      split
      · exact hsame db rfl rfl
      · split <;> exact hsame _ rfl rfl
  | _ => exact hsame _ rfl rfl

/-- What a command finds in a world is so. -/
theorem exec_replies (w : World) {known : List Identity} (hknown : w.db.identities ⊆ known) {time : Nat}
    (htime : w.clock ≤ time) (c : Cmd) : Replies known time c (exec c w).1 := by
  have hfound : ∀ {p : UserEntity → Bool} {r : Except SqlError (Option UserEntity)},
      r = .error .other ∨ r = .ok (w.db.users.find? p) → ∀ user, r = .ok (some user) → user.identity ∈ known := by
    rintro p r (rfl | rfl) user h
    · cases h
    · exact hknown (Database.mem_identities.mpr ⟨user, List.mem_of_find?_eq_some (Except.ok.inj h), rfl⟩)
  cases c with
  | now => exact htime
  | redis c => trivial
  | sql s =>
      have hcases := (execSql_cases w s).imp And.left And.left
      cases s with
      | selectUserById id => exact hfound hcases
      | selectUserByUuid uuid => exact hfound hcases
      | selectUserByMobile mobile => exact hfound hcases
      | _ => trivial

/-- The requests in flight keep to what may be sent, whatever accounts are made in between. -/
structure Steadfast (env : Env) (drawn : Bytes → Prop) (w : World) (s : Concurrent) : Prop where
  wellFormed : s.shared.db.WellFormed
  next : w.db.nextUserId ≤ s.shared.db.nextUserId
  grown : ∃ new, s.shared.db.identities = w.db.identities ++ new ∧ ∀ i ∈ new, Enrolled drawn w.db.nextUserId i
  within : ∀ p ∈ s.threads, ∀ known, s.shared.db.identities ⊆ known → ∀ time, s.shared.clock ≤ time →
    Program.Within (Sends drawn known) (Replies known time) (Answers env known time) p

/-- What a command does to the accounts. -/
theorem exec_identities {drawn : Bytes → Prop} {w : World} (hdb : w.db.WellFormed) {c : Cmd}
    (hc : Sends drawn w.db.identities c) :
    w.db.nextUserId ≤ (exec c w).2.db.nextUserId ∧ ∃ new, (exec c w).2.db.identities = w.db.identities ++ new ∧
      ∀ i ∈ new, Enrolled drawn w.db.nextUserId i := by
  have hsame : ∃ new, w.db.identities = w.db.identities ++ new ∧ ∀ i ∈ new, Enrolled drawn w.db.nextUserId i :=
    ⟨[], by simp⟩
  cases c with
  | now => exact ⟨le_rfl, hsame⟩
  | redis c =>
      rw [exec_redis_db]
      exact ⟨le_rfl, hsame⟩
  | sql s =>
      rcases execSql_cases w s with ⟨-, hunchanged⟩ | ⟨-, hdone⟩
      · exact ⟨(congrArg Database.nextUserId hunchanged).ge, by rw [exec, hunchanged]; exact hsame⟩
      · rw [exec, hdone]
        exact SqlStmt.apply_identities hdb hc _

theorem exec_wellFormed {w : World} (h : w.db.WellFormed) (c : Cmd) : (exec c w).2.db.WellFormed :=
  exec_db_invariant (P := fun _ => True) (fun s _ second _ hdb => hdb.apply second s) c trivial w h

/-- The programs in flight keep to what may be sent, whatever accounts are made in between, and program `i` returns
what `A i` allows. -/
structure Upheld {β : Type} (A : Nat → List Identity → Nat → β → Prop) (drawn : Bytes → Prop) (w : World)
    (s : System Service World β) : Prop where
  wellFormed : s.shared.db.WellFormed
  next : w.db.nextUserId ≤ s.shared.db.nextUserId
  grown : ∃ new, s.shared.db.identities = w.db.identities ++ new ∧ ∀ i ∈ new, Enrolled drawn w.db.nextUserId i
  within : ∀ i p, s.threads[i]? = some p → ∀ known, s.shared.db.identities ⊆ known → ∀ time, s.shared.clock ≤ time →
    Program.Within (Sends drawn known) (Replies known time) (A i known time) p

/-- **Step.** -/
theorem Upheld.move {β : Type} {A : Nat → List Identity → Nat → β → Prop} {drawn : Bytes → Prop} {w : World}
    {s : System Service World β} (h : Upheld A drawn w s) (m : Move Nat) :
    Upheld A drawn w (System.move exec passTime m s) := by
  rcases System.move_cases exec passTime m s with ⟨i, c, next, rfl, hi, hmove⟩ | ⟨delay, rfl, hmove⟩ | ⟨i, -, -, hmove⟩
  · have hp := h.within i _ hi
    obtain ⟨hnext, new, hnew, henrolled⟩ :=
      exec_identities h.wellFormed (hp _ (List.Subset.refl _) _ le_rfl).1
    have hsub : s.shared.db.identities ⊆ (exec c s.shared).2.db.identities := by
      rw [hnew]
      exact List.subset_append_left _ _
    rw [hmove]
    refine ⟨exec_wellFormed h.wellFormed c, h.next.trans hnext, ?_, fun j p hj known hknown time ht => ?_⟩
    · obtain ⟨before, hbefore, hall⟩ := h.grown
      refine ⟨before ++ new, by rw [hnew, hbefore, List.append_assoc], fun i hi => ?_⟩
      rcases List.mem_append.mp hi with hi | hi
      · exact hall i hi
      · obtain ⟨hid, hrest⟩ := henrolled i hi
        exact ⟨le_trans (by exact_mod_cast h.next) hid, hrest⟩
    · rw [exec_clock] at ht
      have hold := List.Subset.trans hsub hknown
      rcases System.getElem?_set_cases hj with ⟨rfl, rfl⟩ | ⟨-, hj⟩
      · exact (hp known hold time ht).2 _ (exec_replies s.shared hold ht c)
      · exact h.within j p hj known hold time ht
  · rw [hmove]
    exact ⟨h.wellFormed, h.next, h.grown, fun j p hj known hknown time ht =>
      h.within j p hj known hknown time ((Nat.le_add_right _ _).trans ht)⟩
  · rwa [hmove]

theorem Steadfast.upheld {env : Env} {drawn : Bytes → Prop} {w : World} {s : Concurrent}
    (h : Steadfast env drawn w s) : Upheld (fun _ => Answers env) drawn w s :=
  ⟨h.wellFormed, h.next, h.grown, fun _ p hi => h.within p (List.mem_of_getElem? hi)⟩

theorem Steadfast.move {env : Env} {drawn : Bytes → Prop} {w : World} {s : Concurrent}
    (h : Steadfast env drawn w s) (m : Move Nat) : Steadfast env drawn w (System.move exec passTime m s) := by
  have hmoved := h.upheld.move m
  refine ⟨hmoved.wellFormed, hmoved.next, hmoved.grown, fun p hp => ?_⟩
  obtain ⟨i, hi⟩ := List.mem_iff_getElem?.mp hp
  exact hmoved.within i p hi

theorem steadfast_interleave (env : Env) (requests : List (Draws × Request)) {w : World} (hdb : w.db.WellFormed)
    (schedule : List (Move Nat)) :
    Steadfast env (fun uuid => ∃ r ∈ requests, r.1.uuid = uuid) w
      (interleave schedule ⟨w, requestThreads env requests⟩) := by
  refine System.play_always exec passTime (fun s m h => h.move m) schedule _ ⟨hdb, le_rfl, ⟨[], by simp⟩, ?_⟩
  intro p hp known _ time _
  obtain ⟨r, hr, rfl⟩ := List.mem_map.mp hp
  exact within_handle ⟨r, hr, rfl⟩ r.2

/-- **Accounts keep their identity.** Requests run at the same time, whatever fails. The accounts there were are there
in the same order with the same id, uuid, mobile, role and time of creation; those that came after them have later
ids, uuids that the requests drew, valid mobiles and the role of a plain user. -/
theorem accounts_keep_identity (env : Env) (requests : List (Draws × Request)) (w : World) (hdb : w.db.WellFormed)
    (schedule : List (Move Nat)) :
    ∃ new, (interleave schedule ⟨w, requestThreads env requests⟩).shared.db.identities = w.db.identities ++ new ∧
      ∀ i ∈ new, Enrolled (fun uuid => ∃ r ∈ requests, r.1.uuid = uuid) w.db.nextUserId i :=
  (steadfast_interleave env requests hdb schedule).grown

/-- A registration, with the draws of another uuid, while the account that is there is disabled. -/
def newcomerDraws : Draws := { laterDraws with uuid := ascii "550e8400-e29b-41d4-a716-446655440001" }

def crowd : List (Draws × Request) :=
  [(newcomerDraws, .sendVerifyCode (ascii "13900139000") .register),
    (newcomerDraws, .register (ascii "13900139000") (ascii "123456") (ascii "Password123") (ascii "B")),
    (laterDraws, .setUserDisabled earlierDraws.uuid true)]

def jostling : List (Move Nat) :=
  List.replicate 8 (.thread 0) ++ [.thread 2, .thread 1, .thread 1, .thread 2] ++ List.replicate 9 (.thread 1) ++
    [.thread 2]

theorem wellFormed_serve (env : Env) (call : Call) {w : World} (h : w.db.WellFormed) :
    (serve env call w).2.db.WellFormed :=
  run_wellFormed (handle env call.draws call.request) (w := call.world w) h

theorem signedUp_wellFormed : signedUp.db.WellFormed :=
  wellFormed_serve defaultEnv _ (wellFormed_serve defaultEnv _ (w := emptyWorld 0) (Database.wellFormed_empty id))

theorem accounts_keep_identity_sample :
    ∃ new, (interleave jostling ⟨signedUp, requestThreads defaultEnv crowd⟩).shared.db.identities =
        signedUp.db.identities ++ new ∧
      ∀ i ∈ new, Enrolled (fun uuid => ∃ r ∈ crowd, r.1.uuid = uuid) signedUp.db.nextUserId i :=
  accounts_keep_identity defaultEnv crowd signedUp signedUp_wellFormed jostling

/-- An access token that is accepted says what it was made with. -/
theorem verifyAccessToken_says (env : Env) {user : UserEntity} (issued : Nat) (jti : Jti)
    (hmobile : isValidMobile user.mobile = .ok ()) (huuid : IsUuidText user.uuid) (hid : IsInt64 user.id) {now : Nat}
    {payload : AccessTokenPayload}
    (hok : verifyAccessToken env.crypto env.config.security now
      (generateAccessToken env.crypto env.config.security issued jti user) = .ok payload) :
    payload.userId = user.id ∧ payload.userUuid = user.uuid ∧ payload.mobile = user.mobile ∧
      payload.role = user.role := by
  cases hi : survives env.config.security.jwtIssuer with
  | false => exact absurd hok (verifyAccessToken_of_not_survives env.crypto now issued jti hmobile huuid hi payload)
  | true =>
      rw [generateAccessToken, verifyAccessToken, if_neg (createJwt_ne_nil env.crypto _ _), verifyJwt_createJwt,
        parseJson_access issued jti hmobile huuid hi] at hok
      split at hok
      · cases hok
      · rename_i claims hcheck
        rw [checkExp_ok hcheck] at hok
        have hidText : (accessClaims env.config.security issued jti user).find (ascii "id") =
            some (toString user.id) := rfl
        have huid : (accessClaims env.config.security issued jti user).find (ascii "uid") = some user.uuid := rfl
        have hmobileText : (accessClaims env.config.security issued jti user).find (ascii "mobile") =
            some user.mobile := rfl
        have hroleText : (accessClaims env.config.security issued jti user).find (ascii "role") =
            some (userRoleToString user.role) := rfl
        simp only [hidText, huid, hmobileText, hroleText, Option.getD_some, stoll_toString hid] at hok
        iterate 5 (split at hok; · cases hok)
        cases hok
        exact ⟨rfl, rfl, rfl, stringToUserRole_userRoleToString _⟩

/-- The access token that a request has handed out. -/
def accessOf (s : Concurrent) (i : Nat) : Option Bytes :=
  match s.threads[i]? with
  | some (.done (.returned (.ok answer))) => answer.access?
  | _ => none

theorem mem_threads_of_accessOf {s : Concurrent} {i : Nat} {access : Bytes} (h : access ∈ accessOf s i) :
    ∃ answer, .done (.returned (.ok answer)) ∈ s.threads ∧ access ∈ answer.access? := by
  unfold accessOf at h
  split at h
  · exact ⟨_, List.mem_of_getElem? ‹_›, h⟩
  · cases h

/-- The claims of a token are those of an account of the table. -/
def Current (db : Database) (payload : AccessTokenPayload) : Prop :=
  ∃ user ∈ db.users, user.id = payload.userId ∧ user.uuid = payload.userUuid ∧ user.mobile = payload.mobile ∧
    user.role = payload.role

instance (db : Database) (payload : AccessTokenPayload) : Decidable (Current db payload) := by
  unfold Current
  infer_instance

theorem Database.WellFormed.isInt64_id {db : Database} (h : db.WellFormed) {user : UserEntity} (hmem : user ∈ db.users) :
    IsInt64 user.id := by
  have := h.idBelow user hmem
  have := h.next.2
  unfold IsInt64
  omega

/-- Accounts of a table whose rows are in order have a mobile and a uuid that are in order, and so have new ones. -/
theorem known_valid {w : World} {drawn : Bytes → Prop} {next : Nat} {new : List Identity}
    (hrows : ∀ user ∈ w.db.users, isValidMobile user.mobile = .ok () ∧ IsUuidText user.uuid)
    (hnew : ∀ i ∈ new, Enrolled drawn next i) (hdrawn : ∀ uuid, drawn uuid → IsUuidText uuid) {i : Identity}
    (hi : i ∈ w.db.identities ++ new) : isValidMobile i.mobile = .ok () ∧ IsUuidText i.uuid := by
  rcases List.mem_append.mp hi with hold | hadded
  · obtain ⟨user, huser, rfl⟩ := Database.mem_identities.mp hold
    exact hrows user huser
  · obtain ⟨-, huuid, hmobile, -⟩ := hnew i hadded
    exact ⟨hmobile, hdrawn _ huuid⟩

/-- **Tokens stay true.** Requests run at the same time, whatever fails. At every moment, the access tokens that
requests have handed out, where they are accepted, say the id, uuid, mobile and role of an account that is there. -/
theorem token_claims_current (env : Env) (requests : List (Draws × Request)) (w : World) (hdb : w.db.WellFormed)
    (hrows : ∀ user ∈ w.db.users, isValidMobile user.mobile = .ok () ∧ IsUuidText user.uuid)
    (hdraws : ∀ r ∈ requests, IsUuidText r.1.uuid) (schedule : List (Move Nat)) (i : Nat) (access : Bytes)
    (haccess : access ∈ accessOf (interleave schedule ⟨w, requestThreads env requests⟩) i) (now : Nat)
    (payload : AccessTokenPayload)
    (hok : verifyAccessToken env.crypto env.config.security now access = .ok payload) :
    Current (interleave schedule ⟨w, requestThreads env requests⟩).shared.db payload := by
  have h := steadfast_interleave env requests hdb schedule
  obtain ⟨new, hgrown, hnew⟩ := h.grown
  obtain ⟨answer, hreturned, haccess⟩ := mem_threads_of_accessOf haccess
  obtain ⟨user, issued, jti, hknown, -, rfl⟩ :=
    h.within _ hreturned _ (List.Subset.refl _) _ le_rfl access haccess
  obtain ⟨row, hrow, hsame⟩ := Database.mem_identities.mp hknown
  have hmem : row.identity ∈ w.db.identities ++ new := by
    rw [← hgrown, hsame]
    exact hknown
  have hvalid := known_valid hrows hnew (fun uuid ⟨r, hr, hdrawn⟩ => hdrawn ▸ hdraws r hr) hmem
  simp only [UserEntity.identity, Identity.mk.injEq] at hsame
  obtain ⟨hid, huuid, hmobile, hrole, -⟩ := hsame
  obtain ⟨hsaysId, hsaysUuid, hsaysMobile, hsaysRole⟩ := verifyAccessToken_says env issued jti
    (hmobile ▸ hvalid.1) (huuid ▸ hvalid.2) (hid ▸ h.wellFormed.isInt64_id hrow) hok
  exact ⟨row, hrow, hid.trans hsaysId.symm, huuid.trans hsaysUuid.symm, hmobile.trans hsaysMobile.symm,
    hrole.trans hsaysRole.symm⟩

/-- What the token of the new account says. -/
def newcomerClaims : AccessTokenPayload where
  userId := 2
  userUuid := newcomerDraws.uuid
  mobile := ascii "13900139000"
  role := .user
  expiresAt := fromTimeT (toTimeT (addSeconds signedUp.clock defaultEnv.config.security.accessTokenTtlSeconds) : Nat)

/-- The token of the new account. -/
def newcomerToken : Bytes :=
  (accessOf (interleave jostling ⟨signedUp, requestThreads defaultEnv crowd⟩) 1).getD []

theorem token_claims_current_sample :
    Current (interleave jostling ⟨signedUp, requestThreads defaultEnv crowd⟩).shared.db newcomerClaims := by
  have hrows : ((signedUp.db.users.all fun user =>
      decide (isValidMobile user.mobile = .ok ()) && decide (IsUuidText user.uuid))) = true := by decide +kernel
  refine token_claims_current defaultEnv crowd signedUp signedUp_wellFormed (fun user huser => ?_) (by decide +kernel)
    jostling 1 newcomerToken (by decide +kernel) 0 newcomerClaims (by decide +kernel)
  simpa using List.all_eq_true.mp hrows user huser

end AccountService
