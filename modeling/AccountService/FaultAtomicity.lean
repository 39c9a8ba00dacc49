import AccountService.UserWrites

/-! Operations that write twice, when any of their statements may fail. A statement that fails changes nothing. -/

namespace AccountService

open AuthService Interaction

/-- The statement with this number, counted from the next one, fails. -/
def World.Fails (w : World) (n : Nat) : Prop := w.sqlFaults[n]? = some true

instance (w : World) (n : Nat) : Decidable (w.Fails n) := inferInstanceAs (Decidable (_ = _))

/-- The world after a statement that fails or is executed. -/
def World.after (w : World) (s : SqlStmt) : World :=
  if w.Fails 0 then w.read else { w.read with db := (s.apply (toTimeT w.clock) w.db).2 }

section Statements

variable {w : World}

theorem fails_zero_iff : w.Fails 0 ↔ w.sqlFaults.head? = some true := by
  rw [World.Fails, List.head?_eq_getElem?]

@[simp] theorem fails_read (n : Nat) : w.read.Fails n ↔ w.Fails (n + 1) := by
  rw [World.Fails, World.Fails, World.read, List.getElem?_tail]

@[simp] theorem fails_after (s : SqlStmt) (n : Nat) : (w.after s).Fails n ↔ w.Fails (n + 1) := by
  unfold World.after
  split <;> exact fails_read n

@[simp] theorem clock_after (s : SqlStmt) : (w.after s).clock = w.clock := by
  unfold World.after
  split <;> rfl

theorem db_after (s : SqlStmt) :
    (w.after s).db = if w.Fails 0 then w.db else (s.apply (toTimeT w.clock) w.db).2 := by
  unfold World.after
  split <;> rfl

theorem run_sql_after (s : SqlStmt) : (Program.run exec (sql s) w).2 = w.after s := by
  obtain ⟨clock, redis, db, redisFaults, sqlFaults⟩ := w
  rcases sqlFaults with _ | ⟨_ | _, rest⟩ <;> rfl

theorem run_sqlCall_after (s : SqlStmt) : (Program.run exec (sqlCall s) w).2 = w.after s := by
  rw [sqlCall, Program.run_bind, run_sql_after]
  split <;> rfl

theorem run_deleteByTokenHash_after (tokenHash : Bytes) :
    (Program.run exec (TokenRepository.deleteByTokenHash tokenHash) w).2 = w.after (.deleteSessionByHash tokenHash) := by
  rw [TokenRepository.deleteByTokenHash, Program.run_bind, run_sqlCall_after]
  split <;> rfl

theorem run_deleteByUserId_after (userId : Int) :
    (Program.run exec (TokenRepository.deleteByUserId userId) w).2 = w.after (.deleteSessionsByUser userId) := by
  rw [TokenRepository.deleteByUserId, Program.run_bind, run_sqlCall_after]
  split <;> rfl

theorem run_storeRefreshToken_after (env : Env) (userId : Int) (token : Bytes) :
    (Program.run exec (storeRefreshToken env userId token) w).2 =
      w.after (.insertSession userId (hashToken env.crypto token)
        (toTimeT (addSeconds w.clock env.config.security.refreshTokenTtlSeconds))) := by
  rw [storeRefreshToken, TokenRepository.saveRefreshToken, Program.run_bind, run_now, Program.run_bind, run_sql_after]
  split <;> rfl

theorem run_generateTokenPair (env : Env) (draws : Draws) (user : UserEntity) :
    Program.run exec (JwtService.generateTokenPair env draws user) w =
      (⟨generateAccessToken env.crypto env.config.security w.clock draws.accessJti user,
        generateRefreshToken env.crypto env.config.security w.clock draws.refreshJti user,
        env.config.security.accessTokenTtlSeconds.toInt⟩, w) := rfl

/-- A lookup finds a row exactly when its statement does not fail and the row is there. -/
theorem lookup_ok_iff {row : Option UserEntity} {user : UserEntity} :
    w.lookup row = .ok user ↔ ¬w.Fails 0 ∧ row = some user := by
  rw [World.lookup, fails_zero_iff]
  split
  · simp [failPlain, Result.failWith, *]
  · cases row <;> simp [foundUser, failPlain, Result.failWith, *]

end Statements

/-- The user a refresh token names at an instant. -/
def refreshUser (env : Env) (t : Nat) (token : Bytes) : Option Int :=
  match parseRefreshToken env.crypto env.config.security t token with
  | .fail _ _ => none
  | .ok text => stoll text

/-- `RefreshToken` gets as far as its writes. -/
structure RefreshAdmits (env : Env) (w : World) (token : Bytes) (userId : Int) (user : UserEntity) : Prop where
  named : refreshUser env w.clock token = some userId
  read : ¬w.Fails 0
  found : w.db.users.find? (·.id = userId) = some user
  enabled : user.disabled = false
  checked : ¬w.Fails 1
  live : ∃ row ∈ w.db.sessions, row.tokenHash = hashToken env.crypto token ∧ toTimeT w.clock < row.expiresAt

/-- The hash under which the new refresh token is stored. -/
def renewedHash (env : Env) (draws : Draws) (w : World) (user : UserEntity) : Bytes :=
  hashToken env.crypto (generateRefreshToken env.crypto env.config.security w.clock draws.refreshJti user)

/-- Success has replaced the hash of the token by that of the new one, for the same user; anything else leaves the
stored hashes as they were. -/
def RefreshAtomic (env : Env) (w : World) (token : Bytes) (outcome : Outcome TokenPair) (after : World) : Prop :=
  match outcome with
  | .returned (.ok pair) =>
      (∀ row ∈ after.db.sessions, row.tokenHash ≠ hashToken env.crypto token) ∧
        ∃ row ∈ after.db.sessions, row.tokenHash = hashToken env.crypto pair.refreshToken ∧
          refreshUser env w.clock token = some row.userId
  | _ => ∀ tokenHash, tokenHash ∈ after.db.sessions.map (·.tokenHash) ↔ tokenHash ∈ w.db.sessions.map (·.tokenHash)

section Refresh

variable {env : Env} {draws : Draws} {w : World} {token : Bytes} {userId : Int} {user : UserEntity}

theorem run_renewSession :
    Program.run exec (renewSession env draws token userId user) w =
      (.ok ⟨generateAccessToken env.crypto env.config.security w.clock draws.accessJti user,
          generateRefreshToken env.crypto env.config.security w.clock draws.refreshJti user,
          env.config.security.accessTokenTtlSeconds.toInt⟩,
        (w.after (.deleteSessionByHash (hashToken env.crypto token))).after (.insertSession userId
          (renewedHash env draws w user)
          (toTimeT (addSeconds w.clock env.config.security.refreshTokenTtlSeconds)))) := by
  rw [renewSession, Program.run_bind, run_deleteByTokenHash_after, Program.run_bind, run_generateTokenPair,
    Program.run_bind, run_storeRefreshToken_after, Program.run_pure]
  simp only [clock_after, renewedHash]

theorem run_isTokenValid (tokenHash : Bytes) :
    Program.run exec (TokenRepository.isTokenValid tokenHash) w =
      (if w.Fails 0 then failPlain .serviceUnavailable
        else .ok (w.db.sessions.any fun r => r.tokenHash = tokenHash ∧ toTimeT w.clock < r.expiresAt), w.read) := by
  obtain ⟨clock, redis, db, redisFaults, sqlFaults⟩ := w
  rcases sqlFaults with _ | ⟨_ | _, rest⟩ <;> rfl

/-- The part after the token has been read. -/
theorem run_refreshSession (hnamed : refreshUser env w.clock token = some userId) :
    (∃ user, RefreshAdmits env w token userId user ∧
      Program.run exec (refreshSession env draws token userId) w =
        Program.run exec (renewSession env draws token userId user) w.read.read) ∨
    (∀ user, ¬RefreshAdmits env w token userId user) ∧
      (Program.run exec (refreshSession env draws token userId) w).1.isOk = false ∧
      (Program.run exec (refreshSession env draws token userId) w).2.db = w.db := by
  rw [refreshSession, Program.run_bind, run_findById]
  cases hlook : w.lookup (w.db.users.find? (·.id = userId)) with
  | fail code message =>
      refine Or.inr ⟨fun user h => ?_, rfl, rfl⟩
      rw [lookup_ok_iff.mpr ⟨h.read, h.found⟩] at hlook
      cases hlook
  | ok user =>
      obtain ⟨hread, hfound⟩ := lookup_ok_iff.mp hlook
      have honly : ∀ other, RefreshAdmits env w token userId other → other = user := fun other h =>
        Option.some.inj (h.found.symm.trans hfound)
      dsimp only
      rw [orFail_ok]
      by_cases hdisabled : user.disabled = true
      · rw [if_pos hdisabled]
        refine Or.inr ⟨fun other h => ?_, rfl, rfl⟩
        obtain rfl := honly other h
        exact Bool.noConfusion (hdisabled.symm.trans h.enabled)
      · rw [if_neg hdisabled, Program.run_bind, run_isTokenValid]
        by_cases hchecked : w.read.Fails 0
        · rw [if_pos hchecked]
          exact Or.inr ⟨fun other h => h.checked ((fails_read 0).mp hchecked), rfl, rfl⟩
        · rw [if_neg hchecked]
          dsimp only
          rw [orFail_ok]
          have hany : (w.read.db.sessions.any fun r =>
              decide (r.tokenHash = hashToken env.crypto token ∧ toTimeT w.read.clock < r.expiresAt)) = true ↔
              ∃ row ∈ w.db.sessions, row.tokenHash = hashToken env.crypto token ∧ toTimeT w.clock < row.expiresAt := by
            rw [List.any_eq_true]
            exact exists_congr fun row => and_congr_right fun _ => decide_eq_true_iff
          by_cases hlive : ∃ row ∈ w.db.sessions,
              row.tokenHash = hashToken env.crypto token ∧ toTimeT w.clock < row.expiresAt
          · rw [if_neg (not_not.mpr (hany.mpr hlive))]
            exact Or.inl ⟨user, ⟨hnamed, hread, hfound, by simpa using hdisabled, mt (fails_read 0).mpr hchecked, hlive⟩,
              rfl⟩
          · rw [if_pos (mt hany.mp hlive)]
            exact Or.inr ⟨fun other h => hlive h.live, rfl, rfl⟩

/-- `RefreshToken` fails and writes nothing, or it gets to its writes. -/
theorem run_refreshToken :
    (∃ userId user, RefreshAdmits env w token userId user ∧
      Program.run exec (refreshToken env draws token) w =
        (.returned (Program.run exec (renewSession env draws token userId user) w.read.read).1,
          (Program.run exec (renewSession env draws token userId user) w.read.read).2)) ∨
    (∀ userId user, ¬RefreshAdmits env w token userId user) ∧
      (Program.run exec (refreshToken env draws token) w).1.isOk = false ∧
      (Program.run exec (refreshToken env draws token) w).2.db = w.db := by
  by_cases hempty : token = []
  · subst hempty
    refine Or.inr ⟨fun userId user h => ?_, rfl, rfl⟩
    cases h.named
  · have hnone : refreshUser env w.clock token = none → ∀ userId user, ¬RefreshAdmits env w token userId user :=
      fun hnone userId user h => nomatch hnone.symm.trans h.named
    rw [refreshToken, if_neg hempty, Program.run_bind, run_now, refreshAt]
    cases hparse : parseRefreshToken env.crypto env.config.security w.clock token with
    | fail code message =>
        exact Or.inr ⟨hnone (by simp only [refreshUser, hparse]), rfl, rfl⟩
    | ok text =>
        dsimp only
        cases hid : stoll text with
        | none => exact Or.inr ⟨hnone (by simp only [refreshUser, hparse, hid]), rfl, rfl⟩
        | some userId =>
            have hnamed : refreshUser env w.clock token = some userId := by simp only [refreshUser, hparse, hid]
            dsimp only
            rw [Program.run_bind, Program.run_pure]
            rcases @run_refreshSession env draws w token userId hnamed with ⟨user, hadmits, hrun⟩ | ⟨hnot, hfail, hdb⟩
            · exact Or.inl ⟨userId, user, hadmits, by rw [hrun]⟩
            · refine Or.inr ⟨fun other user h => ?_, hfail, hdb⟩
              obtain rfl : userId = other := Option.some.inj (hnamed.symm.trans h.named)
              exact hnot user h

/-- The rows after an insertion for a user who is there. -/
theorem sessions_insert {db : Database} (huser : db.users.any (·.id = userId) = true) (second : Nat)
    (tokenHash : Bytes) (expiresAt : Nat) :
    ((∃ row ∈ db.sessions, row.tokenHash = tokenHash) ∧
        ((SqlStmt.insertSession userId tokenHash expiresAt).apply second db).2.sessions = db.sessions) ∨
      (∀ row ∈ db.sessions, row.tokenHash ≠ tokenHash) ∧
        ∃ row, ((SqlStmt.insertSession userId tokenHash expiresAt).apply second db).2.sessions = db.sessions ++ [row] ∧
          row.tokenHash = tokenHash ∧ row.userId = userId := by
  rw [SqlStmt.apply]
  by_cases hany : db.sessions.any (·.tokenHash = tokenHash) = true
  · rw [if_pos hany]
    refine Or.inl ⟨?_, rfl⟩
    simpa using hany
  · rw [if_neg hany, if_neg (not_not.mpr huser)]
    refine Or.inr ⟨?_, _, rfl, rfl, rfl⟩
    simpa using hany

/-- The rows after an insertion that may fail. -/
theorem sessions_after_insert (huser : w.db.users.any (·.id = userId) = true) (tokenHash : Bytes) (expiresAt : Nat) :
    ((w.Fails 0 ∨ ∃ row ∈ w.db.sessions, row.tokenHash = tokenHash) ∧
        (w.after (.insertSession userId tokenHash expiresAt)).db.sessions = w.db.sessions) ∨
      (¬w.Fails 0 ∧ ∀ row ∈ w.db.sessions, row.tokenHash ≠ tokenHash) ∧
        ∃ row, (w.after (.insertSession userId tokenHash expiresAt)).db.sessions = w.db.sessions ++ [row] ∧
          row.tokenHash = tokenHash ∧ row.userId = userId := by
  rw [db_after]
  by_cases hfails : w.Fails 0
  · rw [if_pos hfails]
    exact Or.inl ⟨Or.inl hfails, rfl⟩
  · rw [if_neg hfails]
    rcases sessions_insert huser (toTimeT w.clock) tokenHash expiresAt with ⟨hdup, h⟩ | ⟨hnew, h⟩
    · exact Or.inl ⟨Or.inr hdup, h⟩
    · exact Or.inr ⟨⟨hfails, hnew⟩, h⟩

/-- What the two writes of `RefreshToken` leave. -/
theorem refresh_writes (hadmits : RefreshAdmits env w token userId user) (tokenHash : Bytes) (expiresAt : Nat)
    {after : World} (hafter : after = (w.read.read.after (.deleteSessionByHash (hashToken env.crypto token))).after
      (.insertSession userId tokenHash expiresAt)) :
    ((∀ row ∈ after.db.sessions, row.tokenHash ≠ hashToken env.crypto token) ∧
        ∃ row ∈ after.db.sessions, row.tokenHash = tokenHash ∧ row.userId = userId) ↔
      ¬w.Fails 2 ∧ tokenHash ≠ hashToken env.crypto token ∧
        ((∃ row ∈ w.db.sessions, row.tokenHash = tokenHash ∧ row.userId = userId) ∨
          (¬w.Fails 3 ∧ ∀ row ∈ w.db.sessions, row.tokenHash ≠ tokenHash)) := by
  have hmem := List.mem_of_find?_eq_some hadmits.found
  have hid : user.id = userId := by simpa using List.find?_some hadmits.found
  generalize hdeleted : w.read.read.after (.deleteSessionByHash (hashToken env.crypto token)) = w' at hafter
  have hfails : w'.Fails 0 ↔ w.Fails 3 := by
    rw [← hdeleted]
    simp
  have husers : w'.db.users = w.db.users := by
    rw [← hdeleted, db_after]
    split <;> rfl
  have hrows : ∀ row, row ∈ w'.db.sessions ↔
      row ∈ w.db.sessions ∧ (w.Fails 2 ∨ row.tokenHash ≠ hashToken env.crypto token) := by
    intro row
    rw [← hdeleted, db_after]
    by_cases hfails : w.read.read.Fails 0
    · have hstuck : w.Fails 2 := by simpa using hfails
      rw [if_pos hfails]
      exact (and_iff_left (Or.inl hstuck)).symm
    · have hdone : ¬w.Fails 2 := by simpa using hfails
      rw [if_neg hfails]
      show row ∈ w.db.sessions.filter (·.tokenHash ≠ hashToken env.crypto token) ↔ _
      rw [List.mem_filter, decide_eq_true_iff, or_iff_right hdone]
  have huser : w'.db.users.any (·.id = userId) = true :=
    List.any_eq_true.mpr ⟨user, husers ▸ hmem, decide_eq_true hid⟩
  obtain ⟨live, hlive, hhash, -⟩ := hadmits.live
  subst hafter
  rcases sessions_after_insert huser tokenHash expiresAt with ⟨hkept, h⟩ | ⟨hnew, added, h, hadded, howner⟩
  · rw [h]
    constructor
    · rintro ⟨hgone, row, hrow, hnewer, howner⟩
      have hne : tokenHash ≠ hashToken env.crypto token := hnewer ▸ hgone row hrow
      exact ⟨fun hstuck => hgone live ((hrows live).mpr ⟨hlive, Or.inl hstuck⟩) hhash, hne,
        Or.inl ⟨row, ((hrows row).mp hrow).1, hnewer, howner⟩⟩
    · rintro ⟨hdone, hne, hstored⟩
      refine ⟨fun row hrow => ((hrows row).mp hrow).2.resolve_left hdone, ?_⟩
      rcases hstored with ⟨row, hrow, hnewer, howner⟩ | ⟨hinserts, hnone⟩
      · exact ⟨row, (hrows row).mpr ⟨hrow, Or.inr (hnewer ▸ hne)⟩, hnewer, howner⟩
      · rcases hkept with hfailed | ⟨row, hrow, hnewer⟩
        · exact absurd (hfails.mp hfailed) hinserts
        · exact absurd hnewer (hnone row ((hrows row).mp hrow).1)
  · rw [h]
    constructor
    · rintro ⟨hgone, -⟩
      have hne : tokenHash ≠ hashToken env.crypto token :=
        hadded ▸ hgone added (List.mem_append_right _ List.mem_cons_self)
      refine ⟨fun hstuck => hgone live (List.mem_append_left _ ((hrows live).mpr ⟨hlive, Or.inl hstuck⟩)) hhash, hne,
        Or.inr ⟨mt hfails.mpr hnew.1, fun row hrow hnewer => ?_⟩⟩
      exact hnew.2 row ((hrows row).mpr ⟨hrow, Or.inr (hnewer ▸ hne)⟩) hnewer
    · rintro ⟨hdone, hne, -⟩
      refine ⟨fun row hrow => ?_, added, List.mem_append_right _ List.mem_cons_self, hadded, howner⟩
      rcases List.mem_append.mp hrow with hrow | hrow
      · exact ((hrows row).mp hrow).2.resolve_left hdone
      · rw [List.mem_singleton.mp hrow, hadded]
        exact hne

end Refresh

/-- **`RefreshToken` under faults.** It is atomic exactly if it does not get to its writes, or the deletion does not
fail, the new hash differs from the old, and the new one is stored already for the user or can be stored. -/
theorem refresh_atomic_iff (env : Env) (draws : Draws) (w : World) (token : Bytes) :
    RefreshAtomic env w token ((refreshToken env draws token).run w).1 ((refreshToken env draws token).run w).2 ↔
      ∀ userId user, RefreshAdmits env w token userId user →
        ¬w.Fails 2 ∧ renewedHash env draws w user ≠ hashToken env.crypto token ∧
          ((∃ row ∈ w.db.sessions, row.tokenHash = renewedHash env draws w user ∧ row.userId = userId) ∨
            (¬w.Fails 3 ∧ ∀ row ∈ w.db.sessions, row.tokenHash ≠ renewedHash env draws w user)) := by
  rcases @run_refreshToken env draws w token with ⟨userId, user, hadmits, hrun⟩ | ⟨hnot, hfail, hdb⟩
  · have hsame : ∀ other, refreshUser env w.clock token = some other ↔ other = userId := by
      intro other
      rw [hadmits.named, Option.some_inj, eq_comm]
    rw [Action.run, hrun, run_renewSession, RefreshAtomic]
    simp only [hsame]
    refine Iff.trans (refresh_writes hadmits (renewedHash env draws w user) _ rfl) ?_
    constructor
    · intro h other found hother
      obtain rfl := (hsame other).mp hother.named
      obtain rfl : user = found := Option.some.inj (hadmits.found.symm.trans hother.found)
      exact h
    · intro h
      exact h userId user hadmits
  · refine iff_of_true ?_ fun userId user h => absurd h (hnot userId user)
    rw [Action.run]
    unfold RefreshAtomic
    split
    · rename_i hok
      rw [hok] at hfail
      cases hfail
    · rw [hdb]
      exact fun _ => Iff.rfl

theorem not_refreshAtomic_of_kept {env : Env} {w after : World} {token : Bytes} {outcome : Outcome TokenPair}
    (hok : outcome.isOk = true) (hkept : ∃ row ∈ after.db.sessions, row.tokenHash = hashToken env.crypto token) :
    ¬RefreshAtomic env w token outcome after := by
  obtain ⟨row, hrow, hhash⟩ := hkept
  intro h
  unfold RefreshAtomic at h
  split at h
  · exact h.1 row hrow hhash
  · rcases outcome with (pair | _) | _
    · rename_i hnot
      exact absurd rfl (hnot pair)
    · cases hok
    · cases hok

/-- A user who has just signed up, and the refresh token. -/
def freshWorld : World := (history (serveTurn defaultEnv) signUpTurns (emptyWorld 0)).2

def freshToken : Bytes :=
  (tokensAt defaultEnv freshWorld.clock (Call.sample 0 .cleanExpiredTokens).draws
    (freshWorld.db.users.headD {})).refreshToken

/-- A second later the deletion fails. -/
def stuckDeletion : World :=
  { freshWorld with clock := freshWorld.clock + nanosPerSecond, sqlFaults := [false, false, true] }

/-- The call that then replaces the token. -/
def stuckRefresh : Outcome TokenPair × World :=
  (refreshToken defaultEnv (Call.sample 0 .cleanExpiredTokens).draws freshToken).run stuckDeletion

/-- `RefreshToken` returns tokens, and the old one is still stored. -/
theorem refresh_keeps_old_hash :
    ¬RefreshAtomic defaultEnv stuckDeletion freshToken stuckRefresh.1 stuckRefresh.2 := by
  -- one evaluation of the call for both facts
  obtain ⟨hok, hkept⟩ : stuckRefresh.1.isOk = true ∧
      ∃ row ∈ stuckRefresh.2.db.sessions, row.tokenHash = hashToken defaultEnv.crypto freshToken := by
    decide +kernel
  exact not_refreshAtomic_of_kept hok hkept

/-- Success has written the row of the user and removed the sessions; failure leaves both tables as they were. -/
def RevokeAtomic (w after : World) (user : UserEntity) (New : UserEntity → Prop) : Result Unit → Prop
  | .ok _ => (∃ row ∈ after.db.users, row.id = user.id ∧ New row) ∧ ∀ r ∈ after.db.sessions, r.userId ≠ user.id
  | .fail _ _ => after.db.users = w.db.users ∧ after.db.sessions = w.db.sessions

/-- The user has a session. -/
def Database.HasSession (db : Database) (user : UserEntity) : Prop := ∃ r ∈ db.sessions, r.userId = user.id

section Revoke

variable {w : World} {user changed : UserEntity} {New : UserEntity → Prop}

theorem revokeAtomic_of_fail {after : World} {r : Result Unit} (hr : r.isOk = false) (hdb : after.db = w.db) :
    RevokeAtomic w after user New r := by
  cases r with
  | ok _ => cases hr
  | fail _ _ => exact ⟨by rw [hdb], by rw [hdb]⟩

/-- A statement that only reads does not count. -/
theorem revokeAtomic_read {after : World} {r : Result Unit} :
    RevokeAtomic w after user New r ↔ RevokeAtomic w.read after user New r := Iff.rfl

theorem run_update_after (changed : UserEntity) :
    Program.run exec (UserDB.update changed) w =
      (if w.Fails 0 then failPlain .serviceUnavailable
        else if (UserDB.updateOf changed).affected w.db = 0 then failPlain .userNotFound else .ok (),
        w.after (.updateUser (UserDB.updateOf changed))) := by
  obtain ⟨clock, redis, db, redisFaults, sqlFaults⟩ := w
  have hdone : ∀ w' : World, Program.run exec
      (if (UserDB.updateOf changed).affected db = 0 then pure (failPlain .userNotFound)
        else pure (.ok ()) : Action (Result Unit)) w' =
      (if (UserDB.updateOf changed).affected db = 0 then failPlain .userNotFound else .ok (), w') := by
    intro w'
    split <;> rfl
  rcases sqlFaults with _ | ⟨_ | _, rest⟩
  · exact hdone _
  · exact hdone _
  · rfl

theorem db_after_update (changed : UserEntity) :
    (w.after (.updateUser (UserDB.updateOf changed))).db =
      if w.Fails 0 then w.db else w.db.put (toTimeT w.clock) changed := db_after _

theorem users_after_revoke (userId : Int) : (w.after (.deleteSessionsByUser userId)).db.users = w.db.users := by
  rw [db_after]
  split <;> rfl

/-- The sessions are gone unless the deletion fails and there are some. -/
theorem sessions_after_revoke (userId : Int) :
    (∀ r ∈ (w.after (.deleteSessionsByUser userId)).db.sessions, r.userId ≠ userId) ↔
      (w.Fails 0 → ∀ r ∈ w.db.sessions, r.userId ≠ userId) := by
  rw [db_after]
  split
  · simp [*]
  · refine iff_of_true (fun r hr => ?_) fun h => absurd h ‹_›
    exact of_decide_eq_true (List.mem_filter.mp hr).2

theorem write_self_password {db : Database} {second : Nat} (hsame : changed.uuid = user.uuid) :
    ((UserDB.updateOf changed).write db second user).passwordHash = changed.passwordHash := by
  rcases @write_self db user changed second hsame with ⟨⟨-, hpassword, -⟩, h⟩ | ⟨-, h⟩
  · rw [h, hpassword]
    rfl
  · rw [h]

/-- `UPDATE` and then `DELETE`, as `ResetPassword` and `SetUserDisabled` write. -/
theorem update_then_revoke (hdb : w.db.WellFormed) (huser : user ∈ w.db.users) (hsame : changed.uuid = user.uuid)
    {next : Unit → Action (Result Unit)}
    (hnext : ∀ w' : World, (Program.run exec (next ()) w').1 = .ok () ∧
      (Program.run exec (next ()) w').2.db = (w'.after (.deleteSessionsByUser user.id)).db)
    (hnew : ∀ second, New ((UserDB.updateOf changed).write w.db second user)) :
    RevokeAtomic w (Program.run exec (UserDB.update changed >>= fun r => orFail r next) w).2 user New
        (Program.run exec (UserDB.update changed >>= fun r => orFail r next) w).1 ↔
      (¬w.Fails 0 → ¬(UserDB.updateOf changed).Holds user → w.Fails 1 → ¬w.db.HasSession user) := by
  rw [Program.run_bind, run_update_after]
  by_cases hfails : w.Fails 0
  · rw [if_pos hfails]
    refine iff_of_true (revokeAtomic_of_fail rfl ?_) fun h => absurd hfails h
    exact (db_after_update changed).trans (if_pos hfails)
  · rw [if_neg hfails]
    by_cases hholds : (UserDB.updateOf changed).Holds user
    · have hzero : (UserDB.updateOf changed).affected w.db = 0 := by
        by_contra hne
        exact (affected_iff hdb huser hsame).mp hne hholds
      rw [if_pos hzero]
      refine iff_of_true (revokeAtomic_of_fail rfl ?_) fun _ h => absurd hholds h
      exact ((db_after_update changed).trans (if_neg hfails)).trans (put_of_affected_zero hzero)
    · rw [if_neg ((affected_iff hdb huser hsame).mpr hholds)]
      dsimp only
      rw [orFail_ok]
      obtain ⟨hok, hafter⟩ := hnext (w.after (.updateUser (UserDB.updateOf changed)))
      rw [hok, RevokeAtomic, hafter, users_after_revoke, sessions_after_revoke, db_after_update, if_neg hfails,
        fails_after]
      have hrow : ∃ row ∈ (w.db.put (toTimeT w.clock) changed).users, row.id = user.id ∧ New row :=
        ⟨_, (mem_put hdb huser hsame).mpr (Or.inr rfl), by simp, hnew _⟩
      simp only [hrow, true_and, hfails, hholds, not_false_eq_true, forall_const]
      refine imp_congr_right fun _ => ?_
      rw [Database.HasSession]
      push Not
      rfl

/-- `ResetPassword` gets as far as its writes. -/
structure ResetReaches (env : Env) (w : World) (user : UserEntity) (verifyCode newPassword : Bytes) : Prop where
  mobile : isValidMobile user.mobile = .ok ()
  code : isValidVerifyCode verifyCode env.config.sms = .ok ()
  password : isValidPassword newPassword env.config.password = .ok ()
  captcha : ((verifyCaptcha env.config.sms .resetPassword user.mobile verifyCode).run w).1 = .ok ()
  read : ¬w.Fails 0

/-- `DeleteUser` gets as far as its writes. -/
structure DeleteReaches (env : Env) (w : World) (user : UserEntity) (userUuid verifyCode : Bytes) : Prop where
  uuid : userUuid ≠ []
  code : isValidVerifyCode verifyCode env.config.sms = .ok ()
  read : ¬w.Fails 0
  captcha : ((verifyCaptcha env.config.sms .deleteUser user.mobile verifyCode).run w.read).1 = .ok ()

/-- Redis commands leave the rest of the world alone. -/
theorem redis_frame {α : Type} {keys : Bytes → Prop} {p : Action α} (hp : Program.Uses (Cmd.RedisOn keys) p)
    (w : World) :
    let after := (Program.run exec p w).2
    after.db = w.db ∧ after.clock = w.clock ∧ after.sqlFaults = w.sqlFaults := by
  have hframe := Program.run_frame exec (fun w : World => (w.db, w.clock, w.sqlFaults)) (fun c hc w => ?_) hp w
  · simpa only [Prod.mk.injEq] using hframe
  · cases c with
    | redis c =>
        simp only [Prod.mk.injEq]
        exact ⟨exec_redis_db w c, exec_clock w _, exec_redis_sqlFaults w c⟩
    | now => cases hc
    | sql s => cases hc

theorem setUserDisabled_atomic_iff (hdb : w.db.WellFormed) (huser : user ∈ w.db.users)
    (henabled : user.disabled = false) {userUuid : Bytes} (hsame : w.db.sameUuid user.uuid userUuid = true) :
    RevokeAtomic w ((UserService.setUserDisabled userUuid true).run w).2 user (·.disabled = true)
        ((UserService.setUserDisabled userUuid true).run w).1 ↔
      (userUuid ≠ [] → ¬w.Fails 0 → ¬w.Fails 1 → w.Fails 2 → ¬w.db.HasSession user) := by
  rw [UserService.setUserDisabled, UserService.requireUuid, Action.run]
  by_cases hempty : userUuid = []
  · rw [if_pos hempty]
    exact iff_of_true (revokeAtomic_of_fail rfl rfl) fun h => absurd hempty h
  · rw [if_neg hempty, Program.run_bind, run_findByUUID, hdb.find_uuid huser hsame]
    by_cases hread : w.Fails 0
    · have hlook : w.lookup (some user) = failPlain .serviceUnavailable := if_pos (fails_zero_iff.mp hread)
      rw [hlook]
      exact iff_of_true (revokeAtomic_of_fail rfl rfl) fun _ h => absurd hread h
    · rw [lookup_ok_iff.mpr ⟨hread, rfl⟩]
      dsimp only
      rw [orFail_ok, if_neg (by simp [henabled])]
      have hnext : ∀ w' : World, (Program.run exec (do
          let _ ← TokenRepository.deleteByUserId user.id
          return (.ok () : Result Unit)) w').1 = .ok () ∧ (Program.run exec (do
          let _ ← TokenRepository.deleteByUserId user.id
          return (.ok () : Result Unit)) w').2.db = (w'.after (.deleteSessionsByUser user.id)).db := by
        intro w'
        rw [Program.run_bind, run_deleteByUserId_after]
        exact ⟨rfl, rfl⟩
      have hholds : ¬(UserDB.updateOf { user with disabled := true }).Holds user := by
        rintro ⟨-, -, hdisabled, -⟩
        exact Bool.noConfusion (henabled.symm.trans hdisabled)
      have hwrites := @update_then_revoke w.read user { user with disabled := true } (·.disabled = true) hdb huser rfl
        (fun _ => do
          let _ ← TokenRepository.deleteByUserId user.id
          return .ok ()) hnext fun second => write_self_disabled (by rfl)
      simp only [↓reduceIte]
      refine Iff.trans (revokeAtomic_read.trans hwrites) ?_
      simp only [fails_read, ne_eq, hempty, hread, hholds, not_false_eq_true, forall_const]
      rfl

theorem revokeAtomic_congr {w' after : World} {r : Result Unit} (h : w'.db = w.db) :
    RevokeAtomic w after user New r ↔ RevokeAtomic w' after user New r := by
  cases r <;> simp only [RevokeAtomic, h]

theorem fails_congr {w' : World} (h : w'.sqlFaults = w.sqlFaults) (n : Nat) : w'.Fails n ↔ w.Fails n := by
  rw [World.Fails, World.Fails, h]

theorem Database.WellFormed.find_mobile {db : Database} (hdb : db.WellFormed) {row : UserEntity}
    (hrow : row ∈ db.users) : db.users.find? (·.mobile = row.mobile) = some row := hdb.mobile.find hrow

/-- What `ResetPassword` does after its checks of the formats. -/
theorem resetPassword_atomic_iff (env : Env) (draws : Draws) (hdb : w.db.WellFormed) (huser : user ∈ w.db.users)
    (verifyCode newPassword : Bytes) :
    RevokeAtomic w ((resetPassword env draws user.mobile verifyCode newPassword).run w).2 user
        (·.passwordHash = passwordHash env.crypto draws.salt newPassword)
        ((resetPassword env draws user.mobile verifyCode newPassword).run w).1 ↔
      (ResetReaches env w user verifyCode newPassword → ¬w.Fails 1 →
        user.passwordHash ≠ passwordHash env.crypto draws.salt newPassword → w.Fails 2 → ¬w.db.HasSession user) := by
  rw [resetPassword, Action.run]
  cases hmobile : isValidMobile user.mobile with
  | error message =>
      refine iff_of_true (revokeAtomic_of_fail rfl rfl) fun h => ?_
      cases hmobile.symm.trans h.mobile
  | ok _ =>
  cases hcode : isValidVerifyCode verifyCode env.config.sms with
  | error message =>
      refine iff_of_true (revokeAtomic_of_fail rfl rfl) fun h => ?_
      cases hcode.symm.trans h.code
  | ok _ =>
  cases hpassword : isValidPassword newPassword env.config.password with
  | error message =>
      refine iff_of_true (revokeAtomic_of_fail rfl rfl) fun h => ?_
      cases hpassword.symm.trans h.password
  | ok _ =>
  simp only [requireValid]
  rw [Program.run_bind]
  obtain ⟨hsame, hclock, hfaults⟩ := redis_frame
    (uses_verifyCaptcha env.config.sms .resetPassword user.mobile verifyCode) w
  cases hcaptcha : (Program.run exec (verifyCaptcha env.config.sms .resetPassword user.mobile verifyCode) w).1 with
  | fail code message =>
      refine iff_of_true (revokeAtomic_of_fail rfl hsame) fun h => ?_
      cases hcaptcha.symm.trans h.captcha
  | ok _ =>
      generalize (Program.run exec (verifyCaptcha env.config.sms .resetPassword user.mobile verifyCode) w).2 = w' at *
      rw [orFail_ok, Program.run_bind, run_findByMobile, World.userByMobile, hsame, hdb.find_mobile huser]
      by_cases hread : w.Fails 0
      · have hlook : w'.lookup (some user) = failPlain .serviceUnavailable :=
          if_pos (fails_zero_iff.mp ((fails_congr hfaults 0).mpr hread))
        rw [hlook]
        exact iff_of_true (revokeAtomic_of_fail rfl hsame) fun h => absurd hread h.read
      · rw [lookup_ok_iff.mpr ⟨mt (fails_congr hfaults 0).mp hread, rfl⟩]
        have hnext : ∀ w' : World, (Program.run exec (do
            let _ ← TokenRepository.deleteByUserId user.id
            clearLoginFailure user.mobile
            return (.ok () : Result Unit)) w').1 = .ok () ∧ (Program.run exec (do
            let _ ← TokenRepository.deleteByUserId user.id
            clearLoginFailure user.mobile
            return (.ok () : Result Unit)) w').2.db = (w'.after (.deleteSessionsByUser user.id)).db := by
          intro w'
          rw [Program.run_bind, run_deleteByUserId_after, Program.run_bind]
          exact ⟨rfl, (redis_frame (uses_clearLoginFailure (P := Cmd.RedisOn (· = loginFailKey user.mobile))
            fun _ h => h) _).1⟩
        have hholds : ¬(UserDB.updateOf { user with
              passwordHash := passwordHash env.crypto draws.salt newPassword }).Holds user ↔
            user.passwordHash ≠ passwordHash env.crypto draws.salt newPassword :=
          not_congr ⟨fun h => h.2.1, fun h => ⟨rfl, h, rfl, rfl⟩⟩
        have hwrites := @update_then_revoke w'.read user
          { user with passwordHash := passwordHash env.crypto draws.salt newPassword }
          (·.passwordHash = passwordHash env.crypto draws.salt newPassword) (hsame ▸ hdb) (hsame ▸ huser) rfl
          (fun _ => do
            let _ ← TokenRepository.deleteByUserId user.id
            clearLoginFailure user.mobile
            return .ok ()) hnext fun second => write_self_password (by rfl)
        refine ((revokeAtomic_congr hsame).trans hwrites).trans ?_
        rw [hholds, fails_read, fails_read, fails_congr hfaults, fails_congr hfaults]
        have hreaches : ResetReaches env w user verifyCode newPassword := ⟨hmobile, hcode, hpassword, hcaptcha, hread⟩
        have hrows : w'.read.db = w.db := hsame
        rw [hrows]
        exact ⟨fun h _ => h, fun h => h hreaches⟩

/-- The rows after a deletion that may fail. -/
theorem sessions_kept_iff :
    (w.after (.deleteSessionsByUser user.id)).db.sessions = w.db.sessions ↔ (w.db.HasSession user → w.Fails 0) := by
  rw [db_after]
  split
  · exact iff_of_true rfl fun _ => ‹_›
  · show w.db.sessions.filter (·.userId ≠ user.id) = w.db.sessions ↔ _
    rw [List.filter_eq_self]
    constructor
    · rintro h ⟨r, hr, howner⟩
      exact absurd howner (of_decide_eq_true (h r hr))
    · intro h r hr
      exact decide_eq_true fun howner => absurd (h ⟨r, hr, howner⟩) ‹_›

/-- `DELETE` and then `UPDATE`, as `DeleteUser` writes. -/
theorem revoke_then_update (hdb : w.db.WellFormed) (huser : user ∈ w.db.users) (mobile : Bytes) {after : World}
    {r : Result Unit} (hrun : Program.run exec (do
      let _ ← TokenRepository.deleteByUserId user.id
      orFail (← UserDB.update { user with disabled := true, mobile := mobile }) fun _ => return .ok ()) w = (r, after)) :
    RevokeAtomic w after user (·.disabled = true) r ↔
      (w.db.HasSession user → (w.Fails 0 ↔ w.Fails 1 ∨ user.disabled = true)) := by
  generalize hrevoked : w.after (.deleteSessionsByUser user.id) = w' at *
  rw [Program.run_bind, run_deleteByUserId_after, Program.run_bind, run_update_after, hrevoked] at hrun
  have hfails : w'.Fails 0 ↔ w.Fails 1 := by
    rw [← hrevoked, fails_after]
  have husers : w'.db.users = w.db.users := by
    rw [← hrevoked, users_after_revoke]
  have hdb' : w'.db.WellFormed := by
    rw [← hrevoked, db_after]
    split
    · exact hdb
    · exact hdb.apply _ _
  have haffected : (UserDB.updateOf { user with disabled := true, mobile := mobile }).affected w'.db ≠ 0 ↔
      user.disabled = false := by
    rw [affected_iff hdb' (husers ▸ huser) (by rfl)]
    constructor
    · intro h
      by_contra hdisabled
      exact h ⟨rfl, rfl, Bool.eq_true_of_not_eq_false hdisabled, rfl⟩
    · rintro henabled ⟨-, -, hdisabled, -⟩
      exact Bool.noConfusion (henabled.symm.trans hdisabled)
  by_cases hok : ¬w'.Fails 0 ∧ user.disabled = false
  · obtain ⟨hdone, henabled⟩ := hok
    rw [if_neg hdone, if_neg (haffected.mpr henabled)] at hrun
    obtain ⟨rfl, rfl⟩ := Prod.mk.inj hrun
    have hrow : ∃ row ∈ (w'.db.put (toTimeT w'.clock) { user with disabled := true, mobile := mobile }).users,
        row.id = user.id ∧ row.disabled = true :=
      ⟨_, (mem_put hdb' (husers ▸ huser) (by rfl)).mpr (Or.inr rfl), by simp, write_self_disabled (by rfl)⟩
    have hgone : (∀ r ∈ w'.db.sessions, r.userId ≠ user.id) ↔ (w.Fails 0 → ∀ r ∈ w.db.sessions, r.userId ≠ user.id) := by
      rw [← hrevoked, sessions_after_revoke]
    show (_ ∧ _) ↔ _
    rw [db_after_update, if_neg hdone]
    refine (and_iff_right hrow).trans (Iff.trans hgone ?_)
    have hboth : ¬(w.Fails 1 ∨ user.disabled = true) := by
      rintro (h | h)
      · exact hdone (hfails.mpr h)
      · exact Bool.noConfusion (henabled.symm.trans h)
    rw [iff_false_right hboth, Database.HasSession]
    constructor
    · rintro h ⟨r, hr, howner⟩ hfailed
      exact h hfailed r hr howner
    · intro h hfailed r hr howner
      exact h ⟨r, hr, howner⟩ hfailed
  · -- the update does nothing: only the deletion can have
    have hsame : (w'.after (.updateUser (UserDB.updateOf { user with disabled := true, mobile := mobile }))).db = w'.db ∧
        r.isOk = false ∧
        after = w'.after (.updateUser (UserDB.updateOf { user with disabled := true, mobile := mobile })) := by
      rw [db_after_update]
      by_cases hfailed : w'.Fails 0
      · rw [if_pos hfailed] at hrun ⊢
        obtain ⟨rfl, rfl⟩ := Prod.mk.inj hrun
        exact ⟨rfl, rfl, rfl⟩
      · have hzero : (UserDB.updateOf { user with disabled := true, mobile := mobile }).affected w'.db = 0 := by
          by_contra hne
          exact hok ⟨hfailed, haffected.mp hne⟩
        rw [if_neg hfailed, if_pos hzero] at hrun
        rw [if_neg hfailed, put_of_affected_zero hzero]
        obtain ⟨rfl, rfl⟩ := Prod.mk.inj hrun
        exact ⟨rfl, rfl, rfl⟩
    obtain ⟨hdb'', hfail, rfl⟩ := hsame
    have hboth : w.Fails 1 ∨ user.disabled = true := by
      by_contra hneither
      push Not at hneither
      exact hok ⟨mt hfails.mp hneither.1, Bool.eq_false_of_not_eq_true hneither.2⟩
    cases r with
    | ok _ => cases hfail
    | fail code message =>
        show (_ ∧ _) ↔ _
        rw [hdb'', husers, iff_true_right hboth, ← sessions_kept_iff, hrevoked]
        exact and_iff_right rfl

/-- What `DeleteUser` leaves, whichever of its statements fail. -/
theorem deleteUser_atomic_iff (env : Env) (hdb : w.db.WellFormed) (huser : user ∈ w.db.users) {userUuid : Bytes}
    (hsame : w.db.sameUuid user.uuid userUuid = true) (verifyCode : Bytes) :
    RevokeAtomic w ((UserService.deleteUser env userUuid verifyCode).run w).2 user (·.disabled = true)
        ((UserService.deleteUser env userUuid verifyCode).run w).1 ↔
      (DeleteReaches env w user userUuid verifyCode → w.db.HasSession user →
        (w.Fails 1 ↔ w.Fails 2 ∨ user.disabled = true)) := by
  rw [UserService.deleteUser, UserService.requireUuid, Action.run]
  by_cases hempty : userUuid = []
  · rw [if_pos hempty]
    exact iff_of_true (revokeAtomic_of_fail rfl rfl) fun h => absurd hempty h.uuid
  · rw [if_neg hempty]
    cases hcode : isValidVerifyCode verifyCode env.config.sms with
    | error message =>
        refine iff_of_true (revokeAtomic_of_fail rfl rfl) fun h => ?_
        cases hcode.symm.trans h.code
    | ok _ =>
        rw [requireValid, Program.run_bind, run_findByUUID, hdb.find_uuid huser hsame]
        by_cases hread : w.Fails 0
        · have hlook : w.lookup (some user) = failPlain .serviceUnavailable := if_pos (fails_zero_iff.mp hread)
          rw [hlook]
          exact iff_of_true (revokeAtomic_of_fail rfl rfl) fun h => absurd hread h.read
        · rw [lookup_ok_iff.mpr ⟨hread, rfl⟩]
          dsimp only
          rw [orFail_ok, Program.run_bind]
          obtain ⟨hrows, -, hfaults⟩ := redis_frame
            (uses_verifyCaptcha env.config.sms .deleteUser user.mobile verifyCode) w.read
          cases hcaptcha : (Program.run exec (verifyCaptcha env.config.sms .deleteUser user.mobile verifyCode)
              w.read).1 with
          | fail code message =>
              refine iff_of_true (revokeAtomic_of_fail rfl hrows) fun h => ?_
              cases hcaptcha.symm.trans h.captcha
          | ok _ =>
              have hreaches : DeleteReaches env w user userUuid verifyCode := ⟨hempty, hcode, hread, hcaptcha⟩
              generalize (Program.run exec (verifyCaptcha env.config.sms .deleteUser user.mobile verifyCode)
                w.read).2 = w' at *
              have hrows : w'.db = w.db := hrows
              rw [orFail_ok]
              refine (revokeAtomic_congr hrows).trans ((revoke_then_update (hrows ▸ hdb) (hrows ▸ huser) _ rfl).trans ?_)
              rw [fails_congr hfaults, fails_congr hfaults, fails_read, fails_read, hrows]
              exact ⟨fun h _ => h, fun h => h hreaches⟩

end Revoke

/-- **Revocation under faults.** `ResetPassword` and `SetUserDisabled` write first and revoke last, so they break the
promise exactly when the last statement fails and the user has sessions. `DeleteUser` revokes first: with sessions
it keeps the promise exactly when both writes take effect or neither. -/
theorem revoke_atomic_iff {w : World} (hdb : w.db.WellFormed) {user : UserEntity} (huser : user ∈ w.db.users) :
    (∀ env draws verifyCode newPassword,
      RevokeAtomic w ((resetPassword env draws user.mobile verifyCode newPassword).run w).2 user
          (·.passwordHash = passwordHash env.crypto draws.salt newPassword)
          ((resetPassword env draws user.mobile verifyCode newPassword).run w).1 ↔
        (ResetReaches env w user verifyCode newPassword → ¬w.Fails 1 →
          user.passwordHash ≠ passwordHash env.crypto draws.salt newPassword → w.Fails 2 → ¬w.db.HasSession user)) ∧
    (∀ userUuid, w.db.sameUuid user.uuid userUuid = true → user.disabled = false →
      (RevokeAtomic w ((UserService.setUserDisabled userUuid true).run w).2 user (·.disabled = true)
          ((UserService.setUserDisabled userUuid true).run w).1 ↔
        (userUuid ≠ [] → ¬w.Fails 0 → ¬w.Fails 1 → w.Fails 2 → ¬w.db.HasSession user))) ∧
    ∀ env userUuid verifyCode, w.db.sameUuid user.uuid userUuid = true →
      (RevokeAtomic w ((UserService.deleteUser env userUuid verifyCode).run w).2 user (·.disabled = true)
          ((UserService.deleteUser env userUuid verifyCode).run w).1 ↔
        (DeleteReaches env w user userUuid verifyCode → w.db.HasSession user →
          (w.Fails 1 ↔ w.Fails 2 ∨ user.disabled = true))) :=
  ⟨fun env draws verifyCode newPassword => resetPassword_atomic_iff env draws hdb huser verifyCode newPassword,
    fun _ hsame henabled => setUserDisabled_atomic_iff hdb huser henabled hsame,
    fun env _ verifyCode hsame => deleteUser_atomic_iff env hdb huser hsame verifyCode⟩

/-- A user with a session; the third statement is about to fail. -/
def stuckRevocation : World :=
  { oneUser with
    db := { oneUser.db with
      sessions := [{ id := 1, userId := 1, tokenHash := ascii "00", expiresAt := 1800000000, createdAt := 1700000000 }]
      nextSessionId := 2 }
    sqlFaults := [false, false, true] }

theorem stuckRevocation_wellFormed : stuckRevocation.db.WellFormed where
  mobile := List.nodup_singleton _
  uuid := List.nodup_singleton _
  id := List.nodup_singleton _
  next := by decide
  idBelow u hu := by
    obtain rfl := List.mem_singleton.mp hu
    decide
  hash := List.nodup_singleton _
  owner r hr := by
    obtain rfl := List.mem_singleton.mp hr
    exact ⟨sampleUser, List.mem_cons_self, rfl⟩

theorem revoke_atomic_sample :
    RevokeAtomic stuckRevocation ((UserService.setUserDisabled sampleUser.uuid true).run stuckRevocation).2 sampleUser
        (·.disabled = true) ((UserService.setUserDisabled sampleUser.uuid true).run stuckRevocation).1 ↔
      (sampleUser.uuid ≠ [] → ¬stuckRevocation.Fails 0 → ¬stuckRevocation.Fails 1 → stuckRevocation.Fails 2 →
        ¬stuckRevocation.db.HasSession sampleUser) :=
  (revoke_atomic_iff stuckRevocation_wellFormed List.mem_cons_self).2.1 sampleUser.uuid (by decide) rfl

theorem not_revokeAtomic_of_kept {w after : World} {user : UserEntity} {New : UserEntity → Prop} {r : Result Unit}
    (hok : r.isOk = true) (hkept : ∃ s ∈ after.db.sessions, s.userId = user.id) :
    ¬RevokeAtomic w after user New r := by
  obtain ⟨s, hs, howner⟩ := hkept
  cases r with
  | ok _ => exact fun h => h.2 s hs howner
  | fail _ _ => cases hok

/-- `SetUserDisabled` returns `Ok`, and the session of the user is still there. -/
theorem disabling_keeps_session :
    ¬RevokeAtomic stuckRevocation ((UserService.setUserDisabled sampleUser.uuid true).run stuckRevocation).2 sampleUser
      (·.disabled = true) ((UserService.setUserDisabled sampleUser.uuid true).run stuckRevocation).1 :=
  not_revokeAtomic_of_kept (by decide +kernel) (by decide +kernel)

end AccountService
