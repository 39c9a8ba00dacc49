import AccountService.AccountReplay
import AccountService.LoginEnumeration
import AccountService.LoginLockout
import AccountService.PasswordExactness

/-! The password that an account has: the one that was set last, by whichever request. What a password login answers
in terms of it. -/

namespace AccountService

open AuthService Interaction

/-- The password that a request sets for an account when it succeeds. -/
def Request.password? (uuidKey : Bytes → Bytes) (a : Profile) : Request → Option Bytes
  | .register mobile _ password _ => if a.mobile = mobile then some password else none
  | .resetPassword mobile _ newPassword => if a.mobile = mobile then some newPassword else none
  | .changePassword userUuid _ newPassword => if uuidKey a.uuid = uuidKey userUuid then some newPassword else none
  | _ => none

def Event.password? (uuidKey : Bytes → Bytes) (a : Profile) (e : Event) : Option Bytes :=
  if e.Succeeded then e.request.password? uuidKey a else none

section LastPassword

variable {crypto : Crypto} {uuidKey : Bytes → Bytes} {draws : Draws} {request : Request} {a b : Profile} {p : Bytes}

theorem Request.password?_congr (huuid : a.uuid = b.uuid) (hmobile : a.mobile = b.mobile) (request : Request) :
    request.password? uuidKey a = request.password? uuidKey b := by
  cases request <;> simp only [Request.password?, huuid, hmobile]

theorem Request.edit_uuid (request : Request) (a : Profile) : (request.edit crypto uuidKey draws a).uuid = a.uuid := by
  unfold Request.edit
  split
  all_goals first | rfl | (split <;> rfl)

theorem Request.edit_mobile (request : Request) (a : Profile) :
    (request.edit crypto uuidKey draws a).mobile = a.mobile := by
  unfold Request.edit
  split
  all_goals first | rfl | (split <;> rfl)

/-- A request that enrols nobody gives an account the password that it sets, and no other. -/
theorem Request.edit_passwordHash (henrolled : request.enrolled crypto draws = []) (a : Profile) :
    (request.edit crypto uuidKey draws a).passwordHash =
      ((request.password? uuidKey a).map (passwordHash crypto draws.salt)).getD a.passwordHash := by
  cases request with
  | register _ _ _ _ => cases henrolled
  | resetPassword _ _ _ | changePassword _ _ _ =>
      simp only [Request.edit, Request.password?]
      split <;> rfl
  | updateUser _ displayName =>
      cases displayName with
      | none => rfl
      | some name =>
          simp only [Request.edit, Request.password?]
          split <;> rfl
  | deleteUser _ _ | setUserDisabled _ _ =>
      simp only [Request.edit, Request.password?]
      split <;> rfl
  | _ => rfl

theorem Request.enrolled_cases (crypto : Crypto) (draws : Draws) (request : Request) :
    request.enrolled crypto draws = [] ∨
      ∃ mobile verifyCode password displayName, request = .register mobile verifyCode password displayName := by
  cases request with
  | register mobile verifyCode password displayName => exact Or.inr ⟨mobile, verifyCode, password, displayName, rfl⟩
  | _ => exact Or.inl rfl

variable {env : Env} {w : World} {call : Call}

theorem mem_profiles {db : Database} : a ∈ db.profiles ↔ ∃ user ∈ db.users, user.profile = a := List.mem_map

theorem profiles_unique {db : Database} (hdb : db.WellFormed) (ha : a ∈ db.profiles) (hb : b ∈ db.profiles)
    (h : a.mobile = b.mobile) : a = b := by
  obtain ⟨user, huser, rfl⟩ := mem_profiles.mp ha
  obtain ⟨other, hother, rfl⟩ := mem_profiles.mp hb
  rw [hdb.mobile.eq_of_key huser hother h]

/-- **One call.** It sets the password of an account, or the account was there with the password that it has. -/
theorem serve_password (hdb : w.db.WellFormed) (hfaults : call.sqlFaults = [])
    (ha : a ∈ (serve env call w).2.db.profiles) :
    (∀ p, (serve env call w).1.password? w.db.uuidKey a = some p →
      a.passwordHash = passwordHash env.crypto call.draws.salt p) ∧
    ((serve env call w).1.password? w.db.uuidKey a = none →
      ∃ b ∈ w.db.profiles, b.uuid = a.uuid ∧ b.mobile = a.mobile ∧ b.passwordHash = a.passwordHash) := by
  have hwf : (serve env call w).2.db.WellFormed := run_wellFormed (handle env call.draws call.request) hdb
  have hmem := ha
  rw [serve_replayed hdb hfaults, Event.replay] at hmem
  by_cases hok : (serve env call w).1.Succeeded
  · rw [if_pos hok] at hmem
    have hevent : (serve env call w).1.password? w.db.uuidKey a = call.request.password? w.db.uuidKey a := if_pos hok
    rw [hevent]
    rw [show (serve env call w).1.request = call.request from rfl,
      show (serve env call w).1.call = call from rfl] at hmem
    rcases call.request.enrolled_cases env.crypto call.draws with hnone | ⟨mobile, verifyCode, password, name, hrequest⟩
    · rw [hnone, List.append_nil] at hmem
      obtain ⟨b, hb, rfl⟩ := List.mem_map.mp hmem
      rw [Request.password?_congr (Request.edit_uuid _ b) (Request.edit_mobile _ b), Request.edit_passwordHash hnone]
      exact ⟨fun p hp => by rw [hp]; rfl, fun hp => ⟨b, hb, (Request.edit_uuid _ b).symm,
        (Request.edit_mobile _ b).symm, by rw [hp]; rfl⟩⟩
    · rw [hrequest] at hmem ⊢
      rw [edit_rest fun _ => rfl] at hmem
      have hnew : (⟨call.draws.uuid, mobile, name, passwordHash env.crypto call.draws.salt password, .user, false⟩ :
          Profile) ∈ (serve env call w).2.db.profiles := by
        rw [serve_replayed hdb hfaults, Event.replay, if_pos hok]
        refine List.mem_append_right _ ?_
        rw [show (serve env call w).1.request = call.request from rfl, hrequest]
        exact List.mem_singleton_self _
      by_cases hmobile : a.mobile = mobile
      · refine ⟨fun p hp => ?_, fun hp => ?_⟩
        · cases (if_pos hmobile).symm.trans hp
          rw [profiles_unique hwf ha hnew hmobile]
        · cases (if_pos hmobile).symm.trans hp
      · refine ⟨fun p hp => ?_, fun _ => ?_⟩
        · cases (if_neg hmobile).symm.trans hp
        · rcases List.mem_append.mp hmem with hold | hadded
          · exact ⟨a, hold, rfl, rfl, rfl⟩
          · rw [List.mem_singleton.mp hadded] at hmobile
            exact absurd rfl hmobile
  · rw [if_neg hok] at hmem
    refine ⟨fun p hp => ?_, fun _ => ⟨a, hmem, rfl, rfl, rfl⟩⟩
    rw [Event.password?, if_neg hok] at hp
    cases hp

/-- The tables after a log: every account has the password that was set last, as far as the log knows one. -/
structure Remembered (env : Env) (uuidKey : Bytes → Bytes) (log : List Event) (db : Database) : Prop where
  wellFormed : db.WellFormed
  collation : db.uuidKey = uuidKey
  last : ∀ before e after, log = before ++ e :: after → ∀ a ∈ db.profiles, ∀ p, e.password? uuidKey a = some p →
    (∀ later ∈ after, later.password? uuidKey a = none) →
      a.passwordHash = passwordHash env.crypto e.call.draws.salt p

theorem Event.password?_congr (huuid : a.uuid = b.uuid) (hmobile : a.mobile = b.mobile) (e : Event) :
    e.password? uuidKey a = e.password? uuidKey b := by
  rw [Event.password?, Event.password?, Request.password?_congr huuid hmobile]

theorem Remembered.serve {log : List Event} (h : Remembered env uuidKey log w.db) (hfaults : call.sqlFaults = []) :
    Remembered env uuidKey (log ++ [(serve env call w).1]) (serve env call w).2.db := by
  refine ⟨run_wellFormed (handle env call.draws call.request) h.wellFormed,
    (serve_uuidKey env call w).trans h.collation, fun before e after hlog a ha p hp hlater => ?_⟩
  obtain ⟨hset, hkept⟩ := serve_password h.wellFormed hfaults ha
  rw [h.collation] at hset hkept
  rcases snoc_eq_append_cons hlog with ⟨-, rfl⟩ | ⟨rest, rfl, hrest⟩
  · exact hset p hp
  · obtain ⟨b, hb, huuid, hmobile, hhash⟩ := hkept (hlater _ (List.mem_append_right _ (List.mem_singleton_self _)))
    rw [← hhash]
    refine h.last before e rest hrest b hb p ?_ fun later hmem => ?_
    · rw [Event.password?_congr huuid hmobile, hp]
    · rw [Event.password?_congr huuid hmobile, hlater later (List.mem_append_left _ hmem)]

theorem remembered_history (hdb : w.db.WellFormed) (calls : List Call)
    (hfaults : ∀ call ∈ calls, call.sqlFaults = []) :
    Remembered env w.db.uuidKey (history (serve env) calls w).1 (history (serve env) calls w).2.db := by
  refine @history_invariant Call World Event (serve env) (fun log s => Remembered env w.db.uuidKey log s.db)
    (fun _ _ call => call.sqlFaults = []) w ⟨hdb, rfl, fun before e after h => ?_⟩
    (fun log s call h hcall => h.serve hcall) calls fun before call after h => hfaults call (by rw [h]; simp)
  exact absurd h (by simp)

variable {mobile password : Bytes} {user : UserEntity}

theorem run_afterLookup_right (henabled : user.disabled = false)
    (hright : passwordVerify env.crypto password user.passwordHash = true) :
    (Action.run (afterLookup env draws mobile password (foundUser (.ok (some user)))) w).1.isOk = true := by
  simp only [afterLookup, foundUser, henabled, hright, Bool.false_eq_true, not_true_eq_false, if_false, Action.run,
    Program.run_bind]
  obtain ⟨result, hresult⟩ := run_signIn_ok draws user (Program.run exec (clearLoginFailure mobile) w).2
  rw [hresult]
  rfl

/-- An attempt that gets to the account is decided by the row. -/
theorem login_iff (hdb : w.db.WellFormed) (hreach : ReachesAccount env user.mobile password w)
    (huser : user ∈ w.db.users) :
    (Action.run (loginByPassword env draws user.mobile password) w).1.isOk = true ↔
      user.disabled = false ∧ passwordVerify env.crypto password user.passwordHash = true := by
  have hfind : w.db.users.find? (·.mobile = user.mobile) = some user := Table.Unique.find hdb.mobile huser
  rw [run_reached draws hreach, hfind]
  change (Action.run (afterLookup env draws user.mobile password (foundUser (.ok (some user))))
    (Action.run (checkLoginFailedAttempts env user.mobile) w).2.read).1.isOk = true ↔ _
  by_cases hdisabled : user.disabled = true
  · rw [run_afterLookup_disabled draws hdisabled, hdisabled]
    simp [Result.isOk, Result.failWith]
  · have henabled : user.disabled = false := by simpa using hdisabled
    by_cases hright : passwordVerify env.crypto password user.passwordHash = true
    · rw [run_afterLookup_right henabled hright]
      simp [henabled, hright]
    · rw [run_afterLookup_wrong draws henabled (by simpa using hright)]
      simp [Result.isOk, Result.failWith, hright]

/-- The passwords that fit a stored hash. -/
theorem passwordVerify_passwordHash_iff (crypto : Crypto) (salt p q : Bytes) :
    passwordVerify crypto q (passwordHash crypto salt p) = true ↔
      crypto.sha256 (bytesToHex salt ++ q) = crypto.sha256 (bytesToHex salt ++ p) := by
  have hstored : passwordVerify crypto q (passwordHash crypto salt p) =
      PasswordHelper.constantTimeCompare (bytesToHex (crypto.sha256 (bytesToHex salt ++ p)))
        (bytesToHex (crypto.sha256 (bytesToHex salt ++ q))) :=
    (passwordVerify_eq crypto q _).trans
      (verify_stored crypto q (dollar_notMem_bytesToHex salt) _)
  rw [hstored, constantTimeCompare_iff]
  exact ⟨fun h => (bytesToHex_injective _ _ h).symm, fun h => by rw [h]⟩

/-- **The last password.** After any run without failing statements, a password login that gets as far as the account
succeeds exactly if the account is enabled and the password has the digest of the one that was set last, be it by
`Register`, `ResetPassword` or `ChangePassword`; earlier ones are void. -/
theorem last_password_logs_in (env : Env) (w : World) (hdb : w.db.WellFormed) (calls : List Call)
    (hfaults : ∀ call ∈ calls, call.sqlFaults = []) (user : UserEntity)
    (huser : user ∈ (history (serve env) calls w).2.db.users) (before after : List Event) (e : Event)
    (hlog : (history (serve env) calls w).1 = before ++ e :: after) (p : Bytes)
    (hset : e.password? w.db.uuidKey user.profile = some p)
    (hlater : ∀ later ∈ after, later.password? w.db.uuidKey user.profile = none) (attempt : PasswordAttempt)
    (hreach : ReachesAccount env user.mobile attempt.password (attempt.world (history (serve env) calls w).2)) :
    let login := Action.run (loginByPassword env attempt.draws user.mobile attempt.password)
      (attempt.world (history (serve env) calls w).2)
    login.1.isOk = true ↔ user.disabled = false ∧
      env.crypto.sha256 (bytesToHex e.call.draws.salt ++ attempt.password) =
        env.crypto.sha256 (bytesToHex e.call.draws.salt ++ p) := by
  intro login
  have h := @remembered_history env w hdb calls hfaults
  have hhash : user.passwordHash = passwordHash env.crypto e.call.draws.salt p :=
    h.last before e after hlog user.profile (List.mem_map_of_mem huser) p hset hlater
  have hlogin : login.1.isOk = true ↔ _ := login_iff h.wellFormed hreach huser
  rw [hlogin, hhash, passwordVerify_passwordHash_iff]

end LastPassword

/-- The account of the sample user after the reset. -/
def recoveredUser : UserEntity := recovered.2.db.users.headD {}

def betterAttempt : PasswordAttempt where
  delay := 0
  password := ascii "Better123"
  draws := (Call.sample 0 (.logout [])).draws

theorem recovered_length : 3 < recovered.1.length := by decide +kernel

theorem last_password_logs_in_sample :
    (Action.run (loginByPassword defaultEnv betterAttempt.draws recoveredUser.mobile betterAttempt.password)
      (betterAttempt.world recovered.2)).1.isOk = true := by
  have hlog : recovered.1 = recovered.1.take 3 ++ recovered.1.get ⟨3, recovered_length⟩ :: recovered.1.drop 4 := by
    rw [List.get_eq_getElem, ← List.drop_eq_getElem_cons recovered_length, List.take_append_drop]
  have hmobile : recoveredUser.mobile = ascii "13800138000" := by decide +kernel
  have hreach : ReachesAccount defaultEnv recoveredUser.mobile betterAttempt.password
      (betterAttempt.world recovered.2) := by
    rw [hmobile]
    exact ⟨rfl, rfl, by decide +kernel, by decide +kernel⟩
  exact (last_password_logs_in defaultEnv (emptyWorld 0) (Database.wellFormed_empty id) recoveryCalls
    recoveryCalls_faults recoveredUser (by decide +kernel) _ _ _ hlog (ascii "Better123") (by decide +kernel)
    (by decide +kernel) betterAttempt hreach).mpr ⟨by decide +kernel, rfl⟩

end AccountService
