import AccountService.AccountIdentity
import AccountService.ModelTurns

/-! The calls of administrators, with all operations of the services at work at the same time. Nobody becomes an
administrator: who gets through has shown a token of an account that was one from the start. -/

namespace AccountService

open Interaction

theorem Program.within_mono {S : Signature} {α : Type} {P : S.Cmd → Prop} {Q : (c : S.Cmd) → S.Reply c → Prop}
    {R R' : α → Prop} {p : Program S α} (h : p.Within P Q R) (hR : ∀ a, R a → R' a) : p.Within P Q R' := by
  induction p with
  | done a => exact hR a h
  | call c next ih => exact ⟨h.1, fun reply hreply => ih reply (h.2 reply hreply)⟩

def Administrator (role : UserRole) : Prop := role = .admin ∨ role = .superAdmin

/-- The calls behind `RequireAdmin`. -/
def Rpc.adminOnly : Rpc → Bool
  | .getUser _ | .listUsers _ _ _ => true
  | .getCurrentUser | .updateUser _ | .changePassword _ _ | .deleteUser _ => false

/-- The header of a call has been accepted, for an administrator if the call is one of theirs. -/
def Shown (env : Env) (time : Nat) (header : Option Bytes) (rpc : Rpc) : Prop :=
  ∃ t ≤ time, ∃ auth, UserHandler.authenticateAt env t header = .ok auth ∧
    (rpc.adminOnly = true → Administrator auth.role)

/-- The outcomes of an operation: a token that is handed out is one of a known account, and a remote call that
succeeds has shown a header that is accepted. -/
def Act.Returns (env : Env) (act : Act) (known : List Identity) (time : Nat) : Outcome ActAnswer → Prop
  | .returned (.ok (.service answer)) => ∀ access ∈ answer.access?, Vouched env known time access
  | .returned (.ok (.remote _)) => ∃ header rpc, act = .remote header rpc ∧ Shown env time header rpc
  | _ => True

section Acts

variable {env : Env} {draws : Draws} {drawn : Bytes → Prop} {known : List Identity} {time : Nat}

theorem within_authenticate (header : Option Bytes) :
    Program.Within (Sends drawn known) (Replies known time)
      (fun r => ∃ t ≤ time, r = UserHandler.authenticateAt env t header) (UserHandler.authenticate env header) := by
  unfold UserHandler.authenticate UserHandler.authenticateAt
  cases header with
  | none => exact ⟨time, le_rfl, rfl⟩
  | some text =>
      simp only
      split
      · exact ⟨time, le_rfl, rfl⟩
      · split
        · exact ⟨time, le_rfl, rfl⟩
        · refine Program.Within.bind (R := fun t => t ≤ time) ⟨trivial, fun t ht => ht⟩ fun t ht => ?_
          cases hverify : verifyAccessToken env.crypto env.config.security t (text.drop UserHandler.bearer.length) with
          | fail code message => exact ⟨t, ht, by rw [hverify]⟩
          | ok payload => exact ⟨t, ht, by rw [hverify]⟩

/-- What comes after `Authenticate`. -/
theorem within_behind {header : Option Bytes} {rpc : Rpc} {next : AuthContext → Action (Result RpcAnswer)}
    (h : ∀ auth, Program.Within (Sends drawn known) (Replies known time)
      (fun r => r.isOk = true → rpc.adminOnly = true → Administrator auth.role) (next auth)) :
    Program.Within (Sends drawn known) (Replies known time) (fun r => r.isOk = true → Shown env time header rpc)
      (UserHandler.authenticate env header >>= fun r => orFail r next) := by
  refine (within_authenticate header).bind fun r hr => ?_
  obtain ⟨t, ht, rfl⟩ := hr
  cases hauth : UserHandler.authenticateAt env t header with
  | fail code message => exact fun h => by cases h
  | ok auth => exact Program.within_mono (h auth) fun r hr hok => ⟨t, ht, auth, hauth, hr hok⟩

theorem within_requireAdmin {auth : AuthContext} {rpc : Rpc} {next : Action (Result RpcAnswer)}
    (h : Program.Within (Sends drawn known) (Replies known time) (fun _ => True) next) :
    Program.Within (Sends drawn known) (Replies known time)
      (fun r => r.isOk = true → rpc.adminOnly = true → Administrator auth.role)
      (UserHandler.requireAdmin auth next) := by
  unfold UserHandler.requireAdmin
  split
  · exact fun hok => by cases hok
  · rename_i hrole
    refine Program.within_mono h fun r _ _ _ => ?_
    by_contra hnone
    exact hrole ⟨fun hadmin => hnone (.inl hadmin), fun hsuper => hnone (.inr hsuper)⟩

theorem within_plain {α : Type} {rpc : Rpc} {auth : AuthContext} {f : α → RpcAnswer} {p : Action (Result α)}
    (hrpc : rpc.adminOnly = false)
    (h : Program.Within (Sends drawn known) (Replies known time) (fun _ => True) p) :
    Program.Within (Sends drawn known) (Replies known time)
      (fun r => r.isOk = true → rpc.adminOnly = true → Administrator auth.role) (do return (← p).map f) := by
  refine h.bind fun r _ => fun _ hadmin => ?_
  rw [hrpc] at hadmin
  cases hadmin

theorem within_getUser (userUuid : Bytes) :
    Program.Within (Sends drawn known) (Replies known time) (fun _ => True) (UserService.getUser userUuid) := by
  refine within_of_uses (uses_requireUuid ?_)
  exact Program.Uses.bind (uses_findByUUID trivial) fun r => uses_orFail fun user => trivial

theorem within_listUsers (mobileFilter : Option Bytes) (disabledFilter : Option Bool) (page pageSize : Int32) :
    Program.Within (Sends drawn known) (Replies known time) (fun _ => True)
      (UserService.listUsers mobileFilter disabledFilter page pageSize) := by
  refine within_of_uses (Program.Uses.bind (uses_sqlCall trivial) fun _ => uses_orFail fun total => ?_)
  exact Program.Uses.bind (uses_sqlCall trivial) fun _ => uses_orFail fun users => trivial

theorem within_serve (header : Option Bytes) (rpc : Rpc) :
    Program.Within (Sends drawn known) (Replies known time) (fun r => r.isOk = true → Shown env time header rpc)
      (UserHandler.serve env draws header rpc) := by
  cases rpc with
  | getCurrentUser => exact within_behind fun auth => within_plain rfl (within_getUser auth.userUuid)
  | updateUser displayName =>
      exact within_behind fun auth => within_plain rfl (within_updateUser auth.userUuid displayName)
  | changePassword oldPassword newPassword =>
      refine within_behind fun auth => ?_
      split
      · exact fun hok => by cases hok
      · split
        · exact fun hok => by cases hok
        · exact within_requireValid (fun _ _ hok => by cases hok) fun _ =>
            within_plain rfl (within_changePassword auth.userUuid oldPassword newPassword)
  | deleteUser verifyCode =>
      exact within_behind fun auth => within_requireValid (fun _ _ hok => by cases hok) fun _ =>
        within_plain rfl (within_deleteUser auth.userUuid verifyCode)
  | getUser id =>
      refine within_behind fun auth => within_requireAdmin ?_
      split
      · trivial
      · exact (within_getUser id).bind fun _ _ => trivial
  | listUsers page mobileFilter disabledFilter =>
      exact within_behind fun auth => within_requireAdmin ((within_listUsers _ _ _ _).bind fun _ _ => trivial)

/-- **Operations.** An operation keeps to what may be sent as long as what it reads is so. -/
theorem within_act (huuid : drawn draws.uuid) (act : Act) :
    Program.Within (Sends drawn known) (Replies known time) (act.Returns env known time) (act.handle env draws) := by
  cases act with
  | service request =>
      refine (within_handle huuid request).bind fun o ho => ?_
      rcases o with (answer | _) | _
      · exact ho
      · trivial
      · trivial
  | validateAccessToken token =>
      refine Program.Within.bind (R := fun _ => True) ?_ fun r _ => ?_
      · refine within_of_uses ?_
        unfold AuthService.validateAccessToken
        split
        · trivial
        · exact ⟨trivial, fun t => uses_orFail fun payload => trivial⟩
      · cases r with
        | fail code message => trivial
        | ok result => trivial
  | listUsers mobileFilter disabledFilter page pageSize =>
      refine (within_listUsers mobileFilter disabledFilter page pageSize).bind fun r _ => ?_
      cases r with
      | fail code message => trivial
      | ok result => trivial
  | remote header rpc =>
      refine (within_serve header rpc).bind fun r hr => ?_
      cases r with
      | fail code message => trivial
      | ok answer => exact ⟨header, rpc, rfl, hr rfl⟩

end Acts

/-- Operations at work at the same time. -/
abbrev Busy := System Service World (Outcome ActAnswer)

def actThreads (env : Env) (acts : List (Draws × Act)) : List (Action (Outcome ActAnswer)) :=
  acts.map fun a => a.2.handle env a.1

/-- The operations after a schedule, in which time may pass between two commands. -/
def work (env : Env) (acts : List (Draws × Act)) (w : World) (schedule : List (Move Nat)) : Busy :=
  System.play exec passTime schedule ⟨w, actThreads env acts⟩

/-- What the operation of thread `i` may return. -/
def Allowed (env : Env) (acts : List (Draws × Act)) (i : Nat) (known : List Identity) (time : Nat)
    (o : Outcome ActAnswer) : Prop :=
  ∃ a, acts[i]? = some a ∧ a.2.Returns env known time o

theorem upheld_work (env : Env) (acts : List (Draws × Act)) {w : World} (hdb : w.db.WellFormed)
    (schedule : List (Move Nat)) :
    Upheld (Allowed env acts) (fun uuid => ∃ a ∈ acts, a.1.uuid = uuid) w (work env acts w schedule) := by
  refine System.play_always exec passTime (fun s m h => h.move m) schedule _ ⟨hdb, le_rfl, ⟨[], by simp⟩, ?_⟩
  intro i p hi known _ time _
  rw [actThreads, List.getElem?_map] at hi
  obtain ⟨a, ha, rfl⟩ := Option.map_eq_some_iff.mp hi
  exact Program.within_mono (within_act ⟨a, List.mem_of_getElem? ha, rfl⟩ a.2) fun o ho => ⟨a, ha, ho⟩

theorem authenticateAt_ok {env : Env} {t : Nat} {header : Bytes} {auth : AuthContext}
    (h : UserHandler.authenticateAt env t (some header) = .ok auth) :
    ∃ payload, verifyAccessToken env.crypto env.config.security t (header.drop UserHandler.bearer.length) =
        .ok payload ∧ auth = ⟨payload.userId, payload.userUuid, payload.mobile, payload.role⟩ := by
  unfold UserHandler.authenticateAt at h
  simp only at h
  split at h
  · cases h
  · split at h
    · cases h
    · split at h
      · cases h
      · rename_i payload hverify
        cases h
        exact ⟨payload, hverify, rfl⟩

/-- The access token that an operation has handed out. -/
def handedOut (s : Busy) (i : Nat) : Option Bytes :=
  match s.threads[i]? with
  | some (.done (.returned (.ok (.service answer)))) => answer.access?
  | _ => none

theorem thread_of_handedOut {s : Busy} {i : Nat} {access : Bytes} (h : access ∈ handedOut s i) :
    ∃ answer, s.threads[i]? = some (.done (.returned (.ok (.service answer)))) ∧ access ∈ answer.access? := by
  unfold handedOut at h
  split at h
  · rename_i answer hi
    exact ⟨answer, hi, h⟩
  · cases h

/-- The answer of a remote call that has succeeded. -/
def answerOf (s : Busy) (i : Nat) : Option RpcAnswer :=
  match s.threads[i]? with
  | some (.done (.returned (.ok (.remote answer)))) => some answer
  | _ => none

theorem thread_of_answerOf {s : Busy} {i : Nat} (h : (answerOf s i).isSome = true) :
    ∃ answer, s.threads[i]? = some (.done (.returned (.ok (.remote answer)))) := by
  unfold answerOf at h
  split at h
  · rename_i answer hi
    exact ⟨answer, hi⟩
  · cases h

/-- A remote call has been made by an account: its header has been accepted and says who that is. -/
def CalledBy (env : Env) (time : Nat) (header : Bytes) (user : UserEntity) : Prop :=
  ∃ t ≤ time, UserHandler.authenticateAt env t (some header) = .ok ⟨user.id, user.uuid, user.mobile, user.role⟩

/-- **No escalation.** All operations of the services and remote calls run at the same time, whatever fails. A remote
call that has succeeded with a token that some operation has handed out was made by an account of the table; if it
is one for administrators, by an account that was there from the start, with the role of an administrator. -/
theorem administrators_from_start (env : Env) (acts : List (Draws × Act)) (w : World) (hdb : w.db.WellFormed)
    (hrows : ∀ user ∈ w.db.users, isValidMobile user.mobile = .ok () ∧ IsUuidText user.uuid)
    (hdraws : ∀ a ∈ acts, IsUuidText a.1.uuid) (schedule : List (Move Nat)) (i j : Nat) (draws : Draws)
    (header : Bytes) (rpc : Rpc) (hact : acts[i]? = some (draws, .remote (some header) rpc))
    (hok : (answerOf (work env acts w schedule) i).isSome = true)
    (htoken : header.drop UserHandler.bearer.length ∈ handedOut (work env acts w schedule) j) :
    ∃ user ∈ (work env acts w schedule).shared.db.users,
      CalledBy env (work env acts w schedule).shared.clock header user ∧
      (rpc.adminOnly = true → Administrator user.role ∧ ∃ first ∈ w.db.users, first.identity = user.identity) := by
  have h := upheld_work env acts hdb schedule
  generalize work env acts w schedule = s at h hok htoken ⊢
  obtain ⟨new, hgrown, hnew⟩ := h.grown
  obtain ⟨answer, hok⟩ := thread_of_answerOf hok
  obtain ⟨a, ha, header', rpc', hsame, t, ht, auth, hauth, hrole⟩ :=
    h.within i _ hok _ (List.Subset.refl _) _ le_rfl
  obtain rfl := Option.some.inj (hact.symm.trans ha)
  obtain ⟨rfl, rfl⟩ : some header = header' ∧ rpc = rpc' := by
    cases hsame
    exact ⟨rfl, rfl⟩
  obtain ⟨payload, hverify, rfl⟩ := authenticateAt_ok hauth
  obtain ⟨issued, hissued, haccess⟩ := thread_of_handedOut htoken
  obtain ⟨a', -, hvouched⟩ := h.within j _ hissued _ (List.Subset.refl _) _ le_rfl
  obtain ⟨user, time, jti, hknown, -, heq⟩ := hvouched _ haccess
  obtain ⟨row, hrow, hidentity⟩ := Database.mem_identities.mp hknown
  have hmem : row.identity ∈ w.db.identities ++ new := by
    rw [← hgrown, hidentity]
    exact hknown
  obtain ⟨hmobile, huuid⟩ := known_valid hrows hnew (fun uuid ⟨a, ha, hdrawn⟩ => hdrawn ▸ hdraws a ha) hmem
  simp only [UserEntity.identity, Identity.mk.injEq] at hidentity
  obtain ⟨hid, hsameUuid, hsameMobile, hsameRole, -⟩ := hidentity
  rw [heq] at hverify
  obtain ⟨hsaysId, hsaysUuid, hsaysMobile, hsaysRole⟩ := verifyAccessToken_says env time jti
    (hsameMobile ▸ hmobile) (hsameUuid ▸ huuid) (hid ▸ h.wellFormed.isInt64_id hrow) hverify
  rw [hsaysId, hsaysUuid, hsaysMobile, hsaysRole, ← hid, ← hsameUuid, ← hsameMobile, ← hsameRole] at hauth
  refine ⟨row, hrow, ⟨t, ht, hauth⟩, fun hadmin => ?_⟩
  have hadministrator := hrole hadmin
  rw [hsaysRole, ← hsameRole] at hadministrator
  refine ⟨hadministrator, ?_⟩
  rcases List.mem_append.mp hmem with hold | hadded
  · exact Database.mem_identities.mp hold
  · obtain ⟨-, -, -, hplain⟩ := hnew _ hadded
    have hplain : row.role = .user := hplain
    rw [hplain] at hadministrator
    rcases hadministrator with hadministrator | hadministrator
    · cases hadministrator
    · cases hadministrator

/-- The account that is there, as an administrator. -/
def administered : World :=
  (exec (.sql (.updateUser ⟨ascii "A", [], false, .admin, earlierDraws.uuid⟩)) signedUp).2

/-- Its session is refreshed. -/
def refreshing : Draws × Act := (earlierDraws, .service (.refreshToken firstToken))

def administratorToken : Bytes :=
  (handedOut (work defaultEnv [refreshing] administered (List.replicate 12 (.thread 0))) 0).getD []

/-- A listing with the new token, while somebody else registers. -/
def office : List (Draws × Act) :=
  [refreshing, (laterDraws, .remote (some (UserHandler.bearer ++ administratorToken)) (.listUsers none [] none)),
    (newcomerDraws, .service (.sendVerifyCode (ascii "13900139000") .register))]

def officeHours : List (Move Nat) :=
  List.replicate 3 (.thread 2) ++ List.replicate 12 (.thread 0) ++ List.replicate 3 (.thread 1)

theorem administered_wellFormed : administered.db.WellFormed := exec_wellFormed signedUp_wellFormed _

theorem administrators_from_start_office :
    ∃ user ∈ (work defaultEnv office administered officeHours).shared.db.users,
      CalledBy defaultEnv (work defaultEnv office administered officeHours).shared.clock
        (UserHandler.bearer ++ administratorToken) user ∧
      ((Rpc.listUsers none [] none).adminOnly = true → Administrator user.role ∧
        ∃ first ∈ administered.db.users, first.identity = user.identity) := by
  have hrows : ((administered.db.users.all fun user =>
      decide (isValidMobile user.mobile = .ok ()) && decide (IsUuidText user.uuid))) = true := by decide +kernel
  have hrun : (answerOf (work defaultEnv office administered officeHours) 1).isSome = true ∧
      (UserHandler.bearer ++ administratorToken).drop UserHandler.bearer.length ∈
        handedOut (work defaultEnv office administered officeHours) 0 := by decide +kernel
  refine administrators_from_start defaultEnv office administered administered_wellFormed (fun user huser => ?_)
    (by decide +kernel) officeHours 1 0 laterDraws (UserHandler.bearer ++ administratorToken) (.listUsers none [] none)
    rfl hrun.1 hrun.2
  simpa using List.all_eq_true.mp hrows user huser

end AccountService
