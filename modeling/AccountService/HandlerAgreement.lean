import AccountService.ModelAuthHandler
import AccountService.UserIsolation

/-! Where the handlers and the services decide the same question twice: whom a token names, and which passwords and
codes a request may carry. -/

namespace AccountService

open Interaction

/-- The two ways to check a token: both fail, or both succeed and report the same user. -/
def SameUser (response : Result ValidateTokenResponse) (auth : Result AuthContext) : Prop :=
  match response, auth with
  | .ok response, .ok auth =>
      response.userId = toString auth.userId ∧ response.userUuid = auth.userUuid ∧ response.mobile = auth.mobile ∧
        response.role = auth.role
  | .fail _ _, .fail _ _ => True
  | _, _ => False

instance : (response : Result ValidateTokenResponse) → (auth : Result AuthContext) → Decidable (SameUser response auth)
  | .ok _, .ok _ => inferInstanceAs (Decidable (_ ∧ _ ∧ _ ∧ _))
  | .fail _ _, .fail _ _ => isTrue trivial
  | .ok _, .fail _ _ | .fail _ _, .ok _ => isFalse id

/-- `ValidateToken` and `Authenticate` agree on a token; `role` is what the memory of the unset variable holds. -/
def TokenPathsAgree (env : Env) (role : Int32) (w : World) (token : Bytes) : Prop :=
  SameUser ((AuthHandler.validateToken env role token).run w).1
    ((UserHandler.authenticate env (UserHandler.withToken token)).run w).1

instance (env : Env) (role : Int32) (w : World) (token : Bytes) : Decidable (TokenPathsAgree env role w token) :=
  inferInstanceAs (Decidable (SameUser _ _))

theorem sameUser_of_fail {response : Result ValidateTokenResponse} {auth : Result AuthContext}
    (hresponse : response.isOk = false) (hauth : auth.isOk = false) : SameUser response auth := by
  cases response with
  | ok _ => cases hresponse
  | fail _ _ =>
      cases auth with
      | ok _ => cases hauth
      | fail _ _ => trivial

section Token

variable (env : Env) (w : World) (role : Int32) {token : Bytes} {payload : AccessTokenPayload}

theorem ne_nil_of_verified (hverify : verifyAccessToken env.crypto env.config.security w.clock token = .ok payload) :
    token ≠ [] := by
  rintro rfl
  cases hverify

theorem validateToken_verified
    (hverify : verifyAccessToken env.crypto env.config.security w.clock token = .ok payload) :
    ((AuthHandler.validateToken env role token).run w).1 = .ok (setValidateTokenResponse role
      ⟨payload.userId, payload.userUuid, payload.mobile, payload.expiresAt⟩) := by
  have hne := ne_nil_of_verified env w hverify
  rw [AuthHandler.validateToken, requireAll, List.foldr_cons, List.foldr_nil, nonEmpty, if_neg hne, requireValid,
    AuthService.validateAccessToken, if_neg hne, Action.run, Program.run_bind, Program.run_bind, run_now, hverify]
  rfl

theorem authenticate_verified
    (hverify : verifyAccessToken env.crypto env.config.security w.clock token = .ok payload) :
    ((UserHandler.authenticate env (UserHandler.withToken token)).run w).1 =
      .ok ⟨payload.userId, payload.userUuid, payload.mobile, payload.role⟩ := by
  have htake : (UserHandler.bearer ++ token).take UserHandler.bearer.length = UserHandler.bearer := List.take_left
  have hdrop : (UserHandler.bearer ++ token).drop UserHandler.bearer.length = token := List.drop_left
  rw [UserHandler.withToken, UserHandler.authenticate, if_neg (not_not.mpr htake), hdrop,
    if_neg (ne_nil_of_verified env w hverify), Action.run, Program.run_bind, run_now]
  simp only [hverify]
  rfl

variable {code : ErrorCode} {message : String}

theorem validateToken_rejected
    (hverify : verifyAccessToken env.crypto env.config.security w.clock token = .fail code message) :
    ((AuthHandler.validateToken env role token).run w).1.isOk = false := by
  rw [AuthHandler.validateToken, requireAll, List.foldr_cons, List.foldr_nil, nonEmpty]
  split
  · rfl
  · rw [requireValid, AuthService.validateAccessToken, if_neg ‹_›, Action.run, Program.run_bind, Program.run_bind,
      run_now, hverify]
    rfl

theorem authenticate_rejected
    (hverify : verifyAccessToken env.crypto env.config.security w.clock token = .fail code message) :
    ((UserHandler.authenticate env (UserHandler.withToken token)).run w).1.isOk = false := by
  have htake : (UserHandler.bearer ++ token).take UserHandler.bearer.length = UserHandler.bearer := List.take_left
  have hdrop : (UserHandler.bearer ++ token).drop UserHandler.bearer.length = token := List.drop_left
  rw [UserHandler.withToken, UserHandler.authenticate, if_neg (not_not.mpr htake), hdrop]
  split
  · rfl
  · rw [Action.run, Program.run_bind, run_now]
    simp only [hverify]
    rfl

/-- **The two paths.** Both accept the same tokens and name the same user, but `ValidateToken` reports the role of
the token only if the memory happens to hold it. -/
theorem token_paths_agree_iff (token : Bytes) :
    TokenPathsAgree env role w token ↔
      ∀ payload, verifyAccessToken env.crypto env.config.security w.clock token = .ok payload →
        toProtoUserRole role = payload.role := by
  rw [TokenPathsAgree]
  cases hverify : verifyAccessToken env.crypto env.config.security w.clock token with
  | fail code message =>
      refine iff_of_true ?_ fun payload hok => nomatch hok
      exact sameUser_of_fail (validateToken_rejected env w role hverify) (authenticate_rejected env w hverify)
  | ok payload =>
      rw [validateToken_verified env w role hverify, authenticate_verified env w hverify]
      constructor
      · rintro ⟨-, -, -, hrole⟩ payload' hok
        cases hok
        exact hrole
      · intro h
        exact ⟨rfl, rfl, rfl, h payload rfl⟩

end Token

/-- The access token of an administrator. -/
def adminToken : Bytes :=
  generateAccessToken defaultEnv.crypto defaultEnv.config.security 1700000000000000000 sampleJti
    { sampleUser with role := .admin }

/-- With zeroed memory the administrator is reported as a plain user. -/
theorem admin_token_loses_role : ¬TokenPathsAgree defaultEnv 0 (emptyWorld 1700000000000000000) adminToken := by
  decide +kernel

/-- What a `string` field of a message can hold: a message has less than 2 GiB. -/
abbrev ProtoString := { s : Bytes // s.length < 2 ^ 31 }

/-- The remote calls whose parameters are checked by the handler and by the service. -/
inductive CheckedRequest
  | register (mobile verifyCode password displayName : ProtoString)
  | loginByCode (mobile verifyCode : ProtoString)
  | resetPassword (mobile verifyCode newPassword : ProtoString)
  | changePassword (oldPassword newPassword : ProtoString)
  | deleteUser (verifyCode : ProtoString)

/-- The program fails with `InvalidArgument` before its first command. -/
def Refuses {α : Type} (p : Action (Result α)) : Prop := ∃ message, p = pure (.failWith .invalidArgument message)

namespace UserHandler

def changePasswordChecks (oldPassword newPassword : Bytes) : List (Except String Unit) :=
  [nonEmpty oldPassword "旧密码不能为空", nonEmpty newPassword "新密码不能为空", isValidPasswordPlain newPassword]

def deleteUserChecks (verifyCode : Bytes) : List (Except String Unit) := [isValidVerifyCodePlain verifyCode]

/-- After the authentication `ChangePassword` makes its checks and calls the service. -/
theorem changePassword_eq (env : Env) (draws : Draws) (header : Option Bytes) (oldPassword newPassword : Bytes) :
    changePassword env draws header oldPassword newPassword = (do
      orFail (← authenticate env header) fun auth =>
      requireAll (changePasswordChecks oldPassword newPassword) do
        return (← UserService.changePassword env draws auth.userUuid oldPassword newPassword).map fun _ =>
          .nothing) := by
  unfold changePassword changePasswordChecks nonEmpty
  congr
  funext r
  congr
  funext auth
  split
  · rfl
  · split <;> rfl

theorem deleteUser_eq (env : Env) (header : Option Bytes) (verifyCode : Bytes) :
    deleteUser env header verifyCode = (do
      orFail (← authenticate env header) fun auth =>
      requireAll (deleteUserChecks verifyCode) do
        return (← UserService.deleteUser env auth.userUuid verifyCode).map fun _ => .nothing) := rfl

end UserHandler

namespace CheckedRequest

/-- The checks the handler makes by itself. -/
def handlerChecks : CheckedRequest → List (Except String Unit)
  | register mobile verifyCode password displayName =>
      AuthHandler.registerChecks mobile verifyCode password displayName
  | loginByCode mobile verifyCode => AuthHandler.loginByCodeChecks mobile verifyCode
  | resetPassword mobile verifyCode newPassword => AuthHandler.resetPasswordChecks mobile verifyCode newPassword
  | changePassword oldPassword newPassword => UserHandler.changePasswordChecks oldPassword newPassword
  | deleteUser verifyCode => UserHandler.deleteUserChecks verifyCode

def HandlerRefuses (request : CheckedRequest) : Prop := ∃ check ∈ request.handlerChecks, check ≠ .ok ()

/-- The service, called with the same contents for the user `userUuid`, refuses them. -/
def ServiceRefuses (env : Env) (draws : Draws) (userUuid : Bytes) : CheckedRequest → Prop
  | register mobile verifyCode password displayName =>
      Refuses (AuthService.register env draws mobile verifyCode password displayName)
  | loginByCode mobile verifyCode => Refuses (AuthService.loginByCode env draws mobile verifyCode)
  | resetPassword mobile verifyCode newPassword =>
      Refuses (AuthService.resetPassword env draws mobile verifyCode newPassword)
  | changePassword oldPassword newPassword =>
      Refuses (UserService.changePassword env draws userUuid oldPassword newPassword)
  | deleteUser verifyCode => Refuses (UserService.deleteUser env userUuid verifyCode)

/-- The checks of the service, in its order. -/
def serviceChecks (config : Config) (userUuid : Bytes) : CheckedRequest → List (Except String Unit)
  | register mobile verifyCode password displayName =>
      [isValidMobile mobile, isValidPassword password config.password, isValidVerifyCode verifyCode config.sms,
        isValidDisplayName displayName]
  | loginByCode mobile verifyCode => [isValidMobile mobile, isValidVerifyCode verifyCode config.sms]
  | resetPassword mobile verifyCode newPassword =>
      [isValidMobile mobile, isValidVerifyCode verifyCode config.sms, isValidPassword newPassword config.password]
  | changePassword oldPassword newPassword =>
      [nonEmpty userUuid "用户ID不能为空",
        (isValidPassword oldPassword config.password).mapError fun _ => "旧密码格式错误",
        isValidPassword newPassword config.password,
        if oldPassword.val = newPassword.val then .error "新密码不能与旧密码相同" else .ok ()]
  | deleteUser verifyCode => [nonEmpty userUuid "用户ID不能为空", isValidVerifyCode verifyCode config.sms]

end CheckedRequest

section Checks

variable {α : Type} {next : Action (Result α)}

theorem refuses_requireAll (hnext : ¬Refuses next) (checks : List (Except String Unit)) :
    Refuses (requireAll checks next) ↔ ∃ check ∈ checks, check ≠ .ok () := by
  induction checks with
  | nil => simpa [requireAll] using hnext
  | cons check rest ih =>
      rw [requireAll, List.foldr_cons, List.exists_mem_cons_iff]
      cases check with
      | error message => exact iff_of_true ⟨message, rfl⟩ (Or.inl nofun)
      | ok u =>
          have hok : Except.ok (ε := String) u ≠ .ok () ↔ False := by simp
          rw [hok, false_or]
          exact ih

end Checks

/-- A condition that is checked in place. -/
theorem ite_eq_requireValid {α : Type} (c : Prop) [Decidable c] (message : String) (next : Action (Result α)) :
    (if c then return .failWith .invalidArgument message else next) =
      requireValid (if c then .error message else .ok ()) next := by
  split <;> rfl

/-- The service refuses a request by its checks and by nothing else. -/
theorem serviceRefuses_iff (env : Env) (draws : Draws) (userUuid : Bytes) (request : CheckedRequest) :
    request.ServiceRefuses env draws userUuid ↔
      ∃ check ∈ request.serviceChecks env.config userUuid, check ≠ .ok () := by
  cases request with
  | register mobile verifyCode password displayName =>
      refine refuses_requireAll ?_ (CheckedRequest.serviceChecks env.config userUuid
        (.register mobile verifyCode password displayName))
      rintro ⟨_, h⟩
      cases h
  | loginByCode mobile verifyCode =>
      refine refuses_requireAll ?_ (CheckedRequest.serviceChecks env.config userUuid (.loginByCode mobile verifyCode))
      rintro ⟨_, h⟩
      cases h
  | resetPassword mobile verifyCode newPassword =>
      refine refuses_requireAll ?_ (CheckedRequest.serviceChecks env.config userUuid
        (.resetPassword mobile verifyCode newPassword))
      rintro ⟨_, h⟩
      cases h
  | changePassword oldPassword newPassword =>
      rw [CheckedRequest.ServiceRefuses, UserService.changePassword, UserService.requireUuid, ite_eq_requireValid,
        ite_eq_requireValid (oldPassword.val = newPassword.val)]
      refine refuses_requireAll ?_ (CheckedRequest.serviceChecks env.config userUuid
        (.changePassword oldPassword newPassword))
      rintro ⟨_, h⟩
      cases h
  | deleteUser verifyCode =>
      rw [CheckedRequest.ServiceRefuses, UserService.deleteUser, UserService.requireUuid, ite_eq_requireValid]
      refine refuses_requireAll ?_ (CheckedRequest.serviceChecks env.config userUuid (.deleteUser verifyCode))
      rintro ⟨_, h⟩
      cases h

theorem toInt_intLength {s : Bytes} (h : s.length < 2 ^ 31) : (intLength s).toInt = s.length :=
  Int32.toInt_ofNat_of_lt h

theorem ite_error_ok_iff (c : Prop) [Decidable c] (message : String) (rest : Except String Unit) :
    (if c then .error message else rest) = .ok () ↔ ¬c ∧ rest = .ok () := by
  split <;> simp [*]

/-- The number of classes of characters a policy asks for. -/
def PasswordPolicyConfig.required (policy : PasswordPolicyConfig) : Nat :=
  [policy.requireUppercase, policy.requireLowercase, policy.requireDigit, policy.requireSpecialChar].count true

/-- Some password meets the policy: there is room for all the classes. -/
def PasswordPolicyConfig.Satisfiable (policy : PasswordPolicyConfig) : Prop :=
  (policy.required : Int) ≤ policy.maxLength.toInt

/-- One character of each class the policy asks for. -/
def PasswordPolicyConfig.marks (policy : PasswordPolicyConfig) : Bytes :=
  (if policy.requireUppercase then [65] else []) ++ (if policy.requireLowercase then [97] else []) ++
    (if policy.requireDigit then [48] else []) ++ (if policy.requireSpecialChar then [33] else [])

/-- A password of `n` bytes: the characters asked for, and exclamation marks. -/
def PasswordPolicyConfig.sample (policy : PasswordPolicyConfig) (n : Nat) : Bytes :=
  policy.marks ++ List.replicate (n - policy.required) 33

section Policy

variable {policy : PasswordPolicyConfig} {password : Bytes} {n : Nat}

theorem isValidPassword_ok_iff (hlen : password.length < 2 ^ 31) :
    isValidPassword password policy = .ok () ↔
      (policy.minLength.toInt ≤ password.length ∧ password.length ≤ policy.maxLength.toInt) ∧
      (policy.requireUppercase = true → password.any isUpper = true) ∧
      (policy.requireLowercase = true → password.any isLower = true) ∧
      (policy.requireDigit = true → password.any Decimal.isDigit = true) ∧
      (policy.requireSpecialChar = true → password.any (!isAlnum ·) = true) := by
  have hmin : intLength password < policy.minLength ↔ ¬policy.minLength.toInt ≤ password.length := by
    rw [Int32.lt_iff_toInt_lt, toInt_intLength hlen, not_le]
  have hmax : intLength password > policy.maxLength ↔ ¬password.length ≤ policy.maxLength.toInt := by
    rw [gt_iff_lt, Int32.lt_iff_toInt_lt, toInt_intLength hlen, not_le]
  simp only [isValidPassword, ite_error_ok_iff, hmin, hmax, not_not, Bool.and_eq_true, not_and, Bool.not_eq_true,
    Bool.not_eq_false', and_assoc, and_true]

theorem isValidPasswordPlain_ok_iff :
    isValidPasswordPlain password = .ok () ↔
      (8 ≤ password.length ∧ password.length ≤ 32) ∧ password.any Decimal.isDigit = true ∧
        password.any isAlpha = true := by
  simp only [isValidPasswordPlain, ite_error_ok_iff, gt_iff_lt, not_lt, Bool.or_eq_true, Bool.not_eq_true', not_or,
    Bool.not_eq_false, and_assoc, and_true]

theorem length_marks (policy : PasswordPolicyConfig) : policy.marks.length = policy.required := by
  unfold PasswordPolicyConfig.marks PasswordPolicyConfig.required
  cases policy.requireUppercase <;> cases policy.requireLowercase <;> cases policy.requireDigit <;>
    cases policy.requireSpecialChar <;> rfl

theorem length_sample (h : policy.required ≤ n) : (policy.sample n).length = n := by
  rw [PasswordPolicyConfig.sample, List.length_append, length_marks, List.length_replicate]
  omega

/-- The exclamation marks are in no class but the last. -/
theorem any_sample {p : UInt8 → Bool} (hmark : p 33 = false) : (policy.sample n).any p = policy.marks.any p := by
  rw [PasswordPolicyConfig.sample, List.any_append, List.any_replicate, hmark]
  simp

theorem sample_digit : (policy.sample n).any Decimal.isDigit = policy.requireDigit := by
  rw [any_sample (by decide)]
  unfold PasswordPolicyConfig.marks
  cases policy.requireUppercase <;> cases policy.requireLowercase <;> cases policy.requireDigit <;>
    cases policy.requireSpecialChar <;> rfl

theorem sample_alpha : (policy.sample n).any isAlpha = (policy.requireUppercase || policy.requireLowercase) := by
  rw [any_sample (by decide)]
  unfold PasswordPolicyConfig.marks
  cases policy.requireUppercase <;> cases policy.requireLowercase <;> cases policy.requireDigit <;>
    cases policy.requireSpecialChar <;> rfl

theorem sample_valid (hrequired : policy.required ≤ n) (hmin : policy.minLength.toInt ≤ n)
    (hmax : n ≤ policy.maxLength.toInt) : isValidPassword (policy.sample n) policy = .ok () := by
  have hn : (policy.sample n).length = n := length_sample hrequired
  have hbound : n < 2 ^ 31 := by
    have := policy.maxLength.toInt_lt
    omega
  have hmem : ∀ c ∈ policy.marks, c ∈ policy.sample n := fun c hc => List.mem_append_left _ hc
  rw [isValidPassword_ok_iff (hn.trans_lt hbound), hn]
  refine ⟨⟨hmin, hmax⟩, fun h => ?_, fun h => ?_, fun h => ?_, fun h => ?_⟩
  · exact List.any_eq_true.mpr ⟨65, hmem 65 (by simp [PasswordPolicyConfig.marks, h]), by decide⟩
  · exact List.any_eq_true.mpr ⟨97, hmem 97 (by simp [PasswordPolicyConfig.marks, h]), by decide⟩
  · exact List.any_eq_true.mpr ⟨48, hmem 48 (by simp [PasswordPolicyConfig.marks, h]), by decide⟩
  · exact List.any_eq_true.mpr ⟨33, hmem 33 (by simp [PasswordPolicyConfig.marks, h]), by decide⟩

theorem nonEmpty_of_valid (hmin : 0 < policy.minLength.toInt) (hlen : password.length < 2 ^ 31)
    (hvalid : isValidPassword password policy = .ok ()) (message : String) : nonEmpty password message = .ok () := by
  obtain ⟨⟨hlow, -⟩, -⟩ := (isValidPassword_ok_iff hlen).mp hvalid
  refine if_neg ?_
  rintro rfl
  simp only [List.length_nil] at hlow
  omega

/-- No character is in two classes. -/
theorem classes_disjoint (c : UInt8) :
    (if isUpper c then 1 else 0) + (if isLower c then 1 else 0) + (if Decimal.isDigit c then 1 else 0) +
      (if !isAlnum c then 1 else 0) ≤ 1 := by
  simp only [isAlnum, isAlpha, isUpper, isLower, Decimal.isDigit, Bool.not_or, Bool.and_eq_true, Bool.not_eq_true',
    Bool.and_eq_false_iff, decide_eq_true_eq, decide_eq_false_iff_not, UInt8.le_iff_toNat_le]
  split_ifs <;> simp_all <;> omega

theorem countP_classes_le (s : Bytes) :
    s.countP isUpper + s.countP isLower + s.countP Decimal.isDigit + s.countP (!isAlnum ·) ≤ s.length := by
  induction s with
  | nil => simp
  | cons c rest ih =>
      have hc := classes_disjoint c
      simp only [List.countP_cons, List.length_cons]
      omega

theorem satisfiable_of_valid (hlen : password.length < 2 ^ 31)
    (hvalid : isValidPassword password policy = .ok ()) : policy.Satisfiable := by
  obtain ⟨⟨-, hhigh⟩, hupper, hlower, hdigit, hspecial⟩ := (isValidPassword_ok_iff hlen).mp hvalid
  have hclass : ∀ (flag : Bool) (p : UInt8 → Bool), (flag = true → password.any p = true) →
      flag.toNat ≤ password.countP p := by
    intro flag p h
    cases flag with
    | false => exact Nat.zero_le _
    | true => exact List.countP_pos_iff.mpr (List.any_eq_true.mp (h rfl))
  have hcount := countP_classes_le password
  have hrequired : policy.required = policy.requireUppercase.toNat + policy.requireLowercase.toNat +
      policy.requireDigit.toNat + policy.requireSpecialChar.toNat := by
    unfold PasswordPolicyConfig.required
    cases policy.requireUppercase <;> cases policy.requireLowercase <;> cases policy.requireDigit <;>
      cases policy.requireSpecialChar <;> rfl
  have := hclass _ _ hupper
  have := hclass _ _ hlower
  have := hclass _ _ hdigit
  have := hclass _ _ hspecial
  unfold PasswordPolicyConfig.Satisfiable
  omega

/-- A policy that accepts no other passwords than the plain check does. -/
def PasswordPolicyConfig.Within (policy : PasswordPolicyConfig) : Prop :=
  8 ≤ policy.minLength.toInt ∧ policy.maxLength.toInt ≤ 32 ∧ policy.requireDigit = true ∧
    (policy.requireUppercase = true ∨ policy.requireLowercase = true)

theorem plain_of_within (hpolicy : policy.Within) (hlen : password.length < 2 ^ 31)
    (hvalid : isValidPassword password policy = .ok ()) : isValidPasswordPlain password = .ok () := by
  obtain ⟨hmin, hmax, hdigit, hletter⟩ := hpolicy
  obtain ⟨⟨hlow, hhigh⟩, hupper, hlower, hdigits, -⟩ := (isValidPassword_ok_iff hlen).mp hvalid
  have halpha : password.any isAlpha = true := by
    rcases hletter with h | h
    · obtain ⟨c, hc, hcase⟩ := List.any_eq_true.mp (hupper h)
      exact List.any_eq_true.mpr ⟨c, hc, by simp [isAlpha, hcase]⟩
    · obtain ⟨c, hc, hcase⟩ := List.any_eq_true.mp (hlower h)
      exact List.any_eq_true.mpr ⟨c, hc, by simp [isAlpha, hcase]⟩
  exact isValidPasswordPlain_ok_iff.mpr ⟨⟨by omega, by omega⟩, hdigits hdigit, halpha⟩

theorem required_le (policy : PasswordPolicyConfig) : policy.required ≤ 4 :=
  List.count_le_length

/-- If the plain check rejects none of the passwords that meet the policy, the policy is within it. -/
theorem within_of_forall_plain (hpos : 0 < policy.minLength.toInt)
    (hle : policy.minLength.toInt ≤ policy.maxLength.toInt) (hsat : policy.Satisfiable)
    (h : ∀ n : Nat, policy.required ≤ n → policy.minLength.toInt ≤ n → n ≤ policy.maxLength.toInt →
      isValidPasswordPlain (policy.sample n) = .ok ()) : policy.Within := by
  have hrequired := required_le policy
  have hmost : (policy.required : Int) ≤ policy.maxLength.toInt := hsat
  -- the shortest password
  obtain ⟨short, hshort⟩ := Int.eq_ofNat_of_zero_le (a := max policy.minLength.toInt policy.required) (by omega)
  obtain ⟨⟨hlow, -⟩, hdigit, halpha⟩ := isValidPasswordPlain_ok_iff.mp (h short (by omega) (by omega) (by omega))
  rw [length_sample (by omega)] at hlow
  rw [sample_digit] at hdigit
  rw [sample_alpha, Bool.or_eq_true] at halpha
  -- and the longest
  obtain ⟨long, hlong⟩ := Int.eq_ofNat_of_zero_le (a := policy.maxLength.toInt) (by omega)
  obtain ⟨⟨-, hhigh⟩, -, -⟩ := isValidPasswordPlain_ok_iff.mp (h long (by omega) (by omega) (by omega))
  rw [length_sample (by omega)] at hhigh
  exact ⟨by omega, by omega, hdigit, halpha⟩

end Policy

section Codes

variable {config : SmsConfig} {code : Bytes}

theorem isValidVerifyCode_ok_iff (hlen : code.length < 2 ^ 31) :
    isValidVerifyCode code config = .ok () ↔ code.length = config.codeLen.toInt ∧ code.all Decimal.isDigit = true := by
  have hlength : intLength code ≠ config.codeLen ↔ ¬code.length = config.codeLen.toInt := by
    rw [ne_eq, ← Int32.toInt_inj, toInt_intLength hlen]
  simp only [isValidVerifyCode, ite_error_ok_iff, hlength, not_not, Bool.not_eq_true, Bool.not_eq_false', and_true]

theorem isValidVerifyCodePlain_ok_iff :
    isValidVerifyCodePlain code = .ok () ↔ code.length = 6 ∧ code.all Decimal.isDigit = true := by
  simp only [isValidVerifyCodePlain, ite_error_ok_iff, ne_eq, not_not, Bool.not_eq_true, Bool.not_eq_false', and_true]

/-- The two checks of a code are one when codes have six digits. -/
theorem plain_code_iff (hlen : code.length < 2 ^ 31) (hsix : config.codeLen.toInt = 6) :
    isValidVerifyCodePlain code = .ok () ↔ isValidVerifyCode code config = .ok () := by
  rw [isValidVerifyCodePlain_ok_iff, isValidVerifyCode_ok_iff hlen, hsix]
  norm_cast

end Codes

/-- What the checks on the settings say about codes and passwords. -/
theorem Config.Admitted.codeLen {config : Config} (h : config.Admitted) :
    0 < config.sms.codeLen.toInt ∧ config.sms.codeLen.toInt ≤ 10 := by
  have hall : ∀ check ∈ smsChecks config.sms, check.1 = false := fun check hc =>
    h.check (by simp only [List.mem_append]; tauto)
  simp only [smsChecks, List.forall_mem_cons, Bool.or_eq_false_iff, decide_eq_false_iff_not, gt_iff_lt,
    Int32.lt_iff_toInt_lt, Int32.le_iff_toInt_le, Int32.toInt_zero, not_le, not_lt] at hall
  exact hall.1

theorem Config.Admitted.password {config : Config} (h : config.Admitted) :
    0 < config.password.minLength.toInt ∧
      config.password.minLength.toInt ≤ config.password.maxLength.toInt := by
  have hall : ∀ check ∈ passwordChecks config.password, check.1 = false := fun check hc =>
    h.check (by simp only [List.mem_append]; tauto)
  simp only [passwordChecks, List.forall_mem_cons, decide_eq_false_iff_not, gt_iff_lt, Int32.lt_iff_toInt_lt,
    Int32.le_iff_toInt_le, Int32.toInt_zero, not_le, not_lt] at hall
  obtain ⟨hmin, -, hle, -⟩ := hall
  exact ⟨hmin, hle⟩

/-- The handlers refuse only what the services, with their settings, refuse. -/
def HandlersKeepPolicy (env : Env) : Prop :=
  ∀ draws userUuid (request : CheckedRequest), request.HandlerRefuses → request.ServiceRefuses env draws userUuid

/-- A registration that is refused without a name is refused with every name. -/
def NameOptional (env : Env) : Prop :=
  ∀ draws (mobile verifyCode password displayName : ProtoString),
    Refuses (AuthService.register env draws mobile verifyCode password []) →
      Refuses (AuthService.register env draws mobile verifyCode password displayName)

section Settings

variable {env : Env} {draws : Draws} {userUuid : Bytes}

theorem serviceRefuses_iff_of_forall {request : CheckedRequest} :
    ¬request.ServiceRefuses env draws userUuid ↔
      ∀ check ∈ request.serviceChecks env.config userUuid, check = .ok () := by
  rw [serviceRefuses_iff]
  push Not
  rfl

/-- With codes of six digits and a policy within the plain check, the handlers accept what the services do. -/
theorem handler_accepts (hsix : env.config.sms.codeLen.toInt = 6)
    (hpolicy : ∀ password : ProtoString, isValidPassword password env.config.password = .ok () →
      isValidPasswordPlain password = .ok ())
    (hmin : 0 < env.config.password.minLength.toInt) (request : CheckedRequest)
    (h : ∀ check ∈ request.serviceChecks env.config userUuid, check = .ok ()) :
    ∀ check ∈ request.handlerChecks, check = .ok () := by
  have hcode : ∀ code : ProtoString, isValidVerifyCode code env.config.sms = .ok () →
      isValidVerifyCodePlain code = .ok () := fun code hc => (plain_code_iff code.2 hsix).mpr hc
  cases request with
  | register mobile verifyCode password displayName =>
      simp only [CheckedRequest.serviceChecks, List.forall_mem_cons] at h
      obtain ⟨hmobile, hpassword, hverify, hname, -⟩ := h
      simp only [CheckedRequest.handlerChecks, AuthHandler.registerChecks, List.forall_mem_cons, hname, ite_self]
      exact ⟨hmobile, hcode _ hverify, hpolicy _ hpassword, trivial, nofun⟩
  | loginByCode mobile verifyCode =>
      simp only [CheckedRequest.serviceChecks, List.forall_mem_cons] at h
      obtain ⟨hmobile, hverify, -⟩ := h
      simp only [CheckedRequest.handlerChecks, AuthHandler.loginByCodeChecks, List.forall_mem_cons]
      exact ⟨hmobile, hcode _ hverify, nofun⟩
  | resetPassword mobile verifyCode newPassword =>
      simp only [CheckedRequest.serviceChecks, List.forall_mem_cons] at h
      obtain ⟨hmobile, hverify, hpassword, -⟩ := h
      simp only [CheckedRequest.handlerChecks, AuthHandler.resetPasswordChecks, List.forall_mem_cons]
      exact ⟨hmobile, hcode _ hverify, hpolicy _ hpassword, nofun⟩
  | changePassword oldPassword newPassword =>
      simp only [CheckedRequest.serviceChecks, List.forall_mem_cons] at h
      obtain ⟨-, hold, hnew, -, -⟩ := h
      simp only [CheckedRequest.handlerChecks, UserHandler.changePasswordChecks, List.forall_mem_cons]
      have hvalid : isValidPassword oldPassword env.config.password = .ok () := by
        cases hcase : isValidPassword oldPassword env.config.password with
        | error message =>
            rw [hcase] at hold
            cases hold
        | ok u => rfl
      exact ⟨nonEmpty_of_valid hmin oldPassword.2 hvalid _, nonEmpty_of_valid hmin newPassword.2 hnew _,
        hpolicy _ hnew, nofun⟩
  | deleteUser verifyCode =>
      simp only [CheckedRequest.serviceChecks, List.forall_mem_cons] at h
      obtain ⟨-, hverify, -⟩ := h
      simp only [CheckedRequest.handlerChecks, UserHandler.deleteUserChecks, List.forall_mem_cons]
      exact ⟨hcode _ hverify, nofun⟩

theorem HandlersKeepPolicy.accepts (h : HandlersKeepPolicy env) (request : CheckedRequest)
    (hservice : ∀ check ∈ request.serviceChecks env.config [48], check = .ok ()) :
    ∀ check ∈ request.handlerChecks, check = .ok () := by
  by_contra hcon
  push Not at hcon
  exact serviceRefuses_iff_of_forall.mpr hservice (h (Call.sample 0 .cleanExpiredTokens).draws [48] request hcon)

def sampleMobile : ProtoString := ⟨ascii "13800138000", by decide⟩

theorem sampleMobile_valid : isValidMobile sampleMobile = .ok () := by decide

/-- Codes and passwords that the services accept. -/
theorem exists_valid_code (hadmitted : env.config.Admitted) : ∃ code : ProtoString,
    isValidVerifyCode code env.config.sms = .ok () ∧ code.val.length = env.config.sms.codeLen.toInt := by
  obtain ⟨hpos, hle⟩ := hadmitted.codeLen
  obtain ⟨n, hn⟩ := Int.eq_ofNat_of_zero_le hpos.le
  have hlength : (List.replicate n (48 : UInt8)).length = n := List.length_replicate
  have hshort : (List.replicate n (48 : UInt8)).length < 2 ^ 31 := by omega
  refine ⟨⟨_, hshort⟩, (isValidVerifyCode_ok_iff hshort).mpr ⟨?_, ?_⟩, ?_⟩
  · rw [hlength, hn]
  · rw [List.all_eq_true]
    intro c hc
    rw [List.eq_of_mem_replicate hc]
    decide
  · rw [hlength, hn]

theorem exists_valid_password (hadmitted : env.config.Admitted) (hsat : env.config.password.Satisfiable) :
    ∃ password : ProtoString, isValidPassword password env.config.password = .ok () := by
  obtain ⟨hpos, hle⟩ := hadmitted.password
  obtain ⟨n, hn⟩ := Int.eq_ofNat_of_zero_le (hpos.le.trans hle)
  have hrequired : (env.config.password.required : Int) ≤ env.config.password.maxLength.toInt := hsat
  have hlen : (env.config.password.sample n).length = n := length_sample (by omega)
  have hbound := env.config.password.maxLength.toInt_lt
  exact ⟨⟨_, hlen.trans_lt (by omega)⟩, sample_valid (by omega) (by omega) (by omega)⟩

theorem codeLen_of_keeps (hadmitted : env.config.Admitted) (h : HandlersKeepPolicy env) :
    env.config.sms.codeLen.toInt = 6 := by
  obtain ⟨code, hvalid, hlength⟩ := exists_valid_code hadmitted
  have haccepted := h.accepts (.loginByCode sampleMobile code) (by
    simp only [CheckedRequest.serviceChecks, List.forall_mem_cons]
    exact ⟨sampleMobile_valid, hvalid, nofun⟩)
  simp only [CheckedRequest.handlerChecks, AuthHandler.loginByCodeChecks, List.forall_mem_cons] at haccepted
  have hsix := (isValidVerifyCodePlain_ok_iff.mp haccepted.2.1).1
  omega

theorem within_of_keeps (hadmitted : env.config.Admitted) (hsat : env.config.password.Satisfiable)
    (h : HandlersKeepPolicy env) : env.config.password.Within := by
  obtain ⟨hpos, hle⟩ := hadmitted.password
  obtain ⟨code, hvalid, -⟩ := exists_valid_code hadmitted
  refine within_of_forall_plain hpos hle hsat fun n hrequired hlow hhigh => ?_
  have hlen : (env.config.password.sample n).length = n := length_sample hrequired
  have hbound := env.config.password.maxLength.toInt_lt
  have hshort : (env.config.password.sample n).length < 2 ^ 31 := hlen.trans_lt (by omega)
  have haccepted := h.accepts (.resetPassword sampleMobile code ⟨_, hshort⟩) (by
    simp only [CheckedRequest.serviceChecks, List.forall_mem_cons]
    exact ⟨sampleMobile_valid, hvalid, sample_valid hrequired hlow hhigh, nofun⟩)
  simp only [CheckedRequest.handlerChecks, AuthHandler.resetPasswordChecks, List.forall_mem_cons] at haccepted
  exact haccepted.2.2.1

end Settings

/-- **Two families of checks.** The handlers keep to the settings exactly if codes have six digits and either no
password meets the policy or the policy is within the plain check; the name is optional in effect only if nobody can
register at all. -/
theorem handlers_keep_policy_iff {env : Env} (hadmitted : env.config.Admitted) :
    (HandlersKeepPolicy env ↔ env.config.sms.codeLen.toInt = 6 ∧
      (¬env.config.password.Satisfiable ∨ env.config.password.Within)) ∧
    (NameOptional env ↔ ¬env.config.password.Satisfiable) := by
  refine ⟨⟨fun h => ⟨codeLen_of_keeps hadmitted h, ?_⟩, ?_⟩, ⟨fun h hsat => ?_, ?_⟩⟩
  · by_cases hsat : env.config.password.Satisfiable
    · exact Or.inr (within_of_keeps hadmitted hsat h)
    · exact Or.inl hsat
  · rintro ⟨hsix, hpolicy⟩ draws userUuid request ⟨check, hmem, hcheck⟩
    by_contra hservice
    refine hcheck (handler_accepts hsix (fun password hvalid => ?_) hadmitted.password.1 request
      (serviceRefuses_iff_of_forall.mp hservice) check hmem)
    rcases hpolicy with hunsat | hwithin
    · exact absurd (satisfiable_of_valid password.2 hvalid) hunsat
    · exact plain_of_within hwithin password.2 hvalid
  · -- a registration that lacks nothing but the name
    obtain ⟨code, hcode, -⟩ := exists_valid_code hadmitted
    obtain ⟨password, hpassword⟩ := exists_valid_password hadmitted hsat
    have hdraws := (Call.sample 0 .cleanExpiredTokens).draws
    have hempty : Refuses (AuthService.register env hdraws sampleMobile code password []) :=
      (serviceRefuses_iff env hdraws [] (.register sampleMobile code password ⟨[], by decide⟩)).mpr
        ⟨isValidDisplayName [], by simp [CheckedRequest.serviceChecks], by decide⟩
    have hnamed := h hdraws sampleMobile code password ⟨[65], by decide⟩ hempty
    refine serviceRefuses_iff_of_forall.mpr ?_ (show CheckedRequest.ServiceRefuses env hdraws []
      (.register sampleMobile code password ⟨[65], by decide⟩) from hnamed)
    simp only [CheckedRequest.serviceChecks, List.forall_mem_cons]
    exact ⟨sampleMobile_valid, hpassword, hcode, by decide, nofun⟩
  · intro hunsat draws mobile verifyCode password displayName _
    refine (serviceRefuses_iff env draws [] (.register mobile verifyCode password displayName)).mpr
      ⟨isValidPassword password env.config.password, by simp [CheckedRequest.serviceChecks], fun hvalid => ?_⟩
    exact hunsat (satisfiable_of_valid password.2 hvalid)

theorem handlers_keep_policy_default :
    (HandlersKeepPolicy defaultEnv ↔ defaultEnv.config.sms.codeLen.toInt = 6 ∧
      (¬defaultEnv.config.password.Satisfiable ∨ defaultEnv.config.password.Within)) ∧
    (NameOptional defaultEnv ↔ ¬defaultEnv.config.password.Satisfiable) :=
  @handlers_keep_policy_iff defaultEnv (by decide)

/-- With the default settings the handlers refuse a password of digits, which meets the policy, and the service
refuses a registration for its missing name. -/
theorem default_policy_overridden :
    defaultEnv.config.Admitted ∧ ¬HandlersKeepPolicy defaultEnv ∧ ¬NameOptional defaultEnv := by
  refine ⟨by decide, fun h => ?_, fun h => ?_⟩
  · have haccepted := h.accepts (.resetPassword sampleMobile ⟨ascii "123456", by decide⟩
      ⟨ascii "12345678", by decide⟩) (by decide)
    exact absurd haccepted (by decide)
  · have hdraws := (Call.sample 0 .cleanExpiredTokens).draws
    have hrefused := h hdraws sampleMobile ⟨ascii "123456", by decide⟩ ⟨ascii "Password123", by decide⟩
      ⟨ascii "Alice", by decide⟩ ((serviceRefuses_iff defaultEnv hdraws [] (.register sampleMobile
        ⟨ascii "123456", by decide⟩ ⟨ascii "Password123", by decide⟩ ⟨[], by decide⟩)).mpr (by decide))
    exact absurd ((serviceRefuses_iff defaultEnv hdraws [] (.register sampleMobile ⟨ascii "123456", by decide⟩
      ⟨ascii "Password123", by decide⟩ ⟨ascii "Alice", by decide⟩)).mp hrefused) (by decide)

end AccountService
