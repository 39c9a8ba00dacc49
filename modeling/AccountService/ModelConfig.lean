import AccountService.ModelBase

/-! The configuration and the checks of `ValidateConfig`, in the order in which it makes them. An
`int` is an `Int32`, so that the products of seconds and 1000 wrap as the code's do. -/

namespace AccountService

structure ServerConfig where
  grpcPort : Int32 := 50051
  metricsPort : Int32 := 9090
  deriving DecidableEq

structure MySQLConfig where
  host : Bytes := ascii "localhost"
  port : Int32 := 3306
  database : Bytes := ascii "user_service"
  poolSize : Int32 := 10
  deriving DecidableEq

structure RedisConfig where
  poolSize : Int32 := 5
  deriving DecidableEq

structure ZooKeeperConfig where
  hosts : Bytes := ascii "127.0.0.1:2181"
  sessionTimeoutMs : Int32 := 15000
  connectTimeoutMs : Int32 := 10000
  rootPath : Bytes := ascii "/services"
  serviceName : Bytes := ascii "user-service"
  enabled : Bool := true
  registerSelf : Bool := true
  weight : Int32 := 100
  deriving DecidableEq

structure SecurityConfig where
  jwtSecret : Bytes := ascii "your-secret-key"
  jwtIssuer : Bytes := ascii "user-service"
  accessTokenTtlSeconds : Int32 := 900
  refreshTokenTtlSeconds : Int32 := 604800
  deriving DecidableEq

structure SmsConfig where
  codeLen : Int32 := 6
  codeTtlSeconds : Int32 := 300
  sendIntervalSeconds : Int32 := 60
  maxRetryCount : Int32 := 5
  retryTtlSeconds : Int32 := 300
  lockSeconds : Int32 := 1800
  deriving DecidableEq

structure LoginConfig where
  maxFailedAttempts : Int32 := 5
  failedAttemptsWindow : Int32 := 900
  lockDurationSeconds : Int32 := 1800
  maxSessionsPerUser : Int32 := 5
  captchaAfterFailedAttempts : Int32 := 3
  deriving DecidableEq

structure PasswordPolicyConfig where
  minLength : Int32 := 8
  maxLength : Int32 := 32
  requireUppercase : Bool := false
  requireLowercase : Bool := false
  requireDigit : Bool := true
  requireSpecialChar : Bool := false
  expireDays : Int32 := 0
  historyCount : Int32 := 0
  deriving DecidableEq

structure Config where
  server : ServerConfig := {}
  mysql : MySQLConfig := {}
  redis : RedisConfig := {}
  zookeeper : ZooKeeperConfig := {}
  security : SecurityConfig := {}
  sms : SmsConfig := {}
  login : LoginConfig := {}
  password : PasswordPolicyConfig := {}
  deriving DecidableEq

/-- A check that throws, with the text of the `std::runtime_error`. -/
abbrev Check := Bool × String

/-- Make the checks in order; the first that throws decides. -/
def firstError : List Check → Except String Unit
  | [] => .ok ()
  | (bad, message) :: rest => if bad then .error message else firstError rest

def serverChecks (config : Config) : List Check :=
  [(config.server.grpcPort ≤ 0 || config.server.grpcPort > 65535,
      s!"Invalid gRPC port: {config.server.grpcPort}"),
    (config.server.metricsPort ≤ 0 || config.server.metricsPort > 65535,
      s!"Invalid metrics port: {config.server.metricsPort}"),
    (config.mysql.port ≤ 0 || config.mysql.port > 65535,
      s!"Invalid MySQL port: {config.mysql.port}"),
    (config.mysql.poolSize ≤ 0, s!"Invalid MySQL pool size: {config.mysql.poolSize}"),
    (config.redis.poolSize ≤ 0, s!"Invalid Redis pool size: {config.redis.poolSize}"),
    (config.mysql.host.isEmpty, "MySQL host is empty"),
    (config.mysql.database.isEmpty, "MySQL database is empty")]

def securityChecks (c : SecurityConfig) : List Check :=
  [(c.jwtSecret.isEmpty, "JWT secret is empty"),
    (c.jwtIssuer.isEmpty, "JWT issuer is empty"),
    (c.accessTokenTtlSeconds ≤ 0, s!"Invalid access token TTL: {c.accessTokenTtlSeconds}"),
    (c.refreshTokenTtlSeconds ≤ 0, s!"Invalid refresh token TTL: {c.refreshTokenTtlSeconds}"),
    (c.refreshTokenTtlSeconds ≤ c.accessTokenTtlSeconds,
      "Refresh token TTL should be greater than access token TTL")]

def smsChecks (c : SmsConfig) : List Check :=
  [(c.codeLen ≤ 0 || c.codeLen > 10, s!"Invalid SMS code length: {c.codeLen}"),
    (c.codeTtlSeconds ≤ 0, s!"Invalid SMS code TTL: {c.codeTtlSeconds}"),
    (c.sendIntervalSeconds ≤ 0, s!"Invalid SMS send interval: {c.sendIntervalSeconds}"),
    (c.maxRetryCount ≤ 0, s!"Invalid SMS max retry count: {c.maxRetryCount}"),
    (c.retryTtlSeconds ≤ 0, s!"Invalid SMS retry TTL: {c.retryTtlSeconds}"),
    (c.lockSeconds ≤ 0, s!"Invalid SMS lock seconds: {c.lockSeconds}"),
    (c.lockSeconds < c.codeTtlSeconds, "SMS lock seconds should be greater than or equal to code TTL")]

def loginChecks (c : LoginConfig) : List Check :=
  [(c.maxFailedAttempts ≤ 0, s!"Invalid login max failed attempts: {c.maxFailedAttempts}"),
    (c.failedAttemptsWindow ≤ 0, s!"Invalid login failed attempts window: {c.failedAttemptsWindow}"),
    (c.lockDurationSeconds ≤ 0, s!"Invalid login lock duration: {c.lockDurationSeconds}"),
    (c.maxSessionsPerUser ≤ 0, s!"Invalid max sessions per user: {c.maxSessionsPerUser}"),
    (c.captchaAfterFailedAttempts > c.maxFailedAttempts,
      "Captcha trigger threshold should be <= max failed attempts")]

def passwordChecks (c : PasswordPolicyConfig) : List Check :=
  [(c.minLength ≤ 0, s!"Invalid password min length: {c.minLength}"),
    (c.maxLength ≤ 0, s!"Invalid password max length: {c.maxLength}"),
    (c.minLength > c.maxLength, "Password min length should be <= max length"),
    (c.expireDays < 0, s!"Invalid password expire days: {c.expireDays}"),
    (c.historyCount < 0, s!"Invalid password history count: {c.historyCount}")]

def zookeeperChecks (c : ZooKeeperConfig) : List Check :=
  if c.enabled then
    [(c.hosts.isEmpty, "ZooKeeper hosts is empty"),
      (c.sessionTimeoutMs ≤ 0, s!"Invalid ZooKeeper session timeout: {c.sessionTimeoutMs}"),
      (c.connectTimeoutMs ≤ 0, s!"Invalid ZooKeeper connect timeout: {c.connectTimeoutMs}"),
      (c.rootPath.isEmpty, "ZooKeeper root path is empty"),
      (c.rootPath.head? ≠ some 47, "ZooKeeper root path must start with '/'"),
      (c.registerSelf && c.serviceName.isEmpty,
        "ZooKeeper service name is empty but register_self is true"),
      (c.weight ≤ 0, s!"Invalid ZooKeeper service weight: {c.weight}")]
  else []

def validateConfig (config : Config) : Except String Unit :=
  firstError (serverChecks config ++ securityChecks config.security ++ smsChecks config.sms ++
    loginChecks config.login ++ passwordChecks config.password ++ zookeeperChecks config.zookeeper)

theorem firstError_eq_ok_iff (checks : List Check) :
    firstError checks = .ok () ↔ ∀ check ∈ checks, check.1 = false := by
  induction checks with
  | nil => simp [firstError]
  | cons check rest ih =>
      obtain ⟨bad, message⟩ := check
      cases bad with
      | true => simp [firstError]
      | false => simp [firstError, ih]

/-- A configuration `ValidateConfig` lets through. -/
def Config.Admitted (config : Config) : Prop := validateConfig config = .ok ()

instance (config : Config) : Decidable config.Admitted :=
  inferInstanceAs (Decidable (validateConfig config = .ok ()))

theorem Config.Admitted.check {config : Config} (h : config.Admitted) {check : Check}
    (hmem : check ∈ serverChecks config ++ securityChecks config.security ++ smsChecks config.sms ++
      loginChecks config.login ++ passwordChecks config.password ++ zookeeperChecks config.zookeeper) :
    check.1 = false :=
  (firstError_eq_ok_iff _).mp h check hmem

/-- What the checks on a section say, as facts about the integers. -/
theorem Config.Admitted.sms {config : Config} (h : config.Admitted) :
    0 < config.sms.codeTtlSeconds.toInt ∧ 0 < config.sms.sendIntervalSeconds.toInt ∧
      0 < config.sms.maxRetryCount.toInt ∧ 0 < config.sms.retryTtlSeconds.toInt ∧
      0 < config.sms.lockSeconds.toInt ∧
      config.sms.codeTtlSeconds.toInt ≤ config.sms.lockSeconds.toInt := by
  have hall : ∀ check ∈ smsChecks config.sms, check.1 = false := fun check hc =>
    h.check (by simp only [List.mem_append]; tauto)
  simp only [smsChecks, List.forall_mem_cons, Bool.or_eq_false_iff, decide_eq_false_iff_not,
    Int32.lt_iff_toInt_lt, Int32.le_iff_toInt_le, Int32.toInt_zero, not_le, not_lt] at hall
  obtain ⟨_, hcode, hsend, hmax, hretry, hlock, hle, _⟩ := hall
  exact ⟨hcode, hsend, hmax, hretry, hlock, hle⟩

theorem Config.Admitted.login {config : Config} (h : config.Admitted) :
    0 < config.login.maxFailedAttempts.toInt ∧ 0 < config.login.failedAttemptsWindow.toInt ∧
      0 < config.login.lockDurationSeconds.toInt := by
  have hall : ∀ check ∈ loginChecks config.login, check.1 = false := fun check hc =>
    h.check (by simp only [List.mem_append]; tauto)
  simp only [loginChecks, List.forall_mem_cons, decide_eq_false_iff_not,
    Int32.le_iff_toInt_le, Int32.toInt_zero, not_le] at hall
  obtain ⟨hmax, hwindow, hlock, _⟩ := hall
  exact ⟨hmax, hwindow, hlock⟩

theorem Config.Admitted.security {config : Config} (h : config.Admitted) :
    config.security.jwtIssuer ≠ [] ∧ 0 < config.security.accessTokenTtlSeconds.toInt ∧
      0 < config.security.refreshTokenTtlSeconds.toInt := by
  have hall : ∀ check ∈ securityChecks config.security, check.1 = false := fun check hc =>
    h.check (by simp only [List.mem_append]; tauto)
  simp only [securityChecks, List.forall_mem_cons, decide_eq_false_iff_not, List.isEmpty_eq_false_iff,
    Int32.le_iff_toInt_le, Int32.toInt_zero, not_le] at hall
  obtain ⟨_, hissuer, haccess, hrefresh, _⟩ := hall
  exact ⟨hissuer, haccess, hrefresh⟩

/-- `seconds * 1000` in `int`, as a number of milliseconds. -/
def millis (seconds : Int32) : Int := (seconds * 1000).toInt

/-- Up to 2147483 seconds the product does not wrap. -/
theorem millis_eq {seconds : Int32} (hpos : 0 < seconds.toInt) (hle : seconds.toInt ≤ 2147483) :
    millis seconds = seconds.toInt * 1000 := by
  rw [millis, Int32.toInt_mul]
  simp only [show (1000 : Int32).toInt = 1000 from rfl]
  rw [Int.bmod_eq_of_le] <;> omega

end AccountService
