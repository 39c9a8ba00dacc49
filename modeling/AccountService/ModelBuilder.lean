import AccountService.ModelConfig

/-! `ServerBuilder` and `Config::LoadFromEnv`: a configuration from a file or from the caller, overlaid with the
environment and with what the builder was told. -/

namespace AccountService

open Decimal

/-- `std::getenv`. -/
abbrev Environment := Bytes → Option Bytes

/-- `std::atoi`: `strtol`, which stops at the ends of `long`, narrowed to `int`. -/
def atoi (s : Bytes) : Int32 := Int32.ofInt (max (-2 ^ 63) (min (2 ^ 63 - 1) ((readInt isSpace s).getD 0)))

/-- The configuration with the settings that no check reads. -/
structure FullConfig extends Config where
  host : Bytes := ascii "0.0.0.0"
  mysqlPassword : Bytes := []
  redisHost : Bytes := ascii "localhost"
  region : Bytes := []
  zone : Bytes := []
  version : Bytes := ascii "1.0.0"

namespace Environment

variable (env : Environment)

/-- `if (const char* env = std::getenv(name)) field = env;`. -/
def text (name : String) (field : Bytes) : Bytes := (env (ascii name)).getD field

def number (name : String) (field : Int32) : Int32 := ((env (ascii name)).map atoi).getD field

def flag (name : String) (field : Bool) : Bool :=
  ((env (ascii name)).map fun value => decide (value = ascii "true" ∨ value = ascii "1")).getD field

end Environment

def loadFromEnv (env : Environment) (config : FullConfig) : FullConfig where
  server := config.server
  mysql := { config.mysql with host := env.text "MYSQL_HOST" config.mysql.host }
  mysqlPassword := env.text "MYSQL_PASSWORD" config.mysqlPassword
  redis := config.redis
  redisHost := env.text "REDIS_HOST" config.redisHost
  zookeeper := {
    hosts := env.text "ZK_HOSTS" config.zookeeper.hosts
    sessionTimeoutMs := env.number "ZK_SESSION_TIMEOUT" config.zookeeper.sessionTimeoutMs
    connectTimeoutMs := env.number "ZK_CONNECT_TIMEOUT" config.zookeeper.connectTimeoutMs
    rootPath := env.text "ZK_ROOT_PATH" config.zookeeper.rootPath
    serviceName := env.text "ZK_SERVICE_NAME" config.zookeeper.serviceName
    enabled := env.flag "ZK_ENABLED" config.zookeeper.enabled
    registerSelf := env.flag "ZK_REGISTER_SELF" config.zookeeper.registerSelf
    weight := env.number "ZK_WEIGHT" config.zookeeper.weight }
  region := env.text "ZK_REGION" config.region
  zone := env.text "ZK_ZONE" config.zone
  version := env.text "ZK_VERSION" config.version
  security := {
    jwtSecret := env.text "JWT_SECRET" config.security.jwtSecret
    jwtIssuer := env.text "JWT_ISSUER" config.security.jwtIssuer
    accessTokenTtlSeconds := env.number "ACCESS_TOKEN_TTL" config.security.accessTokenTtlSeconds
    refreshTokenTtlSeconds := env.number "REFRESH_TOKEN_TTL" config.security.refreshTokenTtlSeconds }
  sms := {
    codeLen := env.number "SMS_CODE_LEN" config.sms.codeLen
    codeTtlSeconds := env.number "SMS_CODE_TTL" config.sms.codeTtlSeconds
    sendIntervalSeconds := env.number "SMS_SEND_INTERVAL" config.sms.sendIntervalSeconds
    maxRetryCount := env.number "SMS_MAX_RETRY" config.sms.maxRetryCount
    retryTtlSeconds := env.number "SMS_RETRY_TTL" config.sms.retryTtlSeconds
    lockSeconds := env.number "SMS_LOCK_SECONDS" config.sms.lockSeconds }
  login := { config.login with
    maxFailedAttempts := env.number "LOGIN_MAX_FAILED_ATTEMPTS" config.login.maxFailedAttempts
    lockDurationSeconds := env.number "LOGIN_LOCK_DURATION" config.login.lockDurationSeconds
    maxSessionsPerUser := env.number "LOGIN_MAX_SESSIONS" config.login.maxSessionsPerUser }
  password := { config.password with
    minLength := env.number "PASSWORD_MIN_LENGTH" config.password.minLength
    maxLength := env.number "PASSWORD_MAX_LENGTH" config.password.maxLength }
  host := config.host

/-- `Config::LoadFromFile`, with what reading the YAML document over the defaults gives. -/
def loadFromFile (yaml : Except String FullConfig) : Except String FullConfig := do
  let config ← yaml
  validateConfig config.toConfig
  return config

structure ServerBuilder where
  config : Option FullConfig := none
  portOverride : Option Int32 := none
  hostOverride : Option Bytes := none
  serviceDiscoveryOverride : Option Bool := none
  serviceNameOverride : Option Bytes := none
  shutdownCallback : Bool := false
  loadEnv : Bool := false

structure GrpcServer where
  config : FullConfig
  shutdownCallback : Bool := false

/-- The calls a program can make on a builder. A null pointer is `none`. -/
inductive BuilderCall
  | withConfigFile (path : String) (yaml : Except String FullConfig)
  | withConfig (config : Option FullConfig)
  | withPort (port : Int32)
  | withHost (host : Bytes)
  | enableServiceDiscovery (enable : Bool)
  | withServiceName (name : Bytes)
  | onShutdown
  | loadFromEnvironment

namespace ServerBuilder

def call (builder : ServerBuilder) : BuilderCall → Except String ServerBuilder
  | .withConfigFile path yaml =>
      match loadFromFile yaml with
      | .ok config => return { builder with config := some config }
      | .error what => throw s!"Failed to load config from {path}: {what}"
  | .withConfig config => return { builder with config := config }
  | .withPort port => return { builder with portOverride := some port }
  | .withHost host => return { builder with hostOverride := some host }
  | .enableServiceDiscovery enable => return { builder with serviceDiscoveryOverride := some enable }
  | .withServiceName name => return { builder with serviceNameOverride := some name }
  | .onShutdown => return { builder with shutdownCallback := true }
  | .loadFromEnvironment => return { builder with loadEnv := true }

def build (builder : ServerBuilder) (env : Environment) : Except String GrpcServer :=
  match builder.config with
  | none => throw "Config is required. Call WithConfigFile() or WithConfig()"
  | some config =>
      let config := if builder.loadEnv then loadFromEnv env config else config
      let config := { config with server.grpcPort := builder.portOverride.getD config.server.grpcPort }
      let config := { config with host := builder.hostOverride.getD config.host }
      let config := { config with zookeeper.enabled := builder.serviceDiscoveryOverride.getD config.zookeeper.enabled }
      let config := { config with zookeeper.serviceName := builder.serviceNameOverride.getD config.zookeeper.serviceName }
      return { config := config, shutdownCallback := builder.shutdownCallback }

end ServerBuilder

/-- A builder, the calls on it, and `Build`. A call that throws leaves the builder as it was, and a program that catches
the exception goes on. -/
def buildServer (env : Environment) (calls : List BuilderCall) : Except String GrpcServer :=
  (calls.foldl (fun builder call => (builder.call call).toOption.getD builder) ({} : ServerBuilder)).build env

end AccountService
