import AccountService.ModelConfig
import AccountService.ModelWorld

/-! `RedisClient` and `SmsService`. -/

namespace AccountService

open Interaction

def Result.map {α β : Type} (f : α → β) : Result α → Result β
  | .ok a => .ok (f a)
  | .fail code message => .fail code message

/-- A command whose exceptions become `ServiceUnavailable`. -/
def redisCall (c : RedisCmd) : Action (Result c.Reply) := do
  match ← redis c with
  | .ok reply => return .ok reply
  | .error what => return .failWith .serviceUnavailable what

def setPx (key value : Bytes) (ttl : Int) : Action (Result Unit) :=
  if ttl ≤ 0 then return .failWith .invalidArgument "TTL must be positive"
  else redisCall (.psetex key ttl value)

def get (key : Bytes) : Action (Result (Option Bytes)) := redisCall (.get key)

def existsKey (key : Bytes) : Action (Result Bool) := do
  return (← redisCall (.existsKey key)).map fun n => decide (0 < n)

def del (key : Bytes) : Action (Result Bool) := do
  return (← redisCall (.del key)).map fun n => decide (0 < n)

def pExpire (key : Bytes) (ttl : Int) : Action (Result Bool) := redisCall (.pexpire key ttl)

def pttl (key : Bytes) : Action (Result Int) := redisCall (.pttl key)

def incr (key : Bytes) : Action (Result Int) := redisCall (.incr key)

def sceneName : SmsScene → Bytes
  | .register => ascii "register"
  | .login => ascii "login"
  | .resetPassword => ascii "reset_password"
  | .deleteUser => ascii "delete_user"
  | .unKnow => ascii "unknown"

def captchaKey (scene : SmsScene) (mobile : Bytes) : Bytes :=
  ascii "sms:code:" ++ sceneName scene ++ ascii ":" ++ mobile

def intervalKey (mobile : Bytes) : Bytes := ascii "sms:interval:" ++ mobile

def verifyCountKey (scene : SmsScene) (mobile : Bytes) : Bytes :=
  ascii "sms:verify_count:" ++ sceneName scene ++ ascii ":" ++ mobile

def lockKey (scene : SmsScene) (mobile : Bytes) : Bytes :=
  ascii "sms:lock:" ++ sceneName scene ++ ascii ":" ++ mobile

def busyMessage : String := "服务暂时不可用，请稍后重试"

def safeTtlSeconds (key : Bytes) (default : Int) : Action Int := do
  match ← pttl key with
  | .ok ms => return if 0 < ms then ms / 1000 else default
  | .fail _ _ => return default

/-- The message goes to a log; nothing can fail. -/
def doSend (_mobile _code : Bytes) (_scene : SmsScene) : Result Unit := .ok ()

/-- `SendCaptcha`, with what `GenerateCaptcha` returns as an argument. -/
def sendCaptcha (config : SmsConfig) (code : Bytes) (scene : SmsScene) (mobile : Bytes) :
    Action (Result Int) := do
  match ← existsKey (lockKey scene mobile) with
  | .fail _ _ => return .failWith .serviceUnavailable busyMessage
  | .ok true =>
      let ttl ← safeTtlSeconds (lockKey scene mobile) config.lockSeconds.toInt
      return .failWith .rateLimited s!"操作过于频繁，请{ttl}秒后再试"
  | .ok false =>
  match ← existsKey (intervalKey mobile) with
  | .fail _ _ => return .failWith .serviceUnavailable busyMessage
  | .ok true =>
      let ttl ← safeTtlSeconds (intervalKey mobile) config.sendIntervalSeconds.toInt
      return .failWith .rateLimited s!"操作过于频繁，请{ttl}秒后再试"
  | .ok false =>
  match ← setPx (captchaKey scene mobile) code (millis config.codeTtlSeconds) with
  | .fail _ _ => return .failWith .serviceUnavailable busyMessage
  | .ok () =>
  let _ ← setPx (intervalKey mobile) (ascii "1") (millis config.sendIntervalSeconds)
  match doSend mobile code scene with
  | .fail _ _ =>
      let _ ← del (captchaKey scene mobile)
      return .failWith .serviceUnavailable "短信发送失败，请稍后重试"
  | .ok () => return .ok config.sendIntervalSeconds.toInt

/-- A wrong code: count it, and lock the pair when the count reaches the limit. -/
def countWrongCode (config : SmsConfig) (scene : SmsScene) (mobile : Bytes) : Action (Result Unit) := do
  match ← incr (verifyCountKey scene mobile) with
  | .fail _ _ => return .failWith .serviceUnavailable busyMessage
  | .ok count =>
      let _ ← pExpire (verifyCountKey scene mobile) (millis config.retryTtlSeconds)
      if config.maxRetryCount.toInt ≤ count then
        let _ ← setPx (lockKey scene mobile) (ascii "1") (millis config.lockSeconds)
        let _ ← del (captchaKey scene mobile)
        let _ ← del (verifyCountKey scene mobile)
        let minutes := config.lockSeconds.toInt.tdiv 60
        return .failWith .accountLocked s!"错误次数过多，请{minutes}分钟后再试"
      else
        let left := config.maxRetryCount.toInt - count
        return .failWith .captchaWrong s!"验证码错误，还剩{left}次机会"

def verifyCaptcha (config : SmsConfig) (scene : SmsScene) (mobile inputCode : Bytes) :
    Action (Result Unit) := do
  match ← existsKey (lockKey scene mobile) with
  | .fail _ _ => return .failWith .serviceUnavailable busyMessage
  | .ok true =>
      let ttl ← safeTtlSeconds (lockKey scene mobile) config.retryTtlSeconds.toInt
      return .failWith .rateLimited s!"操作过于频繁，请{ttl}秒后再试"
  | .ok false =>
  match ← get (captchaKey scene mobile) with
  | .fail _ _ => return .failWith .serviceUnavailable busyMessage
  | .ok none => return .failWith .captchaExpired "验证码已过期，请重新获取"
  | .ok (some storedCode) =>
  if inputCode ≠ storedCode then countWrongCode config scene mobile
  else
    -- the code stays: a caller whose own work fails may present it again
    let _ ← del (verifyCountKey scene mobile)
    return .ok ()

def consumeCaptcha (scene : SmsScene) (mobile : Bytes) : Action (Result Unit) := do
  let _ ← del (captchaKey scene mobile)
  return .ok ()

end AccountService
