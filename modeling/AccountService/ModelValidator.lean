import AccountService.ModelConfig
import AccountService.ModelJwt

/-! The format checks of `validator.h` and the password hashes of `PasswordHelper`. A check that fails
carries the text it puts into its `error` argument. -/

namespace AccountService

open Decimal

/-- `1[3-9]\d{9}`. -/
def matchesMobile : Bytes → Bool
  | first :: second :: rest =>
      first = 49 && (51 ≤ second && second ≤ 57) && rest.length = 9 && rest.all isDigit
  | _ => false

def isValidMobile (mobile : Bytes) : Except String Unit :=
  if mobile.length ≠ 11 ∨ ¬matchesMobile mobile then .error "手机号格式错误" else .ok ()

/-- `static_cast<int>(s.length())`. -/
def intLength (s : Bytes) : Int32 := Int32.ofNat s.length

def isValidPassword (password : Bytes) (policy : PasswordPolicyConfig) : Except String Unit :=
  if intLength password < policy.minLength then .error s!"密码长度至少{policy.minLength}位"
  else if intLength password > policy.maxLength then .error s!"密码长度不能超过{policy.maxLength}位"
  else if policy.requireUppercase && !password.any isUpper then .error "密码必须包含大写字母"
  else if policy.requireLowercase && !password.any isLower then .error "密码必须包含小写字母"
  else if policy.requireDigit && !password.any isDigit then .error "密码必须包含数字"
  else if policy.requireSpecialChar && !password.any (!isAlnum ·) then .error "密码必须包含特殊字符"
  else .ok ()

/-- The overload without a policy. -/
def isValidPasswordPlain (password : Bytes) : Except String Unit :=
  if password.length < 8 then .error "密码长度至少8位"
  else if password.length > 32 then .error "密码长度不能超过32位"
  else if !password.any isDigit || !password.any isAlpha then .error "密码必须包含字母和数字"
  else .ok ()

def isValidVerifyCode (code : Bytes) (config : SmsConfig) : Except String Unit :=
  if intLength code ≠ config.codeLen then .error s!"验证码应为{config.codeLen}位数字"
  else if !code.all isDigit then .error s!"验证码应为{config.codeLen}位数字"
  else .ok ()

/-- The overload without settings. -/
def isValidVerifyCodePlain (code : Bytes) : Except String Unit :=
  if code.length ≠ 6 then .error "验证码格式错误"
  else if !code.all isDigit then .error "验证码格式错误"
  else .ok ()

def isValidDisplayName (name : Bytes) : Except String Unit :=
  if name = [] then .error "昵称不能为空"
  else if name.length > 32 then .error "昵称长度不能超过32位"
  else .ok ()

/-! ### Password hashes -/

def hashMark : Bytes := ascii "$sha256$"

def dollar : UInt8 := 36

/-- `PasswordHelper::Hash` with the bytes `RAND_bytes` returns. -/
def passwordHash (crypto : Crypto) (saltBytes password : Bytes) : Bytes :=
  let salt := bytesToHex saltBytes
  hashMark ++ salt ++ [dollar] ++ bytesToHex (crypto.sha256 (salt ++ password))

/-- `PasswordHelper::Verify`. -/
def passwordVerify (crypto : Crypto) (password storedHash : Bytes) : Bool :=
  if storedHash.take 8 ≠ hashMark then false
  else
    let body := storedHash.drop 8
    if ¬body.contains dollar then false
    else
      let salt := body.takeWhile (· ≠ dollar)
      let expectedHash := (body.dropWhile (· ≠ dollar)).tail
      expectedHash = bytesToHex (crypto.sha256 (salt ++ password))

end AccountService
