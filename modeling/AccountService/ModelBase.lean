import AccountService.LibraryDecimal

/-! Byte strings, the character classes of the C locale, the integer conversions of the standard
library, and the result type every operation of the service returns. -/

namespace AccountService

open Decimal

/-- A `std::string`. -/
abbrev Bytes := List UInt8

/-- The bytes of an ASCII literal. -/
def ascii (s : String) : Bytes := s.toList.map fun c => UInt8.ofNat c.toNat

def isSpace (c : UInt8) : Bool := c = 32 || (9 ≤ c && c ≤ 13)

def isUpper (c : UInt8) : Bool := 65 ≤ c && c ≤ 90

def isLower (c : UInt8) : Bool := 97 ≤ c && c ≤ 122

def isAlpha (c : UInt8) : Bool := isUpper c || isLower c

def isAlnum (c : UInt8) : Bool := isAlpha c || isDigit c

theorem isSpace_eq_false_of_numeric (c : UInt8) (h : isDigit c = true ∨ c = minus) :
    isSpace c = false := by
  rcases h with h | rfl
  · rw [isDigit_iff] at h
    simp only [isSpace, UInt8.le_iff_toNat_le, Bool.or_eq_false_iff, Bool.and_eq_false_iff,
      decide_eq_false_iff_not, ← UInt8.toNat_inj]
    exact ⟨by simp; omega, by simp; omega⟩
  · decide

/-- The range of `int64_t`. -/
def IsInt64 (n : Int) : Prop := -2 ^ 63 ≤ n ∧ n < 2 ^ 63

/-- The range of `int`. -/
def IsInt32 (n : Int) : Prop := -2 ^ 31 ≤ n ∧ n < 2 ^ 31

instance (n : Int) : Decidable (IsInt64 n) := inferInstanceAs (Decidable (_ ∧ _))

instance (n : Int) : Decidable (IsInt32 n) := inferInstanceAs (Decidable (_ ∧ _))

/-- `std::to_string` of an integer. -/
def toString (n : Int) : Bytes := intText n

/-- `std::stoll`; `none` is `std::invalid_argument` or `std::out_of_range`. -/
def stoll (s : Bytes) : Option Int := (readInt isSpace s).filter (IsInt64 ·)

/-- `std::stoi`. -/
def stoi (s : Bytes) : Option Int := (readInt isSpace s).filter (IsInt32 ·)

theorem stoll_toString {n : Int} (h : IsInt64 n) : stoll (toString n) = some n := by
  rw [stoll, toString, readInt_intText _ isSpace_eq_false_of_numeric]
  simp [Option.filter, h]

theorem stoi_toString {n : Int} (h : IsInt32 n) : stoi (toString n) = some n := by
  rw [stoi, toString, readInt_intText _ isSpace_eq_false_of_numeric]
  simp [Option.filter, h]

/-- The two lower-case hexadecimal digits of a byte (`std::hex`, width 2, filled with `0`). -/
def hexByte (b : UInt8) : Bytes :=
  let digit (d : Nat) : UInt8 := if d < 10 then UInt8.ofNat (48 + d) else UInt8.ofNat (87 + d)
  [digit (b.toNat / 16), digit (b.toNat % 16)]

def bytesToHex (s : Bytes) : Bytes := s.flatMap hexByte

inductive ErrorCode
  | ok
  | unknown | internal | notImplemented | serviceUnavailable | timeout
  | invalidArgument | invalidPage | invalidPageSize
  | rateLimited | quotaExceeded
  | unauthenticated | tokenMissing | tokenInvalid | tokenExpired | tokenRevoked
  | loginFailed | wrongPassword | accountLocked
  | captchaWrong | captchaExpired
  | userNotFound | userDeleted
  | userAlreadyExists | mobileTaken
  | userDisabled | userNotVerified
  | permissionDenied | adminRequired | ownerRequired
  deriving DecidableEq, Repr

def getErrorMessage : ErrorCode → String
  | .ok => "成功"
  | .unknown => "未知错误"
  | .internal => "服务器内部错误"
  | .notImplemented => "功能暂未实现"
  | .serviceUnavailable => "服务暂不可用"
  | .timeout => "请求超时"
  | .invalidArgument => "参数无效"
  | .invalidPage => "无效的页码"
  | .invalidPageSize => "无效的每页大小"
  | .rateLimited => "请求过于频繁，请稍后再试"
  | .quotaExceeded => "配额已超限"
  | .unauthenticated => "请先登录"
  | .tokenMissing => "缺少认证信息"
  | .tokenInvalid => "认证信息无效"
  | .tokenExpired => "登录已过期，请重新登录"
  | .tokenRevoked => "登录已失效"
  | .loginFailed => "登录失败"
  | .wrongPassword => "用户名或密码错误"
  | .accountLocked => "账号已锁定，请稍后再试"
  | .captchaWrong => "验证码错误"
  | .captchaExpired => "验证码已过期，请重新获取"
  | .userNotFound => "用户不存在"
  | .userDeleted => "用户已注销"
  | .userAlreadyExists => "用户已存在"
  | .mobileTaken => "手机号已被使用"
  | .userDisabled => "账号已被禁用"
  | .userNotVerified => "账号未验证"
  | .permissionDenied => "无权限执行此操作"
  | .adminRequired => "需要管理员权限"
  | .ownerRequired => "只有所有者可执行此操作"

/-- `Result<T>`: a value, or an error code with the text the caller is given. -/
inductive Result (α : Type)
  | ok (value : α)
  | fail (code : ErrorCode) (message : String)
  deriving DecidableEq, Repr

namespace Result

variable {α : Type}

/-- `Result::Fail`: an empty message becomes the code's own. -/
def failWith (code : ErrorCode) (message : String) : Result α :=
  .fail code (if message = "" then getErrorMessage code else message)

/-- `Result::Fail` with its default argument. -/
def failCode (code : ErrorCode) : Result α := failWith code ""

def isOk : Result α → Bool
  | .ok _ => true
  | .fail _ _ => false

def code : Result α → ErrorCode
  | .ok _ => .ok
  | .fail c _ => c

@[simp] theorem isOk_failWith (c : ErrorCode) (m : String) :
    (failWith c m : Result α).isOk = false := rfl

@[simp] theorem isOk_failCode (c : ErrorCode) : (failCode c : Result α).isOk = false := rfl

@[simp] theorem code_failWith (c : ErrorCode) (m : String) :
    (failWith c m : Result α).code = c := rfl

@[simp] theorem failWith_ne_ok (c : ErrorCode) (m : String) (a : α) :
    failWith c m ≠ .ok a := by
  simp [failWith]

end Result

/-- How a call ends: it returns a result, or a standard-library exception leaves it. -/
inductive Outcome (α : Type)
  | returned (result : Result α)
  | threw
  deriving DecidableEq, Repr

def Outcome.isOk {α : Type} : Outcome α → Bool
  | .returned r => r.isOk
  | .threw => false

def Outcome.code? {α : Type} : Outcome α → Option ErrorCode
  | .returned r => some r.code
  | .threw => none

end AccountService
