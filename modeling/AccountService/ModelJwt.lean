import AccountService.LibraryOrderedMap
import AccountService.LibrarySha256
import AccountService.ModelConfig
import AccountService.ModelEntity

/-! `JwtService`: the Base64URL codec, the hand-written JSON writer and reader, and the tokens built
from them. -/

namespace AccountService

open Decimal OrderedMap

/-- The digests of OpenSSL the service calls. -/
structure Crypto where
  hmacSha256 : Bytes → Bytes → Bytes
  sha256 : Bytes → Bytes

/-- The two functions themselves. -/
def Crypto.openssl : Crypto := ⟨Sha256.hmac, Sha256.digest⟩

def base64Table : Bytes :=
  ascii "ABCDEFGHIJKLMNOPQRSTUVWXYZabcdefghijklmnopqrstuvwxyz0123456789-_"

def base64Char (d : Nat) : UInt8 := base64Table.getD d 0

/-- `while (valb >= 0)`, with `bits` for `valb + 6`: the characters written and the bits left. -/
def base64Drain (val : Nat) : Nat → Bytes × Nat
  | bits + 6 =>
      match base64Drain val bits with
      | (chars, left) => (base64Char (val / 2 ^ bits % 64) :: chars, left)
  | bits => ([], bits)

/-- `val` is an `int` that the loops shift left without bound: it is kept modulo `2 ^ 32`. The loops read
bits below the fourteenth only, so that the sign of the right shift makes no difference. -/
def base64EncodeLoop (val bits : Nat) : Bytes → Bytes
  | [] => if 0 < bits then [base64Char (val * 256 % 2 ^ 32 / 2 ^ (bits + 2) % 64)] else []
  | c :: rest =>
      let val' := (val * 256 + c.toNat) % 2 ^ 32
      match base64Drain val' (bits + 8) with
      | (chars, left) => chars ++ base64EncodeLoop val' left rest

def base64UrlEncode (input : Bytes) : Bytes := base64EncodeLoop 0 0 input

def base64DecodeTable : List Int :=
  [-1,-1,-1,-1,-1,-1,-1,-1,-1,-1,-1,-1,-1,-1,-1,-1,
   -1,-1,-1,-1,-1,-1,-1,-1,-1,-1,-1,-1,-1,-1,-1,-1,
   -1,-1,-1,-1,-1,-1,-1,-1,-1,-1,-1,-1,-1,62,-1,-1,
   52,53,54,55,56,57,58,59,60,61,-1,-1,-1,-1,-1,-1,
   -1, 0, 1, 2, 3, 4, 5, 6, 7, 8, 9,10,11,12,13,14,
   15,16,17,18,19,20,21,22,23,24,25,-1,-1,-1,-1,63,
   -1,26,27,28,29,30,31,32,33,34,35,36,37,38,39,40,
   41,42,43,44,45,46,47,48,49,50,51,-1,-1,-1,-1,-1] ++ List.replicate 128 (-1)

/-- The loop of the decoder, with `bits` for `valb + 8`. -/
def base64DecodeLoop (val bits : Nat) : Bytes → Bytes
  | [] => []
  | c :: rest =>
      let d := base64DecodeTable.getD c.toNat (-1)
      if d = -1 then []
      else
        let val' := (val * 64 + d.toNat) % 2 ^ 32
        if 8 ≤ bits + 6 then
          UInt8.ofNat (val' / 2 ^ (bits + 6 - 8) % 256) :: base64DecodeLoop val' (bits + 6 - 8) rest
        else base64DecodeLoop val' (bits + 6) rest

def base64UrlDecode (input : Bytes) : Bytes := base64DecodeLoop 0 0 input

def quote : UInt8 := 34
def backslash : UInt8 := 92
def comma : UInt8 := 44
def colon : UInt8 := 58
def openBrace : UInt8 := 123
def closeBrace : UInt8 := 125
def dot : UInt8 := 46

/-- `std::map<std::string, std::string>`. -/
abbrev Claims := List (Bytes × Bytes)

/-- The order of `std::string`. -/
def bytesLt : Bytes → Bytes → Bool
  | _, [] => false
  | [], _ :: _ => true
  | a :: as, b :: bs => if a = b then bytesLt as bs else a < b

/-- `claims[key] = value`. -/
def Claims.set (claims : Claims) (key value : Bytes) : Claims := assign bytesLt key value claims

def Claims.find (claims : Claims) (key : Bytes) : Option Bytes := OrderedMap.find key claims

def escapeJsonChar (c : UInt8) : Bytes :=
  if c = quote then [backslash, quote]
  else if c = backslash then [backslash, backslash]
  else if c = 8 then [backslash, 98]
  else if c = 12 then [backslash, 102]
  else if c = 10 then [backslash, 110]
  else if c = 13 then [backslash, 114]
  else if c = 9 then [backslash, 116]
  else [c]

def escapeJsonString (s : Bytes) : Bytes := s.flatMap escapeJsonChar

/-- The guess of `BuildJson`: a digit first, or a minus sign with more after it. -/
def isNumber (value : Bytes) : Bool :=
  match value with
  | [] => false
  | c :: rest => isDigit c || (c = minus && !rest.isEmpty)

def jsonValue (value : Bytes) : Bytes :=
  if isNumber value then value else [quote] ++ escapeJsonString value ++ [quote]

def jsonMember (key value : Bytes) : Bytes :=
  [quote] ++ escapeJsonString key ++ [quote, colon] ++ jsonValue value

def jsonMembers : Claims → Bytes
  | [] => []
  | [(key, value)] => jsonMember key value
  | (key, value) :: rest => jsonMember key value ++ [comma] ++ jsonMembers rest

def buildJson (claims : Claims) : Bytes := [openBrace] ++ jsonMembers claims ++ [closeBrace]

/-- The reader works on what is left of the text: `json[i]` is the head, and past the end it is the
terminating `'\0'`, which no test of the reader accepts. -/
def skipWhitespace (s : Bytes) : Bytes := s.dropWhile isSpace

/-- The byte an escape stands for; `\b`, `\f` and every other letter stand for themselves. -/
def unescape (c : UInt8) : UInt8 :=
  if c = 110 then 10 else if c = 114 then 13 else if c = 116 then 9 else c

/-- The loop of `parse_string`: the string up to the closing quote, and what follows the quote. -/
def scanString : Bytes → Bytes × Bytes
  | [] => ([], [])
  | c :: rest =>
      if c = quote then ([], rest)
      else if c = backslash then
        match rest with
        | [] => ([c], [])
        | e :: rest' =>
            match scanString rest' with
            | (s, left) => (unescape e :: s, left)
      else
        match scanString rest with
        | (s, left) => (c :: s, left)

def parseString (s : Bytes) : Bytes × Bytes :=
  match s with
  | [] => ([], [])
  | c :: rest => if c = quote then scanString rest else ([], c :: rest)

/-- The loop that reads anything but a string, up to a comma or a closing brace. -/
def scanRaw : Bytes → Bytes × Bytes
  | [] => ([], [])
  | c :: rest =>
      if c = comma ∨ c = closeBrace then ([], c :: rest)
      else
        match scanRaw rest with
        | (val, left) => (if isSpace c then val else c :: val, left)

def parseValue (s : Bytes) : Bytes × Bytes :=
  match skipWhitespace s with
  | [] => ([], [])
  | c :: rest => if c = quote then scanString rest else scanRaw (c :: rest)

/-- `if (i < json.size() && json[i] == ':') i++`. -/
def skipColon (s : Bytes) : Bytes :=
  match s with
  | [] => []
  | c :: rest => if c = colon then rest else c :: rest

/-- One `key : value` from the front: the key, the value and what is left. -/
def parseMember (s : Bytes) : Bytes × Bytes × Bytes :=
  match parseString s with
  | (key, afterKey) =>
      match parseValue (skipColon (skipWhitespace afterKey)) with
      | (value, left) => (key, value, left)

/-- `while (i < json.size())`. Every turn consumes a byte, so that `json.size() + 1` turns are
enough. -/
def parseMembers : Nat → Bytes → Claims → Claims
  | 0, _, result => result
  | fuel + 1, s, result =>
      if s = [] then result
      else if (skipWhitespace s).head? = some closeBrace then result
      else if (skipWhitespace s).head? = some comma then
        parseMembers fuel (skipWhitespace s).tail result
      else
        match parseMember (skipWhitespace s) with
        | (key, value, left) =>
            parseMembers fuel left (if key = [] then result else result.set key value)

def parseJson (json : Bytes) : Claims :=
  match skipWhitespace json with
  | [] => []
  | c :: rest => if c = openBrace then parseMembers (rest.length + 1) rest [] else []

def jwtHeader : Bytes := ascii "\x7b\"alg\":\"HS256\",\"typ\":\"JWT\"\x7d"

def createJwt (crypto : Crypto) (claims : Claims) (secret : Bytes) : Bytes :=
  let signatureInput := base64UrlEncode jwtHeader ++ [dot] ++ base64UrlEncode (buildJson claims)
  signatureInput ++ [dot] ++ base64UrlEncode (crypto.hmacSha256 secret signatureInput)

/-- The parts of a text before and after its first dot. -/
def cutAtDot : Bytes → Option (Bytes × Bytes)
  | [] => none
  | c :: rest => if c = dot then some ([], rest) else (cutAtDot rest).map fun p => (c :: p.1, p.2)

/-- `VerifyJwt` at the instant `now`: the claims, or the error code. -/
def verifyJwt (crypto : Crypto) (now : Nat) (token secret : Bytes) : Except ErrorCode Claims :=
  match cutAtDot token with
  | none => .error .tokenInvalid
  | some (header, afterHeader) =>
      match cutAtDot afterHeader with
      | none => .error .tokenInvalid
      | some (payload, signature) =>
          if signature ≠ base64UrlEncode (crypto.hmacSha256 secret (header ++ [dot] ++ payload)) then
            .error .tokenInvalid
          else
            let claims := parseJson (base64UrlDecode payload)
            match claims.find (ascii "exp") with
            | none => .ok claims
            | some text =>
                match stoll text with
                | none => .error .tokenInvalid
                | some exp => if fromTimeT exp < now then .error .tokenExpired else .ok claims

def accessClaims (config : SecurityConfig) (now : Nat) (jti : Jti) (user : UserEntity) : Claims :=
  let exp := addSeconds now config.accessTokenTtlSeconds
  let claims : Claims := []
  let claims := claims.set (ascii "iss") config.jwtIssuer
  let claims := claims.set (ascii "sub") (ascii "access")
  let claims := claims.set (ascii "id") (toString user.id)
  let claims := claims.set (ascii "uid") user.uuid
  let claims := claims.set (ascii "mobile") user.mobile
  let claims := claims.set (ascii "role") (userRoleToString user.role)
  let claims := claims.set (ascii "iat") (toString (toTimeT now))
  let claims := claims.set (ascii "exp") (toString (toTimeT exp))
  claims.set (ascii "jti") (toString jti.val)

def generateAccessToken (crypto : Crypto) (config : SecurityConfig) (now : Nat) (jti : Jti)
    (user : UserEntity) : Bytes :=
  createJwt crypto (accessClaims config now jti user) config.jwtSecret

def refreshClaims (config : SecurityConfig) (now : Nat) (jti : Jti) (user : UserEntity) : Claims :=
  let exp := addSeconds now config.refreshTokenTtlSeconds
  let claims : Claims := []
  let claims := claims.set (ascii "iss") config.jwtIssuer
  let claims := claims.set (ascii "sub") (ascii "refresh")
  let claims := claims.set (ascii "uid") (toString user.id)
  let claims := claims.set (ascii "iat") (toString (toTimeT now))
  let claims := claims.set (ascii "exp") (toString (toTimeT exp))
  claims.set (ascii "jti") (toString jti.val)

def generateRefreshToken (crypto : Crypto) (config : SecurityConfig) (now : Nat) (jti : Jti)
    (user : UserEntity) : Bytes :=
  createJwt crypto (refreshClaims config now jti user) config.jwtSecret

def verifyAccessToken (crypto : Crypto) (config : SecurityConfig) (now : Nat) (token : Bytes) :
    Result AccessTokenPayload :=
  if token = [] then .failWith .tokenMissing "Token 不能为空"
  else
    match verifyJwt crypto now token config.jwtSecret with
    | .error code => .failCode code
    | .ok claims =>
        if (claims.find (ascii "iss")).any (· ≠ config.jwtIssuer) then
          .failWith .tokenInvalid "令牌签发者不匹配"
        else if (claims.find (ascii "sub")).any (· ≠ ascii "access") then
          .failWith .tokenInvalid "令牌类型不匹配"
        else if (claims.find (ascii "id")).getD [] = [] then
          .failWith .tokenInvalid "令牌缺少用户ID"
        else if (claims.find (ascii "uid")).getD [] = [] then
          .failWith .tokenInvalid "令牌缺少用户UUID"
        else if (claims.find (ascii "role")).getD [] = [] then
          .failWith .tokenInvalid "令牌缺少用户ROLE"
        else
          match stoll ((claims.find (ascii "id")).getD []) with
          | none => .failWith .tokenInvalid "用户ID格式错误"
          | some id =>
              .ok {
                userId := id
                userUuid := (claims.find (ascii "uid")).getD []
                mobile := (claims.find (ascii "mobile")).getD []
                role := stringToUserRole ((claims.find (ascii "role")).getD [])
                expiresAt :=
                  match claims.find (ascii "exp") with
                  | none => 0
                  | some text => ((stoll text).map fromTimeT).getD now }

def parseRefreshToken (crypto : Crypto) (config : SecurityConfig) (now : Nat) (token : Bytes) :
    Result Bytes :=
  if token = [] then .failWith .tokenMissing "Token 不能为空"
  else
    match verifyJwt crypto now token config.jwtSecret with
    | .error code => .failCode code
    | .ok claims =>
        if (claims.find (ascii "iss")).any (· ≠ config.jwtIssuer) then
          .failWith .tokenInvalid "令牌签发者不匹配"
        else if (claims.find (ascii "sub")).any (· ≠ ascii "refresh") then
          .failWith .tokenInvalid "令牌类型不匹配"
        else
          match claims.find (ascii "uid") with
          | some uid => if uid ≠ [] then .ok uid else .failWith .tokenInvalid "令牌缺少用户标识"
          | none => .failWith .tokenInvalid "令牌缺少用户标识"

def hashToken (crypto : Crypto) (token : Bytes) : Bytes := bytesToHex (crypto.sha256 token)

end AccountService
