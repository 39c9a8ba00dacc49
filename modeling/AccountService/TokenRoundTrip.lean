import AccountService.ModelValidator
import AccountService.TokenBase64
import AccountService.TokenJson

/-! What the two verifiers answer on the tokens the service issues. If the issuer survives the JSON
writer and reader, every claim comes back as it was written. If it does not, the reader returns another
issuer and both verifiers refuse the token, whatever else the payload has become. -/

namespace AccountService

open Decimal OrderedMap

/-- A byte from the minus sign to `z` is no delimiter, no blank and no escape. -/
def isHarmless (c : UInt8) : Bool := 45 ≤ c.toNat && c.toNat ≤ 122

theorem survives_of_harmless {value : Bytes} (h : ∀ c ∈ value, isHarmless c = true) :
    survives value = true := by
  have hcode : ∀ c ∈ value, ∀ d : UInt8, d.toNat < 45 ∨ 122 < d.toNat → c ≠ d := by
    rintro c hc d hd rfl
    have := h c hc
    simp only [isHarmless, Bool.and_eq_true, decide_eq_true_eq] at this
    omega
  have hspace : ∀ c ∈ value, isSpace c = false := by
    intro c hc
    have := h c hc
    simp only [isHarmless, Bool.and_eq_true, decide_eq_true_eq] at this
    simp only [isSpace, UInt8.le_iff_toNat_le, Bool.or_eq_false_iff, Bool.and_eq_false_iff,
      decide_eq_false_iff_not, ← UInt8.toNat_inj]
    exact ⟨by simp; omega, by simp; omega⟩
  unfold survives
  split
  · rw [List.all_eq_true]
    intro c hc
    simp only [isDelimiter, hspace c hc, Bool.not_false, Bool.and_true, Bool.not_or, Bool.and_eq_true,
      Bool.not_eq_true', decide_eq_false_iff_not]
    exact ⟨hcode c hc comma (by decide), hcode c hc closeBrace (by decide)⟩
  · rw [List.all_eq_true]
    intro c hc
    simp only [Bool.and_eq_true, decide_eq_true_eq]
    exact ⟨hcode c hc 8 (by decide), hcode c hc 12 (by decide)⟩

theorem isHarmless_of_isDigit {c : UInt8} (h : isDigit c = true) : isHarmless c = true := by
  rw [isDigit_iff] at h
  simp only [isHarmless, Bool.and_eq_true, decide_eq_true_eq]
  omega

theorem isHarmless_of_isLowerHex {c : UInt8} (h : isLowerHex c = true) : isHarmless c = true := by
  simp only [isLowerHex, Bool.or_eq_true, Bool.and_eq_true, decide_eq_true_eq,
    UInt8.le_iff_toNat_le] at h
  rcases h with hdigit | ⟨hlo, hhi⟩
  · exact isHarmless_of_isDigit hdigit
  · simp only [UInt8.reduceToNat] at hlo hhi
    simp only [isHarmless, Bool.and_eq_true, decide_eq_true_eq]
    omega

theorem survives_toString (n : Int) : survives (toString n) = true := by
  refine survives_of_harmless fun c hc => ?_
  rcases mem_intText hc with h | rfl
  · exact isHarmless_of_isDigit h
  · decide

theorem survives_uuid {uuid : Bytes} (h : IsUuidText uuid) : survives uuid = true := by
  refine survives_of_harmless fun c hc => ?_
  obtain ⟨i, rfl⟩ := List.get_of_mem hc
  have hi := h.2 i.val i.isLt
  split at hi
  · rw [hi]
    decide
  · exact isHarmless_of_isLowerHex hi

theorem isDigit_of_isValidMobile {mobile : Bytes} (h : isValidMobile mobile = .ok ()) :
    ∀ c ∈ mobile, isDigit c = true := by
  unfold isValidMobile at h
  split at h
  · cases h
  · rename_i hvalid
    rw [not_or, not_not, not_not] at hvalid
    have hmatch := hvalid.2
    unfold matchesMobile at hmatch
    split at hmatch
    · rename_i first second rest
      simp only [Bool.and_eq_true, decide_eq_true_eq, List.all_eq_true] at hmatch
      obtain ⟨⟨⟨hfirst, hsecond⟩, -⟩, hrest⟩ := hmatch
      intro c hc
      rcases List.mem_cons.mp hc with rfl | hc
      · rw [hfirst]
        decide
      · rcases List.mem_cons.mp hc with rfl | hc
        · rw [isDigit_iff]
          simp only [UInt8.le_iff_toNat_le] at hsecond
          simp at hsecond
          omega
        · exact hrest c hc
    · cases hmatch

theorem survives_mobile {mobile : Bytes} (h : isValidMobile mobile = .ok ()) : survives mobile = true :=
  survives_of_harmless fun c hc => isHarmless_of_isDigit (isDigit_of_isValidMobile h c hc)

theorem survives_userRoleToString (role : UserRole) : survives (userRoleToString role) = true := by
  cases role <;> decide

/-- The members of an access token in front of the issuer. -/
def accessLeading (config : SecurityConfig) (issued : Nat) (user : UserEntity) : Claims :=
  [(ascii "exp", toString (toTimeT (addSeconds issued config.accessTokenTtlSeconds))),
    (ascii "iat", toString (toTimeT issued)), (ascii "id", toString user.id)]

/-- The members of an access token behind the issuer and the `jti`. -/
def accessTrailing (user : UserEntity) : Claims :=
  [(ascii "mobile", user.mobile), (ascii "role", userRoleToString user.role),
    (ascii "sub", ascii "access"), (ascii "uid", user.uuid)]

def refreshLeading (config : SecurityConfig) (issued : Nat) : Claims :=
  [(ascii "exp", toString (toTimeT (addSeconds issued config.refreshTokenTtlSeconds))),
    (ascii "iat", toString (toTimeT issued))]

def refreshTrailing (user : UserEntity) : Claims :=
  [(ascii "sub", ascii "refresh"), (ascii "uid", toString user.id)]

/-- A payload, cut at its issuer. -/
def payload (leading trailing : Claims) (issuer : Bytes) (jti : Jti) : Claims :=
  leading ++ (ascii "iss", issuer) :: (ascii "jti", toString jti.val) :: trailing

theorem accessClaims_eq (config : SecurityConfig) (issued : Nat) (jti : Jti) (user : UserEntity) :
    accessClaims config issued jti user =
      payload (accessLeading config issued user) (accessTrailing user) config.jwtIssuer jti := rfl

theorem refreshClaims_eq (config : SecurityConfig) (issued : Nat) (jti : Jti) (user : UserEntity) :
    refreshClaims config issued jti user =
      payload (refreshLeading config issued) (refreshTrailing user) config.jwtIssuer jti := rfl

/-- The members a payload has besides the issuer come back as they are. -/
structure Sound (leading trailing : Claims) : Prop where
  front : ∀ m ∈ leading, plainKey m.1 = true ∧ survives m.2 = true
  back : ∀ m ∈ trailing, plainKey m.1 = true ∧ survives m.2 = true
  noIssuer : ascii "iss" ∉ trailing.map Prod.fst

theorem Sound.readable {members : Claims}
    (h : ∀ m ∈ members, plainKey m.1 = true ∧ survives m.2 = true) : Readable members :=
  fun m hm => ⟨(h m hm).1, ((survives_iff m.2).mp (h m hm).2).1⟩

theorem sound_access (config : SecurityConfig) (issued : Nat) {user : UserEntity}
    (hmobile : isValidMobile user.mobile = .ok ()) (huuid : IsUuidText user.uuid) :
    Sound (accessLeading config issued user) (accessTrailing user) where
  front := by
    simp only [accessLeading, List.forall_mem_cons, survives_toString, and_true]
    decide
  back := by
    simp only [accessTrailing, List.forall_mem_cons, survives_mobile hmobile, survives_uuid huuid,
      survives_userRoleToString, and_true]
    decide
  noIssuer := by
    simp only [accessTrailing, List.map_cons, List.map_nil]
    decide

theorem sound_refresh (config : SecurityConfig) (issued : Nat) (user : UserEntity) :
    Sound (refreshLeading config issued) (refreshTrailing user) where
  front := by
    simp only [refreshLeading, List.forall_mem_cons, survives_toString, and_true]
    decide
  back := by
    simp only [refreshTrailing, List.forall_mem_cons, survives_toString, and_true]
    decide
  noIssuer := by
    simp only [refreshTrailing, List.map_cons, List.map_nil]
    decide

/-- With values that all come back, reading assigns what was written. -/
theorem assignAll_of_survives (members result : Claims) (h : ∀ m ∈ members, survives m.2 = true) :
    assignAll members result = members.foldl (fun result m => result.set m.1 m.2) result := by
  induction members generalizing result with
  | nil => rfl
  | cons m members ih =>
      have hm := ((survives_iff m.2).mp (h m List.mem_cons_self)).2
      show assignAll members (result.set m.1 (reread m.2)) = _
      rw [hm, ih _ fun x hx => h x (List.mem_cons_of_mem _ hx)]
      rfl

theorem plainKey_iss : plainKey (ascii "iss") = true := by decide

theorem plainKey_jti : plainKey (ascii "jti") = true := by decide

theorem isNumber_toString (n : Int) : isNumber (toString n) = true := by
  unfold isNumber
  rcases intText_cases n with ⟨c, rest, h, hc⟩ | ⟨c, rest, h⟩
  · simp [toString, h, hc]
  · simp [toString, h]

theorem contained_toString (n : Int) : contained (toString n) = true :=
  ((survives_iff _).mp (survives_toString n)).1

/-- What follows the issuer is readable and holds no other issuer. -/
theorem Sound.afterIssuer {leading trailing : Claims} (hs : Sound leading trailing) (jti : Jti) :
    Readable ((ascii "jti", toString jti.val) :: trailing) ∧
      ascii "iss" ∉ ((ascii "jti", toString jti.val) :: trailing).map Prod.fst := by
  refine ⟨fun m hm => ?_, ?_⟩
  · rcases List.mem_cons.mp hm with rfl | hm
    · exact ⟨plainKey_jti, contained_toString jti.val⟩
    · exact Sound.readable hs.back m hm
  · rw [List.map_cons, List.mem_cons, not_or]
    exact ⟨show ascii "iss" ≠ ascii "jti" by decide, hs.noIssuer⟩

/-- A surviving issuer: the payload is read as it was written. -/
theorem parseJson_payload {leading trailing : Claims} (hs : Sound leading trailing) {issuer : Bytes}
    (hi : survives issuer = true) (jti : Jti) :
    parseJson (buildJson (payload leading trailing issuer jti)) =
      (payload leading trailing issuer jti).foldl (fun result m => Claims.set result m.1 m.2) [] := by
  have hall : ∀ m ∈ payload leading trailing issuer jti, plainKey m.1 = true ∧ survives m.2 = true := by
    intro m hm
    simp only [payload, List.mem_append, List.mem_cons] at hm
    rcases hm with hm | rfl | rfl | hm
    · exact hs.front m hm
    · exact ⟨plainKey_iss, hi⟩
    · exact ⟨plainKey_jti, survives_toString jti.val⟩
    · exact hs.back m hm
  rw [parseJson_buildJson _ (Sound.readable hall),
    assignAll_of_survives _ _ fun m hm => (hall m hm).2]

/-- The issuer is read to its end but with other bytes. -/
theorem find_iss_of_contained {leading trailing : Claims} (hs : Sound leading trailing) {issuer : Bytes}
    (hi : contained issuer = true) (jti : Jti) :
    (parseJson (buildJson (payload leading trailing issuer jti))).find (ascii "iss") =
      some (reread issuer) := by
  obtain ⟨hafter, hkey⟩ := hs.afterIssuer jti
  have hread : Readable (payload leading trailing issuer jti) := by
    intro m hm
    rcases List.mem_append.mp hm with hm | hm
    · exact Sound.readable hs.front m hm
    · rcases List.mem_cons.mp hm with rfl | hm
      · exact ⟨plainKey_iss, hi⟩
      · exact hafter m hm
  rw [parseJson_buildJson _ hread, payload, assignAll, List.foldl_append, List.foldl_cons]
  exact (find_assignAll _ hkey _).trans (find_assign_self _ _ _ _)

/-- A bare value with a delimiter in it: the reader takes less than the value and is left inside it. -/
theorem parseValue_uncontained {value : Bytes} (h : contained value = false) {d : UInt8}
    (hd : isDelimiter d = true) (rest : Bytes) :
    ∃ v s, parseValue (jsonValue value ++ d :: rest) = (v, s ++ d :: rest) ∧
      v.length < value.length ∧ s.length < value.length := by
  have hnum : isNumber value = true := by
    by_contra hn
    simp [contained, hn] at h
  obtain ⟨c, tail, hc, hspace, hquote, hdelim⟩ := isNumber_cons hnum
  have hany : tail.any isDelimiter = true := by
    rw [contained, hnum, Bool.not_true, Bool.false_or, hc, List.all_cons, hdelim, Bool.not_false,
      Bool.true_and] at h
    simpa using h
  obtain ⟨v, s, hscan, hlen, hs⟩ := scanRaw_inside hd rest tail
  have hs' : 0 < s.length := List.length_pos_iff.mpr (hs hany)
  refine ⟨c :: v, s, ?_, ?_, ?_⟩
  · rw [jsonValue, if_pos hnum, hc, List.cons_append, parseValue_bare hspace hquote,
      scanRaw_plain hdelim, hscan, if_neg (by simp [hspace])]
  · rw [hc, List.length_cons, List.length_cons]
    omega
  · rw [hc, List.length_cons]
    omega

/-- Behind a quote that was taken for the end of a string, the reader takes the `jti` member for a
bare value. -/
theorem parseValue_jti (jti : Jti) {d : UInt8} (hd : isDelimiter d = true) (rest : Bytes) :
    ∃ w, parseValue (skipColon (skipWhitespace
      (106 :: 116 :: 105 :: quote :: colon :: (toString jti.val ++ d :: rest)))) = (w, d :: rest) := by
  have hall : (106 :: 116 :: 105 :: quote :: colon :: toString jti.val : Bytes).all (!isDelimiter ·) =
      true := by
    have hv := contained_toString jti.val
    simp only [contained, isNumber_toString, Bool.not_true, Bool.false_or] at hv
    simp only [List.all_cons, hv, Bool.and_true]
    decide
  have hscan := scanRaw_contained hd rest _ hall
  rw [skipWhitespace_cons (by decide), skipColon_other (by decide), parseValue_bare (by decide) (by decide)]
  exact ⟨_, hscan⟩

theorem trailingText_closeBrace (members : Claims) :
    ∃ d text, isDelimiter d = true ∧ trailingText members ++ [closeBrace] = d :: text := by
  cases members with
  | nil => exact ⟨closeBrace, [], by decide, rfl⟩
  | cons m rest => exact ⟨comma, _, by decide, rfl⟩

/-- The members behind leave a short issuer as it is. -/
theorem ShortValue.trailing {key : Bytes} {n : Nat} {members : Claims} (hm : Readable members)
    (hkey : key ∉ members.map Prod.fst) (fuel : Nat) {result : Claims} (h : ShortValue key n result) :
    ShortValue key n (parseMembers fuel (trailingText members ++ [closeBrace]) result) := by
  obtain ⟨k, hk, -⟩ := parseMembers_trailingText members hm fuel [] result
  have htake : key ∉ (members.take k).map Prod.fst := fun hmem =>
    hkey (List.map_subset _ (List.take_subset k members) hmem)
  obtain ⟨v, hv, hlen⟩ := h
  refine ⟨v, ?_, hlen⟩
  rw [hk, find_assignAll _ htake, hv]

/-- The issuer ends early: every issuer the reader finds is shorter than the one written. -/
theorem find_iss_of_uncontained {leading trailing : Claims} (hs : Sound leading trailing) {issuer : Bytes}
    (hi : contained issuer = false) (jti : Jti) :
    ShortValue (ascii "iss") issuer.length
      (parseJson (buildJson (payload leading trailing issuer jti))) := by
  obtain ⟨d, text, hd, hafter⟩ := trailingText_closeBrace trailing
  -- the text behind the issuer, from its comma on
  have hnext : trailingText ((ascii "jti", toString jti.val) :: trailing) ++ [closeBrace] =
      comma :: quote :: 106 :: 116 :: 105 :: quote :: colon :: (toString jti.val ++ d :: text) := by
    rw [← hafter]
    simp only [trailingText, List.flatMap_cons, jsonMember_eq, jsonValue, isNumber_toString, if_true,
      List.cons_append, List.append_assoc]
    rfl
  obtain ⟨fuel, hfuel, hparse⟩ := parseJson_buildJson_split leading
    ((ascii "jti", toString jti.val) :: trailing) (ascii "iss") issuer (Sound.readable hs.front)
  obtain ⟨fuel, rfl⟩ : ∃ f, fuel = f + 1 := ⟨fuel - 1, by omega⟩
  obtain ⟨v, s, hvalue, hv, hslen⟩ := parseValue_uncontained hi (show isDelimiter comma = true by decide)
    (quote :: 106 :: 116 :: 105 :: quote :: colon :: (toString jti.val ++ d :: text))
  obtain ⟨w, hjump⟩ := parseValue_jti jti hd text
  obtain ⟨hreadable, hkeys⟩ := hs.afterIssuer jti
  have hmember : parseMember (jsonMember (ascii "iss") issuer ++ comma :: quote :: 106 :: 116 :: 105 ::
      quote :: colon :: (toString jti.val ++ d :: text)) =
      (ascii "iss", v, s ++ comma :: quote :: 106 :: 116 :: 105 ::
        quote :: colon :: (toString jti.val ++ d :: text)) := by
    rw [jsonMember_eq, List.cons_append, List.append_assoc, List.cons_append, List.cons_append,
      parseMember_key plainKey_iss, hvalue]
  rw [payload, hparse, hnext]
  rw [jsonMember_eq, List.cons_append] at hmember ⊢
  rw [parseMembers_step isSpace_quote (by decide), hmember]
  refine parseMembers_inside (by decide) (by decide) (by decide) (by decide) hjump ?_ ?_ fuel s _ hslen ?_
  · intro fuel result h
    rw [← hnext]
    exact h.trailing hreadable hkeys fuel
  · intro fuel result h
    rw [← hafter]
    exact h.trailing (Sound.readable hs.back) hs.noIssuer fuel
  · show ShortValue (ascii "iss") issuer.length ((assignAll leading []).set (ascii "iss") v)
    exact ⟨v, find_assign_self _ _ _ _, hv⟩

/-- **Another issuer.** An issuer that does not survive is read back as something else. -/
theorem find_iss_of_not_survives {leading trailing : Claims} (hs : Sound leading trailing)
    {issuer : Bytes} (hi : survives issuer = false) (jti : Jti) :
    ∃ other, (parseJson (buildJson (payload leading trailing issuer jti))).find (ascii "iss") = some other ∧
      other ≠ issuer := by
  cases hc : contained issuer with
  | false =>
      obtain ⟨v, hv, hlen⟩ := find_iss_of_uncontained hs hc jti
      exact ⟨v, hv, fun h => absurd hlen (by rw [h]; exact Nat.lt_irrefl _)⟩
  | true =>
      refine ⟨reread issuer, find_iss_of_contained hs hc jti, fun h => ?_⟩
      rw [(survives_iff issuer).mpr ⟨hc, h⟩] at hi
      cases hi

theorem cutAtDot_append {a : Bytes} (ha : dot ∉ a) (b : Bytes) : cutAtDot (a ++ dot :: b) = some (a, b) := by
  induction a with
  | nil => rw [List.nil_append, cutAtDot, if_pos rfl]
  | cons c a ih =>
      rw [List.mem_cons, not_or] at ha
      rw [List.cons_append, cutAtDot, if_neg (Ne.symm ha.1), ih ha.2]
      rfl

/-- The expiry check of `VerifyJwt`. -/
def checkExp (now : Nat) (claims : Claims) : Except ErrorCode Claims :=
  match claims.find (ascii "exp") with
  | none => .ok claims
  | some text =>
      match stoll text with
      | none => .error .tokenInvalid
      | some exp => if fromTimeT exp < now then .error .tokenExpired else .ok claims

/-- A token the service made passes the format and the signature check: the payload decides. -/
theorem verifyJwt_createJwt (crypto : Crypto) (now : Nat) (claims : Claims) (secret : Bytes) :
    verifyJwt crypto now (createJwt crypto claims secret) secret =
      checkExp now (parseJson (buildJson claims)) := by
  have hcut := cutAtDot_append (dot_notMem_base64UrlEncode jwtHeader)
    (base64UrlEncode (buildJson claims) ++ dot ::
      base64UrlEncode (crypto.hmacSha256 secret
        (base64UrlEncode jwtHeader ++ [dot] ++ base64UrlEncode (buildJson claims))))
  have hcut' := cutAtDot_append (dot_notMem_base64UrlEncode (buildJson claims))
    (base64UrlEncode (crypto.hmacSha256 secret
      (base64UrlEncode jwtHeader ++ [dot] ++ base64UrlEncode (buildJson claims))))
  have htoken : createJwt crypto claims secret = base64UrlEncode jwtHeader ++ dot ::
      (base64UrlEncode (buildJson claims) ++ dot ::
        base64UrlEncode (crypto.hmacSha256 secret
          (base64UrlEncode jwtHeader ++ [dot] ++ base64UrlEncode (buildJson claims)))) := by
    simp [createJwt]
  rw [htoken, verifyJwt, hcut]
  simp only [hcut', ne_eq, not_true_eq_false, if_false, base64UrlDecode_base64UrlEncode]
  rfl

theorem createJwt_ne_nil (crypto : Crypto) (claims : Claims) (secret : Bytes) :
    createJwt crypto claims secret ≠ [] := by
  simp [createJwt]

theorem checkExp_ok {now : Nat} {claims result : Claims} (h : checkExp now claims = .ok result) :
    result = claims := by
  unfold checkExp at h
  split at h
  · cases h
    rfl
  · split at h
    · cases h
    · split at h
      · cases h
      · cases h
        rfl

theorem checkExp_of_le {now : Nat} {claims : Claims} {exp : Nat} (hexp : IsInt64 exp)
    (hfind : claims.find (ascii "exp") = some (toString exp)) (hle : (now : Int) ≤ fromTimeT exp) :
    checkExp now claims = .ok claims := by
  simp only [checkExp, hfind, stoll_toString hexp]
  rw [if_neg (by omega)]

theorem eq_of_not_any_ne {o : Option Bytes} {x : Bytes} (h : ¬o.any (· ≠ x) = true) (y : Bytes)
    (hy : o = some y) : y = x := by
  subst hy
  simpa using h

section Verifiers

variable (crypto : Crypto) (config : SecurityConfig) (now : Nat)

/-- What `VerifyAccessToken` has found in a payload it accepts. -/
theorem verifyAccessToken_createJwt {claims : Claims} {p : AccessTokenPayload}
    (h : verifyAccessToken crypto config now (createJwt crypto claims config.jwtSecret) = .ok p) :
    (∀ iss, (parseJson (buildJson claims)).find (ascii "iss") = some iss → iss = config.jwtIssuer) ∧
      (∀ sub, (parseJson (buildJson claims)).find (ascii "sub") = some sub → sub = ascii "access") := by
  unfold verifyAccessToken at h
  rw [if_neg (createJwt_ne_nil crypto claims _), verifyJwt_createJwt] at h
  split at h
  · simp [Result.failCode] at h
  · rename_i result hcheck
    rw [checkExp_ok hcheck] at h
    by_cases hiss : ((parseJson (buildJson claims)).find (ascii "iss")).any (· ≠ config.jwtIssuer) = true
    · rw [if_pos hiss] at h
      simp at h
    · rw [if_neg hiss] at h
      by_cases hsub : ((parseJson (buildJson claims)).find (ascii "sub")).any (· ≠ ascii "access") = true
      · rw [if_pos hsub] at h
        simp at h
      · exact ⟨eq_of_not_any_ne hiss, eq_of_not_any_ne hsub⟩

/-- What `ParseRefreshToken` has found in a payload it accepts. -/
theorem parseRefreshToken_createJwt {claims : Claims} {v : Bytes}
    (h : parseRefreshToken crypto config now (createJwt crypto claims config.jwtSecret) = .ok v) :
    (∀ iss, (parseJson (buildJson claims)).find (ascii "iss") = some iss → iss = config.jwtIssuer) ∧
      (∀ sub, (parseJson (buildJson claims)).find (ascii "sub") = some sub → sub = ascii "refresh") ∧
        (parseJson (buildJson claims)).find (ascii "uid") = some v := by
  unfold parseRefreshToken at h
  rw [if_neg (createJwt_ne_nil crypto claims _), verifyJwt_createJwt] at h
  split at h
  · simp [Result.failCode] at h
  · rename_i result hcheck
    rw [checkExp_ok hcheck] at h
    by_cases hiss : ((parseJson (buildJson claims)).find (ascii "iss")).any (· ≠ config.jwtIssuer) = true
    · rw [if_pos hiss] at h
      simp at h
    · rw [if_neg hiss] at h
      by_cases hsub : ((parseJson (buildJson claims)).find (ascii "sub")).any (· ≠ ascii "refresh") = true
      · rw [if_pos hsub] at h
        simp at h
      · rw [if_neg hsub] at h
        refine ⟨eq_of_not_any_ne hiss, eq_of_not_any_ne hsub, ?_⟩
        split at h
        · rename_i uid huid
          by_cases hempty : uid = []
          · rw [if_neg (by simpa using hempty)] at h
            simp at h
          · rw [if_pos hempty] at h
            cases h
            exact huid
        · simp at h

variable {config} {user : UserEntity} (issued : Nat) (jti : Jti)

/-- The payload of an access token, read back. -/
theorem parseJson_access (hmobile : isValidMobile user.mobile = .ok ()) (huuid : IsUuidText user.uuid)
    (hi : survives config.jwtIssuer = true) :
    parseJson (buildJson (accessClaims config issued jti user)) = accessClaims config issued jti user := by
  rw [accessClaims_eq, parseJson_payload (sound_access config issued hmobile huuid) hi]
  rfl

theorem parseJson_refresh (hi : survives config.jwtIssuer = true) :
    parseJson (buildJson (refreshClaims config issued jti user)) =
      refreshClaims config issued jti user := by
  rw [refreshClaims_eq, parseJson_payload (sound_refresh config issued user) hi]
  rfl

/-- The expiry second of an instant of the clock is an `int64`. -/
theorem isInt64_exp {issued : Nat} (hclock : IsInt64 issued) (ttl : Int32) :
    IsInt64 (toTimeT (addSeconds issued ttl) : Nat) := by
  have hlt : ttl.toInt < 2 ^ 31 := Int32.toInt_lt ttl
  unfold IsInt64 toTimeT addSeconds nanosPerSecond at *
  omega

/-- An access token whose issuer survives is accepted up to its expiry second, with the user it was
made for. -/
theorem verifyAccessToken_generateAccessToken {now : Nat}
    (hmobile : isValidMobile user.mobile = .ok ()) (huuid : IsUuidText user.uuid)
    (hid : IsInt64 user.id) (hi : survives config.jwtIssuer = true) (hclock : IsInt64 issued)
    (hle : (now : Int) ≤ fromTimeT (toTimeT (addSeconds issued config.accessTokenTtlSeconds) : Nat)) :
    verifyAccessToken crypto config now (generateAccessToken crypto config issued jti user) =
      .ok {
        userId := user.id
        userUuid := user.uuid
        mobile := user.mobile
        role := user.role
        expiresAt := fromTimeT (toTimeT (addSeconds issued config.accessTokenTtlSeconds) : Nat) } := by
  have hread := parseJson_access issued jti hmobile huuid hi
  have hexp := isInt64_exp hclock config.accessTokenTtlSeconds
  have hfind : (accessClaims config issued jti user).find (ascii "exp") =
      some (toString (toTimeT (addSeconds issued config.accessTokenTtlSeconds) : Nat)) := rfl
  have hiss : (accessClaims config issued jti user).find (ascii "iss") = some config.jwtIssuer := rfl
  have hsub : (accessClaims config issued jti user).find (ascii "sub") = some (ascii "access") := rfl
  have hidf : (accessClaims config issued jti user).find (ascii "id") = some (toString user.id) := rfl
  have huid : (accessClaims config issued jti user).find (ascii "uid") = some user.uuid := rfl
  have hmob : (accessClaims config issued jti user).find (ascii "mobile") = some user.mobile := rfl
  have hrole : (accessClaims config issued jti user).find (ascii "role") =
      some (userRoleToString user.role) := rfl
  have hidne : toString user.id ≠ [] := intText_ne_nil user.id
  have huuidne : user.uuid ≠ [] := by
    intro h
    have := huuid.1
    rw [h] at this
    cases this
  have hrolene : userRoleToString user.role ≠ [] := by cases user.role <;> decide
  rw [generateAccessToken, verifyAccessToken, if_neg (createJwt_ne_nil crypto _ _), verifyJwt_createJwt,
    hread, checkExp_of_le hexp hfind hle]
  simp only [hiss, hsub, hidf, huid, hmob, hrole, hfind, Option.any_some, ne_eq, not_true_eq_false,
    decide_false, Bool.false_eq_true, if_false, Option.getD_some, hidne, huuidne, hrolene,
    stoll_toString hid, stoll_toString hexp, stringToUserRole_userRoleToString]
  rw [Option.map_some, Option.getD_some]

/-- A refresh token whose issuer survives is accepted up to its expiry second, with the id of its
user. -/
theorem parseRefreshToken_generateRefreshToken {now : Nat} (hi : survives config.jwtIssuer = true)
    (hclock : IsInt64 issued)
    (hle : (now : Int) ≤ fromTimeT (toTimeT (addSeconds issued config.refreshTokenTtlSeconds) : Nat)) :
    parseRefreshToken crypto config now (generateRefreshToken crypto config issued jti user) =
      .ok (toString user.id) := by
  have hread : parseJson (buildJson (refreshClaims config issued jti user)) =
      refreshClaims config issued jti user := parseJson_refresh issued jti hi
  have hexp := isInt64_exp hclock config.refreshTokenTtlSeconds
  have hfind : (refreshClaims config issued jti user).find (ascii "exp") =
      some (toString (toTimeT (addSeconds issued config.refreshTokenTtlSeconds) : Nat)) := rfl
  have hiss : (refreshClaims config issued jti user).find (ascii "iss") = some config.jwtIssuer := rfl
  have hsub : (refreshClaims config issued jti user).find (ascii "sub") = some (ascii "refresh") := rfl
  have huid : (refreshClaims config issued jti user).find (ascii "uid") = some (toString user.id) := rfl
  have hidne : toString user.id ≠ [] := intText_ne_nil user.id
  rw [generateRefreshToken, parseRefreshToken, if_neg (createJwt_ne_nil crypto _ _),
    verifyJwt_createJwt, hread, checkExp_of_le hexp hfind hle]
  simp only [hiss, hsub, huid, Option.any_some, ne_eq, not_true_eq_false, decide_false,
    Bool.false_eq_true, if_false, hidne, not_false_eq_true, if_true]

/-- An access token whose issuer does not survive is refused. -/
theorem verifyAccessToken_of_not_survives (hmobile : isValidMobile user.mobile = .ok ())
    (huuid : IsUuidText user.uuid) (hi : survives config.jwtIssuer = false) (p : AccessTokenPayload) :
    verifyAccessToken crypto config now (generateAccessToken crypto config issued jti user) ≠ .ok p := by
  intro h
  obtain ⟨hiss, -⟩ := verifyAccessToken_createJwt crypto config now h
  obtain ⟨other, hfind, hne⟩ :=
    find_iss_of_not_survives (sound_access config issued hmobile huuid) hi jti
  rw [← accessClaims_eq] at hfind
  exact hne (hiss other hfind)

end Verifiers

/-- **Round trip.** For a user with a valid mobile and a generated uuid, tokens verified up to their
expiry second come back with what they were made from exactly when the issuer survives the JSON writer
and reader. -/
theorem token_round_trip_iff (crypto : Crypto) (config : Config) (user : UserEntity)
    (accessJti refreshJti : Jti) (issuedAccess issuedRefresh nowAccess nowRefresh : Nat)
    (hmobile : isValidMobile user.mobile = .ok ()) (huuid : IsUuidText user.uuid)
    (hid : IsInt64 user.id) (hclockAccess : IsInt64 issuedAccess) (hclockRefresh : IsInt64 issuedRefresh)
    (haccess : (nowAccess : Int) ≤
      fromTimeT (toTimeT (addSeconds issuedAccess config.security.accessTokenTtlSeconds) : Nat))
    (hrefresh : (nowRefresh : Int) ≤
      fromTimeT (toTimeT (addSeconds issuedRefresh config.security.refreshTokenTtlSeconds) : Nat)) :
    ((∃ p, verifyAccessToken crypto config.security nowAccess
          (generateAccessToken crypto config.security issuedAccess accessJti user) = .ok p ∧
        p.userId = user.id ∧ p.userUuid = user.uuid ∧ p.mobile = user.mobile ∧ p.role = user.role) ∧
      parseRefreshToken crypto config.security nowRefresh
        (generateRefreshToken crypto config.security issuedRefresh refreshJti user) =
          .ok (toString user.id)) ↔
    survives config.security.jwtIssuer = true := by
  constructor
  · rintro ⟨⟨p, hp, -⟩, -⟩
    by_contra hi
    rw [Bool.not_eq_true] at hi
    exact verifyAccessToken_of_not_survives crypto nowAccess issuedAccess accessJti hmobile huuid hi p hp
  · intro hi
    refine ⟨⟨_, verifyAccessToken_generateAccessToken crypto issuedAccess accessJti hmobile huuid hid hi
      hclockAccess haccess, rfl, rfl, rfl, rfl⟩, ?_⟩
    exact parseRefreshToken_generateRefreshToken crypto issuedRefresh refreshJti hi hclockRefresh hrefresh

/-- A user as `Register` creates one. -/
def sampleUser : UserEntity where
  id := 1
  uuid := ascii "550e8400-e29b-41d4-a716-446655440000"
  mobile := ascii "13800138000"

def sampleJti : Jti := ⟨582943, by decide⟩

theorem token_round_trip_default :
    ((∃ p, verifyAccessToken .openssl ({} : Config).security 1700000000000000000
          (generateAccessToken .openssl ({} : Config).security 1700000000000000000 sampleJti
            sampleUser) = .ok p ∧
        p.userId = sampleUser.id ∧ p.userUuid = sampleUser.uuid ∧ p.mobile = sampleUser.mobile ∧
          p.role = sampleUser.role) ∧
      parseRefreshToken .openssl ({} : Config).security 1700000000000000000
        (generateRefreshToken .openssl ({} : Config).security 1700000000000000000 sampleJti
          sampleUser) = .ok (toString sampleUser.id)) ↔
    survives ({} : Config).security.jwtIssuer = true :=
  token_round_trip_iff .openssl {} sampleUser sampleJti sampleJti 1700000000000000000
    1700000000000000000 1700000000000000000 1700000000000000000 (by decide) (by decide +kernel)
    (by decide) (by decide) (by decide) (by decide) (by decide)

/-- A configuration whose issuer starts with a digit and holds a comma. -/
def bareIssuerConfig : Config := { security := { jwtIssuer := ascii "1,2" } }

/-- The configuration is admitted, and the token is refused at the instant it was issued. -/
theorem token_round_trip_bare_issuer :
    bareIssuerConfig.Admitted ∧ isValidMobile sampleUser.mobile = .ok () ∧ IsUuidText sampleUser.uuid ∧
      IsInt64 sampleUser.id ∧
      ¬∃ p, verifyAccessToken .openssl bareIssuerConfig.security 1700000000000000000
        (generateAccessToken .openssl bareIssuerConfig.security 1700000000000000000 sampleJti
          sampleUser) = .ok p := by
  refine ⟨by decide +kernel, by decide, by decide +kernel, by decide, ?_⟩
  rintro ⟨p, hp⟩
  have hfail : (verifyAccessToken .openssl bareIssuerConfig.security 1700000000000000000
      (generateAccessToken .openssl bareIssuerConfig.security 1700000000000000000 sampleJti
        sampleUser)).isOk = false := by decide +kernel
  rw [hp] at hfail
  cases hfail

/-- **Types never mix.** Whatever the issuer, at any time: the verifier of access tokens refuses every
refresh token, the parser of refresh tokens refuses every access token, and on an issued token it
accepts, the parser returns the decimal text of the user's id. -/
theorem token_types_never_mix (crypto : Crypto) (config : Config) (user : UserEntity)
    (hmobile : isValidMobile user.mobile = .ok ()) (huuid : IsUuidText user.uuid)
    (hid : IsInt64 user.id) (issued now : Nat) (jti : Jti) :
    (∀ p, verifyAccessToken crypto config.security now
        (generateRefreshToken crypto config.security issued jti user) ≠ .ok p) ∧
      (∀ v, parseRefreshToken crypto config.security now
        (generateAccessToken crypto config.security issued jti user) ≠ .ok v) ∧
      (∀ token v, token = generateAccessToken crypto config.security issued jti user ∨
          token = generateRefreshToken crypto config.security issued jti user →
        parseRefreshToken crypto config.security now token = .ok v →
          v = toString user.id ∧ stoll v = some user.id) := by
  have haccess : ∀ v, parseRefreshToken crypto config.security now
      (generateAccessToken crypto config.security issued jti user) ≠ .ok v := by
    intro v hv
    obtain ⟨hiss, hsub, -⟩ := parseRefreshToken_createJwt crypto config.security now hv
    cases hi : survives config.security.jwtIssuer with
    | false =>
        obtain ⟨other, hfind, hne⟩ :=
          find_iss_of_not_survives (sound_access config.security issued hmobile huuid) hi jti
        rw [← accessClaims_eq] at hfind
        exact hne (hiss other hfind)
    | true =>
        rw [parseJson_access issued jti hmobile huuid hi] at hsub
        exact absurd (hsub (ascii "access") rfl) (by decide)
  refine ⟨fun p hp => ?_, haccess, ?_⟩
  · obtain ⟨hiss, hsub⟩ := verifyAccessToken_createJwt crypto config.security now hp
    cases hi : survives config.security.jwtIssuer with
    | false =>
        obtain ⟨other, hfind, hne⟩ :=
          find_iss_of_not_survives (sound_refresh config.security issued user) hi jti
        rw [← refreshClaims_eq] at hfind
        exact hne (hiss other hfind)
    | true =>
        rw [parseJson_refresh issued jti hi] at hsub
        exact absurd (hsub (ascii "refresh") rfl) (by decide)
  · rintro token v (rfl | rfl) hv
    · exact absurd hv (haccess v)
    · obtain ⟨hiss, -, huid⟩ := parseRefreshToken_createJwt crypto config.security now hv
      cases hi : survives config.security.jwtIssuer with
      | false =>
          obtain ⟨other, hfind, hne⟩ :=
            find_iss_of_not_survives (sound_refresh config.security issued user) hi jti
          rw [← refreshClaims_eq] at hfind
          exact absurd (hiss other hfind) hne
      | true =>
          rw [parseJson_refresh issued jti hi] at huid
          have hv' : v = toString user.id := (Option.some.inj huid).symm
          exact ⟨hv', hv' ▸ stoll_toString hid⟩

theorem token_types_never_mix_sample :
    (∀ p, verifyAccessToken .openssl ({} : Config).security 1700000000000000000
        (generateRefreshToken .openssl ({} : Config).security 1700000000000000000 sampleJti
          sampleUser) ≠ .ok p) ∧
      (∀ v, parseRefreshToken .openssl ({} : Config).security 1700000000000000000
        (generateAccessToken .openssl ({} : Config).security 1700000000000000000 sampleJti
          sampleUser) ≠ .ok v) ∧
      (∀ token v,
        token = generateAccessToken .openssl ({} : Config).security 1700000000000000000 sampleJti
            sampleUser ∨
          token = generateRefreshToken .openssl ({} : Config).security 1700000000000000000
            sampleJti sampleUser →
        parseRefreshToken .openssl ({} : Config).security 1700000000000000000 token = .ok v →
          v = toString sampleUser.id ∧ stoll v = some sampleUser.id) :=
  token_types_never_mix .openssl {} sampleUser (by decide) (by decide +kernel)
    (by decide) 1700000000000000000 1700000000000000000 sampleJti

end AccountService
