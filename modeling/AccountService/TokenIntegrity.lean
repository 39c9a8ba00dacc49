import AccountService.RepositorySpec
import AccountService.TokenRoundTrip

/-! What an accepted token has passed: the text of a token is determined by what is signed, and what the
two verifiers have found in the payload. -/

namespace AccountService

open Interaction

/-- `VerifyJwt` succeeds at some time. -/
def JwtAccepted (crypto : Crypto) (secret s : Bytes) : Prop :=
  ∃ now claims, verifyJwt crypto now s secret = .ok claims

/-- The text up to the second dot. -/
def upToSecondDot (s : Bytes) : Bytes :=
  match cutAtDot s with
  | none => s
  | some (header, afterHeader) =>
      match cutAtDot afterHeader with
      | none => s
      | some (payload, _) => header ++ [dot] ++ payload

/-- A signed text with its signature. -/
def withSignature (crypto : Crypto) (secret text : Bytes) : Bytes :=
  text ++ [dot] ++ base64UrlEncode (crypto.hmacSha256 secret text)

/-- The payload signed in a string. -/
def signedPayload (crypto : Crypto) (secret s : Bytes) : Option Claims :=
  match cutAtDot s with
  | none => none
  | some (header, afterHeader) =>
      match cutAtDot afterHeader with
      | none => none
      | some (payload, signature) =>
          if signature = base64UrlEncode (crypto.hmacSha256 secret (header ++ [dot] ++ payload)) then
            some (parseJson (base64UrlDecode payload))
          else none

theorem cutAtDot_some {s a b : Bytes} (h : cutAtDot s = some (a, b)) : s = a ++ dot :: b ∧ dot ∉ a := by
  induction s generalizing a with
  | nil => cases h
  | cons c rest ih =>
      rw [cutAtDot] at h
      by_cases hc : c = dot
      · rw [if_pos hc] at h
        cases h
        exact ⟨by rw [hc, List.nil_append], List.not_mem_nil⟩
      · rw [if_neg hc] at h
        obtain ⟨⟨a', b'⟩, hcut, heq⟩ := Option.map_eq_some_iff.mp h
        cases heq
        obtain ⟨hrest, hdot⟩ := ih hcut
        refine ⟨by rw [hrest, List.cons_append], ?_⟩
        rw [List.mem_cons, not_or]
        exact ⟨Ne.symm hc, hdot⟩

/-- `VerifyJwt` reads the signed payload and checks its expiry. -/
theorem verifyJwt_eq (crypto : Crypto) (now : Nat) (s secret : Bytes) :
    verifyJwt crypto now s secret =
      match signedPayload crypto secret s with
      | none => .error .tokenInvalid
      | some claims => checkExp now claims := by
  unfold verifyJwt signedPayload
  cases cutAtDot s with
  | none => rfl
  | some cut =>
      simp only
      cases cutAtDot cut.2 with
      | none => rfl
      | some cut' =>
          simp only
          by_cases hsignature : cut'.2 =
              base64UrlEncode (crypto.hmacSha256 secret (cut.1 ++ [dot] ++ cut'.1))
          · rw [if_neg (not_not.mpr hsignature), if_pos hsignature]
            rfl
          · rw [if_pos hsignature, if_neg hsignature]

/-- The parts of a string that carries a signature. -/
theorem signedPayload_some {crypto : Crypto} {secret s : Bytes} {claims : Claims}
    (h : signedPayload crypto secret s = some claims) :
    ∃ header payload, dot ∉ header ∧ dot ∉ payload ∧ upToSecondDot s = header ++ [dot] ++ payload ∧
      s = withSignature crypto secret (header ++ [dot] ++ payload) := by
  unfold signedPayload at h
  cases hcut : cutAtDot s with
  | none =>
      rw [hcut] at h
      cases h
  | some cut =>
      obtain ⟨header, afterHeader⟩ := cut
      simp only [hcut] at h
      cases hcut' : cutAtDot afterHeader with
      | none =>
          rw [hcut'] at h
          cases h
      | some cut' =>
          obtain ⟨payload, signature⟩ := cut'
          simp only [hcut'] at h
          split at h
          · rename_i hsignature
            obtain ⟨hs, hheader⟩ := cutAtDot_some hcut
            obtain ⟨hafter, hpayload⟩ := cutAtDot_some hcut'
            refine ⟨header, payload, hheader, hpayload, ?_, ?_⟩
            · simp only [upToSecondDot, hcut, hcut']
            · rw [hs, hafter, hsignature]
              simp [withSignature]
          · cases h

theorem signedPayload_of_accepted {crypto : Crypto} {secret s : Bytes} (h : JwtAccepted crypto secret s) :
    ∃ claims, signedPayload crypto secret s = some claims := by
  obtain ⟨now, claims, hverify⟩ := h
  rw [verifyJwt_eq] at hverify
  cases hpayload : signedPayload crypto secret s with
  | none =>
      rw [hpayload] at hverify
      cases hverify
  | some claims => exact ⟨claims, rfl⟩

/-- What is accepted is the text up to its second dot with the signature of that text. -/
theorem accepted_eq_withSignature {crypto : Crypto} {secret s : Bytes} (h : JwtAccepted crypto secret s) :
    s = withSignature crypto secret (upToSecondDot s) := by
  obtain ⟨claims, hpayload⟩ := signedPayload_of_accepted h
  obtain ⟨header, payload, -, -, htext, hs⟩ := signedPayload_some hpayload
  rw [htext]
  exact hs

theorem count_dot_accepted {crypto : Crypto} {secret s : Bytes} (h : JwtAccepted crypto secret s) :
    s.count dot = 2 := by
  obtain ⟨claims, hpayload⟩ := signedPayload_of_accepted h
  obtain ⟨header, payload, hheader, hdots, -, hs⟩ := signedPayload_some hpayload
  rw [hs, withSignature]
  simp only [List.count_append, List.count_singleton_self, List.count_eq_zero_of_not_mem hheader,
    List.count_eq_zero_of_not_mem hdots,
    List.count_eq_zero_of_not_mem (dot_notMem_base64UrlEncode (crypto.hmacSha256 secret _))]

/-- A token that the service makes has the same form. -/
theorem createJwt_eq_withSignature (crypto : Crypto) (claims : Claims) (secret : Bytes) :
    createJwt crypto claims secret = withSignature crypto secret (upToSecondDot (createJwt crypto claims secret)) := by
  have hform : createJwt crypto claims secret = withSignature crypto secret
      (base64UrlEncode jwtHeader ++ [dot] ++ base64UrlEncode (buildJson claims)) := by
    simp [createJwt, withSignature]
  have htext : upToSecondDot (createJwt crypto claims secret) =
      base64UrlEncode jwtHeader ++ [dot] ++ base64UrlEncode (buildJson claims) := by
    have hsplit : createJwt crypto claims secret = base64UrlEncode jwtHeader ++ dot ::
        (base64UrlEncode (buildJson claims) ++ dot :: base64UrlEncode (crypto.hmacSha256 secret
          (base64UrlEncode jwtHeader ++ [dot] ++ base64UrlEncode (buildJson claims)))) := by
      simp [createJwt]
    rw [hsplit, upToSecondDot, cutAtDot_append (dot_notMem_base64UrlEncode jwtHeader)]
    simp only [cutAtDot_append (dot_notMem_base64UrlEncode (buildJson claims))]
  rw [htext]
  exact hform

/-- After the session of a token is deleted, the check of the token fails. -/
theorem run_isTokenValid_deleted (hash : Bytes) {w : World} (hw : w.sqlFaults = []) :
    (Program.run exec (do
      let _ ← TokenRepository.deleteByTokenHash hash
      TokenRepository.isTokenValid hash) w).1 = .ok false := by
  obtain ⟨clock, redis, db, redisFaults, sqlFaults⟩ := w
  cases hw
  have hany : ((db.sessions.filter (·.tokenHash ≠ hash)).any fun r =>
      r.tokenHash = hash ∧ toTimeT clock < r.expiresAt) = false := by
    rw [List.any_eq_false]
    intro r hr hvalid
    have hne := (List.mem_filter.mp hr).2
    simp only [decide_eq_true_eq] at hne hvalid
    exact hne hvalid.1
  show Result.ofSql (.ok ((db.sessions.filter (·.tokenHash ≠ hash)).any fun r =>
    r.tokenHash = hash ∧ toTimeT clock < r.expiresAt)) = .ok false
  rw [hany]
  rfl

/-- **Tokens are not malleable.** An accepted string has two dots and is determined by its text up to the
second one. A string that is accepted with the header and the payload of a token of the service is that
token, so that the deletion of the token's session ends it. -/
theorem tokens_not_malleable (crypto : Crypto) (secret : Bytes) :
    (∀ s, JwtAccepted crypto secret s → s.count dot = 2) ∧
      (∀ s s', JwtAccepted crypto secret s → JwtAccepted crypto secret s' →
        upToSecondDot s = upToSecondDot s' → s = s') ∧
      ∀ claims s, JwtAccepted crypto secret s →
        upToSecondDot s = upToSecondDot (createJwt crypto claims secret) →
          s = createJwt crypto claims secret ∧
            ∀ w : World, w.sqlFaults = [] → (Program.run exec (do
              let _ ← TokenRepository.deleteByTokenHash
                (hashToken crypto (createJwt crypto claims secret))
              TokenRepository.isTokenValid (hashToken crypto s)) w).1 = .ok false := by
  refine ⟨fun s h => count_dot_accepted h, ?_, ?_⟩
  · intro s s' h h' htext
    rw [accepted_eq_withSignature h, htext, ← accepted_eq_withSignature h']
  · intro claims s h htext
    have heq : s = createJwt crypto claims secret := by
      rw [accepted_eq_withSignature h, htext, ← createJwt_eq_withSignature]
    refine ⟨heq, fun w hw => ?_⟩
    rw [← heq]
    exact run_isTokenValid_deleted _ hw

/-- A token of the default configuration. -/
def sampleToken : Bytes :=
  generateRefreshToken .openssl ({} : Config).security 1700000000000000000 sampleJti sampleUser

theorem tokens_not_malleable_sample :
    JwtAccepted .openssl ({} : Config).security.jwtSecret sampleToken ∧ sampleToken.count dot = 2 ∧
      ∀ s, JwtAccepted .openssl ({} : Config).security.jwtSecret s →
        upToSecondDot s = upToSecondDot sampleToken → s = sampleToken := by
  have hok : (verifyJwt .openssl 1700000000000000000 sampleToken
      ({} : Config).security.jwtSecret).isOk = true := by
    decide +kernel
  have haccepted : JwtAccepted .openssl ({} : Config).security.jwtSecret sampleToken := by
    cases h : verifyJwt .openssl 1700000000000000000 sampleToken ({} : Config).security.jwtSecret with
    | error code =>
        rw [h] at hok
        cases hok
    | ok claims => exact ⟨_, claims, h⟩
  obtain ⟨hdots, hunique, -⟩ := tokens_not_malleable .openssl ({} : Config).security.jwtSecret
  exact ⟨haccepted, hdots _ haccepted, fun s h htext => hunique s _ h haccepted htext⟩

/-- The payload names the issuer, the kind of the token, and an expiry that is not before `now`. -/
structure ClaimsRight (issuer kind : Bytes) (now : Nat) (claims : Claims) : Prop where
  iss : claims.find (ascii "iss") = some issuer
  sub : claims.find (ascii "sub") = some kind
  exp : ∃ text e, claims.find (ascii "exp") = some text ∧ stoll text = some e ∧
    (now : Int) ≤ e * nanosPerSecond

/-- Verification fails closed on the string. -/
structure FailsClosed (crypto : Crypto) (config : SecurityConfig) (s : Bytes) : Prop where
  access : ∀ now : Nat, IsInt64 now → (verifyAccessToken crypto config now s).isOk = true →
    ∃ claims, signedPayload crypto config.jwtSecret s = some claims ∧
      ClaimsRight config.jwtIssuer (ascii "access") now claims
  refresh : ∀ now : Nat, IsInt64 now → (parseRefreshToken crypto config now s).isOk = true →
    ∃ claims, signedPayload crypto config.jwtSecret s = some claims ∧
      ClaimsRight config.jwtIssuer (ascii "refresh") now claims
  separate : ∀ now now' : Nat, IsInt64 now → IsInt64 now' →
    ¬((verifyAccessToken crypto config now s).isOk = true ∧
      (parseRefreshToken crypto config now' s).isOk = true)

/-- The claims that the payload has are right. -/
structure PresentRight (issuer kind : Bytes) (now : Nat) (claims : Claims) : Prop where
  iss : ∀ iss, claims.find (ascii "iss") = some iss → iss = issuer
  sub : ∀ sub, claims.find (ascii "sub") = some sub → sub = kind
  exp : ∀ text, claims.find (ascii "exp") = some text → ∃ e, stoll text = some e ∧ (now : Int) ≤ fromTimeT e

/-- The other claims that `VerifyAccessToken` asks for. -/
structure AccessFields (claims : Claims) : Prop where
  id : ((claims.find (ascii "id")).bind stoll).isSome = true
  uid : (claims.find (ascii "uid")).getD [] ≠ []
  role : (claims.find (ascii "role")).getD [] ≠ []

/-- The other claim that `ParseRefreshToken` asks for. -/
def RefreshFields (claims : Claims) : Prop := (claims.find (ascii "uid")).getD [] ≠ []

/-- The payload has the three claims, and its expiry is not before the range of `system_clock`. -/
structure ClaimsComplete (claims : Claims) : Prop where
  iss : (claims.find (ascii "iss")).isSome = true
  sub : (claims.find (ascii "sub")).isSome = true
  exp : ∃ text e, claims.find (ascii "exp") = some text ∧ stoll text = some e ∧ -2 ^ 63 ≤ e * nanosPerSecond

theorem checkExp_ok_iff {now : Nat} {claims : Claims} :
    checkExp now claims = .ok claims ↔
      ∀ text, claims.find (ascii "exp") = some text → ∃ e, stoll text = some e ∧ (now : Int) ≤ fromTimeT e := by
  unfold checkExp
  cases hfind : claims.find (ascii "exp") with
  | none => simp
  | some text =>
      simp only [Option.some.injEq, forall_eq']
      cases hexp : stoll text with
      | none => simp
      | some e =>
          simp only [Option.some.injEq, exists_eq_left']
          by_cases hlt : fromTimeT e < now
          · rw [if_pos hlt]
            simp only [reduceCtorEq, false_iff, not_le]
            exact hlt
          · rw [if_neg hlt]
            simpa using hlt

theorem stoll_nil : stoll [] = none := by decide

theorem checkExp_cases (now : Nat) (claims : Claims) :
    checkExp now claims = .ok claims ∨ ∃ code, checkExp now claims = .error code := by
  cases h : checkExp now claims with
  | error code => exact Or.inr ⟨code, rfl⟩
  | ok result => exact Or.inl (by rw [checkExp_ok h])

theorem bind_stoll_getD (o : Option Bytes) : o.bind stoll = stoll (o.getD []) := by
  cases o with
  | none => exact stoll_nil.symm
  | some text => rfl

theorem any_ne_eq_false_iff {o : Option Bytes} {x : Bytes} :
    ¬o.any (· ≠ x) = true ↔ ∀ y, o = some y → y = x := by
  cases o with
  | none => simp
  | some y => simp

section Verifiers

variable {crypto : Crypto} {config : SecurityConfig} {now : Nat} {s : Bytes}

/-- What `VerifyAccessToken` accepts. -/
theorem verifyAccessToken_isOk_iff :
    (verifyAccessToken crypto config now s).isOk = true ↔
      ∃ claims, signedPayload crypto config.jwtSecret s = some claims ∧
        PresentRight config.jwtIssuer (ascii "access") now claims ∧ AccessFields claims := by
  unfold verifyAccessToken
  by_cases hs : s = []
  · subst hs
    rw [if_pos rfl]
    refine iff_of_false Bool.false_ne_true ?_
    rintro ⟨claims, h, -⟩
    cases h
  · rw [if_neg hs, verifyJwt_eq]
    cases hp : signedPayload crypto config.jwtSecret s with
    | none => simp [Result.failCode]
    | some claims =>
        simp only [Option.some.injEq, exists_eq_left']
        rcases checkExp_cases now claims with hexp | ⟨code, hexp⟩
        · rw [hexp]
          simp only
          by_cases hiss : (claims.find (ascii "iss")).any (· ≠ config.jwtIssuer) = true
          · rw [if_pos hiss]
            exact iff_of_false Bool.false_ne_true fun h => absurd hiss (any_ne_eq_false_iff.mpr h.1.iss)
          rw [if_neg hiss]
          by_cases hsub : (claims.find (ascii "sub")).any (· ≠ ascii "access") = true
          · rw [if_pos hsub]
            exact iff_of_false Bool.false_ne_true fun h => absurd hsub (any_ne_eq_false_iff.mpr h.1.sub)
          rw [if_neg hsub]
          have hpresent : PresentRight config.jwtIssuer (ascii "access") now claims :=
            ⟨any_ne_eq_false_iff.mp hiss, any_ne_eq_false_iff.mp hsub, checkExp_ok_iff.mp hexp⟩
          by_cases hid : (claims.find (ascii "id")).getD [] = []
          · rw [if_pos hid]
            refine iff_of_false Bool.false_ne_true fun h => ?_
            have hsome := h.2.id
            rw [bind_stoll_getD, hid, stoll_nil] at hsome
            cases hsome
          rw [if_neg hid]
          by_cases huid : (claims.find (ascii "uid")).getD [] = []
          · rw [if_pos huid]
            exact iff_of_false Bool.false_ne_true fun h => absurd huid h.2.uid
          rw [if_neg huid]
          by_cases hrole : (claims.find (ascii "role")).getD [] = []
          · rw [if_pos hrole]
            exact iff_of_false Bool.false_ne_true fun h => absurd hrole h.2.role
          rw [if_neg hrole]
          cases hstoll : stoll ((claims.find (ascii "id")).getD []) with
          | none =>
              refine iff_of_false Bool.false_ne_true fun h => ?_
              have hsome := h.2.id
              rw [bind_stoll_getD, hstoll] at hsome
              cases hsome
          | some id =>
              refine ⟨fun _ => ⟨hpresent, ?_, huid, hrole⟩, fun _ => rfl⟩
              rw [bind_stoll_getD, hstoll]
              rfl
        · rw [hexp]
          refine iff_of_false Bool.false_ne_true fun h => ?_
          rw [checkExp_ok_iff.mpr h.1.exp] at hexp
          cases hexp

/-- What `ParseRefreshToken` accepts. -/
theorem parseRefreshToken_isOk_iff :
    (parseRefreshToken crypto config now s).isOk = true ↔
      ∃ claims, signedPayload crypto config.jwtSecret s = some claims ∧
        PresentRight config.jwtIssuer (ascii "refresh") now claims ∧ RefreshFields claims := by
  unfold parseRefreshToken
  by_cases hs : s = []
  · subst hs
    rw [if_pos rfl]
    refine iff_of_false Bool.false_ne_true ?_
    rintro ⟨claims, h, -⟩
    cases h
  · rw [if_neg hs, verifyJwt_eq]
    cases hp : signedPayload crypto config.jwtSecret s with
    | none => simp [Result.failCode]
    | some claims =>
        simp only [Option.some.injEq, exists_eq_left']
        rcases checkExp_cases now claims with hexp | ⟨code, hexp⟩
        · rw [hexp]
          simp only
          by_cases hiss : (claims.find (ascii "iss")).any (· ≠ config.jwtIssuer) = true
          · rw [if_pos hiss]
            exact iff_of_false Bool.false_ne_true fun h => absurd hiss (any_ne_eq_false_iff.mpr h.1.iss)
          rw [if_neg hiss]
          by_cases hsub : (claims.find (ascii "sub")).any (· ≠ ascii "refresh") = true
          · rw [if_pos hsub]
            exact iff_of_false Bool.false_ne_true fun h => absurd hsub (any_ne_eq_false_iff.mpr h.1.sub)
          rw [if_neg hsub]
          have hpresent : PresentRight config.jwtIssuer (ascii "refresh") now claims :=
            ⟨any_ne_eq_false_iff.mp hiss, any_ne_eq_false_iff.mp hsub, checkExp_ok_iff.mp hexp⟩
          cases huid : claims.find (ascii "uid") with
          | none =>
              refine iff_of_false Bool.false_ne_true fun h => ?_
              have hfield := h.2
              rw [RefreshFields, huid] at hfield
              exact absurd rfl hfield
          | some uid =>
              simp only [RefreshFields, huid, Option.getD_some]
              by_cases hempty : uid = []
              · rw [if_neg (not_not.mpr hempty)]
                exact iff_of_false Bool.false_ne_true fun h => absurd hempty h.2
              · rw [if_pos hempty]
                exact ⟨fun _ => ⟨hpresent, hempty⟩, fun _ => rfl⟩
        · rw [hexp]
          refine iff_of_false Bool.false_ne_true fun h => ?_
          rw [checkExp_ok_iff.mpr h.1.exp] at hexp
          cases hexp

end Verifiers

/-- The exact condition: every payload that the verifiers would not refuse for the claims it has, has all
three of them. -/
def MissingRefused (crypto : Crypto) (config : SecurityConfig) (s : Bytes) : Prop :=
  ∀ claims, signedPayload crypto config.jwtSecret s = some claims → ∀ now : Nat, IsInt64 now →
    (PresentRight config.jwtIssuer (ascii "access") now claims ∧ AccessFields claims ∨
      PresentRight config.jwtIssuer (ascii "refresh") now claims ∧ RefreshFields claims) →
    ClaimsComplete claims

theorem claimsRight_of_complete {issuer kind : Bytes} {now : Nat} (hnow : IsInt64 now) {claims : Claims}
    (h : PresentRight issuer kind now claims) (hc : ClaimsComplete claims) :
    ClaimsRight issuer kind now claims := by
  obtain ⟨iss, hiss⟩ := Option.isSome_iff_exists.mp hc.iss
  obtain ⟨sub, hsub⟩ := Option.isSome_iff_exists.mp hc.sub
  obtain ⟨text, e, hexp, he, hlow⟩ := hc.exp
  refine ⟨hiss.trans (congrArg some (h.iss iss hiss)), hsub.trans (congrArg some (h.sub sub hsub)), text, e,
    hexp, he, ?_⟩
  obtain ⟨e', he', hle⟩ := h.exp text hexp
  rw [he] at he'
  cases he'
  by_cases hhigh : e * nanosPerSecond < 2 ^ 63
  · rwa [fromTimeT, Int.bmod_eq_of_le (by omega) (by omega)] at hle
  · have := hnow.2
    omega

theorem complete_of_claimsRight {issuer kind : Bytes} {now : Nat} {claims : Claims}
    (h : ClaimsRight issuer kind now claims) : ClaimsComplete claims := by
  obtain ⟨text, e, hexp, he, hle⟩ := h.exp
  exact ⟨by rw [h.iss]; rfl, by rw [h.sub]; rfl, text, e, hexp, he, by omega⟩

/-- **Fails closed.** Verification of a string fails closed exactly when a payload with right claims is not
accepted unless it has all of them. -/
theorem verification_fails_closed_iff (crypto : Crypto) (config : SecurityConfig) (s : Bytes) :
    FailsClosed crypto config s ↔ MissingRefused crypto config s := by
  constructor
  · rintro h claims hpayload now hnow (haccess | hrefresh)
    · obtain ⟨claims', hpayload', hright⟩ :=
        h.access now hnow (verifyAccessToken_isOk_iff.mpr ⟨claims, hpayload, haccess⟩)
      rw [hpayload] at hpayload'
      cases hpayload'
      exact complete_of_claimsRight hright
    · obtain ⟨claims', hpayload', hright⟩ :=
        h.refresh now hnow (parseRefreshToken_isOk_iff.mpr ⟨claims, hpayload, hrefresh⟩)
      rw [hpayload] at hpayload'
      cases hpayload'
      exact complete_of_claimsRight hright
  · intro h
    have haccess : ∀ now : Nat, IsInt64 now → (verifyAccessToken crypto config now s).isOk = true →
        ∃ claims, signedPayload crypto config.jwtSecret s = some claims ∧
          ClaimsRight config.jwtIssuer (ascii "access") now claims := by
      intro now hnow hok
      obtain ⟨claims, hpayload, hright, hfields⟩ := verifyAccessToken_isOk_iff.mp hok
      exact ⟨claims, hpayload,
        claimsRight_of_complete hnow hright (h claims hpayload now hnow (Or.inl ⟨hright, hfields⟩))⟩
    have hrefresh : ∀ now : Nat, IsInt64 now → (parseRefreshToken crypto config now s).isOk = true →
        ∃ claims, signedPayload crypto config.jwtSecret s = some claims ∧
          ClaimsRight config.jwtIssuer (ascii "refresh") now claims := by
      intro now hnow hok
      obtain ⟨claims, hpayload, hright, hfields⟩ := parseRefreshToken_isOk_iff.mp hok
      exact ⟨claims, hpayload,
        claimsRight_of_complete hnow hright (h claims hpayload now hnow (Or.inr ⟨hright, hfields⟩))⟩
    refine ⟨haccess, hrefresh, fun now now' hnow hnow' hboth => ?_⟩
    obtain ⟨claims, hpayload, hright⟩ := haccess now hnow hboth.1
    obtain ⟨claims', hpayload', hright'⟩ := hrefresh now' hnow' hboth.2
    rw [hpayload] at hpayload'
    cases hpayload'
    have hkind := hright.sub.symm.trans hright'.sub
    exact absurd (Option.some.inj hkind) (by decide)

/-- A payload without issuer, type and expiry, signed with the secret of the service. -/
def bareToken : Bytes :=
  createJwt .openssl [(ascii "id", ascii "1"), (ascii "role", ascii "2"), (ascii "uid", ascii "1")]
    ({} : SecurityConfig).jwtSecret

theorem verification_accepts_bare : ¬FailsClosed .openssl {} bareToken := by
  have hboth : ((verifyAccessToken .openssl {} 1700000000000000000 bareToken).isOk &&
      (parseRefreshToken .openssl {} 1700000000000000000 bareToken).isOk) = true := by
    decide +kernel
  rw [Bool.and_eq_true] at hboth
  exact fun h => h.separate _ _ (by decide) (by decide) hboth

end AccountService
