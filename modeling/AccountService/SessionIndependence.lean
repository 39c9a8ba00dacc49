import AccountService.SessionSemantics

/-! Two sessions of one run, in which the clock may be set before every request. A refresh token is the text of a user
id, a second and a six-digit draw, so two operations hand out different tokens exactly when they differ in one of the
three; then each has a row of its own, and what is done with one token leaves the row of the other alone. When all
three agree the two operations hand out one token, and the second row is refused as a duplicate without the caller
being told. -/

namespace AccountService

open Decimal Interaction

/-- What the token of an operation is made of: the user, the second and the draw. -/
abbrev TokenSeed := Int × Nat × Jti

/-- The token made of it. -/
def TokenSeed.token (env : Env) (seed : TokenSeed) : Bytes :=
  generateRefreshToken env.crypto env.config.security (seed.2.1 * nanosPerSecond) seed.2.2 { id := seed.1 }

/-- Texts that are cut at the first of a byte are equal part by part. -/
theorem cut_inj {c : UInt8} {a b x y : Bytes} (ha : c ∉ a) (hb : c ∉ b) (h : a ++ c :: x = b ++ c :: y) :
    a = b ∧ x = y := by
  induction a generalizing b with
  | nil =>
      cases b with
      | nil => exact ⟨rfl, (List.cons.inj h).2⟩
      | cons d b => exact absurd (List.mem_cons.mpr (Or.inl (List.cons.inj h).1)) hb
  | cons d a ih =>
      cases b with
      | nil => exact absurd (List.mem_cons.mpr (Or.inl (List.cons.inj h).1.symm)) ha
      | cons d' b =>
          obtain ⟨rfl, hrest⟩ := List.cons.inj h
          obtain ⟨rfl, htail⟩ :=
            ih (fun hc => ha (List.mem_cons_of_mem _ hc)) (fun hc => hb (List.mem_cons_of_mem _ hc)) hrest
          exact ⟨rfl, htail⟩

/-- The claims can be read off a token. -/
theorem buildJson_eq_of_createJwt {crypto : Crypto} {secret : Bytes} {a b : Claims}
    (h : createJwt crypto a secret = createJwt crypto b secret) : buildJson a = buildJson b := by
  simp only [createJwt, List.append_assoc, List.cons_append, List.nil_append, List.append_cancel_left_eq,
    List.cons.injEq, true_and] at h
  have hpayload := (cut_inj (dot_notMem_base64UrlEncode (buildJson a)) (dot_notMem_base64UrlEncode (buildJson b)) h).1
  calc buildJson a = base64UrlDecode (base64UrlEncode (buildJson a)) := (base64UrlDecode_base64UrlEncode _).symm
    _ = base64UrlDecode (base64UrlEncode (buildJson b)) := by rw [hpayload]
    _ = buildJson b := base64UrlDecode_base64UrlEncode _

theorem notMem_toString {c : UInt8} (hc : isDigit c = false) (hminus : c ≠ minus) (n : Int) : c ∉ toString n := by
  intro hmem
  rcases mem_intText hmem with h | h
  · rw [hc] at h
    cases h
  · exact hminus h

theorem jsonMember_toString (key : Bytes) (n : Int) :
    jsonMember key (toString n) = [quote] ++ escapeJsonString key ++ [quote, colon] ++ toString n := by
  rw [jsonMember, jsonValue, if_pos (isNumber_toString n)]

/-- A number and what follows it can be told apart. -/
theorem number_inj {c : UInt8} (hc : isDigit c = false) (hminus : c ≠ minus) {m n : Int} {x y : Bytes}
    (h : toString m ++ c :: x = toString n ++ c :: y) : m = n ∧ x = y := by
  obtain ⟨htext, hrest⟩ := cut_inj (notMem_toString hc hminus m) (notMem_toString hc hminus n) h
  exact ⟨intText_injective htext, hrest⟩

/-- The payload of a refresh token names its second, its draw and its user. -/
theorem seed_eq_of_buildJson {config : SecurityConfig} {t t' : Nat} {jti jti' : Jti} {user user' : UserEntity}
    (h : buildJson (refreshClaims config t jti user) = buildJson (refreshClaims config t' jti' user')) :
    user.id = user'.id ∧ toTimeT t = toTimeT t' ∧ jti = jti' := by
  simp only [refreshClaims_eq, payload, refreshLeading, refreshTrailing, List.cons_append, List.nil_append, buildJson,
    jsonMembers, jsonMember_toString, List.append_assoc, List.append_cancel_left_eq, List.cons.injEq, true_and] at h
  have hdigit : isDigit comma = false := by decide
  have hminus : comma ≠ minus := by decide
  obtain ⟨-, h⟩ := number_inj hdigit hminus h
  simp only [List.append_cancel_left_eq, List.cons.injEq, true_and] at h
  obtain ⟨hsecond, h⟩ := number_inj hdigit hminus h
  simp only [List.append_cancel_left_eq, List.cons.injEq, true_and] at h
  obtain ⟨hjti, h⟩ := number_inj hdigit hminus h
  simp only [List.append_cancel_left_eq, List.append_cancel_right_eq, List.cons.injEq, true_and] at h
  exact ⟨intText_injective h, Int.ofNat.inj hsecond, Subtype.ext (Int.ofNat.inj hjti)⟩

/-- The second of expiry depends on the second of issue alone. -/
theorem toTimeT_addSeconds (t : Nat) (ttl : Int32) :
    toTimeT (addSeconds t ttl) = toTimeT (addSeconds (toTimeT t * nanosPerSecond) ttl) := by
  unfold toTimeT addSeconds nanosPerSecond
  omega

theorem generateRefreshToken_eq_token (env : Env) (t : Nat) (jti : Jti) (user : UserEntity) :
    generateRefreshToken env.crypto env.config.security t jti user =
      TokenSeed.token env (user.id, toTimeT t, jti) := by
  have hsecond : toTimeT (toTimeT t * nanosPerSecond) = toTimeT t := Nat.mul_div_cancel _ (by decide)
  rw [TokenSeed.token, generateRefreshToken, generateRefreshToken, refreshClaims_eq, refreshClaims_eq,
    refreshLeading, refreshLeading, toTimeT_addSeconds t, hsecond]
  rfl

/-- **Distinct seeds.** Tokens are equal only when user, second and draw are. -/
theorem TokenSeed.token_injective (env : Env) : Function.Injective (TokenSeed.token env) := by
  rintro ⟨id, second, jti⟩ ⟨id', second', jti'⟩ h
  obtain ⟨hid, hsecond, hjti⟩ := seed_eq_of_buildJson (buildJson_eq_of_createJwt h)
  have hnano : ∀ n : Nat, toTimeT (n * nanosPerSecond) = n := fun n => Nat.mul_div_cancel _ (by decide)
  rw [hnano, hnano] at hsecond
  exact Prod.ext hid (Prod.ext hsecond hjti)

/-- What the token that the call handed out is made of. -/
def Event.seed? (env : Env) (e : Event) : Option TokenSeed :=
  (e.issue? env).map fun issue => (issue.2, toTimeT e.time, e.call.draws.refreshJti)

section Operations

variable {env : Env} {t : Nat} {draws : Draws} {db db' : Database} {request : Request} {outcome : Outcome Answer}
  {e : Event}

theorem Event.issued?_of_failed (h : e.outcome.isOk = false) : e.issued? = none := by
  unfold Event.issued?
  split
  · rename_i houtcome
    rw [houtcome] at h
    cases h
  · rename_i houtcome
    rw [houtcome] at h
    cases h
  · rfl

/-- A token that is handed out is handed out to a user. -/
theorem Effect.issued?_eq (h : Effect env t draws db request outcome db') (htime : e.time = t)
    (hrequest : e.request = request) (houtcome : e.outcome = outcome) :
    e.issued? = (e.issue? env).map Prod.fst := by
  subst htime
  cases h with
  | failed hfail _ =>
      rw [← houtcome] at hfail
      rw [Event.issue?_of_failed hfail, Event.issued?_of_failed hfail]
      rfl
  | refreshed hparse hid _ _ _ => simp [Event.issued?, Event.issue?, houtcome, hrequest, hparse, hid]
  | @deleted _ _ _ result _ _ _ => cases result <;> simp [Event.issued?, Event.issue?, houtcome, Result.map]
  | _ => simp [Event.issued?, Event.issue?, houtcome]

/-- **One call.** The token it hands out is made of its seed. -/
theorem serve_seed {w : World} {call : Call} (hdb : w.db.Settled) (hfaults : call.sqlFaults = []) :
    (serve env call w).1.issued? = ((serve env call w).1.seed? env).map (TokenSeed.token env) := by
  have heffect := @serve_effect env w call hdb.wellFormed hfaults
  obtain ⟨base, hsurvives⟩ := heffect.survives hdb rfl rfl rfl rfl
  rw [heffect.issued?_eq rfl rfl rfl, Event.seed?]
  rcases hsurvives.stored with ⟨hnone, -⟩ | ⟨user, -, hissue, -⟩
  · rw [hnone]
    rfl
  · rw [hissue]
    exact congrArg some (generateRefreshToken_eq_token env _ _ user)

end Operations

section Runs

variable {env : Env} {w : World}

/-- A call that is made at a reading of the clock. -/
structure TimedCall where
  reading : Nat
  request : Request
  draws : Draws
  redisFaults : List (Option String) := []
  sqlFaults : List Bool := []

/-- The call, with no time passing before it. -/
def TimedCall.call (c : TimedCall) : Call where
  delay := 0
  request := c.request
  draws := c.draws
  redisFaults := c.redisFaults
  sqlFaults := c.sqlFaults

/-- Serves the call at its reading, which may be before that of an earlier call. -/
def serveAt (env : Env) (c : TimedCall) (w : World) : Event × World :=
  serve env c.call { w with clock := c.reading }

theorem servesCall_serveAt {c : TimedCall} (hfaults : c.sqlFaults = []) : ServesCall env (serveAt env) c :=
  fun w => ⟨c.call, { w with clock := c.reading }, hfaults, rfl, rfl⟩

theorem serve_settled {call : Call} (hdb : w.db.Settled) (hfaults : call.sqlFaults = []) :
    (serve env call w).2.db.Settled :=
  ⟨run_wellFormed _ hdb.wellFormed, (@serve_effect env w call hdb.wellFormed hfaults).quiet hdb⟩

/-- The invariant of a run: every token that was handed out is made of its seed. -/
def SeedsKept (env : Env) (log : List Event) (w : World) : Prop :=
  w.db.Settled ∧ ∀ e ∈ log, e.issued? = (e.seed? env).map (TokenSeed.token env)

/-- The tokens of a run are made of its seeds. -/
theorem issued_eq_seeds {uuidKey : Bytes → Bytes} (hempty : w.db = Database.empty uuidKey) (calls : List TimedCall)
    (hfaults : ∀ call ∈ calls, call.sqlFaults = []) :
    (history (serveAt env) calls w).1.filterMap Event.issued? =
      ((history (serveAt env) calls w).1.filterMap (Event.seed? env)).map (TokenSeed.token env) := by
  have hinv : SeedsKept env (history (serveAt env) calls w).1 (history (serveAt env) calls w).2 := by
    refine history_invariant (P := fun _ _ call => call.sqlFaults = []) (serveAt env) ?_ ?_ calls ?_
    · rw [SeedsKept, hempty]
      exact ⟨⟨Database.wellFormed_empty uuidKey, fun _ hu => absurd hu List.not_mem_nil⟩,
        fun _ he => absurd he List.not_mem_nil⟩
    · rintro log w call ⟨hsettled, hseeds⟩ hcall
      refine ⟨serve_settled hsettled hcall, fun e he => ?_⟩
      rcases List.mem_append.mp he with he | he
      · exact hseeds e he
      · obtain rfl := List.mem_singleton.mp he
        exact serve_seed hsettled hcall
    · intro before call after h
      exact hfaults call (h ▸ List.mem_append_right _ List.mem_cons_self)
  rw [List.map_filterMap]
  exact List.filterMap_congr hinv.2

/-- What is promised of the sessions in a state of a run. -/
structure SessionsIndependent (env : Env) (log : List Event) (w : World) : Prop where
  /-- Different operations hand out different tokens. -/
  distinct : (log.filterMap Event.issued?).Nodup
  /-- A token has its row from the call that hands it out until it is given up or cleaned up, and shares it with no
  other token. -/
  own : ∀ before e after token id, log = before ++ e :: after → e.issue? env = some (token, id) →
    (∀ x ∈ after, x.Keeps token id (e.expSecond env)) →
      ∃ r ∈ w.db.sessions, r.tokenHash = hashToken env.crypto token ∧ r.userId = id ∧ r.expiresAt = e.expSecond env ∧
        ∀ other ∈ log.filterMap Event.issued?, other ≠ token → r.tokenHash ≠ hashToken env.crypto other
  /-- A `Logout` or a `RefreshToken` with one token leaves the row of another one. -/
  unharmed : ∀ token ∈ log.filterMap Event.issued?, ∀ other ∈ log.filterMap Event.issued?, other ≠ token →
    ∀ c : TimedCall, c.sqlFaults = [] → (c.request = .logout token ∨ c.request = .refreshToken token) →
      ∀ r ∈ w.db.sessions, r.tokenHash = hashToken env.crypto other → r ∈ (serveAt env c w).2.db.sessions

/-- The promise in every state that a run comes through. -/
def AlwaysIndependent (env : Env) (calls : List TimedCall) (w : World) : Prop :=
  ∀ earlier later, calls = earlier ++ later →
    SessionsIndependent env (history (serveAt env) earlier w).1 (history (serveAt env) earlier w).2

theorem mem_tokens_of_issued {log : List Event} {token : Bytes} (h : token ∈ log.filterMap Event.issued?) :
    token ∈ log.flatMap Event.tokens := by
  obtain ⟨e, he, hissued⟩ := List.mem_filterMap.mp h
  exact List.mem_flatMap.mpr ⟨e, he, by simp [Event.tokens, hissued]⟩

/-- A call with one token leaves the row of another one. -/
theorem serve_unharmed {call : Call} (hdb : w.db.Settled) (hfaults : call.sqlFaults = []) {token : Bytes}
    (hrequest : call.request = .logout token ∨ call.request = .refreshToken token) {r : TokenSession}
    (hr : r ∈ w.db.sessions) (hother : r.tokenHash ≠ hashToken env.crypto token) :
    r ∈ (serve env call w).2.db.sessions := by
  obtain ⟨base, hsurvives⟩ := (@serve_effect env w call hdb.wellFormed hfaults).survives hdb rfl rfl rfl rfl
  have hcall : (serve env call w).1.request = call.request := rfl
  have hends : ¬(serve env call w).1.Ends env r := by
    intro hends
    rcases hrequest with hrequest | hrequest
    · rw [Event.Ends, hcall, hrequest] at hends
      exact hother hends.2
    · rw [Event.Ends, hcall, hrequest] at hends
      exact hother hends.2
  exact hsurvives.stays hr hends

/-- With tokens that differ the sessions are independent. -/
theorem Tracked.independent {log : List Event} (h : Tracked env log w.db)
    (hinj : HashInjectiveOn env (log.flatMap Event.tokens)) (hdistinct : (log.filterMap Event.issued?).Nodup) :
    SessionsIndependent env log w where
  distinct := hdistinct
  own before e after token id hlog hissue hkeep := by
    obtain ⟨r, hr, hhash, hid, hrow⟩ := h.kept before e after token id hlog hissue hkeep
    refine ⟨r, hr, hhash, hid, hrow, fun other hother hne hsame => hne ?_⟩
    have he : e ∈ log := hlog ▸ List.mem_append_right _ List.mem_cons_self
    exact hinj other (mem_tokens_of_issued hother) token
      (List.mem_flatMap.mpr ⟨e, he, Event.mem_tokens_of_issue? hissue⟩) (hsame.symm.trans hhash)
  unharmed token htoken other hother hne c hfaults hrequest r hr hhash := by
    have hapart : r.tokenHash ≠ hashToken env.crypto token := fun hsame =>
      hne (hinj other (mem_tokens_of_issued hother) token (mem_tokens_of_issued htoken) (hhash.symm.trans hsame))
    exact @serve_unharmed env { w with clock := c.reading } c.call h.settled hfaults token hrequest r hr hapart

/-- **Independent sessions.** In a run from empty tables, at any readings of the clock, in which no statement fails and
the hash tells the tokens apart, the sessions are always independent exactly when no two operations share the user, the
second and the draw of their refresh token. -/
theorem sessions_independent_iff (env : Env) {uuidKey : Bytes → Bytes} {w : World}
    (hempty : w.db = Database.empty uuidKey) (calls : List TimedCall) (hfaults : ∀ call ∈ calls, call.sqlFaults = [])
    (hinj : HashInjectiveOn env ((history (serveAt env) calls w).1.flatMap Event.tokens)) :
    AlwaysIndependent env calls w ↔ ((history (serveAt env) calls w).1.filterMap (Event.seed? env)).Nodup := by
  have hnodup : ((history (serveAt env) calls w).1.filterMap Event.issued?).Nodup ↔
      ((history (serveAt env) calls w).1.filterMap (Event.seed? env)).Nodup := by
    rw [issued_eq_seeds hempty calls hfaults]
    exact List.nodup_map_iff (TokenSeed.token_injective env)
  constructor
  · exact fun h => hnodup.mp (h calls [] (List.append_nil calls).symm).distinct
  · rintro hseeds earlier later rfl
    have hdistinct := hnodup.mpr hseeds
    rw [history_append] at hinj hdistinct
    have hbefore : HashInjectiveOn env ((history (serveAt env) earlier w).1.flatMap Event.tokens) :=
      fun a ha b hb => hinj a (by simp [ha]) b (by simp [hb])
    have hearlier : ((history (serveAt env) earlier w).1.filterMap Event.issued?).Nodup := by
      rw [List.filterMap_append] at hdistinct
      exact (List.nodup_append.mp hdistinct).1
    have hserves : ∀ c ∈ earlier, ServesCall env (serveAt env) c :=
      fun c hc => servesCall_serveAt (hfaults c (List.mem_append_left _ hc))
    exact (tracked_history hempty earlier hserves hbefore hearlier).independent hbefore hearlier

end Runs

/-- A request at a reading of the clock, with the draws of the samples. -/
def TimedCall.sample (seconds : Nat) (request : Request) : TimedCall where
  reading := seconds * nanosPerSecond
  request := request
  draws := (Call.sample 0 request).draws

/-- A registration in the first second and a login of the same user at the given one, with equal draws. -/
def signedInTwice (second : Nat) : List TimedCall :=
  [.sample 0 (.sendVerifyCode (ascii "13800138000") .register),
    .sample 1 (.register (ascii "13800138000") (ascii "123456") (ascii "Password123") (ascii "A")),
    .sample second (.loginByPassword (ascii "13800138000") (ascii "Password123"))]

/-- In the same second the second operation hands out the token of the first, and stores no row. -/
theorem signedInTwice_shared : ¬ AlwaysIndependent defaultEnv (signedInTwice 1) (emptyWorld 0) := by
  intro h
  have hshared : ¬ ((history (serveAt defaultEnv) (signedInTwice 1) (emptyWorld 0)).1.filterMap
      Event.issued?).Nodup := by decide +kernel
  exact hshared (h (signedInTwice 1) [] rfl).distinct

/-- The clock is set back between the two. -/
theorem sessions_independent_sample : AlwaysIndependent defaultEnv (signedInTwice 0) (emptyWorld 0) := by
  have hfaults : ∀ call ∈ signedInTwice 0, call.sqlFaults = [] := by decide +kernel
  have hlog : HashInjectiveOn defaultEnv
        ((history (serveAt defaultEnv) (signedInTwice 0) (emptyWorld 0)).1.flatMap Event.tokens) ∧
      ((history (serveAt defaultEnv) (signedInTwice 0) (emptyWorld 0)).1.filterMap
        (Event.seed? defaultEnv)).Nodup := by
    unfold HashInjectiveOn
    decide +kernel
  exact (sessions_independent_iff defaultEnv rfl _ hfaults hlog.1).mpr hlog.2

end AccountService
