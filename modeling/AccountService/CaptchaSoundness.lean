import AccountService.CaptchaRuns

/-! A verification code authorises only what it was sent for. The invariant ties each live code to the
send that stored it. -/

namespace AccountService

open Expiring Interaction

section Effect

variable {config : SmsConfig} {w : World} {call : SmsCall} {code : ErrorCode} {s : Redis}

/-- A code that is live after a call was live before it, and the call neither replaced it nor locked its
pair; or the call has just stored it. -/
theorem SmsEffect.code_seen (h : SmsEffect config w call code s) {scene : SmsScene} {mobile : Bytes}
    {e : Slot Bytes} (he : seen s w.clock (.code scene mobile) = some e) :
    (seen w.redis w.clock (.code scene mobile) = some e ∧
      (∀ c, call = .send scene mobile c → code ≠ .ok) ∧
      ∀ input, call = .verify scene mobile input → code ≠ .accountLocked) ∨
    (code = .ok ∧ call = .send scene mobile e.value ∧
      e.deadline = some (w.clock + lifetime config.codeTtlSeconds)) := by
  cases h with
  | sendRefused _ => exact Or.inl ⟨he, fun _ _ => by decide, fun _ h => by cases h⟩
  | verifyRefused _ => exact Or.inl ⟨he, fun _ h => (by cases h), fun _ _ => by decide⟩
  | expired _ => exact Or.inl ⟨he, fun _ h => (by cases h), fun _ _ => by decide⟩
  | accepted _ _ _ =>
      simp only [seen_drop, reduceCtorEq, if_false] at he
      exact Or.inl ⟨he, fun _ h => (by cases h), fun _ _ => by decide⟩
  | counted _ _ _ =>
      simp only [countedRedis, seen_store, reduceCtorEq, if_false] at he
      exact Or.inl ⟨he, fun _ h => (by cases h), fun _ _ => by decide⟩
  | consumed =>
      rw [seen_drop] at he
      split at he
      · cases he
      · exact Or.inl ⟨he, fun _ h => (by cases h), fun _ h => by cases h⟩
  | @sent scene' mobile' c _ =>
      simp only [sentRedis, seen_store, reduceCtorEq, if_false] at he
      split at he
      · rename_i hkey
        cases hkey
        split at he
        · cases he
          exact Or.inr ⟨rfl, rfl, rfl⟩
        · cases he
      · rename_i hkey
        refine Or.inl ⟨he, fun _ h => ?_, fun _ h => by cases h⟩
        cases h
        exact absurd rfl hkey
  | @locked scene' mobile' input n _ =>
      simp only [lockedRedis, countedRedis, seen_drop, seen_store, reduceCtorEq, if_false] at he
      split at he
      · cases he
      · rename_i hkey
        refine Or.inl ⟨he, fun _ h => (by cases h), fun _ h => ?_⟩
        cases h
        exact absurd rfl hkey

/-- Only the live code is accepted. -/
theorem SmsEffect.code_of_ok {scene : SmsScene} {mobile input : Bytes}
    (h : SmsEffect config w (.verify scene mobile input) .ok s) :
    ∃ e, seen w.redis w.clock (.code scene mobile) = some e ∧ e.value = input := by
  cases h with
  | accepted _ hcode he => exact ⟨_, hcode, he⟩

end Effect

/-- The last code sent for the pair is `code`, it lives until `deadline`, and the pair has not been locked
since. -/
def Backed (config : SmsConfig) (log : List Event) (scene : SmsScene) (mobile code : Bytes)
    (deadline : Option Nat) : Prop :=
  ∃ first send rest, log = first ++ send :: rest ∧ send.Sends scene mobile code ∧
    deadline = some (send.time + lifetime config.codeTtlSeconds) ∧
    ∀ e ∈ rest, (∀ other, ¬e.Sends scene mobile other) ∧ ¬e.Locks scene mobile

theorem Backed.snoc {config : SmsConfig} {log : List Event} {scene : SmsScene} {mobile code : Bytes}
    {deadline : Option Nat} (h : Backed config log scene mobile code deadline) {e : Event}
    (hsend : ∀ other, ¬e.Sends scene mobile other) (hlock : ¬e.Locks scene mobile) :
    Backed config (log ++ [e]) scene mobile code deadline := by
  obtain ⟨first, send, rest, rfl, hsends, hdeadline, hrest⟩ := h
  refine ⟨first, send, rest ++ [e], by simp, hsends, hdeadline, fun x hx => ?_⟩
  rcases List.mem_append.mp hx with hx | hx
  · exact hrest x hx
  · obtain rfl := List.mem_singleton.mp hx
    exact ⟨hsend, hlock⟩

/-- What is promised of a log: the operation that a code authorised comes after the send of that code,
within its time to live, with no other send for the pair and no lock of the pair in between. -/
def AuthorisationSound (config : SmsConfig) (log : List Event) : Prop :=
  ∀ before e after scene mobile code, log = before ++ e :: after → e.Authorises scene mobile code →
    ∃ first send rest, before = first ++ send :: rest ∧ send.Sends scene mobile code ∧
      e.time < send.time + lifetime config.codeTtlSeconds ∧
      ∀ x ∈ rest, (∀ other, ¬x.Sends scene mobile other) ∧ ¬x.Locks scene mobile

/-- The invariant of a run. -/
structure CodesInv (config : SmsConfig) (log : List Event) (w : World) : Prop where
  count : CountInRange config w.redis w.clock
  codes : ∀ scene mobile e, seen w.redis w.clock (.code scene mobile) = some e →
    Backed config log scene mobile e.value e.deadline
  sound : AuthorisationSound config log

/-- A key of `SmsService` whose slot is the same holds the same. -/
theorem seen_of_captchaKeys {s t : Redis} (h : ∀ k, captchaKeys k → s k = t k) (now : Nat)
    (scene : SmsScene) (mobile : Bytes) :
    seen s now (.code scene mobile) = seen t now (.code scene mobile) ∧
      seen s now (.count scene mobile) = seen t now (.count scene mobile) :=
  ⟨Store.look_congr t now _ (h _ ⟨scene, mobile, Or.inl rfl⟩),
    Store.look_congr t now _ (h _ ⟨scene, mobile, Or.inr (Or.inl rfl)⟩)⟩

theorem CountInRange.congr {config : SmsConfig} {s t : Redis} {now : Nat}
    (h : CountInRange config t now) (heq : ∀ k, captchaKeys k → s k = t k) :
    CountInRange config s now := by
  intro scene mobile e he
  rw [(seen_of_captchaKeys heq now scene mobile).2] at he
  exact h scene mobile e he

section Step

variable {env : Env} {log : List Event} {w : World} {call : Call}

/-- An event that neither sends, nor locks, nor is authorised keeps the invariant when it leaves the codes
alone. -/
theorem CodesInv.idle (h : CodesInv env.config.sms log w) {e : Event} {w' : World}
    (hclock : w.clock ≤ w'.clock) (hkeys : ∀ k, captchaKeys k → w'.redis k = w.redis k)
    (hnone : e.smsCall? = none ∨ ¬e.Succeeded ∧ e.outcome.code? ≠ some .accountLocked) :
    CodesInv env.config.sms (log ++ [e]) w' := by
  have hsend : ∀ scene mobile c, ¬e.Sends scene mobile c := by
    rintro scene mobile c ⟨hcall, hok⟩
    rcases hnone with hnone | ⟨hfail, -⟩
    · rw [hnone] at hcall
      cases hcall
    · exact hfail hok
  have hlock : ∀ scene mobile, ¬e.Locks scene mobile := by
    rintro scene mobile ⟨input, hcall, hcode⟩
    rcases hnone with hnone | ⟨-, hne⟩
    · rw [hnone] at hcall
      cases hcall
    · exact hne hcode
  have hcount : CountInRange env.config.sms w.redis w'.clock := fun scene mobile x hx =>
    h.count scene mobile x (seen_of_later _ _ hclock hx)
  refine ⟨hcount.congr hkeys, ?_, ?_⟩
  · intro scene mobile x hx
    rw [(seen_of_captchaKeys hkeys w'.clock scene mobile).1] at hx
    exact (h.codes scene mobile x (seen_of_later _ _ hclock hx)).snoc (hsend scene mobile)
      (hlock scene mobile)
  · intro before x after scene mobile code hlog hauth
    rcases snoc_eq_append_cons hlog with ⟨-, rfl⟩ | ⟨rest, -, hlog⟩
    · obtain ⟨hcall, hok⟩ := hauth
      rcases hnone with hnone | ⟨hfail, -⟩
      · rw [hnone] at hcall
        cases hcall
      · exact absurd hok hfail
    · exact h.sound before x rest scene mobile code hlog hauth

/-- An event whose request has made a call of `SmsService` keeps the invariant. -/
theorem CodesInv.asked (hc : env.config.sms.Usable) (h : CodesInv env.config.sms log w) {e : Event}
    {w' w₁ : World} {r : Result Answer} {ask : SmsCall} (hle : w.clock ≤ e.time) (hclock : w'.clock = e.time)
    (hredis : w₁.redis = w.redis) (htime : w₁.clock = e.time) (hfaults : w₁.redisFaults = [])
    (hask : e.smsCall? = some ask) (hout : e.outcome = .returned r)
    (hkeys : ∀ k, captchaKeys k →
      w'.redis k = (Program.run exec (ask.program env.config.sms) w₁).2.redis k)
    (hok : r.isOk = true → (Program.run exec (ask.program env.config.sms) w₁).1 = .ok)
    (hlocked : r.code = .accountLocked →
      (Program.run exec (ask.program env.config.sms) w₁).1 = .accountLocked)
    (hsend : ∀ scene mobile code, ask = .send scene mobile code →
      (Program.run exec (ask.program env.config.sms) w₁).1 = .ok → r.isOk = true) :
    CodesInv env.config.sms (log ++ [e]) w' := by
  have hsucceeded : e.Succeeded ↔ r.isOk = true := by rw [Event.Succeeded, hout, Outcome.isOk]
  have hcode : e.outcome.code? = some r.code := by rw [hout, Outcome.code?]
  have hcount : CountInRange env.config.sms w₁.redis w₁.clock := by
    rw [hredis, htime]
    exact fun scene mobile x hx => h.count scene mobile x (seen_of_later _ _ hle hx)
  have hbacked : ∀ scene mobile x, seen w₁.redis w₁.clock (.code scene mobile) = some x →
      Backed env.config.sms log scene mobile x.value x.deadline := by
    rw [hredis, htime]
    exact fun scene mobile x hx => h.codes scene mobile x (seen_of_later _ _ hle hx)
  obtain ⟨s, hs, heffect⟩ := smsCall_effect hc hfaults hcount ask
  rw [hs] at hkeys
  refine ⟨?_, ?_, ?_⟩
  · rw [hclock, ← htime]
    exact (heffect.countInRange hcount).congr hkeys
  · intro scene mobile x hx
    rw [(seen_of_captchaKeys hkeys w'.clock scene mobile).1, hclock, ← htime] at hx
    rcases heffect.code_seen hx with ⟨hx, hnosend, hnolock⟩ | ⟨hcode₁, hcall, hdeadline⟩
    · refine (hbacked scene mobile x hx).snoc ?_ ?_
      · rintro other ⟨hcall, hsucc⟩
        rw [hask] at hcall
        exact hnosend other (Option.some.inj hcall) (hok (hsucceeded.mp hsucc))
      · rintro ⟨input, hcall, hlock⟩
        rw [hask] at hcall
        rw [hcode] at hlock
        exact hnolock input (Option.some.inj hcall) (hlocked (Option.some.inj hlock))
    · refine ⟨log, e, [], rfl, ⟨?_, ?_⟩, ?_, fun x hx => absurd hx List.not_mem_nil⟩
      · rw [hask, hcall]
      · exact hsucceeded.mpr (hsend _ _ _ hcall hcode₁)
      · rw [hdeadline, htime]
  · intro before x after scene mobile code hlog hauth
    rcases snoc_eq_append_cons hlog with ⟨rfl, rfl⟩ | ⟨rest, -, hlog⟩
    · obtain ⟨hcall, hsucc⟩ := hauth
      rw [hask] at hcall
      obtain rfl := Option.some.inj hcall
      rw [hok (hsucceeded.mp hsucc)] at heffect
      obtain ⟨slot, hslot, rfl⟩ := heffect.code_of_ok
      obtain ⟨first, send, rest, hlog, hsends, hdeadline, hrest⟩ := hbacked scene mobile slot hslot
      refine ⟨first, send, rest, hlog, hsends, ?_, hrest⟩
      have hlive := Store.live_of_look hslot
      obtain ⟨value, deadline⟩ := slot
      obtain rfl : deadline = some _ := hdeadline
      rw [← htime]
      exact hlive
    · exact h.sound before x rest scene mobile code hlog hauth

/-- **Step.** A call keeps the invariant. -/
theorem CodesInv.serve (hc : env.config.sms.Usable) (h : CodesInv env.config.sms log w)
    (hfaults : call.redisFaults = []) :
    CodesInv env.config.sms (log ++ [(serve env call w).1]) (serve env call w).2 := by
  have hclock : (AccountService.serve env call w).2.clock = (call.world w).clock := run_clock _ _
  have hle : w.clock ≤ (call.world w).clock := Nat.le_add_right _ _
  rcases serve_asks env w hfaults with ⟨hnone, hkeys⟩ | ⟨r, hout, hasks⟩
  · exact h.idle (hclock ▸ hle) hkeys (Or.inl hnone)
  · cases hask : (AccountService.serve env call w).1.smsCall? with
    | none =>
        rw [hask] at hasks
        cases hasks with
        | nothing hkeys _ => exact h.idle (hclock ▸ hle) hkeys (Or.inl hask)
    | some ask =>
        rw [hask] at hasks
        cases hasks with
        | nothing hkeys hne =>
            obtain ⟨hfail, hlocked⟩ := hne.resolve_left (by simp)
            refine h.idle (hclock ▸ hle) hkeys (Or.inr ⟨?_, ?_⟩)
            · rw [Event.Succeeded, hout, Outcome.isOk, hfail]
              exact Bool.false_ne_true
            · rw [hout, Outcome.code?]
              exact fun heq => hlocked (Option.some.inj heq)
        | asked hredis htime hw₁ hkeys hok hlocked hsend =>
            exact h.asked hc hle hclock hredis htime hw₁ hask hout hkeys hok hlocked hsend

end Step

/-- **Codes are sound.** In every run over settings that are positive and do not wrap, as those are that
`ValidateConfig` admits below the bound, an operation that a code authorised has been preceded by the send of that code
for its own scene and mobile, less than the time to live ago, with no later send and no lock of the pair. Statements
may fail; Redis does not. -/
theorem code_authorisation_sound (env : Env) (hc : env.config.sms.Usable) (w : World) (hfresh : NoCaptchas w.redis)
    (calls : List Call) (hfaults : ∀ call ∈ calls, call.redisFaults = []) :
    AuthorisationSound env.config.sms (history (serve env) calls w).1 := by
  have hinit : CodesInv env.config.sms [] w := by
    refine ⟨fun scene mobile e he => ?_, fun scene mobile e he => ?_, fun _ _ _ _ _ _ hlog => ?_⟩
    · rw [seen_of_none (hfresh scene mobile).2.1] at he
      cases he
    · rw [seen_of_none (hfresh scene mobile).1] at he
      cases he
    · exact absurd hlog (by simp)
  refine (history_invariant (P := fun _ _ call => call.redisFaults = []) (serve env) hinit
    (fun log w call h hcall => h.serve hc hcall) calls ?_).sound
  rintro before call after rfl
  exact hfaults call (by simp)

/-- A registration with the code that was sent for it. -/
def registeringCalls : List Call :=
  [.sample 0 (.sendVerifyCode (ascii "13800138000") .register),
    .sample 299 (.register (ascii "13800138000") (ascii "123456") (ascii "Password123") (ascii "A"))]

theorem code_authorisation_sound_sample :
    (history (serve defaultEnv) registeringCalls (emptyWorld 0)).1.map (·.outcome.code?) =
        [some .ok, some .ok] ∧
      AuthorisationSound defaultEnv.config.sms (history (serve defaultEnv) registeringCalls (emptyWorld 0)).1 :=
  ⟨by decide +kernel,
    code_authorisation_sound defaultEnv (Config.Admitted.usable (by decide +kernel) (by decide)) (emptyWorld 0)
      (fun _ _ => ⟨rfl, rfl, rfl, rfl⟩) registeringCalls (by decide)⟩

end AccountService
