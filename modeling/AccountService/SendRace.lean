import AccountService.CaptchaSpec
import AccountService.RefreshStages

/-! Several `SendCaptcha` for one mobile at the same time. The interval key is tested with `EXISTS` and
written two commands later: two calls that both test it before either writes it both send. -/

namespace AccountService

open Expiring Interaction

/-- The command does not write the key. -/
def Cmd.Spares (key : Bytes) : Cmd → Prop
  | .redis (.get _) | .redis (.existsKey _) | .redis (.pttl _) => True
  | .redis c => c.key ≠ key
  | _ => True

/-- The key that a `PSETEX` writes. -/
def Cmd.sets? : Cmd → Option Bytes
  | .redis (.psetex key _ _) => some key
  | _ => none

theorem exec_spares {key : Bytes} {c : Cmd} (hc : c.Spares key) (w : World) :
    (exec c w).2.redis key = w.redis key := by
  cases c with
  | now => rfl
  | sql s => rw [exec_sql_redis]
  | redis c =>
      simp only [exec, World.execRedis]
      split
      · rfl
      · cases c with
        | get _ | existsKey _ => rfl
        | pttl _ =>
            simp only [RedisCmd.apply]
            split <;> rfl
        | psetex _ _ _ | del _ | pexpire _ _ | incr _ => exact RedisCmd.apply_ne _ w.clock w.redis (Ne.symm hc)

theorem exec_redisFaults {w : World} (h : w.redisFaults = []) (c : Cmd) :
    (exec c w).2.redisFaults = [] := by
  cases c with
  | now => exact h
  | sql s => rw [exec_sql_redisFaults, h]
  | redis c => simp [exec, World.execRedis, h]

theorem look_exec {key : Bytes} {c : Cmd} (hc : c.Spares key) (w : World) :
    (exec c w).2.redis.look (exec c w).2.clock key = w.redis.look w.clock key := by
  rw [exec_clock]
  exact Store.look_congr _ _ _ (exec_spares hc w)

theorem spares_of_ne {key : Bytes} {c : RedisCmd} (h : c.key ≠ key) : Cmd.Spares key (.redis c) := by
  cases c with
  | get _ | existsKey _ | pttl _ => trivial
  | psetex _ _ _ | del _ | pexpire _ _ | incr _ => exact h

/-- `PEXPIRE` gives what is stored a new deadline. -/
theorem look_exec_pexpire {w : World} (hw : w.redisFaults = []) {key : Bytes} {ttl : Int} (httl : 0 < ttl) :
    (exec (.redis (.pexpire key ttl)) w).2.redis.look (exec (.redis (.pexpire key ttl)) w).2.clock key =
      (w.redis.look w.clock key).map fun e => ⟨e.value, some (deadlineAfter w.clock ttl)⟩ := by
  have hexec : exec (.redis (.pexpire key ttl)) w = _ := execRedis_eq hw (.pexpire key ttl)
  have hlater : w.clock < deadlineAfter w.clock ttl := by
    unfold deadlineAfter nanosPerMilli
    omega
  rw [hexec]
  cases he : w.redis.look w.clock key with
  | none =>
      simp only [RedisCmd.apply, he]
      rfl
  | some e =>
      simp only [RedisCmd.apply, he, if_pos httl, Store.look_put_self, Option.map_some]
      exact if_pos hlater

/-- `INCR` adds one to a number that is stored and keeps its deadline. -/
theorem look_exec_incr {w : World} (hw : w.redisFaults = []) {key : Bytes} {e : Slot Bytes} {n : Int}
    (he : w.redis.look w.clock key = some e) (hvalue : e.value = toString n) (hn : IsInt64 n)
    (hnext : IsInt64 (n + 1)) :
    (exec (.redis (.incr key)) w).1 = .ok (n + 1) ∧
      (exec (.redis (.incr key)) w).2.redis.look (exec (.redis (.incr key)) w).2.clock key =
        some ⟨toString (n + 1), e.deadline⟩ := by
  have hexec : exec (.redis (.incr key)) w = _ := execRedis_eq hw (.incr key)
  have hlive : e.Live w.clock := Store.live_of_look he
  rw [hexec]
  simp only [RedisCmd.apply, he, hvalue, redisInt_toString hn, if_pos hnext, Store.look_put_self]
  exact ⟨trivial, if_pos hlive⟩

/-- `INCR` starts at one. -/
theorem look_exec_incr_none {w : World} (hw : w.redisFaults = []) {key : Bytes}
    (he : w.redis.look w.clock key = none) :
    (exec (.redis (.incr key)) w).1 = .ok 1 ∧
      (exec (.redis (.incr key)) w).2.redis.look (exec (.redis (.incr key)) w).2.clock key =
        some ⟨toString 1, none⟩ := by
  have hexec : exec (.redis (.incr key)) w = _ := execRedis_eq hw (.incr key)
  rw [hexec]
  simp only [RedisCmd.apply, he, Store.look_put_self]
  exact ⟨trivial, if_pos trivial⟩

section Stages

variable (key : Bytes) (ttl : Int)

/-- The call does not write the key any more. -/
def SendDone (p : Thread) : Prop := Program.Uses (Cmd.Spares key) p

/-- The call writes the key next. -/
def SendDue (p : Thread) : Prop :=
  ∃ value next, p = .call (.redis (.psetex key ttl value)) next ∧ ∀ reply, SendDone key (next reply)

/-- The call has passed its test and has still to write the key; the code comes first. -/
def SendCleared (p : Thread) : Prop :=
  SendDue key ttl p ∨
    ∃ code px value next, p = .call (.redis (.psetex code px value)) next ∧ code ≠ key ∧
      SendDue key ttl (next (.ok ())) ∧ ∀ reply, SendDue key ttl (next reply) ∨ SendDone key (next reply)

/-- The call has not tested the key. -/
def SendWaiting : Thread → Prop
  | .done _ => True
  | .call (.redis (.existsKey k)) next =>
      k = key ∧ (SendCleared key ttl (next (.ok 0)) ∨ SendDone key (next (.ok 0))) ∧
          (∀ reply, reply ≠ .ok 0 → SendDone key (next reply)) ∨
        k ≠ key ∧ ∀ reply, SendWaiting (next reply)
  | .call c next => c.Spares key ∧ ∀ reply, SendWaiting (next reply)

/-- Where a call is. -/
def SendStage (p : Thread) : Prop := SendWaiting key ttl p ∨ SendCleared key ttl p ∨ SendDone key p

end Stages

section Stages

variable {key : Bytes} {ttl : Int}

/-- A call that has still to write has a `PSETEX` next. -/
theorem SendCleared.next {p : Thread} (h : SendCleared key ttl p) :
    ∃ k px value next, p = .call (.redis (.psetex k px value)) next := by
  rcases h with ⟨value, next, rfl, -⟩ | ⟨code, px, value, next, rfl, -⟩
  · exact ⟨_, _, _, _, rfl⟩
  · exact ⟨_, _, _, _, rfl⟩

theorem SendDue.not_done {p : Thread} (h : SendDue key ttl p) : ¬SendDone key p := by
  obtain ⟨value, next, rfl, -⟩ := h
  exact fun hdone => hdone.1 rfl

theorem SendCleared.not_done {p : Thread} (h : SendCleared key ttl p) : ¬SendDone key p := by
  rcases h with hdue | ⟨code, px, value, next, rfl, -, hdue, -⟩
  · exact hdue.not_done
  · exact fun hdone => hdue.not_done (hdone.2 _)

theorem SendWaiting.not_due {p : Thread} (h : SendWaiting key ttl p) : ¬SendDue key ttl p := by
  rintro ⟨value, next, rfl, -⟩
  exact h.1 rfl

theorem SendWaiting.not_cleared {p : Thread} (h : SendWaiting key ttl p) : ¬SendCleared key ttl p := by
  rintro (hdue | ⟨code, px, value, next, rfl, -, hdue, -⟩)
  · exact h.not_due hdue
  · exact (h.2 _).not_due hdue

/-- What a step of a call that has not tested the key does. -/
theorem SendWaiting.step {c : Cmd} {next : Service.Reply c → Thread} (h : SendWaiting key ttl (.call c next)) :
    (∃ next', (⟨c, next⟩ : (c : Cmd) × (Service.Reply c → Thread)) = ⟨.redis (.existsKey key), next'⟩ ∧
      (SendCleared key ttl (next' (.ok 0)) ∨ SendDone key (next' (.ok 0))) ∧
        ∀ reply, reply ≠ .ok 0 → SendDone key (next' reply)) ∨
    c.Spares key ∧ ∀ reply, SendWaiting key ttl (next reply) := by
  cases c with
  | now => exact Or.inr h
  | sql s => exact Or.inr h
  | redis c =>
      cases c with
      | existsKey k =>
          rcases h with ⟨rfl, hclear, hdone⟩ | ⟨-, hnext⟩
          · exact Or.inl ⟨next, rfl, hclear, hdone⟩
          · exact Or.inr ⟨trivial, hnext⟩
      | _ => exact Or.inr h

end Stages

/-- A `SendCaptcha` in flight. -/
def sendThread (config : SmsConfig) (code : Bytes) (scene : SmsScene) (mobile : Bytes) : Thread :=
  answered .seconds (sendCaptcha config code scene mobile)

theorem sendDone_safeTtlSeconds {key k : Bytes} {default : Int} {next : Int → Thread}
    (h : ∀ n, SendDone key (next n)) : SendDone key (safeTtlSeconds k default >>= next) := by
  refine ⟨trivial, fun reply => ?_⟩
  rcases reply with e | ms
  · exact h default
  · exact h _

theorem sendWaiting_existsKey {key k : Bytes} {ttl : Int} (hk : k ≠ key) {next : Result Bool → Thread}
    (h : ∀ r, SendWaiting key ttl (next r)) : SendWaiting key ttl (existsKey k >>= next) := by
  refine Or.inr ⟨hk, fun reply => ?_⟩
  rcases reply with e | n
  · exact h _
  · exact h _

theorem sendWaiting_safeTtlSeconds {key k : Bytes} {ttl default : Int} {next : Int → Thread}
    (h : ∀ n, SendWaiting key ttl (next n)) : SendWaiting key ttl (safeTtlSeconds k default >>= next) := by
  refine ⟨trivial, fun reply => ?_⟩
  rcases reply with e | ms
  · exact h default
  · exact h _

/-- The test of the key. -/
theorem sendWaiting_test {key : Bytes} {ttl : Int} {next : Result Bool → Thread}
    (hfree : SendCleared key ttl (next (.ok false)) ∨ SendDone key (next (.ok false)))
    (hother : ∀ r, r ≠ .ok false → SendDone key (next r)) : SendWaiting key ttl (existsKey key >>= next) := by
  refine Or.inl ⟨rfl, hfree, fun reply hreply => ?_⟩
  rcases reply with e | n
  · exact hother (.failWith .serviceUnavailable e) (Result.failWith_ne_ok _ _ _)
  · refine hother (.ok (decide (0 < n))) fun h => hreply ?_
    have hn : ¬0 < n := by simpa using h
    rw [Nat.eq_zero_of_not_pos hn]

/-- The two writes. -/
theorem sendCleared_setPx {code key value value' : Bytes} {px ttl : Int} (hne : code ≠ key)
    {next : Result Unit → Thread} (hfail : ∀ c m, SendDone key (next (.failWith c m)))
    {rest : Result Unit → Thread} (hok : next (.ok ()) = setPx key value' ttl >>= rest)
    (hrest : ∀ r, SendDone key (rest r)) :
    SendCleared key ttl (setPx code value px >>= next) ∨ SendDone key (setPx code value px >>= next) := by
  have hdue : SendDue key ttl (next (.ok ())) ∨ SendDone key (next (.ok ())) := by
    rw [hok]
    unfold setPx
    split
    · exact Or.inr (hrest _)
    · refine Or.inl ⟨value', _, rfl, fun reply => ?_⟩
      cases reply <;> exact hrest _
  unfold setPx
  split
  · exact Or.inr (hfail _ _)
  · rcases hdue with hdue | hdone
    · refine Or.inl (Or.inr ⟨code, px, value, _, rfl, hne, hdue, fun reply => ?_⟩)
      cases reply with
      | error e => exact Or.inr (hfail _ _)
      | ok _ => exact Or.inl hdue
    · refine Or.inr ⟨hne, fun reply => ?_⟩
      cases reply with
      | error e => exact hfail _ _
      | ok _ => exact hdone

/-- **Start.** A `SendCaptcha` starts before its test. -/
theorem sendWaiting_sendThread (config : SmsConfig) (code : Bytes) (scene : SmsScene) (mobile : Bytes) :
    SendWaiting (intervalKey mobile) (millis config.sendIntervalSeconds)
      (sendThread config code scene mobile) := by
  have hlock : lockKey scene mobile ≠ intervalKey mobile := fun h => by
    cases ServiceKey.text_injective
      (show (ServiceKey.lock scene mobile).text = (ServiceKey.interval mobile).text from h)
  have hcode : captchaKey scene mobile ≠ intervalKey mobile := fun h => by
    cases ServiceKey.text_injective
      (show (ServiceKey.code scene mobile).text = (ServiceKey.interval mobile).text from h)
  simp only [sendThread, answered, sendCaptcha, Program.bind_assoc]
  refine sendWaiting_existsKey hlock fun r => ?_
  rcases r with (_ | _) | ⟨c, m⟩
  · simp only [Program.bind_assoc]
    refine sendWaiting_test ?_ ?_
    · simp only [Program.bind_assoc]
      exact sendCleared_setPx hcode (fun c m => trivial) (Program.bind_assoc _ _ _) fun r => trivial
    · intro r hr
      rcases r with (_ | _) | ⟨c, m⟩
      · exact absurd rfl hr
      · simp only [Program.bind_assoc]
        exact sendDone_safeTtlSeconds fun n => trivial
      · trivial
  · simp only [Program.bind_assoc]
    exact sendWaiting_safeTtlSeconds fun n => trivial
  · trivial

/-- The write of the key that a move makes: the thread and the instant. -/
def writeAt (key : Bytes) (s : Concurrent) : Move Nat → List (Nat × Nat)
  | .thread i => if (s.pending i).bind Cmd.sets? = some key then [(i, s.shared.clock)] else []
  | .outside _ => []

/-- The writes of the key in a schedule. -/
def keyWrites (key : Bytes) : List (Move Nat) → Concurrent → List (Nat × Nat)
  | [], _ => []
  | m :: rest, s => writeAt key s m ++ keyWrites key rest (System.move exec passTime m s)

/-- The condition on a step: the key is not tested while another call is about to write a code or the
key. -/
def TestsAlone (key : Bytes) (s : Concurrent) : Move Nat → Prop
  | .outside _ => True
  | .thread i => .redis (.existsKey key) ∈ s.pending i → ∀ q ∈ s.threads, q.next?.bind Cmd.sets? = none

instance (key : Bytes) (s : Concurrent) (m : Move Nat) : Decidable (TestsAlone key s m) :=
  match m with
  | .outside _ => .isTrue trivial
  | .thread _ => by unfold TestsAlone; infer_instance

/-- The invariant: at most one call has still to write, and then the writes so far are an interval ago; a
write keeps the key for an interval. -/
structure OneSender (key : Bytes) (ttl : Int) (span : Nat) (writes : List (Nat × Nat)) (s : Concurrent) :
    Prop where
  faults : s.shared.redisFaults = []
  staged : ∀ p ∈ s.threads, SendStage key ttl p
  alone : ∀ (i j : Nat) (p q : Thread), s.threads[i]? = some p → s.threads[j]? = some q →
    SendCleared key ttl p → SendCleared key ttl q → i = j
  past : ∀ e ∈ writes, e.2 ≤ s.shared.clock
  stored : ∀ e ∈ writes, ∃ v d, s.shared.redis key = some ⟨v, some d⟩ ∧ e.2 + span ≤ d
  clear : ∀ p ∈ s.threads, SendCleared key ttl p → ∀ e ∈ writes, e.2 + span ≤ s.shared.clock

section Step

variable {key : Bytes} {ttl : Int} {span : Nat} {writes : List (Nat × Nat)} {s : Concurrent}

/-- A step that does not write the key. -/
theorem OneSender.quiet (h : OneSender key ttl span writes s) {i : Nat} {c : Cmd}
    {next : Service.Reply c → Thread} (hi : s.threads[i]? = some (.call c next)) (hc : c.Spares key)
    {p' : Thread} (hstage : SendStage key ttl p')
    (hclear : SendCleared key ttl p' → SendCleared key ttl (.call c next) ∨
      (∀ (j : Nat) (q : Thread), s.threads[j]? = some q → ¬SendCleared key ttl q) ∧
        ∀ e ∈ writes, e.2 + span ≤ s.shared.clock) :
    OneSender key ttl span writes ⟨(exec c s.shared).2, s.threads.set i p'⟩ := by
  have hclock : (exec c s.shared).2.clock = s.shared.clock := exec_clock _ _
  refine ⟨exec_redisFaults h.faults c, ?_, ?_, ?_, ?_, ?_⟩
  · intro p hp
    rcases List.mem_or_eq_of_mem_set hp with hp | rfl
    · exact h.staged p hp
    · exact hstage
  · -- a call that has still to write now had to before, or nobody else has
    intro j k q r hj hk hq hr
    rcases System.getElem?_set_cases hj with ⟨rfl, rfl⟩ | ⟨-, hj'⟩
    · rcases System.getElem?_set_cases hk with ⟨rfl, -⟩ | ⟨-, hk⟩
      · rfl
      · rcases hclear hq with hbefore | ⟨hnone, -⟩
        · exact h.alone _ _ _ _ hi hk hbefore hr
        · exact absurd hr (hnone k r hk)
    · rcases System.getElem?_set_cases hk with ⟨rfl, rfl⟩ | ⟨-, hk⟩
      · rcases hclear hr with hbefore | ⟨hnone, -⟩
        · exact h.alone _ _ _ _ hj' hi hq hbefore
        · exact absurd hq (hnone j q hj')
      · exact h.alone _ _ _ _ hj' hk hq hr
  · intro e he
    rw [hclock]
    exact h.past e he
  · intro e he
    rw [exec_spares hc]
    exact h.stored e he
  · intro p hp hcleared e he
    rw [hclock]
    rcases List.mem_or_eq_of_mem_set hp with hp | rfl
    · exact h.clear p hp hcleared e he
    · rcases hclear hcleared with hbefore | ⟨-, hall⟩
      · exact h.clear _ (List.mem_of_getElem? hi) hbefore e he
      · exact hall e he

theorem sets?_of_spares {c : Cmd} (hc : c.Spares key) : c.sets? ≠ some key := by
  cases c with
  | now => exact fun h => by cases h
  | sql s => exact fun h => by cases h
  | redis c =>
      cases c with
      | psetex k _ _ =>
          intro h
          cases h
          exact hc rfl
      | _ => exact fun h => by cases h

theorem writeAt_of_call {i : Nat} {c : Cmd} {next : Service.Reply c → Thread}
    (hi : s.threads[i]? = some (.call c next)) :
    writeAt key s (.thread i) = if c.sets? = some key then [(i, s.shared.clock)] else [] := by
  simp [writeAt, System.pending, hi, Program.next?]

/-- The write of the key. -/
theorem OneSender.write (h : OneSender key ttl span writes s) (httl : 0 < ttl)
    (hspan : ∀ now, deadlineAfter now ttl = now + span) {i : Nat} {value : Bytes}
    {next : Service.Reply (.redis (.psetex key ttl value)) → Thread}
    (hi : s.threads[i]? = some (.call (.redis (.psetex key ttl value)) next))
    (hcleared : SendCleared key ttl (.call (.redis (.psetex key ttl value)) next))
    (hnext : ∀ reply, SendDone key (next reply)) :
    OneSender key ttl span (writes ++ [(i, s.shared.clock)])
      ⟨(exec (.redis (.psetex key ttl value)) s.shared).2,
        s.threads.set i (next (exec (.redis (.psetex key ttl value)) s.shared).1)⟩ := by
  have hexec : exec (.redis (.psetex key ttl value)) s.shared =
      (.ok (), { s.shared with
        redis := s.shared.redis.put key ⟨value, some (s.shared.clock + span)⟩ }) := by
    show s.shared.execRedis (.psetex key ttl value) = _
    rw [execRedis_eq h.faults]
    simp only [RedisCmd.apply, if_pos httl, hspan]
  have hold := h.clear _ (List.mem_of_getElem? hi) hcleared
  rw [hexec]
  have hnone : ∀ (j : Nat) (q : Thread), (s.threads.set i (next (.ok ())))[j]? = some q →
      ¬SendCleared key ttl q := by
    intro j q hj hq
    rcases System.getElem?_set_cases hj with ⟨rfl, rfl⟩ | ⟨hne, hj⟩
    · exact hq.not_done (hnext _)
    · exact hne (h.alone _ _ _ _ hj hi hq hcleared)
  refine ⟨h.faults, ?_, ?_, ?_, ?_, ?_⟩
  · intro p hp
    rcases List.mem_or_eq_of_mem_set hp with hp | rfl
    · exact h.staged p hp
    · exact Or.inr (Or.inr (hnext _))
  · intro j k q r hj hk hq _
    exact absurd hq (hnone j q hj)
  · intro e he
    rcases List.mem_append.mp he with he | he
    · exact h.past e he
    · rw [List.mem_singleton.mp he]
  · intro e he
    refine ⟨value, s.shared.clock + span, by simp [Store.put], ?_⟩
    rcases List.mem_append.mp he with he | he
    · have := h.past e he
      omega
    · rw [List.mem_singleton.mp he]
  · intro p hp hq
    obtain ⟨j, hj⟩ := List.mem_iff_getElem?.mp hp
    exact absurd hq (hnone j p hj)

/-- A test of the key that finds it free: every write is an interval ago. -/
theorem OneSender.free (h : OneSender key ttl span writes s)
    (hfree : s.shared.redis.look s.shared.clock key = none) :
    ∀ e ∈ writes, e.2 + span ≤ s.shared.clock := by
  intro e he
  obtain ⟨v, d, hslot, hd⟩ := h.stored e he
  by_contra hlt
  have hlive : (⟨v, some d⟩ : Slot Bytes).Live s.shared.clock := by
    show s.shared.clock < d
    omega
  simp [Store.look, hslot, hlive] at hfree

/-- The test of the key. -/
theorem OneSender.test (h : OneSender key ttl span writes s) {i : Nat}
    {next : Service.Reply (.redis (.existsKey key)) → Thread}
    (hi : s.threads[i]? = some (.call (.redis (.existsKey key)) next))
    (hfree : SendCleared key ttl (next (.ok 0)) ∨ SendDone key (next (.ok 0)))
    (hother : ∀ reply, reply ≠ .ok 0 → SendDone key (next reply))
    (hguard : ∀ q ∈ s.threads, q.next?.bind Cmd.sets? = none) :
    OneSender key ttl span writes ⟨(exec (.redis (.existsKey key)) s.shared).2,
      s.threads.set i (next (exec (.redis (.existsKey key)) s.shared).1)⟩ := by
  have hexec : exec (.redis (.existsKey key)) s.shared =
      (.ok (if (s.shared.redis.look s.shared.clock key).isSome then 1 else 0), s.shared) := by
    show s.shared.execRedis (.existsKey key) = _
    rw [execRedis_eq h.faults]
    rfl
  have hnobody : ∀ (j : Nat) (q : Thread), s.threads[j]? = some q → ¬SendCleared key ttl q := by
    intro j q hj hq
    obtain ⟨k, px, v, next', rfl⟩ := hq.next
    have := hguard _ (List.mem_of_getElem? hj)
    cases this
  refine h.quiet hi trivial ?_ ?_
  · rw [hexec]
    by_cases hlook : (s.shared.redis.look s.shared.clock key).isSome = true
    · rw [if_pos hlook]
      exact Or.inr (Or.inr (hother _ (by simp)))
    · rw [if_neg hlook]
      exact Or.inr hfree
  · intro hcleared
    refine Or.inr ⟨hnobody, h.free ?_⟩
    rw [hexec] at hcleared
    by_contra hsome
    rw [if_pos (Option.isSome_iff_ne_none.mpr hsome)] at hcleared
    exact hcleared.not_done (hother _ (by simp))

/-- **Step.** A permitted move keeps the invariant, and a write that it makes is an interval after the
others. -/
theorem OneSender.move (httl : 0 < ttl) (hspan : ∀ now, deadlineAfter now ttl = now + span)
    (h : OneSender key ttl span writes s) (m : Move Nat) (hguard : TestsAlone key s m) :
    OneSender key ttl span (writes ++ writeAt key s m) (System.move exec passTime m s) ∧
      ∀ e ∈ writes, ∀ e' ∈ writeAt key s m, e.2 + span ≤ e'.2 := by
  have hidle : ∀ {i : Nat} {c : Cmd} {next : Service.Reply c → Thread},
      s.threads[i]? = some (.call c next) → c.Spares key → writeAt key s (.thread i) = [] := by
    intro i c next hi hc
    rw [writeAt_of_call hi, if_neg (sets?_of_spares hc)]
  rcases System.move_cases exec passTime m s with ⟨i, c, next, rfl, hi, hmove⟩ | ⟨delay, rfl, hmove⟩ |
    ⟨i, rfl, hidle', hmove⟩
  · rw [hmove]
    rcases h.staged _ (List.mem_of_getElem? hi) with hwait | hcleared | hdone
    · rcases hwait.step with ⟨next', heq, hfree, hother⟩ | ⟨hc, hnext⟩
      · cases heq
        rw [hidle hi trivial]
        simp only [List.append_nil, List.not_mem_nil, false_implies, implies_true, and_true]
        exact h.test hi hfree hother (hguard (System.pending_of_call hi))
      · rw [hidle hi hc]
        simp only [List.append_nil, List.not_mem_nil, false_implies, implies_true, and_true]
        exact h.quiet hi hc (Or.inl (hnext _)) fun hq => absurd hq (hnext _).not_cleared
    · rcases hcleared with ⟨value, next', hp, hnext⟩ | ⟨code, px, value, next', hp, hne, hdue, hnext⟩
      · cases hp
        have hwrite : writeAt key s (.thread i) = [(i, s.shared.clock)] := by
          rw [writeAt_of_call hi]
          exact if_pos rfl
        rw [hwrite]
        have hcleared : SendCleared key ttl (.call (.redis (.psetex key ttl value)) next') :=
          Or.inl ⟨value, next', rfl, hnext⟩
        refine ⟨h.write httl hspan hi hcleared hnext, ?_⟩
        intro e he e' he'
        rw [List.mem_singleton.mp he']
        exact h.clear _ (List.mem_of_getElem? hi) hcleared e he
      · cases hp
        rw [hidle hi hne]
        simp only [List.append_nil, List.not_mem_nil, false_implies, implies_true, and_true]
        refine h.quiet hi hne ?_ fun _ => Or.inl (Or.inr ⟨code, px, value, next', rfl, hne, hdue, hnext⟩)
        rcases hnext (exec (.redis (.psetex code px value)) s.shared).1 with hnext | hnext
        · exact Or.inr (Or.inl (Or.inl hnext))
        · exact Or.inr (Or.inr hnext)
    · rw [hidle hi hdone.1]
      simp only [List.append_nil, List.not_mem_nil, false_implies, implies_true, and_true]
      exact h.quiet hi hdone.1 (Or.inr (Or.inr (hdone.2 _))) fun hc => absurd (hdone.2 _) hc.not_done
  · rw [hmove]
    have hlater : s.shared.clock ≤ (passTime delay s.shared).clock := Nat.le_add_right _ _
    simp only [writeAt, List.append_nil, List.not_mem_nil, false_implies, implies_true, and_true]
    exact ⟨h.faults, h.staged, h.alone, fun e he => (h.past e he).trans hlater, h.stored,
      fun p hp hq e he => (h.clear p hp hq e he).trans hlater⟩
  · rw [hmove]
    have hnone : writeAt key s (.thread i) = [] := by simp [writeAt, hidle']
    rw [hnone]
    simp only [List.append_nil, List.not_mem_nil, false_implies, implies_true, and_true]
    exact h

/-- **Run.** In a schedule of permitted moves, every two writes of the key are an interval apart. -/
theorem OneSender.play (httl : 0 < ttl) (hspan : ∀ now, deadlineAfter now ttl = now + span)
    (schedule : List (Move Nat)) (h : OneSender key ttl span writes s)
    (hpast : writes.Pairwise fun a b => a.2 + span ≤ b.2)
    (hguard : System.Meets exec passTime (TestsAlone key) schedule s) :
    (writes ++ keyWrites key schedule s).Pairwise fun a b => a.2 + span ≤ b.2 := by
  induction schedule generalizing writes s with
  | nil =>
      rw [keyWrites, List.append_nil]
      exact hpast
  | cons m rest ih =>
      obtain ⟨hnext, happart⟩ := h.move httl hspan m hguard.1
      rw [keyWrites, ← List.append_assoc]
      refine ih hnext ?_ hguard.2
      refine List.pairwise_append.mpr ⟨hpast, ?_, happart⟩
      cases m with
      | outside delay => exact List.Pairwise.nil
      | thread i =>
          simp only [writeAt]
          split
          · exact List.pairwise_singleton _ _
          · exact List.Pairwise.nil

end Step

/-- No two calls that have returned `Ok` have written the key of the mobile within an interval. -/
def SendsSpaced (config : SmsConfig) (mobile : Bytes) (schedule : List (Move Nat)) (s : Concurrent) : Prop :=
  (keyWrites (intervalKey mobile) schedule s).Pairwise fun a b =>
    acceptedAt (interleave schedule s) a.1 = true → acceptedAt (interleave schedule s) b.1 = true →
      a.2 + lifetime config.sendIntervalSeconds ≤ b.2

/-- Calls of `SendCaptcha` for one mobile, each with its scene and the code it draws. -/
def sendThreads (config : SmsConfig) (mobile : Bytes) (calls : List (SmsScene × Bytes)) : List Thread :=
  calls.map fun c => sendThread config c.2 c.1 mobile

/-- **Rate limit, alone.** If every step of a schedule meets `TestsAlone`, the calls that return `Ok` are an
interval apart. -/
theorem send_rate_limit (config : SmsConfig) (hinterval : Convertible config.sendIntervalSeconds)
    (mobile : Bytes) (calls : List (SmsScene × Bytes)) (w : World) (hw : w.redisFaults = [])
    (schedule : List (Move Nat))
    (hguard : System.Meets exec passTime (TestsAlone (intervalKey mobile)) schedule
      ⟨w, sendThreads config mobile calls⟩) :
    SendsSpaced config mobile schedule ⟨w, sendThreads config mobile calls⟩ := by
  have hstart : ∀ p ∈ sendThreads config mobile calls,
      SendWaiting (intervalKey mobile) (millis config.sendIntervalSeconds) p := by
    intro p hp
    obtain ⟨c, -, rfl⟩ := List.mem_map.mp hp
    exact sendWaiting_sendThread config c.2 c.1 mobile
  have hinit : OneSender (intervalKey mobile) (millis config.sendIntervalSeconds)
      (lifetime config.sendIntervalSeconds) [] ⟨w, sendThreads config mobile calls⟩ := by
    refine ⟨hw, fun p hp => Or.inl (hstart p hp), ?_, ?_, ?_, ?_⟩
    · intro i j p q hi _ hp _
      exact absurd hp (hstart p (List.mem_of_getElem? hi)).not_cleared
    · exact fun e he => absurd he List.not_mem_nil
    · exact fun e he => absurd he List.not_mem_nil
    · exact fun p _ _ e he => absurd he List.not_mem_nil
  have hpairs := hinit.play hinterval.millis_pos hinterval.deadline schedule List.Pairwise.nil hguard
  rw [List.nil_append] at hpairs
  exact hpairs.imp fun h _ _ => h

/-- Two calls for different scenes. -/
def sendingTwice : Concurrent :=
  ⟨emptyWorld 0, sendThreads {} (ascii "13800138000")
    [(.register, ascii "123456"), (.login, ascii "654321")]⟩

/-- Each tests the key before the other one writes it. -/
def sendRaceSchedule : List (Move Nat) :=
  List.replicate 2 (.thread 0) ++ List.replicate 2 (.thread 1) ++ List.replicate 2 (.thread 0) ++
    List.replicate 2 (.thread 1)

theorem sent_twice : ¬SendsSpaced {} (ascii "13800138000") sendRaceSchedule sendingTwice := by
  have hrun : keyWrites (intervalKey (ascii "13800138000")) sendRaceSchedule sendingTwice = [(0, 0), (1, 0)] ∧
      acceptedAt (interleave sendRaceSchedule sendingTwice) 0 = true ∧
      acceptedAt (interleave sendRaceSchedule sendingTwice) 1 = true := by
    decide +kernel
  intro h
  rw [SendsSpaced, hrun.1] at h
  have hspan := (List.pairwise_pair.mp h) hrun.2.1 hrun.2.2
  exact absurd hspan (by decide)

/-- One call after the other, the second one a minute later. -/
def sendInTurn : List (Move Nat) :=
  List.replicate 4 (.thread 0) ++ [.outside (60 * nanosPerSecond)] ++ List.replicate 4 (.thread 1)

theorem send_rate_limit_sample : SendsSpaced {} (ascii "13800138000") sendInTurn sendingTwice := by
  have hguard : System.Meets exec passTime (TestsAlone (intervalKey (ascii "13800138000"))) sendInTurn
      sendingTwice := by
    decide +kernel
  exact send_rate_limit {} ⟨by decide, by decide⟩ (ascii "13800138000") _ (emptyWorld 0) rfl sendInTurn hguard

end AccountService
