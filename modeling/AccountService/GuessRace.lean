import AccountService.SendRace

/-! Several `VerifyCaptcha` for one scene and mobile at the same time. The lock is tested, the code is read
and a wrong guess is counted by different commands: any number of calls can have read the code before the
first of them is counted, and a right guess can be accepted while the lock is being written. -/

namespace AccountService

open Expiring Interaction

/-- The keys and the settings of the calls for one scene and mobile. -/
structure GuessSetting where
  lock : Bytes
  code : Bytes
  count : Bytes
  limit : Int
  retryMs : Int
  lockMs : Int
  lock_ne_code : lock ≠ code
  lock_ne_count : lock ≠ count
  code_ne_count : code ≠ count

/-- The setting of a scene and a mobile. -/
def guessSetting (config : SmsConfig) (scene : SmsScene) (mobile : Bytes) : GuessSetting where
  lock := lockKey scene mobile
  code := captchaKey scene mobile
  count := verifyCountKey scene mobile
  limit := config.maxRetryCount.toInt
  retryMs := millis config.retryTtlSeconds
  lockMs := millis config.lockSeconds
  lock_ne_code h := by
    cases ServiceKey.text_injective
      (show (ServiceKey.lock scene mobile).text = (ServiceKey.code scene mobile).text from h)
  lock_ne_count h := by
    cases ServiceKey.text_injective
      (show (ServiceKey.lock scene mobile).text = (ServiceKey.count scene mobile).text from h)
  code_ne_count h := by
    cases ServiceKey.text_injective
      (show (ServiceKey.code scene mobile).text = (ServiceKey.count scene mobile).text from h)

section Stages

variable (g : GuessSetting)

/-- The command writes none of the three keys and does not read the code. -/
def GuessSetting.Spares (c : Cmd) : Prop :=
  c.Spares g.lock ∧ c.Spares g.code ∧ c.Spares g.count ∧ c ≠ .redis (.get g.code)

/-- The call has failed, up to commands that write nothing. -/
def GuessOver (p : Thread) : Prop :=
  Program.Uses g.Spares p ∧ Program.Returns (fun o => o.isOk = false) p

/-- The lock is written and the code deleted; the counter goes next. -/
def Clearing (p : Thread) : Prop :=
  ∃ next, p = .call (.redis (.del g.count)) next ∧ ∀ reply, GuessOver g (next reply)

/-- The lock is written; the code goes next. -/
def Dropping (p : Thread) : Prop :=
  ∃ next, p = .call (.redis (.del g.code)) next ∧ ∀ reply, Clearing g (next reply)

/-- The lock is written next. -/
def Locking (p : Thread) : Prop :=
  ∃ value next, p = .call (.redis (.psetex g.lock g.lockMs value)) next ∧ ∀ reply, Dropping g (next reply)

/-- The guess has been counted as number `n`; the counter gets its time to live next. -/
def Stamping (n : Int) (p : Thread) : Prop :=
  ∃ next, p = .call (.redis (.pexpire g.count g.retryMs)) next ∧
    ∀ reply, if g.limit ≤ n then Locking g (next reply) else GuessOver g (next reply)

/-- The guess was wrong and is counted next. -/
def Counting (p : Thread) : Prop :=
  ∃ next, p = .call (.redis (.incr g.count)) next ∧ (∀ n, Stamping g n (next (.ok n))) ∧
    ∀ e, GuessOver g (next (.error e))

/-- The guess was right; the counter goes next, and the call returns `Ok`. -/
def Passing (p : Thread) : Prop :=
  ∃ next, p = .call (.redis (.del g.count)) next ∧ ∀ reply, Thread.Accepted (next reply)

/-- The code is read next. -/
def Reading (guess : Bytes) (p : Thread) : Prop :=
  ∃ next, p = .call (.redis (.get g.code)) next ∧
    (∀ code, if guess ≠ code then Counting g (next (.ok (some code))) else Passing g (next (.ok (some code)))) ∧
    ∀ reply, (∀ code, reply ≠ .ok (some code)) → GuessOver g (next reply)

/-- The lock is tested next. -/
def Testing (guess : Bytes) (p : Thread) : Prop :=
  ∃ next, p = .call (.redis (.existsKey g.lock)) next ∧ Reading g guess (next (.ok 0)) ∧
    ∀ reply, reply ≠ .ok 0 → GuessOver g (next reply)

/-- Where a call with a guess is. -/
inductive GuessStage (guess : Bytes) (p : Thread) : Prop
  | testing (h : Testing g guess p)
  | reading (h : Reading g guess p)
  | counting (h : Counting g p)
  | stamping (n : Int) (h : Stamping g n p)
  | locking (h : Locking g p)
  | dropping (h : Dropping g p)
  | clearing (h : Clearing g p)
  | passing (h : Passing g p)
  | ended (h : GuessOver g p)
  | accepted (h : p.Accepted)

end Stages

/-- A `VerifyCaptcha` in flight. -/
def guessThread (config : SmsConfig) (scene : SmsScene) (mobile guess : Bytes) : Thread :=
  answered (fun _ => .nothing) (verifyCaptcha config scene mobile guess)

section Start

variable {g : GuessSetting}

theorem guessOver_safeTtlSeconds {key : Bytes} {default : Int} {next : Int → Thread}
    (h : ∀ n, GuessOver g (next n)) : GuessOver g (safeTtlSeconds key default >>= next) := by
  have hcall : g.Spares (.redis (.pttl key)) := ⟨trivial, trivial, trivial, by simp⟩
  refine ⟨⟨hcall, fun reply => ?_⟩, fun reply => ?_⟩
  · rcases reply with e | ms <;> exact (h _).1
  · rcases reply with e | ms <;> exact (h _).2

theorem guessOver_done {o : Outcome Answer} (h : o.isOk = false) : GuessOver g (.done o) := ⟨trivial, h⟩

theorem testing_existsKey {guess : Bytes} {next : Result Bool → Thread}
    (hfree : Reading g guess (next (.ok false))) (hother : ∀ r, r ≠ .ok false → GuessOver g (next r)) :
    Testing g guess (existsKey g.lock >>= next) := by
  refine ⟨_, rfl, hfree, fun reply hreply => ?_⟩
  rcases reply with e | n
  · exact hother (.failWith .serviceUnavailable e) (Result.failWith_ne_ok _ _ _)
  · refine hother (.ok (decide (0 < n))) fun h => hreply ?_
    have hn : ¬0 < n := by simpa using h
    rw [Nat.eq_zero_of_not_pos hn]

theorem reading_get {guess : Bytes} {next : Result (Option Bytes) → Thread}
    (hsome : ∀ code, if guess ≠ code then Counting g (next (.ok (some code)))
      else Passing g (next (.ok (some code))))
    (hnone : GuessOver g (next (.ok none))) (hfail : ∀ c m, GuessOver g (next (.failWith c m))) :
    Reading g guess (get g.code >>= next) := by
  refine ⟨_, rfl, hsome, fun reply hreply => ?_⟩
  rcases reply with e | _ | code
  · exact hfail _ _
  · exact hnone
  · exact absurd rfl (hreply code)

theorem passing_del {next : Result Bool → Thread} (h : ∀ r, Thread.Accepted (next r)) :
    Passing g (del g.count >>= next) := by
  refine ⟨_, rfl, fun reply => ?_⟩
  cases reply <;> exact h _

theorem counting_incr {next : Result Int → Thread} (hok : ∀ n, Stamping g n (next (.ok n)))
    (hfail : ∀ c m, GuessOver g (next (.failWith c m))) : Counting g (incr g.count >>= next) :=
  ⟨_, rfl, hok, fun _ => hfail _ _⟩

theorem stamping_pExpire {n : Int} {next : Result Bool → Thread}
    (h : ∀ r, if g.limit ≤ n then Locking g (next r) else GuessOver g (next r)) :
    Stamping g n (pExpire g.count g.retryMs >>= next) := by
  refine ⟨_, rfl, fun reply => ?_⟩
  cases reply <;> exact h _

theorem locking_setPx (hpos : 0 < g.lockMs) {value : Bytes} {next : Result Unit → Thread}
    (h : ∀ r, Dropping g (next r)) : Locking g (setPx g.lock value g.lockMs >>= next) := by
  rw [setPx, if_neg (not_le.mpr hpos)]
  refine ⟨_, _, rfl, fun reply => ?_⟩
  cases reply <;> exact h _

theorem dropping_del {next : Result Bool → Thread} (h : ∀ r, Clearing g (next r)) :
    Dropping g (del g.code >>= next) := by
  refine ⟨_, rfl, fun reply => ?_⟩
  cases reply <;> exact h _

theorem clearing_del {next : Result Bool → Thread} (h : ∀ r, GuessOver g (next r)) :
    Clearing g (del g.count >>= next) := by
  refine ⟨_, rfl, fun reply => ?_⟩
  cases reply <;> exact h _

/-- A wrong guess: it is counted, and the pair is locked when the count reaches the limit. -/
theorem counting_countWrongCode (config : SmsConfig) (scene : SmsScene) (mobile : Bytes)
    (hlock : 0 < millis config.lockSeconds) {next : Result Unit → Thread}
    (hnext : ∀ c m, ∃ o, next (.failWith c m) = .done o ∧ o.isOk = false) :
    Counting (guessSetting config scene mobile) (countWrongCode config scene mobile >>= next) := by
  have hover : ∀ c m, GuessOver (guessSetting config scene mobile) (next (.failWith c m)) := by
    intro c m
    obtain ⟨o, ho, hok⟩ := hnext c m
    rw [ho]
    exact guessOver_done hok
  simp only [countWrongCode, Program.bind_assoc]
  refine counting_incr (fun n => ?_) fun c m => hover _ _
  simp only [Program.bind_assoc]
  refine stamping_pExpire fun r => ?_
  show if config.maxRetryCount.toInt ≤ n then _ else _
  by_cases hn : config.maxRetryCount.toInt ≤ n
  · simp only [if_pos hn, Program.bind_assoc]
    exact locking_setPx hlock fun r => dropping_del fun r => clearing_del fun r => hover _ _
  · simp only [if_neg hn]
    exact hover _ _

/-- **Start.** A `VerifyCaptcha` starts with the test of the lock. -/
theorem testing_guessThread (config : SmsConfig) (scene : SmsScene) (mobile guess : Bytes)
    (hlock : 0 < millis config.lockSeconds) :
    Testing (guessSetting config scene mobile) guess (guessThread config scene mobile guess) := by
  simp only [guessThread, answered, verifyCaptcha, Program.bind_assoc]
  refine testing_existsKey ?_ ?_
  · simp only [Program.bind_assoc]
    refine reading_get (fun code => ?_) (guessOver_done rfl) fun c m => guessOver_done rfl
    by_cases hguess : guess ≠ code
    · simp only [if_pos hguess]
      exact counting_countWrongCode config scene mobile hlock fun c m => ⟨_, rfl, rfl⟩
    · simp only [if_neg hguess, Program.bind_assoc]
      exact passing_del fun r => ⟨_, rfl, rfl⟩
  · intro r hr
    rcases r with (_ | _) | ⟨c, m⟩
    · exact absurd rfl hr
    · simp only [Program.bind_assoc]
      exact guessOver_safeTtlSeconds fun n => guessOver_done rfl
    · exact guessOver_done rfl

end Start

section Run

variable (g : GuessSetting) (guesses : List Bytes)

/-- The wrong guesses counted so far. -/
def counterOf (w : World) : Int :=
  match w.redis.look w.clock g.count with
  | none => 0
  | some e => (redisInt e.value).getD 0

/-- The call counts its wrong guess next. -/
def countsNext (p : Thread) : Bool := p.next? = some (.redis (.incr g.count))

/-- The calls whose wrong guess has not been counted yet. -/
def uncounted (s : Concurrent) : Nat := s.threads.countP (countsNext g)

/-- Some call has still to give the counter its time to live. -/
def StampPending (s : Concurrent) : Prop :=
  ∃ q ∈ s.threads, q.next? = some (.redis (.pexpire g.count g.retryMs))

/-- The call has one deletion left and then returns `Ok`. -/
def Thread.endsOk : Thread → Bool
  | .call (.redis (.del _)) next => (Program.result? (next (.ok 0))).any (·.isOk)
  | _ => false

/-- The wrong guess that a move compares with the code. -/
def wrongAt (s : Concurrent) : Move Nat → Nat
  | .outside _ => 0
  | .thread i =>
      if .redis (.get g.code) ∈ s.pending i then
        match s.shared.redis.look s.shared.clock g.code with
        | none => 0
        | some e => if guesses[i]? = some e.value then 0 else 1
      else 0

/-- The wrong guesses that a schedule compares with the code. -/
def wrongGuesses : List (Move Nat) → Concurrent → Nat
  | [], _ => 0
  | m :: rest, s => wrongAt g guesses s m + wrongGuesses rest (System.move exec passTime m s)

/-- The condition on a step. The code is read with the lock open and, for a wrong guess, with room for it
beside the guesses counted and still to be counted; the lock is written when no accepted guess is on its
way; the counter does not expire before it has got its time to live. -/
def GuessesAlone (s : Concurrent) : Move Nat → Prop
  | .outside delay => StampPending g s →
      (s.shared.redis.look s.shared.clock g.count).isSome = true →
        (s.shared.redis.look (s.shared.clock + delay) g.count).isSome = true
  | .thread i =>
      (.redis (.get g.code) ∈ s.pending i → ∀ e ∈ s.shared.redis.look s.shared.clock g.code,
        s.shared.redis.look s.shared.clock g.lock = none ∧
          (guesses[i]? ≠ some e.value → counterOf g s.shared + uncounted g s < g.limit)) ∧
      ((s.pending i).bind Cmd.sets? = some g.lock → ∀ q ∈ s.threads, Thread.endsOk q = false)

instance (s : Concurrent) (m : Move Nat) : Decidable (GuessesAlone g guesses s m) :=
  match m with
  | .outside _ => by unfold GuessesAlone StampPending; infer_instance
  | .thread _ => by unfold GuessesAlone; infer_instance

/-- The counter stays until `bound`. -/
def CounterKept (bound : Nat) (s : Concurrent) : Prop :=
  ∃ e, s.shared.redis.look s.shared.clock g.count = some e ∧
    (e.deadline = none ∨ (∃ d, e.deadline = some d ∧ bound ≤ d) ∨ StampPending g s)

/-- Every wrong guess has been counted or is about to be, unless the code is gone. -/
def GuessTally (bound wrong : Nat) (s : Concurrent) : Prop :=
  (s.shared.redis.look s.shared.clock g.code = none ∧ wrong ≤ g.limit) ∨
    ∃ counted : Nat, wrong ≤ counted + uncounted g s ∧ counted ≤ counterOf g s.shared ∧
      (0 < counted → CounterKept g bound s)

/-- The invariant; the wrong guesses are tallied while no guess has been accepted. -/
structure GuessInv (bound wrong : Nat) (s : Concurrent) : Prop where
  faults : s.shared.redisFaults = []
  staged : ∀ (i : Nat) (p : Thread), s.threads[i]? = some p →
    ∃ guess, guesses[i]? = some guess ∧ GuessStage g guess p
  number : ∀ e, s.shared.redis.look s.shared.clock g.count = some e →
    ∃ n : Nat, IsInt64 n ∧ e.value = toString n
  room : counterOf g s.shared + uncounted g s ≤ g.limit
  passing : ∀ p ∈ s.threads, Passing g p → s.shared.redis.look s.shared.clock g.lock = none
  clearing : ∀ p ∈ s.threads, Clearing g p → s.shared.redis.look s.shared.clock g.code = none
  window : bound ≤ deadlineAfter s.shared.clock g.retryMs
  tally : (∀ p ∈ s.threads, ¬Thread.Accepted p) → GuessTally g bound wrong s

end Run

section Step

variable {g : GuessSetting} {guesses : List Bytes} {bound wrong : Nat} {s : Concurrent}

theorem uncounted_set {i : Nat} {p : Thread} (hi : s.threads[i]? = some p) (p' : Thread) (w' : World) :
    uncounted g ⟨w', s.threads.set i p'⟩ + (countsNext g p).toNat =
      uncounted g s + (countsNext g p').toNat := by
  obtain ⟨hlt, hp⟩ := List.getElem?_eq_some_iff.mp hi
  have hset : (s.threads.set i p').countP (countsNext g) = _ := List.countP_set hlt
  have hpos : (countsNext g p).toNat ≤ s.threads.countP (countsNext g) := by
    cases hnext : countsNext g p with
    | false => exact Nat.zero_le _
    | true => exact List.countP_pos_iff.mpr ⟨p, List.mem_of_getElem? hi, hnext⟩
  have hite : ∀ b : Bool, (if b = true then 1 else 0) = b.toNat := by decide
  rw [hp, hite, hite] at hset
  simp only [uncounted]
  omega

/-- A call that has still to give the counter its time to live keeps it while another call moves. -/
theorem StampPending.set (h : StampPending g s) {i : Nat} {p p' : Thread} (hi : s.threads[i]? = some p)
    (hp : p.next? ≠ some (.redis (.pexpire g.count g.retryMs))) (w' : World) :
    StampPending g ⟨w', s.threads.set i p'⟩ := by
  obtain ⟨q, hq, hnext⟩ := h
  obtain ⟨j, hj⟩ := List.mem_iff_getElem?.mp hq
  have hne : i ≠ j := by
    rintro rfl
    rw [hi] at hj
    cases hj
    exact hp hnext
  exact ⟨q, List.mem_of_getElem? ((List.getElem?_set_ne hne).trans hj), hnext⟩

theorem countsNext_of_ne {c : Cmd} {next : Service.Reply c → Thread} (hc : c ≠ .redis (.incr g.count)) :
    countsNext g (.call c next) = false := by
  simp only [countsNext, Program.next?, Option.some.injEq, decide_eq_false_iff_not]
  exact hc

/-- The thread counts nothing next and deletes no counter next. -/
structure Neutral (g : GuessSetting) (p : Thread) : Prop where
  count : countsNext g p = false
  pass : ¬Passing g p
  clear : ¬Clearing g p

theorem neutral_call {c : Cmd} {next : Service.Reply c → Thread} (hincr : c ≠ .redis (.incr g.count))
    (hdel : c ≠ .redis (.del g.count)) : Neutral g (.call c next) := by
  refine ⟨countsNext_of_ne hincr, ?_, ?_⟩
  · rintro ⟨next', hp, -⟩
    cases hp
    exact hdel rfl
  · rintro ⟨next', hp, -⟩
    cases hp
    exact hdel rfl

theorem neutral_done (o : Outcome Answer) : Neutral g (.done o) := by
  refine ⟨rfl, ?_, ?_⟩
  · rintro ⟨next', hp, -⟩
    cases hp
  · rintro ⟨next', hp, -⟩
    cases hp

theorem GuessOver.neutral {p : Thread} (h : GuessOver g p) : Neutral g p := by
  cases p with
  | done o => exact neutral_done o
  | call c next =>
      refine neutral_call ?_ ?_
      · rintro rfl
        exact h.1.1.2.2.1 rfl
      · rintro rfl
        exact h.1.1.2.2.1 rfl

theorem counterOf_some {w : World} {e : Slot Bytes} {n : Nat} (hn : IsInt64 n)
    (he : w.redis.look w.clock g.count = some e) (hvalue : e.value = toString n) : counterOf g w = n := by
  simp only [counterOf, he, hvalue, redisInt_toString hn, Option.getD_some]

theorem counterOf_none {w : World} (h : w.redis.look w.clock g.count = none) : counterOf g w = 0 := by
  simp only [counterOf, h]

theorem GuessInv.counter_nonneg (h : GuessInv g guesses bound wrong s) : 0 ≤ counterOf g s.shared := by
  cases he : s.shared.redis.look s.shared.clock g.count with
  | none => rw [counterOf_none he]
  | some e =>
      obtain ⟨n, hn, hvalue⟩ := h.number e he
      rw [counterOf_some hn he hvalue]
      exact Int.natCast_nonneg n

/-- The tally bounds the wrong guesses. -/
theorem GuessInv.wrong_le (h : GuessInv g guesses bound wrong s) (htally : GuessTally g bound wrong s) :
    wrong ≤ g.limit := by
  rcases htally with ⟨-, hle⟩ | ⟨counted, hle, hcounted, -⟩
  · exact hle
  · have := h.room
    omega

/-- What a step of thread `i` has to show. -/
theorem GuessInv.step (h : GuessInv g guesses bound wrong s) {i : Nat} {c : Cmd}
    {next : Service.Reply c → Thread} (hi : s.threads[i]? = some (.call c next)) {wrong' : Nat} {p' : Thread}
    {w' : World} (hw : w' = (exec c s.shared).2)
    (hstage : ∀ guess, guesses[i]? = some guess → GuessStage g guess p')
    (hnumber : ∀ e, w'.redis.look w'.clock g.count = some e → ∃ n : Nat, IsInt64 n ∧ e.value = toString n)
    (hroom : counterOf g w' + uncounted g ⟨w', s.threads.set i p'⟩ ≤ g.limit)
    (hpassing : ∀ p ∈ s.threads, Passing g p → w'.redis.look w'.clock g.lock = none)
    (hpass : Passing g p' → w'.redis.look w'.clock g.lock = none)
    (hclearing : s.shared.redis.look s.shared.clock g.code = none → w'.redis.look w'.clock g.code = none)
    (hclear : Clearing g p' → w'.redis.look w'.clock g.code = none)
    (htally : ¬Thread.Accepted p' → GuessTally g bound wrong s →
      GuessTally g bound wrong' ⟨w', s.threads.set i p'⟩) :
    GuessInv g guesses bound wrong' ⟨w', s.threads.set i p'⟩ := by
  have hlt := (List.getElem?_eq_some_iff.mp hi).1
  refine ⟨?_, ?_, hnumber, hroom, forall_mem_set hpassing hpass,
    forall_mem_set (fun p hp hq => hclearing (h.clearing p hp hq)) hclear, ?_, ?_⟩
  · rw [hw]
    exact exec_redisFaults h.faults c
  · intro j q hj
    rcases System.getElem?_set_cases hj with ⟨rfl, rfl⟩ | ⟨-, hj⟩
    · obtain ⟨guess, hguess, -⟩ := h.staged _ _ hi
      exact ⟨guess, hguess, hstage guess hguess⟩
    · exact h.staged j q hj
  · rw [hw, exec_clock]
    exact h.window
  · intro hnone
    refine htally (hnone p' (List.mem_of_getElem? (List.getElem?_set_self hlt))) (h.tally ?_)
    intro p hp haccepted
    obtain ⟨j, hj⟩ := List.mem_iff_getElem?.mp hp
    by_cases hij : i = j
    · subst hij
      rw [hi] at hj
      cases hj
      obtain ⟨o, ho, -⟩ := haccepted
      cases ho
    · exact hnone p (List.mem_of_getElem? ((List.getElem?_set_ne hij).trans hj)) haccepted

/-- A step that does not write the counter; a wrong guess that it has compared has room. -/
theorem GuessInv.quiet (h : GuessInv g guesses bound wrong s) {i : Nat} {c : Cmd}
    {next : Service.Reply c → Thread} (hi : s.threads[i]? = some (.call c next)) (hc : c.Spares g.count)
    {p' : Thread} {w' : World} (hw : w' = (exec c s.shared).2) {wrong' : Nat}
    (hstage : ∀ guess, guesses[i]? = some guess → GuessStage g guess p')
    (hwrong : wrong' ≤ wrong + (countsNext g p').toNat)
    (hroom : countsNext g p' = true → counterOf g s.shared + uncounted g s < g.limit ∧
      s.shared.redis.look s.shared.clock g.code ≠ none)
    (hpassing : ∀ p ∈ s.threads, Passing g p → w'.redis.look w'.clock g.lock = none)
    (hpass : Passing g p' → w'.redis.look w'.clock g.lock = none)
    (hclearing : s.shared.redis.look s.shared.clock g.code = none → w'.redis.look w'.clock g.code = none)
    (hclear : Clearing g p' → w'.redis.look w'.clock g.code = none) :
    GuessInv g guesses bound wrong' ⟨w', s.threads.set i p'⟩ := by
  have hcount : w'.redis.look w'.clock g.count = s.shared.redis.look s.shared.clock g.count := by
    rw [hw]
    exact look_exec hc s.shared
  have hcounter : counterOf g w' = counterOf g s.shared := by
    simp only [counterOf, hcount]
  have hincr : c ≠ .redis (.incr g.count) := by
    rintro rfl
    exact hc rfl
  have huncounted : uncounted g ⟨w', s.threads.set i p'⟩ = uncounted g s + (countsNext g p').toNat := by
    have := uncounted_set hi p' w' (g := g)
    rw [countsNext_of_ne hincr] at this
    exact this
  have hlimit := h.room
  refine h.step hi hw hstage ?_ ?_ hpassing hpass hclearing hclear ?_
  · rw [hcount]
    exact h.number
  · rw [hcounter, huncounted]
    cases hnext : countsNext g p' with
    | false => simpa using hlimit
    | true =>
        have := (hroom hnext).1
        simp only [Bool.toNat_true, Nat.cast_add, Nat.cast_one]
        omega
  · rintro - (⟨hgone, hle⟩ | ⟨counted, hle, hcounted, hkept⟩)
    · refine Or.inl ⟨hclearing hgone, ?_⟩
      cases hnext : countsNext g p' with
      | false =>
          rw [hnext] at hwrong
          simp only [Bool.toNat_false, Nat.add_zero] at hwrong
          omega
      | true => exact absurd hgone (hroom hnext).2
    · refine Or.inr ⟨counted, ?_, hcounter.symm ▸ hcounted, fun hpos => ?_⟩
      · rw [huncounted]
        omega
      · obtain ⟨e, he, hdeadline⟩ := hkept hpos
        refine ⟨e, hcount.trans he, ?_⟩
        rcases hdeadline with hd | hd | hpending
        · exact Or.inl hd
        · exact Or.inr (Or.inl hd)
        · refine Or.inr (Or.inr (hpending.set hi ?_ _))
          intro heq
          cases heq
          exact hc rfl

/-- A step that writes none of the keys. -/
theorem GuessInv.idle (h : GuessInv g guesses bound wrong s) {i : Nat} {c : Cmd}
    {next : Service.Reply c → Thread} (hi : s.threads[i]? = some (.call c next)) (hc : g.Spares c)
    {p' : Thread} (hstage : ∀ guess, guesses[i]? = some guess → GuessStage g guess p')
    (hneutral : Neutral g p') :
    GuessInv g guesses bound wrong ⟨(exec c s.shared).2, s.threads.set i p'⟩ := by
  refine h.quiet hi hc.2.2.1 rfl hstage (Nat.le_add_right _ _) ?_ ?_ (fun hp => absurd hp hneutral.pass) ?_
    (fun hp => absurd hp hneutral.clear)
  · intro hnext
    rw [hneutral.count] at hnext
    cases hnext
  · rw [look_exec hc.1]
    exact h.passing
  · rw [look_exec hc.2.1]
    exact id

/-- The count of a wrong guess. -/
theorem GuessInv.counted (h : GuessInv g guesses bound wrong s) (hlimit : g.limit < 2 ^ 63) {i : Nat}
    {next : Service.Reply (.redis (.incr g.count)) → Thread}
    (hi : s.threads[i]? = some (.call (.redis (.incr g.count)) next)) (hok : ∀ n, Stamping g n (next (.ok n))) :
    GuessInv g guesses bound wrong ⟨(exec (.redis (.incr g.count)) s.shared).2,
      s.threads.set i (next (exec (.redis (.incr g.count)) s.shared).1)⟩ := by
  have hroom := h.room
  have hself : countsNext g (.call (.redis (.incr g.count)) next) = true := by simp [countsNext, Program.next?]
  have hone : 0 < uncounted g s := List.countP_pos_iff.mpr ⟨_, List.mem_of_getElem? hi, hself⟩
  -- the counter before, the reply and what is stored after
  obtain ⟨n, deadline, hcounter, hincr, hcount⟩ : ∃ (n : Nat) (deadline : Option Nat),
      counterOf g s.shared = n ∧ (exec (.redis (.incr g.count)) s.shared).1 = .ok ((n : Int) + 1) ∧
      (exec (.redis (.incr g.count)) s.shared).2.redis.look (exec (.redis (.incr g.count)) s.shared).2.clock g.count =
        some ⟨toString ((n : Int) + 1), deadline⟩ := by
    cases he : s.shared.redis.look s.shared.clock g.count with
    | none => exact ⟨0, none, counterOf_none he, look_exec_incr_none h.faults he⟩
    | some e =>
        obtain ⟨n, hn, hvalue⟩ := h.number e he
        have hcounter := counterOf_some hn he hvalue
        have hnext : IsInt64 ((n : Int) + 1) := by
          have := hn.1
          refine ⟨?_, ?_⟩ <;> omega
        exact ⟨n, e.deadline, hcounter, look_exec_incr h.faults he hvalue hn hnext⟩
  have hlook : ∀ key, key ≠ g.count → (exec (.redis (.incr g.count)) s.shared).2.redis.look
      (exec (.redis (.incr g.count)) s.shared).2.clock key = s.shared.redis.look s.shared.clock key :=
    fun key hkey => look_exec (spares_of_ne (Ne.symm hkey)) s.shared
  have hnext : IsInt64 ((n + 1 : Nat) : Int) := by
    refine ⟨?_, ?_⟩ <;> push_cast <;> omega
  have hcounter' : counterOf g (exec (.redis (.incr g.count)) s.shared).2 = (n + 1 : Nat) :=
    counterOf_some hnext hcount rfl
  obtain ⟨rest, hp', hrest⟩ := hok (n + 1)
  have hreply : next (exec (.redis (.incr g.count)) s.shared).1 =
      .call (.redis (.pexpire g.count g.retryMs)) rest := by
    rw [hincr]
    exact hp'
  have huncounted : uncounted g ⟨(exec (.redis (.incr g.count)) s.shared).2,
      s.threads.set i (next (exec (.redis (.incr g.count)) s.shared).1)⟩ + 1 = uncounted g s := by
    have := uncounted_set hi (next (exec (.redis (.incr g.count)) s.shared).1)
      (exec (.redis (.incr g.count)) s.shared).2 (g := g)
    rw [hself, hreply, countsNext_of_ne (by simp)] at this
    rw [hreply]
    exact this
  refine h.step hi rfl ?_ ?_ ?_ ?_ ?_ ?_ ?_ ?_
  · intro guess _
    rw [hreply]
    exact .stamping (n + 1) ⟨rest, rfl, hrest⟩
  · intro e he
    rw [hcount] at he
    cases he
    exact ⟨n + 1, hnext, rfl⟩
  · rw [hcounter']
    omega
  · rw [hlook _ g.lock_ne_count]
    exact h.passing
  · rw [hreply]
    rintro ⟨next', hp, -⟩
    cases hp
  · rw [hlook _ g.code_ne_count]
    exact id
  · rw [hreply]
    rintro ⟨next', hp, -⟩
    cases hp
  · rintro - (⟨hgone, hle⟩ | ⟨counted, hle, hcounted, -⟩)
    · exact Or.inl ⟨(hlook _ g.code_ne_count).trans hgone, hle⟩
    · refine Or.inr ⟨counted + 1, by omega, by rw [hcounter']; omega, fun _ => ?_⟩
      refine ⟨_, hcount, Or.inr (Or.inr ⟨_, List.mem_of_getElem? (List.getElem?_set_self
        (List.getElem?_eq_some_iff.mp hi).1), ?_⟩)⟩
      rw [hreply]
      rfl

/-- The counter gets its time to live. -/
theorem GuessInv.stamped (h : GuessInv g guesses bound wrong s) (hretry : 0 < g.retryMs) {i : Nat}
    {next : Service.Reply (.redis (.pexpire g.count g.retryMs)) → Thread}
    (hi : s.threads[i]? = some (.call (.redis (.pexpire g.count g.retryMs)) next))
    (hnext : ∀ reply, Locking g (next reply) ∨ GuessOver g (next reply)) :
    GuessInv g guesses bound wrong ⟨(exec (.redis (.pexpire g.count g.retryMs)) s.shared).2,
      s.threads.set i (next (exec (.redis (.pexpire g.count g.retryMs)) s.shared).1)⟩ := by
  have hlook : ∀ key, key ≠ g.count → (exec (.redis (.pexpire g.count g.retryMs)) s.shared).2.redis.look
      (exec (.redis (.pexpire g.count g.retryMs)) s.shared).2.clock key =
        s.shared.redis.look s.shared.clock key :=
    fun key hkey => look_exec (spares_of_ne (Ne.symm hkey)) s.shared
  -- the value of the counter stays, its deadline is the new one
  have hcount : (exec (.redis (.pexpire g.count g.retryMs)) s.shared).2.redis.look
      (exec (.redis (.pexpire g.count g.retryMs)) s.shared).2.clock g.count =
        (s.shared.redis.look s.shared.clock g.count).map fun e =>
          ⟨e.value, some (deadlineAfter s.shared.clock g.retryMs)⟩ :=
    look_exec_pexpire h.faults hretry
  have hcounter : counterOf g (exec (.redis (.pexpire g.count g.retryMs)) s.shared).2 = counterOf g s.shared := by
    simp only [counterOf, hcount]
    cases s.shared.redis.look s.shared.clock g.count <;> rfl
  have hneutral : ∀ reply, Neutral g (next reply) := by
    intro reply
    rcases hnext reply with ⟨value, rest, hp, -⟩ | hover
    · rw [hp]
      exact neutral_call (by simp) (by simp)
    · exact hover.neutral
  have huncounted : uncounted g ⟨(exec (.redis (.pexpire g.count g.retryMs)) s.shared).2,
      s.threads.set i (next (exec (.redis (.pexpire g.count g.retryMs)) s.shared).1)⟩ = uncounted g s := by
    have := uncounted_set hi (next (exec (.redis (.pexpire g.count g.retryMs)) s.shared).1)
      (exec (.redis (.pexpire g.count g.retryMs)) s.shared).2 (g := g)
    rw [countsNext_of_ne (by simp), (hneutral _).count] at this
    exact this
  refine h.step hi rfl ?_ ?_ ?_ ?_ ?_ ?_ ?_ ?_
  · intro guess _
    rcases hnext (exec (.redis (.pexpire g.count g.retryMs)) s.shared).1 with hlock | hover
    · exact .locking hlock
    · exact .ended hover
  · intro e he
    rw [hcount] at he
    obtain ⟨e', he', rfl⟩ := Option.map_eq_some_iff.mp he
    exact h.number e' he'
  · rw [hcounter, huncounted]
    exact h.room
  · rw [hlook _ g.lock_ne_count]
    exact h.passing
  · exact fun hp => absurd hp (hneutral _).pass
  · rw [hlook _ g.code_ne_count]
    exact id
  · exact fun hp => absurd hp (hneutral _).clear
  · rintro - (⟨hgone, hle⟩ | ⟨counted, hle, hcounted, hkept⟩)
    · exact Or.inl ⟨(hlook _ g.code_ne_count).trans hgone, hle⟩
    · refine Or.inr ⟨counted, by rw [huncounted]; exact hle, by rw [hcounter]; exact hcounted, fun hpos => ?_⟩
      obtain ⟨e, he, -⟩ := hkept hpos
      exact ⟨_, hcount.trans (by rw [he]; rfl), Or.inr (Or.inl ⟨_, rfl, h.window⟩)⟩

/-- The counter is deleted, after the code is gone or by an accepted guess. -/
theorem GuessInv.cleared (h : GuessInv g guesses bound wrong s) {i : Nat}
    {next : Service.Reply (.redis (.del g.count)) → Thread}
    (hi : s.threads[i]? = some (.call (.redis (.del g.count)) next)) {p' : Thread}
    (hstage : ∀ guess, guesses[i]? = some guess → GuessStage g guess p') (hneutral : Neutral g p')
    (hgone : Thread.Accepted p' ∨ s.shared.redis.look s.shared.clock g.code = none) :
    GuessInv g guesses bound wrong ⟨(exec (.redis (.del g.count)) s.shared).2, s.threads.set i p'⟩ := by
  have hlook : ∀ key, key ≠ g.count → (exec (.redis (.del g.count)) s.shared).2.redis.look
      (exec (.redis (.del g.count)) s.shared).2.clock key = s.shared.redis.look s.shared.clock key :=
    fun key hkey => look_exec (spares_of_ne (Ne.symm hkey)) s.shared
  have hexec : exec (.redis (.del g.count)) s.shared = _ := execRedis_eq h.faults (.del g.count)
  have hcount : (exec (.redis (.del g.count)) s.shared).2.redis.look
      (exec (.redis (.del g.count)) s.shared).2.clock g.count = none := by
    rw [hexec]
    exact Store.look_erase_self _ _ _
  have huncounted : uncounted g ⟨(exec (.redis (.del g.count)) s.shared).2, s.threads.set i p'⟩ =
      uncounted g s := by
    have := uncounted_set hi p' (exec (.redis (.del g.count)) s.shared).2 (g := g)
    rw [countsNext_of_ne (by simp), hneutral.count] at this
    exact this
  refine h.step hi rfl hstage ?_ ?_ ?_ (fun hp => absurd hp hneutral.pass) ?_
    (fun hp => absurd hp hneutral.clear) ?_
  · intro e he
    rw [hcount] at he
    cases he
  · have := h.room
    have := h.counter_nonneg
    rw [counterOf_none hcount, huncounted]
    omega
  · rw [hlook _ g.lock_ne_count]
    exact h.passing
  · rw [hlook _ g.code_ne_count]
    exact id
  · intro haccepted htally
    rcases hgone with hp | hcode
    · exact absurd hp haccepted
    · exact Or.inl ⟨(hlook _ g.code_ne_count).trans hcode, h.wrong_le htally⟩

/-- Time passes. -/
theorem GuessInv.later (h : GuessInv g guesses bound wrong s) (delay : Nat)
    (hguard : GuessesAlone g guesses s (.outside delay)) (hbound : s.shared.clock + delay < bound) :
    GuessInv g guesses bound wrong ⟨passTime delay s.shared, s.threads⟩ := by
  have hle : s.shared.clock ≤ s.shared.clock + delay := Nat.le_add_right _ _
  have hgone : ∀ key, s.shared.redis.look s.shared.clock key = none →
      s.shared.redis.look (s.shared.clock + delay) key = none :=
    fun key hnone => Store.look_later_none _ _ hle hnone
  have hroom := h.room
  have hnonneg := h.counter_nonneg
  have hcounter : counterOf g (passTime delay s.shared) = 0 ∨
      counterOf g (passTime delay s.shared) = counterOf g s.shared := by
    cases he : s.shared.redis.look (s.shared.clock + delay) g.count with
    | none => exact Or.inl (counterOf_none (w := passTime delay s.shared) he)
    | some e =>
        refine Or.inr ?_
        simp only [counterOf, passTime, he, Store.look_of_look_later _ _ hle he]
  refine ⟨h.faults, h.staged, ?_, ?_, ?_, ?_, ?_, ?_⟩
  · intro e he
    exact h.number e (Store.look_of_look_later _ _ hle he)
  · show counterOf g (passTime delay s.shared) + uncounted g s ≤ g.limit
    rcases hcounter with hzero | hsame <;> omega
  · exact fun p hp hq => hgone _ (h.passing p hp hq)
  · exact fun p hp hq => hgone _ (h.clearing p hp hq)
  · have := h.window
    unfold deadlineAfter at this ⊢
    show bound ≤ s.shared.clock + delay + _
    omega
  · intro hnone
    have htally := h.tally hnone
    cases hcode : s.shared.redis.look (s.shared.clock + delay) g.code with
    | none => exact Or.inl ⟨hcode, h.wrong_le htally⟩
    | some e =>
        rcases htally with ⟨hcode', -⟩ | ⟨counted, hwrong, hcounted, hkept⟩
        · rw [hgone _ hcode'] at hcode
          cases hcode
        · have hstill : 0 < counted → CounterKept g bound ⟨passTime delay s.shared, s.threads⟩ ∧
              counterOf g (passTime delay s.shared) = counterOf g s.shared := by
            intro hpos
            obtain ⟨e', he', hdeadline⟩ := hkept hpos
            have hlater : s.shared.redis.look (s.shared.clock + delay) g.count = some e' := by
              have hfilter := Store.look_later s.shared.redis g.count hle
              rw [he'] at hfilter
              rcases hdeadline with hd | ⟨d, hd, hlong⟩ | hpending
              · simpa [Option.filter, Slot.Live, hd] using hfilter
              · have hlt : s.shared.clock + delay < d := by omega
                simpa [Option.filter, Slot.Live, hd, hlt] using hfilter
              · obtain ⟨e'', he''⟩ := Option.isSome_iff_exists.mp
                  (hguard hpending (Option.isSome_iff_exists.mpr ⟨e', he'⟩))
                rw [he'', ← Store.look_of_look_later _ _ hle he'', he']
            refine ⟨⟨e', hlater, hdeadline⟩, ?_⟩
            simp only [counterOf, passTime, hlater, he']
          refine Or.inr ⟨counted, hwrong, ?_, fun hpos => (hstill hpos).1⟩
          show (counted : Int) ≤ counterOf g (passTime delay s.shared)
          by_cases hpos : 0 < counted
          · rw [(hstill hpos).2]
            exact hcounted
          · rcases hcounter with hzero | hsame <;> omega

theorem Passing.endsOk {p : Thread} (h : Passing g p) : Thread.endsOk p = true := by
  obtain ⟨next, rfl, haccepted⟩ := h
  obtain ⟨o, ho, hok⟩ := haccepted (.ok 0)
  simp [Thread.endsOk, ho, Program.result?, hok]

/-- The lock is written, with no accepted guess on its way. -/
theorem GuessInv.locked (h : GuessInv g guesses bound wrong s) {i : Nat} {value : Bytes}
    {next : Service.Reply (.redis (.psetex g.lock g.lockMs value)) → Thread}
    (hi : s.threads[i]? = some (.call (.redis (.psetex g.lock g.lockMs value)) next))
    (hnext : ∀ reply, Dropping g (next reply)) (hguard : ∀ q ∈ s.threads, Thread.endsOk q = false) :
    GuessInv g guesses bound wrong ⟨(exec (.redis (.psetex g.lock g.lockMs value)) s.shared).2,
      s.threads.set i (next (exec (.redis (.psetex g.lock g.lockMs value)) s.shared).1)⟩ := by
  have hneutral : ∀ reply, Neutral g (next reply) := by
    intro reply
    obtain ⟨rest, hp', -⟩ := hnext reply
    rw [hp']
    exact neutral_call (by simp) (by simpa using g.code_ne_count)
  have hnobody : ∀ p ∈ s.threads, ¬Passing g p := by
    intro p hp hpass
    have := hguard p hp
    rw [hpass.endsOk] at this
    cases this
  refine h.quiet hi (spares_of_ne g.lock_ne_count) rfl (fun _ _ => .dropping (hnext _)) (Nat.le_add_right _ _) ?_
    (fun p hp hq => absurd hq (hnobody p hp)) (fun hp => absurd hp (hneutral _).pass) ?_
    (fun hp => absurd hp (hneutral _).clear)
  · intro hcount
    rw [(hneutral _).count] at hcount
    cases hcount
  · have hcode : (exec (.redis (.psetex g.lock g.lockMs value)) s.shared).2.redis.look
        (exec (.redis (.psetex g.lock g.lockMs value)) s.shared).2.clock g.code =
          s.shared.redis.look s.shared.clock g.code := look_exec (spares_of_ne (c := .psetex g.lock g.lockMs value) g.lock_ne_code) s.shared
    rw [hcode]
    exact id

/-- What deletes the counter and returns `Ok` has not locked the pair. -/
theorem Passing.not_clearing {p : Thread} (h : Passing g p) : ¬Clearing g p := by
  rintro ⟨next, rfl, hover⟩
  obtain ⟨next', hcall, haccepted⟩ := h
  cases hcall
  obtain ⟨o, ho, hok⟩ := haccepted (.ok 0)
  have hfail := (hover (.ok 0)).2
  rw [ho] at hfail
  rw [show o.isOk = false from hfail] at hok
  cases hok

/-- The code is deleted. -/
theorem GuessInv.dropped (h : GuessInv g guesses bound wrong s) {i : Nat}
    {next : Service.Reply (.redis (.del g.code)) → Thread}
    (hi : s.threads[i]? = some (.call (.redis (.del g.code)) next))
    (hnext : ∀ reply, Clearing g (next reply)) :
    GuessInv g guesses bound wrong ⟨(exec (.redis (.del g.code)) s.shared).2,
      s.threads.set i (next (exec (.redis (.del g.code)) s.shared).1)⟩ := by
  have hexec : exec (.redis (.del g.code)) s.shared = _ := execRedis_eq h.faults (.del g.code)
  have hgone : (exec (.redis (.del g.code)) s.shared).2.redis.look
      (exec (.redis (.del g.code)) s.shared).2.clock g.code = none := by
    rw [hexec]
    exact Store.look_erase_self _ _ _
  have hlock : (exec (.redis (.del g.code)) s.shared).2.redis.look
      (exec (.redis (.del g.code)) s.shared).2.clock g.lock = s.shared.redis.look s.shared.clock g.lock :=
    look_exec (spares_of_ne (Ne.symm g.lock_ne_code)) s.shared
  refine h.quiet hi (spares_of_ne g.code_ne_count) rfl (fun _ _ => .clearing (hnext _)) (Nat.le_add_right _ _) ?_ ?_
    ?_ (fun _ => hgone) (fun _ => hgone)
  · intro hcount
    obtain ⟨rest, hp', -⟩ := hnext (exec (.redis (.del g.code)) s.shared).1
    rw [hp', countsNext_of_ne (by simp)] at hcount
    cases hcount
  · rw [hlock]
    exact h.passing
  · exact fun hpass => absurd (hnext _) hpass.not_clearing

/-- The code is read. -/
theorem GuessInv.read (h : GuessInv g guesses bound wrong s) {i : Nat}
    {next : Service.Reply (.redis (.get g.code)) → Thread}
    (hi : s.threads[i]? = some (.call (.redis (.get g.code)) next)) {guess : Bytes}
    (hguess : guesses[i]? = some guess)
    (hsome : ∀ code, if guess ≠ code then Counting g (next (.ok (some code)))
      else Passing g (next (.ok (some code))))
    (hnone : ∀ reply, (∀ code, reply ≠ .ok (some code)) → GuessOver g (next reply))
    (hguard : GuessesAlone g guesses s (.thread i)) :
    GuessInv g guesses bound (wrong + wrongAt g guesses s (.thread i))
      ⟨(exec (.redis (.get g.code)) s.shared).2,
        s.threads.set i (next (exec (.redis (.get g.code)) s.shared).1)⟩ := by
  have hpending := System.pending_of_call hi
  have hexec : exec (.redis (.get g.code)) s.shared =
      (.ok ((s.shared.redis.look s.shared.clock g.code).map (·.value)), s.shared) :=
    execRedis_eq h.faults (.get g.code)
  rw [wrongAt, if_pos hpending, hexec]
  cases hcode : s.shared.redis.look s.shared.clock g.code with
  | none =>
      simp only [Option.map_none]
      have hover := hnone (.ok none) (by simp)
      exact h.quiet hi trivial (by rw [hexec]) (fun _ _ => .ended hover) (Nat.le_add_right _ _)
        (fun hcount => by rw [hover.neutral.count] at hcount; cases hcount) h.passing
        (fun hp => absurd hp hover.neutral.pass) id (fun hp => absurd hp hover.neutral.clear)
  | some e =>
      obtain ⟨hlock, hroom⟩ := hguard.1 hpending e hcode
      have hbranch := hsome e.value
      simp only [hguess, Option.some.injEq, Option.map_some]
      by_cases hwrong : guess ≠ e.value
      · rw [if_pos hwrong] at hbranch
        rw [if_neg hwrong]
        have hcounts : countsNext g (next (.ok (some e.value))) = true := by
          obtain ⟨rest, hp', -⟩ := hbranch
          rw [hp']
          simp [countsNext, Program.next?]
        have hnot : ¬Passing g (next (.ok (some e.value))) ∧ ¬Clearing g (next (.ok (some e.value))) := by
          obtain ⟨rest, hp', -⟩ := hbranch
          rw [hp']
          constructor <;> rintro ⟨_, hp, -⟩ <;> cases hp
        refine h.quiet hi trivial (by rw [hexec]) (fun _ _ => .counting hbranch) ?_ ?_ h.passing
          (fun hp => absurd hp hnot.1) id (fun hp => absurd hp hnot.2)
        · show wrong + 1 ≤ wrong + (countsNext g (next (.ok (some e.value)))).toNat
          rw [hcounts]
          exact Nat.le_refl _
        · intro _
          refine ⟨hroom ?_, by rw [hcode]; simp⟩
          rw [hguess]
          simpa using hwrong
      · rw [if_neg hwrong] at hbranch
        rw [if_pos (not_not.mp hwrong)]
        refine h.quiet hi trivial (by rw [hexec]) (fun _ _ => .passing hbranch) (Nat.le_add_right _ _) ?_
          h.passing (fun _ => hlock) id ?_
        · intro hcount
          obtain ⟨rest, hp', -⟩ := hbranch
          rw [show (next (.ok (some e.value)) : Thread) = _ from hp', countsNext_of_ne (by simp)] at hcount
          cases hcount
        · exact fun hclear => absurd hclear hbranch.not_clearing

/-- **Step.** A permitted move keeps the invariant and adds the wrong guess that it compares. -/
theorem GuessInv.move (h : GuessInv g guesses bound wrong s) (hlimit : g.limit < 2 ^ 63)
    (hretry : 0 < g.retryMs) (m : Move Nat) (hguard : GuessesAlone g guesses s m)
    (hbound : (System.move exec passTime m s).shared.clock < bound) :
    GuessInv g guesses bound (wrong + wrongAt g guesses s m) (System.move exec passTime m s) := by
  rcases System.move_cases exec passTime m s with ⟨i, c, next, rfl, hi, hmove⟩ | ⟨delay, rfl, hmove⟩ |
    ⟨i, rfl, hnone, hmove⟩
  · have hpending := System.pending_of_call hi
    obtain ⟨guess, hguess, hstage⟩ := h.staged i _ hi
    have hkeep : c ≠ .redis (.get g.code) → wrong + wrongAt g guesses s (.thread i) = wrong := by
      intro hc
      have hnot : .redis (.get g.code) ∉ s.pending i := by
        simp only [System.pending, hi, Program.next?, Option.bind_some, Option.mem_def, Option.some.injEq]
        exact hc
      rw [wrongAt, if_neg hnot, Nat.add_zero]
    rw [hmove]
    cases hstage with
    | testing hp =>
        obtain ⟨next', hcall, hfree, hother⟩ := hp
        cases hcall
        rw [hkeep (by simp)]
        have hreply : ∀ reply, GuessStage g guess (next' reply) ∧ Neutral g (next' reply) := by
          intro reply
          by_cases hzero : reply = .ok 0
          · subst hzero
            refine ⟨.reading hfree, ?_⟩
            obtain ⟨rest, hp', -⟩ := hfree
            rw [hp']
            exact neutral_call (by simp) (by simp)
          · exact ⟨.ended (hother reply hzero), (hother reply hzero).neutral⟩
        refine h.idle hi ⟨trivial, trivial, trivial, by simp⟩ (fun guess' hguess' => ?_) (hreply _).2
        rw [hguess] at hguess'
        cases hguess'
        exact (hreply _).1
    | reading hp =>
        obtain ⟨next', hcall, hsome, hnone⟩ := hp
        cases hcall
        exact h.read hi hguess hsome hnone hguard
    | counting hp =>
        obtain ⟨next', hcall, hok, -⟩ := hp
        cases hcall
        rw [hkeep (by simp)]
        exact h.counted hlimit hi hok
    | stamping n hp =>
        obtain ⟨next', hcall, hnext⟩ := hp
        cases hcall
        rw [hkeep (by simp)]
        refine h.stamped hretry hi fun reply => ?_
        have := hnext reply
        split at this
        · exact Or.inl this
        · exact Or.inr this
    | locking hp =>
        obtain ⟨value, next', hcall, hnext⟩ := hp
        cases hcall
        rw [hkeep (by simp)]
        exact h.locked hi hnext (hguard.2 (by simp [System.pending, hi, Program.next?, Cmd.sets?]))
    | dropping hp =>
        obtain ⟨next', hcall, hnext⟩ := hp
        cases hcall
        rw [hkeep (by simp)]
        exact h.dropped hi hnext
    | clearing hp =>
        have hgone := h.clearing _ (List.mem_of_getElem? hi) hp
        obtain ⟨next', hcall, hover⟩ := hp
        cases hcall
        rw [hkeep (by simp)]
        exact h.cleared hi (fun _ _ => .ended (hover _)) (hover _).neutral (Or.inr hgone)
    | passing hp =>
        obtain ⟨next', hcall, haccepted⟩ := hp
        cases hcall
        rw [hkeep (by simp)]
        have hdone := haccepted (exec (.redis (.del g.count)) s.shared).1
        refine h.cleared hi (fun _ _ => .accepted hdone) ?_ (Or.inl hdone)
        obtain ⟨o, ho, -⟩ := hdone
        rw [ho]
        exact neutral_done o
    | ended hp =>
        rw [hkeep hp.1.1.2.2.2]
        have hover : GuessOver g (next (exec c s.shared).1) := ⟨hp.1.2 _, hp.2 _⟩
        exact h.idle hi hp.1.1 (fun _ _ => .ended hover) hover.neutral
    | accepted hp =>
        obtain ⟨o, ho, -⟩ := hp
        cases ho
  · rw [hmove] at hbound ⊢
    exact h.later delay hguard hbound
  · rw [hmove]
    have hzero : wrongAt g guesses s (.thread i) = 0 := by
      simp [wrongAt, hnone]
    rw [hzero]
    exact h

/-- **Run.** A schedule of permitted moves keeps the invariant and adds the wrong guesses it compares. -/
theorem GuessInv.play (hlimit : g.limit < 2 ^ 63) (hretry : 0 < g.retryMs) (schedule : List (Move Nat))
    (h : GuessInv g guesses bound wrong s)
    (hguard : System.Meets exec passTime (GuessesAlone g guesses) schedule s)
    (hbound : (interleave schedule s).shared.clock < bound) :
    GuessInv g guesses bound (wrong + wrongGuesses g guesses schedule s) (interleave schedule s) := by
  induction schedule generalizing wrong s with
  | nil => exact h
  | cons m rest ih =>
      have hlater := clock_interleave_le rest (System.move exec passTime m s)
      have hnext := h.move hlimit hretry m hguard.1 (hlater.trans_lt hbound)
      have hrest := ih hnext hguard.2 hbound
      rw [Nat.add_assoc] at hrest
      exact hrest

theorem GuessOver.not_accepted {p : Thread} (h : GuessOver g p) : ¬p.Accepted := by
  rintro ⟨o, rfl, hok⟩
  rw [show o.isOk = false from h.2] at hok
  cases hok

theorem not_accepted_call {c : Cmd} {next : Service.Reply c → Thread} {p : Thread} (hp : p = .call c next) :
    ¬p.Accepted := by
  rintro ⟨o, ho, -⟩
  rw [hp] at ho
  cases ho

/-- A call returns `Ok` only from its last deletion. -/
theorem GuessStage.passing_of_accepted {guess : Bytes} {c : Cmd} {next : Service.Reply c → Thread}
    (h : GuessStage g guess (.call c next)) {reply : Service.Reply c} (hok : Thread.Accepted (next reply)) :
    Passing g (.call c next) := by
  cases h with
  | passing hp => exact hp
  | accepted hp => exact absurd hp (not_accepted_call rfl)
  | ended hp => exact absurd hok (GuessOver.not_accepted (g := g) ⟨hp.1.2 _, hp.2 _⟩)
  | testing hp =>
      obtain ⟨next', hcall, ⟨_, hfree, -⟩, hother⟩ := hp
      cases hcall
      by_cases hzero : reply = .ok 0
      · subst hzero
        exact absurd hok (not_accepted_call hfree)
      · exact absurd hok (hother _ hzero).not_accepted
  | reading hp =>
      obtain ⟨next', hcall, hsome, hnone⟩ := hp
      cases hcall
      by_cases hcode : ∃ code, reply = .ok (some code)
      · obtain ⟨code, rfl⟩ := hcode
        have hbranch := hsome code
        split at hbranch
        · obtain ⟨_, hp', -⟩ := hbranch
          exact absurd hok (not_accepted_call hp')
        · obtain ⟨_, hp', -⟩ := hbranch
          exact absurd hok (not_accepted_call hp')
      · exact absurd hok (hnone _ fun code h => hcode ⟨code, h⟩).not_accepted
  | counting hp =>
      obtain ⟨next', hcall, hcounted, hfail⟩ := hp
      cases hcall
      rcases reply with e | n
      · exact absurd hok (hfail e).not_accepted
      · obtain ⟨_, hp', -⟩ := hcounted n
        exact absurd hok (not_accepted_call hp')
  | stamping n hp =>
      obtain ⟨next', hcall, hnext⟩ := hp
      cases hcall
      have hbranch := hnext reply
      split at hbranch
      · obtain ⟨_, _, hp', -⟩ := hbranch
        exact absurd hok (not_accepted_call hp')
      · exact absurd hok hbranch.not_accepted
  | locking hp =>
      obtain ⟨value, next', hcall, hnext⟩ := hp
      cases hcall
      obtain ⟨_, hp', -⟩ := hnext reply
      exact absurd hok (not_accepted_call hp')
  | dropping hp =>
      obtain ⟨next', hcall, hnext⟩ := hp
      cases hcall
      obtain ⟨_, hp', -⟩ := hnext reply
      exact absurd hok (not_accepted_call hp')
  | clearing hp =>
      obtain ⟨next', hcall, hover⟩ := hp
      cases hcall
      exact absurd hok (hover _).not_accepted

/-- A call that returns `Ok` does so with the lock open. -/
theorem GuessInv.open_of_accepted (h : GuessInv g guesses bound wrong s) {i : Nat}
    (hbefore : acceptedAt s i = false)
    (hafter : acceptedAt (System.move exec passTime (.thread i) s) i = true) :
    s.shared.redis.look s.shared.clock g.lock = none := by
  rcases System.move_cases exec passTime (.thread i) s with ⟨j, c, next, hj, hi, hmove⟩ | ⟨e, he, -⟩ |
    ⟨j, -, -, hmove⟩
  · cases hj
    obtain ⟨guess, -, hstage⟩ := h.staged i _ hi
    obtain ⟨p, hp, hok⟩ := accepted_of_acceptedAt hafter
    rw [hmove] at hp
    rcases System.getElem?_set_cases hp with ⟨-, rfl⟩ | ⟨hne, -⟩
    · exact h.passing _ (List.mem_of_getElem? hi) (hstage.passing_of_accepted hok)
    · exact absurd rfl hne
  · cases he
  · rw [hmove, hbefore] at hafter
    cases hafter

end Step

/-- Unless a guess is accepted, at most `max_retry_count` wrong ones are compared with the code; and a
guess is accepted only while the lock of the pair is not live. -/
def GuessesBounded (g : GuessSetting) (guesses : List Bytes) (schedule : List (Move Nat)) (s : Concurrent) :
    Prop :=
  ((∀ i, acceptedAt (interleave schedule s) i = false) → wrongGuesses g guesses schedule s ≤ g.limit) ∧
    ∀ before i rest, schedule = before ++ .thread i :: rest → acceptedAt (interleave before s) i = false →
      acceptedAt (interleave (before ++ [.thread i]) s) i = true →
        (interleave before s).shared.redis.look (interleave before s).shared.clock g.lock = none

/-- Calls of `VerifyCaptcha` for one scene and mobile, each with its guess. -/
def guessThreads (config : SmsConfig) (scene : SmsScene) (mobile : Bytes) (guesses : List Bytes) : List Thread :=
  guesses.map (guessThread config scene mobile)

/-- **Guesses, alone.** If every step of a schedule shorter than the retry window meets `GuessesAlone`, the
guesses are bounded. -/
theorem guesses_bounded (config : SmsConfig) (hretry : Convertible config.retryTtlSeconds)
    (hlock : Convertible config.lockSeconds) (scene : SmsScene) (mobile : Bytes) (guesses : List Bytes)
    (w : World) (hw : w.redisFaults = []) (n : Nat) (hn : n ≤ config.maxRetryCount.toInt)
    (hcount : ∀ e, w.redis.look w.clock (verifyCountKey scene mobile) = some e → e.value = toString n)
    (schedule : List (Move Nat))
    (hguard : System.Meets exec passTime (GuessesAlone (guessSetting config scene mobile) guesses) schedule
      ⟨w, guessThreads config scene mobile guesses⟩)
    (hspan : (interleave schedule ⟨w, guessThreads config scene mobile guesses⟩).shared.clock <
      w.clock + lifetime config.retryTtlSeconds) :
    GuessesBounded (guessSetting config scene mobile) guesses schedule
      ⟨w, guessThreads config scene mobile guesses⟩ := by
  have hlimit := config.maxRetryCount.toInt_lt
  have hbits : config.maxRetryCount.toInt < 2 ^ 63 := by omega
  have hint : IsInt64 n := by
    unfold IsInt64
    omega
  have hstart : ∀ (i : Nat) (p : Thread), (guessThreads config scene mobile guesses)[i]? = some p →
      ∃ guess, guesses[i]? = some guess ∧ Testing (guessSetting config scene mobile) guess p := by
    intro i p hi
    rw [guessThreads, List.getElem?_map] at hi
    obtain ⟨guess, hguess, rfl⟩ := Option.map_eq_some_iff.mp hi
    exact ⟨guess, hguess, testing_guessThread config scene mobile guess hlock.millis_pos⟩
  have hneutral : ∀ p ∈ guessThreads config scene mobile guesses, Neutral (guessSetting config scene mobile) p := by
    intro p hp
    obtain ⟨i, hi⟩ := List.mem_iff_getElem?.mp hp
    obtain ⟨guess, -, next, rfl, -⟩ := hstart i p hi
    exact neutral_call (by simp) (by simp)
  have hnobody : uncounted (guessSetting config scene mobile) ⟨w, guessThreads config scene mobile guesses⟩ = 0 := by
    refine List.countP_eq_zero.mpr fun p hp => ?_
    rw [(hneutral p hp).count]
    exact Bool.false_ne_true
  have hroom : counterOf (guessSetting config scene mobile) w ≤ config.maxRetryCount.toInt := by
    cases he : w.redis.look w.clock (verifyCountKey scene mobile) with
    | none =>
        rw [counterOf_none he]
        omega
    | some e =>
        rw [counterOf_some hint he (hcount e he)]
        exact hn
  have hinit : GuessInv (guessSetting config scene mobile) guesses (w.clock + lifetime config.retryTtlSeconds) 0
      ⟨w, guessThreads config scene mobile guesses⟩ := by
    refine ⟨hw, ?_, fun e he => ⟨n, hint, hcount e he⟩, ?_, fun p hp hq => absurd hq (hneutral p hp).pass,
      fun p hp hq => absurd hq (hneutral p hp).clear, (hretry.deadline _).ge, fun _ => Or.inr ⟨0, ?_, ?_, ?_⟩⟩
    · intro i p hi
      obtain ⟨guess, hguess, htest⟩ := hstart i p hi
      exact ⟨guess, hguess, .testing htest⟩
    · rw [hnobody, Nat.cast_zero, Int.add_zero]
      exact hroom
    · exact Nat.zero_le _
    · rw [Nat.cast_zero]
      cases he : w.redis.look w.clock (verifyCountKey scene mobile) with
      | none => exact (counterOf_none (g := guessSetting config scene mobile) he).ge
      | some e =>
          rw [counterOf_some (g := guessSetting config scene mobile) hint he (hcount e he)]
          exact Int.natCast_nonneg n
    · exact fun h => absurd h (Nat.lt_irrefl 0)
  refine ⟨fun hnone => ?_, fun before i rest hschedule hbefore hafter => ?_⟩
  · have hfinal := hinit.play hbits hretry.millis_pos schedule hguard hspan
    rw [Nat.zero_add] at hfinal
    refine hfinal.wrong_le (hfinal.tally fun p hp hok => ?_)
    obtain ⟨i, hi⟩ := List.mem_iff_getElem?.mp hp
    obtain ⟨o, rfl, ho⟩ := hok
    have hfalse := hnone i
    rw [acceptedAt, hi] at hfalse
    rw [show o.isOk = false from hfalse] at ho
    cases ho
  · subst hschedule
    have hearlier : (interleave before ⟨w, guessThreads config scene mobile guesses⟩).shared.clock <
        w.clock + lifetime config.retryTtlSeconds := by
      refine (clock_interleave_le (.thread i :: rest) _).trans_lt ?_
      rw [interleave, ← System.play_append]
      exact hspan
    have hthen := hinit.play hbits hretry.millis_pos before ((System.meets_append exec passTime).mp hguard).1 hearlier
    refine hthen.open_of_accepted hbefore ?_
    rw [interleave, System.play_append] at hafter
    exact hafter

/-- A code has been issued, and one wrong guess locks the pair. -/
def issuedWorld : World :=
  { emptyWorld 0 with
    redis := Store.empty.put (captchaKey .login (ascii "13800138000"))
      ⟨ascii "123456", some (300 * nanosPerSecond)⟩ }

def oneGuess : SmsConfig := { maxRetryCount := 1 }

def guessing (guesses : List Bytes) : Concurrent :=
  ⟨issuedWorld, guessThreads oneGuess .login (ascii "13800138000") guesses⟩

/-- Two wrong guesses are compared before either of them is counted. -/
def compareTwice : List (Move Nat) := List.replicate 2 (.thread 0) ++ List.replicate 2 (.thread 1)

/-- The wrong guess locks the pair between the comparison of the right one and its return. -/
def lockMeanwhile : List (Move Nat) := List.replicate 2 (.thread 0) ++ List.replicate 5 (.thread 1)

theorem guessed_beyond_limit :
    ¬GuessesBounded (guessSetting oneGuess .login (ascii "13800138000")) [ascii "000000", ascii "111111"]
        compareTwice (guessing [ascii "000000", ascii "111111"]) ∧
      ¬GuessesBounded (guessSetting oneGuess .login (ascii "13800138000")) [ascii "123456", ascii "000000"]
        (lockMeanwhile ++ [.thread 0]) (guessing [ascii "123456", ascii "000000"]) := by
  constructor
  · have hrun : wrongGuesses (guessSetting oneGuess .login (ascii "13800138000")) [ascii "000000", ascii "111111"]
        compareTwice (guessing [ascii "000000", ascii "111111"]) = 2 ∧
        (interleave compareTwice (guessing [ascii "000000", ascii "111111"])).threads.all
          (fun p => p.result? = none) = true := by
      decide +kernel
    intro h
    have hle := h.1 ?_
    · rw [hrun.1] at hle
      exact absurd hle (by decide)
    · intro i
      cases hi : (interleave compareTwice (guessing [ascii "000000", ascii "111111"])).threads[i]? with
      | none => simp [acceptedAt, hi]
      | some p =>
          have hnone := List.all_eq_true.mp hrun.2 p (List.mem_of_getElem? hi)
          simp only [decide_eq_true_eq] at hnone
          simp [acceptedAt, hi, hnone]
  · have hrun : acceptedAt (interleave lockMeanwhile (guessing [ascii "123456", ascii "000000"])) 0 = false ∧
        acceptedAt (interleave (lockMeanwhile ++ [.thread 0]) (guessing [ascii "123456", ascii "000000"])) 0 = true ∧
        ((interleave lockMeanwhile (guessing [ascii "123456", ascii "000000"])).shared.redis.look
          (interleave lockMeanwhile (guessing [ascii "123456", ascii "000000"])).shared.clock
            (lockKey .login (ascii "13800138000"))).isSome = true := by
      decide +kernel
    intro h
    have hopen := h.2 lockMeanwhile 0 [] rfl hrun.1 hrun.2.1
    have hlive := hrun.2.2
    rw [show Store.look _ _ (lockKey .login (ascii "13800138000")) = none from hopen] at hlive
    cases hlive

/-- The right guess after the wrong one, within the window. -/
def guessInTurn : List (Move Nat) :=
  List.replicate 4 (.thread 0) ++ [.outside nanosPerSecond] ++ List.replicate 3 (.thread 1)

theorem guesses_bounded_sample :
    GuessesBounded (guessSetting {} .login (ascii "13800138000")) [ascii "000000", ascii "123456"] guessInTurn
      ⟨issuedWorld, guessThreads {} .login (ascii "13800138000") [ascii "000000", ascii "123456"]⟩ := by
  have hrun : System.Meets exec passTime (GuessesAlone (guessSetting {} .login (ascii "13800138000"))
        [ascii "000000", ascii "123456"]) guessInTurn
        ⟨issuedWorld, guessThreads {} .login (ascii "13800138000") [ascii "000000", ascii "123456"]⟩ ∧
      (interleave guessInTurn ⟨issuedWorld, guessThreads {} .login (ascii "13800138000")
        [ascii "000000", ascii "123456"]⟩).shared.clock < issuedWorld.clock + lifetime ({} : SmsConfig).retryTtlSeconds := by
    decide +kernel
  have hcount : issuedWorld.redis.look issuedWorld.clock (verifyCountKey .login (ascii "13800138000")) = none := by
    decide +kernel
  refine guesses_bounded {} ⟨by decide, by decide⟩ ⟨by decide, by decide⟩ .login (ascii "13800138000") _
    issuedWorld rfl 0 (by decide) (fun e he => ?_) guessInTurn hrun.1 hrun.2
  rw [hcount] at he
  cases he

end AccountService
