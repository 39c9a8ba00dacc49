import AccountService.AccountIdentity

/-! Registrations at the same time. Whether a mobile is taken is looked up when the code is sent, long before the row
is inserted; the unique keys of the table decide. Registrations that are accepted have different mobiles and different
uuids, none of them those of an account that was there, and each has left its row in the table. -/

namespace AccountService

open AuthService Interaction Table

/-- The command has inserted the row of an account with this uuid and mobile. -/
def Cmd.Enrols (uuid mobile : Bytes) : (c : Cmd) → c.Reply → Prop
  | .sql (.insertUser uuid' mobile' _ _ _), .ok _ => uuid' = uuid ∧ mobile' = mobile
  | _, _ => False

section Unenrolled

variable {uuid mobile : Bytes}

/-- Until the row is inserted the program can only return what is refused. -/
def Unenrolled {α : Type} (uuid mobile : Bytes) (Refused : α → Prop) : Action α → Prop
  | .done a => Refused a
  | .call c next => ∀ reply, c.Enrols uuid mobile reply ∨ Unenrolled uuid mobile Refused (next reply)

theorem Unenrolled.bind {α β : Type} {R : α → Prop} {R' : β → Prop} {p : Action α} {f : α → Action β}
    (hp : Unenrolled uuid mobile R p) (hf : ∀ a, R a → Unenrolled uuid mobile R' (f a)) :
    Unenrolled uuid mobile R' (p >>= f) := by
  induction p with
  | done a => exact hf a hp
  | call c next ih => exact fun reply => (hp reply).imp_right (ih reply)

theorem unenrolled_true {α : Type} (p : Action α) : Unenrolled uuid mobile (fun _ => True) p := by
  induction p with
  | done a => trivial
  | call c next ih => exact fun reply => Or.inr (ih reply)

theorem unenrolled_requireValid {α : Type} {check : Except String Unit} {next : Action (Result α)}
    (h : Unenrolled uuid mobile (fun r => r.isOk = false) next) :
    Unenrolled uuid mobile (fun r => r.isOk = false) (requireValid check next) := by
  cases check with
  | error message => exact (rfl : (Result.failWith ErrorCode.invalidArgument message : Result α).isOk = false)
  | ok _ => exact h

theorem unenrolled_orFail {α β : Type} {r : Result α} {next : α → Action (Result β)}
    (h : ∀ a, r = .ok a → Unenrolled uuid mobile (fun r => r.isOk = false) (next a)) :
    Unenrolled uuid mobile (fun r => r.isOk = false) (orFail r next) := by
  cases r with
  | ok a => exact h a rfl
  | fail code message => exact (rfl : (Result.failWith code message : Result β).isOk = false)

theorem unenrolled_create {uuid : Bytes} (user : UserEntity) :
    Unenrolled uuid user.mobile (fun r => r.isOk = false) (UserDB.create uuid user) := by
  intro reply
  rcases reply with (key | _) | _
  · cases key <;> exact Or.inr rfl
  · exact Or.inr rfl
  · exact Or.inl ⟨rfl, rfl⟩

/-- A registration is refused unless it inserts its row. -/
theorem unenrolled_register (env : Env) (draws : Draws) (mobile verifyCode password displayName : Bytes) :
    Unenrolled draws.uuid mobile (fun o => o.isOk = false)
      (handle env draws (.register mobile verifyCode password displayName)) := by
  have hregister : Unenrolled draws.uuid mobile (fun r => r.isOk = false)
      (register env draws mobile verifyCode password displayName) := by
    refine unenrolled_requireValid (unenrolled_requireValid (unenrolled_requireValid (unenrolled_requireValid ?_)))
    refine (unenrolled_true _).bind fun _ _ => unenrolled_orFail fun _ _ => ?_
    refine (unenrolled_create _).bind fun r hr => unenrolled_orFail fun user huser => ?_
    rw [huser] at hr
    cases hr
  refine hregister.bind fun r hr => ?_
  cases r with
  | ok result => cases hr
  | fail code message => exact rfl

theorem not_unenrolled_of_accepted {p : Thread} (h : p.Accepted) :
    ¬Unenrolled uuid mobile (fun o => o.isOk = false) p := by
  obtain ⟨o, rfl, hok⟩ := h
  intro hrefused
  rw [show o.isOk = false from hrefused] at hok
  cases hok

end Unenrolled

/-- An insertion that succeeds finds neither the uuid nor the mobile in the table, and leaves both there. -/
theorem exec_enrols {uuid mobile : Bytes} {c : Cmd} {w : World} (h : c.Enrols uuid mobile (exec c w).1) :
    (∀ user ∈ w.db.users, w.db.uuidKey user.uuid ≠ w.db.uuidKey uuid ∧ user.mobile ≠ mobile) ∧
      ∃ a ∈ (exec c w).2.db.identities, a.uuid = uuid ∧ a.mobile = mobile := by
  cases c with
  | now => exact absurd h id
  | redis c => exact absurd h id
  | sql s =>
      cases s with
      | insertUser uuid' mobile' displayName passwordHash role =>
          rw [exec] at h ⊢
          rcases execSql_cases w (.insertUser uuid' mobile' displayName passwordHash role) with
            ⟨hreply, -⟩ | ⟨hreply, hdb⟩
          · rw [hreply] at h
            exact absurd h id
          · rw [hreply] at h
            rw [hdb]
            rcases apply_insertUser (toTimeT w.clock) w.db uuid' mobile' displayName passwordHash role with
              ⟨e, he⟩ | ⟨huuid, hmobile, he⟩
            · rw [he] at h
              exact absurd h id
            · rw [he] at h ⊢
              obtain ⟨rfl, rfl⟩ := h
              refine ⟨fun user huser => ⟨huuid user huser, hmobile user huser⟩,
                (w.db.newUser (toTimeT w.clock) uuid' mobile' displayName passwordHash role).identity, ?_, rfl, rfl⟩
              exact Database.mem_identities.mpr ⟨_, List.mem_append_right _ (List.mem_singleton.mpr rfl), rfl⟩
      | _ => exact absurd h id

/-- Request `i` registers an account. -/
def Registers (requests : List (Draws × Request)) (i : Nat) (uuid mobile : Bytes) : Prop :=
  ∃ draws verifyCode password displayName,
    requests[i]? = some (draws, .register mobile verifyCode password displayName) ∧ draws.uuid = uuid

section Invariant

variable {env : Env} {requests : List (Draws × Request)} {w : World} {s : Concurrent}

/-- A registration has not inserted its row yet, or the row is there and nobody else has its keys. -/
structure Settling (env : Env) (requests : List (Draws × Request)) (w : World) (s : Concurrent) : Prop where
  steadfast : Steadfast env (fun uuid => ∃ r ∈ requests, r.1.uuid = uuid) w s
  collation : s.shared.db.uuidKey = w.db.uuidKey
  staged : ∀ i uuid mobile p, Registers requests i uuid mobile → s.threads[i]? = some p →
    ¬Unenrolled uuid mobile (fun o => o.isOk = false) p →
      (∀ user ∈ w.db.users, w.db.uuidKey user.uuid ≠ w.db.uuidKey uuid ∧ user.mobile ≠ mobile) ∧
        ∃ a ∈ s.shared.db.identities, a.uuid = uuid ∧ a.mobile = mobile
  apart : ∀ i j uuid mobile uuid' mobile' p q, i ≠ j → Registers requests i uuid mobile →
    Registers requests j uuid' mobile' → s.threads[i]? = some p → s.threads[j]? = some q →
      ¬Unenrolled uuid mobile (fun o => o.isOk = false) p → ¬Unenrolled uuid' mobile' (fun o => o.isOk = false) q →
        w.db.uuidKey uuid ≠ w.db.uuidKey uuid' ∧ mobile ≠ mobile'

/-- The accounts at the start are still there. -/
theorem Settling.identities (h : Settling env requests w s) : w.db.identities ⊆ s.shared.db.identities := by
  obtain ⟨new, hnew, -⟩ := h.steadfast.grown
  rw [hnew]
  exact List.subset_append_left _ _

/-- A registration that has just inserted its row had not done so before, and nobody else has its keys. -/
theorem Settling.enrols (h : Settling env requests w s) {i : Nat} {c : Cmd} {next : c.Reply → Thread}
    {uuid mobile : Bytes} (hold : Unenrolled uuid mobile (fun o => o.isOk = false) (.call c next : Thread))
    (hnew : ¬Unenrolled uuid mobile (fun o => o.isOk = false) (next (exec c s.shared).1)) :
    ((∀ user ∈ w.db.users, w.db.uuidKey user.uuid ≠ w.db.uuidKey uuid ∧ user.mobile ≠ mobile) ∧
      ∃ a ∈ (exec c s.shared).2.db.identities, a.uuid = uuid ∧ a.mobile = mobile) ∧
    ∀ j uuid' mobile' q, j ≠ i → Registers requests j uuid' mobile' → s.threads[j]? = some q →
      ¬Unenrolled uuid' mobile' (fun o => o.isOk = false) q →
        w.db.uuidKey uuid ≠ w.db.uuidKey uuid' ∧ mobile ≠ mobile' := by
  obtain ⟨hfree, hrow⟩ := exec_enrols ((hold (exec c s.shared).1).resolve_right hnew)
  have hother : ∀ a ∈ s.shared.db.identities, w.db.uuidKey a.uuid ≠ w.db.uuidKey uuid ∧ a.mobile ≠ mobile := by
    intro a ha
    obtain ⟨user, huser, rfl⟩ := Database.mem_identities.mp ha
    rw [← h.collation]
    exact hfree user huser
  refine ⟨⟨fun user huser => ?_, hrow⟩, fun j uuid' mobile' q hj hregisters' hq hpast => ?_⟩
  · exact hother user.identity (h.identities (Database.mem_identities.mpr ⟨user, huser, rfl⟩))
  · obtain ⟨-, a, ha, rfl, rfl⟩ := h.staged j uuid' mobile' q hregisters' hq hpast
    exact ⟨(hother a ha).1.symm, (hother a ha).2.symm⟩

/-- **Step.** -/
theorem Settling.move (h : Settling env requests w s) (m : Move Nat) :
    Settling env requests w (System.move exec passTime m s) := by
  have hsteadfast := h.steadfast.move m
  rcases System.move_cases exec passTime m s with ⟨i, c, next, rfl, hi, hmove⟩ | ⟨delay, rfl, hmove⟩ | ⟨i, -, -, hmove⟩
  · have hsends := (h.steadfast.within _ (List.mem_of_getElem? hi) _ (List.Subset.refl _) _ le_rfl).1
    obtain ⟨-, new, hnew, -⟩ := exec_identities h.steadfast.wellFormed hsends
    have hkept : ∀ a ∈ s.shared.db.identities, a ∈ (exec c s.shared).2.db.identities := by
      intro a ha
      rw [hnew]
      exact List.mem_append_left _ ha
    rw [hmove] at hsteadfast ⊢
    refine ⟨hsteadfast, ?_, fun j uuid mobile p hregisters hj hpast => ?_,
      fun j k uuid mobile uuid' mobile' p q hjk hregisters hregisters' hj hk hpast hpast' => ?_⟩
    · cases c with
      | now => exact h.collation
      | redis c =>
          show (exec (.redis c) s.shared).2.db.uuidKey = _
          rw [exec_redis_db]
          exact h.collation
      | sql stmt =>
          rcases execSql_cases s.shared stmt with ⟨-, hdb⟩ | ⟨-, hdb⟩
          · exact (congrArg Database.uuidKey hdb).trans h.collation
          · exact (congrArg Database.uuidKey hdb).trans ((SqlStmt.apply_uuidKey _ _ _).trans h.collation)
    · rcases System.getElem?_set_cases hj with ⟨rfl, rfl⟩ | ⟨-, hj⟩
      · by_cases hold : Unenrolled uuid mobile (fun o => o.isOk = false) (.call c next : Thread)
        · exact (h.enrols (i := j) hold hpast).1
        · obtain ⟨hfree, a, ha, hrow⟩ := h.staged j uuid mobile _ hregisters hi hold
          exact ⟨hfree, a, hkept a ha, hrow⟩
      · obtain ⟨hfree, a, ha, hrow⟩ := h.staged j uuid mobile p hregisters hj hpast
        exact ⟨hfree, a, hkept a ha, hrow⟩
    · -- the one that has moved stands where it stood, or has just inserted its row
      rcases System.getElem?_set_cases hj with ⟨rfl, rfl⟩ | ⟨hji, hj'⟩
      · rcases System.getElem?_set_cases hk with ⟨rfl, -⟩ | ⟨hkj, hk'⟩
        · exact absurd rfl hjk
        · by_cases hold : Unenrolled uuid mobile (fun o => o.isOk = false) (.call c next : Thread)
          · exact (h.enrols hold hpast).2 k uuid' mobile' q hkj hregisters' hk' hpast'
          · exact h.apart j k _ _ _ _ _ q hjk hregisters hregisters' hi hk' hold hpast'
      · rcases System.getElem?_set_cases hk with ⟨rfl, rfl⟩ | ⟨-, hk'⟩
        · by_cases hold : Unenrolled uuid' mobile' (fun o => o.isOk = false) (.call c next : Thread)
          · obtain ⟨huuid, hmobile⟩ := (h.enrols hold hpast').2 j uuid mobile p hji hregisters hj' hpast
            exact ⟨huuid.symm, hmobile.symm⟩
          · exact h.apart j k _ _ _ _ p _ hjk hregisters hregisters' hj' hi hpast hold
        · exact h.apart j k _ _ _ _ p q hjk hregisters hregisters' hj' hk' hpast hpast'
  · rw [hmove] at hsteadfast ⊢
    exact ⟨hsteadfast, h.collation, h.staged, h.apart⟩
  · rw [hmove]
    exact h

end Invariant

/-- **Registrations at the same time.** Whatever else runs and fails in between, a registration that has been accepted
has its row in the table, with keys that no account had at the start, and two of them have different keys. -/
theorem registrations_distinct (env : Env) (requests : List (Draws × Request)) (w : World) (hdb : w.db.WellFormed)
    (schedule : List (Move Nat)) (i : Nat) (uuid mobile : Bytes) (hi : Registers requests i uuid mobile)
    (haccepted : acceptedAt (interleave schedule ⟨w, requestThreads env requests⟩) i = true) :
    (∀ user ∈ w.db.users, w.db.sameUuid user.uuid uuid = false ∧ user.mobile ≠ mobile) ∧
    (∃ user ∈ (interleave schedule ⟨w, requestThreads env requests⟩).shared.db.users,
      user.uuid = uuid ∧ user.mobile = mobile ∧ user.role = .user) ∧
    ∀ j uuid' mobile', j ≠ i → Registers requests j uuid' mobile' →
      acceptedAt (interleave schedule ⟨w, requestThreads env requests⟩) j = true →
        w.db.sameUuid uuid uuid' = false ∧ mobile ≠ mobile' := by
  have hstart : Settling env requests w ⟨w, requestThreads env requests⟩ := by
    have hunenrolled : ∀ j uuid mobile p, Registers requests j uuid mobile → (requestThreads env requests)[j]? = some p →
        Unenrolled uuid mobile (fun o => o.isOk = false) p := by
      rintro j uuid mobile p ⟨draws, verifyCode, password, displayName, hj, rfl⟩ hp
      rw [requestThreads, List.getElem?_map, hj, Option.map_some, Option.some.injEq] at hp
      rw [← hp]
      exact unenrolled_register env draws mobile verifyCode password displayName
    exact ⟨steadfast_interleave env requests hdb [], rfl,
      fun j uuid mobile p hregisters hp hpast => absurd (hunenrolled j uuid mobile p hregisters hp) hpast,
      fun j k uuid mobile uuid' mobile' p q _ hregisters _ hp _ hpast =>
        absurd (hunenrolled j uuid mobile p hregisters hp) hpast⟩
  have hend : Settling env requests w (interleave schedule ⟨w, requestThreads env requests⟩) :=
    System.play_always exec passTime (fun s m h => h.move m) schedule _ hstart
  obtain ⟨p, hp, hpAccepted⟩ := accepted_of_acceptedAt haccepted
  have hpast : ¬Unenrolled uuid mobile (fun o => o.isOk = false) p := not_unenrolled_of_accepted hpAccepted
  obtain ⟨hfree, a, ha, rfl, rfl⟩ := hend.staged i uuid mobile p hi hp hpast
  refine ⟨fun user huser => ⟨?_, (hfree user huser).2⟩, ?_, fun j uuid' mobile' hji hj hother => ?_⟩
  · simpa [Database.sameUuid] using (hfree user huser).1
  · obtain ⟨new, hnew, henrolled⟩ := hend.steadfast.grown
    obtain ⟨user, huser, rfl⟩ := Database.mem_identities.mp ha
    rw [hnew] at ha
    rcases List.mem_append.mp ha with hold | hadded
    · obtain ⟨old, hmem, hsame⟩ := Database.mem_identities.mp hold
      exact absurd (congrArg Identity.mobile hsame) (hfree old hmem).2
    · exact ⟨user, huser, rfl, rfl, (henrolled _ hadded).2.2.2⟩
  · obtain ⟨q, hq, hqAccepted⟩ := accepted_of_acceptedAt hother
    obtain ⟨huuid, hmobile⟩ := hend.apart i j _ _ uuid' mobile' p q (Ne.symm hji) hi hj hp hq hpast
      (not_unenrolled_of_accepted hqAccepted)
    exact ⟨by simpa [Database.sameUuid] using huuid, hmobile⟩

/-- Two registrations of one mobile, and one of another, after their codes have been sent. -/
def rivalSignUps : List (Draws × Request) :=
  let third := { laterDraws with uuid := ascii "550e8400-e29b-41d4-a716-446655440002" }
  [(earlierDraws, .sendVerifyCode (ascii "13800138000") .register),
    (earlierDraws, .sendVerifyCode (ascii "13900139000") .register),
    (earlierDraws, .register (ascii "13800138000") (ascii "123456") (ascii "Password123") (ascii "A")),
    (newcomerDraws, .register (ascii "13800138000") (ascii "123456") (ascii "Password123") (ascii "B")),
    (third, .register (ascii "13900139000") (ascii "123456") (ascii "Password123") (ascii "C"))]

/-- The two pass the test of the code before either of them inserts its row. -/
def rivalSchedule : List (Move Nat) :=
  List.replicate 6 (.thread 0) ++ List.replicate 6 (.thread 1) ++
    [.thread 2, .thread 3, .thread 2, .thread 3, .thread 2, .thread 3] ++ List.replicate 12 (.thread 2) ++
    List.replicate 12 (.thread 3) ++ List.replicate 12 (.thread 4)

theorem registrations_distinct_sample :
    acceptedAt (interleave rivalSchedule ⟨emptyWorld 0, requestThreads defaultEnv rivalSignUps⟩) 3 = false ∧
      ∃ user ∈ (interleave rivalSchedule ⟨emptyWorld 0, requestThreads defaultEnv rivalSignUps⟩).shared.db.users,
        user.uuid = earlierDraws.uuid ∧ user.mobile = ascii "13800138000" ∧ user.role = .user :=
  ⟨by decide +kernel, (registrations_distinct defaultEnv rivalSignUps (emptyWorld 0) (Database.wellFormed_empty id)
    rivalSchedule 2 earlierDraws.uuid (ascii "13800138000") ⟨_, _, _, _, rfl, rfl⟩ (by decide +kernel)).2.1⟩

end AccountService
