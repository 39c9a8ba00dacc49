import AccountService.LibraryLog
import AccountService.ModelPooled
import AccountService.RepositorySpec

/-! What `UserDB::Create` says about the table. The row is in the table before the second connection is asked for, so
that a call that cannot read its row back reports a failure for a row that it has added. -/

namespace AccountService

open Interaction

section Definitions

variable (create : Nat → Creation)

/-- The calls after a schedule, in which time may pass between two commands. -/
abbrev playCreators (schedule : List (Move Nat)) (s : Creators) : Creators :=
  System.play (execPooled create) Backend.passTime schedule s

abbrev moveCreators (m : Move Nat) (s : Creators) : Creators := System.move (execPooled create) Backend.passTime m s

/-- The rows that a move adds to the table if it is one of thread `i`. -/
def addedNow (i : Nat) (m : Move Nat) (s : Creators) : List UserEntity :=
  if m = .thread i then (moveCreators create m s).shared.db.users.drop s.shared.db.users.length else []

/-- The rows that thread `i` adds to the table in the course of a schedule. -/
def addedBy (i : Nat) : List (Move Nat) → Creators → List UserEntity
  | [], _ => []
  | m :: rest, s => addedNow create i m s ++ addedBy i rest (moveCreators create m s)

/-- The result of thread `i` is the truth about the rows that it has added. -/
structure Truthful (i : Nat) (schedule : List (Move Nat)) (s : Creators) (r : Result UserEntity) : Prop where
  ok : ∀ user, r = .ok user → addedBy create i schedule s = [user]
  fail : r.isOk = false → addedBy create i schedule s = []

/-- The command does not fail: there is a connection in the pool that is good or can be replaced, the connection is
good, the statement is carried out. -/
def PooledCmd.Succeeds (b : Backend) : PooledCmd → Prop
  | .createConnection => b.pool.idle ≠ [] ∧ (b.answers.headD true = true ∨ create b.pool.calls = .made)
  | .valid => b.answers.headD true = true
  | .execute _ => b.sqlFaults.headD false = false
  | .destroyGuard _ => True

instance (b : Backend) (c : PooledCmd) : Decidable (c.Succeeds create b) := by
  unfold PooledCmd.Succeeds
  split <;> infer_instance

/-- Once thread `i` has added a row, none of its commands fails. -/
def ReadsBack (i : Nat) (schedule : List (Move Nat)) (s : Creators) : Prop :=
  ∀ before after, schedule = before ++ .thread i :: after → addedBy create i before s ≠ [] →
    ∀ c ∈ (playCreators create before s).pending i, c.Succeeds create (playCreators create before s).shared

end Definitions

section Stages

/-- Only guards are destroyed. -/
def PooledCmd.IsEnd : PooledCmd → Prop
  | .destroyGuard _ => True
  | _ => False

/-- The result, if there will be one, is settled. -/
def Settled (Q : Result UserEntity → Prop) (p : PooledCall) : Prop :=
  Program.Uses (S := Pooled) PooledCmd.IsEnd p ∧ Program.Returns (fun r => ∀ x ∈ r, Q x) p

/-- The call will report a failure. -/
def Lost (p : PooledCall) : Prop := Settled (fun r => r.isOk = false) p

/-- The call will report the row. -/
def Found (row : UserEntity) (p : PooledCall) : Prop := Settled (fun r => r = .ok row) p

variable (uuid : Bytes)

/-- The row has been inserted and is to be read back. Whatever fails from here on is reported. -/
def Inserted : PooledCall → Prop
  | .call .createConnection next => (∀ e, Lost (next (.error e))) ∧ ∀ conn, Inserted (next (.ok conn))
  | .call .valid next => Lost (next false) ∧ Inserted (next true)
  | .call (.execute (.selectUserByUuid u)) next =>
      u = uuid ∧ (∀ e, Lost (next (.error e))) ∧ ∀ row, Found row (next (.ok (some row)))
  | _ => False

/-- No row has been inserted. -/
def NotYet : PooledCall → Prop
  | .done r => ∀ x ∈ r, x.isOk = false
  | .call (.execute (.insertUser u _ _ _ _)) next =>
      u = uuid ∧ (∀ e, NotYet (next (.error e))) ∧ Inserted uuid (next (.ok ()))
  | .call (.execute _) _ => False
  | .call _ next => ∀ reply, NotYet (next reply)

variable {uuid}

theorem settled_leave {Q : Result UserEntity → Prop} {r : Result UserEntity} (conn : Nat) (h : Q r) :
    Settled Q (PooledDB.leave conn r) := by
  refine ⟨⟨trivial, fun reply => ?_⟩, fun reply => ?_⟩
  · cases reply <;> trivial
  · cases reply with
    | error e => exact nofun
    | ok _ =>
        intro x hx
        rw [← Option.mem_some.mp hx]
        exact h

/-- `FindByUUID` has its result, and the first connection is given back after it. -/
theorem Settled.thenLeave {Q : Result UserEntity → Prop} {p : PooledCall} (conn : Nat) (h : Settled Q p) :
    Settled Q (p >>= fun found => match found with
      | none => pure none
      | some r => PooledDB.leave conn r) := by
  refine ⟨h.1.bind fun found => ?_, h.2.bind fun found hfound => ?_⟩
  · cases found with
    | none => trivial
    | some r => exact (settled_leave (Q := fun _ => True) conn trivial).1
  · cases found with
    | none => exact nofun
    | some r => exact (settled_leave conn (hfound r rfl)).2

theorem inserted_findByUUID (conn : Nat) :
    Inserted uuid (PooledDB.findByUUID uuid >>= fun found => match found with
      | none => pure none
      | some r => PooledDB.leave conn r) := by
  have hfail : ∀ code, (failPlain code : Result UserEntity).isOk = false := fun _ => rfl
  refine ⟨fun _ => settled_leave conn (hfail _), fun second => ⟨?_, rfl, fun _ => ?_, fun row => ?_⟩⟩
  · exact (settled_leave second (hfail _)).thenLeave conn
  · exact (settled_leave second (hfail _)).thenLeave conn
  · exact (settled_leave (Q := fun r => r = .ok row) second rfl).thenLeave conn

theorem notYet_leave {r : Result UserEntity} (conn : Nat) (h : r.isOk = false) :
    NotYet uuid (PooledDB.leave conn r) := by
  intro reply
  cases reply with
  | error e => exact nofun
  | ok _ =>
      intro x hx
      rw [← Option.mem_some.mp hx]
      exact h

theorem notYet_create (user : UserEntity) : NotYet uuid (PooledDB.create uuid user) := by
  intro reply
  cases reply with
  | error e =>
      intro x hx
      rw [← Option.mem_some.mp hx]
      rfl
  | ok conn =>
      intro good
      cases good with
      | false => exact notYet_leave conn rfl
      | true =>
          refine ⟨rfl, fun e => ?_, inserted_findByUUID conn⟩
          rcases e with (_ | _ | _) | _ <;> exact notYet_leave conn rfl

end Stages

section Commands

variable (create : Nat → Creation) {b : Backend}

theorem createConnection_ok (h : PooledCmd.createConnection.Succeeds create b) :
    ∃ conn, (b.createConnection create).1 = .ok conn := by
  obtain ⟨hidle, hgood⟩ := h
  obtain ⟨conn, rest, hcons⟩ := List.exists_cons_of_ne_nil hidle
  rw [Backend.createConnection, Pool.createConnection, Pool.acquire, hcons]
  cases hvalid : b.answers.headD true with
  | true => exact ⟨_, rfl⟩
  | false =>
      have hmade : create b.pool.calls = .made := hgood.resolve_left (by rw [hvalid]; nofun)
      simp [Pool.createConn, hmade, Except.map]

theorem createConnection_error (h : ¬PooledCmd.createConnection.Succeeds create b) :
    ∃ e, (b.createConnection create).1 = .error e := by
  rw [PooledCmd.Succeeds, not_and_or, not_not, not_or] at h
  rw [Backend.createConnection, Pool.createConnection, Pool.acquire]
  rcases hidle : b.pool.idle with _ | ⟨conn, rest⟩
  · exact ⟨_, rfl⟩
  · obtain ⟨hvalid, hmade⟩ := h.resolve_left (by rw [hidle]; nofun)
    rw [Bool.not_eq_true] at hvalid
    rw [hvalid]
    cases hcreate : create b.pool.calls with
    | made => exact absurd hcreate hmade
    | null => simp [Pool.createConn, hcreate, Except.map]
    | raised => simp [Pool.createConn, hcreate, Except.map]

theorem execute_eq (h : b.sqlFaults.headD false = false) (s : SqlStmt) :
    (b.execute s).1 = (s.apply (toTimeT b.clock) b.db).1 ∧ (b.execute s).2.db = (s.apply (toTimeT b.clock) b.db).2 := by
  rw [Backend.execute]
  split
  · rename_i hfaults
    rw [hfaults] at h
    cases h
  · exact ⟨rfl, rfl⟩

theorem execute_fault (h : b.sqlFaults.headD false = true) (s : SqlStmt) :
    (b.execute s).1 = .error .other ∧ (b.execute s).2.db = b.db := by
  obtain ⟨rest, hfaults⟩ : ∃ rest, b.sqlFaults = true :: rest := by
    rcases hcons : b.sqlFaults with _ | ⟨_ | _, rest⟩
    · rw [hcons] at h
      cases h
    · rw [hcons] at h
      cases h
    · exact ⟨rest, rfl⟩
  rw [Backend.execute, hfaults]
  exact ⟨rfl, rfl⟩

/-- A command that is no insertion leaves the table alone. -/
theorem execPooled_db {c : PooledCmd} (h : ∀ s, c = .execute s → ∃ uuid, s = .selectUserByUuid uuid) :
    (execPooled create c b).2.db = b.db := by
  cases c with
  | createConnection => rfl
  | valid => rfl
  | destroyGuard guard => rfl
  | execute s =>
      obtain ⟨uuid, rfl⟩ := h s rfl
      cases hfault : b.sqlFaults.headD false with
      | true => exact (execute_fault hfault _).2
      | false => exact (execute_eq hfault _).2

/-- The table after an insertion: nothing was inserted, or the row is the only one with its UUID. -/
theorem execute_insert (b : Backend) (uuid mobile displayName passwordHash : Bytes) (role : UserRole) :
    (∃ e, (b.execute (.insertUser uuid mobile displayName passwordHash role)).1 = .error e ∧
      (b.execute (.insertUser uuid mobile displayName passwordHash role)).2.db = b.db) ∨
    ∃ row, (b.execute (.insertUser uuid mobile displayName passwordHash role)).1 = .ok () ∧
      (b.execute (.insertUser uuid mobile displayName passwordHash role)).2.db.users = b.db.users ++ [row] ∧
      (b.execute (.insertUser uuid mobile displayName passwordHash role)).2.db.uuidKey = b.db.uuidKey ∧
      (b.db.users ++ [row]).find? (b.db.sameUuid ·.uuid uuid) = some row := by
  cases hfault : b.sqlFaults.headD false with
  | true => exact Or.inl ⟨_, execute_fault hfault _⟩
  | false =>
      obtain ⟨hreply, hdb⟩ := execute_eq hfault (.insertUser uuid mobile displayName passwordHash role)
      rw [hreply, hdb, SqlStmt.apply]
      split
      · exact Or.inl ⟨_, rfl, rfl⟩
      · rename_i huuid
        split
        · exact Or.inl ⟨_, rfl, rfl⟩
        · split
          · exact Or.inl ⟨_, rfl, rfl⟩
          · refine Or.inr ⟨_, rfl, rfl, rfl, ?_⟩
            rw [List.find?_append, List.find?_eq_none.mpr]
            · simp [Database.sameUuid]
            · simpa using huuid

end Commands

/-- Where a call stands that has added `rows`; `fine` says that none of its commands has failed since. -/
inductive Standing (uuid : Bytes) (db : Database) (rows : List UserEntity) (fine : Prop) (p : PooledCall) : Prop
  | notYet (h : NotYet uuid p) (hrows : rows = []) (hfine : fine)
  | inserted (h : Inserted uuid p) {row : UserEntity} (hrows : rows = [row]) (hfine : fine)
      (hrow : db.users.find? (db.sameUuid ·.uuid uuid) = some row)
  | found {row : UserEntity} (h : Found row p) (hrows : rows = [row]) (hfine : fine)
  | lost (h : Lost p) {row : UserEntity} (hrows : rows = [row]) (hfine : ¬fine)

section Standing

variable (create : Nat → Creation) {uuid : Bytes} {b : Backend} {db db' : Database} {rows : List UserEntity}
  {fine fine' : Prop} {p : PooledCall} {c : PooledCmd} {next : c.Reply → PooledCall}

/-- Other calls only add rows. -/
theorem Standing.grow (h : Standing uuid db rows fine p) {more : List UserEntity}
    (husers : db'.users = db.users ++ more) (hkey : db'.uuidKey = db.uuidKey) (hfine : fine' ↔ fine) : Standing uuid db' rows fine' p := by
  cases h with
  | notYet h hrows hold => exact .notYet h hrows (hfine.mpr hold)
  | inserted h hrows hold hrow =>
      refine .inserted h hrows (hfine.mpr hold) ?_
      simp only [Database.sameUuid, hkey, husers, List.find?_append] at hrow ⊢
      rw [hrow]
      rfl
  | found h hrows hold => exact .found h hrows (hfine.mpr hold)
  | lost h hrows hold => exact .lost h hrows fun hnew => hold (hfine.mp hnew)

/-- A command that leaves the table alone. -/
theorem Standing.same (h : Standing uuid b.db rows fine p)
    (hc : ∀ s, c = .execute s → ∃ uuid, s = .selectUserByUuid uuid) :
    Standing uuid (execPooled create c b).2.db
      (rows ++ (execPooled create c b).2.db.users.drop b.db.users.length) fine p := by
  rw [execPooled_db create hc, List.drop_length, List.append_nil]
  exact h

/-- **Step.** A command of the call itself. -/
theorem standing_call (h : Standing uuid b.db rows fine (.call c next))
    (hfine : fine' ↔ fine ∧ (rows ≠ [] → c.Succeeds create b)) :
    Standing uuid (execPooled create c b).2.db
      (rows ++ (execPooled create c b).2.db.users.drop b.db.users.length) fine' (next (execPooled create c b).1) := by
  cases h with
  | notYet h hrows hold =>
      have hnow : fine' := hfine.mpr ⟨hold, fun hne => absurd hrows hne⟩
      cases c with
      | createConnection => exact Standing.same create (.notYet (h _) hrows hnow) nofun
      | valid => exact Standing.same create (.notYet (h _) hrows hnow) nofun
      | destroyGuard guard => exact Standing.same create (.notYet (h _) hrows hnow) nofun
      | execute s =>
          cases s with
          | insertUser u mobile displayName passwordHash role =>
              obtain ⟨rfl, herror, hok⟩ := h
              show Standing u (b.execute _).2.db (rows ++ (b.execute _).2.db.users.drop _) fine' (next (b.execute _).1)
              rcases execute_insert b u mobile displayName passwordHash role with
                ⟨e, hreply, hdb⟩ | ⟨row, hreply, husers, hkey, hrow⟩
              · rw [hreply, hdb, List.drop_length, List.append_nil]
                exact .notYet (herror e) hrows hnow
              · rw [hreply, husers, List.drop_left, hrows]
                refine .inserted hok rfl hnow ?_
                simp only [Database.sameUuid, husers, hkey] at hrow ⊢
                exact hrow
          | _ => exact h.elim
  | inserted h hrows hold hrow =>
      have hnow : fine' ↔ c.Succeeds create b := by
        rw [hfine, hrows]
        exact ⟨fun h => h.2 (by simp), fun h => ⟨hold, fun _ => h⟩⟩
      cases c with
      | createConnection =>
          refine Standing.same create ?_ nofun
          by_cases hgood : PooledCmd.createConnection.Succeeds create b
          · obtain ⟨conn, hreply⟩ := createConnection_ok create hgood
            rw [show (execPooled create .createConnection b).1 = .ok conn from hreply]
            exact .inserted (h.2 conn) hrows (hnow.mpr hgood) hrow
          · obtain ⟨e, hreply⟩ := createConnection_error create hgood
            rw [show (execPooled create .createConnection b).1 = .error e from hreply]
            exact .lost (h.1 e) hrows fun hnew => hgood (hnow.mp hnew)
      | valid =>
          refine Standing.same create ?_ nofun
          cases hgood : b.answers.headD true with
          | true =>
              rw [show (execPooled create .valid b).1 = true from hgood]
              exact .inserted h.2 hrows (hnow.mpr hgood) hrow
          | false =>
              rw [show (execPooled create .valid b).1 = false from hgood]
              refine .lost h.1 hrows fun hnew => ?_
              exact Bool.false_ne_true (hgood.symm.trans (hnow.mp hnew))
      | destroyGuard guard => exact h.elim
      | execute s =>
          cases s with
          | selectUserByUuid u =>
              obtain ⟨rfl, herror, hok⟩ := h
              refine Standing.same create ?_ fun s hs => ⟨u, (PooledCmd.execute.inj hs).symm⟩
              cases hfault : b.sqlFaults.headD false with
              | false =>
                  have hreply := (execute_eq hfault (.selectUserByUuid u)).1
                  simp only [SqlStmt.apply, hrow] at hreply
                  rw [show (execPooled create (.execute (.selectUserByUuid u)) b).1 = _ from hreply]
                  exact .found (hok _) hrows (hnow.mpr hfault)
              | true =>
                  have hreply := (execute_fault hfault (.selectUserByUuid u)).1
                  rw [show (execPooled create (.execute (.selectUserByUuid u)) b).1 = _ from hreply]
                  refine .lost (herror _) hrows fun hnew => ?_
                  exact Bool.false_ne_true ((hnow.mp hnew).symm.trans hfault)
          | _ => exact h.elim
  | found h hrows hold =>
      cases c with
      | destroyGuard guard =>
          exact Standing.same create (.found ⟨h.1.2 _, h.2 _⟩ hrows (hfine.mpr ⟨hold, fun _ => trivial⟩)) nofun
      | _ => exact h.1.1.elim
  | lost h hrows hold =>
      cases c with
      | destroyGuard guard =>
          exact Standing.same create (.lost ⟨h.1.2 _, h.2 _⟩ hrows fun hnew => hold (hfine.mp hnew).1) nofun
      | _ => exact h.1.1.elim

/-- What a call adds to the table. -/
theorem Standing.adds (h : Standing uuid b.db rows fine (.call c next)) :
    ∃ more, (execPooled create c b).2.db.users = b.db.users ++ more ∧
      (execPooled create c b).2.db.uuidKey = b.db.uuidKey := by
  have hsame : (∀ s, c = .execute s → ∃ uuid, s = .selectUserByUuid uuid) →
      ∃ more, (execPooled create c b).2.db.users = b.db.users ++ more ∧
        (execPooled create c b).2.db.uuidKey = b.db.uuidKey := by
    intro hc
    rw [execPooled_db create hc]
    exact ⟨[], (List.append_nil _).symm, rfl⟩
  cases c with
  | createConnection => exact hsame nofun
  | valid => exact hsame nofun
  | destroyGuard guard => exact hsame nofun
  | execute s =>
      cases s with
      | selectUserByUuid u => exact hsame fun s hs => ⟨u, (PooledCmd.execute.inj hs).symm⟩
      | insertUser u mobile displayName passwordHash role =>
          show ∃ more, (b.execute _).2.db.users = b.db.users ++ more ∧ (b.execute _).2.db.uuidKey = b.db.uuidKey
          rcases execute_insert b u mobile displayName passwordHash role with
            ⟨e, -, hdb⟩ | ⟨row, -, husers, hkey, -⟩
          · rw [hdb]
            exact ⟨[], (List.append_nil _).symm, rfl⟩
          · exact ⟨[row], husers, hkey⟩
      | _ =>
          cases h with
          | notYet h => exact h.elim
          | inserted h => exact h.elim
          | found h => exact h.1.1.elim
          | lost h => exact h.1.1.elim

/-- A call that has returned. -/
theorem Standing.reported {r : Result UserEntity} (h : Standing uuid db rows fine (.done (some r))) :
    ((∀ user, r = .ok user → rows = [user]) ∧ (r.isOk = false → rows = [])) ↔ fine := by
  cases h with
  | notYet h hrows hfine =>
      refine iff_of_true ⟨fun user hr => ?_, fun _ => hrows⟩ hfine
      have hfail := h r rfl
      rw [hr] at hfail
      cases hfail
  | inserted h => exact h.elim
  | found h hrows hfine =>
      obtain rfl := h.2 r rfl
      refine iff_of_true ⟨fun user hr => ?_, nofun⟩ hfine
      rw [hrows, Result.ok.inj hr]
  | lost h hrows hfine =>
      refine iff_of_false (fun htrue => ?_) hfine
      rw [htrue.2 (h.2 r rfl)] at hrows
      cases hrows

end Standing

section Runs

variable (create : Nat → Creation)

theorem addedBy_snoc (i : Nat) (schedule : List (Move Nat)) (m : Move Nat) (s : Creators) :
    addedBy create i (schedule ++ [m]) s =
      addedBy create i schedule s ++ addedNow create i m (playCreators create schedule s) := by
  induction schedule generalizing s with
  | nil => simp [addedBy]
  | cons first rest ih =>
      rw [List.cons_append, addedBy, ih, addedBy, List.append_assoc]
      rfl

theorem readsBack_snoc (i : Nat) (schedule : List (Move Nat)) (m : Move Nat) (s : Creators) :
    ReadsBack create i (schedule ++ [m]) s ↔ ReadsBack create i schedule s ∧
      (m = .thread i → addedBy create i schedule s ≠ [] →
        ∀ c ∈ (playCreators create schedule s).pending i,
          c.Succeeds create (playCreators create schedule s).shared) := by
  constructor
  · intro h
    refine ⟨fun before after heq => h before (after ++ [m]) ?_, fun hm => h schedule [] (by rw [hm])⟩
    rw [heq, List.append_assoc, List.cons_append]
  · rintro ⟨hbefore, hlast⟩ before after heq
    rcases snoc_eq_append_cons heq with ⟨rfl, hm⟩ | ⟨rest, -, hschedule⟩
    · exact hlast hm
    · exact hbefore before rest hschedule

/-- **Run.** Every call stands where its rows and its commands say. -/
theorem standing_run (calls : List CreateCall) (b : Backend) (schedule : List (Move Nat)) :
    ∀ j p, (playCreators create schedule (creators calls b)).threads[j]? = some p →
      ∃ uuid, Standing uuid (playCreators create schedule (creators calls b)).shared.db
        (addedBy create j schedule (creators calls b)) (ReadsBack create j schedule (creators calls b)) p := by
  induction schedule using List.reverseRecOn with
  | nil =>
      intro j p hp
      have hp : (calls.map fun call => PooledDB.create call.uuid call.user)[j]? = some p := hp
      rw [List.getElem?_map, Option.map_eq_some_iff] at hp
      obtain ⟨call, -, rfl⟩ := hp
      refine ⟨call.uuid, .notYet (notYet_create call.user) rfl fun before after heq => ?_⟩
      simp at heq
  | append_singleton schedule m ih =>
      intro j p hp
      rw [playCreators, System.play_append, System.play_cons, System.play_nil] at hp ⊢
      rw [addedBy_snoc]
      rcases System.move_cases (execPooled create) Backend.passTime m (playCreators create schedule (creators calls b))
        with ⟨i, c, next, rfl, hi, hmove⟩ | ⟨delay, rfl, hmove⟩ | ⟨i, rfl, hnone, hmove⟩
      · obtain ⟨uuid, hi'⟩ := ih i _ hi
        rw [hmove] at hp ⊢
        rcases System.getElem?_set_cases hp with ⟨rfl, rfl⟩ | ⟨hne, hj⟩
        · refine ⟨uuid, ?_⟩
          rw [addedNow, if_pos rfl, moveCreators, hmove]
          refine standing_call create hi' ?_
          rw [readsBack_snoc, System.pending, hi]
          simp [Program.next?]
        · obtain ⟨uuid', hj'⟩ := ih j p hj
          obtain ⟨more, husers, hkey⟩ := hi'.adds create
          have hother : ¬(Move.thread i : Move Nat) = .thread j := fun h => hne (Move.thread.inj h).symm
          rw [addedNow, if_neg hother, List.append_nil]
          refine ⟨uuid', hj'.grow husers hkey ?_⟩
          rw [readsBack_snoc]
          exact and_iff_left fun h => absurd h hother
      · obtain ⟨uuid, hj'⟩ := ih j p (by rwa [hmove] at hp)
        have hother : ¬(Move.outside delay : Move Nat) = .thread j := by simp
        rw [hmove, addedNow, if_neg hother, List.append_nil]
        refine ⟨uuid, hj'.grow (List.append_nil _).symm rfl ?_⟩
        rw [readsBack_snoc]
        exact and_iff_left fun h => absurd h hother
      · obtain ⟨uuid, hj'⟩ := ih j p (by rwa [hmove] at hp)
        have hadded : addedNow create j (.thread i) (playCreators create schedule (creators calls b)) = [] := by
          rw [addedNow, moveCreators, hmove]
          split
          · exact List.drop_length
          · rfl
        rw [hmove, hadded, List.append_nil]
        refine ⟨uuid, hj'.grow (List.append_nil _).symm rfl ?_⟩
        rw [readsBack_snoc]
        refine and_iff_left fun hij _ c hc => ?_
        rw [← Move.thread.inj hij, hnone] at hc
        cases hc

end Runs

/-- **Truth.** Whatever the table, the pool, the other calls and the failures are: a call of `Create` that has returned
has told the truth exactly if none of its commands failed once it had added its row. -/
theorem create_truthful_iff (create : Nat → Creation) (calls : List CreateCall) (b : Backend)
    (schedule : List (Move Nat)) {i : Nat} {r : Result UserEntity}
    (hreturned : (playCreators create schedule (creators calls b)).threads[i]? = some (.done (some r))) :
    Truthful create i schedule (creators calls b) r ↔ ReadsBack create i schedule (creators calls b) := by
  obtain ⟨uuid, hstanding⟩ := standing_run create calls b schedule i _ hreturned
  rw [← hstanding.reported]
  exact ⟨fun h => ⟨h.ok, h.fail⟩, fun h => ⟨h.1, h.2⟩⟩

section Alone

variable (create : Nat → Creation) {b : Backend}

theorem run_leave (hanswers : b.answers = []) (guard : Nat) (r : Result UserEntity) :
    Program.run (execPooled create) (PooledDB.leave guard r) b = (some r, (b.destroyGuard create guard).2) := by
  have hok : execPooled create (.destroyGuard guard) b = (.ok (), (b.destroyGuard create guard).2) := by
    refine Prod.ext ?_ rfl
    simp only [execPooled, Backend.destroyGuard, hanswers, Pool.destroyGuard, Pool.release]
    split <;> rfl
  rw [PooledDB.leave, PooledDB.perform, Program.perform_bind, Program.run_call, hok]
  rfl

/-- The connection is taken out of the pool. -/
def Backend.taking (b : Backend) (conn : Nat) (rest : List Nat) : Backend :=
  { b with
    pool := { b.pool with
      idle := rest
      guards := b.pool.guards ++ [some conn] } }

theorem run_withConnection (hanswers : b.answers = []) {conn : Nat} {rest : List Nat}
    (hidle : b.pool.idle = conn :: rest) (body : Nat → PooledCall) :
    Program.run (execPooled create) (PooledDB.withConnection body) b =
      Program.run (execPooled create) (body b.pool.guards.length) (b.taking conn rest) := by
  have hconn : execPooled create .createConnection b = (.ok b.pool.guards.length, b.taking conn rest) := by
    simp only [execPooled, Backend.createConnection, Pool.createConnection, Pool.acquire, hidle, hanswers,
      Backend.taking]
    rfl
  have hvalid : execPooled create .valid (b.taking conn rest) = (true, b.taking conn rest) := by
    simp only [execPooled, Backend.taking, hanswers]
    rfl
  rw [PooledDB.withConnection, PooledDB.perform, Program.perform_bind, Program.run_call, hconn]
  show Program.run (execPooled create) (.call .valid _) _ = _
  rw [Program.run_call, hvalid]
  rfl

/-- The tables behind the pool are those of the world. -/
structure Backend.Behind (b : Backend) (w : World) : Prop where
  clock : b.clock = w.clock
  db : b.db = w.db
  faults : b.sqlFaults = w.sqlFaults

theorem execute_behind {w : World} (h : b.Behind w) (s : SqlStmt) :
    (b.execute s).1 = (w.execSql s).1 ∧ (b.execute s).2.Behind (w.execSql s).2 ∧
      (b.execute s).2.pool = b.pool ∧ (b.execute s).2.answers = b.answers := by
  obtain ⟨clock, pool, db, answers, sqlFaults⟩ := b
  obtain ⟨_, redis, _, redisFaults, _⟩ := w
  obtain ⟨rfl, rfl, rfl⟩ := h
  rcases sqlFaults with _ | ⟨_ | _, rest⟩ <;> exact ⟨rfl, ⟨rfl, rfl, rfl⟩, rfl, rfl⟩

/-- Nothing but good news to come, before and after the end of a scope. -/
theorem run_leave_behind {w : World} (hanswers : b.answers = []) (h : b.Behind w) (guard : Nat)
    (r : Result UserEntity) :
    (Program.run (execPooled create) (PooledDB.leave guard r) b).1 = some r ∧
      (Program.run (execPooled create) (PooledDB.leave guard r) b).2.Behind w ∧
      (Program.run (execPooled create) (PooledDB.leave guard r) b).2.answers = [] := by
  rw [run_leave create hanswers]
  refine ⟨rfl, ⟨h.clock, h.db, h.faults⟩, ?_⟩
  rw [Backend.destroyGuard, hanswers]
  rfl

theorem run_findByUUID_alone (hanswers : b.answers = []) {conn : Nat} {rest : List Nat}
    (hidle : b.pool.idle = conn :: rest) (uuid : Bytes) {w : World} (h : b.Behind w) :
    (Program.run (execPooled create) (PooledDB.findByUUID uuid) b).1 =
        some (Program.run exec (UserDB.findByUUID uuid) w).1 ∧
      (Program.run (execPooled create) (PooledDB.findByUUID uuid) b).2.Behind
        (Program.run exec (UserDB.findByUUID uuid) w).2 ∧
      (Program.run (execPooled create) (PooledDB.findByUUID uuid) b).2.answers = [] := by
  have htaking : (b.taking conn rest).Behind w := ⟨h.clock, h.db, h.faults⟩
  obtain ⟨hreply, hbehind, -, hstill⟩ := execute_behind htaking (.selectUserByUuid uuid)
  have hact : ∀ w : World, Program.run exec (UserDB.findByUUID uuid) w =
      (foundUser (.ofSql (w.execSql (.selectUserByUuid uuid)).1), (w.execSql (.selectUserByUuid uuid)).2) := by
    rintro ⟨clock, redis, db, redisFaults, sqlFaults⟩
    rcases sqlFaults with _ | ⟨_ | _, rest⟩ <;> rfl
  have hexec : execPooled create (.execute (.selectUserByUuid uuid)) (b.taking conn rest) =
      ((w.execSql (.selectUserByUuid uuid)).1, ((b.taking conn rest).execute (.selectUserByUuid uuid)).2) :=
    Prod.ext hreply rfl
  rw [PooledDB.findByUUID, run_withConnection create hanswers hidle, PooledDB.perform, Program.perform_bind,
    Program.run_call, hexec, hact]
  rcases (w.execSql (.selectUserByUuid uuid)).1 with e | _ | user
  all_goals exact run_leave_behind create (hstill.trans hanswers) hbehind _ _

/-- On a pool that has two good connections left, `Create` does what its statements do. -/
theorem run_create_alone (hanswers : b.answers = []) {first second : Nat} {rest : List Nat}
    (hidle : b.pool.idle = first :: second :: rest) (uuid : Bytes) (user : UserEntity) {w : World} (h : b.Behind w) :
    (Program.run (execPooled create) (PooledDB.create uuid user) b).1 =
        some (Program.run exec (UserDB.create uuid user) w).1 ∧
      (Program.run (execPooled create) (PooledDB.create uuid user) b).2.Behind
        (Program.run exec (UserDB.create uuid user) w).2 := by
  have htaking : (b.taking first (second :: rest)).Behind w := ⟨h.clock, h.db, h.faults⟩
  obtain ⟨hreply, hbehind, hpool, hstill⟩ := execute_behind htaking
    (.insertUser uuid user.mobile user.displayName user.passwordHash user.role)
  have hexec : execPooled create (.execute (.insertUser uuid user.mobile user.displayName user.passwordHash user.role))
      (b.taking first (second :: rest)) =
      ((w.execSql (.insertUser uuid user.mobile user.displayName user.passwordHash user.role)).1,
        ((b.taking first (second :: rest)).execute
          (.insertUser uuid user.mobile user.displayName user.passwordHash user.role)).2) := Prod.ext hreply rfl
  rw [PooledDB.create, run_withConnection create hanswers hidle, PooledDB.perform, Program.perform_bind,
    Program.run_call, hexec, UserDB.create, Program.run_bind, run_sql]
  have hgood := hstill.trans hanswers
  have hmore := congrArg Pool.idle hpool
  clear hexec hreply hstill hpool
  generalize ((b.taking first (second :: rest)).execute _).2 = after at hbehind hgood hmore ⊢
  rcases (w.execSql (.insertUser uuid user.mobile user.displayName user.passwordHash user.role)).1 with
    ((_ | _ | _) | _) | ⟨⟩
  case ok =>
    obtain ⟨hfound, hafter, hlast⟩ := run_findByUUID_alone create hgood hmore uuid hbehind
    show (Program.run (execPooled create) (PooledDB.findByUUID uuid >>= _) after).1 = _ ∧
      (Program.run (execPooled create) (PooledDB.findByUUID uuid >>= _) after).2.Behind _
    rw [Program.run_bind, hfound]
    obtain ⟨hr, hend, -⟩ := run_leave_behind create hlast hafter b.pool.guards.length
      (Program.run exec (UserDB.findByUUID uuid)
        (w.execSql (.insertUser uuid user.mobile user.displayName user.passwordHash user.role)).2).1
    exact ⟨hr, hend⟩
  all_goals
    obtain ⟨hr, hend, -⟩ := run_leave_behind create hgood hbehind b.pool.guards.length _
    exact ⟨hr, hend⟩

end Alone

/-- The server is reachable. -/
def reachable (_ : Nat) : Creation := .made

/-- An empty table behind a fresh pool. -/
def freshBackend (poolSize : Nat) : Backend where
  clock := 1700000000000000000
  pool := ⟨List.range poolSize, [], poolSize⟩
  db := Database.empty id

/-- Two calls for two mobiles. -/
def twoCalls : List CreateCall :=
  [⟨ascii "550e8400-e29b-41d4-a716-446655440000", { mobile := ascii "13800138000" }⟩,
    ⟨ascii "6ba7b810-9dad-11d1-80b4-00c04fd430c8", { mobile := ascii "13900139000" }⟩]

/-- One call runs to its end while the other waits. -/
def oneByOne : List (Move Nat) := List.replicate 9 (.thread 0) ++ List.replicate 9 (.thread 1)

/-- Nothing fails, and the only call finds no second connection in a pool of one. -/
theorem create_misreports :
    Pool.initPool reachable 1 = .ok (freshBackend 1).pool ∧
      ¬∀ r, (playCreators reachable oneByOne (creators (twoCalls.take 1) (freshBackend 1))).threads[0]? =
        some (.done (some r)) → Truthful reachable 0 oneByOne (creators (twoCalls.take 1) (freshBackend 1)) r := by
  refine ⟨by decide, fun h => ?_⟩
  have htrue := (h (failPlain .serviceUnavailable) rfl).fail rfl
  exact absurd htrue (by decide)

/-- Two connections are enough for calls that come one after another. -/
theorem create_truthful_sample :
    Truthful reachable 1 oneByOne (creators twoCalls (freshBackend 2))
      (.ok ((playCreators reachable oneByOne (creators twoCalls (freshBackend 2))).shared.db.users.get
        ⟨1, by decide⟩)) := by
  refine (create_truthful_iff reachable twoCalls (freshBackend 2) oneByOne rfl).mpr ?_
  have hall : ∀ k < 18, addedBy reachable 1 (oneByOne.take k) (creators twoCalls (freshBackend 2)) ≠ [] →
      ∀ c ∈ (playCreators reachable (oneByOne.take k) (creators twoCalls (freshBackend 2))).pending 1,
        c.Succeeds reachable
          (playCreators reachable (oneByOne.take k) (creators twoCalls (freshBackend 2))).shared := by
    decide +kernel
  intro before after heq
  have htake : before = oneByOne.take before.length := by simp [heq]
  have hlength : before.length < 18 := by
    have h := congrArg List.length heq
    simp [oneByOne] at h
    omega
  rw [htake]
  exact hall _ hlength

end AccountService
