import Mathlib.Data.List.Basic
import Mathlib.Tactic.Common

/-! The lifecycle of a `GrpcServer`: `Start`, `Shutdown` and `Wait` in any order, and the destructor,
which is `Shutdown` and no more. `Wait` alone ends a period: until it has returned, another `Shutdown`
runs the callback again and the monitor thread stays joinable. A call of `Wait` on a server that
serves comes back after another thread has called `Shutdown`: its call and its return are two events. -/

namespace AccountService.Lifecycle

/-- What a period consists of: its start, and what the functions do outside the object. -/
inductive LogEntry
  | started | registered | unregistered | cleanupStopped | serverShutdown | callback
  deriving DecidableEq

/-- What a run reads and never writes: the configuration of ZooKeeper (`enabled && register_self`),
whether there is a `service_registry_`, and whether a callback is set. -/
structure Setup where
  registerSelf : Bool
  registry : Bool
  callback : Bool

/-- The members that the lifecycle uses. -/
structure Server where
  running : Bool := false
  shutdownRequested : Bool := false
  /-- `server_`: null, or whether it still serves. -/
  server : Option Bool := none
  /-- `shutdown_monitor_thread_`: not joinable, or whether it is still in its loop. -/
  monitor : Option Bool := none
  registered : Bool := false
  /-- A call of `Wait` has not come back. -/
  waiting : Bool := false
  /-- The newest entry first. -/
  log : List LogEntry := []

/-- Why there is no next state. -/
inductive Halt
  /-- The call does not return. -/
  | blocks
  /-- `std::terminate`. -/
  | terminates
  /-- Two calls of `Wait` that join one thread, or the destructor of an object that is in use. -/
  | undefined
  deriving DecidableEq

inductive Event
  /-- `Start`, with the outcome of `BuildAndStart` and of `Register`. -/
  | start (bound registers : Bool)
  | shutdown
  | wait
  /-- A call of `Wait` that has waited for the server goes on. -/
  | resume
  /-- The monitor thread looks at `shutdown_requested_`. -/
  | monitor
  deriving DecidableEq

variable (setup : Setup)

def Server.emit (entry : LogEntry) (s : Server) : Server := { s with log := entry :: s.log }

def registerToZooKeeper (registers : Bool) (s : Server) : Server :=
  if setup.registry && registers then { s with registered := true }.emit .registered else s

/-- The registration in `Start`. -/
def registerSelf (registers : Bool) (s : Server) : Server :=
  if setup.registerSelf then registerToZooKeeper setup registers s else s

def unregisterFromZooKeeper (s : Server) : Server :=
  if setup.registry && s.registered then { s with registered := false }.emit .unregistered else s

/-- `server_->Shutdown`, where there is a server. -/
def shutdownServer (s : Server) : Server :=
  match s.server with
  | none => s
  | some _ => { s with server := some false }.emit .serverShutdown

def start (bound registers : Bool) (s : Server) : Except Halt Server :=
  if s.running then .ok s
  else if bound then
    let s := { s with server := some true, running := true, shutdownRequested := false }.emit .started
    let s := registerSelf setup registers s
    -- the assignment to a thread that is joinable terminates the program
    if s.monitor.isSome then .error .terminates else .ok { s with monitor := some true }
  else .ok { s with server := none }

def shutdown (s : Server) : Server :=
  if s.running then
    let s := unregisterFromZooKeeper setup { s with shutdownRequested := true }
    let s := shutdownServer (s.emit .cleanupStopped)
    if setup.callback then s.emit .callback else s
  else s

/-- `ShutdownMonitor` behind its loop. -/
def monitorEnd (s : Server) : Server :=
  { if s.running then shutdownServer s else s with monitor := some false }

/-- `Wait` behind `server_->Wait()`: the thread is joined at its end. -/
def finishWait (s : Server) : Except Halt Server :=
  match s.monitor with
  | none => .ok { s with running := false, waiting := false }
  | some looping =>
      if looping && !s.shutdownRequested then .error .blocks
      else
        let s := if looping then monitorEnd s else s
        .ok { s with monitor := none, running := false, waiting := false }

def step : Event → Server → Except Halt Server
  | .start bound registers, s => start setup bound registers s
  | .shutdown, s => .ok (shutdown setup s)
  | .wait, s =>
      if s.waiting then .error .undefined
      else if s.server = some true then .ok { s with waiting := true }
      else finishWait s
  | .resume, s => if s.waiting && s.server ≠ some true then finishWait s else .error .blocks
  | .monitor, s => .ok (if s.monitor = some true && s.shutdownRequested then monitorEnd s else s)

/-- A run of an object that `Initialize` has prepared. -/
def run (events : List Event) (s : Server) : Except Halt Server :=
  match events with
  | [] => .ok s
  | e :: events =>
      match step setup e s with
      | .error halt => .error halt
      | .ok s => run events s

/-- The destructor, and that of the thread. -/
def destroy (s : Server) : Except Halt Server :=
  if s.waiting then .error .undefined
  else if (shutdown setup s).monitor.isSome then .error .terminates
  else .ok (shutdown setup s)

/-- How often the callback ran in each period, the newest first. -/
def callbacksPerPeriod : List LogEntry → List Nat
  | [] => []
  | .started :: log => 0 :: callbacksPerPeriod log
  | .callback :: log =>
      match callbacksPerPeriod log with
      | [] => []
      | n :: periods => (n + 1) :: periods
  | _ :: log => callbacksPerPeriod log

/-- What the lifecycle promises of an object that is destroyed: one callback in every period and none
outside, and no joinable thread. -/
def CleanEnd (s : Server) : Prop :=
  ∃ s', destroy setup s = .ok s' ∧ (∀ n ∈ callbacksPerPeriod s'.log, n = 1) ∧
    s'.log.count .callback = s'.log.count .started ∧ s'.monitor = none

/-- Where a caller is in a period. -/
inductive Phase
  | idle | serving | stopping
  deriving DecidableEq

/-- The orders that go well: each start of an idle server is followed by one `Shutdown` and by the
return of a `Wait` behind it. -/
def Phase.after : Event → Phase → Option Phase
  | .start bound _, .idle => some (if bound then .serving else .idle)
  | .shutdown, .serving => some .stopping
  -- a second request before `Wait` has returned
  | .shutdown, .stopping => none
  | .wait, .stopping => some .idle
  | .resume, .stopping => some .idle
  | _, phase => some phase

def phaseAfter (events : List Event) (phase : Option Phase) : Option Phase :=
  match events, phase with
  | _, none => none
  | [], some phase => some phase
  | e :: events, some phase => phaseAfter events (phase.after e)

def Disciplined (events : List Event) : Prop := phaseAfter events (some .idle) = some .idle

instance (events : List Event) : Decidable (Disciplined events) := inferInstanceAs (Decidable (_ = _))

variable {setup : Setup} {s s' : Server}

/-- What the log has come to: the callbacks of each period, and those of all periods beside the starts. -/
structure Tally (log : List LogEntry) (periods : List Nat) (callbacks starts : Nat) : Prop where
  periods_eq : callbacksPerPeriod log = periods
  callbacks_eq : log.count .callback = callbacks
  starts_eq : log.count .started = starts

/-- A period that was shut down twice. -/
def Repeated (log : List LogEntry) : Prop := ∃ n ∈ callbacksPerPeriod log, 2 ≤ n

/-- A period that was shut down twice stays in the log. -/
theorem Repeated.cons {log : List LogEntry} (h : Repeated log) (entry : LogEntry) : Repeated (entry :: log) := by
  obtain ⟨n, hn, htwo⟩ := h
  cases entry with
  | started => exact ⟨n, List.mem_cons_of_mem _ hn, htwo⟩
  | callback =>
      rw [Repeated, callbacksPerPeriod]
      cases hlog : callbacksPerPeriod log with
      | nil =>
          rw [hlog] at hn
          cases hn
      | cons m periods =>
          rw [hlog] at hn
          rcases List.mem_cons.1 hn with rfl | hn
          · exact ⟨n + 1, List.mem_cons_self, Nat.le_succ_of_le htwo⟩
          · exact ⟨n, List.mem_cons_of_mem _ hn, htwo⟩
  | registered => exact ⟨n, hn, htwo⟩
  | unregistered => exact ⟨n, hn, htwo⟩
  | cleanupStopped => exact ⟨n, hn, htwo⟩
  | serverShutdown => exact ⟨n, hn, htwo⟩

/-- What the state has to do with the phase of the calls: `none` is a period that was shut down twice. -/
def Matches (s : Server) : Option Phase → Prop
  | some .idle => s.running = false ∧ s.monitor = none ∧ s.waiting = false ∧ s.server ≠ some true ∧
      ∃ k, Tally s.log (List.replicate k 1) k k
  | some .serving => s.running = true ∧ s.shutdownRequested = false ∧ s.server = some true ∧
      s.monitor = some true ∧ ∃ k, Tally s.log (0 :: List.replicate k 1) k (k + 1)
  | some .stopping => s.running = true ∧ s.shutdownRequested = true ∧ s.server = some false ∧
      s.monitor.isSome = true ∧ ∃ k, Tally s.log (List.replicate (k + 1) 1) (k + 1) (k + 1)
  | none => Repeated s.log

/-- Entries of the log that are neither a start nor a callback. -/
theorem Tally.quiet {log : List LogEntry} {periods : List Nat} {callbacks starts : Nat}
    (h : Tally log periods callbacks starts) {entry : LogEntry} (hs : entry ≠ .started)
    (hc : entry ≠ .callback) : Tally (entry :: log) periods callbacks starts := by
  obtain ⟨hp, hcallbacks, hstarts⟩ := h
  refine ⟨?_, by rw [List.count_cons_of_ne hc, hcallbacks], by rw [List.count_cons_of_ne hs, hstarts]⟩
  cases entry with
  | started => exact absurd rfl hs
  | callback => exact absurd rfl hc
  | registered => exact hp
  | unregistered => exact hp
  | cleanupStopped => exact hp
  | serverShutdown => exact hp

theorem Tally.started {log : List LogEntry} {periods : List Nat} {callbacks starts : Nat}
    (h : Tally log periods callbacks starts) : Tally (.started :: log) (0 :: periods) callbacks (starts + 1) := by
  obtain ⟨hp, hcallbacks, hstarts⟩ := h
  refine ⟨congrArg (0 :: ·) hp, ?_, ?_⟩
  · rw [List.count_cons_of_ne (by decide), hcallbacks]
  · rw [List.count_cons_self, hstarts]

theorem Tally.callback {log : List LogEntry} {n : Nat} {periods : List Nat} {callbacks starts : Nat}
    (h : Tally log (n :: periods) callbacks starts) :
    Tally (.callback :: log) ((n + 1) :: periods) (callbacks + 1) starts := by
  obtain ⟨hp, hcallbacks, hstarts⟩ := h
  refine ⟨?_, ?_, ?_⟩
  · rw [callbacksPerPeriod, hp]
  · rw [List.count_cons_self, hcallbacks]
  · rw [List.count_cons_of_ne (by decide), hstarts]

/-- The log only grows. -/
def Grows (s s' : Server) : Prop := s.log <:+ s'.log

theorem Grows.trans {s₁ s₂ s₃ : Server} (h : Grows s₁ s₂) (h' : Grows s₂ s₃) : Grows s₁ s₃ :=
  List.IsSuffix.trans h h'

theorem grows_emit (entry : LogEntry) (s : Server) : Grows s (s.emit entry) := List.suffix_cons _ _

theorem grows_registerSelf (setup : Setup) (registers : Bool) (s : Server) :
    Grows s (registerSelf setup registers s) := by
  unfold registerSelf registerToZooKeeper
  split
  · split
    · exact List.suffix_cons _ _
    · exact List.suffix_refl _
  · exact List.suffix_refl _

theorem grows_unregister (setup : Setup) (s : Server) : Grows s (unregisterFromZooKeeper setup s) := by
  unfold unregisterFromZooKeeper
  split
  · exact List.suffix_cons _ _
  · exact List.suffix_refl _

theorem grows_shutdownServer (s : Server) : Grows s (shutdownServer s) := by
  unfold shutdownServer
  split
  · exact List.suffix_refl _
  · exact List.suffix_cons _ _

theorem grows_shutdown (setup : Setup) (s : Server) : Grows s (shutdown setup s) := by
  unfold shutdown
  split
  · have hstop : Grows s (shutdownServer ((unregisterFromZooKeeper setup
        { s with shutdownRequested := true }).emit .cleanupStopped)) :=
      ((grows_unregister setup { s with shutdownRequested := true }).trans (grows_emit _ _)).trans
        (grows_shutdownServer _)
    dsimp only
    split
    · exact hstop.trans (grows_emit _ _)
    · exact hstop
  · exact List.suffix_refl _

theorem grows_monitorEnd (s : Server) : Grows s (monitorEnd s) := by
  unfold monitorEnd
  split
  · exact grows_shutdownServer s
  · exact List.suffix_refl _

theorem grows_finishWait (h : finishWait s = .ok s') : Grows s s' := by
  unfold finishWait at h
  split at h
  · cases h
    exact List.suffix_refl _
  · split at h
    · cases h
    · cases h
      dsimp only [Grows]
      split
      · exact grows_monitorEnd s
      · exact List.suffix_refl _

theorem grows_start {bound registers : Bool} (h : start setup bound registers s = .ok s') : Grows s s' := by
  unfold start at h
  split at h
  · cases h
    exact List.suffix_refl _
  · split at h
    · dsimp only at h
      split at h
      · cases h
      · cases h
        have hstarted : Grows s (Server.emit .started { s with
            server := some true, running := true, shutdownRequested := false }) := List.suffix_cons _ _
        exact hstarted.trans (grows_registerSelf setup registers _)
    · cases h
      exact List.suffix_refl _

theorem grows_step {e : Event} (h : step setup e s = .ok s') : Grows s s' := by
  cases e with
  | start bound registers => exact grows_start h
  | shutdown =>
      cases h
      exact grows_shutdown setup s
  | wait =>
      simp only [step] at h
      split at h
      · cases h
      · split at h
        · cases h
          exact List.suffix_refl _
        · exact grows_finishWait h
  | resume =>
      simp only [step] at h
      split at h
      · exact grows_finishWait h
      · cases h
  | monitor =>
      cases h
      split
      · exact grows_monitorEnd s
      · exact List.suffix_refl _

theorem Repeated.grows (h : Repeated s.log) (hgrows : Grows s s') : Repeated s'.log := by
  obtain ⟨entries, hlog⟩ := hgrows
  rw [← hlog]
  clear hlog
  induction entries with
  | nil => exact h
  | cons entry entries ih => exact Repeated.cons ih entry

/-- A `Shutdown` of a running server runs the callback. -/
theorem shutdown_running (hcallback : setup.callback = true) (hrunning : s.running = true)
    (hserver : s.server.isSome = true) {n : Nat} {periods : List Nat} {callbacks starts : Nat}
    (htally : Tally s.log (n :: periods) callbacks starts) :
    (shutdown setup s).running = true ∧ (shutdown setup s).shutdownRequested = true ∧
      (shutdown setup s).server = some false ∧ (shutdown setup s).monitor = s.monitor ∧
      Tally (shutdown setup s).log ((n + 1) :: periods) (callbacks + 1) starts := by
  obtain ⟨serves, hserves⟩ := Option.isSome_iff_exists.1 hserver
  unfold shutdown unregisterFromZooKeeper
  rw [if_pos hrunning]
  dsimp only
  rw [if_pos hcallback]
  split
  · simp only [shutdownServer, Server.emit, hserves]
    exact ⟨hrunning, trivial, trivial, trivial, (((htally.quiet (by decide) (by decide)).quiet (by decide)
      (by decide)).quiet (by decide) (by decide)).callback⟩
  · simp only [shutdownServer, Server.emit, hserves]
    exact ⟨hrunning, trivial, trivial, trivial, ((htally.quiet (by decide) (by decide)).quiet (by decide)
      (by decide)).callback⟩

theorem shutdown_stopped (h : s.running = false) : shutdown setup s = s := if_neg (by simp [h])

/-- The registration in `Start` changes nothing the lifecycle looks at. -/
theorem registerSelf_frame (setup : Setup) (registers : Bool) (s : Server) :
    (registerSelf setup registers s).running = s.running ∧
      (registerSelf setup registers s).shutdownRequested = s.shutdownRequested ∧
      (registerSelf setup registers s).server = s.server ∧
      (registerSelf setup registers s).monitor = s.monitor ∧
      ∀ periods callbacks starts, Tally s.log periods callbacks starts →
        Tally (registerSelf setup registers s).log periods callbacks starts := by
  unfold registerSelf registerToZooKeeper
  split
  · split
    · exact ⟨rfl, rfl, rfl, rfl, fun _ _ _ h => h.quiet (by decide) (by decide)⟩
    · exact ⟨rfl, rfl, rfl, rfl, fun _ _ _ h => h⟩
  · exact ⟨rfl, rfl, rfl, rfl, fun _ _ _ h => h⟩

/-- A successful `Start` of a server that is idle opens a period. -/
theorem start_idle {registers : Bool} {k : Nat} (hrunning : s.running = false) (hmonitor : s.monitor = none)
    (htally : Tally s.log (List.replicate k 1) k k) (h : start setup true registers s = .ok s') :
    Matches s' (some .serving) := by
  obtain ⟨hrun, hreq, hserv, hmon, htal⟩ := registerSelf_frame setup registers
    (Server.emit .started { s with server := some true, running := true, shutdownRequested := false })
  have hfree : ¬ (registerSelf setup registers (Server.emit .started
      { s with server := some true, running := true, shutdownRequested := false })).monitor.isSome = true := by
    rw [hmon]
    show ¬ s.monitor.isSome = true
    rw [hmonitor]
    decide
  unfold start at h
  rw [if_neg (by simp [hrunning]), if_pos rfl] at h
  dsimp only at h
  rw [if_neg hfree] at h
  cases h
  exact ⟨hrun, hreq, hserv, rfl, k, htal _ _ _ htally.started⟩

/-- The monitor thread finds the server shut down. -/
theorem monitorEnd_stopping (hs : Matches s (some .stopping)) :
    Matches (monitorEnd s) (some .stopping) ∧ (monitorEnd s).waiting = s.waiting := by
  obtain ⟨hrunning, hrequested, hserver, -, k, htally⟩ := hs
  unfold monitorEnd
  simp only [hrunning, if_true, shutdownServer, hserver, Server.emit]
  exact ⟨⟨rfl, hrequested, rfl, rfl, k, htally.quiet (by decide) (by decide)⟩, trivial⟩

/-- A `Wait` that comes back behind a `Shutdown` ends the period. -/
theorem finishWait_stopping (hs : Matches s (some .stopping)) (h : finishWait s = .ok s') :
    Matches s' (some .idle) := by
  have hend : ∀ s₁ : Server, Matches s₁ (some .stopping) →
      Matches { s₁ with monitor := none, running := false, waiting := false } (some .idle) := by
    intro s₁ hs₁
    obtain ⟨-, -, hserver, -, k, htally⟩ := hs₁
    exact ⟨rfl, rfl, rfl, by rw [hserver]; decide, k + 1, htally⟩
  unfold finishWait at h
  split at h
  · rename_i hmonitor
    have hjoinable := hs.2.2.2.1
    rw [hmonitor] at hjoinable
    cases hjoinable
  · split at h
    · cases h
    · cases h
      split
      · exact hend _ (monitorEnd_stopping hs).1
      · exact hend s hs

/-- **One step.** Every call that returns takes the state to the phase that its order asks for. -/
theorem matches_step (hcallback : setup.callback = true) {phase : Phase} {e : Event}
    (hs : Matches s (some phase)) (h : step setup e s = .ok s') : Matches s' (phase.after e) := by
  cases phase with
  | idle =>
      obtain ⟨hrunning, hmonitor, hwaiting, hserver, k, htally⟩ := hs
      cases e with
      | start bound registers =>
          cases bound with
          | true => exact start_idle hrunning hmonitor htally h
          | false =>
              simp only [step, start, hrunning, Bool.false_eq_true, if_false] at h
              cases h
              exact ⟨rfl, hmonitor, hwaiting, fun hnone => (by cases hnone), k, htally⟩
      | shutdown =>
          cases h
          rw [shutdown_stopped hrunning]
          exact ⟨hrunning, hmonitor, hwaiting, hserver, k, htally⟩
      | wait =>
          simp only [step, hwaiting, Bool.false_eq_true, if_false, if_neg hserver, finishWait, hmonitor] at h
          cases h
          exact ⟨rfl, rfl, rfl, hserver, k, htally⟩
      | resume =>
          simp only [step, hwaiting, Bool.false_and, Bool.false_eq_true, if_false] at h
          cases h
      | monitor =>
          simp only [step, hmonitor] at h
          cases h
          exact ⟨hrunning, hmonitor, hwaiting, hserver, k, htally⟩
  | serving =>
      have hphase := hs
      obtain ⟨hrunning, hrequested, hserver, hmonitor, k, htally⟩ := hs
      cases e with
      | start bound registers =>
          simp only [step, start, hrunning, if_true] at h
          cases h
          exact hphase
      | shutdown =>
          cases h
          obtain ⟨hrun, hreq, hserv, hmon, htal⟩ := shutdown_running hcallback hrunning (by rw [hserver]; rfl) htally
          exact ⟨hrun, hreq, hserv, by rw [hmon, hmonitor]; rfl, k, htal⟩
      | wait =>
          simp only [step, hserver, if_true] at h
          split at h
          · cases h
          · cases h
            exact ⟨hrunning, hrequested, rfl, hmonitor, k, htally⟩
      | resume =>
          simp [step, hserver] at h
      | monitor =>
          simp only [step, hrequested, Bool.and_false, Bool.false_eq_true, if_false] at h
          cases h
          exact hphase
  | stopping =>
      have hphase := hs
      obtain ⟨hrunning, hrequested, hserver, hmonitor, k, htally⟩ := hs
      cases e with
      | start bound registers =>
          simp only [step, start, hrunning, if_true] at h
          cases h
          exact hphase
      | shutdown =>
          cases h
          obtain ⟨-, -, -, -, htal⟩ := shutdown_running hcallback hrunning (by rw [hserver]; rfl) htally
          exact ⟨2, by rw [htal.periods_eq]; exact List.mem_cons_self, Nat.le_refl _⟩
      | wait =>
          simp only [step, hserver] at h
          split at h
          · cases h
          · exact finishWait_stopping hphase h
      | resume =>
          simp only [step] at h
          split at h
          · exact finishWait_stopping hphase h
          · cases h
      | monitor =>
          simp only [step] at h
          cases h
          split
          · exact (monitorEnd_stopping hphase).1
          · exact hphase

theorem matches_run (hcallback : setup.callback = true) {phase : Option Phase} (events : List Event)
    (hs : Matches s phase) (h : run setup events s = .ok s') : Matches s' (phaseAfter events phase) := by
  induction events generalizing s phase with
  | nil =>
      cases h
      cases phase with
      | none => exact hs
      | some phase => exact hs
  | cons e events ih =>
      rw [run] at h
      cases hstep : step setup e s with
      | error halt =>
          rw [hstep] at h
          cases h
      | ok s₁ =>
          rw [hstep] at h
          cases phase with
          | none =>
              have hnone : Matches s₁ none := Repeated.grows hs (grows_step hstep)
              have hrun := ih hnone h
              cases events with
              | nil => exact hrun
              | cons e' events => exact hrun
          | some phase => exact ih (matches_step hcallback hs hstep) h

theorem matches_initial : Matches {} (some .idle) :=
  ⟨rfl, rfl, rfl, by decide, 0, rfl, rfl, rfl⟩

theorem destroy_ok (h : destroy setup s = .ok s') : s' = shutdown setup s ∧ s'.monitor = none := by
  unfold destroy at h
  split at h
  · cases h
  · split at h
    · cases h
    · rename_i hmonitor
      cases h
      exact ⟨rfl, Option.not_isSome_iff_eq_none.1 hmonitor⟩

/-- The destructor of a running server leaves its thread joinable. -/
theorem not_cleanEnd_of_running (hcallback : setup.callback = true) (hrunning : s.running = true)
    (hserver : s.server.isSome = true) (hmonitor : s.monitor.isSome = true) {n : Nat} {periods : List Nat}
    {callbacks starts : Nat} (htally : Tally s.log (n :: periods) callbacks starts) : ¬ CleanEnd setup s := by
  rintro ⟨s', hdestroy, -⟩
  have hkept := (shutdown_running hcallback hrunning hserver htally).2.2.2.1
  obtain ⟨rfl, hnone⟩ := destroy_ok hdestroy
  rw [← hkept, hnone] at hmonitor
  cases hmonitor

/-- What the destructor finds, phase by phase. -/
theorem cleanEnd_iff (hcallback : setup.callback = true) {phase : Option Phase} (hs : Matches s phase) :
    CleanEnd setup s ↔ phase = some .idle := by
  cases phase with
  | none =>
      refine ⟨?_, fun h => by cases h⟩
      rintro ⟨s', hdestroy, hones, -⟩
      obtain ⟨n, hn, htwo⟩ := Repeated.grows hs (grows_shutdown setup s)
      have hend := (destroy_ok hdestroy).1
      rw [← hend] at hn
      exact absurd (hones n hn) (by omega)
  | some phase =>
      cases phase with
      | idle =>
          refine ⟨fun _ => rfl, fun _ => ?_⟩
          obtain ⟨hrunning, hmonitor, hwaiting, -, k, htally⟩ := hs
          refine ⟨s, ?_, fun n hn => ?_, htally.callbacks_eq.trans htally.starts_eq.symm, hmonitor⟩
          · rw [destroy, shutdown_stopped hrunning, hwaiting, hmonitor]
            rfl
          · rw [htally.periods_eq] at hn
            exact List.eq_of_mem_replicate hn
      | serving =>
          obtain ⟨hrunning, -, hserver, hmonitor, k, htally⟩ := hs
          exact ⟨fun h => absurd h (not_cleanEnd_of_running hcallback hrunning (by rw [hserver]; rfl)
            (by rw [hmonitor]; rfl) htally), fun h => by cases h⟩
      | stopping =>
          obtain ⟨hrunning, -, hserver, hmonitor, k, htally⟩ := hs
          exact ⟨fun h => absurd h (not_cleanEnd_of_running hcallback hrunning (by rw [hserver]; rfl)
            hmonitor htally), fun h => by cases h⟩

/-- **The lifecycle.** After any sequence of calls the destructor keeps the promise exactly when every
period has had one `Shutdown` and a `Wait` that has returned behind it. -/
theorem cleanEnd_iff_disciplined (setup : Setup) (hcallback : setup.callback = true) (events : List Event)
    (s : Server) (hrun : run setup events {} = .ok s) : CleanEnd setup s ↔ Disciplined events :=
  cleanEnd_iff hcallback (matches_run hcallback events matches_initial hrun)

/-- A period that ends with `Wait`, a start that fails to bind, and a period whose `Wait` is called first. -/
theorem cleanEnd_iff_disciplined_twoPeriods :
    ∃ s, run ⟨false, false, true⟩ [.start true false, .shutdown, .wait, .start false false, .shutdown,
        .start true false, .wait, .shutdown, .resume] {} = .ok s ∧
      (CleanEnd ⟨false, false, true⟩ s ↔ Disciplined [.start true false, .shutdown, .wait, .start false false,
        .shutdown, .start true false, .wait, .shutdown, .resume]) :=
  ⟨_, rfl, cleanEnd_iff_disciplined _ rfl _ _ rfl⟩

/-- `Shutdown` and destruction without `Wait`: the callback has run twice, and the destructor of the thread
terminates the program. -/
theorem shutdown_then_destroyed :
    ∃ s, run ⟨false, false, true⟩ [.start true false, .shutdown] {} = .ok s ∧
      callbacksPerPeriod (shutdown ⟨false, false, true⟩ s).log = [2] ∧
      destroy ⟨false, false, true⟩ s = .error .terminates ∧ ¬ CleanEnd ⟨false, false, true⟩ s := by
  refine ⟨_, rfl, rfl, rfl, ?_⟩
  rintro ⟨s', hdestroy, -⟩
  cases hdestroy

example : Disciplined [.start true false, .shutdown, .wait] ∧
    ¬ Disciplined [.start true false, .shutdown, .shutdown, .wait] := by decide

end AccountService.Lifecycle
