import AccountService.ModelBuilder

/-! Which configuration a server holds that `ServerBuilder` has built. `Build` makes no check of its own. -/

namespace AccountService

namespace BuilderCall

/-- What a call sets; a file that cannot be read or does not pass the checks sets nothing. -/
def config? : BuilderCall → Option (Option FullConfig)
  | withConfigFile _ yaml => (loadFromFile yaml).toOption.map some
  | withConfig config => some config
  | _ => none

def port? : BuilderCall → Option Int32
  | withPort port => some port
  | _ => none

def host? : BuilderCall → Option Bytes
  | withHost host => some host
  | _ => none

def discovery? : BuilderCall → Option Bool
  | enableServiceDiscovery enable => some enable
  | _ => none

def name? : BuilderCall → Option Bytes
  | withServiceName name => some name
  | _ => none

def isOnShutdown : BuilderCall → Bool
  | onShutdown => true
  | _ => false

def isLoadFromEnvironment : BuilderCall → Bool
  | loadFromEnvironment => true
  | _ => false

end BuilderCall

/-- What the last of the calls that set something has set. -/
def lastSet {α : Type} (f : BuilderCall → Option α) (calls : List BuilderCall) : Option α := (calls.filterMap f).getLast?

/-- The configuration the calls have left. -/
def configOf (calls : List BuilderCall) : Option FullConfig := (lastSet BuilderCall.config? calls).join

/-- The values in effect: those the builder was told last, else those of the environment if it was asked for, else
those of the configuration. -/
def inEffect (env : Environment) (calls : List BuilderCall) (config : FullConfig) : FullConfig :=
  let base := if calls.any BuilderCall.isLoadFromEnvironment then loadFromEnv env config else config
  { base with
    server.grpcPort := (lastSet BuilderCall.port? calls).getD base.server.grpcPort
    host := (lastSet BuilderCall.host? calls).getD base.host
    zookeeper.enabled := (lastSet BuilderCall.discovery? calls).getD base.zookeeper.enabled
    zookeeper.serviceName := (lastSet BuilderCall.name? calls).getD base.zookeeper.serviceName }

section Calls

/-- The builder after the calls. -/
def builderAfter (calls : List BuilderCall) : ServerBuilder where
  config := configOf calls
  portOverride := lastSet BuilderCall.port? calls
  hostOverride := lastSet BuilderCall.host? calls
  serviceDiscoveryOverride := lastSet BuilderCall.discovery? calls
  serviceNameOverride := lastSet BuilderCall.name? calls
  shutdownCallback := calls.any BuilderCall.isOnShutdown
  loadEnv := calls.any BuilderCall.isLoadFromEnvironment

theorem lastSet_snoc {α : Type} (f : BuilderCall → Option α) (calls : List BuilderCall) (call : BuilderCall) :
    lastSet f (calls ++ [call]) = (f call).or (lastSet f calls) := by
  rw [lastSet, lastSet, List.filterMap_append, List.getLast?_append]
  cases h : f call <;> simp [h]

theorem configOf_snoc (calls : List BuilderCall) (call : BuilderCall) :
    configOf (calls ++ [call]) = (call.config?.or (lastSet BuilderCall.config? calls)).join := by
  rw [configOf, lastSet_snoc]

theorem builderAfter_snoc (calls : List BuilderCall) (call : BuilderCall) :
    builderAfter (calls ++ [call]) = {
      config := (call.config?.or (lastSet BuilderCall.config? calls)).join
      portOverride := call.port?.or (lastSet BuilderCall.port? calls)
      hostOverride := call.host?.or (lastSet BuilderCall.host? calls)
      serviceDiscoveryOverride := call.discovery?.or (lastSet BuilderCall.discovery? calls)
      serviceNameOverride := call.name?.or (lastSet BuilderCall.name? calls)
      shutdownCallback := calls.any BuilderCall.isOnShutdown || call.isOnShutdown
      loadEnv := calls.any BuilderCall.isLoadFromEnvironment || call.isLoadFromEnvironment } := by
  simp only [builderAfter, configOf_snoc, lastSet_snoc, List.any_append, List.any_cons, List.any_nil, Bool.or_false]

/-- A call that throws sets nothing, and leaves the builder as it was. -/
theorem call_builderAfter (calls : List BuilderCall) (call : BuilderCall) :
    ((builderAfter calls).call call).toOption.getD (builderAfter calls) = builderAfter (calls ++ [call]) := by
  rw [builderAfter_snoc]
  cases call with
  | withConfigFile path yaml =>
      cases hload : loadFromFile yaml with
      | ok config =>
          simp [ServerBuilder.call, hload, builderAfter, BuilderCall.config?, BuilderCall.port?, BuilderCall.host?,
            BuilderCall.discovery?, BuilderCall.name?, BuilderCall.isOnShutdown, BuilderCall.isLoadFromEnvironment,
            Except.toOption]
          rfl
      | error what =>
          simp [ServerBuilder.call, hload, builderAfter, BuilderCall.config?, BuilderCall.port?, BuilderCall.host?,
            BuilderCall.discovery?, BuilderCall.name?, BuilderCall.isOnShutdown, BuilderCall.isLoadFromEnvironment,
            Except.toOption, configOf]
          rfl
  | onShutdown | loadFromEnvironment | withConfig _ | withPort _ | withHost _ | enableServiceDiscovery _
  | withServiceName _ =>
      simp [ServerBuilder.call, builderAfter, BuilderCall.config?, BuilderCall.port?, BuilderCall.host?,
        BuilderCall.discovery?, BuilderCall.name?, BuilderCall.isOnShutdown, BuilderCall.isLoadFromEnvironment, configOf]
      rfl

/-- The calls leave what was set last. -/
theorem foldl_call (calls : List BuilderCall) :
    calls.foldl (fun builder call => (builder.call call).toOption.getD builder) ({} : ServerBuilder) =
      builderAfter calls := by
  induction calls using List.reverseRecOn with
  | nil => rfl
  | append_singleton earlier call ih =>
      rw [List.foldl_append, ih]
      exact call_builderAfter earlier call

end Calls

/-- The server that is built holds the values in effect. -/
theorem build_builderAfter (env : Environment) (calls : List BuilderCall) :
    (builderAfter calls).build env =
      match configOf calls with
      | none => .error "Config is required. Call WithConfigFile() or WithConfig()"
      | some config => .ok ⟨inEffect env calls config, calls.any BuilderCall.isOnShutdown⟩ := by
  rw [ServerBuilder.build, builderAfter]
  cases configOf calls with
  | none => rfl
  | some config =>
      cases h : calls.any BuilderCall.isLoadFromEnvironment <;> simp only [inEffect, h] <;> rfl

/-- Every server the calls can build holds a valid configuration. -/
def ServesValid (env : Environment) (calls : List BuilderCall) : Prop :=
  ∀ server, buildServer env calls = .ok server → server.config.toConfig.Admitted

theorem servesValid_iff (env : Environment) (calls : List BuilderCall) :
    ServesValid env calls ↔
      ∀ config, configOf calls = some config → (inEffect env calls config).toConfig.Admitted := by
  rw [ServesValid, buildServer, foldl_call, build_builderAfter]
  cases configOf calls with
  | none => exact iff_of_true (fun server h => nomatch h) fun config h => nomatch h
  | some config =>
      constructor
      · intro h other hsame
        rw [← Option.some.inj hsame]
        exact h ⟨inEffect env calls config, calls.any BuilderCall.isOnShutdown⟩ rfl
      · intro h server hserver
        rw [← Except.ok.inj hserver]
        exact h config rfl

/-- Without the environment, only the port and the checks of ZooKeeper are at stake. -/
theorem inEffect_admitted_iff (env : Environment) {calls : List BuilderCall} {config : FullConfig}
    (henv : calls.any BuilderCall.isLoadFromEnvironment = false) (hconfig : config.toConfig.Admitted) :
    (inEffect env calls config).toConfig.Admitted ↔
      (∀ port, lastSet BuilderCall.port? calls = some port → 0 < port.toInt ∧ port.toInt ≤ 65535) ∧
      ∀ check ∈ zookeeperChecks { config.zookeeper with
          enabled := (lastSet BuilderCall.discovery? calls).getD config.zookeeper.enabled
          serviceName := (lastSet BuilderCall.name? calls).getD config.zookeeper.serviceName },
        check.1 = false := by
  have heffect : (inEffect env calls config).toConfig = { config.toConfig with
      server.grpcPort := (lastSet BuilderCall.port? calls).getD config.server.grpcPort
      zookeeper.enabled := (lastSet BuilderCall.discovery? calls).getD config.zookeeper.enabled
      zookeeper.serviceName := (lastSet BuilderCall.name? calls).getD config.zookeeper.serviceName } := by
    simp only [inEffect, henv]
    rfl
  rw [heffect]
  unfold Config.Admitted validateConfig at hconfig ⊢
  rw [firstError_eq_ok_iff] at hconfig ⊢
  simp only [List.forall_mem_append] at hconfig ⊢
  obtain ⟨⟨⟨⟨⟨hserver, hsecurity⟩, hsms⟩, hlogin⟩, hpassword⟩, -⟩ := hconfig
  have hport : (∀ check ∈ serverChecks { config.toConfig with
        server.grpcPort := (lastSet BuilderCall.port? calls).getD config.server.grpcPort
        zookeeper.enabled := (lastSet BuilderCall.discovery? calls).getD config.zookeeper.enabled
        zookeeper.serviceName := (lastSet BuilderCall.name? calls).getD config.zookeeper.serviceName },
      check.1 = false) ↔
      ∀ port, lastSet BuilderCall.port? calls = some port → 0 < port.toInt ∧ port.toInt ≤ 65535 := by
    simp only [serverChecks, List.forall_mem_cons, Bool.or_eq_false_iff, decide_eq_false_iff_not, gt_iff_lt,
      Int32.lt_iff_toInt_lt, Int32.le_iff_toInt_le, Int32.toInt_zero, not_le, not_lt] at hserver ⊢
    obtain ⟨hold, hothers⟩ := hserver
    cases lastSet BuilderCall.port? calls with
    | none => exact iff_of_true ⟨hold, hothers⟩ fun port h => nomatch h
    | some port =>
        constructor
        · rintro ⟨h, -⟩ other hother
          rw [← Option.some.inj hother]
          exact h
        · intro h
          exact ⟨h port rfl, hothers⟩
  rw [hport]
  constructor
  · rintro ⟨⟨⟨⟨⟨h, -⟩, -⟩, -⟩, -⟩, hzookeeper⟩
    exact ⟨h, hzookeeper⟩
  · rintro ⟨h, hzookeeper⟩
    exact ⟨⟨⟨⟨⟨h, hsecurity⟩, hsms⟩, hlogin⟩, hpassword⟩, hzookeeper⟩

/-- **Servers and their configuration.** What is built is valid exactly if the values in effect pass the checks, for
`Build` makes none. Over a valid configuration and without the environment these are the port that was set last and,
if discovery is on, the settings of ZooKeeper with the name that was set last. -/
theorem build_valid_iff (env : Environment) (calls : List BuilderCall) :
    (ServesValid env calls ↔
      ∀ config, configOf calls = some config → (inEffect env calls config).toConfig.Admitted) ∧
    ∀ config : FullConfig, calls.any BuilderCall.isLoadFromEnvironment = false → config.toConfig.Admitted →
      ((inEffect env calls config).toConfig.Admitted ↔
        (∀ port, lastSet BuilderCall.port? calls = some port → 0 < port.toInt ∧ port.toInt ≤ 65535) ∧
        ∀ check ∈ zookeeperChecks { config.zookeeper with
            enabled := (lastSet BuilderCall.discovery? calls).getD config.zookeeper.enabled
            serviceName := (lastSet BuilderCall.name? calls).getD config.zookeeper.serviceName },
          check.1 = false) :=
  ⟨servesValid_iff env calls, fun _ henv hconfig => inEffect_admitted_iff env henv hconfig⟩

/-- The default configuration from a file, and a port that no server can have. -/
def portZero : List BuilderCall := [.withConfigFile "config.yaml" (.ok { toConfig := {} }), .withPort 0]

theorem port_zero_is_served : ¬ServesValid (fun _ => none) portZero := by
  intro h
  have hserver : ∃ server, buildServer (fun _ => none) portZero = .ok server ∧ ¬server.config.toConfig.Admitted := by
    refine ⟨_, rfl, by decide⟩
  obtain ⟨server, hbuild, hinvalid⟩ := hserver
  exact hinvalid (h server hbuild)

end AccountService
