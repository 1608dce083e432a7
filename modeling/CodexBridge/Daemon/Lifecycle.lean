import CodexBridge.Daemon.Lease

/-! The lifecycle record of a project: `lifecycle.json`, which the keeper and the daemons
all load, change and save. Each function here is what one of them makes of the record
it has loaded. -/

namespace CodexBridge.Daemon

/-! ### Records -/

inductive DesiredState where
  | running | stopped
  deriving DecidableEq

inductive Phase where
  | unmounted | starting | mounted | stopping | failed
  deriving DecidableEq

structure CcbdLifecycle where
  projectId : String
  desiredState : DesiredState
  phase : Phase
  generation : ℕ
  phaseStartedAt : String
  startupId : Option String
  startupStage : Option String
  lastProgressAt : Option String
  startupDeadlineAt : Option String
  keeperPid : Option ℕ
  ownerPid : Option ℕ
  ownerDaemonInstanceId : Option String
  configSignature : Option String
  socketPath : Option String
  socketInode : Option ℕ
  namespaceEpoch : Option ℕ
  lastFailureReason : Option String
  shutdownIntent : Option String
  deriving DecidableEq

/-- `build_lifecycle`, with nothing in the fields that only a startup fills. -/
def buildLifecycle (projectId now : String) (desiredState : DesiredState) (phase : Phase)
    (generation : ℕ) (keeperPid : Option ℕ) (configSignature : Option String) : CcbdLifecycle where
  projectId := projectId
  desiredState := desiredState
  phase := phase
  generation := generation
  phaseStartedAt := now
  startupId := none
  startupStage := none
  lastProgressAt := none
  startupDeadlineAt := none
  keeperPid := keeperPid
  ownerPid := none
  ownerDaemonInstanceId := none
  configSignature := configSignature.bind cleanText
  socketPath := none
  socketInode := none
  namespaceEpoch := none
  lastFailureReason := none
  shutdownIntent := none

/-- What the file system and the configuration of the project say. -/
structure Surroundings where
  now : String
  /-- `current_socket_inode` -/
  socketInode : String → Option ℕ
  namespaceEpoch : Option ℕ
  /-- `current_config_signature` -/
  configSignature : Option String
  /-- `paths.ccbd_socket_path` -/
  socketPath : String

/-- `lifecycle_from_inspection` -/
def lifecycleFromInspection (env : Surroundings) (projectId : String)
    (inspection : LeaseInspection) (configSignature : Option String) (keeperPid : Option ℕ) :
    CcbdLifecycle :=
  match inspection.lease with
  | none => buildLifecycle projectId env.now .stopped .unmounted 0 keeperPid configSignature
  | some lease =>
    let mounted := lease.mountState = .mounted
    { buildLifecycle projectId env.now (if mounted then .running else .stopped)
        (if mounted then if inspection.socketConnectable then .mounted else .failed
          else .unmounted)
        lease.generation (keeperPid.or lease.keeperPid)
        ((lease.configSignature.bind cleanText).or configSignature) with
      ownerPid := some lease.ccbdPid
      ownerDaemonInstanceId := lease.daemonInstanceId.bind cleanText
      socketPath := cleanText lease.socketPath
      socketInode := if mounted then env.socketInode lease.socketPath else none }

/-! ### The daemon -/

/-- A running daemon: the process and the lease it has mounted. -/
structure App where
  process : Process
  lease : Option CcbdLease

/-- `_current_lifecycle` -/
def currentLifecycle (env : Surroundings) (app : App) (stored : Option CcbdLifecycle) :
    CcbdLifecycle :=
  stored.getD
    { buildLifecycle app.process.projectId env.now .running .unmounted (generationOf app.lease)
        app.process.keeperPid (some app.process.configSignature) with
      socketPath := some env.socketPath }

/-- `_mark_lifecycle_mounted` -/
def markLifecycleMounted (env : Surroundings) (app : App) (stored : Option CcbdLifecycle) :
    CcbdLifecycle :=
  let lifecycle := currentLifecycle env app stored
  { lifecycle with
    phase := .mounted
    phaseStartedAt := env.now
    desiredState := .running
    generation := if generationOf app.lease = 0 then lifecycle.generation
      else generationOf app.lease
    keeperPid := app.process.keeperPid
    ownerPid := some app.process.pid
    ownerDaemonInstanceId := some app.process.instanceId
    configSignature := (cleanText app.process.configSignature).or lifecycle.configSignature
    socketPath := some env.socketPath
    socketInode := env.socketInode env.socketPath
    namespaceEpoch := env.namespaceEpoch
    startupStage := some "mounted"
    lastProgressAt := some env.now
    startupDeadlineAt := none
    lastFailureReason := none
    shutdownIntent := none }

/-- `_mark_lifecycle_stopping` -/
def markLifecycleStopping (env : Surroundings) (app : App) (shutdownIntent : String)
    (stored : Option CcbdLifecycle) : CcbdLifecycle :=
  { currentLifecycle env app stored with
    phase := .stopping
    phaseStartedAt := env.now
    desiredState := .stopped
    startupStage := none
    lastProgressAt := some env.now
    startupDeadlineAt := none
    shutdownIntent := some shutdownIntent
    lastFailureReason := none }

/-- `_mark_lifecycle_unmounted` -/
def markLifecycleUnmounted (env : Surroundings) (app : App) (desiredState : Option DesiredState)
    (stored : Option CcbdLifecycle) : CcbdLifecycle :=
  let lifecycle := currentLifecycle env app stored
  { lifecycle with
    phase := .unmounted
    phaseStartedAt := env.now
    desiredState := desiredState.getD lifecycle.desiredState
    ownerPid := none
    ownerDaemonInstanceId := none
    socketInode := none
    socketPath := some env.socketPath
    namespaceEpoch := none
    startupStage := none
    lastProgressAt := some env.now
    startupDeadlineAt := none
    lastFailureReason := none }

/-- `_mark_lifecycle_failed` -/
def markLifecycleFailed (env : Surroundings) (app : App) (failureReason : String)
    (stored : Option CcbdLifecycle) : CcbdLifecycle :=
  { currentLifecycle env app stored with
    phase := .failed
    phaseStartedAt := env.now
    ownerPid := none
    ownerDaemonInstanceId := none
    socketInode := none
    socketPath := some env.socketPath
    namespaceEpoch := none
    startupStage := some "failed"
    lastProgressAt := some env.now
    startupDeadlineAt := none
    lastFailureReason := some failureReason }

/-- `_update_startup_progress`: nothing to save unless the project is starting. -/
def updateStartupProgress (env : Surroundings) (stage : String) (stored : Option CcbdLifecycle) :
    Option CcbdLifecycle :=
  (stored.filter fun lifecycle => lifecycle.phase = .starting).map fun lifecycle =>
    { lifecycle with startupStage := cleanText stage, lastProgressAt := some env.now }

/-- `_record_heartbeat_failures` -/
def recordHeartbeatFailures (failures : List String) (stored : Option CcbdLifecycle) :
    Option CcbdLifecycle :=
  let reason := if failures = [] then none else some (" | ".intercalate failures)
  (stored.filter fun lifecycle =>
      (lifecycle.phase = .starting || lifecycle.phase = .mounted) &&
        lifecycle.lastFailureReason ≠ reason).map fun lifecycle =>
    { lifecycle with lastFailureReason := reason }

theorem recordHeartbeatFailures_saved {failures : List String} {stored : Option CcbdLifecycle}
    {saved : CcbdLifecycle} (h : saved ∈ recordHeartbeatFailures failures stored) :
    ∃ loaded ∈ stored, (loaded.phase = .starting ∨ loaded.phase = .mounted) ∧
      ∃ reason, loaded.lastFailureReason ≠ reason ∧
        saved = { loaded with lastFailureReason := reason } := by
  obtain ⟨loaded, hloaded, heq⟩ := Option.map_eq_some_iff.mp h
  obtain ⟨hstored, hphase⟩ := Option.filter_eq_some_iff.mp hloaded
  simp only [Bool.and_eq_true, Bool.or_eq_true, decide_eq_true_eq] at hphase
  exact ⟨loaded, hstored, hphase.1, _, hphase.2, heq.symm⟩

/-! ### The keeper -/

/-- `ensure_project_lifecycle`: the record the keeper goes on with, and whether it is saved. -/
def ensureProjectLifecycle (env : Surroundings) (projectId : String) (keeperPid : ℕ)
    (inspection : LeaseInspection) : Option CcbdLifecycle → CcbdLifecycle × Bool
  | none =>
    (lifecycleFromInspection env projectId inspection env.configSignature (some keeperPid), true)
  | some lifecycle =>
    if lifecycle.keeperPid = some keeperPid then (lifecycle, false)
    else ({ lifecycle with keeperPid := some keeperPid }, true)

/-- The fields of `_mounted_lifecycle_kwargs`, read off the lease that was inspected. -/
def withMountedLease (env : Surroundings) (keeperPid : ℕ) (inspection : LeaseInspection)
    (lifecycle : CcbdLifecycle) : CcbdLifecycle :=
  { lifecycle with
    desiredState := .running
    generation := if generationOf inspection.lease = 0 then lifecycle.generation
      else generationOf inspection.lease
    keeperPid := some keeperPid
    ownerPid := inspection.lease.map CcbdLease.ccbdPid
    ownerDaemonInstanceId :=
      inspection.lease.bind fun lease => lease.daemonInstanceId.bind cleanText
    configSignature := (inspection.lease.bind fun lease => lease.configSignature.bind cleanText).or
      lifecycle.configSignature
    socketPath := some (inspection.lease.elim env.socketPath CcbdLease.socketPath)
    socketInode := env.socketInode (inspection.lease.elim env.socketPath CcbdLease.socketPath)
    namespaceEpoch := env.namespaceEpoch.or lifecycle.namespaceEpoch }

/-- The record that `reconcile_connectable_daemon` saves for a daemon that runs the
configuration of the project. -/
def connectableMounted (env : Surroundings) (keeperPid : ℕ) (inspection : LeaseInspection)
    (lifecycle : CcbdLifecycle) : CcbdLifecycle :=
  { withMountedLease env keeperPid inspection lifecycle with
    phase := .mounted
    phaseStartedAt := env.now
    lastFailureReason := none
    shutdownIntent := none }

/-- The record it saves for one that does not. -/
def connectableStopping (env : Surroundings) (lifecycle : CcbdLifecycle) : CcbdLifecycle :=
  { lifecycle with
    phase := .stopping
    phaseStartedAt := env.now
    desiredState := .running
    lastFailureReason := none }

/-- `_record_connectable_observation_failure` -/
def connectableFailure (env : Surroundings) (keeperPid : ℕ) (inspection : LeaseInspection)
    (failureReason : String) (lifecycle : CcbdLifecycle) : CcbdLifecycle :=
  if inspection.lease = none ∨ inspection.socketConnectable = false then
    { lifecycle with
      phase := .failed
      phaseStartedAt := env.now
      desiredState := .running
      lastFailureReason := some failureReason }
  else
    let mounted := withMountedLease env keeperPid inspection lifecycle
    if lifecycle.phase = .mounted ∧ lifecycle.generation = mounted.generation then
      { mounted with lastFailureReason := some failureReason, shutdownIntent := none }
    else
      { mounted with
        phase := .mounted
        phaseStartedAt := env.now
        lastFailureReason := some failureReason
        shutdownIntent := none }

/-- What the keeper finds out about a daemon that answers. -/
inductive Probe where
  | same | different
  | failed (reason : String)

/-- The record that `reconcile_connectable_daemon` saves. -/
def reconcileConnectable (env : Surroundings) (keeperPid : ℕ) (inspection : LeaseInspection)
    (probe : Probe) (lifecycle : CcbdLifecycle) : CcbdLifecycle :=
  match probe with
  | .same => connectableMounted env keeperPid inspection lifecycle
  | .different => connectableStopping env lifecycle
  | .failed reason =>
    connectableFailure env keeperPid inspection ("config_check_failed:" ++ reason) lifecycle

/-- `restart_state_from_inspection` asks for a new daemon. -/
def restartWanted (inspection : LeaseInspection) : Bool :=
  inspection.health = .missing || inspection.health = .unmounted || inspection.health = .stale

/-- What a spawn starts with. -/
structure Spawn where
  /-- The signature of the configuration, if it can be loaded. -/
  configSignature : String
  startupId : String
  deadlineAt : String

/-- The record with which `_spawn_daemon` announces a start. -/
def spawnStarting (env : Surroundings) (projectId : String) (keeperPid : ℕ) (spawn : Spawn)
    (inspection : LeaseInspection) (stored : Option CcbdLifecycle) : CcbdLifecycle :=
  let lifecycle := stored.getD
    (lifecycleFromInspection env projectId inspection none (some keeperPid))
  { lifecycle with
    phase := .starting
    phaseStartedAt := env.now
    desiredState := .running
    generation := max lifecycle.generation (generationOf inspection.lease) + 1
    startupId := some spawn.startupId
    startupStage := some "spawn_requested"
    lastProgressAt := some env.now
    startupDeadlineAt := some spawn.deadlineAt
    keeperPid := some keeperPid
    ownerPid := none
    ownerDaemonInstanceId := none
    configSignature := some spawn.configSignature
    socketPath := some env.socketPath
    socketInode := none
    lastFailureReason := none
    shutdownIntent := none }

/-- The record of a spawn whose daemon answers. -/
def spawnMounted (env : Surroundings) (spawn : Spawn) (starting : CcbdLifecycle)
    (lease : Option CcbdLease) : CcbdLifecycle :=
  { starting with
    phase := .mounted
    phaseStartedAt := env.now
    generation := if generationOf lease = 0 then starting.generation else generationOf lease
    ownerPid := lease.map CcbdLease.ccbdPid
    ownerDaemonInstanceId := lease.bind fun lease => lease.daemonInstanceId.bind cleanText
    configSignature := (lease.bind fun lease => lease.configSignature.bind cleanText).or
      (some spawn.configSignature)
    socketPath := some (lease.elim env.socketPath CcbdLease.socketPath)
    socketInode := env.socketInode (lease.elim env.socketPath CcbdLease.socketPath)
    startupStage := some "mounted"
    lastProgressAt := some env.now
    startupDeadlineAt := none
    lastFailureReason := none
    shutdownIntent := none }

/-- The record of a spawn whose daemon does not come up. -/
def spawnFailed (env : Surroundings) (starting : CcbdLifecycle) (failureReason : String) :
    CcbdLifecycle :=
  { starting with
    phase := .failed
    phaseStartedAt := env.now
    ownerPid := none
    ownerDaemonInstanceId := none
    socketInode := none
    startupStage := some "spawn_failed"
    lastProgressAt := some env.now
    startupDeadlineAt := none
    lastFailureReason := some failureReason }

/-! ### The command line -/

/-- `record_running_intent`: a start is requested. -/
def recordRunningIntent (env : Surroundings) (projectId : String) (inspection : LeaseInspection)
    (stored : Option CcbdLifecycle) : CcbdLifecycle :=
  let current := stored.getD
    (lifecycleFromInspection env projectId inspection env.configSignature none)
  { current with
    desiredState := .running
    configSignature := env.configSignature.or current.configSignature
    socketPath := some env.socketPath
    lastFailureReason := none
    shutdownIntent := none }

/-! ### Generations -/

/-- The generation a record stands for. -/
def lifecycleGeneration (stored : Option CcbdLifecycle) : ℕ :=
  stored.elim 0 CcbdLifecycle.generation

theorem currentLifecycle_generation (env : Surroundings) (app : App)
    (stored : Option CcbdLifecycle) :
    (currentLifecycle env app stored).generation =
      stored.elim (generationOf app.lease) CcbdLifecycle.generation := by
  cases stored <;> rfl

theorem lifecycleFromInspection_generation (env : Surroundings) (projectId : String)
    (inspection : LeaseInspection) (configSignature : Option String) (keeperPid : Option ℕ) :
    (lifecycleFromInspection env projectId inspection configSignature keeperPid).generation =
      generationOf inspection.lease := by
  rw [lifecycleFromInspection]
  split
  · rename_i hnone
    rw [hnone]
    rfl
  · rename_i lease hsome
    rw [hsome]
    rfl

end CodexBridge.Daemon
