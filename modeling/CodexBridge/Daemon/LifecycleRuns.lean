import CodexBridge.Daemon.Lifecycle

/-! Keeper and daemons of one project, one after the other. Each act is a list of writes
to the lease and to the lifecycle record, and a crash may cut it short after any of
them. -/

namespace CodexBridge.Daemon

/-! ### Writes -/

/-- The two records, every lifecycle record that was saved, and the daemons that have mounted
the lease. -/
structure Station where
  lease : Option CcbdLease
  lifecycle : Option CcbdLifecycle
  saves : List CcbdLifecycle
  apps : List App

namespace Station

def saveLifecycle (lifecycle : CcbdLifecycle) (s : Station) : Station :=
  { s with lifecycle := some lifecycle, saves := s.saves ++ [lifecycle] }

/-- Load, change, save. -/
def change (f : Option CcbdLifecycle → CcbdLifecycle) (s : Station) : Station :=
  s.saveLifecycle (f s.lifecycle)

def changeIf (f : Option CcbdLifecycle → Option CcbdLifecycle) (s : Station) : Station :=
  match f s.lifecycle with
  | none => s
  | some lifecycle => s.saveLifecycle lifecycle

/-- A write a daemon makes to its lease. -/
def writeLease (d : Process) (w : Write) (s : Station) : Station :=
  match w.outcome d s.lease with
  | .saved lease => { s with lease := some lease }
  | .raised _ | .returned _ => s

/-- A daemon mounts the lease. -/
def mount (app : App) (s : Station) : Station :=
  { s with lease := app.lease, apps := s.apps ++ [app] }

/-- The daemon of this process, if it has mounted the lease. -/
def app (s : Station) (d : Process) : Option App :=
  s.apps.find? fun app => app.process.pid = d.pid ∧ app.process.instanceId = d.instanceId

def perform (s : Station) (writes : List (Station → Station)) : Station :=
  writes.foldl (fun s write => write s) s

end Station

/-! ### Acts -/

/-- A failure of a start after the lease is mounted: how many writes it has made until then. -/
structure StartFault where
  reached : ℕ
  reason : String

/-- `release_backend_ownership` -/
def releaseWrites (env : Surroundings) (app : App) (desiredState : Option DesiredState) :
    List (Station → Station) :=
  [Station.writeLease app.process (.markUnmounted env.now),
    Station.change (markLifecycleUnmounted env app desiredState)]

/-- What `start` writes once the lease is mounted, unless it fails. -/
def publishWrites (env : Surroundings) (app : App) : List (Station → Station) :=
  let progress := fun stage => Station.changeIf (updateStartupProgress env stage)
  [progress "socket_listening", progress "restoring_state", progress "publishing_mounted",
    Station.change (markLifecycleMounted env app)]

/-- What `start` writes once the lease is mounted. -/
def mountedWrites (env : Surroundings) (app : App) : Option StartFault → List (Station → Station)
  | none => publishWrites env app
  | some fault => (publishWrites env app).take fault.reached ++
      (releaseWrites env app (some .running) ++
        [Station.change (markLifecycleFailed env app fault.reason)])

/-- `start` -/
def startWrites (env : Surroundings) (d : Process) (host : Host) (fault : Option StartFault)
    (stored : Option CcbdLease) : List (Station → Station) :=
  match verifyOrTakeover host d stored with
  | .error _ => []
  | .ok generation =>
    let app : App := ⟨d, some (markMounted d env.now generation)⟩
    Station.mount app :: mountedWrites env app fault

/-- `execute_project_stop` -/
def stopWrites (env : Surroundings) (reason : String) : Option App → List (Station → Station)
  | none => []
  | some app => Station.change (markLifecycleStopping env app reason) ::
      releaseWrites env app (some .stopped)

/-- What a keeper iteration meets. -/
structure Iteration where
  env : Surroundings
  projectId : String
  keeperPid : ℕ
  host : Host
  backoff : Bool
  probe : Probe
  /-- The daemon that is asked to stop, and how far it gets. -/
  stopped : Process × ℕ
  /-- What the spawn starts with, unless the configuration cannot be loaded. -/
  spawn : Option Spawn
  spawnHost : Host
  child : Process
  childHost : Host
  childFault : Option StartFault
  childWrites : ℕ
  /-- Why the spawn fails, unless a daemon answers. -/
  failure : Option String

/-- The writes of the daemon that is spawned, as far as it gets. -/
def Iteration.childPart (it : Iteration) (stored : Option CcbdLease) : List (Station → Station) :=
  (startWrites it.env it.child it.childHost it.childFault stored).take it.childWrites

/-- `_spawn_daemon` -/
def spawnWrites (it : Iteration) (stored : Option CcbdLease) (lifecycle : CcbdLifecycle) :
    List (Station → Station) :=
  match it.spawn with
  | none => []
  | some spawn =>
    let starting := spawnStarting it.env it.projectId it.keeperPid spawn
      (inspect it.spawnHost stored) (some lifecycle)
    Station.saveLifecycle starting :: it.childPart stored ++
      [fun s => s.saveLifecycle
        (match it.failure with
        | none => spawnMounted it.env spawn starting s.lease
        | some reason => spawnFailed it.env starting reason)]

/-- Where an iteration goes once it has read both records. -/
inductive Branch where
  | backOff | rest | observe | restart
  deriving DecidableEq

namespace Iteration

def inspection (it : Iteration) (s : Station) : LeaseInspection := inspect it.host s.lease

def ensured (it : Iteration) (s : Station) : CcbdLifecycle × Bool :=
  ensureProjectLifecycle it.env it.projectId it.keeperPid (it.inspection s) s.lifecycle

def branch (it : Iteration) (s : Station) : Branch :=
  if it.backoff then .backOff
  else if (it.ensured s).1.desiredState ≠ .running then .rest
  else if (it.inspection s).socketConnectable then .observe
  else if restartWanted (it.inspection s) then .restart
  else .rest

def ensureWrites (it : Iteration) (s : Station) : List (Station → Station) :=
  if (it.ensured s).2 then [Station.saveLifecycle (it.ensured s).1] else []

/-- The daemon's part of `request_shutdown`, if it is asked to stop. -/
def stoppedPart (it : Iteration) (s : Station) : List (Station → Station) :=
  match it.probe with
  | .different => (stopWrites it.env "stop_all" (s.app it.stopped.1)).take it.stopped.2
  | .same | .failed _ => []

end Iteration

/-- `reconcile_once` -/
def reconcileWrites (it : Iteration) (s : Station) : List (Station → Station) :=
  match it.branch s with
  | .backOff => []
  | .rest => it.ensureWrites s
  | .observe => it.ensureWrites s ++ it.stoppedPart s ++
      [Station.saveLifecycle
        (reconcileConnectable it.env it.keeperPid (it.inspection s) it.probe (it.ensured s).1)]
  | .restart => it.ensureWrites s ++ spawnWrites it s.lease (it.ensured s).1

namespace Sequential

inductive Act where
  | request (env : Surroundings) (projectId : String) (host : Host)
  | reconcile (it : Iteration)
  | start (env : Surroundings) (d : Process) (host : Host) (fault : Option StartFault)
  | heartbeat (env : Surroundings) (d : Process) (failures : List String)
  | stop (env : Surroundings) (d : Process) (reason : String)
  | leave (env : Surroundings) (d : Process) (desiredState : Option DesiredState)

def Act.writes (s : Station) : Act → List (Station → Station)
  | .request env projectId host =>
    [Station.change (recordRunningIntent env projectId (inspect host s.lease))]
  | .reconcile it => reconcileWrites it s
  | .start env d host fault => startWrites env d host fault s.lease
  | .heartbeat env d failures =>
    [Station.writeLease d (.refreshHeartbeat env.now),
      Station.changeIf (recordHeartbeatFailures failures)]
  | .stop env d reason => stopWrites env reason (s.app d)
  | .leave env d desiredState =>
    (s.app d).elim [] fun app => releaseWrites env app desiredState

/-- An act makes the first so many of its writes. -/
def step (s : Station) (act : Act × ℕ) : Station := s.perform ((act.1.writes s).take act.2)

def run (s : Station) (acts : List (Act × ℕ)) : Station := acts.foldl step s

end Sequential

end CodexBridge.Daemon
