import CodexBridge.Daemon.Lifecycle
import CodexBridge.Names

/-! The transaction that publishes a reloaded configuration. The signature of the new graph is
written to the lease and to the lifecycle record, then the graph is made current; when a write
fails, the signatures written so far are set back to the one of the old graph. A write that
fails leaves its file as it was. -/

namespace CodexBridge.Reload

open Daemon (CcbdLease CcbdLifecycle Process Surroundings cleanText)

/-! ### State -/

/-- A service graph; `σ` is the configuration and the services that are published with it. -/
structure ServiceGraph (σ : Type) where
  version : ℕ
  createdAt : String
  /-- `config_identity['config_signature']` -/
  configSignature : Option String
  services : σ

/-- `graph_signature` -/
def ServiceGraph.signature {σ : Type} (graph : ServiceGraph σ) : Option String :=
  graph.configSignature.bind cleanText

/-- The daemon, with the two records it keeps on disk. -/
structure App (σ : Type) where
  process : Process
  storedLease : Option CcbdLease
  storedLifecycle : Option CcbdLifecycle
  lease : Option CcbdLease
  graph : ServiceGraph σ
  /-- The fields of the application that are copies of the graph's. -/
  services : σ
  configSignature : Option String
  /-- `control_plane_metrics` -/
  graphVersion : ℕ
  graphCreatedAt : String

/-- The errors of the writes of a transaction that fail. -/
structure Faults where
  lease : Option String
  lifecycle : Option String
  publish : Option String
  rollbackLifecycle : Option String
  rollbackLease : Option String

/-- What the transaction reads of the stages before it. -/
structure StageResult where
  status : String
  unloadOrReplaceExecuted : Bool

structure SignatureRollback where
  attempted : Bool
  complete : Bool
  lease : Option CcbdLease
  lifecycle : Option CcbdLifecycle
  errors : List String

inductive PublishStatus where
  | published | blocked | failed
  deriving DecidableEq

structure ReloadPublishTransactionResult where
  status : PublishStatus
  publishedGraphVersion : Option ℕ
  oldGraphVersion : ℕ
  oldConfigSignature : Option String
  newConfigSignature : Option String
  namespacePatch : StageResult
  runtimeMount : StageResult
  lease : Option CcbdLease
  lifecycle : Option CcbdLifecycle
  reason : Option String
  /-- The message of a blocked result, or the error of a failed one. -/
  error : Option String
  signatureRollback : Option SignatureRollback
  graphPublished : Bool
  leaseOrLifecycleWritten : Bool
  unloadOrReplaceExecuted : Bool

variable {σ : Type}

/-! ### Results -/

structure TransactionContext where
  oldGraphVersion : ℕ
  oldConfigSignature : Option String
  newConfigSignature : Option String
  namespacePatch : StageResult
  runtimeMount : StageResult

def transactionContext (old new : ServiceGraph σ) (patch mount : StageResult) :
    TransactionContext where
  oldGraphVersion := old.version
  oldConfigSignature := old.signature
  newConfigSignature := new.signature
  namespacePatch := patch
  runtimeMount := mount

def blockedResult (reason message : String) (context : TransactionContext) :
    ReloadPublishTransactionResult where
  status := .blocked
  publishedGraphVersion := none
  oldGraphVersion := context.oldGraphVersion
  oldConfigSignature := context.oldConfigSignature
  newConfigSignature := context.newConfigSignature
  namespacePatch := context.namespacePatch
  runtimeMount := context.runtimeMount
  lease := none
  lifecycle := none
  reason := some reason
  error := some message
  signatureRollback := none
  graphPublished := false
  leaseOrLifecycleWritten := false
  unloadOrReplaceExecuted := false

def failedResult (reason error : String) (context : TransactionContext) :
    ReloadPublishTransactionResult where
  status := .failed
  publishedGraphVersion := none
  oldGraphVersion := context.oldGraphVersion
  oldConfigSignature := context.oldConfigSignature
  newConfigSignature := context.newConfigSignature
  namespacePatch := context.namespacePatch
  runtimeMount := context.runtimeMount
  lease := none
  lifecycle := none
  reason := some reason
  error := some error
  signatureRollback := none
  graphPublished := false
  leaseOrLifecycleWritten := false
  unloadOrReplaceExecuted := false

def publishedResult (new : ServiceGraph σ) (context : TransactionContext)
    (lease : Option CcbdLease) (lifecycle : CcbdLifecycle) : ReloadPublishTransactionResult where
  status := .published
  publishedGraphVersion := some new.version
  oldGraphVersion := context.oldGraphVersion
  oldConfigSignature := context.oldConfigSignature
  newConfigSignature := context.newConfigSignature
  namespacePatch := context.namespacePatch
  runtimeMount := context.runtimeMount
  lease := lease
  lifecycle := some lifecycle
  reason := none
  error := none
  signatureRollback := none
  graphPublished := true
  leaseOrLifecycleWritten := true
  unloadOrReplaceExecuted := context.runtimeMount.unloadOrReplaceExecuted

/-- `failed_result`, of a transaction that has been rolled back. -/
def rolledBackResult (reason error : String) (context : TransactionContext) (app : App σ)
    (rollback : SignatureRollback) : ReloadPublishTransactionResult :=
  { failedResult reason error context with
    lease := app.storedLease
    lifecycle := app.storedLifecycle
    leaseOrLifecycleWritten := !rollback.complete
    signatureRollback := some rollback }

/-! ### Writes -/

/-- `update_current_lease_config_signature` -/
def App.updateLease (env : Surroundings) (fault : Option String) (configSignature : String)
    (expectedGeneration : ℕ) (app : App σ) : Except String (App σ × Option CcbdLease) :=
  match Daemon.updateConfigSignature env.now configSignature app.process.pid
      app.process.instanceId expectedGeneration app.storedLease with
  | .raised message => throw message
  | .returned lease => pure (app, lease)
  | .saved lease =>
    match fault with
    | some message => throw message
    | none => pure ({ app with storedLease := some lease }, some lease)

def assertCurrentLeaseSignatureHandoff (app : App σ) (expectedGeneration : ℕ) :
    Except String Unit :=
  match app.storedLease with
  | none => throw "ccbd lease does not exist"
  | some lease =>
    match Daemon.assertExpectedHolder lease (some app.process.pid)
      (some app.process.instanceId) with
    | some message => throw message
    | none =>
      if lease.generation ≠ expectedGeneration then
        throw ("ccbd lease generation changed: expected generation=" ++
          toString expectedGeneration ++ ", found generation=" ++ toString lease.generation)
      else pure ()

def phaseText : Daemon.Phase → String
  | .unmounted => "unmounted"
  | .starting => "starting"
  | .mounted => "mounted"
  | .stopping => "stopping"
  | .failed => "failed"

/-- `assert_mounted_lifecycle_signature_handoff`: the record that passes. -/
def mountedLifecycle (app : App σ) (expectedGeneration : ℕ) : Except String CcbdLifecycle :=
  match app.storedLifecycle with
  | none => throw "ccbd lifecycle does not exist"
  | some lifecycle =>
    let expected := strip app.process.instanceId
    let current := strip (lifecycle.ownerDaemonInstanceId.getD "")
    if lifecycle.phase ≠ .mounted then
      throw ("ccbd lifecycle is not mounted: " ++ phaseText lifecycle.phase)
    else if lifecycle.generation ≠ expectedGeneration then
      throw ("ccbd lifecycle generation changed: expected generation=" ++
        toString expectedGeneration ++ ", found generation=" ++ toString lifecycle.generation)
    else
      match lifecycle.ownerPid.filter (· ≠ app.process.pid) with
      | some pid => throw ("ccbd lifecycle owner changed: expected pid=" ++
          toString app.process.pid ++ ", found pid=" ++ toString pid)
      | none =>
        if expected ≠ "" ∧ current ≠ expected then
          throw ("ccbd lifecycle owner changed: expected daemon_instance_id=" ++ expected ++
            ", found daemon_instance_id=" ++ if current = "" then "<missing>" else current)
        else pure lifecycle

/-- `update_mounted_lifecycle_config_signature` -/
def App.updateLifecycle (env : Surroundings) (fault : Option String)
    (configSignature : String) (namespaceEpoch : Option ℕ) (expectedGeneration : ℕ)
    (app : App σ) : Except String (App σ × CcbdLifecycle) := do
  let lifecycle ← mountedLifecycle app expectedGeneration
  if strip configSignature = "" then throw "config_signature cannot be empty"
  let updated : CcbdLifecycle := { lifecycle with
    desiredState := .running
    keeperPid := app.process.keeperPid
    ownerPid := some app.process.pid
    ownerDaemonInstanceId := some app.process.instanceId
    configSignature := some (strip configSignature)
    socketPath := some env.socketPath
    socketInode := env.socketInode env.socketPath
    namespaceEpoch := namespaceEpoch.or lifecycle.namespaceEpoch
    startupStage := some "mounted"
    lastProgressAt := some env.now
    startupDeadlineAt := none
    lastFailureReason := none
    shutdownIntent := none }
  match fault with
  | some message => throw message
  | none => pure ({ app with storedLifecycle := some updated }, updated)

/-- `publish_ccbd_service_graph` -/
def App.publishGraph (fault : Option String) (graph : ServiceGraph σ) (app : App σ) :
    Except String (App σ) :=
  match fault with
  | some message => throw message
  | none => pure { app with
      services := graph.services
      configSignature := graph.configSignature
      graph := graph
      graphVersion := graph.version
      graphCreatedAt := graph.createdAt }

/-! ### Rollback -/

def SignatureRollback.recordError (rollback : SignatureRollback) (message : String) :
    SignatureRollback :=
  { rollback with complete := false, errors := rollback.errors ++ [message] }

/-- `_rollback_lifecycle_signature` -/
def rollbackLifecycleSignature (env : Surroundings) (fault : Option String)
    (oldSignature : String) (namespaceEpoch : Option ℕ) (expectedGeneration : ℕ)
    (app : App σ) (rollback : SignatureRollback) : App σ × SignatureRollback :=
  match app.updateLifecycle env fault oldSignature namespaceEpoch expectedGeneration with
  | .error message => (app, rollback.recordError ("lifecycle rollback failed: " ++ message))
  | .ok (app', lifecycle) => (app', { rollback with lifecycle := some lifecycle })

/-- `_rollback_lease_signature` -/
def rollbackLeaseSignature (env : Surroundings) (fault : Option String) (oldSignature : String)
    (expectedGeneration : ℕ) (app : App σ) (rollback : SignatureRollback) :
    App σ × SignatureRollback :=
  match app.updateLease env fault oldSignature expectedGeneration with
  | .error message => (app, rollback.recordError ("lease rollback failed: " ++ message))
  | .ok (app', lease) => (app', { rollback with lease := lease })

def rollbackSignatures (env : Surroundings) (faults : Faults) (oldSignature : Option String)
    (namespaceEpoch : Option ℕ) (expectedGeneration : ℕ) (rollbackLease rollbackLifecycle : Bool)
    (app : App σ) : App σ × SignatureRollback :=
  let attempted := rollbackLease || rollbackLifecycle
  let rollback : SignatureRollback := ⟨attempted, true, none, none, []⟩
  match oldSignature with
  | none =>
    (app, { rollback with
      complete := !attempted
      errors := if attempted then ["old_config_signature_missing"] else [] })
  | some old =>
    let (app, rollback) :=
      if rollbackLifecycle then
        rollbackLifecycleSignature env faults.rollbackLifecycle old namespaceEpoch
          expectedGeneration app rollback
      else (app, rollback)
    if rollbackLease then
      rollbackLeaseSignature env faults.rollbackLease old expectedGeneration app rollback
    else (app, rollback)

/-! ### The transaction -/

/-- `expected_generation` -/
def App.expectedGeneration (app : App σ) : Option ℕ :=
  (app.lease.or app.storedLease).map (·.generation)

/-- `pre_publish_blocker` -/
def prePublishBlocker (patch mount : StageResult) : Option (String × String) :=
  if patch.status ≠ "applied" then
    some ("namespace_patch_not_applied", "namespace patch must be applied before publish, found " ++
      if patch.status = "" then "unknown" else patch.status)
  else if mount.status ∉ ["mounted", "noop", "unloaded"] then
    some ("runtime_mount_not_ready", "runtime mounts must succeed before publish, found " ++
      if mount.status = "" then "unknown" else mount.status)
  else none

/-- `initial_failure`, or what the transaction goes on with: the signature of the new graph and
the generation of the lease. -/
def preflight (app : App σ) (context : TransactionContext) :
    Except ReloadPublishTransactionResult (String × ℕ) :=
  match prePublishBlocker context.namespacePatch context.runtimeMount with
  | some (reason, message) => throw (blockedResult reason message context)
  | none =>
    match context.oldConfigSignature, context.newConfigSignature with
    | none, _ => throw (failedResult "config_signature_missing"
        "current graph config_signature is missing" context)
    | some _, none => throw (failedResult "config_signature_missing"
        "target graph config_signature is missing" context)
    | some _, some new =>
      match app.expectedGeneration with
      | none => throw (failedResult "lease_generation_missing"
          "current daemon lease generation is missing" context)
      | some generation =>
        match assertCurrentLeaseSignatureHandoff app generation,
          mountedLifecycle app generation with
        | .error message, _ => throw (failedResult "signature_handoff_failed" message context)
        | .ok _, .error message => throw (failedResult "signature_handoff_failed" message context)
        | .ok _, .ok _ => pure (new, generation)

/-- `_write_signatures`: the records written, or the failure. -/
def writeSignatures (env : Surroundings) (faults : Faults) (context : TransactionContext)
    (new : String) (namespaceEpoch : Option ℕ) (generation : ℕ) (app : App σ) :
    App σ × Except ReloadPublishTransactionResult (Option CcbdLease × CcbdLifecycle) :=
  let failed (app : App σ) (error : String) (rollbackLease : Bool) :=
    let (app, rollback) := rollbackSignatures env faults context.oldConfigSignature namespaceEpoch
      generation rollbackLease false app
    (app, .error (rolledBackResult "signature_handoff_failed" error context app rollback))
  match app.updateLease env faults.lease new generation with
  | .error error => failed app error false
  | .ok (app, lease) =>
    match app.updateLifecycle env faults.lifecycle new namespaceEpoch generation with
    | .error error => failed app error lease.isSome
    | .ok (app, lifecycle) => ({ app with lease := lease }, .ok (lease, lifecycle))

/-- `publish_or_rollback` -/
def publishOrRollback (env : Surroundings) (faults : Faults) (context : TransactionContext)
    (new : ServiceGraph σ) (namespaceEpoch : Option ℕ) (generation : ℕ)
    (lease : Option CcbdLease) (lifecycle : CcbdLifecycle) (app : App σ) :
    App σ × ReloadPublishTransactionResult :=
  match app.publishGraph faults.publish new with
  | .ok app => (app, publishedResult new context lease lifecycle)
  | .error error =>
    let (app, rollback) := rollbackSignatures env faults context.oldConfigSignature namespaceEpoch
      generation true true app
    let app := if rollback.lease.isSome then { app with lease := rollback.lease } else app
    (app, rolledBackResult "service_graph_publish_failed" error context app rollback)

def publishAdditiveReloadTransaction (env : Surroundings) (faults : Faults)
    (new : ServiceGraph σ) (namespaceEpoch : Option ℕ) (patch mount : StageResult)
    (app : App σ) : App σ × ReloadPublishTransactionResult :=
  let context := transactionContext app.graph new patch mount
  match preflight app context with
  | .error failure => (app, failure)
  | .ok (signature, generation) =>
    match writeSignatures env faults context signature namespaceEpoch generation app with
    | (app, .error failure) => (app, failure)
    | (app, .ok (lease, lifecycle)) =>
      publishOrRollback env faults context new namespaceEpoch generation lease lifecycle app

end CodexBridge.Reload
