import CodexBridge.Agents.Runtimes
import Mathlib.Logic.Function.Basic

/-! The registry of the runtimes of the agents, a cache over their store. A write without
authority may change the state of an agent only. A write with authority may bind it anew, but
what comes from a generation that is over is taken as a change of state. -/

namespace CodexBridge.Agents

/-! ### Fields -/

/-- The names of the authority fields in which two runtimes differ, in order. -/
def changedAuthorityFields (old new : AuthorityFields) : List String :=
  [("agent_name", decide (old.agentName = new.agentName)),
    ("backend_type", decide (old.backendType = new.backendType)),
    ("binding_generation", decide (old.bindingGeneration = new.bindingGeneration)),
    ("binding_source", decide (old.bindingSource = new.bindingSource)),
    ("daemon_generation", decide (old.daemonGeneration = new.daemonGeneration)),
    ("managed_by", decide (old.managedBy = new.managedBy)),
    ("mount_attempt_id", decide (old.mountAttemptId = new.mountAttemptId)),
    ("pane_id", decide (old.paneId = new.paneId)),
    ("pane_title_marker", decide (old.paneTitleMarker = new.paneTitleMarker)),
    ("project_id", decide (old.projectId = new.projectId)),
    ("provider", decide (old.provider = new.provider)),
    ("runtime_generation", decide (old.runtimeGeneration = new.runtimeGeneration)),
    ("runtime_pid", decide (old.runtimePid = new.runtimePid)),
    ("runtime_ref", decide (old.runtimeRef = new.runtimeRef)),
    ("runtime_root", decide (old.runtimeRoot = new.runtimeRoot)),
    ("session_file", decide (old.sessionFile = new.sessionFile)),
    ("session_id", decide (old.sessionId = new.sessionId)),
    ("session_ref", decide (old.sessionRef = new.sessionRef)),
    ("slot_key", decide (old.slotKey = new.slotKey)),
    ("socket_path", decide (old.socketPath = new.socketPath)),
    ("started_at", decide (old.startedAt = new.startedAt)),
    ("terminal_backend", decide (old.terminalBackend = new.terminalBackend)),
    ("tmux_socket_name", decide (old.tmuxSocketName = new.tmuxSocketName)),
    ("tmux_socket_path", decide (old.tmuxSocketPath = new.tmuxSocketPath)),
    ("tmux_window_id", decide (old.tmuxWindowId = new.tmuxWindowId)),
    ("tmux_window_name", decide (old.tmuxWindowName = new.tmuxWindowName)),
    ("window_id", decide (old.windowId = new.windowId)),
    ("workspace_epoch", decide (old.workspaceEpoch = new.workspaceEpoch)),
    ("workspace_path", decide (old.workspacePath = new.workspacePath))].filterMap
      fun (name, same) => if same then none else some name

theorem changedAuthorityFields_eq_nil {old new : AuthorityFields} :
    changedAuthorityFields old new = [] ↔ old = new := by
  constructor
  · intro h
    rw [changedAuthorityFields, List.filterMap_eq_nil_iff] at h
    simp only [List.forall_mem_cons] at h
    cases old
    cases new
    simp_all
  · rintro rfl
    simp [changedAuthorityFields]

/-- `_positive_generation` -/
def positiveGeneration (value : Option ℤ) : ℕ := (value.getD 0).toNat

def AgentRuntime.generation (runtime : AgentRuntime) : ℕ :=
  positiveGeneration runtime.fields.authority.runtimeGeneration

/-- `_merge_stale_authority_candidate` -/
def mergeStaleAuthorityCandidate (existing candidate : AgentRuntime) :
    Except Raised AgentRuntime :=
  if existing.generation ≤ candidate.generation ∨ existing.generation = 0 then .ok candidate
  else AgentRuntime.build ⟨existing.fields.authority, candidate.fields.state⟩

/-- The binding and the runtime generation of a runtime that is attached over another one. -/
def nextAuthorityEpochGenerations (existing : Option AgentRuntime) (authorityEpochChanged : Bool) :
    ℕ × ℕ :=
  match existing with
  | none => (1, 1)
  | some existing =>
    let currentBinding := positiveGeneration (some existing.fields.authority.bindingGeneration)
    let currentRuntime := existing.generation
    let currentEpoch := max currentBinding currentRuntime
    if authorityEpochChanged then
      let nextEpoch := if 0 < currentEpoch then currentEpoch + 1 else 1
      (nextEpoch, nextEpoch)
    else
      let bindingGeneration := if 0 < currentBinding then currentBinding else 1
      (bindingGeneration, if 0 < currentRuntime then currentRuntime else bindingGeneration)

/-! ### The registry -/

/-- The store: one file for each agent, named after it. -/
structure RuntimeStore where
  runtimes : String → Option AgentRuntime
  named : ∀ name runtime, runtimes name = some runtime → runtime.agentName = name

def RuntimeStore.save (store : RuntimeStore) (runtime : AgentRuntime) : RuntimeStore where
  runtimes := Function.update store.runtimes runtime.agentName (some runtime)
  named name r h := by
    by_cases hname : name = runtime.agentName
    · subst hname
      rw [Function.update_self] at h
      exact congrArg AgentRuntime.agentName (Option.some.inj h).symm
    · rw [Function.update_of_ne hname] at h
      exact store.named name r h

structure AgentRegistry where
  agents : List String
  store : RuntimeStore
  cache : String → Option AgentRuntime

namespace AgentRegistry

/-- The registry as it starts, with the runtimes of its agents. -/
def loadExisting (agents : List String) (store : RuntimeStore) : AgentRegistry where
  agents := agents
  store := store
  cache name := if name ∈ agents then store.runtimes name else none

/-- `_get_locked`, for a name that is normal. -/
def getLocked (registry : AgentRegistry) (name : String) : AgentRegistry × Option AgentRuntime :=
  match registry.cache name with
  | some cached => (registry, some cached)
  | none =>
    match registry.store.runtimes name with
    | none => (registry, none)
    | some runtime =>
      ({ registry with cache := Function.update registry.cache name (some runtime) }, some runtime)

/-- A runtime in the store and in the cache. -/
def put (registry : AgentRegistry) (runtime : AgentRuntime) : AgentRegistry :=
  { registry with
    store := registry.store.save runtime
    cache := Function.update registry.cache runtime.agentName (some runtime) }

/-- The runtime that a write is compared with: the one its caller has found, or the agent's. -/
def current (registry : AgentRegistry) (runtime : AgentRuntime) :
    Option AgentRuntime → AgentRegistry × Option AgentRuntime
  | some existing => (registry, some existing)
  | none => registry.getLocked runtime.agentName

/-- The fields of a state may change in any write. -/
def saveLocked (registry : AgentRegistry) (runtime : AgentRuntime) (authorityWrite : Bool)
    (existing : Option AgentRuntime) : AgentRegistry × Except Raised AgentRuntime :=
  if runtime.agentName ∉ registry.agents then
    (registry, .error (.key ("unknown agent: " ++ runtime.agentName)))
  else
    let (registry, current) := registry.current runtime existing
    let authorityFields :=
      match current with
      | none => []
      | some current => changedAuthorityFields current.fields.authority runtime.fields.authority
    if authorityWrite = false ∧ authorityFields ≠ [] then
      (registry, .error (.value
        ("authority write required for runtime fields: " ++ ", ".intercalate authorityFields)))
    else (registry.put runtime, .ok runtime)

def upsert (registry : AgentRegistry) (runtime : AgentRuntime) (authorityWrite : Bool) :
    AgentRegistry × Except Raised AgentRuntime :=
  registry.saveLocked runtime authorityWrite none

def upsertAuthority (registry : AgentRegistry) (runtime : AgentRuntime) :
    AgentRegistry × Except Raised AgentRuntime :=
  match registry.getLocked runtime.agentName with
  | (registry, none) => registry.saveLocked runtime true none
  | (registry, some existing) =>
    match mergeStaleAuthorityCandidate existing runtime with
    | .error e => (registry, .error e)
    | .ok runtime => registry.saveLocked runtime true (some existing)

def update (registry : AgentRegistry) (agentName : String)
    (updateFn : Option AgentRuntime → Except Raised (Option AgentRuntime)) (authorityWrite : Bool) :
    AgentRegistry × Except Raised (Option AgentRuntime) :=
  match normalizeAgentName agentName with
  | .error e => (registry, .error e)
  | .ok normalized =>
    let (registry, current) := registry.getLocked normalized
    match updateFn current with
    | .error e => (registry, .error e)
    | .ok none => (registry, .ok current)
    | .ok (some updated) =>
      match current with
      | none =>
        let (registry, saved) := registry.saveLocked updated authorityWrite none
        (registry, saved.map some)
      | some current =>
        if updated = current then (registry, .ok (some current))
        else
          let merged :=
            if authorityWrite then mergeStaleAuthorityCandidate current updated else .ok updated
          match merged with
          | .error e => (registry, .error e)
          | .ok updated =>
            let (registry, saved) := registry.saveLocked updated authorityWrite (some current)
            (registry, saved.map some)

/-- A runtime that is stopped and bound to nothing. -/
def stoppedFields (fields : RuntimeFields) : RuntimeFields where
  authority :=
    { fields.authority with
      runtimeRef := none
      sessionRef := none
      socketPath := none
      runtimePid := none
      paneId := none }
  state :=
    { fields.state with
      state := .stopped
      pid := none
      queueDepth := 0
      health := "stopped"
      activePaneId := none
      paneState := none
      desiredState := some "stopped"
      reconcileState := some "stopped"
      lastFailureReason := none }

def remove (registry : AgentRegistry) (agentName : String) :
    AgentRegistry × Except Raised (Option AgentRuntime) :=
  match normalizeAgentName agentName with
  | .error e => (registry, .error e)
  | .ok normalized =>
    match registry.getLocked normalized with
    | (registry, none) => (registry, .ok none)
    | (registry, some runtime) =>
      match AgentRuntime.build (stoppedFields runtime.fields) with
      | .error e => (registry, .error e)
      | .ok stopped =>
        let (registry, saved) := registry.upsertAuthority stopped
        (registry, saved.map some)

end AgentRegistry

/-! ### Calls -/

/-- A call of the registry. -/
inductive RegistryCall where
  | upsert (runtime : AgentRuntime)
  | upsertAuthority (runtime : AgentRuntime)
  | update (agentName : String)
      (updateFn : Option AgentRuntime → Except Raised (Option AgentRuntime)) (authorityWrite : Bool)
  | remove (agentName : String)

namespace RegistryCall

def apply (registry : AgentRegistry) :
    RegistryCall → AgentRegistry × Except Raised (Option AgentRuntime)
  | .upsert runtime =>
    let (registry, saved) := registry.upsert runtime false
    (registry, saved.map some)
  | .upsertAuthority runtime =>
    let (registry, saved) := registry.upsertAuthority runtime
    (registry, saved.map some)
  | .update agentName updateFn authorityWrite => registry.update agentName updateFn authorityWrite
  | .remove agentName => registry.remove agentName

/-- The call is on this agent. -/
def On (name : String) : RegistryCall → Prop
  | .upsert runtime => runtime.agentName = name
  | .upsertAuthority runtime => runtime.agentName = name
  | .update agentName _ _ => normalizeAgentName agentName = .ok name
  | .remove agentName => normalizeAgentName agentName = .ok name

/-- The runtime that a write brings, for what is stored, and whether it comes with authority. -/
def candidate (stored : Option AgentRuntime) : RegistryCall → Option (AgentRuntime × Bool)
  | .upsert runtime => some (runtime, false)
  | .upsertAuthority runtime => some (runtime, true)
  | .update _ updateFn authorityWrite =>
    match updateFn stored with
    | .ok (some runtime) => some (runtime, authorityWrite)
    | _ => none
  | .remove _ => none

end RegistryCall

def runCalls (registry : AgentRegistry) (calls : List RegistryCall) : AgentRegistry :=
  calls.foldl (fun registry call => (call.apply registry).1) registry

/-- `runtime_generation` in the store, read as a number that is not negative. -/
def AgentRegistry.storedGeneration (registry : AgentRegistry) (name : String) : ℕ :=
  (registry.store.runtimes name).elim 0 AgentRuntime.generation

end CodexBridge.Agents
