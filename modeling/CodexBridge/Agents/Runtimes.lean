import CodexBridge.Names

/-! The runtime of an agent. Its fields are of two kinds: those that say what state it is in, and
those that say what it is bound to. A runtime that exists has been checked and normalized, and
to build it again from its own fields changes nothing. -/

namespace CodexBridge.Agents

inductive RuntimeBindingSource where
  | providerSession | externalAttach
  deriving DecidableEq

inductive AgentState where
  | starting | idle | busy | stopping | stopped | degraded | failed
  deriving DecidableEq

def AgentState.value : AgentState → String
  | .starting => "starting"
  | .idle => "idle"
  | .busy => "busy"
  | .stopping => "stopping"
  | .stopped => "stopped"
  | .degraded => "degraded"
  | .failed => "failed"

/-- `_STATE_MUTATION_FIELDS` -/
structure StateFields where
  state : AgentState
  health : String
  queueDepth : ℤ
  activePaneId : Option String
  paneState : Option String
  desiredState : Option String
  reconcileState : Option String
  restartCount : ℤ
  lastSeenAt : Option String
  lastReconcileAt : Option String
  lastFailureReason : Option String
  lifecycleState : Option String
  pid : Option ℤ
  deriving DecidableEq

/-- `_AUTHORITY_MUTATION_FIELDS` -/
structure AuthorityFields where
  agentName : String
  startedAt : Option String
  runtimeRef : Option String
  sessionRef : Option String
  workspacePath : Option String
  projectId : String
  backendType : String
  socketPath : Option String
  provider : Option String
  runtimeRoot : Option String
  runtimePid : Option ℤ
  terminalBackend : Option String
  paneId : Option String
  paneTitleMarker : Option String
  tmuxSocketName : Option String
  tmuxSocketPath : Option String
  tmuxWindowName : Option String
  tmuxWindowId : Option String
  sessionFile : Option String
  sessionId : Option String
  slotKey : Option String
  windowId : Option String
  workspaceEpoch : Option ℤ
  bindingGeneration : ℤ
  managedBy : String
  bindingSource : RuntimeBindingSource
  daemonGeneration : Option ℤ
  runtimeGeneration : Option ℤ
  mountAttemptId : Option String
  deriving DecidableEq

/-- All the fields of a runtime, before they are checked. -/
structure RuntimeFields where
  authority : AuthorityFields
  state : StateFields
  deriving DecidableEq

/-! ### Checks and defaults -/

/-- `str(value or '')` -/
def textOf (value : Option String) : String := value.getD ""

def normalizedText (value : Option String) : Option String :=
  if strip (textOf value) = "" then none else some (strip (textOf value))

def defaultDesiredState (state : AgentState) : String :=
  if state = .stopped then "stopped" else "mounted"

def defaultReconcileState (state : AgentState) : String :=
  match state with
  | .degraded => "degraded"
  | .stopped => "stopped"
  | .failed => "failed"
  | _ => "steady"

/-- The defaults of `normalize_runtime_defaults` for the fields of a state. -/
def StateFields.withDefaults (fields : StateFields) : StateFields :=
  { fields with
    lifecycleState :=
      if strip (textOf fields.lifecycleState) = "" then some fields.state.value
      else fields.lifecycleState
    desiredState :=
      some ((normalizedText fields.desiredState).getD (defaultDesiredState fields.state))
    reconcileState :=
      some ((normalizedText fields.reconcileState).getD (defaultReconcileState fields.state))
    lastReconcileAt := normalizedText fields.lastReconcileAt
    lastFailureReason := normalizedText fields.lastFailureReason }

/-- The same for the other fields, under a name that is normal. -/
def AuthorityFields.withDefaults (fields : AuthorityFields) (name : String) : AuthorityFields :=
  { fields with
    agentName := name
    slotKey := some ((normalizedText fields.slotKey).getD name)
    windowId := normalizedText fields.windowId
    tmuxWindowName := normalizedText fields.tmuxWindowName
    tmuxWindowId := normalizedText fields.tmuxWindowId
    mountAttemptId := normalizedText fields.mountAttemptId }

def validateRuntimeFields (fields : RuntimeFields) : Except Raised Unit := do
  if fields.authority.projectId = "" then throw (.value "project_id cannot be empty")
  if fields.state.queueDepth < 0 then throw (.value "queue_depth cannot be negative")
  if (fields.state.state = .idle ∨ fields.state.state = .busy ∨ fields.state.state = .degraded) ∧
      textOf fields.authority.workspacePath = "" then
    throw (.value "workspace_path is required for active runtime states")
  if fields.authority.bindingGeneration ≤ 0 then
    throw (.value "binding_generation must be positive")
  if fields.authority.daemonGeneration.any (· ≤ 0) then
    throw (.value "daemon_generation must be positive when set")
  if fields.authority.workspaceEpoch.any (· ≤ 0) then
    throw (.value "workspace_epoch must be positive when set")
  if fields.state.restartCount < 0 then throw (.value "restart_count cannot be negative")
  if strip fields.authority.managedBy = "" then throw (.value "managed_by cannot be empty")

/-- `__post_init__` -/
def postInit (fields : RuntimeFields) : Except Raised RuntimeFields := do
  let name ← normalizeAgentName fields.authority.agentName
  validateRuntimeFields fields
  pure ⟨fields.authority.withDefaults name, fields.state.withDefaults⟩

/-- A runtime is what its own fields give. -/
structure AgentRuntime where
  fields : RuntimeFields
  built : postInit fields = .ok fields
  deriving DecidableEq

/-! ### Normal fields -/

theorem normalizedText_idem (value : Option String) :
    normalizedText (normalizedText value) = normalizedText value := by
  by_cases h : strip (textOf value) = ""
  · have hnone : normalizedText value = none := if_pos h
    rw [hnone]
    decide
  · have hsome : normalizedText value = some (strip (textOf value)) := if_neg h
    rw [hsome, normalizedText, textOf, Option.getD_some, strip_strip, if_neg h]

/-- A text that has been chosen over a default that is a word stays. -/
theorem normalizedText_getD (value : Option String) {default : String}
    (hdefault : normalizedText (some default) = some default) :
    normalizedText (some ((normalizedText value).getD default)) =
      some ((normalizedText value).getD default) := by
  cases h : normalizedText value with
  | none => exact hdefault
  | some text =>
    have hidem := normalizedText_idem value
    rw [h] at hidem
    exact hidem

theorem normalizedText_agentName {name n : String} (h : normalizeAgentName name = .ok n) :
    normalizedText (some n) = some n := by
  obtain ⟨hpattern, -, hlower⟩ := normalizeAgentName_eq_ok.mp (normalizeAgentName_idem h)
  have hn : agentNamePattern n.toList = true := by
    rw [hlower, lower, String.toList_map]
    exact agentNamePattern_lower hpattern
  have hstrip : strip n = n :=
    strip_of_forall fun c hc => isNameChar_not_space (agentNamePattern_all hn c hc)
  have hne : n ≠ "" := by
    rintro rfl
    cases hn
  rw [normalizedText, textOf, Option.getD_some, hstrip, if_neg hne]

theorem normalizedText_desired (state : AgentState) :
    normalizedText (some (defaultDesiredState state)) = some (defaultDesiredState state) := by
  cases state <;> decide

theorem normalizedText_reconcile (state : AgentState) :
    normalizedText (some (defaultReconcileState state)) = some (defaultReconcileState state) := by
  cases state <;> decide

theorem StateFields.withDefaults_idem (fields : StateFields) :
    fields.withDefaults.withDefaults = fields.withDefaults := by
  have hdesired := normalizedText_getD fields.desiredState (normalizedText_desired fields.state)
  have hreconcile :=
    normalizedText_getD fields.reconcileState (normalizedText_reconcile fields.state)
  have hlifecycle : ∀ state : AgentState, strip (textOf (some state.value)) ≠ "" := by
    intro state
    cases state <;> decide
  simp only [StateFields.withDefaults, hdesired, hreconcile, Option.getD_some, normalizedText_idem]
  split_ifs with hempty hagain
  · exact absurd hagain (hlifecycle _)
  · rfl
  · rfl

theorem AuthorityFields.withDefaults_idem (fields : AuthorityFields) {raw name : String}
    (h : normalizeAgentName raw = .ok name) :
    (fields.withDefaults name).withDefaults name = fields.withDefaults name := by
  have hslot := normalizedText_getD fields.slotKey (normalizedText_agentName h)
  simp only [AuthorityFields.withDefaults, hslot, Option.getD_some, normalizedText_idem]

theorem postInit_eq_ok {fields built : RuntimeFields} :
    postInit fields = .ok built ↔
      ∃ name, normalizeAgentName fields.authority.agentName = .ok name ∧
        validateRuntimeFields fields = .ok () ∧
        built = ⟨fields.authority.withDefaults name, fields.state.withDefaults⟩ := by
  unfold postInit
  cases hname : normalizeAgentName fields.authority.agentName with
  | error e => simp [bind, Except.bind]
  | ok name =>
    cases hvalid : validateRuntimeFields fields with
    | error e => simp [bind, Except.bind]
    | ok u => simp [bind, Except.bind, pure, Except.pure, eq_comm]

theorem postInit_idem {fields built : RuntimeFields} (h : postInit fields = .ok built) :
    postInit built = .ok built := by
  obtain ⟨name, hname, hvalid, rfl⟩ := postInit_eq_ok.mp h
  refine postInit_eq_ok.mpr ⟨name, normalizeAgentName_idem hname, hvalid, ?_⟩
  rw [StateFields.withDefaults_idem]
  exact congrArg (RuntimeFields.mk · _) (fields.authority.withDefaults_idem hname).symm

namespace AgentRuntime

/-- The constructor of the source, and its `replace`. -/
def build (fields : RuntimeFields) : Except Raised AgentRuntime :=
  match h : postInit fields with
  | .ok built => .ok ⟨built, postInit_idem h⟩
  | .error e => .error e

theorem build_eq_ok {fields : RuntimeFields} {runtime : AgentRuntime} :
    build fields = .ok runtime ↔ postInit fields = .ok runtime.fields := by
  unfold build
  split
  · next built h =>
    have hiff : (⟨built, postInit_idem h⟩ : AgentRuntime) = runtime ↔ built = runtime.fields := by
      cases runtime
      exact AgentRuntime.mk.injEq .. ▸ Iff.rfl
    simp only [h, Except.ok.injEq, hiff]
  · next e h => simp [h]

variable (runtime : AgentRuntime)

def agentName : String := runtime.fields.authority.agentName

theorem agentName_normal : normalizeAgentName runtime.agentName = .ok runtime.agentName := by
  obtain ⟨name, hname, -, hfields⟩ := postInit_eq_ok.mp runtime.built
  have hsame : runtime.agentName = name := congrArg (·.authority.agentName) hfields
  rw [agentName, hname, ← hsame, agentName]

theorem authority_withDefaults :
    runtime.fields.authority.withDefaults runtime.agentName = runtime.fields.authority := by
  obtain ⟨name, hname, -, hfields⟩ := postInit_eq_ok.mp runtime.built
  have hsame : name = runtime.agentName :=
    Except.ok.inj (hname.symm.trans runtime.agentName_normal)
  rw [hsame] at hfields
  exact (congrArg RuntimeFields.authority hfields).symm

theorem state_withDefaults : runtime.fields.state.withDefaults = runtime.fields.state := by
  obtain ⟨name, -, -, hfields⟩ := postInit_eq_ok.mp runtime.built
  exact (congrArg RuntimeFields.state hfields).symm

/-- What is bound as in one runtime and in the state of another is built as it is. -/
theorem build_mixed {existing candidate runtime : AgentRuntime}
    (h : build ⟨existing.fields.authority, candidate.fields.state⟩ = .ok runtime) :
    runtime.fields = ⟨existing.fields.authority, candidate.fields.state⟩ := by
  obtain ⟨name, hname, -, hfields⟩ := postInit_eq_ok.mp (build_eq_ok.mp h)
  have hsame : name = existing.agentName :=
    Except.ok.inj (hname.symm.trans existing.agentName_normal)
  rw [hfields, hsame]
  exact congrArg₂ RuntimeFields.mk existing.authority_withDefaults candidate.state_withDefaults

end AgentRuntime

end CodexBridge.Agents
