import CodexBridge.Reload.Operations
import CodexBridge.Layout.Parser
import CodexBridge.Daemon.Lease

/-! Plans that patch the namespace of a project. The steps come from the windows of the two
configurations; the operations only say what may block the plan. -/

namespace CodexBridge.Reload

open Agents (ProjectConfig SidebarMode SidebarSpec WindowSpec)
open Daemon (cleanText)
open Layout (Kind LayoutNode parseLayoutSpec renderChars)

/-! ### Topologies -/

structure NamespaceWindowPlan where
  name : String
  order : ℕ
  userLayout : String
  agentNames : List String
  sidebar : Option SidebarSpec
  deriving DecidableEq

abbrev NamespaceTopologyPlan := List NamespaceWindowPlan

def windowPlan (sidebar : Option SidebarSpec) (window : WindowSpec) : NamespaceWindowPlan :=
  ⟨window.name, window.order, window.layoutSpec, window.agentNames, sidebar⟩

def buildNamespaceTopologyPlan (config : ProjectConfig) : NamespaceTopologyPlan :=
  config.windows.map
    (windowPlan (if config.sidebar.mode = .everyWindow then some config.sidebar else none))

def findWindow (topology : NamespaceTopologyPlan) (name : String) : Option NamespaceWindowPlan :=
  topology.find? fun window => window.name = name

def topologyWindows (topology : NamespaceTopologyPlan) : List String :=
  topology.map NamespaceWindowPlan.name

/-- The agents of a topology, each with its window. -/
def agentWindowPairs (topology : NamespaceTopologyPlan) : List (String × String) :=
  topology.flatMap fun window => window.agentNames.map fun agent => (window.name, agent)

/-! ### Appended agents -/

inductive Direction where
  | right | bottom
  deriving DecidableEq

structure AppendAgentPlan where
  agent : String
  direction : Direction
  deriving DecidableEq

def directionOf : Kind → Direction
  | .horizontal => .right
  | .vertical => .bottom

def expandedLeafAppendPlan (anchor : List Char) : LayoutNode → Option (List AppendAgentPlan)
  | .leaf leaf => if leaf.render = anchor then some [] else none
  | .branch kind left right =>
    match expandedLeafAppendPlan anchor left, right with
    | some leftPlan, .leaf leaf => some (leftPlan ++ [⟨leaf.name, directionOf kind⟩])
    | _, _ => none

def rightmostLeafAppendPlanForNodes : LayoutNode → LayoutNode → Option (List AppendAgentPlan)
  | .leaf leaf, new => expandedLeafAppendPlan leaf.render new
  | .branch kind left right, .branch newKind newLeft newRight =>
    if kind ≠ newKind then none
    else if renderChars left ≠ renderChars newLeft then none
    else rightmostLeafAppendPlanForNodes right newRight
  | .branch _ _ _, .leaf _ => none

def allBranchKinds (kind : Kind) : LayoutNode → Bool
  | .leaf _ => true
  | .branch k left right => k = kind && allBranchKinds kind left && allBranchKinds kind right

/-- The kind of all splits, of a layout that has some. -/
def sequenceKind : LayoutNode → Option Kind
  | .leaf _ => none
  | .branch kind left right =>
    if allBranchKinds kind (.branch kind left right) then some kind else none

def leafNames (node : LayoutNode) : List String := node.leaves.map (·.name)

def trailingSequenceAppendPlan (old new : LayoutNode) : Option (List AppendAgentPlan) :=
  if leafNames old = [] ∨ (leafNames new).take (leafNames old).length ≠ leafNames old then none
  else
    match (leafNames new).drop (leafNames old).length with
    | [] => some []
    | appended =>
      match sequenceKind old, sequenceKind new with
      | some oldKind, some newKind =>
        if oldKind ≠ newKind then none
        else some (appended.map fun agent => ⟨agent, directionOf oldKind⟩)
      | _, _ => none

def rightmostLeafAppendPlan (old new : NamespaceWindowPlan) : Option (List AppendAgentPlan) :=
  match parseLayoutSpec old.userLayout, parseLayoutSpec new.userLayout with
  | .ok oldLayout, .ok newLayout =>
    match rightmostLeafAppendPlanForNodes oldLayout newLayout with
    | some plan => some plan
    | none => trailingSequenceAppendPlan oldLayout newLayout
  | _, _ => none

def appendAgentPlanForWindow (old new : NamespaceWindowPlan) : Option (List AppendAgentPlan) :=
  if old.agentNames = new.agentNames then some []
  else if new.agentNames.length < old.agentNames.length then some []
  else if new.agentNames.take old.agentNames.length ≠ old.agentNames then none
  else
    match rightmostLeafAppendPlan old new with
    | none => none
    | some plan =>
      if plan.map AppendAgentPlan.agent ≠ new.agentNames.drop old.agentNames.length then none
      else some plan

/-! ### Steps -/

inductive StepAction where
  | refreshProjectView | createWindow | createSidebarPane | createAgentPane | killAgentPane
  | killWindow
  deriving DecidableEq

structure NamespacePatchStep where
  action : StepAction
  window : Option String
  agent : Option String
  role : Option String
  slotKey : Option String
  managedBy : String
  anchorAgent : Option String
  reason : Option String
  deriving DecidableEq

structure BlockedOperation where
  op : String
  agent : Option String
  window : Option String
  reason : String
  deriving DecidableEq

/-- The steps for a window, and what blocks them. -/
structure WindowSteps where
  steps : List NamespacePatchStep
  blocked : List BlockedOperation

def managedBy : String := "ccbd"

def agentPaneStep (action : StepAction) (window agent : String) (anchor : Option String)
    (reason : String) : NamespacePatchStep :=
  ⟨action, some window, some agent, some "agent", some agent, managedBy, anchor, some reason⟩

def windowStep (action : StepAction) (window reason : String) : NamespacePatchStep :=
  ⟨action, some window, none, none, none, managedBy, none, some reason⟩

def viewOnlySteps (operations : List Operation) : List NamespacePatchStep :=
  if ∃ item ∈ operations, item.op = "view_only_change" then
    [⟨.refreshProjectView, none, none, none, none, managedBy, none,
      some "presentation-only config changed; no tmux namespace mutation is required"⟩]
  else []

def additiveWindowSteps (old new : NamespaceTopologyPlan) : List NamespacePatchStep :=
  (new.filter fun window => window.name ∉ topologyWindows old).flatMap fun window =>
    windowStep .createWindow window.name "window exists only in new config" ::
      ((if window.sidebar.isSome then
          [⟨.createSidebarPane, some window.name, none, some "sidebar",
            some ("sidebar:" ++ window.name), managedBy, none,
            some "new managed window needs a sidebar pane"⟩]
        else []) ++
      window.agentNames.map fun agent => agentPaneStep .createAgentPane window.name agent none
        "new managed window needs an agent pane")

def blockedAppend (window reason : String) : BlockedOperation :=
  ⟨"add_agent", none, some window, reason⟩

/-- Every appended agent is anchored on the one before it. -/
def appendSteps (window : String) : Option String → List AppendAgentPlan → List NamespacePatchStep
  | _, [] => []
  | anchor, append :: plan =>
    agentPaneStep .createAgentPane window append.agent anchor
        "new agent appended to existing managed window" ::
      appendSteps window (some append.agent) plan

def appendedSteps (old new : NamespaceWindowPlan) : WindowSteps :=
  if old.agentNames = new.agentNames then ⟨[], []⟩
  else if new.agentNames.length < old.agentNames.length then ⟨[], []⟩
  else if new.agentNames.take old.agentNames.length ≠ old.agentNames then
    ⟨[], [blockedAppend new.name
      "Phase 5 additive patch only supports appending new agents after existing panes"]⟩
  else
    match appendAgentPlanForWindow old new with
    | none => ⟨[], [blockedAppend new.name
        "Phase 5 additive patch only supports expanding the last existing agent pane"]⟩
    | some plan => ⟨appendSteps new.name old.agentNames.getLast? plan, []⟩

def additiveAgentSteps (old new : NamespaceTopologyPlan) : List WindowSteps :=
  new.filterMap fun window => (findWindow old window.name).map fun oldWindow =>
    appendedSteps oldWindow window

def blockedRemove (window reason : String) : BlockedOperation :=
  ⟨"remove_agent", none, some window, reason⟩

def removedAgentSteps (old new : NamespaceWindowPlan) : WindowSteps :=
  match old.agentNames.filter (· ∉ new.agentNames) with
  | [] => ⟨[], []⟩
  | removed =>
    if old.agentNames.filter (· ∈ new.agentNames) ≠ new.agentNames then
      ⟨[], [blockedRemove old.name
        "Phase 7 remove_agent only supports deleting agents while preserving remaining order"]⟩
    else ⟨removed.map fun agent => agentPaneStep .killAgentPane old.name agent none
      "agent exists only in current published config", []⟩

def removeWindowSteps (old : NamespaceWindowPlan) : WindowSteps :=
  match old.agentNames with
  | [] => ⟨[], [blockedRemove old.name "cannot remove an empty managed window"]⟩
  | removed => ⟨(removed.map fun agent => agentPaneStep .killAgentPane old.name agent none
        "agent window exists only in current published config") ++
      [windowStep .killWindow old.name "window exists only in current published config"], []⟩

def removeAgentSteps (old new : NamespaceTopologyPlan) : List WindowSteps :=
  old.map fun window =>
    match findWindow new window.name with
    | none => removeWindowSteps window
    | some newWindow => removedAgentSteps window newWindow

/-! ### Plans -/

structure Namespace where
  projectId : Option String
  tmuxSocketPath : Option String
  tmuxSessionName : Option String
  namespaceEpoch : Option ℕ
  uiAttachable : Bool

structure Scope where
  verified : Bool
  projectId : Option String
  tmuxSocketPath : Option String
  tmuxSessionName : Option String
  namespaceEpoch : Option ℕ
  uiAttachable : Option Bool
  reason : Option String

def scopePayload (projectId : Option String) (current : Option Namespace) : Scope :=
  let expected := projectId.bind cleanText
  match current with
  | none => ⟨false, expected, none, none, none, none, some "namespace unavailable"⟩
  | some current =>
    let found := current.projectId.bind cleanText
    let socketPath := current.tmuxSocketPath.bind cleanText
    let sessionName := current.tmuxSessionName.bind cleanText
    let verified := found.isSome && socketPath.isSome && sessionName.isSome &&
      current.namespaceEpoch.isSome && current.uiAttachable && (expected = none || expected = found)
    ⟨verified, found.or expected, socketPath, sessionName, current.namespaceEpoch,
      some current.uiAttachable, if verified then none else
        some "namespace project/socket/session scope is incomplete or mismatched"⟩

inductive PatchStatus where
  | planned | blocked | noOp | notPlanned
  deriving DecidableEq

structure NamespacePatchPlan where
  status : PatchStatus
  scope : Scope
  preservedAgents : List String
  steps : List NamespacePatchStep
  blockedOperations : List BlockedOperation
  warnings : List String

def Operation.mutating (operation : Operation) : Bool :=
  operation.op ∈ ["add_agent", "add_window", "remove_agent"]

def Operation.supported (operation : Operation) : Bool :=
  match operation with
  | .layoutChange (.removeWindow _) => true
  | operation => operation.op ∈
      ["no_change", "view_only_change", "add_agent", "add_window", "remove_agent"]

def blockedUnsupportedOperations (operations : List Operation) : List BlockedOperation :=
  (operations.filter fun operation => !operation.supported).map fun operation =>
    ⟨operation.op, operation.agent, operation.window,
      "namespace patch planner supports view-only, additive, and idle remove_agent operations"⟩

/-- The agents of the operations of a kind for which no step is planned. -/
def missingAgentSteps (op : String) (action : StepAction) (reason : String)
    (operations : List Operation) (steps : List NamespacePatchStep) : List BlockedOperation :=
  let expected := ((operations.filter (·.op = op)).filterMap Operation.agent).dedup
  let planned := (steps.filter (·.action = action)).filterMap NamespacePatchStep.agent
  (sorted (expected.filter (· ∉ planned))).map fun agent => ⟨op, some agent, none, reason⟩

def missingAdditiveAgentSteps : List Operation → List NamespacePatchStep → List BlockedOperation :=
  missingAgentSteps "add_agent" .createAgentPane
    "add_agent operation was not covered by an additive namespace patch step"

def missingRemoveAgentSteps : List Operation → List NamespacePatchStep → List BlockedOperation :=
  missingAgentSteps "remove_agent" .killAgentPane
    "remove_agent operation was not covered by a namespace pane removal step"

def preservedAgents (old new : NamespaceTopologyPlan) : List String :=
  let newAgents := new.flatMap NamespaceWindowPlan.agentNames
  sorted ((old.flatMap NamespaceWindowPlan.agentNames).filter (· ∈ newAgents)).dedup

def warningsForStatus : PatchStatus → List String
  | .planned =>
    ["Namespace patch apply is explicit and only supports additive or idle remove_agent operations."]
  | .blocked => ["Namespace patch plan is blocked; reload must remain dry-run/rejected."]
  | _ => []

/-- What blocks the plan before any step is looked for. -/
def blockedBeforeSteps (operations : List Operation) (scope : Scope) : List BlockedOperation :=
  blockedUnsupportedOperations operations ++
    if operations.any Operation.mutating && !scope.verified then
      [⟨"namespace_scope", none, none,
        "current project namespace scope is unavailable or mismatched"⟩]
    else []

/-- The steps from a topology to another, and what blocks them. -/
def topologySteps (operations : List Operation) (old new : NamespaceTopologyPlan) : WindowSteps :=
  let additive := additiveAgentSteps old new
  let remove := removeAgentSteps old new
  let steps := viewOnlySteps operations ++ additiveWindowSteps old new ++
    additive.flatMap WindowSteps.steps ++ remove.flatMap WindowSteps.steps
  ⟨steps, additive.flatMap WindowSteps.blocked ++ remove.flatMap WindowSteps.blocked ++
    missingAdditiveAgentSteps operations steps ++ missingRemoveAgentSteps operations steps⟩

def patchPlan (scope : Scope) (preserved : List String) (planned : WindowSteps) :
    NamespacePatchPlan :=
  let status : PatchStatus :=
    if planned.blocked ≠ [] then .blocked else if planned.steps = [] then .noOp else .planned
  ⟨status, scope, preserved, planned.steps, planned.blocked, warningsForStatus status⟩

def buildNamespacePatchPlan (current new : ProjectConfig) (operations : List Operation)
    (projectId : Option String) (currentNamespace : Option Namespace) : NamespacePatchPlan :=
  let oldTopology := buildNamespaceTopologyPlan current
  let newTopology := buildNamespaceTopologyPlan new
  let scope := scopePayload projectId currentNamespace
  let preserved := preservedAgents oldTopology newTopology
  match blockedBeforeSteps operations scope with
  | [] => patchPlan scope preserved (topologySteps operations oldTopology newTopology)
  | blocked => patchPlan scope preserved ⟨[], blocked⟩

/-- What refuses a plan before its application. -/
def patchPlanStatusReason (plan : NamespacePatchPlan) : Option (String × String) :=
  if plan.status ≠ .planned then
    some ("patch_plan_not_planned", "namespace patch plan is not planned")
  else if plan.blockedOperations ≠ [] then
    some ("patch_plan_blocked", "namespace patch plan has blocked operations")
  else none

/-- `apply_reload_patch` in a namespace that is ready, with what the checks of the steps find and
what the mutations do to a session. -/
def applyReloadPatch {σ : Type} (stepReason : Option (String × String)) (mutate : σ → σ)
    (plan : NamespacePatchPlan) (session : σ) : Except (String × String) σ :=
  match patchPlanStatusReason plan <|> stepReason with
  | some reason => .error reason
  | none => .ok (mutate session)

/-! ### Dry runs -/

structure ReloadDryRunPlan where
  planClass : String
  operations : List Operation
  namespacePatchPlan : NamespacePatchPlan
  futureSafeToApply : Bool

/-- The plan of two configurations whose signatures agree. -/
def identityPreservingPlan (current new : ProjectConfig) (projectId : Option String)
    (currentNamespace : Option Namespace) : ReloadDryRunPlan :=
  if current.sameRecord new then
    ⟨"no_change", [], buildNamespacePatchPlan current new [] projectId currentNamespace, true⟩
  else
    ⟨"view_only_change", [.viewOnlyChange],
      buildNamespacePatchPlan current new [.viewOnlyChange] projectId currentNamespace, true⟩

/-- The plan from the current configuration, whose signature may be known, to a new one. -/
def buildReloadDryRunPlan (configSignature : ProjectConfig → String) (current new : ProjectConfig)
    (currentSignature : Option String) (projectId : Option String)
    (currentNamespace : Option Namespace) :
    ReloadDryRunPlan :=
  if currentSignature.getD (configSignature current) = configSignature new then
    identityPreservingPlan current new projectId currentNamespace
  else
    let operations :=
      match buildOperations current new with
      | [] => [.layoutChange .unclassifiedIdentityChange]
      | operations => operations
    let planClass := selectPlanClass operations
    ⟨planClass, operations, buildNamespacePatchPlan current new operations projectId
      currentNamespace,
      futureSafeToApply planClass operations⟩

end CodexBridge.Reload
