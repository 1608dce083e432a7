import CodexBridge.Agents.Project
import Mathlib.Data.List.Sort

/-! The operations that lead from one configuration to another, and what kind of plan they
make. -/

namespace CodexBridge.Reload

open Agents (ProjectConfig WindowSpec)

inductive LayoutChange where
  | removeWindow (window : String)
  | window (window : String) (fields : List String)
  | entryWindow (old new : String)
  | sidebar
  | unclassifiedIdentityChange
  deriving DecidableEq

inductive Operation where
  | viewOnlyChange
  | addWindow (window : String) (agents : List String)
  | addAgent (agent : String) (window : Option String)
  | removeAgent (agent : String) (window : Option String)
  | moveAgent (agent : String) (fromWindow toWindow : Option String)
  | replaceAgent (agent : String) (fields : List String)
  | layoutChange (change : LayoutChange)
  deriving DecidableEq

def Operation.op : Operation → String
  | .viewOnlyChange => "view_only_change"
  | .addWindow .. => "add_window"
  | .addAgent .. => "add_agent"
  | .removeAgent .. => "remove_agent"
  | .moveAgent .. => "move_agent"
  | .replaceAgent .. => "replace_agent"
  | .layoutChange _ => "layout_change"

def Operation.agent : Operation → Option String
  | .addAgent agent _ => some agent
  | .removeAgent agent _ => some agent
  | .moveAgent agent _ _ => some agent
  | .replaceAgent agent _ => some agent
  | _ => none

def Operation.window : Operation → Option String
  | .addWindow window _ => some window
  | .addAgent _ window => window
  | .removeAgent _ window => window
  | .layoutChange (.removeWindow window) => some window
  | .layoutChange (.window window _) => some window
  | _ => none

/-! ### Operations -/

def sorted (names : List String) : List String := names.insertionSort (· ≤ ·)

/-- The window of an agent; of several the last. -/
def agentWindow (config : ProjectConfig) (agent : String) : Option String :=
  (config.windows.reverse.find? fun window => agent ∈ window.agentNames).map WindowSpec.name

def windowRecord (config : ProjectConfig) (name : String) : Option WindowSpec :=
  config.windows.find? fun window => window.name = name

def windowNames (config : ProjectConfig) : List String := config.windows.map WindowSpec.name

/-- Names of windows by their order in the configuration. -/
def orderedWindows (config : ProjectConfig) (names : List String) : List String :=
  let order name := ((windowRecord config name).map WindowSpec.order).getD 999999
  names.insertionSort fun a b => order a < order b ∨ order a = order b ∧ a ≤ b

/-- The fields in which two windows differ. -/
def changedWindowFields (old new : WindowSpec) : List String :=
  (if old.order = new.order then [] else ["order"]) ++
    (if old.layoutSpec = new.layoutSpec then [] else ["layout_spec"]) ++
    if old.agentNames = new.agentNames then [] else ["agent_names"]

/-- The change of a window with the same agents. -/
def windowLayoutChange (old new : WindowSpec) : Option Operation :=
  if (∀ a ∈ old.agentNames, a ∈ new.agentNames) ∧ ∀ a ∈ new.agentNames, a ∈ old.agentNames then
    match changedWindowFields old new with
    | [] => none
    | fields => some (.layoutChange (.window new.name fields))
  else none

def topologyOperations (current new : ProjectConfig) : List Operation :=
  ((orderedWindows current ((windowNames current).filter (· ∉ windowNames new))).map
      fun window => .layoutChange (.removeWindow window)) ++
    ((orderedWindows new ((windowNames current).filter (· ∈ windowNames new))).filterMap
      fun window => do
        windowLayoutChange (← windowRecord current window) (← windowRecord new window)) ++
    (if current.entryWindow = new.entryWindow then []
      else [.layoutChange (.entryWindow current.entryWindow new.entryWindow)]) ++
    if current.sidebar = new.sidebar then [] else [.layoutChange .sidebar]

/-- The operation on an agent that has moved to another window. -/
def moveOperation (current new : ProjectConfig) (agent : String) : Option Operation :=
  if agentWindow current agent = agentWindow new agent then none
  else some (.moveAgent agent (agentWindow current agent) (agentWindow new agent))

/-- The operation on an agent whose specification has changed. -/
def replaceOperation (current new : ProjectConfig) (agent : String) : Option Operation := do
  match (← current.agent? agent).changedFields (← new.agent? agent) with
  | [] => none
  | fields => some (.replaceAgent agent fields)

def buildOperations (current new : ProjectConfig) : List Operation :=
  let kept := sorted (current.agentNames.filter (· ∈ new.agentNames))
  ((orderedWindows new ((windowNames new).filter (· ∉ windowNames current))).map fun window =>
      .addWindow window (((windowRecord new window).map WindowSpec.agentNames).getD [])) ++
    ((sorted (new.agentNames.filter (· ∉ current.agentNames))).map fun agent =>
      .addAgent agent (agentWindow new agent)) ++
    ((sorted (current.agentNames.filter (· ∉ new.agentNames))).map fun agent =>
      .removeAgent agent (agentWindow current agent)) ++
    kept.filterMap (moveOperation current new) ++ kept.filterMap (replaceOperation current new) ++
    topologyOperations current new

/-! ### Classes of plans -/

def planPriority (op : String) : ℕ :=
  match op with
  | "no_change" => 0
  | "view_only_change" => 10
  | "add_agent" => 40
  | "add_window" => 50
  | "layout_change" => 60
  | "move_agent" => 70
  | "remove_agent" => 80
  | "replace_agent" => 90
  | _ => 60

/-- The first operation of the greatest priority. -/
def selectPlanClass : List Operation → String
  | [] => "no_change"
  | operation :: operations =>
    operations.foldl
      (fun best item => if planPriority best < planPriority item.op then item.op else best)
      operation.op

def removeAgentOperationsAreSafe (operations : List Operation) : Bool :=
  operations.all (fun
    | .removeAgent .. => true
    | .layoutChange (.removeWindow _) => true
    | _ => false) &&
  operations.any fun
    | .removeAgent .. => true
    | _ => false

def futureSafeToApply (planClass : String) (operations : List Operation) : Bool :=
  if planClass ∈ ["no_change", "view_only_change"] then true
  else if planClass = "remove_agent" then removeAgentOperationsAreSafe operations
  else if ∃ item ∈ operations, item.op ∈ ["replace_agent", "move_agent", "layout_change"] then false
  else planClass ∈ ["add_agent", "add_window"]

end CodexBridge.Reload
