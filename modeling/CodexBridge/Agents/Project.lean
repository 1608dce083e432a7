import CodexBridge.Agents.Specs
import Mathlib.Data.List.Perm.Basic

/-! Configurations of a project. The agents of a project stand in windows, each agent in one,
and every window has agents. -/

namespace CodexBridge.Agents

inductive SidebarMode where
  | everyWindow | off
  deriving DecidableEq

/-- A number of cells, or a percentage. -/
inductive Extent where
  | cells (n : ℕ)
  | percent (n : ℕ)
  deriving DecidableEq

structure SidebarSpec where
  mode : SidebarMode
  width : Extent
  bottomHeight : ℕ
  deriving DecidableEq

structure SidebarViewSpec where
  agentsHeight : Extent
  commsHeight : Extent
  tipsHeight : Extent
  commsLimit : ℕ
  commsCompact : Bool
  tipsEnabled : Bool
  tips : List String
  deriving DecidableEq

def defaultSidebarSpec : SidebarSpec := ⟨.everyWindow, .percent 15, 20⟩

def defaultSidebarViewTips : List String :=
  ["C-b d  detach", "C-b h/j/k/l pane", "C-b H/J/K/L resize", "C-b o  next pane", "C-b z  zoom",
    "C-b w  tree", "C-b n/p next/prev", "C-b 0-9 jump win", "C-b [  copy mode",
    "copy: PgUp/PgDn", "copy: v select", "copy: y yank", "copy: q exit", "C-b ]  paste",
    "C-b c  new win", "C-b ,  rename", "C-b ?  keys"]

def defaultSidebarViewSpec : SidebarViewSpec :=
  ⟨.percent 50, .percent 15, .percent 35, 5, true, true, defaultSidebarViewTips⟩

structure WindowSpec where
  name : String
  order : ℕ
  layoutSpec : String
  agentNames : List String
  layout_ne_empty : layoutSpec ≠ ""
  agents_ne_nil : agentNames ≠ []
  agents_nodup : agentNames.Nodup
  deriving DecidableEq

/-- A configuration as it has been validated; `agents` is a dict. -/
structure ProjectConfig where
  defaultAgents : List String
  agents : List (String × AgentSpec)
  cmdEnabled : Bool
  layoutSpec : String
  windows : List WindowSpec
  entryWindow : String
  sidebar : SidebarSpec
  sidebarView : SidebarViewSpec
  windowsExplicit : Bool
  defaults_ne_nil : defaultAgents ≠ []
  defaults_nodup : defaultAgents.Nodup
  defaults_known : defaultAgents ⊆ agents.map Prod.fst
  keys_nodup : (agents.map Prod.fst).Nodup
  keys_match : ∀ entry ∈ agents, entry.2.name = entry.1
  windows_nodup : (windows.map WindowSpec.name).Nodup
  windows_ordered : windows.map WindowSpec.order = List.range windows.length
  placed_nodup : (windows.flatMap WindowSpec.agentNames).Nodup
  placed_iff : ∀ a, a ∈ windows.flatMap WindowSpec.agentNames ↔ a ∈ agents.map Prod.fst
  entry_mem : entryWindow ∈ windows.map WindowSpec.name

namespace ProjectConfig

def agentNames (config : ProjectConfig) : List String := config.agents.map Prod.fst

/-- The specification of an agent. -/
def agent? (config : ProjectConfig) (name : String) : Option AgentSpec :=
  config.agents.lookup name

/-- Equality of two dicts of agents, of which no specification has changed. -/
def sameAgents (config config' : ProjectConfig) : Bool :=
  config.agentNames.isPerm config'.agentNames && config.agents.all fun entry =>
    (config'.agent? entry.1).any fun spec => entry.2.changedFields spec = []

/-- Equality of the canonical records, of all but the view of the sidebar. -/
def sameWithoutView (config config' : ProjectConfig) : Bool :=
  config.defaultAgents = config'.defaultAgents && config.sameAgents config' &&
    config.cmdEnabled = config'.cmdEnabled && config.layoutSpec = config'.layoutSpec &&
    config.windows = config'.windows && config.entryWindow = config'.entryWindow &&
    config.sidebar = config'.sidebar && config.windowsExplicit = config'.windowsExplicit

/-- Equality of the canonical records. -/
def sameRecord (config config' : ProjectConfig) : Bool :=
  config.sameWithoutView config' && config.sidebarView = config'.sidebarView

end ProjectConfig

end CodexBridge.Agents
