import CodexBridge.Names

/-! Specifications of agents. The records of two specifications are compared field by field;
an environment is a dict, in which the order of the variables does not count. -/

namespace CodexBridge.Agents

inductive WorkspaceMode where
  | gitWorktree | copy | inplace
  deriving DecidableEq

inductive RuntimeMode where
  | paneBacked | ptyBacked | headless
  deriving DecidableEq

inductive RestoreMode where
  | fresh | provider | auto
  deriving DecidableEq

inductive PermissionMode where
  | manual | auto | readonly
  deriving DecidableEq

inductive QueuePolicy where
  | serialPerAgent | rejectWhenBusy
  deriving DecidableEq

/-- The variables of an environment, one value each. -/
structure Env where
  vars : List (String × String)
  nodup : (vars.map Prod.fst).Nodup
  deriving DecidableEq

def Env.empty : Env := ⟨[], List.nodup_nil⟩

/-- Equality of dicts. -/
def Env.same (env env' : Env) : Bool := env.vars.isPerm env'.vars

structure AgentApiSpec where
  key : Option String
  url : Option String
  deriving DecidableEq

inductive ProfileMode where
  | inherit | overlay | isolated
  deriving DecidableEq

structure ProviderProfileSpec where
  mode : ProfileMode
  home : Option String
  env : Env
  inheritApi : Bool
  inheritAuth : Bool
  inheritConfig : Bool
  inheritSkills : Bool
  inheritCommands : Bool
  inheritMemory : Bool
  deriving DecidableEq

/-- Equality of the records of two profiles. -/
def ProviderProfileSpec.same (profile profile' : ProviderProfileSpec) : Bool :=
  profile.env.same profile'.env && { profile with env := profile'.env } = profile'

structure AgentSpec where
  name : String
  provider : String
  target : String
  workspaceMode : WorkspaceMode
  workspaceRoot : Option String
  runtimeMode : RuntimeMode
  restoreDefault : RestoreMode
  permissionDefault : PermissionMode
  queuePolicy : QueuePolicy
  model : Option String
  startupArgs : List String
  env : Env
  api : AgentApiSpec
  providerProfile : ProviderProfileSpec
  branchTemplate : Option String
  labels : List String
  description : Option String
  watchPaths : List String
  normalized : normalizeAgentName name = .ok name
  provider_normal : provider ≠ "" ∧ lower (strip provider) = provider
  target_normal : target ≠ "" ∧ strip target = target

/-- The fields in which two specifications differ, as `_changed_fields` sorts them. -/
def AgentSpec.changedFields (old new : AgentSpec) : List String :=
  [("api", decide (old.api = new.api)),
    ("branch_template", decide (old.branchTemplate = new.branchTemplate)),
    ("description", decide (old.description = new.description)),
    ("env", old.env.same new.env),
    ("labels", decide (old.labels = new.labels)),
    ("model", decide (old.model = new.model)),
    ("name", decide (old.name = new.name)),
    ("permission_default", decide (old.permissionDefault = new.permissionDefault)),
    ("provider", decide (old.provider = new.provider)),
    ("provider_profile", old.providerProfile.same new.providerProfile),
    ("queue_policy", decide (old.queuePolicy = new.queuePolicy)),
    ("restore_default", decide (old.restoreDefault = new.restoreDefault)),
    ("runtime_mode", decide (old.runtimeMode = new.runtimeMode)),
    ("startup_args", decide (old.startupArgs = new.startupArgs)),
    ("target", decide (old.target = new.target)),
    ("watch_paths", decide (old.watchPaths = new.watchPaths)),
    ("workspace_mode", decide (old.workspaceMode = new.workspaceMode)),
    ("workspace_root", decide (old.workspaceRoot = new.workspaceRoot))].filterMap
      fun field => if field.2 then none else some field.1

end CodexBridge.Agents
