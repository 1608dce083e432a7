import CodexBridge.Completion.Records
import Mathlib.Data.Rat.Defs
import Mathlib.Algebra.Order.Ring.Rat

/-! The lease of the daemon that owns a project: the record in `lease.json`, the writes
the mount manager makes to it, and the guard that decides whether a daemon that starts
may take it over. Socket paths are in the form `str(Path(..))` gives them. A write loads
the record, checks it and saves a new one; its outcome is a function of the record it
has loaded. -/

namespace CodexBridge.Daemon

/-! ### Records -/

inductive MountState where
  | mounted | unmounted
  deriving DecidableEq

structure CcbdLease where
  projectId : String
  ccbdPid : ℕ
  socketPath : String
  lastHeartbeatAt : String
  mountState : MountState
  generation : ℕ
  configSignature : Option String
  keeperPid : Option ℕ
  daemonInstanceId : Option String
  pid_pos : 0 < ccbdPid
  generation_pos : 0 < generation
  deriving DecidableEq

/-- A daemon process. -/
structure Process where
  projectId : String
  pid : ℕ
  socketPath : String
  /-- `uuid.uuid4().hex` -/
  instanceId : String
  configSignature : String
  keeperPid : Option ℕ
  pid_pos : 0 < pid
  instance_clean : strip instanceId = instanceId ∧ instanceId ≠ ""

/-- `str(value).strip() or None` -/
def cleanText (text : String) : Option String := if strip text = "" then none else some (strip text)

/-! ### The mount manager -/

/-- The record `mark_mounted` saves. -/
def markMounted (d : Process) (now : String) (generation : {g : ℕ // 0 < g}) : CcbdLease where
  projectId := d.projectId
  ccbdPid := d.pid
  socketPath := d.socketPath
  lastHeartbeatAt := now
  mountState := .mounted
  generation := generation
  configSignature := cleanText d.configSignature
  keeperPid := d.keeperPid
  daemonInstanceId := cleanText d.instanceId
  pid_pos := d.pid_pos
  generation_pos := generation.property

/-- What a write makes of the record it has loaded. -/
inductive Outcome where
  | raised (message : String)
  | returned (lease : Option CcbdLease)
  | saved (lease : CcbdLease)
  deriving DecidableEq

/-- `_assert_expected_holder`: the error, if there is one. -/
def assertExpectedHolder (lease : CcbdLease) (expectedPid : Option ℕ)
    (expectedInstance : Option String) : Option String :=
  let expected := strip (expectedInstance.getD "")
  let current := strip (lease.daemonInstanceId.getD "")
  match expectedPid.filter fun pid => pid ≠ lease.ccbdPid with
  | some pid => some ("ccbd lease holder changed: expected pid=" ++ toString pid ++
      ", found pid=" ++ toString lease.ccbdPid)
  | none =>
    if expected ≠ "" ∧ current ≠ expected then
      some ("ccbd lease holder changed: expected daemon_instance_id=" ++ expected ++
        ", found daemon_instance_id=" ++ if current = "" then "<missing>" else current)
    else none

/-- A lease that is not mounted is left alone. -/
def refreshHeartbeat (now : String) (expectedPid : Option ℕ) (expectedInstance : Option String) :
    Option CcbdLease → Outcome
  | none => .raised "ccbd lease does not exist"
  | some lease =>
    if lease.mountState ≠ .mounted then .returned (some lease)
    else
      match assertExpectedHolder lease expectedPid expectedInstance with
      | some message => .raised message
      | none => .saved { lease with lastHeartbeatAt := now }

def updateConfigSignature (now configSignature : String) (expectedPid : ℕ)
    (expectedInstance : String) (expectedGeneration : ℕ) : Option CcbdLease → Outcome
  | none => .raised "ccbd lease does not exist"
  | some lease =>
    if lease.mountState ≠ .mounted then .raised "ccbd lease is not mounted"
    else
      match assertExpectedHolder lease (some expectedPid) (some expectedInstance) with
      | some message => .raised message
      | none =>
        if lease.generation ≠ expectedGeneration then
          .raised ("ccbd lease generation changed: expected generation=" ++
            toString expectedGeneration ++ ", found generation=" ++ toString lease.generation)
        else if strip configSignature = "" then .raised "config_signature cannot be empty"
        else
          .saved { lease with
            configSignature := some (strip configSignature)
            lastHeartbeatAt := now }

def markUnmounted (now : String) (expectedPid : Option ℕ) (expectedInstance : Option String) :
    Option CcbdLease → Outcome
  | none => .returned none
  | some lease =>
    match assertExpectedHolder lease expectedPid expectedInstance with
    | some message => .raised message
    | none => .saved { lease with mountState := .unmounted, lastHeartbeatAt := now }

/-! ### The ownership guard -/

/-- What the guard finds out about the world. -/
structure Host where
  /-- `process_exists` -/
  pidExists : ℕ → Bool
  /-- `unix_socket_connectable` -/
  socketProbe : String → Bool
  /-- The seconds since a heartbeat, unless a time cannot be read. -/
  sinceHeartbeat : String → Option ℚ

inductive LeaseHealth where
  | missing | unmounted | healthy | stale | degraded
  deriving DecidableEq

/-- `health.value` -/
def LeaseHealth.text : LeaseHealth → String
  | .missing => "missing"
  | .unmounted => "unmounted"
  | .healthy => "healthy"
  | .stale => "stale"
  | .degraded => "degraded"

structure LeaseInspection where
  lease : Option CcbdLease
  health : LeaseHealth
  pidAlive : Bool
  socketConnectable : Bool
  heartbeatFresh : Bool
  takeoverAllowed : Bool
  reason : String
  deriving DecidableEq

def heartbeatGraceSeconds : ℚ := 120

def heartbeatIsFresh (host : Host) (lease : CcbdLease) : Bool :=
  match host.sinceHeartbeat lease.lastHeartbeatAt with
  | none => false
  | some seconds => seconds ≤ heartbeatGraceSeconds

def mountedSocketConnectable (host : Host) (lease : CcbdLease) : Bool :=
  lease.mountState = .mounted && host.socketProbe lease.socketPath

/-- `_takeover_allowed` -/
def takeoverAllowed (pidAlive heartbeatFresh socketConnectable : Bool) : Bool :=
  !pidAlive || (pidAlive && !heartbeatFresh && !socketConnectable)

def inspectionReason (health : LeaseHealth) (pidAlive heartbeatFresh socketConnectable : Bool) :
    String :=
  let parts := (if pidAlive then [] else ["pid_missing"]) ++
    (if heartbeatFresh then [] else ["heartbeat_stale"]) ++
    if socketConnectable then [] else ["socket_unreachable"]
  if parts = [] then health.text else ",".intercalate parts

def inspectLease (host : Host) (lease : CcbdLease) : LeaseInspection :=
  let pidAlive := host.pidExists lease.ccbdPid
  let heartbeatFresh := heartbeatIsFresh host lease
  let socketConnectable := mountedSocketConnectable host lease
  let found := fun (health : LeaseHealth) (allowed : Bool) (reason : String) =>
    LeaseInspection.mk (some lease) health pidAlive socketConnectable heartbeatFresh allowed reason
  if lease.mountState = .unmounted then found .unmounted true "lease_unmounted"
  else if pidAlive && heartbeatFresh && socketConnectable then found .healthy false "healthy"
  else
    let allowed := takeoverAllowed pidAlive heartbeatFresh socketConnectable
    let health := if allowed then .stale else .degraded
    found health allowed (inspectionReason health pidAlive heartbeatFresh socketConnectable)

/-- `inspect` -/
def inspect (host : Host) : Option CcbdLease → LeaseInspection
  | none => ⟨none, .missing, false, false, false, true, "lease_missing"⟩
  | some lease => inspectLease host lease

@[simp] theorem inspect_lease (host : Host) (stored : Option CcbdLease) :
    (inspect host stored).lease = stored := by
  cases stored with
  | none => rfl
  | some lease =>
    rw [inspect, inspectLease]
    split
    · rfl
    · split <;> rfl

/-- The pid and the socket of the lease; the daemon instance is not compared. -/
def sameHolder (lease : CcbdLease) (d : Process) : Bool :=
  lease.ccbdPid = d.pid && lease.socketPath = d.socketPath

/-- `verify_or_takeover`: the generation under which the daemon may mount. -/
def verifyOrTakeover (host : Host) (d : Process) :
    Option CcbdLease → Except String {g : ℕ // 0 < g}
  | none => .ok ⟨1, one_pos⟩
  | some current =>
    if current.projectId ≠ d.projectId then
      .error ("lease project_id mismatch: expected " ++ d.projectId ++ ", found " ++
        current.projectId)
    else if sameHolder current d then .ok ⟨current.generation, current.generation_pos⟩
    else
      let inspection := inspectLease host current
      if inspection.takeoverAllowed then .ok ⟨current.generation + 1, Nat.succ_pos _⟩
      else .error ("ccbd lease is held by pid=" ++ toString current.ccbdPid ++ " generation=" ++
        toString current.generation ++ ": " ++ inspection.reason)

/-- A lease whose daemon may still be there is not taken over while its heartbeat is fresh. -/
theorem takeoverAllowed_of_inspect {host : Host} {lease : CcbdLease}
    (h : (inspectLease host lease).takeoverAllowed = true) :
    lease.mountState = .unmounted ∨ host.pidExists lease.ccbdPid = false ∨
      (heartbeatIsFresh host lease = false ∧ host.socketProbe lease.socketPath = false) := by
  rw [inspectLease] at h
  dsimp only at h
  split at h
  · rename_i hunmounted
    exact .inl hunmounted
  · rename_i hmounted
    have hstate : lease.mountState = .mounted := by
      cases hs : lease.mountState with
      | mounted => rfl
      | unmounted => exact absurd hs hmounted
    split at h
    · cases h
    · dsimp only at h
      rw [takeoverAllowed, mountedSocketConnectable, hstate] at h
      cases hpid : host.pidExists lease.ccbdPid with
      | false => exact .inr (.inl rfl)
      | true =>
        refine .inr (.inr ?_)
        simpa [hpid] using h

/-! ### What a write leaves alone -/

/-- The generation a lease stands for; no lease is before the first one. -/
def generationOf (stored : Option CcbdLease) : ℕ := stored.elim 0 CcbdLease.generation

theorem assertExpectedHolder_eq_none {lease : CcbdLease} {pid : ℕ} {instanceId : String}
    (h : assertExpectedHolder lease (some pid) (some instanceId) = none)
    (hnonblank : strip instanceId ≠ "") :
    lease.ccbdPid = pid ∧ strip (lease.daemonInstanceId.getD "") = strip instanceId := by
  rw [assertExpectedHolder] at h
  split at h
  · cases h
  · rename_i hpid
    split at h
    · cases h
    · rename_i hinstance
      rw [Option.filter_some] at hpid
      split at hpid
      · cases hpid
      · rename_i hsame
        simp only [ne_eq, decide_not, Bool.not_eq_eq_eq_not, Bool.not_true, decide_eq_false_iff_not,
          not_not, Option.getD_some, not_and] at hsame hinstance
        exact ⟨hsame.symm, hinstance hnonblank⟩

/-- The lease a write loaded, and the one it saves in its place: the holder and the generation
stay. -/
structure Rewrites (loaded saved : CcbdLease) : Prop where
  pid : saved.ccbdPid = loaded.ccbdPid
  instanceId : saved.daemonInstanceId = loaded.daemonInstanceId
  generation : saved.generation = loaded.generation

/-- The writes a daemon makes to the lease once it is mounted; it expects itself as the
holder. -/
inductive Write where
  | refreshHeartbeat (now : String)
  | updateConfigSignature (now configSignature : String) (expectedGeneration : ℕ)
  | markUnmounted (now : String)

def Write.outcome (d : Process) : Write → Option CcbdLease → Outcome
  | .refreshHeartbeat now => Daemon.refreshHeartbeat now (some d.pid) (some d.instanceId)
  | .updateConfigSignature now configSignature expectedGeneration =>
    Daemon.updateConfigSignature now configSignature d.pid d.instanceId expectedGeneration
  | .markUnmounted now => Daemon.markUnmounted now (some d.pid) (some d.instanceId)

/-- A daemon rewrites the lease only while it is its own. -/
theorem Write.saved {d : Process} {w : Write} {stored : Option CcbdLease} {saved : CcbdLease}
    (h : w.outcome d stored = .saved saved) :
    ∃ loaded, stored = some loaded ∧ Rewrites loaded saved ∧ loaded.ccbdPid = d.pid ∧
      strip (loaded.daemonInstanceId.getD "") = d.instanceId := by
  have hnonblank : strip d.instanceId ≠ "" := by
    rw [d.instance_clean.1]
    exact d.instance_clean.2
  have hholder : ∀ lease, assertExpectedHolder lease (some d.pid) (some d.instanceId) = none →
      lease.ccbdPid = d.pid ∧ strip (lease.daemonInstanceId.getD "") = d.instanceId := by
    intro lease hnone
    have := assertExpectedHolder_eq_none hnone hnonblank
    rwa [d.instance_clean.1] at this
  cases stored with
  | none => cases w <;> cases h
  | some lease =>
    cases w with
    | refreshHeartbeat now =>
      rw [outcome, Daemon.refreshHeartbeat] at h
      split at h
      · cases h
      · split at h
        · cases h
        · rename_i hnone
          cases h
          exact ⟨lease, rfl, ⟨rfl, rfl, rfl⟩, hholder lease hnone⟩
    | updateConfigSignature now configSignature expectedGeneration =>
      rw [outcome, Daemon.updateConfigSignature] at h
      split at h
      · cases h
      · split at h
        · cases h
        · rename_i hnone
          split at h
          · cases h
          · split at h
            · cases h
            · cases h
              exact ⟨lease, rfl, ⟨rfl, rfl, rfl⟩, hholder lease hnone⟩
    | markUnmounted now =>
      rw [outcome, Daemon.markUnmounted] at h
      split at h
      · cases h
      · rename_i hnone
        cases h
        exact ⟨lease, rfl, ⟨rfl, rfl, rfl⟩, hholder lease hnone⟩

/-- Nobody mounts under a generation before the stored one. -/
theorem le_verifyOrTakeover {host : Host} {d : Process} {stored : Option CcbdLease}
    {generation : {g : ℕ // 0 < g}} (h : verifyOrTakeover host d stored = .ok generation) :
    generationOf stored ≤ generation := by
  cases stored with
  | none => exact Nat.zero_le _
  | some current =>
    rw [verifyOrTakeover] at h
    split at h
    · cases h
    · split at h
      · cases h
        exact le_rfl
      · dsimp only at h
        split at h
        · cases h
          exact Nat.le_succ _
        · cases h

/-- The holder mounts under the stored generation again. -/
theorem verifyOrTakeover_holder {host : Host} {d : Process} {current : CcbdLease}
    {generation : {g : ℕ // 0 < g}} (h : verifyOrTakeover host d (some current) = .ok generation)
    (hholder : sameHolder current d = true) : generation = current.generation := by
  rw [verifyOrTakeover, if_pos hholder] at h
  split at h
  · cases h
  · cases h
    rfl

/-- Only the holder mounts under the stored generation. -/
theorem lt_verifyOrTakeover {host : Host} {d : Process} {current : CcbdLease}
    {generation : {g : ℕ // 0 < g}} (h : verifyOrTakeover host d (some current) = .ok generation)
    (hholder : sameHolder current d = false) : generation = current.generation + 1 := by
  rw [verifyOrTakeover, hholder] at h
  split at h
  · cases h
  · rw [if_neg (by simp)] at h
    dsimp only at h
    split at h
    · cases h
      rfl
    · cases h

end CodexBridge.Daemon
