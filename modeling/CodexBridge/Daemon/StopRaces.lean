import CodexBridge.Daemon.RecordedGenerations

/-! A stop of the project beside the other writers of the lifecycle record. Each of them
loads the record, changes its copy and saves it, with nothing to keep the others out in
between; a stop is undone by whoever saves a copy from before it. -/

namespace CodexBridge.Daemon.Stopping

/-! ### Threads -/

/-- Where `execute_project_stop` stands. -/
inductive StopThread where
  | idle
  /-- `_mark_lifecycle_stopping` has loaded the record. -/
  | stopping (loaded : Option CcbdLifecycle)
  | marked
  /-- `_mark_lifecycle_unmounted` has loaded it. -/
  | unmounting (loaded : Option CcbdLifecycle)

/-- Where `reconcile_once` stands. -/
inductive KeeperThread where
  | idle
  /-- `ensure_project_lifecycle` has loaded the record. -/
  | ensuring (inspection : LeaseInspection) (loaded : Option CcbdLifecycle)
  /-- The record says that the project is to run; a daemon that answers is being asked. -/
  | reconciling (inspection : LeaseInspection) (lifecycle : CcbdLifecycle)
  /-- `_spawn_daemon` has loaded the record. -/
  | spawning (inspection : LeaseInspection) (loaded : Option CcbdLifecycle)
  /-- It waits for the daemon it has announced. -/
  | awaiting (spawn : Spawn) (starting : CcbdLifecycle)

structure Race where
  /-- `app.pid` of the keeper -/
  keeperPid : ℕ
  lifecycle : Option CcbdLifecycle
  stop : StopThread
  /-- The record that `_record_heartbeat_failures` has loaded. -/
  heartbeat : Option CcbdLifecycle
  keeper : KeeperThread

/-- A load or a save by one of the threads, with what it meets there. -/
inductive Move where
  | stop (env : Surroundings) (app : App) (reason : String)
  | heartbeat (failures : List String)
  | keeper (env : Surroundings) (projectId : String) (found : LeaseInspection) (probe : Probe)
      (spawn : Option Spawn) (lease : Option CcbdLease) (failure : Option String)

/-! ### Moves -/

namespace Race

def save (lifecycle : CcbdLifecycle) (s : Race) : Race := { s with lifecycle := some lifecycle }

def moveStop (env : Surroundings) (app : App) (reason : String) (s : Race) : Race :=
  match s.stop with
  | .idle => { s with stop := .stopping s.lifecycle }
  | .stopping loaded =>
    { s.save (markLifecycleStopping env app reason loaded) with stop := .marked }
  | .marked => { s with stop := .unmounting s.lifecycle }
  | .unmounting loaded =>
    { s.save (markLifecycleUnmounted env app (some .stopped) loaded) with stop := .idle }

def moveHeartbeat (failures : List String) (s : Race) : Race :=
  match s.heartbeat with
  | none => { s with heartbeat := s.lifecycle }
  | some loaded =>
    match recordHeartbeatFailures failures (some loaded) with
    | none => { s with heartbeat := none }
    | some lifecycle => { s.save lifecycle with heartbeat := none }

def moveKeeper (env : Surroundings) (projectId : String) (found : LeaseInspection)
    (probe : Probe) (spawn : Option Spawn) (lease : Option CcbdLease) (failure : Option String)
    (s : Race) : Race :=
  match s.keeper with
  | .idle => { s with keeper := .ensuring found s.lifecycle }
  | .ensuring inspection loaded =>
    let ensured := ensureProjectLifecycle env projectId s.keeperPid inspection loaded
    let s := if ensured.2 then s.save ensured.1 else s
    if ensured.1.desiredState = .running then
      { s with keeper := .reconciling inspection ensured.1 }
    else { s with keeper := .idle }
  | .reconciling inspection lifecycle =>
    if inspection.socketConnectable then
      { s.save (reconcileConnectable env s.keeperPid inspection probe lifecycle) with
        keeper := .idle }
    -- `_spawn_daemon` inspects the lease anew
    else if restartWanted inspection then { s with keeper := .spawning found s.lifecycle }
    else { s with keeper := .idle }
  | .spawning inspection loaded =>
    match spawn with
    | none => { s with keeper := .idle }
    | some spawn =>
      let starting := spawnStarting env projectId s.keeperPid spawn inspection loaded
      { s.save starting with keeper := .awaiting spawn starting }
  | .awaiting spawn starting =>
    match failure with
    | none => { s.save (spawnMounted env spawn starting lease) with keeper := .idle }
    | some reason => { s.save (spawnFailed env starting reason) with keeper := .idle }

def move (s : Race) : Move → Race
  | .stop env app reason => s.moveStop env app reason
  | .heartbeat failures => s.moveHeartbeat failures
  | .keeper env projectId found probe spawn lease failure =>
    s.moveKeeper env projectId found probe spawn lease failure

def run (s : Race) (moves : List Move) : Race := moves.foldl move s

/-- No thread has begun. -/
def initial (keeperPid : ℕ) (lifecycle : Option CcbdLifecycle) : Race :=
  ⟨keeperPid, lifecycle, .idle, none, .idle⟩

end Race

/-! ### A stop that lasts -/

/-- The project is stopped, and no keeper is about to spawn a daemon. -/
structure Stopped (s : Race) : Prop where
  recorded : ∃ lifecycle ∈ s.lifecycle, lifecycle.desiredState = .stopped
  spawning : ∀ inspection loaded, s.keeper ≠ .spawning inspection loaded
  awaiting : ∀ spawn starting, s.keeper ≠ .awaiting spawn starting

/-- The heartbeat would not save a copy that says the project is to run. -/
def HeartbeatQuiet (s : Race) : Prop :=
  ∀ loaded ∈ s.heartbeat, loaded.phase = .starting ∨ loaded.phase = .mounted →
    loaded.desiredState = .stopped

/-- An iteration that finds the project stopped, or nothing to do. -/
def Rests (inspection : LeaseInspection) : Prop :=
  inspection.socketConnectable = false ∧ restartWanted inspection = false

/-- Nor would the keeper make one of the record it has loaded. -/
def EnsureQuiet (keeperPid : ℕ) (inspection : LeaseInspection) : Option CcbdLifecycle → Prop
  | none => ∀ lease ∈ inspection.lease, lease.mountState = .unmounted
  | some lifecycle => lifecycle.desiredState = .stopped ∨
      lifecycle.keeperPid = some keeperPid ∧ Rests inspection

/-- The keeper would not save one either, and it is not about to spawn. -/
def KeeperQuiet (s : Race) : Prop :=
  match s.keeper with
  | .idle => True
  | .ensuring inspection loaded => EnsureQuiet s.keeperPid inspection loaded
  | .reconciling inspection _ => Rests inspection
  | .spawning _ _ | .awaiting _ _ => False

/-- No copy of the record from before the stop is still to be saved. -/
structure Quiet (s : Race) : Prop where
  heartbeat : HeartbeatQuiet s
  keeper : KeeperQuiet s

/-- The stop has saved its last record, and nobody has a copy from before. -/
structure Lasting (s : Race) : Prop extends Quiet s where
  recorded : ∃ lifecycle ∈ s.lifecycle, lifecycle.desiredState = .stopped

theorem Lasting.stopped {s : Race} (h : Lasting s) : Stopped s where
  recorded := h.recorded
  spawning := fun inspection loaded heq => by
    have hkeeper := h.keeper
    rw [KeeperQuiet, heq] at hkeeper
    exact hkeeper
  awaiting := fun spawn starting heq => by
    have hkeeper := h.keeper
    rw [KeeperQuiet, heq] at hkeeper
    exact hkeeper

/-- A stopped record saved in place of a stopped one. -/
theorem Lasting.save {s : Race} (h : Lasting s) {lifecycle : CcbdLifecycle}
    (hstopped : lifecycle.desiredState = .stopped) : Lasting (s.save lifecycle) :=
  ⟨⟨h.heartbeat, h.keeper⟩, lifecycle, rfl, hstopped⟩

theorem Lasting.moveStop {s : Race} (h : Lasting s) (env : Surroundings) (app : App)
    (reason : String) : Lasting (s.moveStop env app reason) := by
  rw [Race.moveStop]
  split
  · exact ⟨⟨h.heartbeat, h.keeper⟩, h.recorded⟩
  · exact ⟨⟨h.heartbeat, h.keeper⟩, _, rfl, rfl⟩
  · exact ⟨⟨h.heartbeat, h.keeper⟩, h.recorded⟩
  · exact ⟨⟨h.heartbeat, h.keeper⟩, _, rfl, rfl⟩

theorem Lasting.moveHeartbeat {s : Race} (h : Lasting s) (failures : List String) :
    Lasting (s.moveHeartbeat failures) := by
  have hnone : ∀ s' : Race, s'.heartbeat = none → HeartbeatQuiet s' := by
    intro s' heq loaded hloaded
    rw [heq] at hloaded
    cases hloaded
  rw [Race.moveHeartbeat]
  cases hheartbeat : s.heartbeat with
  | none =>
    refine ⟨⟨fun loaded hloaded _ => ?_, h.keeper⟩, h.recorded⟩
    obtain ⟨lifecycle, hstored, hstopped⟩ := h.recorded
    rw [Option.mem_unique hloaded hstored]
    exact hstopped
  | some loaded =>
    dsimp only
    cases hsaved : recordHeartbeatFailures failures (some loaded) with
    | none => exact ⟨⟨hnone _ rfl, h.keeper⟩, h.recorded⟩
    | some lifecycle =>
      obtain ⟨kept, hkept, hphase, reason, _, rfl⟩ := recordHeartbeatFailures_saved hsaved
      rw [← Option.some_inj.mp hkept] at hphase ⊢
      exact ⟨⟨hnone _ rfl, h.keeper⟩, _, rfl, h.heartbeat loaded hheartbeat hphase⟩

theorem lifecycleFromInspection_stopped {env : Surroundings} {projectId : String}
    {inspection : LeaseInspection} (configSignature : Option String) (keeperPid : Option ℕ)
    (h : ∀ lease ∈ inspection.lease, lease.mountState = .unmounted) :
    (lifecycleFromInspection env projectId inspection configSignature keeperPid).desiredState =
      .stopped := by
  rw [lifecycleFromInspection]
  split
  · rfl
  · rename_i lease hlease
    have hunmounted := h lease hlease
    simp [hunmounted]
    rfl

/-- What the keeper makes of a record it may have loaded. -/
theorem EnsureQuiet.ensured {keeperPid : ℕ} {inspection : LeaseInspection}
    {loaded : Option CcbdLifecycle} (h : EnsureQuiet keeperPid inspection loaded)
    (env : Surroundings) (projectId : String) :
    (ensureProjectLifecycle env projectId keeperPid inspection loaded).1.desiredState = .stopped ∨
      (ensureProjectLifecycle env projectId keeperPid inspection loaded).2 = false ∧
        Rests inspection := by
  cases loaded with
  | none => exact .inl (lifecycleFromInspection_stopped _ _ h)
  | some lifecycle =>
    rw [ensureProjectLifecycle]
    cases h with
    | inl hstopped =>
      left
      split <;> exact hstopped
    | inr hrests =>
      right
      rw [if_pos hrests.1]
      exact ⟨rfl, hrests.2⟩

theorem Lasting.moveKeeper {s : Race} (h : Lasting s) (env : Surroundings) (projectId : String)
    (inspection : LeaseInspection) (probe : Probe) (spawn : Option Spawn)
    (lease : Option CcbdLease) (failure : Option String) :
    Lasting (s.moveKeeper env projectId inspection probe spawn lease failure) := by
  have hkeeper := h.keeper
  rw [KeeperQuiet] at hkeeper
  rw [Race.moveKeeper]
  cases hthread : s.keeper with
  | idle =>
    obtain ⟨lifecycle, hstored, hstopped⟩ := h.recorded
    refine ⟨⟨h.heartbeat, ?_⟩, h.recorded⟩
    show EnsureQuiet s.keeperPid inspection s.lifecycle
    rw [Option.mem_def.mp hstored]
    exact .inl hstopped
  | ensuring inspection loaded =>
    rw [hthread] at hkeeper
    have hensured := hkeeper.ensured env projectId
    dsimp only
    cases hensured with
    | inl hstopped =>
      have hnot : ¬ (ensureProjectLifecycle env projectId s.keeperPid inspection
          loaded).1.desiredState = .running := by
        rw [hstopped]
        decide
      rw [if_neg hnot]
      split
      · exact ⟨⟨h.heartbeat, trivial⟩, _, rfl, hstopped⟩
      · exact ⟨⟨h.heartbeat, trivial⟩, h.recorded⟩
    | inr hrests =>
      simp only [hrests.1, Bool.false_eq_true, if_false]
      split
      · exact ⟨⟨h.heartbeat, hrests.2⟩, h.recorded⟩
      · exact ⟨⟨h.heartbeat, trivial⟩, h.recorded⟩
  | reconciling inspection lifecycle =>
    rw [hthread] at hkeeper
    dsimp only
    rw [hkeeper.1, hkeeper.2]
    exact ⟨⟨h.heartbeat, trivial⟩, h.recorded⟩
  | spawning inspection loaded =>
    rw [hthread] at hkeeper
    exact hkeeper.elim
  | awaiting spawn starting =>
    rw [hthread] at hkeeper
    exact hkeeper.elim

theorem Lasting.move {s : Race} (h : Lasting s) (m : Move) : Lasting (s.move m) := by
  cases m with
  | stop env app reason => exact h.moveStop env app reason
  | heartbeat failures => exact h.moveHeartbeat failures
  | keeper env projectId inspection probe spawn lease failure =>
    exact h.moveKeeper env projectId inspection probe spawn lease failure

theorem Lasting.run {s : Race} (h : Lasting s) (moves : List Move) : Lasting (s.run moves) := by
  induction moves generalizing s with
  | nil => exact h
  | cons m rest ih => exact ih (h.move m)

/-! ### A stop that is undone -/

/-- Some reason to record differs from the recorded one. -/
theorem exists_failures_ne (recorded : Option String) :
    ∃ failures : List String,
      recorded ≠ if failures = [] then none else some (" | ".intercalate failures) := by
  cases recorded with
  | none => exact ⟨["failed"], nofun⟩
  | some reason => exact ⟨[], nofun⟩

theorem recordHeartbeatFailures_some {loaded : CcbdLifecycle}
    (hphase : loaded.phase = .starting ∨ loaded.phase = .mounted) :
    ∃ failures saved, recordHeartbeatFailures failures (some loaded) = some saved ∧
      saved.desiredState = loaded.desiredState := by
  obtain ⟨failures, hne⟩ := exists_failures_ne loaded.lastFailureReason
  refine ⟨failures, _, Option.map_eq_some_iff.mpr ⟨loaded, ?_, rfl⟩, rfl⟩
  rw [Option.filter_eq_some_iff]
  refine ⟨rfl, ?_⟩
  simp only [Bool.and_eq_true, Bool.or_eq_true, decide_eq_true_eq]
  exact ⟨hphase, hne⟩

/-- A heartbeat that has a copy from before the stop saves it. -/
theorem undone_by_heartbeat {s : Race} (h : ¬ HeartbeatQuiet s) :
    ∃ moves, ¬ Stopped (s.run moves) := by
  simp only [HeartbeatQuiet, not_forall] at h
  obtain ⟨loaded, hloaded, hphase, hrunning⟩ := h
  obtain ⟨failures, saved, hsaved, hdesired⟩ := recordHeartbeatFailures_some hphase
  refine ⟨[.heartbeat failures], fun hstopped => hrunning ?_⟩
  obtain ⟨lifecycle, hstored, hlifecycle⟩ := hstopped.recorded
  have hmoved : (s.moveHeartbeat failures).lifecycle = some saved := by
    rw [Race.moveHeartbeat, Option.mem_def.mp hloaded]
    dsimp only
    rw [hsaved]
    rfl
  have heq : lifecycle = saved := Option.mem_unique hstored hmoved
  rw [← hdesired, ← heq]
  exact hlifecycle

/-- A record that says the project is to run. -/
theorem not_stopped_of_running {s : Race} {lifecycle : CcbdLifecycle}
    (hstored : s.lifecycle = some lifecycle) (hrunning : lifecycle.desiredState ≠ .stopped) :
    ¬ Stopped s := by
  intro hstopped
  obtain ⟨recorded, hrecorded, hdesired⟩ := hstopped.recorded
  rw [hstored] at hrecorded
  cases hrecorded
  exact hrunning hdesired

theorem undone_by_reconciling {s : Race} (env : Surroundings) {inspection : LeaseInspection}
    {lifecycle : CcbdLifecycle} (hkeeper : s.keeper = .reconciling inspection lifecycle)
    (h : ¬ Rests inspection) : ∃ moves, ¬ Stopped (s.run moves) := by
  refine ⟨[.keeper env "" inspection .same none none none], ?_⟩
  show ¬ Stopped (s.moveKeeper env "" inspection .same none none none)
  rw [Race.moveKeeper, hkeeper]
  dsimp only
  cases hconnectable : inspection.socketConnectable with
  | true =>
    refine not_stopped_of_running rfl ?_
    show DesiredState.running ≠ .stopped
    decide
  | false =>
    cases hrestart : restartWanted inspection with
    | true => exact fun hstopped => hstopped.spawning inspection s.lifecycle rfl
    | false => exact absurd ⟨hconnectable, hrestart⟩ h

/-- What `ensure_project_lifecycle` saves, and where the keeper goes on. -/
theorem moveKeeper_ensuring {s : Race} (env : Surroundings) {inspection : LeaseInspection}
    {loaded : Option CcbdLifecycle} (hkeeper : s.keeper = .ensuring inspection loaded) :
    let ensured := ensureProjectLifecycle env "" s.keeperPid inspection loaded
    let s' := s.moveKeeper env "" inspection .same none none none
    (ensured.2 = true → s'.lifecycle = some ensured.1) ∧
      (ensured.1.desiredState = .running → s'.keeper = .reconciling inspection ensured.1) := by
  intro ensured s'
  have hmoved : s' = s.moveKeeper env "" inspection .same none none none := rfl
  rw [Race.moveKeeper, hkeeper] at hmoved
  dsimp only at hmoved
  rw [hmoved]
  constructor
  · intro hsaved
    rw [if_pos hsaved]
    split <;> rfl
  · intro hrunning
    rw [if_pos hrunning]

theorem undone_by_ensuring {s : Race} (env : Surroundings) {inspection : LeaseInspection}
    {loaded : Option CcbdLifecycle} (hkeeper : s.keeper = .ensuring inspection loaded)
    (h : ¬ EnsureQuiet s.keeperPid inspection loaded) : ∃ moves, ¬ Stopped (s.run moves) := by
  obtain ⟨hsaves, hgoes⟩ := moveKeeper_ensuring env hkeeper
  cases loaded with
  | none =>
    simp only [EnsureQuiet, not_forall] at h
    obtain ⟨lease, hlease, hmounted⟩ := h
    refine ⟨[.keeper env "" inspection .same none none none],
      not_stopped_of_running (hsaves rfl) ?_⟩
    have hstate : lease.mountState = .mounted := by
      cases hstate : lease.mountState with
      | mounted => rfl
      | unmounted => exact absurd hstate hmounted
    have hrunning : (lifecycleFromInspection env "" inspection env.configSignature
        (some s.keeperPid)).desiredState = .running := by
      rw [lifecycleFromInspection, Option.mem_def.mp hlease]
      simp only [hstate]
      rfl
    intro hstopped
    cases hrunning.symm.trans hstopped
  | some lifecycle =>
    simp only [EnsureQuiet, not_or, not_and] at h
    obtain ⟨hrunning, hrests⟩ := h
    rw [ensureProjectLifecycle] at hsaves hgoes
    split at hsaves
    · rename_i hpid
      have hdesired : lifecycle.desiredState = .running := by
        cases hstate : lifecycle.desiredState with
        | running => rfl
        | stopped => exact absurd hstate hrunning
      rw [if_pos hpid] at hgoes
      obtain ⟨moves, hmoves⟩ := undone_by_reconciling env (hgoes hdesired) (hrests hpid)
      exact ⟨.keeper env "" inspection .same none none none :: moves, hmoves⟩
    · exact ⟨[.keeper env "" inspection .same none none none],
        not_stopped_of_running (hsaves rfl) hrunning⟩

theorem undone_by_keeper {s : Race} (env : Surroundings) (h : ¬ KeeperQuiet s) :
    ∃ moves, ¬ Stopped (s.run moves) := by
  rw [KeeperQuiet] at h
  cases hkeeper : s.keeper with
  | idle =>
    rw [hkeeper] at h
    exact absurd trivial h
  | ensuring inspection loaded =>
    rw [hkeeper] at h
    exact undone_by_ensuring env hkeeper h
  | reconciling inspection lifecycle =>
    rw [hkeeper] at h
    exact undone_by_reconciling env hkeeper h
  | spawning inspection loaded => exact ⟨[], fun hstopped => hstopped.spawning _ _ hkeeper⟩
  | awaiting spawn starting => exact ⟨[], fun hstopped => hstopped.awaiting _ _ hkeeper⟩

theorem undone_of_not_quiet {s : Race} (env : Surroundings) (h : ¬ Quiet s) :
    ∃ moves, ¬ Stopped (s.run moves) := by
  by_cases hheartbeat : HeartbeatQuiet s
  · exact undone_by_keeper env fun hkeeper => h ⟨hheartbeat, hkeeper⟩
  · exact undone_by_heartbeat hheartbeat

/-! ### The last save of a stop -/

theorem quiet_moveStop (s : Race) (env : Surroundings) (app : App) (reason : String) :
    Quiet (s.moveStop env app reason) ↔ Quiet s := by
  have hsame : (s.moveStop env app reason).heartbeat = s.heartbeat ∧
      (s.moveStop env app reason).keeper = s.keeper ∧
      (s.moveStop env app reason).keeperPid = s.keeperPid := by
    rw [Race.moveStop]
    split <;> exact ⟨rfl, rfl, rfl⟩
  have hheartbeat : HeartbeatQuiet (s.moveStop env app reason) ↔ HeartbeatQuiet s := by
    rw [HeartbeatQuiet, HeartbeatQuiet, hsame.1]
  have hkeeper : KeeperQuiet (s.moveStop env app reason) ↔ KeeperQuiet s := by
    rw [KeeperQuiet, KeeperQuiet, hsame.2.1, hsame.2.2]
  exact ⟨fun h => ⟨hheartbeat.mp h.heartbeat, hkeeper.mp h.keeper⟩,
    fun h => ⟨hheartbeat.mpr h.heartbeat, hkeeper.mpr h.keeper⟩⟩

/-- Whatever has happened before, the project stays stopped after the last save of a stop exactly
if nobody has a copy of a running project's record that is still to be saved, and no keeper has
decided to spawn. -/
theorem stop_lasts_iff (keeperPid : ℕ) (lifecycle : Option CcbdLifecycle) (before : List Move)
    (env : Surroundings) (app : App) (reason : String) (loaded : Option CcbdLifecycle)
    (h : ((Race.initial keeperPid lifecycle).run before).stop = .unmounting loaded) :
    (∀ after, Stopped ((Race.initial keeperPid lifecycle).run
        (before ++ .stop env app reason :: after))) ↔
      Quiet ((Race.initial keeperPid lifecycle).run before) := by
  let s := (Race.initial keeperPid lifecycle).run before
  have hrun : ∀ after, (Race.initial keeperPid lifecycle).run
      (before ++ .stop env app reason :: after) = (s.moveStop env app reason).run after := by
    intro after
    rw [Race.run, List.foldl_append]
    rfl
  have hsaved : (s.moveStop env app reason).lifecycle =
      some (markLifecycleUnmounted env app (some .stopped) loaded) := by
    rw [Race.moveStop, h]
    rfl
  simp only [hrun]
  constructor
  · intro hstopped
    by_contra hquiet
    obtain ⟨moves, hmoves⟩ := undone_of_not_quiet env
      (mt (quiet_moveStop s env app reason).mp hquiet)
    exact hmoves (hstopped moves)
  · intro hquiet after
    have hlasting : Lasting (s.moveStop env app reason) :=
      ⟨(quiet_moveStop s env app reason).mpr hquiet, _, hsaved, rfl⟩
    exact (hlasting.run after).stopped

namespace Kill

open Daemon.Sample

/-- The daemon of the project, and its lease. -/
def app : App := ⟨first, some (markMounted first "t0" ⟨1, Nat.one_pos⟩)⟩

def mounted : CcbdLifecycle :=
  buildLifecycle "proj-1" "t0" .running .mounted 1 (some 50) (some "sig")

/-- A load or a save of the stop. -/
def stop : Move := .stop (surroundings "t1") app "kill"

/-- One of the keeper, which finds the lease like this. -/
def keeper (lease : Option CcbdLease) (answers : Bool) : Move :=
  .keeper (surroundings "t1") "proj-1"
    (inspect ⟨fun _ => answers, fun _ => answers, fun _ => some 1⟩ lease) .same
    (some ⟨"sig", "startup-1", "deadline-1"⟩) none none

end Kill

open Kill in
theorem stop_lasts_iff_kill :
    (∀ after, Stopped ((Race.initial 50 (some mounted)).run
        ([keeper app.lease true, keeper app.lease true, keeper app.lease true, .heartbeat [],
          stop, stop, stop] ++ stop :: after))) ↔
      Quiet ((Race.initial 50 (some mounted)).run
        [keeper app.lease true, keeper app.lease true, keeper app.lease true, .heartbeat [],
          stop, stop, stop]) :=
  stop_lasts_iff 50 (some mounted) _ (Daemon.Sample.surroundings "t1") app "kill" _ rfl

open Kill in
/-- The keeper has loaded the record and waits for the daemon to answer while the project is
stopped. Its save undoes the stop, and its next iteration spawns a daemon. -/
theorem stop_undone :
    let stopped := (Race.initial 50 (some mounted)).run
      [keeper app.lease true, keeper app.lease true, stop, stop, stop, stop]
    let undone := stopped.run [keeper app.lease true]
    let later := undone.run (List.replicate 4 (keeper none false))
    stopped.lifecycle.map CcbdLifecycle.desiredState = some .stopped ∧
      undone.lifecycle.map CcbdLifecycle.desiredState = some .running ∧
      later.lifecycle.map CcbdLifecycle.phase = some .starting := by
  decide +kernel

end CodexBridge.Daemon.Stopping
