import CodexBridge.Names
import Mathlib.Algebra.Order.Ring.Rat
import Mathlib.Tactic.NormNum

/-! The queue of agents that wait to be unloaded or replaced. A record of the queue is found by
the id of its intent, and the id comes from what the intent says, so the same intent can be in
the queue twice. A finished record stays as it is for as long as its id does not come back.
Times are numbers of seconds. -/

namespace CodexBridge.Reload

/-! ### Intents and records -/

structure DrainBounds where
  maxPending : ℕ
  timeout : ℚ
  maxAge : ℚ
  maxPending_pos : 0 < maxPending
  timeout_pos : 0 < timeout
  maxAge_pos : 0 < maxAge

inductive IntentKind where
  | unload | replace
  deriving DecidableEq

inductive DrainPhase where
  | pendingUnload | pendingReplace | draining | retiring | retired | rejected
  deriving DecidableEq

inductive DrainStatus where
  | pending | waiting | idleReady | timedOut | rejectedQueueFull | retired
  deriving DecidableEq

structure DrainIntent where
  intentId : String
  intentKind : IntentKind
  agentName : String
  createdAt : ℚ
  reason : Option String
  oldConfigSignature : Option String
  newConfigSignature : Option String
  intentId_ne : strip intentId ≠ ""
  agentName_ne : strip agentName ≠ ""
  deriving DecidableEq

def DrainIntent.initialPhase (intent : DrainIntent) : DrainPhase :=
  match intent.intentKind with
  | .unload => .pendingUnload
  | .replace => .pendingReplace

structure DrainRecord where
  intent : DrainIntent
  phase : DrainPhase
  status : DrainStatus
  createdAt : ℚ
  updatedAt : ℚ
  deadlineAt : ℚ
  maxAgeDeadlineAt : ℚ
  reason : Option String
  busy : Option Bool
  transitionCount : ℕ
  deriving DecidableEq

namespace DrainRecord

def id (record : DrainRecord) : String := record.intent.intentId

def terminal (record : DrainRecord) : Bool :=
  record.status = .timedOut || record.status = .rejectedQueueFull || record.status = .retired

def withTransition (record : DrainRecord) (phase : DrainPhase) (status : DrainStatus) (now : ℚ)
    (reason : String) (busy : Option Bool) : DrainRecord :=
  { record with
    phase := phase
    status := status
    updatedAt := now
    reason := some reason
    busy := busy
    transitionCount := record.transitionCount + 1 }

def pending (intent : DrainIntent) (bounds : DrainBounds) (now : ℚ) : DrainRecord where
  intent := intent
  phase := intent.initialPhase
  status := .pending
  createdAt := now
  updatedAt := now
  deadlineAt := now + bounds.timeout
  maxAgeDeadlineAt := intent.createdAt + bounds.maxAge
  reason := intent.reason
  busy := none
  transitionCount := 0

def rejectedQueueFull (intent : DrainIntent) (bounds : DrainBounds) (now : ℚ) : DrainRecord where
  intent := intent
  phase := .rejected
  status := .rejectedQueueFull
  createdAt := now
  updatedAt := now
  deadlineAt := now + bounds.timeout
  maxAgeDeadlineAt := intent.createdAt + bounds.maxAge
  reason := some "pending drain queue is full"
  busy := none
  transitionCount := 0

end DrainRecord

/-- `plan_drain_transition` -/
def planDrainTransition (record : DrainRecord) (now : ℚ) (isBusy : DrainRecord → Bool) :
    DrainRecord :=
  if record.terminal then record
  else if record.status = .idleReady then record
  else if record.maxAgeDeadlineAt ≤ now then
    record.withTransition .draining .timedOut now "drain max_age_s exceeded" none
  else if record.deadlineAt ≤ now then
    record.withTransition .draining .timedOut now "drain timeout_s exceeded" none
  else if isBusy record then
    record.withTransition .draining .waiting now
      "agent is busy; drain remains bounded and pending" (some true)
  else
    record.withTransition .retiring .idleReady now
      "agent is idle and ready for retire step" (some false)

def retireRecord (record : DrainRecord) (now : ℚ) : DrainRecord :=
  if record.status = .retired then record
  else if record.status ≠ .idleReady then record
  else
    record.withTransition .retired .retired now
      "record retired; Phase 4 performs no runtime or tmux mutation" (some false)

/-! ### The queue -/

structure DrainQueue where
  bounds : DrainBounds
  records : List DrainRecord

structure DrainQueueResult where
  queue : DrainQueue
  record : DrainRecord
  accepted : Bool

namespace DrainQueue

def empty (bounds : DrainBounds) : DrainQueue := ⟨bounds, []⟩

def pendingCount (queue : DrainQueue) : ℕ := queue.records.countP fun record => !record.terminal

def enqueue (queue : DrainQueue) (intent : DrainIntent) (now : ℚ) : DrainQueueResult :=
  if intent.createdAt + queue.bounds.maxAge < now then
    let expired := (DrainRecord.pending intent queue.bounds now).withTransition
      .draining .timedOut now "intent age exceeds max_age_s" none
    ⟨queue, expired, false⟩
  else if queue.bounds.maxPending ≤ queue.pendingCount then
    ⟨queue, .rejectedQueueFull intent queue.bounds now, false⟩
  else
    let record := DrainRecord.pending intent queue.bounds now
    ⟨{ queue with records := queue.records ++ [record] }, record, true⟩

/-- `replace_record`: every record with the id of the updated one. -/
def replaceRecord (queue : DrainQueue) (updated : DrainRecord) : DrainQueue :=
  { queue with
    records := queue.records.map fun record => if record.id = updated.id then updated else record }

end DrainQueue

/-- A step on the queue: a new intent, or a record that goes on and is put back. -/
inductive DrainStep where
  | enqueue (intent : DrainIntent) (now : ℚ)
  | transition (record : DrainRecord) (now : ℚ) (isBusy : DrainRecord → Bool)
  | retire (record : DrainRecord) (now : ℚ)

def DrainStep.apply (queue : DrainQueue) : DrainStep → DrainQueue
  | .enqueue intent now => (queue.enqueue intent now).queue
  | .transition record now isBusy => queue.replaceRecord (planDrainTransition record now isBusy)
  | .retire record now => queue.replaceRecord (retireRecord record now)

def runDrain (queue : DrainQueue) (steps : List DrainStep) : DrainQueue :=
  steps.foldl DrainStep.apply queue

/-! ### Ids -/

@[simp] theorem withTransition_id (record : DrainRecord) (phase : DrainPhase) (status : DrainStatus)
    (now : ℚ) (reason : String) (busy : Option Bool) :
    (record.withTransition phase status now reason busy).id = record.id := rfl

theorem planDrainTransition_id (record : DrainRecord) (now : ℚ) (isBusy : DrainRecord → Bool) :
    (planDrainTransition record now isBusy).id = record.id := by
  unfold planDrainTransition
  split_ifs <;> rfl

theorem planDrainTransition_terminal {record : DrainRecord} (h : record.terminal = true) (now : ℚ)
    (isBusy : DrainRecord → Bool) : planDrainTransition record now isBusy = record :=
  if_pos h

theorem retireRecord_id (record : DrainRecord) (now : ℚ) :
    (retireRecord record now).id = record.id := by
  unfold retireRecord
  split_ifs <;> rfl

theorem retireRecord_terminal {record : DrainRecord} (h : record.terminal = true) (now : ℚ) :
    retireRecord record now = record := by
  have hready : record.status ≠ .idleReady := by
    intro hstatus
    simp [DrainRecord.terminal, hstatus] at h
  simp [retireRecord, hready]

theorem enqueue_cases (queue : DrainQueue) (intent : DrainIntent) (now : ℚ) :
    ((queue.enqueue intent now).accepted = false ∧ (queue.enqueue intent now).queue = queue) ∨
      ((queue.enqueue intent now).accepted = true ∧ queue.pendingCount < queue.bounds.maxPending ∧
        (queue.enqueue intent now).queue =
          { queue with records := queue.records ++ [.pending intent queue.bounds now] }) := by
  unfold DrainQueue.enqueue
  split_ifs with hage hfull
  · exact .inl ⟨rfl, rfl⟩
  · exact .inl ⟨rfl, rfl⟩
  · exact .inr ⟨rfl, not_le.mp hfull, rfl⟩

/-! ### What holds of a queue -/

/-- There is room for what is pending. -/
def DrainQueue.Settled (queue : DrainQueue) : Prop := queue.pendingCount ≤ queue.bounds.maxPending

theorem empty_settled (bounds : DrainBounds) : (DrainQueue.empty bounds).Settled := Nat.zero_le _

/-- No finished record but this one has its id. -/
def DrainQueue.Alone (queue : DrainQueue) (record : DrainRecord) : Prop :=
  ∀ old ∈ queue.records, old.id = record.id → old.terminal = true → old = record

/-- A record that is put back takes the place of no finished record but itself. -/
def DrainStep.Fits (queue : DrainQueue) : DrainStep → Prop
  | .enqueue _ _ => True
  | .transition record _ _ | .retire record _ => queue.Alone record

/-- The finished records of a queue are still there, each in its place. -/
def DrainQueue.Keeps (queue next : DrainQueue) : Prop :=
  ∀ (i : ℕ) (record : DrainRecord), queue.records[i]? = some record → record.terminal = true →
    next.records[i]? = some record

/-! ### One step -/

/-- What replaces a finished record is the record itself. -/
theorem DrainQueue.Alone.replaced {queue : DrainQueue} {record updated : DrainRecord}
    (halone : queue.Alone record) (hid : updated.id = record.id)
    (hupdated : record.terminal = true → updated = record) {old : DrainRecord}
    (hold : old ∈ queue.records) (hterminal : old.terminal = true) :
    (if old.id = updated.id then updated else old) = old := by
  split_ifs with hsame
  · obtain rfl := halone old hold (hsame.trans hid) hterminal
    exact hupdated hterminal
  · rfl

theorem DrainQueue.Settled.replaceRecord {queue : DrainQueue} (h : queue.Settled)
    {record updated : DrainRecord} (halone : queue.Alone record)
    (hid : updated.id = record.id) (hupdated : record.terminal = true → updated = record) :
    (queue.replaceRecord updated).Settled ∧ queue.Keeps (queue.replaceRecord updated) := by
  have hkeeps (old : DrainRecord) (hold : old ∈ queue.records) :=
    halone.replaced hid hupdated hold
  constructor
  · calc (queue.replaceRecord updated).pendingCount
        ≤ queue.pendingCount := by
          rw [DrainQueue.pendingCount, DrainQueue.replaceRecord, List.countP_map]
          refine List.countP_mono_left fun old hold hpending => ?_
          cases hterminal : old.terminal with
          | false => rfl
          | true =>
            rw [Function.comp_apply, hkeeps old hold hterminal, hterminal] at hpending
            exact hpending
      _ ≤ queue.bounds.maxPending := h
  · intro i old hi hterminal
    have hold := List.mem_of_getElem? hi
    simp only [DrainQueue.replaceRecord, List.getElem?_map, hi, Option.map_some]
    rw [hkeeps old hold hterminal]

theorem DrainQueue.Settled.enqueue {queue : DrainQueue} (h : queue.Settled)
    (intent : DrainIntent) (now : ℚ) :
    (queue.enqueue intent now).queue.Settled ∧ queue.Keeps (queue.enqueue intent now).queue := by
  rcases enqueue_cases queue intent now with ⟨-, hsame⟩ | ⟨-, hroom, hqueue⟩
  · rw [hsame]
    exact ⟨h, fun _ _ hi _ => hi⟩
  · rw [hqueue]
    constructor
    · have hone : List.countP (fun record : DrainRecord => !record.terminal)
          [DrainRecord.pending intent queue.bounds now] = 1 := rfl
      simp only [DrainQueue.Settled, DrainQueue.pendingCount, List.countP_append, hone]
      exact hroom
    · intro i record hi _
      rw [List.getElem?_append_left (List.getElem?_eq_some_iff.mp hi).1]
      exact hi

theorem DrainStep.Fits.settled {queue : DrainQueue} {step : DrainStep} (hfits : step.Fits queue)
    (h : queue.Settled) : (step.apply queue).Settled ∧ queue.Keeps (step.apply queue) := by
  cases step with
  | enqueue intent now => exact h.enqueue intent now
  | transition record now isBusy =>
    exact h.replaceRecord hfits (planDrainTransition_id record now isBusy)
      fun hterminal => planDrainTransition_terminal hterminal now isBusy
  | retire record now =>
    exact h.replaceRecord hfits (retireRecord_id record now)
      fun hterminal => retireRecord_terminal hterminal now

/-! ### Runs -/

/-- Every step of the run fits the queue that it is applied to. -/
def FittingRun (queue : DrainQueue) : List DrainStep → Prop
  | [] => True
  | step :: steps => step.Fits queue ∧ FittingRun (step.apply queue) steps

theorem fittingRun_append {queue : DrainQueue} {before after : List DrainStep} :
    FittingRun queue (before ++ after) ↔
      FittingRun queue before ∧ FittingRun (runDrain queue before) after := by
  induction before generalizing queue with
  | nil => simp [FittingRun, runDrain]
  | cons step steps ih =>
    rw [List.cons_append, FittingRun, FittingRun, ih, and_assoc]
    rfl

theorem FittingRun.settled {queue : DrainQueue} {steps : List DrainStep}
    (hrun : FittingRun queue steps) (h : queue.Settled) :
    (runDrain queue steps).Settled ∧ queue.Keeps (runDrain queue steps) := by
  induction steps generalizing queue with
  | nil => exact ⟨h, fun _ _ hi _ => hi⟩
  | cons step steps ih =>
    obtain ⟨hfits, hrun⟩ := hrun
    obtain ⟨hsettled, hkeeps⟩ := hfits.settled h
    obtain ⟨hlast, hrest⟩ := ih hrun hsettled
    exact ⟨hlast, fun i record hi hterminal =>
      hrest i record (hkeeps i record hi hterminal) hterminal⟩

theorem runDrain_bounds (queue : DrainQueue) (steps : List DrainStep) :
    (runDrain queue steps).bounds = queue.bounds := by
  induction steps generalizing queue with
  | nil => rfl
  | cons step steps ih =>
    have hstep : (step.apply queue).bounds = queue.bounds := by
      cases step with
      | enqueue intent now =>
        rcases enqueue_cases queue intent now with ⟨-, hsame⟩ | ⟨-, -, hqueue⟩
        · exact congrArg DrainQueue.bounds hsame
        · exact (congrArg DrainQueue.bounds hqueue).trans rfl
      | transition => rfl
      | retire => rfl
    exact (ih (step.apply queue)).trans hstep

theorem finished_records_stay (bounds : DrainBounds) (before after : List DrainStep)
    (hrun : FittingRun (.empty bounds) (before ++ after)) :
    (runDrain (.empty bounds) before).pendingCount ≤ bounds.maxPending ∧
      ∀ (i : ℕ) (record : DrainRecord),
        (runDrain (.empty bounds) before).records[i]? = some record → record.terminal = true →
        (runDrain (.empty bounds) (before ++ after)).records[i]? = some record := by
  obtain ⟨hbefore, hafter⟩ := fittingRun_append.mp hrun
  obtain ⟨hsettled, -⟩ := hbefore.settled (empty_settled bounds)
  constructor
  · rwa [DrainQueue.Settled, runDrain_bounds] at hsettled
  · have hkeeps := (hafter.settled hsettled).2
    rw [← show runDrain (runDrain (.empty bounds) before) after =
      runDrain (.empty bounds) (before ++ after) from (List.foldl_append ..).symm]
    exact hkeeps

private def oneAtATime : DrainBounds where
  maxPending := 1
  timeout := 10
  maxAge := 60
  maxPending_pos := Nat.one_pos
  timeout_pos := by norm_num
  maxAge_pos := by norm_num

private def unloadIntent : DrainIntent where
  intentId := "drain_1"
  intentKind := .unload
  agentName := "agent1"
  createdAt := 0
  reason := none
  oldConfigSignature := none
  newConfigSignature := none
  intentId_ne := by decide
  agentName_ne := by decide

/-- The record of an intent that was taken at time 0 and ran out of time at 10. -/
private def timedOutRecord : DrainRecord :=
  planDrainTransition (.pending unloadIntent oneAtATime 0) 10 fun _ => true

private def timedOutRun : List DrainStep :=
  [.enqueue unloadIntent 0, .transition (.pending unloadIntent oneAtATime 0) 10 fun _ => true]

theorem finished_records_stay_timedOut :
    (runDrain (.empty oneAtATime) timedOutRun).pendingCount ≤ 1 ∧
      (runDrain (.empty oneAtATime)
        (timedOutRun ++ [.transition timedOutRecord 20 fun _ => true])).records[0]? =
        some timedOutRecord := by
  have hrun : FittingRun (.empty oneAtATime)
      (timedOutRun ++ [.transition timedOutRecord 20 fun _ => true]) := by
    simp only [timedOutRun, List.cons_append, List.nil_append, FittingRun, DrainStep.Fits,
      DrainQueue.Alone]
    decide +kernel
  obtain ⟨hbounded, hkeeps⟩ := finished_records_stay oneAtATime timedOutRun _ hrun
  exact ⟨hbounded, hkeeps 0 timedOutRecord (by decide +kernel) (by decide +kernel)⟩

private def takenAgain : List DrainStep :=
  [.enqueue unloadIntent 20, .transition (.pending unloadIntent oneAtATime 20) 25 fun _ => true]

/-- The same intent, taken again after its time was up: one more look at the new record puts the
finished one back among those that wait, and there are two where one may be. -/
theorem finished_record_waits_again :
    (¬ ∀ (bounds : DrainBounds) (before after : List DrainStep) (i : ℕ) (record : DrainRecord),
      (runDrain (.empty bounds) before).records[i]? = some record → record.terminal = true →
      (runDrain (.empty bounds) (before ++ after)).records[i]? = some record) ∧
    ¬ ∀ (bounds : DrainBounds) (steps : List DrainStep),
      (runDrain (.empty bounds) steps).pendingCount ≤ bounds.maxPending := by
  constructor
  · intro hstays
    have hchanged := hstays oneAtATime timedOutRun takenAgain 0 timedOutRecord (by decide +kernel)
      (by decide +kernel)
    exact absurd hchanged (by decide +kernel)
  · intro hbounded
    exact absurd (hbounded oneAtATime (timedOutRun ++ takenAgain)) (by decide +kernel)

end CodexBridge.Reload
