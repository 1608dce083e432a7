import CodexBridge.Execution.Active
import CodexBridge.Execution.Jobs

/-! A terminal decision that was saved before a crash. After the restart the job is
completed with it when nothing is left to replay, or when the adapter takes the
submission up again; otherwise the restore is abandoned and the decision with it. -/

namespace CodexBridge.Execution.System

open Completion

section Restart

variable {World : Type} (lib : Library) (registry : Registry World) (job : Job)

/-! ### What a completion leaves -/

theorem complete_running {s : System} (h : s.terminalDecision = none) (evidence : Evidence)
    (decision : Decision) :
    (s.complete evidence decision).terminalDecision =
      some (mergeTerminalDecision evidence decision) := by
  simp [complete, h, conclude, finish]

theorem complete_ended {s : System} {ended : Decision} (h : s.terminalDecision = some ended)
    (evidence : Evidence) (decision : Decision) : s.complete evidence decision = s := by
  simp [complete, h]

theorem tickTracker_ended {s : System} {ended : Decision} (h : s.terminalDecision = some ended)
    (evidence : Evidence) : (s.tickTracker evidence).terminalDecision = some ended := by
  simp only [tickTracker]
  split
  · rw [complete_ended h, h]
  · exact h

@[simp] theorem ingestItem_terminalDecision (s : System) (item : Item) :
    (s.ingestItem item).terminalDecision = s.terminalDecision := rfl

theorem foldl_ingestItem_terminalDecision (items : List Item) (s : System) :
    (items.foldl ingestItem s).terminalDecision = s.terminalDecision := by
  induction items generalizing s with
  | nil => rfl
  | cons item items ih => rw [List.foldl_cons, ih, ingestItem_terminalDecision]

/-- An update that brings a decision ends the job with it. -/
theorem ingestUpdate_decision {s : System} (h : s.terminalDecision = none) (evidence : Evidence)
    (items : List Item) (decision : Decision) :
    (s.ingestUpdate evidence ⟨items, some decision⟩).terminalDecision =
      some (mergeTerminalDecision evidence decision) := by
  have hrunning : (items.foldl ingestItem s).terminalDecision = none := by
    rw [foldl_ingestItem_terminalDecision, h]
  simp only [ingestUpdate, h, Option.isSome_none, Bool.false_eq_true, if_false, settleUpdate,
    resolveUpdateDecision, Option.some_or]
  exact complete_running hrunning evidence decision

/-- A job that has ended stays as it is through a poll. -/
theorem pollCompletionUpdates_ended {s : System} {ended : Decision}
    (h : s.terminalDecision = some ended) (ingested ticked : Evidence) (w : World) (now : String) :
    (s.pollCompletionUpdates lib registry ingested ticked w now).terminalDecision = some ended := by
  simp only [pollCompletionUpdates]
  split
  · exact tickTracker_ended (s := { s with service := (s.service.poll lib registry w now).1 }) h
      ticked
  · refine tickTracker_ended ?_ ticked
    simp [ingestUpdate, h, finish]

/-! ### The restart -/

/-- The reasons the dispatcher itself gives to a job it cannot restore. -/
def restartReasons : List String :=
  ["ccbd_restart_requires_resubmit", "reply_delivery_restart_requeued"]

/-- The job ended with the status, the reason and the reply of a decision that is not one
of the restart failures; an empty reply may be filled in from what the tracker saw. -/
def EndsWith (s : System) (d : Decision) : Prop :=
  ∃ ended, s.terminalDecision = some ended ∧ ended.status = d.status ∧ ended.reason = d.reason ∧
    (d.reply ≠ "" → ended.reply = d.reply) ∧ ∀ reason ∈ restartReasons, ended.reason ≠ some reason

/-- The adapter of the job takes the persisted submission up again. -/
def Resumes (persisted : PersistedExecutionState) (w : World) : Prop :=
  ∃ adapter resume, registry job.provider = some adapter ∧ adapter.resume = some resume ∧
    persisted.resumeCapable = true ∧
    (resume persisted.submission (job.runtimeContext.or persisted.runtimeContext) w).isSome

/-- What the restart finds of the execution of a job. -/
def found (persisted : PersistedExecutionState) (events : List JobEvent) : System :=
  ⟨Service.restarted (some persisted), none, events⟩

/-- The state file belongs to a provider that is still there, the job delivers no reply, and
nothing is left to replay or the submission is taken up again. -/
structure Recoverable (persisted : PersistedExecutionState) (w : World) : Prop where
  request : job.replyDelivery = false
  adapter : (registry job.provider).isSome
  provider : persisted.submission.provider = job.provider
  replay : filterPendingItems persisted = [] ∨ Resumes registry job persisted w

theorem mergeTerminalDecision_reply (evidence : Evidence) {d : Decision} (h : d.reply ≠ "") :
    (mergeTerminalDecision evidence d).reply = d.reply := by
  simp [mergeTerminalDecision, orElse, h]

theorem endsWith_of_merged {s : System} {d : Decision} {evidence : Evidence}
    (h : s.terminalDecision = some (mergeTerminalDecision evidence d))
    (hreason : ∀ reason ∈ restartReasons, d.reason ≠ some reason) : s.EndsWith d :=
  ⟨_, h, rfl, rfl, mergeTerminalDecision_reply evidence, hreason⟩

/-- A job that ends with a decision of the restart does not end with another one. -/
theorem not_endsWith_of_restart {s : System} {d failure : Decision} {evidence : Evidence}
    {reason : String} (h : s.terminalDecision = some (mergeTerminalDecision evidence failure))
    (hreason : failure.reason = some reason) (hmem : reason ∈ restartReasons) :
    ¬ s.EndsWith d := by
  rintro ⟨ended, hended, -, -, -, hother⟩
  rw [h, Option.some_inj] at hended
  apply hother reason hmem
  rw [← hended]
  exact hreason

section Branches

variable {persisted : PersistedExecutionState} {d : Decision} (events : List JobEvent)
  (evidence : Evidence) (w : World) (now : String)

/-- What a restore of a running job comes to, by the result of the service. -/
theorem restoreCurrentJob_eq {s : System} (hrunning : s.terminalDecision = none)
    (hrequest : job.replyDelivery = false) {service : Service}
    {result : Service.ExecutionRestoreResult}
    (hresult : s.service.restoreSubmission registry job.provider job.runtimeContext w =
      (service, result)) :
    s.restoreCurrentJob registry job evidence w now =
      match result.status, result.decision with
      | .terminalPending, some decision =>
        (System.mk service none s.events).complete evidence decision
      | _, _ =>
        if result.restored then System.mk service none s.events
        else (System.mk service none s.events).failRestore evidence result now := by
  obtain ⟨own, decision, logged⟩ := s
  obtain rfl : decision = none := hrunning
  have hopen : ¬ (none : Option Decision).isSome = true := by simp
  have hown : ¬ job.replyDelivery = true := by simp [hrequest]
  obtain rfl : _ = service := congrArg Prod.fst hresult
  obtain rfl : _ = result := congrArg Prod.snd hresult
  exact (if_neg hopen).trans (if_neg hown)

theorem restoreCurrentJob_of_failed {s : System} (hrunning : s.terminalDecision = none)
    (hrequest : job.replyDelivery = false) {service : Service}
    {result : Service.ExecutionRestoreResult}
    (hresult : s.service.restoreSubmission registry job.provider job.runtimeContext w =
      (service, result)) (hfailed : result.restored = false) :
    s.restoreCurrentJob registry job evidence w now =
      (System.mk service none s.events).failRestore evidence result now := by
  rw [restoreCurrentJob_eq registry job evidence w now hrunning hrequest hresult]
  split
  · rename_i hstatus _
    simp [Service.ExecutionRestoreResult.restored, hstatus] at hfailed
  · simp [hfailed]

/-- The service finds a state file of the provider. -/
theorem restoreSubmission_found {sv : Service} (hactive : sv.active = none)
    {persisted : PersistedExecutionState} (hstore : sv.store = some persisted)
    {adapter : Adapter World} (ha : registry job.provider = some adapter)
    (hprovider : persisted.submission.provider = job.provider) :
    sv.restoreSubmission registry job.provider job.runtimeContext w =
      if persisted.pendingDecision.isSome ∧ filterPendingItems persisted = [] then
        (sv.recoverPendingItems persisted, ⟨.terminalPending, "terminal_decision_recovered",
          persisted.resumeCapable, 0, persisted.pendingDecision⟩)
      else
        match Service.resumeOrReason adapter persisted
            (job.runtimeContext.or persisted.runtimeContext) w with
        | .error reason => (sv.recoverPendingItems persisted).abandonRestore reason
            persisted.resumeCapable (filterPendingItems persisted).length
        | .ok submission => ((sv.recoverPendingItems persisted).persistRestoredSubmission registry
            submission (job.runtimeContext.or persisted.runtimeContext) persisted,
              Service.restoredResult (filterPendingItems persisted)) := by
  have hfree : ¬ sv.active.isSome = true := by simp [hactive]
  refine (if_neg hfree).trans ?_
  rw [ha, hstore]
  exact if_neg (not_not.mpr hprovider)

/-- Nothing is left to replay: the restore completes the job. -/
theorem restoreCurrentJob_terminalPending (hd : persisted.pendingDecision = some d)
    (hrequest : job.replyDelivery = false) (hadapter : (registry job.provider).isSome)
    (hprovider : persisted.submission.provider = job.provider)
    (hreplay : filterPendingItems persisted = []) :
    ((found persisted events).restoreCurrentJob registry job evidence w now).terminalDecision =
      some (mergeTerminalDecision evidence d) := by
  obtain ⟨adapter, ha⟩ := Option.isSome_iff_exists.mp hadapter
  simp [restoreCurrentJob, found, hrequest, Service.restoreSubmission, Service.restarted, ha,
    hprovider, hd, hreplay, complete_running]

/-- There is something to replay and the submission is taken up again: the replay waits. -/
theorem restoreCurrentJob_replayPending (hrequest : job.replyDelivery = false)
    (hprovider : persisted.submission.provider = job.provider)
    (hreplay : filterPendingItems persisted ≠ []) (hresumes : Resumes registry job persisted w) :
    ∃ s', (found persisted events).restoreCurrentJob registry job evidence w now = s' ∧
      s'.terminalDecision = none ∧ s'.service.active.isSome ∧
      s'.service.pendingReplay =
        some ⟨filterPendingItems persisted, persisted.pendingDecision⟩ := by
  obtain ⟨adapter, resume, ha, hresume, hcapable, hsub⟩ := hresumes
  obtain ⟨submission, hsub⟩ := Option.isSome_iff_exists.mp hsub
  refine ⟨_, rfl, ?_⟩
  simp [restoreCurrentJob, found, hrequest, Service.restoreSubmission, Service.restarted, ha,
    hprovider, hreplay, Service.resumeOrReason, hresume, hcapable, hsub,
    Service.recoverPendingItems, Service.persistRestoredSubmission, Service.persistSubmission,
    Service.save, Service.restoredResult, Service.ExecutionRestoreResult.restored]

/-- Why nothing takes the submission up again. -/
def Lost (persisted : PersistedExecutionState) (w : World) : Prop :=
  (registry job.provider).isSome = false ∨ persisted.submission.provider ≠ job.provider ∨
    (filterPendingItems persisted ≠ [] ∧ ¬ Resumes registry job persisted w)

theorem restoreSubmission_abandoned (hlost : Lost registry job persisted w) :
    ((Service.restarted (some persisted)).restoreSubmission registry job.provider
      job.runtimeContext w).2.status = .abandoned := by
  simp only [Service.restoreSubmission, Service.restarted, Option.isSome_none, Bool.false_eq_true,
    if_false]
  cases ha : registry job.provider with
  | none => rfl
  | some adapter =>
    by_cases hprovider : persisted.submission.provider = job.provider
    · obtain hnone | hother | ⟨hreplay, hresumes⟩ := hlost
      · simp [ha] at hnone
      · exact absurd hprovider hother
      · cases hr : Service.resumeOrReason adapter persisted
            (job.runtimeContext.or persisted.runtimeContext) w with
        | error reason => simp [hprovider, hreplay, hr, Service.abandonRestore]
        | ok submission =>
          refine absurd ?_ hresumes
          simp only [Service.resumeOrReason] at hr
          split at hr
          · cases hr
          · rename_i resume hresume
            split_ifs at hr with hcapable
            split at hr
            · cases hr
            · rename_i resumed hsub
              exact ⟨adapter, resume, ha, hresume, by simpa using hcapable, by rw [hsub]; rfl⟩
    · simp [hprovider, Service.abandonRestore]

/-- Nothing takes the submission up again: the job fails. -/
theorem restoreCurrentJob_failed (hrequest : job.replyDelivery = false)
    (hlost : Lost registry job persisted w) :
    ∃ result, ((found persisted events).restoreCurrentJob registry job evidence w
      now).terminalDecision =
        some (mergeTerminalDecision evidence (failedRestoreDecision now result)) := by
  have hstatus := restoreSubmission_abandoned registry job w hlost
  rw [restoreCurrentJob_of_failed registry job evidence w now rfl hrequest rfl
    (by rw [Service.ExecutionRestoreResult.restored]; exact hstatus ▸ rfl)]
  exact ⟨_, complete_running rfl evidence _⟩

theorem restoreCurrentJob_delivery (persisted : PersistedExecutionState)
    (hdelivery : job.replyDelivery = true) :
    ∃ diagnostics, ((found persisted events).restoreCurrentJob registry job evidence w
      now).terminalDecision =
        some (mergeTerminalDecision evidence (replyDeliveryFailedDecision job now
          "reply_delivery_restart_requeued" diagnostics)) := by
  refine ⟨[("restore_status", .str "abandoned"),
    ("restore_reason", .str "reply_delivery_does_not_resume")], ?_⟩
  simp only [restoreCurrentJob, found, hdelivery, Option.isSome_none, Bool.false_eq_true, if_false,
    if_true]
  exact complete_running rfl evidence _

/-- A poll with a replay in hand whose decision is there ends the job with it. -/
theorem pollCompletionUpdates_replay {s : System} (hrunning : s.terminalDecision = none)
    {items : List Item} (hreplay : s.service.pendingReplay = some ⟨items, some d⟩)
    (ingested ticked : Evidence) :
    (s.pollCompletionUpdates lib registry ingested ticked w now).terminalDecision =
      some (mergeTerminalDecision ingested d) := by
  simp only [pollCompletionUpdates, Service.poll, hreplay]
  split_ifs <;>
    exact tickTracker_ended (ingestUpdate_decision (by exact hrunning) ingested items d) ticked

end Branches

/-- A saved terminal decision survives a restart exactly when the execution can be recovered
and the decision is not itself one of the restart failures. -/
theorem decision_survives_restart_iff (persisted : PersistedExecutionState) (d : Decision)
    (hd : persisted.pendingDecision = some d) (events : List JobEvent)
    (restored ingested ticked : Evidence) (w w' : World) (now now' : String) :
    (((found persisted events).restoreCurrentJob registry job restored w now).pollCompletionUpdates
        lib registry ingested ticked w' now').EndsWith d ↔
      Recoverable registry job persisted w ∧
        ∀ reason ∈ restartReasons, d.reason ≠ some reason := by
  constructor
  · intro hends
    refine ⟨?_, ?_⟩
    · by_contra hlost
      obtain hdelivery | hrequest : job.replyDelivery = true ∨ job.replyDelivery = false := by
        cases job.replyDelivery <;> simp
      · obtain ⟨diagnostics, hended⟩ := restoreCurrentJob_delivery registry job events restored
          w now persisted hdelivery
        exact not_endsWith_of_restart
          (pollCompletionUpdates_ended lib registry hended ingested ticked w' now') rfl
          (by simp [restartReasons]) hends
      · have hlost : Lost registry job persisted w := by
          by_contra hkept
          simp only [Lost, not_or, not_and, not_not, Bool.not_eq_false] at hkept
          refine hlost ⟨hrequest, hkept.1, hkept.2.1, ?_⟩
          by_cases hreplay : filterPendingItems persisted = []
          · exact Or.inl hreplay
          · exact Or.inr (hkept.2.2 hreplay)
        obtain ⟨result, hended⟩ := restoreCurrentJob_failed registry job events restored w now
          hrequest hlost
        exact not_endsWith_of_restart
          (pollCompletionUpdates_ended lib registry hended ingested ticked w' now') rfl
          (by simp [restartReasons]) hends
    · obtain ⟨ended, -, -, hreason, -, hother⟩ := hends
      rwa [hreason] at hother
  · rintro ⟨⟨hrequest, hadapter, hprovider, hreplay⟩, hreason⟩
    by_cases hnothing : filterPendingItems persisted = []
    · have hended := restoreCurrentJob_terminalPending registry job events restored w now
        hd hrequest hadapter hprovider hnothing
      exact endsWith_of_merged
        (pollCompletionUpdates_ended lib registry hended ingested ticked w' now') hreason
    · obtain ⟨s', hs', hrunning, -, hpending⟩ := restoreCurrentJob_replayPending registry job
        events restored w now hrequest hprovider hnothing (hreplay.resolve_left hnothing)
      rw [hs']
      rw [hd] at hpending
      exact endsWith_of_merged
        (pollCompletionUpdates_replay lib registry w' now' hrunning hpending ingested ticked)
        hreason

end Restart

/-! ### The pane that died before the crash -/

namespace Sample

def lib : Library :=
  { str := fun _ => ""
    elapsed := fun _ _ => none
    deadlineAt := fun _ _ => none }

def context : RuntimeContext := ⟨some "/work", some "pane-backed"⟩

def submission : Submission :=
  { jobId := "job_1"
    provider := "codex"
    acceptedAt := "2026-03-18T00:00:00Z"
    readyAt := "2026-03-18T00:00:00Z"
    sourceKind := .protocolEventStream
    reply := ""
    status := .incomplete
    reason := "in_progress"
    confidence := .observed
    diagnostics := []
    runtimeState := [("mode", .str "active"), ("next_seq", .int 1)] }

/-- An adapter over a pane that is alive or not. -/
def adapter : Adapter Bool :=
  { start := fun _ _ => submission
    poll := fun sub alive =>
      if alive then none else some (Active.paneDeadResult sub Active.Sample.now "pane_dead")
    exportRuntimeState := some fun sub => some sub.runtimeState
    resume := some fun sub context _ => Active.resumeActiveSubmission sub context (some "%1")
    restoreCapability := []
    reliabilityPolicy := none }

def registry : Registry Bool := fun provider => if provider = "codex" then some adapter else none

def job : Job := ⟨"job_1", "codex", false, some context⟩

/-- The poll that finds the pane dead. -/
def dead : PollResult := Active.paneDeadResult submission Active.Sample.now "pane_dead"

/-- The state file that poll leaves. -/
def persisted : PersistedExecutionState :=
  Service.persistedState registry dead.submission (some context) dead.decision dead.items ∅

def evidence : Evidence := ⟨none, none⟩

theorem pending_item_unapplied : filterPendingItems persisted ≠ [] := by
  intro h
  have hlength : (filterPendingItems persisted).length = 1 := rfl
  rw [h] at hlength
  exact absurd hlength (by decide)

theorem passive_not_resumed (alive : Bool) : ¬ Resumes registry job persisted alive := by
  rintro ⟨a, resume, ha, hresume, -, hsub⟩
  obtain rfl : adapter = a := by simpa [registry, job] using ha
  have hmode : Active.resumeActiveSubmission persisted.submission (some context) (some "%1") =
      none := by
    decide +kernel
  rw [show resume persisted.submission _ alive = none from by
    rw [← Option.some_inj.mp hresume]; exact hmode] at hsub
  exact absurd hsub (by decide)

theorem persisted_lost : Lost registry job persisted true :=
  Or.inr (Or.inr ⟨pending_item_unapplied, passive_not_resumed true⟩)

end Sample

/-- The pane dies, the poll saves the failure with its item, and the daemon crashes: the
submission is passive by then, so the restart abandons it and the job is told to resubmit. -/
theorem pane_dead_decision_lost :
    ¬ ∀ (submission : Submission) (context : Option RuntimeContext) (d : Decision)
      (items : List Item) (seqs : Finset ℕ), d.terminal = true →
        (((found (Service.persistedState Sample.registry submission context (some d) items seqs)
            []).restoreCurrentJob Sample.registry Sample.job Sample.evidence true
              "2026-03-18T00:01:00Z").pollCompletionUpdates Sample.lib Sample.registry
                Sample.evidence Sample.evidence true "2026-03-18T00:01:01Z").EndsWith d := by
  intro h
  obtain ⟨d, hd⟩ : ∃ d, Sample.dead.decision = some d := ⟨_, rfl⟩
  have hends := h Sample.dead.submission (some Sample.context) d Sample.dead.items ∅
    (Sample.dead.terminal d hd)
  rw [← hd] at hends
  obtain ⟨result, hended⟩ := restoreCurrentJob_failed Sample.registry Sample.job []
    Sample.evidence true "2026-03-18T00:01:00Z" rfl Sample.persisted_lost
  exact not_endsWith_of_restart
    (pollCompletionUpdates_ended Sample.lib Sample.registry hended Sample.evidence Sample.evidence
      true "2026-03-18T00:01:01Z") rfl (by simp [restartReasons]) hends

/-- With the item applied before the crash the restart keeps the decision. -/
theorem pane_dead_decision_kept :
    (((found { Sample.persisted with appliedEventSeqs := {1} } []).restoreCurrentJob
        Sample.registry Sample.job Sample.evidence true
          "2026-03-18T00:01:00Z").pollCompletionUpdates
          Sample.lib Sample.registry Sample.evidence Sample.evidence true
            "2026-03-18T00:01:01Z").EndsWith (Sample.dead.decision.get rfl) :=
  (decision_survives_restart_iff Sample.lib Sample.registry Sample.job
    { Sample.persisted with appliedEventSeqs := {1} } (Sample.dead.decision.get rfl) rfl []
      Sample.evidence Sample.evidence Sample.evidence true true "2026-03-18T00:01:00Z"
        "2026-03-18T00:01:01Z").mpr
    ⟨⟨rfl, rfl, rfl, Or.inl rfl⟩, by decide⟩

end CodexBridge.Execution.System
