import CodexBridge.Names
import CodexBridge.Providers.Adapters
import Mathlib.Tactic.Linarith

/-! The reliability timeout of a job. The time of the last progress is a text in the runtime state
of a submission: the service writes it, the adapters and the state file carry it along. In every
run of polls and restarts it is no earlier than any progress, so a job that times out has been
silent for as long as the timeout. -/

namespace CodexBridge.Providers

open Completion Execution

variable {host : Host} {job : Job}

/-! ### The time of the last progress -/

/-- Times in seconds, which the arithmetic on timestamps rests on. -/
structure Clock (host : Host) where
  time : String → Option ℚ
  elapsed_eq : ∀ startedAt now, host.elapsed startedAt now =
    (time startedAt).bind fun started => (time now).map fun now => now - started

abbrev lastProgressTimestamp (host : Host) (sub : Submission) : String :=
  Service.lastProgressTimestamp host.toLibrary sub

theorem Unstamped.lastProgressTimestamp {sub sub' : Submission} (h : Unstamped sub sub') :
    lastProgressTimestamp host sub' = lastProgressTimestamp host sub := by
  have hlast := h.lastProgress
  rw [lastProgressKey] at hlast
  simp only [Providers.lastProgressTimestamp, Service.lastProgressTimestamp, hlast, h.readyAt,
    h.acceptedAt]

theorem strip_empty : strip "" = "" := by decide

@[simp] theorem textOf_null : host.textOf .null = "" := rfl

/-- A stamp that is set is the time of the last progress. -/
theorem lastProgressTimestamp_of_stamp {sub : Submission} {at_ : String}
    (hstamp : strip (host.textOf (sub.runtimeState.get lastProgressKey)) = at_) (hne : at_ ≠ "") :
    lastProgressTimestamp host sub = at_ := by
  rw [lastProgressKey] at hstamp
  rw [lastProgressTimestamp, Service.lastProgressTimestamp, hstamp, orElse, if_neg hne]

theorem lastProgressTimestamp_withLastProgressAt (sub : Submission) (w : World) :
    lastProgressTimestamp host (Service.withLastProgressAt host.toLibrary sub w.now.text) =
      w.now.text := by
  refine lastProgressTimestamp_of_stamp ?_ w.now.nonempty
  rw [Service.withLastProgressAt]
  split
  · rename_i hstamp
    exact hstamp
  · have hget : (override sub.runtimeState
        [("reliability_last_progress_at", .str w.now.text)]).get lastProgressKey =
          .str w.now.text := by
      simp [get_override, lastProgressKey]
    rw [hget, Host.textOf_str, w.now_stripped]

/-- Until the first progress it is the time the submission was ready. -/
theorem JustStarted.lastProgressTimestamp {w : World} {sub : Submission}
    (h : JustStarted job w sub) : lastProgressTimestamp host sub = w.now.text := by
  have hlast := h.lastProgress
  rw [lastProgressKey] at hlast
  have hready : orElse w.now.text sub.acceptedAt = w.now.text := if_neg w.now.nonempty
  have hnone (text : String) : orElse "" text = text := if_pos rfl
  simp only [Providers.lastProgressTimestamp, Service.lastProgressTimestamp, hlast, textOf_null,
    strip_empty, h.readyAt, hready, w.now_stripped, hnone]

theorem strip_lastProgressTimestamp (sub : Submission) :
    strip (lastProgressTimestamp host sub) = lastProgressTimestamp host sub := by
  rw [lastProgressTimestamp, Service.lastProgressTimestamp, orElse]
  split
  · exact strip_strip _
  · exact strip_strip _

/-! ### The monitor -/

theorem timeoutPollResult_eq_some {adapter : Adapter World} {context : Option RuntimeContext}
    {sub : Submission} {now : String} {result : PollResult}
    (h : Service.timeoutPollResult host.toLibrary adapter context sub now = some result) :
    ∃ policy, adapter.reliabilityPolicy = some policy ∧ 0 < policy.noTerminalTimeout ∧
      Service.timeoutElapsed host.toLibrary (lastProgressTimestamp host sub) now
        policy.noTerminalTimeout = true ∧
      result = Service.buildTimeoutResult host.toLibrary sub now (lastProgressTimestamp host sub)
        policy := by
  simp only [Service.timeoutPollResult, Option.bind_eq_some_iff] at h
  obtain ⟨policy, hpolicy, h⟩ := h
  split_ifs at h with _ hpositive helapsed
  cases h
  exact ⟨policy, hpolicy, lt_of_not_ge hpositive, helapsed, rfl⟩

/-- A job that times out keeps the time of its last progress. -/
theorem lastProgressTimestamp_timeout {adapter : Adapter World} {context : Option RuntimeContext}
    {sub : Submission} {now : String} {result : PollResult}
    (h : Service.timeoutPollResult host.toLibrary adapter context sub now = some result) :
    lastProgressTimestamp host result.submission = lastProgressTimestamp host sub ∧
      result.submission.readyAt = sub.readyAt := by
  obtain ⟨policy, -, -, helapsed, rfl⟩ := timeoutPollResult_eq_some h
  have hne : lastProgressTimestamp host sub ≠ "" := by
    simp only [Service.timeoutElapsed, Bool.and_eq_true, decide_eq_true_eq] at helapsed
    exact helapsed.1
  refine ⟨lastProgressTimestamp_of_stamp ?_ hne, rfl⟩
  have hget : (Service.buildTimeoutResult host.toLibrary sub now (lastProgressTimestamp host sub)
      policy).submission.runtimeState.get lastProgressKey =
        .str (lastProgressTimestamp host sub) := by
    simp [Service.buildTimeoutResult, get_override, lastProgressKey]
  rw [hget, Host.textOf_str, strip_lastProgressTimestamp]

/-! ### Runs -/

/-- A poll of the adapter, and whether it made progress. -/
structure PollRecord where
  time : ℚ
  progress : Bool

/-- What the monitor makes of a poll of the adapter, if there is one: a poll that brings a replay
does not reach the adapter. -/
def madeProgress (host : Host) (registry : Registry World) (sv : Service) (w : World) : Bool :=
  match sv.pendingReplay, sv.active with
  | none, some sub =>
    (registry sub.provider).any fun adapter =>
      (adapter.poll sub w).any fun polled =>
        Service.hasReliabilityProgress host.toLibrary polled sub
  | _, _ => false

variable (clock : Clock host) (job : Job)

/-- The runs of a job that began at `began`, and its polls, the last one first. The clock does not
go back, and a restart finds the state file; each daemon has timeouts of its own. -/
inductive Runs (began : ℚ) : Service → List PollRecord → Prop
  | start (timeouts : String → ℚ) (context : Option RuntimeContext) (w : World)
    (htime : clock.time w.now.text = some began) :
    Runs began ((Service.restarted none).start (monitoredRegistry host job timeouts) job.provider
      context w) []
  | poll {sv : Service} {history : List PollRecord} (h : Runs began sv history)
    (timeouts : String → ℚ) (w : World) (now : ℚ) (htime : clock.time w.now.text = some now)
    (hbegan : began ≤ now) (hlater : ∀ record ∈ history, record.time ≤ now) :
    Runs began
      (sv.poll host.toLibrary (monitoredRegistry host job timeouts) w w.now.text).1
      (⟨now, madeProgress host (monitoredRegistry host job timeouts) sv w⟩ :: history)
  | acknowledge {sv : Service} {history : List PollRecord} (h : Runs began sv history) :
    Runs began sv.acknowledge history
  | acknowledgeItem {sv : Service} {history : List PollRecord} (h : Runs began sv history)
    (eventSeq : Option ℕ) : Runs began (sv.acknowledgeItem eventSeq) history
  | finish {sv : Service} {history : List PollRecord} (h : Runs began sv history) :
    Runs began sv.finish history
  | restart {sv : Service} {history : List PollRecord} (h : Runs began sv history)
    (timeouts : String → ℚ) (context : Option RuntimeContext) (w : World) :
    Runs began ((Service.restarted sv.store).restoreSubmission
      (monitoredRegistry host job timeouts) job.provider context w).1 history

/-! ### The invariant -/

/-- The submission has been ready since the job began, and no poll made progress after the time
of its last progress. -/
structure Stamped (began : ℚ) (history : List PollRecord) (sub : Submission) : Prop where
  ready : clock.time sub.readyAt = some began
  last : ∃ last, clock.time (lastProgressTimestamp host sub) = some last ∧ began ≤ last ∧
    ∀ record ∈ history, record.progress = true → record.time ≤ last

namespace Stamped

variable {clock} {began : ℚ} {history : List PollRecord} {sub sub' : Submission}

theorem of_same (h : Stamped clock began history sub) (hready : sub'.readyAt = sub.readyAt)
    (hlast : lastProgressTimestamp host sub' = lastProgressTimestamp host sub) :
    Stamped clock began history sub' where
  ready := by rw [hready, h.ready]
  last := by
    rw [hlast]
    exact h.last

theorem of_unstamped (h : Stamped clock began history sub) (hsub : Unstamped sub sub') :
    Stamped clock began history sub' :=
  h.of_same hsub.readyAt hsub.lastProgressTimestamp

/-- A poll without progress changes nothing. -/
theorem silent (h : Stamped clock began history sub) (now : ℚ) :
    Stamped clock began (⟨now, false⟩ :: history) sub where
  ready := h.ready
  last := by
    obtain ⟨last, htime, hbegan, hrecords⟩ := h.last
    exact ⟨last, htime, hbegan, List.forall_mem_cons.mpr ⟨nofun, hrecords⟩⟩

/-- A poll with progress is the last one. -/
theorem progressed (h : Stamped clock began history sub) {w : World} {now : ℚ}
    (htime : clock.time w.now.text = some now) (hbegan : began ≤ now)
    (hlater : ∀ record ∈ history, record.time ≤ now) :
    Stamped clock began (⟨now, true⟩ :: history)
      (Service.withLastProgressAt host.toLibrary sub w.now.text) where
  ready := by
    rw [← h.ready, Service.withLastProgressAt]
    split <;> rfl
  last := by
    rw [lastProgressTimestamp_withLastProgressAt]
    refine ⟨now, htime, hbegan, List.forall_mem_cons.mpr ⟨fun _ => le_rfl, ?_⟩⟩
    exact fun record hrecord _ => hlater record hrecord

end Stamped

/-- The submission in memory and the one in the state file. -/
structure Tracked (began : ℚ) (history : List PollRecord) (sv : Service) : Prop where
  active : ∀ sub, sv.active = some sub → Stamped clock began history sub
  store : ∀ persisted, sv.store = some persisted → Stamped clock began history persisted.submission

/-! ### Persisting -/

theorem lookup_filter_of_key {p : String → Bool} {key : String} (h : p key = true)
    (source : Payload) : (source.filter fun entry => p entry.1).lookup key = source.lookup key := by
  induction source with
  | nil => rfl
  | cons entry source ih =>
    obtain ⟨key', value⟩ := entry
    by_cases hkey : key = key'
    · subst hkey
      rw [List.filter_cons, if_pos h, List.lookup_cons_self, List.lookup_cons_self]
    · have hne : (key == key') = false := beq_false_of_ne hkey
      rw [List.filter_cons, List.lookup_cons, hne]
      split
      · rw [List.lookup_cons, hne]
        exact ih
      · exact ih

/-- `str(key).startswith('reliability_')` -/
abbrev isReliabilityKey (key : String) : Bool := "reliability_".toList <+: key.toList

theorem isReliabilityKey_lastProgress : isReliabilityKey lastProgressKey = true := by
  decide +kernel

section Steps

variable {clock job} {registry : Registry World}
  (hsteady : ∀ provider adapter, registry provider = some adapter → Steady job adapter)
include hsteady

/-- The stamp is kept whatever the adapter exports. -/
theorem persistedState_unstamped (sub : Submission) (context : Option RuntimeContext)
    (decision : Option Decision) (items : List Item) (seqs : Finset ℕ) :
    Unstamped sub (Service.persistedState registry sub context decision items seqs).submission where
  provider := rfl
  acceptedAt := rfl
  readyAt := rfl
  lastProgress := by
    have hexported : ((Service.exported (registry sub.provider) sub).getD []).lookup
        lastProgressKey = none := by
      cases hpayload : Service.exported (registry sub.provider) sub with
      | none => rfl
      | some payload =>
        simp only [Service.exported, Option.bind_eq_some_iff] at hpayload
        obtain ⟨adapter, hadapter, exporter, hexporter, hpayload⟩ := hpayload
        exact (hsteady _ adapter hadapter).exported exporter sub payload hexporter hpayload
    have hkept := lookup_filter_of_key isReliabilityKey_lastProgress sub.runtimeState
    simp only [Service.persistedState, Service.withReliabilityState, Payload.get, lookup_override,
      hexported, hkept, Option.or_none]

variable {began : ℚ} {history : List PollRecord} {sv : Service}

theorem tracked_persistSubmission {sub : Submission} (hactive : sv.active = some sub)
    (hsub : Stamped clock began history sub) (decision : Option Decision) (items : List Item)
    (seqs : Finset ℕ) :
    Tracked clock began history (sv.persistSubmission registry decision items seqs) := by
  rw [Service.persistSubmission, hactive]
  refine ⟨?_, ?_⟩
  · intro sub' hsub'
    have hsame : some sub = some sub' := hactive.symm.trans hsub'
    cases hsame
    exact hsub
  · rintro persisted ⟨⟩
    exact hsub.of_unstamped (persistedState_unstamped hsteady sub _ _ _ _)

/-! ### Polls -/

section Monitor

omit hsteady
variable {adapter : Adapter World} (hadapter : Steady job adapter) {context : Option RuntimeContext}
  {sub : Submission} {w : World} {now : ℚ} (hsub : Stamped clock began history sub)
include hsub

theorem Stamped.timeout {result : PollResult} {text : String}
    (h : Service.timeoutPollResult host.toLibrary adapter context sub text = some result) :
    Stamped clock began history result.submission :=
  hsub.of_same (lastProgressTimestamp_timeout h).2 (lastProgressTimestamp_timeout h).1

variable (htime : clock.time w.now.text = some now) (hbegan : began ≤ now)
  (hlater : ∀ record ∈ history, record.time ≤ now)
include hadapter htime hbegan hlater

/-- The progress of a poll is stamped on what the adapter makes of the submission. -/
theorem Stamped.applied {polled : PollResult} (hpolled : adapter.poll sub w = some polled) :
    Stamped clock began
      (⟨now, Service.hasReliabilityProgress host.toLibrary polled sub⟩ :: history)
      (Service.applyReliabilityProgress host.toLibrary polled sub w.now.text).submission := by
  have hkept := hsub.of_unstamped (hadapter.poll sub w polled hpolled)
  rw [Service.applyReliabilityProgress]
  split
  · rename_i hprogress
    rw [hprogress]
    dsimp only
    exact hkept.progressed htime hbegan hlater
  · rename_i hsilent
    rw [Bool.not_eq_true] at hsilent
    rw [hsilent]
    exact hkept.silent now

theorem Stamped.monitored {result : PollResult}
    (h : Service.monitoredPoll host.toLibrary adapter context sub w w.now.text = some result) :
    Stamped clock began
      (⟨now, (adapter.poll sub w).any fun polled =>
        Service.hasReliabilityProgress host.toLibrary polled sub⟩ :: history)
      result.submission := by
  rw [Service.monitoredPoll] at h
  cases hpolled : adapter.poll sub w with
  | none =>
    rw [hpolled] at h
    exact (hsub.silent now).timeout h
  | some polled =>
    have happlied := hsub.applied hadapter htime hbegan hlater hpolled
    rw [hpolled] at h
    dsimp only at h
    split at h
    · cases h
      exact happlied
    · cases htimedOut : Service.timeoutPollResult host.toLibrary adapter context
          (Service.applyReliabilityProgress host.toLibrary polled sub w.now.text).submission
          w.now.text with
      | none =>
        rw [htimedOut] at h
        cases h
        exact happlied
      | some timedOut =>
        rw [htimedOut] at h
        cases h
        exact happlied.timeout htimedOut

end Monitor

theorem Tracked.poll (h : Tracked clock began history sv) {w : World} {now : ℚ}
    (htime : clock.time w.now.text = some now) (hbegan : began ≤ now)
    (hlater : ∀ record ∈ history, record.time ≤ now) :
    Tracked clock began (⟨now, madeProgress host registry sv w⟩ :: history)
      (sv.poll host.toLibrary registry w w.now.text).1 := by
  have hsilent : Tracked clock began (⟨now, false⟩ :: history) sv :=
    ⟨fun sub hsub => (h.active sub hsub).silent now, fun persisted hp =>
      (h.store persisted hp).silent now⟩
  rw [Service.poll]
  cases hreplay : sv.pendingReplay with
  | some update =>
    have hprogress : madeProgress host registry sv w = false := by rw [madeProgress, hreplay]
    rw [hprogress]
    dsimp only
    split
    · exact hsilent
    · exact ⟨hsilent.active, hsilent.store⟩
  | none =>
    cases hactive : sv.active with
    | none =>
      have hprogress : madeProgress host registry sv w = false := by
        rw [madeProgress, hreplay, hactive]
      rw [hprogress]
      exact hsilent
    | some sub =>
      have hprogress : madeProgress host registry sv w =
          (registry sub.provider).any fun adapter => (adapter.poll sub w).any fun polled =>
            Service.hasReliabilityProgress host.toLibrary polled sub := by
        rw [madeProgress, hreplay, hactive]
      rw [hprogress]
      dsimp only
      rw [Service.processActiveJob]
      cases hadapter : registry sub.provider with
      | none => exact ⟨nofun, hsilent.store⟩
      | some adapter =>
        dsimp only [Option.any_some]
        cases hresult : Service.monitoredPoll host.toLibrary adapter sv.runtimeContext sub w
            w.now.text with
        | none =>
          have hquiet : adapter.poll sub w = none := by
            cases hpolled : adapter.poll sub w with
            | none => rfl
            | some polled =>
              rw [Service.monitoredPoll, hpolled] at hresult
              dsimp only at hresult
              split at hresult <;> cases hresult
          rw [hquiet]
          exact hsilent
        | some result =>
          have htracked : Tracked clock began
              (⟨now, (adapter.poll sub w).any fun polled =>
                Service.hasReliabilityProgress host.toLibrary polled sub⟩ :: history)
              (Service.persistSubmission registry { sv with active := some result.submission }
                result.decision result.items ∅) :=
            tracked_persistSubmission hsteady rfl ((h.active sub hactive).monitored
              (hsteady _ adapter hadapter) htime hbegan hlater hresult) _ _ _
          dsimp only
          split
          · exact htracked
          · dsimp only
            split
            · exact ⟨nofun, htracked.store⟩
            · exact htracked

omit hsteady in
theorem Tracked.acknowledge (h : Tracked clock began history sv) :
    Tracked clock began history sv.acknowledge := by
  rw [Service.acknowledge]
  cases hstore : sv.store with
  | none => exact ⟨h.active, fun persisted hp => h.store persisted (hstore ▸ hp)⟩
  | some persisted =>
    refine ⟨h.active, ?_⟩
    rintro _ ⟨⟩
    exact h.store persisted hstore

omit hsteady in
theorem Tracked.acknowledgeItem (h : Tracked clock began history sv) (eventSeq : Option ℕ) :
    Tracked clock began history (sv.acknowledgeItem eventSeq) := by
  unfold Service.acknowledgeItem
  split
  · rename_i seq persisted hstore
    split
    · exact h
    · refine ⟨h.active, ?_⟩
      rintro _ ⟨⟩
      exact h.store persisted hstore
  · exact h

omit hsteady in
theorem tracked_inactive {sv' : Service} (hactive : sv'.active = none)
    (hstore : sv'.store = none ∨ sv'.store = sv.store) (h : Tracked clock began history sv) :
    Tracked clock began history sv' where
  active sub hsub := by
    rw [hactive] at hsub
    cases hsub
  store persisted hpersisted := by
    rcases hstore with hnone | hsame
    · rw [hnone] at hpersisted
      cases hpersisted
    · rw [hsame] at hpersisted
      exact h.store persisted hpersisted

theorem tracked_start {w : World} (htime : clock.time w.now.text = some began) (provider : String)
    (context : Option RuntimeContext) :
    Tracked clock began [] ((Service.restarted none).start registry provider context w) := by
  rw [Service.start]
  cases hadapter : registry provider with
  | none =>
    refine ⟨fun sub hsub => ?_, fun persisted hpersisted => ?_⟩
    · cases hsub
    · cases hpersisted
  | some adapter =>
    have hstarted := (hsteady provider adapter hadapter).start context w
    have hstamped : Stamped clock began [] (adapter.start context w) := by
      refine ⟨?_, began, ?_, le_rfl, List.forall_mem_nil _⟩
      · rw [hstarted.readyAt, htime]
      · rw [hstarted.lastProgressTimestamp, htime]
    refine tracked_persistSubmission hsteady ?_ hstamped none [] ∅
    rfl

theorem Tracked.restart (h : Tracked clock began history sv) (provider : String)
    (context : Option RuntimeContext) (w : World) :
    Tracked clock began history
      ((Service.restarted sv.store).restoreSubmission registry provider context w).1 := by
  have hinactive : (Service.restarted sv.store).active.isSome = false := rfl
  rw [Service.restoreSubmission, hinactive, if_neg Bool.false_ne_true]
  cases hadapter : registry provider with
  | none => exact tracked_inactive rfl (.inl rfl) h
  | some adapter =>
    cases hstore : sv.store with
    | none => exact tracked_inactive rfl (.inl rfl) h
    | some persisted =>
      have hrecovered : ((Service.restarted (some persisted)).recoverPendingItems
          persisted).active = none ∧ ((Service.restarted (some persisted)).recoverPendingItems
          persisted).store = sv.store := by
        rw [Service.recoverPendingItems, hstore]
        split <;> exact ⟨rfl, rfl⟩
      simp only [Service.restarted]
      split
      · exact tracked_inactive rfl (.inl rfl) h
      · split
        · exact tracked_inactive hrecovered.1 (.inr hrecovered.2) h
        · split
          · exact tracked_inactive hrecovered.1 (.inl rfl) h
          · rename_i submission hresumed
            have hsub : Unstamped persisted.submission submission := by
              rw [Service.resumeOrReason] at hresumed
              split at hresumed
              · cases hresumed
              · rename_i resume hresume
                split at hresumed
                · cases hresumed
                · split at hresumed
                  · cases hresumed
                  · rename_i resumed hsome
                    cases hresumed
                    exact (hsteady provider adapter hadapter).resume resume _ _ w _ hresume hsome
            simp only [Service.persistRestoredSubmission]
            exact tracked_persistSubmission hsteady rfl
              ((h.store persisted hstore).of_unstamped hsub) _ _ _

end Steps

/-- In every run the stamps are right. -/
theorem Runs.tracked {began : ℚ} {sv : Service} {history : List PollRecord}
    (h : Runs clock job began sv history) : Tracked clock began history sv := by
  have hsteady (timeouts : String → ℚ) : ∀ provider adapter,
      monitoredRegistry host job timeouts provider = some adapter → Steady job adapter :=
    fun _ _ => monitoredRegistry_steady host job
  induction h with
  | start timeouts context w htime => exact tracked_start (hsteady timeouts) htime _ context
  | poll _ timeouts w now htime hbegan hlater ih =>
    exact ih.poll (hsteady timeouts) htime hbegan hlater
  | acknowledge _ ih => exact ih.acknowledge
  | acknowledgeItem _ eventSeq ih => exact ih.acknowledgeItem eventSeq
  | finish _ ih => exact tracked_inactive rfl (.inl rfl) ih
  | restart _ timeouts context w ih => exact ih.restart (hsteady timeouts) _ context w

/-! ### Timeouts -/

/-- The timeout of the policy whose decision ends the job with this poll: the adapter is polled
and has none. -/
def firedTimeout (host : Host) (registry : Registry World) (sv : Service) (w : World) : Option ℚ :=
  match sv.pendingReplay, sv.active with
  | none, some sub =>
    (registry sub.provider).bind fun adapter =>
      if (adapter.poll sub w).all (fun polled => polled.decision.isNone) &&
          (sv.poll host.toLibrary registry w w.now.text).2.any
            (fun update => update.decision.isSome)
      then adapter.reliabilityPolicy.map ReliabilityPolicy.noTerminalTimeout
      else none
  | _, _ => none

omit clock job in
theorem active_of_firedTimeout {registry : Registry World} {sv : Service} {w : World} {timeout : ℚ}
    (h : firedTimeout host registry sv w = some timeout) : ∃ sub, sv.active = some sub := by
  rw [firedTimeout] at h
  split at h
  · rename_i sub _ hactive
    exact ⟨sub, hactive⟩
  · cases h

/-- A job that times out has a submission whose timeout has elapsed. -/
theorem elapsed_of_timesOut {registry : Registry World}
    (hsteady : ∀ provider adapter, registry provider = some adapter → Steady job adapter)
    {began : ℚ} {history : List PollRecord} {sv : Service} {w : World} {now : ℚ}
    {timeout : ℚ} (h : Tracked clock began history sv)
    (htime : clock.time w.now.text = some now) (hbegan : began ≤ now)
    (hlater : ∀ record ∈ history, record.time ≤ now)
    (hfired : firedTimeout host registry sv w = some timeout) :
    ∃ sub, Stamped clock began (⟨now, madeProgress host registry sv w⟩ :: history) sub ∧
      Service.timeoutElapsed host.toLibrary (lastProgressTimestamp host sub) w.now.text timeout =
        true := by
  rw [firedTimeout] at hfired
  split at hfired
  case h_2 => cases hfired
  rename_i sub hreplay hactive
  obtain ⟨adapter, hadapter, hfired⟩ := Option.bind_eq_some_iff.mp hfired
  split_ifs at hfired with hcondition
  obtain ⟨policy, hpolicy, rfl⟩ := Option.map_eq_some_iff.mp hfired
  rw [Bool.and_eq_true, Option.any_eq_true] at hcondition
  obtain ⟨hundecided, update, hupdate, hdecision⟩ := hcondition
  have hprogress : madeProgress host registry sv w = (adapter.poll sub w).any fun polled =>
      Service.hasReliabilityProgress host.toLibrary polled sub := by
    rw [madeProgress, hreplay, hactive]
    dsimp only
    rw [hadapter, Option.any_some]
  rw [hprogress]
  -- the decision is that of the monitored poll
  obtain ⟨result, hresult, hdecided⟩ : ∃ result,
      Service.monitoredPoll host.toLibrary adapter sv.runtimeContext sub w w.now.text =
        some result ∧
        result.decision.isSome = true := by
    simp only [Service.poll, hreplay, hactive, Service.processActiveJob, hadapter] at hupdate
    split at hupdate
    · cases hupdate
    · rename_i result hresult
      split at hupdate
      · cases hupdate
      · cases hupdate
        exact ⟨result, hresult, hdecision⟩
  have hstamped := h.active sub hactive
  -- the submission that the monitor looks at
  have htimeout : ∀ {sub' : Submission} {result : PollResult},
      Service.timeoutPollResult host.toLibrary adapter sv.runtimeContext sub' w.now.text =
        some result →
      Service.timeoutElapsed host.toLibrary (lastProgressTimestamp host sub') w.now.text
        policy.noTerminalTimeout = true := by
    intro sub' result hresult
    obtain ⟨policy', hpolicy', -, helapsed, -⟩ := timeoutPollResult_eq_some hresult
    cases hpolicy.symm.trans hpolicy'
    exact helapsed
  rw [Service.monitoredPoll] at hresult
  cases hpolled : adapter.poll sub w with
  | none =>
    rw [hpolled] at hresult
    exact ⟨sub, hstamped.silent now, htimeout hresult⟩
  | some polled =>
    have happlied := hstamped.applied (hsteady _ adapter hadapter) htime hbegan hlater hpolled
    have hnone : (Service.applyReliabilityProgress host.toLibrary polled sub
        w.now.text).decision = none := by
      rw [Service.applyReliabilityProgress]
      rw [hpolled, Option.all_some, Option.isNone_iff_eq_none] at hundecided
      split <;> exact hundecided
    rw [hpolled] at hresult
    simp only [hnone, Option.isSome_none, Bool.false_eq_true, if_false] at hresult
    cases htimedOut : Service.timeoutPollResult host.toLibrary adapter sv.runtimeContext
        (Service.applyReliabilityProgress host.toLibrary polled sub w.now.text).submission
        w.now.text with
    | none =>
      rw [htimedOut] at hresult
      cases hresult
      rw [Option.getD_none, hnone] at hdecided
      cases hdecided
    | some timedOut => exact ⟨_, happlied, htimeout htimedOut⟩

/-- A job times out only when its polls, this one included, have made no progress for as long as
the timeout, and when it has been ready that long. -/
theorem timeout_after_silence {began : ℚ} {sv : Service} {history : List PollRecord}
    (hrun : Runs clock job began sv history) {timeouts : String → ℚ} {w : World} {now : ℚ}
    (htime : clock.time w.now.text = some now) (hbegan : began ≤ now)
    (hlater : ∀ record ∈ history, record.time ≤ now) {timeout : ℚ}
    (hfired : firedTimeout host (monitoredRegistry host job timeouts) sv w = some timeout) :
    (∀ record ∈
        (⟨now, madeProgress host (monitoredRegistry host job timeouts) sv w⟩ : PollRecord) ::
          history,
      now - timeout < record.time → record.time ≤ now → record.progress = false) ∧
    ∃ sub ∈ sv.active, clock.time sub.readyAt = some began ∧ began + timeout ≤ now := by
  have htracked := hrun.tracked
  obtain ⟨sub', hstamped, helapsed⟩ := elapsed_of_timesOut clock job
    (fun _ _ => monitoredRegistry_steady host job) htracked htime hbegan hlater hfired
  obtain ⟨last, hlast, hready, hrecords⟩ := hstamped.last
  have hsilent : timeout ≤ now - last := by
    simp only [Service.timeoutElapsed, clock.elapsed_eq, hlast, htime, Bool.and_eq_true,
      Option.bind_some, Option.map_some, Option.any_some, decide_eq_true_eq] at helapsed
    exact (le_max_right _ _).trans helapsed.2
  refine ⟨fun record hrecord hafter _ => ?_, ?_⟩
  · by_contra hprogress
    have hbefore := hrecords record hrecord (Bool.eq_true_of_not_eq_false hprogress)
    linarith
  · obtain ⟨sub, hsub⟩ := active_of_firedTimeout hfired
    exact ⟨sub, hsub, (htracked.active sub hsub).ready, by linarith⟩

/-! ### A silent job -/

namespace Sample

def seconds : String → Option ℚ
  | "10:00:00" => some 0
  | "10:05:00" => some 300
  | "10:20:00" => some 1200
  | _ => none

def timedHost : Host :=
  { python with
    elapsed := fun startedAt now =>
      (seconds startedAt).bind fun started => (seconds now).map fun now => now - started }

def timedClock : Clock timedHost := ⟨seconds, fun _ _ => rfl⟩

def session : Session :=
  { pane := .ok "%1"
    hasBackend := true
    completionDir := ""
    captured := .int 0
    readyTimeout := .null
    wrapPrompt := fun body _ => body }

/-- The log has grown to so many events, and the session is there. -/
def worldAt (text : String) (hne : text ≠ "") (hstrip : strip text = text) (upto : ℕ) : World :=
  { world [event "user" "CCB_REQ_ID: job_1"] upto with
    now := ⟨text, hne⟩
    now_stripped := hstrip
    session := some session }

def codexJob : Job := ⟨"job_1", "codex", "hello", "ask", false⟩

def paneContext : Option RuntimeContext := some ⟨some "/work", some "pane-backed"⟩

def quarter (_ : String) : ℚ := 900

def starting : World := worldAt "10:00:00" (by decide) (by decide) 0
def anchored : World := worldAt "10:05:00" (by decide) (by decide) 1
def silent : World := worldAt "10:20:00" (by decide) (by decide) 1

abbrev jobRegistry : Registry World := monitoredRegistry timedHost codexJob quarter

def startedService : Service :=
  (Service.restarted none).start jobRegistry "codex" paneContext starting

def anchoredService : Service :=
  (startedService.poll timedHost.toLibrary jobRegistry anchored anchored.now.text).1

def resumedService : Service :=
  ((Service.restarted anchoredService.acknowledge.store).restoreSubmission jobRegistry "codex"
    paneContext anchored).1

end Sample

/-- The anchor is the last progress of the job; the daemon restarts, and a quarter of an hour
later the job times out. -/
theorem timeout_after_anchor :
    (∀ record ∈ [(⟨1200, madeProgress Sample.timedHost Sample.jobRegistry Sample.resumedService
          Sample.silent⟩ : PollRecord),
        ⟨300, madeProgress Sample.timedHost Sample.jobRegistry Sample.startedService
          Sample.anchored⟩],
      (1200 : ℚ) - 900 < record.time → record.time ≤ 1200 → record.progress = false) ∧
    ∃ sub ∈ Sample.resumedService.active,
      Sample.timedClock.time sub.readyAt = some 0 ∧ (0 : ℚ) + 900 ≤ 1200 :=
  timeout_after_silence Sample.timedClock Sample.codexJob
    (.restart (.acknowledge (.poll (.start Sample.quarter Sample.paneContext Sample.starting
      (by decide +kernel)) Sample.quarter Sample.anchored 300 (by decide +kernel) (by decide)
      (List.forall_mem_nil _))) Sample.quarter Sample.paneContext Sample.anchored)
    (by decide +kernel) (by decide) (by norm_num) (by decide +kernel)

end CodexBridge.Providers
