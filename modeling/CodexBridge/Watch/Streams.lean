import CodexBridge.AppendLog
import CodexBridge.Dispatch.Records
import CodexBridge.Watch.Events

/-! Watching a job. A poll hands out the events of one job behind a cursor that counts the rows
of its target's log, and the next poll starts at the cursor it returned. Whatever is appended
in between, the polls of a job hand out its events one after the other, each once. -/

namespace CodexBridge.Watch

open Storage Dispatch

/-! ### Routing -/

structure JobRecord where
  jobId : String
  target : TargetName
  provider : String
  status : JobStatus

structure VisibleReply where
  reply : String
  reason : Option String
  source : String
  replyId : Option String
  messageId : Option String

/-- What a poll reads of the dispatcher: the agents of the project, where jobs are known to be,
the running jobs, the job records of each agent, and what there is to be seen of a reply. -/
structure Dispatcher where
  agents : List String
  targetForJob : String → Option String
  activeJob : String → Option String
  jobs : String → List JobRecord
  visibleReply : JobRecord → VisibleReply

namespace Dispatcher

variable (d : Dispatcher)

def getLatest (agentName jobId : String) : Option JobRecord :=
  AppendLog.findLast (·.jobId = jobId) (d.jobs agentName)

def getJob (jobId : String) : Option JobRecord :=
  match d.targetForJob jobId with
  | some target => d.getLatest target jobId
  | none => d.agents.findSome? fun candidate => d.getLatest candidate jobId

def latestForAgent (agentName : String) : Option JobRecord := (d.jobs agentName).getLast?

/-- `registry.spec_for`, of which only the refusal matters. -/
def specFor (agentName : String) : Except Raised Unit := do
  let normalized ← normalizeAgentName agentName
  if normalized ∈ d.agents then pure ()
  else throw (.key ("unknown agent: " ++ normalized))

def resolveWatchTarget (target : String) : Except Raised (String × String) :=
  let normalized := lower (strip target)
  if normalized = "" then throw (.dispatch "watch target cannot be empty")
  else if "job_".toList.isPrefixOf normalized.toList then
    match d.getJob normalized with
    | none => throw (.dispatch ("unknown job: " ++ normalized))
    | some record => pure (record.target.name, record.jobId)
  else do
    d.specFor normalized
    match d.activeJob normalized with
    | some jobId => pure (normalized, jobId)
    | none =>
      match d.latestForAgent normalized with
      | none => throw (.dispatch ("agent " ++ normalized ++ " has no jobs to watch"))
      | some latest => pure (normalized, latest.jobId)

structure WatchPayload where
  target : String
  jobId : String
  agentName : String
  targetName : String
  provider : String
  cursor : ℤ
  terminal : Bool
  status : JobStatus
  visible : VisibleReply
  events : List Payload

def buildWatchPayload (files : EventFiles) (target : String) (startLine : ℤ) :
    Except Raised WatchPayload := do
  let (targetName, jobId) ← d.resolveWatchTarget target
  match d.getJob jobId with
  | none => throw (.dispatch ("unknown job: " ++ jobId))
  | some latest =>
    let (cursor, events) ← JobEventStore.readSinceTarget files targetName startLine
    let filtered := events.filter (·.jobId = jobId)
    pure {
      target, jobId, cursor
      agentName := latest.target.name
      targetName := latest.target.name
      provider := latest.provider
      terminal := latest.status.terminal
      status := latest.status
      visible := d.visibleReply latest
      events := filtered.map JobEvent.toRecord }

end Dispatcher

/-! ### Polls and appends -/

/-- An event is appended to its target's log, or a client polls, which meets the dispatcher as
it is by then. -/
inductive Step where
  | append (event : JobEvent) (valid : (Json.Value.obj event.payload).Valid)
  | poll (d : Dispatcher) (target : String)

/-- The logs, the cursor that the client has, and the events that it was given. -/
structure Watcher where
  files : EventFiles
  cursor : ℤ
  events : List Payload

namespace Watcher

def start (path : String → String) : Watcher := ⟨fun target => ⟨path target, none⟩, 0, []⟩

/-- A poll that fails leaves the client with what it has. -/
def next (w : Watcher) : Step → Watcher
  | .append event valid =>
    { w with files := JobEventStore.append event (event.valid_toRecord valid) w.files }
  | .poll d target =>
    match d.buildWatchPayload w.files target w.cursor with
    | .error _ => w
    | .ok payload => { w with cursor := payload.cursor, events := w.events ++ payload.events }

def run (path : String → String) (steps : List Step) : Watcher := steps.foldl next (start path)

end Watcher

/-- A poll of a job of a target, if of any. -/
def Step.Watches (target : TargetName) (jobId : String) : Step → Prop
  | .append _ _ => True
  | .poll d t => ∀ r, d.resolveWatchTarget t = .ok r → r = (target.name, jobId)

/-- The events that a step appends to a target's log. -/
def Step.events (target : TargetName) : Step → List JobEvent
  | .append event _ => if event.target.name = target.name then [event] else []
  | .poll _ _ => []

/-- The log of a target. -/
def eventLog (target : TargetName) (steps : List Step) : List JobEvent :=
  steps.flatMap (Step.events target)

/-- The records of a job's events. -/
def recordsOf (jobId : String) (events : List JobEvent) : List Payload :=
  (events.filter (·.jobId = jobId)).map JobEvent.toRecord

variable {path : String → String} {target : TargetName} {jobId : String}

theorem eventLog_concat (steps : List Step) (s : Step) :
    eventLog target (steps ++ [s]) = eventLog target steps ++ s.events target := by
  simp [eventLog]

/-! ### The cursor -/

/-- The file of the target is its log, and the client has what its cursor has passed. -/
structure Follows (path : String → String) (target : TargetName) (jobId : String)
    (log : List JobEvent) (w : Watcher) : Prop where
  file : ∃ rows, w.files target.name = JsonlStore.written (path target.name) rows ∧
    rows.map Row.payload = log.map JobEvent.toRecord
  cursor : ∃ k ≤ log.length, w.cursor = (k : ℕ) ∧ w.events = recordsOf jobId (log.take k)

theorem Follows.start : Follows path target jobId [] (Watcher.start path) where
  file := ⟨[], rfl, rfl⟩
  cursor := ⟨0, le_refl 0, rfl, rfl⟩

theorem Follows.append {log : List JobEvent} {w : Watcher} (h : Follows path target jobId log w)
    (event : JobEvent) (valid : (Json.Value.obj event.payload).Valid) :
    Follows path target jobId (log ++ (Step.append event valid).events target)
      (w.next (.append event valid)) := by
  obtain ⟨rows, hfile, hrows⟩ := h.file
  obtain ⟨k, hk, hcursor, hevents⟩ := h.cursor
  refine ⟨?_, k, ?_, hcursor, ?_⟩
  · by_cases htarget : event.target.name = target.name
    · refine ⟨rows ++ [⟨event.toRecord, event.valid_toRecord valid⟩], ?_, ?_⟩
      · show JobEventStore.append event _ w.files target.name = _
        rw [JobEventStore.append, htarget, Function.update_self, hfile, JsonlStore.written_concat]
        rfl
      · rw [Step.events, if_pos htarget, List.map_append, List.map_append, hrows]
        rfl
    · refine ⟨rows, ?_, ?_⟩
      · show JobEventStore.append event _ w.files target.name = _
        rw [JobEventStore.append, Function.update_of_ne (Ne.symm htarget), hfile]
      · rw [Step.events, if_neg htarget, List.append_nil, hrows]
  · exact hk.trans (by simp)
  · rw [List.take_append_of_le_length hk]
    exact hevents

/-- Reading on from a cursor in the log. -/
theorem Follows.read {log : List JobEvent} {w : Watcher} (h : Follows path target jobId log w)
    {k : ℕ} (hk : k ≤ log.length) :
    JobEventStore.readSinceTarget w.files target.name k =
      .ok (((log.length : ℕ) : ℤ), log.drop k) := by
  obtain ⟨rows, hfile, hrows⟩ := h.file
  have hlength : rows.length = log.length := by
    have := congrArg List.length hrows
    rwa [List.length_map, List.length_map] at this
  have hread := JsonlStore.readSince_written (path target.name) pure (hlength.symm ▸ hk)
  rw [hrows, hlength, ← List.map_drop, List.mapM_pure, List.map_id'] at hread
  rw [JobEventStore.readSinceTarget, target.normalized]
  show (JsonlStore.readSince pure (k : ℤ) (w.files target.name) >>= _) = _
  rw [hfile, hread]
  show (JobEventStore.eventsOf ((log.drop k).map JobEvent.toRecord) >>= _) = _
  rw [eventsOf_records]
  rfl

/-- A poll of the job returns its events between the cursor and the end of the log. -/
theorem Follows.poll {log : List JobEvent} {w : Watcher} (h : Follows path target jobId log w)
    {d : Dispatcher} {t : String} (hresolve : d.resolveWatchTarget t = .ok (target.name, jobId))
    {latest : JobRecord} (hjob : d.getJob jobId = some latest) :
    ∃ payload, d.buildWatchPayload w.files t w.cursor = .ok payload ∧
      payload.cursor = (log.length : ℕ) ∧ w.events ++ payload.events = recordsOf jobId log := by
  obtain ⟨k, hk, hcursor, hevents⟩ := h.cursor
  have hread := h.read hk
  rw [← hcursor] at hread
  have hbuild : ∃ payload, d.buildWatchPayload w.files t w.cursor = .ok payload ∧
      payload.cursor = (log.length : ℕ) ∧ payload.events = recordsOf jobId (log.drop k) := by
    rw [Dispatcher.buildWatchPayload, hresolve]
    simp only [bind, Except.bind, hjob, hread]
    exact ⟨_, rfl, rfl, rfl⟩
  obtain ⟨payload, hpayload, hlast, hnew⟩ := hbuild
  refine ⟨payload, hpayload, hlast, ?_⟩
  rw [hevents, hnew, recordsOf, recordsOf, ← List.map_append, ← List.filter_append,
    List.take_append_drop]
  rfl

/-- A poll that returns a payload has found the job it is of. -/
theorem buildWatchPayload_ok {d : Dispatcher} {files : EventFiles} {t : String} {start : ℤ}
    {payload : Dispatcher.WatchPayload} (h : d.buildWatchPayload files t start = .ok payload) :
    ∃ r latest, d.resolveWatchTarget t = .ok r ∧ d.getJob r.2 = some latest := by
  unfold Dispatcher.buildWatchPayload at h
  cases hresolve : d.resolveWatchTarget t with
  | error e =>
    rw [hresolve] at h
    contradiction
  | ok r =>
    rw [hresolve] at h
    cases hjob : d.getJob r.2 with
    | none =>
      simp only [bind, Except.bind, hjob] at h
      contradiction
    | some latest => exact ⟨r, latest, rfl, hjob⟩

theorem Follows.next {log : List JobEvent} {w : Watcher} (h : Follows path target jobId log w)
    {s : Step} (hs : s.Watches target jobId) :
    Follows path target jobId (log ++ s.events target) (w.next s) := by
  cases s with
  | append event valid => exact h.append event valid
  | poll d t =>
    rw [Step.events, List.append_nil, Watcher.next]
    cases hpayload : d.buildWatchPayload w.files t w.cursor with
    | error e => exact h
    | ok payload =>
      obtain ⟨r, latest, hresolve, hjob⟩ := buildWatchPayload_ok hpayload
      obtain rfl := hs r hresolve
      obtain ⟨payload', hpayload', hcursor, hevents⟩ := h.poll hresolve hjob
      rw [hpayload] at hpayload'
      obtain rfl := Except.ok.inj hpayload'
      exact ⟨h.file, log.length, le_refl _, hcursor, by rw [List.take_length]; exact hevents⟩

theorem Follows.run {steps : List Step} (hsteps : ∀ s ∈ steps, s.Watches target jobId) :
    Follows path target jobId (eventLog target steps) (Watcher.run path steps) := by
  induction steps using List.reverseRecOn with
  | nil => exact .start
  | append_singleton steps s ih =>
    have hbefore := ih fun x hx => hsteps x (List.mem_append_left _ hx)
    rw [eventLog_concat, Watcher.run, List.foldl_concat]
    exact hbefore.next (hsteps s (by simp))

/-- Whatever is appended between the polls of a job, the next poll succeeds if the job is known,
and what the polls have returned by then are the job's events in its target's log, in order and
each once. -/
theorem watch_stream_exact (path : String → String) (target : TargetName) (jobId : String)
    {steps : List Step} (hsteps : ∀ s ∈ steps, s.Watches target jobId) {d : Dispatcher}
    {t : String} (hresolve : d.resolveWatchTarget t = .ok (target.name, jobId))
    {latest : JobRecord} (hjob : d.getJob jobId = some latest) :
    (∃ payload, d.buildWatchPayload (Watcher.run path steps).files t
      (Watcher.run path steps).cursor = .ok payload) ∧
    (Watcher.run path (steps ++ [.poll d t])).events =
      ((eventLog target steps).filter (·.jobId = jobId)).map JobEvent.toRecord := by
  have hfollows : Follows path target jobId _ _ := Follows.run hsteps
  obtain ⟨payload, hpayload, -, hevents⟩ := hfollows.poll hresolve hjob
  refine ⟨⟨payload, hpayload⟩, ?_⟩
  rw [Watcher.run, List.foldl_concat]
  show ((Watcher.run path steps).next (.poll d t)).events = _
  rw [Watcher.next, hpayload]
  exact hevents

/-! ### A sample -/

def sampleTarget : TargetName := ⟨"agent1", by decide +kernel⟩

def sampleEvent (eventId jobId : String) (hevent : eventId ≠ "") (hjob : jobId ≠ "") : JobEvent :=
  ⟨eventId, jobId, sampleTarget, "job_started", [], "2026-01-01T00:00:00Z", hevent, hjob,
    by decide⟩

theorem sampleEvent_valid (eventId jobId : String) (hevent : eventId ≠ "") (hjob : jobId ≠ "") :
    (Json.Value.obj (sampleEvent eventId jobId hevent hjob).payload).Valid :=
  .obj List.nodup_nil fun _ hf => absurd hf List.not_mem_nil

def sampleJob : JobRecord := ⟨"job_1", sampleTarget, "codex", .running⟩

/-- The agent has one running job. -/
def sampleDispatcher : Dispatcher where
  agents := ["agent1"]
  targetForJob jobId := if jobId = "job_1" then some "agent1" else none
  activeJob _ := some "job_1"
  jobs _ := [sampleJob]
  visibleReply _ := ⟨"", none, "none", none, none⟩

/-- Another job's event lies between two events of the job, and so does a poll. -/
def sampleSteps : List Step :=
  [.append (sampleEvent "evt_1" "job_1" (by decide) (by decide)) (sampleEvent_valid ..),
    .poll sampleDispatcher "agent1",
    .append (sampleEvent "evt_2" "job_2" (by decide) (by decide)) (sampleEvent_valid ..),
    .append (sampleEvent "evt_3" "job_1" (by decide) (by decide)) (sampleEvent_valid ..)]

theorem watch_stream_exact_sample :
    (Watcher.run id (sampleSteps ++ [.poll sampleDispatcher "job_1"])).events =
      [(sampleEvent "evt_1" "job_1" (by decide) (by decide)).toRecord,
        (sampleEvent "evt_3" "job_1" (by decide) (by decide)).toRecord] := by
  have hwatches : ∀ s ∈ sampleSteps, s.Watches sampleTarget "job_1" := by
    intro s hs
    simp only [sampleSteps, List.mem_cons, List.not_mem_nil, or_false] at hs
    rcases hs with rfl | rfl | rfl | rfl
    · trivial
    · intro r hr
      have hagent : sampleDispatcher.resolveWatchTarget "agent1" = .ok ("agent1", "job_1") := by
        decide +kernel
      exact Except.ok.inj (hr.symm.trans hagent)
    · trivial
    · trivial
  have hjob : sampleDispatcher.getJob "job_1" = some sampleJob := rfl
  exact (watch_stream_exact id sampleTarget "job_1" hwatches (t := "job_1") (by decide +kernel)
    hjob).2

end CodexBridge.Watch
