import Mathlib.Data.Rat.Defs
import CodexBridge.Watch.Streams

/-! The client of a watch. It asks the daemon for what lies behind its cursor, dials again
when the daemon is gone, and in the end takes what the daemon left on disk. A visit is one
thing that it does to the world: it dials, it asks, it looks at the clock, or it loads the
stores. Between two visits anything may be appended, and the daemon may come and go. -/

namespace CodexBridge.Watch

open Storage Dispatch

structure WatchEventBatch where
  target : String
  jobId : String
  agentName : String
  targetName : String
  provider : Option String
  cursor : ℤ
  terminal : Bool
  status : JobStatus
  reply : String
  events : List Payload

/-! ### What is on disk -/

structure SnapshotDecision where
  terminal : Bool
  status : CompletionStatus
  reply : String

structure CompletionSnapshot where
  agentName : String
  latestDecision : Option SnapshotDecision

/-- The stores next to the event logs: the completion snapshots by job, the job records by
agent and job, and of a job record whether its terminal decision was delegated and what the
latest reply to its message is. -/
structure Stores where
  snapshot : String → Option CompletionSnapshot
  getLatest : String → String → Option JobRecord
  delegated : JobRecord → Bool
  latestReply : JobRecord → Option String

def resolvedTerminalStatus (job : Option JobRecord) (decision : SnapshotDecision) : JobStatus :=
  match job with
  | some job => if job.status.terminal then job.status else decision.status.jobStatus
  | none => decision.status.jobStatus

def persistedVisibleReply (stores : Stores) (job : Option JobRecord)
    (decision : SnapshotDecision) : String :=
  match job with
  | some job => if stores.delegated job then (stores.latestReply job).getD "" else decision.reply
  | none => decision.reply

/-- A log that cannot be read adds nothing. -/
def readJobEvents (files : EventFiles) (targetName jobId : String) (cursor : ℤ) :
    ℤ × List Payload :=
  match JobEventStore.readSinceTarget files targetName cursor with
  | .error _ => (cursor, [])
  | .ok (nextCursor, events) =>
    (nextCursor, (events.filter (·.jobId = jobId)).map JobEvent.toRecord)

def loadPersistedTerminalWatchPayload (stores : Stores) (files : EventFiles) (target : String)
    (cursor : ℤ) : Option WatchEventBatch := do
  let jobId := strip target
  guard ("job_".toList.isPrefixOf jobId.toList)
  let snapshot ← stores.snapshot jobId
  let decision ← snapshot.latestDecision
  guard decision.terminal
  let agentName := strip snapshot.agentName
  guard (agentName ≠ "")
  let job := stores.getLatest agentName jobId
  let name := strip ((job.map (·.target.name)).getD agentName)
  let targetName := if name = "" then agentName else name
  let status := resolvedTerminalStatus job decision
  guard status.terminal
  let read := readJobEvents files targetName jobId cursor
  some {
    target, jobId, agentName, targetName, status
    provider := job.map (·.provider)
    cursor := read.1
    terminal := true
    events := read.2
    reply := persistedVisibleReply stores job decision }

/-! ### The client -/

/-- What a client meets on a visit: whether a connection is made, the daemon that answers a
request if one does, the stores, and the clock. -/
structure Visit where
  connects : Bool
  daemon : Option Dispatcher
  stores : Stores
  now : ℚ

/-- What a client gives up with. -/
inductive Failure where
  | service | timedOut
  deriving DecidableEq

/-- Where a client stands: what it does on its next visit. -/
inductive Station where
  | connecting | watching | checking | salvaging
  | redialTime | dialling | probing
  | lastResort (failure : Failure)
  | returned
  | raised (failure : Failure)
  deriving DecidableEq

structure Client where
  target : String
  deadline : Option ℚ
  station : Station
  cursor : ℤ
  batches : List WatchEventBatch

namespace Client

variable (c : Client)

/-- A client before its first visit. -/
def fresh (target : String) (deadline : Option ℚ) : Client := ⟨target, deadline, .connecting, 0, []⟩

/-- `watch_target` -/
def watchTarget (target : String) (now timeout : ℚ) : Client := fresh target (some (now + timeout))

/-- `watch_ask_job`; without a timeout of its own it waits as long as the setting says. -/
def watchAskJob (jobId : String) (now : ℚ) (timeout : Option ℚ) (setting : ℚ) : Client :=
  let timeoutS := timeout.getD setting
  fresh jobId (if timeoutS ≤ 0 then none else some (now + timeoutS))

def deadlineExceeded (now : ℚ) : Bool :=
  match c.deadline with
  | none => false
  | some deadline => decide (deadline < now)

/-- `_watch_batch_from_payload` -/
def watchBatchFromPayload (payload : Dispatcher.WatchPayload) : WatchEventBatch where
  target := c.target
  jobId := payload.jobId
  agentName := payload.agentName
  targetName := if payload.targetName = "" then payload.agentName else payload.targetName
  provider := some payload.provider
  cursor := payload.cursor
  terminal := payload.terminal
  status := payload.status
  reply := payload.visible.reply
  events := payload.events

/-- What the daemon answers, if it does. An error of its own reaches the client like a lost
connection. -/
def ask (files : EventFiles) (v : Visit) : Option WatchEventBatch :=
  match v.daemon with
  | none => none
  | some d =>
    match d.buildWatchPayload files c.target c.cursor with
    | .error _ => none
    | .ok payload => some (c.watchBatchFromPayload payload)

/-- A batch of the daemon is shown when it has events, and the last one in any case. -/
def take (batch : WatchEventBatch) : Client :=
  { c with
    batches := if batch.events.isEmpty && !batch.terminal then c.batches else c.batches ++ [batch]
    cursor := batch.cursor
    station := if batch.terminal then .returned else .checking }

/-- The batch that is left on disk ends the watch. -/
def fallback (files : EventFiles) (v : Visit) (otherwise : Station) : Client :=
  match loadPersistedTerminalWatchPayload v.stores files c.target c.cursor with
  | some batch => { c with batches := c.batches ++ [batch], station := .returned }
  | none => { c with station := otherwise }

def visit (files : EventFiles) (v : Visit) : Client :=
  match c.station with
  | .connecting =>
    if v.connects then { c with station := .watching }
    else { c with station := .lastResort .service }
  | .watching =>
    match c.ask files v with
    | some batch => c.take batch
    | none => { c with station := .salvaging }
  | .checking =>
    if c.deadlineExceeded v.now then { c with station := .lastResort .timedOut }
    else { c with station := .watching }
  | .salvaging => c.fallback files v .redialTime
  | .redialTime =>
    if c.deadlineExceeded v.now then { c with station := .lastResort .timedOut }
    else { c with station := .dialling }
  | .dialling =>
    if v.connects then { c with station := .watching } else { c with station := .probing }
  | .probing =>
    -- what is found is dropped here and loaded again
    match loadPersistedTerminalWatchPayload v.stores files c.target c.cursor with
    | some _ => { c with station := .lastResort .timedOut }
    | none => { c with station := .redialTime }
  | .lastResort failure => c.fallback files v (.raised failure)
  | .returned => c
  | .raised _ => c

/-- The events that a client has been given. -/
def received : List Payload := c.batches.flatMap WatchEventBatch.events

end Client

/-! ### Runs -/

inductive Turn where
  | append (event : JobEvent) (valid : (Json.Value.obj event.payload).Valid)
  | visit (v : Visit)

structure Session where
  files : EventFiles
  client : Client

namespace Session

def start (path : String → String) (c : Client) : Session := ⟨fun target => ⟨path target, none⟩, c⟩

def next (s : Session) : Turn → Session
  | .append event valid =>
    { s with files := JobEventStore.append event (event.valid_toRecord valid) s.files }
  | .visit v => { s with client := s.client.visit s.files v }

def run (path : String → String) (c : Client) (turns : List Turn) : Session :=
  turns.foldl next (start path c)

end Session

/-! ### The stores -/

/-- The snapshot of a job names its target, and so does its record. -/
structure Stores.Keep (stores : Stores) (target : TargetName) (jobId : String) : Prop where
  agent : ∀ snapshot, stores.snapshot jobId = some snapshot → strip snapshot.agentName = target.name
  record : ∀ job, stores.getLatest target.name jobId = some job → job.target.name = target.name

theorem strip_target (target : TargetName) : strip target.name = target.name := by
  obtain ⟨-, -, hname⟩ := normalizeAgentName_eq_ok.mp target.normalized
  rw [hname, strip_lower, strip_strip]

theorem target_ne (target : TargetName) : target.name ≠ "" := by
  obtain ⟨hpattern, -⟩ := normalizeAgentName_eq_ok.mp target.normalized
  rw [strip_target] at hpattern
  intro h
  rw [h] at hpattern
  contradiction

theorem terminal_resolvedTerminalStatus (job : Option JobRecord) (decision : SnapshotDecision) :
    (resolvedTerminalStatus job decision).terminal = true := by
  have hdecision : decision.status.jobStatus.terminal = true := by cases decision.status <;> rfl
  cases job with
  | none => exact hdecision
  | some job =>
    rw [resolvedTerminalStatus]
    split_ifs with h
    · exact h
    · exact hdecision

variable {stores : Stores} {files : EventFiles} {target : TargetName} {jobId name : String}
  {cursor : ℤ} {path : String → String} {log : List JobEvent}

/-- What is loaded ends the watch, with the events behind the cursor. -/
theorem Stores.Keep.loaded (keep : stores.Keep target jobId) (hname : strip name = jobId)
    {batch : WatchEventBatch}
    (h : loadPersistedTerminalWatchPayload stores files name cursor = some batch) :
    batch.terminal = true ∧
      (batch.cursor, batch.events) = readJobEvents files target.name jobId cursor := by
  simp only [loadPersistedTerminalWatchPayload, hname, Option.bind_eq_bind,
    Option.bind_eq_some_iff, Option.some.injEq] at h
  obtain ⟨-, -, snapshot, hsnapshot, decision, -, -, -, -, -, -, -, rfl⟩ := h
  have hagent := keep.agent snapshot hsnapshot
  refine ⟨rfl, ?_⟩
  have hrecord : strip (((stores.getLatest (strip snapshot.agentName) jobId).map
      (·.target.name)).getD (strip snapshot.agentName)) = target.name := by
    rw [hagent]
    cases hjob : stores.getLatest target.name jobId with
    | none => exact strip_target target
    | some job =>
      rw [Option.map_some, Option.getD_some, keep.record job hjob]
      exact strip_target target
  rw [hrecord, if_neg (target_ne target)]

/-- The end of a job is on disk. -/
structure Stores.Ended (stores : Stores) (jobId : String) : Prop where
  decided : ∃ snapshot decision, stores.snapshot jobId = some snapshot ∧
    snapshot.latestDecision = some decision ∧ decision.terminal = true ∧
      strip snapshot.agentName ≠ ""

theorem Stores.Ended.loads (ended : stores.Ended jobId) (hname : strip name = jobId)
    (hjob : "job_".toList.isPrefixOf jobId.toList = true) (files : EventFiles) (cursor : ℤ) :
    ∃ batch, loadPersistedTerminalWatchPayload stores files name cursor = some batch := by
  obtain ⟨snapshot, decision, hsnapshot, hdecision, hterminal, hagent⟩ := ended.decided
  have hstatus := terminal_resolvedTerminalStatus
    (stores.getLatest (strip snapshot.agentName) jobId) decision
  rw [loadPersistedTerminalWatchPayload, hname, hsnapshot]
  simp only [Option.bind_eq_bind, hjob, Option.bind_some, hdecision, hterminal, hagent, hstatus,
    ne_eq, not_false_eq_true, guard, ↓reduceIte]
  exact ⟨_, rfl⟩

/-! ### What a client is given -/

/-- What a visit meets is of one job of one target. -/
structure Visit.Of (v : Visit) (target : TargetName) (jobId name : String) : Prop where
  stores : v.stores.Keep target jobId
  daemon : ∀ d, v.daemon = some d → ∀ r, d.resolveWatchTarget name = .ok r →
    r = (target.name, jobId)

def Turn.Of (target : TargetName) (jobId name : String) : Turn → Prop
  | .append _ _ => True
  | .visit v => v.Of target jobId name

/-- The events that a turn appends to a target's log. -/
def Turn.events (target : TargetName) : Turn → List JobEvent
  | .append event _ => if event.target.name = target.name then [event] else []
  | .visit _ => []

def turnLog (target : TargetName) (turns : List Turn) : List JobEvent :=
  turns.flatMap (Turn.events target)

/-- A client has been given what its cursor has passed. -/
def Session.Given (path : String → String) (target : TargetName) (jobId name : String)
    (log : List JobEvent) (s : Session) : Prop :=
  s.client.target = name ∧ ∃ k : ℤ, Follows path target jobId log ⟨s.files, k, s.client.received⟩ ∧
    (s.client.station ≠ .returned → s.client.cursor = k)

/-- A client that has returned has been given the whole log, and ends with a last batch. -/
structure Client.Complete (jobId : String) (log : List JobEvent) (c : Client) : Prop where
  received : c.received = recordsOf jobId log
  last : ∃ batch ∈ c.batches.getLast?, batch.terminal = true

/-- A read hands out what lies behind the cursor. -/
theorem Follows.behind {w : Watcher} (h : Follows path target jobId log w) :
    ∃ events : List JobEvent,
      JobEventStore.readSinceTarget w.files target.name w.cursor = .ok ((log.length : ℕ), events) ∧
        w.events ++ recordsOf jobId events = recordsOf jobId log := by
  obtain ⟨k, hk, hcursor, hevents⟩ := h.cursor
  refine ⟨log.drop k, hcursor ▸ h.read hk, ?_⟩
  rw [hevents, recordsOf, recordsOf, ← List.map_append, ← List.filter_append, List.take_append_drop]
  rfl

/-- Whoever was given the whole log follows it from its end. -/
theorem Follows.caughtUp {w : Watcher} (h : Follows path target jobId log w) {events : List Payload}
    (hall : events = recordsOf jobId log) :
    Follows path target jobId log ⟨w.files, (log.length : ℕ), events⟩ :=
  ⟨h.file, log.length, le_refl _, rfl, by rw [List.take_length]; exact hall⟩

theorem Client.received_concat (c : Client) (batch : WatchEventBatch) (station : Station) :
    { c with batches := c.batches ++ [batch], station := station : Client }.received =
      c.received ++ batch.events := by
  simp [received]

variable {v : Visit}

/-- A visit keeps what a client has been given, and a client that it ends has everything. -/
def Session.Goes (path : String → String) (target : TargetName) (jobId name : String)
    (log : List JobEvent) (files : EventFiles) (c : Client) : Prop :=
  (⟨files, c⟩ : Session).Given path target jobId name log ∧
    (c.station = .returned → c.Complete jobId log)

theorem Session.Given.move {s : Session} (given : s.Given path target jobId name log)
    (live : s.client.station ≠ .returned) {station : Station} (going : station ≠ .returned) :
    Session.Goes path target jobId name log s.files { s.client with station := station } := by
  obtain ⟨htarget, k, hf, hk⟩ := given
  exact ⟨⟨htarget, k, hf, fun _ => hk live⟩, fun h => absurd h going⟩

theorem Session.Given.fallback {s : Session} (given : s.Given path target jobId name log)
    (keep : v.stores.Keep target jobId) (hname : strip name = jobId)
    (live : s.client.station ≠ .returned) {otherwise : Station} (going : otherwise ≠ .returned) :
    Session.Goes path target jobId name log s.files (s.client.fallback s.files v otherwise) := by
  obtain ⟨htarget, k, hf, hk⟩ := id given
  rw [Client.fallback]
  cases hload : loadPersistedTerminalWatchPayload v.stores s.files s.client.target
    s.client.cursor with
  | none => exact given.move live going
  | some batch =>
    rw [htarget, hk live] at hload
    obtain ⟨hterminal, hread⟩ := keep.loaded hname hload
    obtain ⟨events, hevents, hall⟩ := hf.behind
    rw [readJobEvents, hevents] at hread
    obtain ⟨-, hbatch⟩ := Prod.mk.inj hread
    have hreceived := s.client.received_concat batch .returned
    rw [hbatch] at hreceived
    have hwhole := hreceived.trans hall
    refine ⟨⟨htarget, _, hf.caughtUp hwhole, fun h => absurd rfl h⟩, fun _ => ⟨hwhole, batch, ?_⟩⟩
    simp [hterminal]

/-- An answer of the daemon is of the job, and brings the client up to the end of the log. -/
theorem Session.Given.take {s : Session} (given : s.Given path target jobId name log)
    (of : v.Of target jobId name) (live : s.client.station ≠ .returned) {batch : WatchEventBatch}
    (hask : s.client.ask s.files v = some batch) :
    Session.Goes path target jobId name log s.files (s.client.take batch) := by
  obtain ⟨htarget, k, hf, hk⟩ := given
  obtain ⟨d, payload, hd, hpayload, rfl⟩ : ∃ d payload, v.daemon = some d ∧
      d.buildWatchPayload s.files name k = .ok payload ∧
        s.client.watchBatchFromPayload payload = batch := by
    rw [Client.ask, htarget, hk live] at hask
    cases hd : v.daemon with
    | none =>
      rw [hd] at hask
      contradiction
    | some d =>
      rw [hd] at hask
      dsimp only at hask
      cases hbuild : d.buildWatchPayload s.files name k with
      | error e =>
        rw [hbuild] at hask
        contradiction
      | ok payload =>
        rw [hbuild] at hask
        exact ⟨d, payload, rfl, hbuild, Option.some.inj hask⟩
  obtain ⟨r, latest, hresolve, hjob⟩ := buildWatchPayload_ok hpayload
  obtain rfl := of.daemon d hd r hresolve
  obtain ⟨payload', hpayload', hcursor, hall⟩ := hf.poll hresolve hjob
  rw [hpayload] at hpayload'
  obtain rfl := Except.ok.inj hpayload'
  have hreceived : (s.client.take (s.client.watchBatchFromPayload payload)).received =
      s.client.received ++ payload.events := by
    rw [Client.received, Client.take]
    dsimp only
    split_ifs with hidle
    · have hnone : payload.events = [] := by
        simp only [Client.watchBatchFromPayload, Bool.and_eq_true, List.isEmpty_iff] at hidle
        exact hidle.1
      rw [hnone, List.append_nil, Client.received]
    · rw [List.flatMap_append, List.flatMap_singleton, Client.received]
      rfl
  have hwhole := hreceived.trans hall
  refine ⟨⟨htarget, _, hf.caughtUp hwhole, fun _ => hcursor⟩, fun hend => ⟨hwhole, ?_⟩⟩
  have hterminal : payload.terminal = true := by
    by_contra hgoing
    have hstation : (s.client.take (s.client.watchBatchFromPayload payload)).station =
        .checking := if_neg hgoing
    rw [hstation] at hend
    contradiction
  have hshown : (s.client.take (s.client.watchBatchFromPayload payload)).batches =
      s.client.batches ++ [s.client.watchBatchFromPayload payload] := by
    refine if_neg ?_
    have : (s.client.watchBatchFromPayload payload).terminal = true := hterminal
    simp [this]
  exact ⟨s.client.watchBatchFromPayload payload, by rw [hshown]; simp, hterminal⟩

theorem Session.Given.visit {s : Session} (given : s.Given path target jobId name log)
    (of : v.Of target jobId name) (hname : strip name = jobId)
    (live : s.client.station ≠ .returned) :
    Session.Goes path target jobId name log s.files (s.client.visit s.files v) := by
  unfold Client.visit
  cases hstation : s.client.station with
  | connecting =>
    dsimp only
    split_ifs
    · exact given.move live Station.noConfusion
    · exact given.move live Station.noConfusion
  | watching =>
    dsimp only
    cases hask : s.client.ask s.files v with
    | none => exact given.move live Station.noConfusion
    | some batch => exact given.take of live hask
  | checking =>
    dsimp only
    split_ifs
    · exact given.move live Station.noConfusion
    · exact given.move live Station.noConfusion
  | salvaging => exact given.fallback of.stores hname live Station.noConfusion
  | redialTime =>
    dsimp only
    split_ifs
    · exact given.move live Station.noConfusion
    · exact given.move live Station.noConfusion
  | dialling =>
    dsimp only
    split_ifs
    · exact given.move live Station.noConfusion
    · exact given.move live Station.noConfusion
  | probing =>
    dsimp only
    cases loadPersistedTerminalWatchPayload v.stores s.files s.client.target s.client.cursor with
    | none => exact given.move live Station.noConfusion
    | some _ => exact given.move live Station.noConfusion
  | lastResort failure => exact given.fallback of.stores hname live Station.noConfusion
  | returned => exact absurd hstation live
  | raised failure =>
    refine ⟨given, fun h => ?_⟩
    rw [hstation] at h
    contradiction

/-! ### Runs of a client -/

theorem turnLog_concat (turns : List Turn) (t : Turn) :
    turnLog target (turns ++ [t]) = turnLog target turns ++ t.events target := by
  simp [turnLog]

theorem Session.run_concat (path : String → String) (c : Client) (turns : List Turn) (t : Turn) :
    Session.run path c (turns ++ [t]) = (Session.run path c turns).next t := List.foldl_concat ..

theorem Session.Given.append {s : Session} (given : s.Given path target jobId name log)
    (event : JobEvent) (valid : (Json.Value.obj event.payload).Valid) :
    (s.next (.append event valid)).Given path target jobId name
      (log ++ (Turn.append event valid).events target) := by
  obtain ⟨htarget, k, hf, hk⟩ := given
  exact ⟨htarget, k, hf.append event valid, hk⟩

theorem Session.Given.next {s : Session} (given : s.Given path target jobId name log)
    (hname : strip name = jobId) {t : Turn} (of : t.Of target jobId name) :
    (s.next t).Given path target jobId name (log ++ t.events target) := by
  cases t with
  | append event valid => exact given.append event valid
  | visit v =>
    rw [Turn.events, List.append_nil]
    by_cases live : s.client.station = .returned
    · have hvisit : s.client.visit s.files v = s.client := by rw [Client.visit, live]
      rw [Session.next, hvisit]
      exact given
    · exact (given.visit of hname live).1

theorem Session.Given.run (path : String → String) (deadline : Option ℚ)
    (hname : strip name = jobId) {turns : List Turn}
    (hturns : ∀ t ∈ turns, t.Of target jobId name) :
    (Session.run path (Client.fresh name deadline) turns).Given path target jobId name
      (turnLog target turns) := by
  induction turns using List.reverseRecOn with
  | nil => exact ⟨rfl, 0, .start, fun _ => rfl⟩
  | append_singleton turns t ih =>
    rw [Session.run_concat, turnLog_concat]
    exact (ih fun x hx => hturns x (List.mem_append_left _ hx)).next hname
      (hturns t (by simp))

/-- Whatever is appended, and however often the daemon goes and comes back, a client that
watches a job has been given a part of the job's events from the first on, in order and each
once; and the visit that ends its watch has given it all that was logged by then, with a last
batch that says that the job is over. -/
theorem watch_client_exact (path : String → String) (deadline : Option ℚ)
    (hname : strip name = jobId) {turns : List Turn}
    (hturns : ∀ t ∈ turns, t.Of target jobId name) :
    (∃ k ≤ (turnLog target turns).length,
      (Session.run path (Client.fresh name deadline) turns).client.received =
        recordsOf jobId ((turnLog target turns).take k)) ∧
    ∀ v : Visit, v.Of target jobId name →
      (Session.run path (Client.fresh name deadline) turns).client.station ≠ .returned →
      (Session.run path (Client.fresh name deadline) (turns ++ [.visit v])).client.station =
        .returned →
      (Session.run path (Client.fresh name deadline) (turns ++ [.visit v])).client.Complete jobId
        (turnLog target turns) := by
  have given := Session.Given.run path deadline hname hturns
  refine ⟨?_, fun v of live ends => ?_⟩
  · obtain ⟨-, _, hf, -⟩ := given
    obtain ⟨k, hk, -, hreceived⟩ := hf.cursor
    exact ⟨k, hk, hreceived⟩
  · rw [Session.run_concat] at ends ⊢
    exact (given.visit of hname live).2 ends

/-- Nothing is mounted and nothing is on disk. -/
def sampleGone : Visit where
  connects := false
  daemon := none
  stores := ⟨fun _ => none, fun _ _ => none, fun _ => false, fun _ => none⟩
  now := 0

/-- The daemon is gone, and has left the end of the job on disk. -/
def sampleLeft : Visit where
  connects := false
  daemon := none
  stores := ⟨fun _ => some ⟨"agent1", some ⟨true, .completed, "done"⟩⟩, fun _ _ => some sampleJob,
    fun _ => false, fun _ => none⟩
  now := 1

theorem evt_1_ne : "evt_1" ≠ "" := by decide
theorem evt_2_ne : "evt_2" ≠ "" := by decide
theorem evt_3_ne : "evt_3" ≠ "" := by decide
theorem job_1_ne : "job_1" ≠ "" := by decide
theorem job_2_ne : "job_2" ≠ "" := by decide

/-- The client gets through once, loses the daemon, and events are appended all the while. -/
def sampleTurns : List Turn :=
  [.append (sampleEvent "evt_1" "job_1" evt_1_ne job_1_ne)
      (sampleEvent_valid "evt_1" "job_1" evt_1_ne job_1_ne),
    .visit { sampleGone with connects := true },
    .append (sampleEvent "evt_2" "job_2" evt_2_ne job_2_ne)
      (sampleEvent_valid "evt_2" "job_2" evt_2_ne job_2_ne),
    .visit sampleGone,
    .append (sampleEvent "evt_3" "job_1" evt_3_ne job_1_ne)
      (sampleEvent_valid "evt_3" "job_1" evt_3_ne job_1_ne)]

theorem sampleLeft_of : sampleLeft.Of sampleTarget "job_1" " job_1" where
  stores :=
    { agent := by
        intro snapshot h
        obtain rfl := Option.some.inj h
        decide +kernel
      record := by
        intro job h
        obtain rfl := Option.some.inj h
        rfl }
  daemon := fun _ h => by contradiction

theorem watch_client_exact_sample :
    (Session.run id (Client.watchTarget " job_1" 0 10)
      (sampleTurns ++ [.visit sampleLeft])).client.Complete "job_1"
        [sampleEvent "evt_1" "job_1" (by decide) (by decide),
          sampleEvent "evt_2" "job_2" (by decide) (by decide),
          sampleEvent "evt_3" "job_1" (by decide) (by decide)] := by
  have hgone : ∀ connects, Visit.Of { sampleGone with connects := connects } sampleTarget "job_1"
      " job_1" := by
    intro connects
    refine ⟨⟨fun _ h => ?_, fun _ h => ?_⟩, fun _ h => ?_⟩
    · contradiction
    · contradiction
    · contradiction
  have hturns : ∀ t ∈ sampleTurns, t.Of sampleTarget "job_1" " job_1" := by
    intro t ht
    simp only [sampleTurns, List.mem_cons, List.not_mem_nil, or_false] at ht
    rcases ht with rfl | rfl | rfl | rfl | rfl
    · trivial
    · exact hgone true
    · trivial
    · exact hgone false
    · trivial
  have hlog : turnLog sampleTarget sampleTurns =
      [sampleEvent "evt_1" "job_1" (by decide) (by decide),
        sampleEvent "evt_2" "job_2" (by decide) (by decide),
        sampleEvent "evt_3" "job_1" (by decide) (by decide)] := by
    simp [turnLog, sampleTurns, Turn.events, sampleEvent]
  have hfresh : Client.watchTarget " job_1" 0 10 = Client.fresh " job_1" (some (0 + 10)) := rfl
  have hname : strip " job_1" = "job_1" := by decide
  rw [← hlog, hfresh]
  obtain ⟨-, hcomplete⟩ :=
    watch_client_exact id (some (0 + 10)) hname hturns
  have live : (Session.run id (Client.fresh " job_1" (some (0 + 10)))
      sampleTurns).client.station ≠ .returned := by decide +kernel
  have ends : (Session.run id (Client.fresh " job_1" (some (0 + 10)))
      (sampleTurns ++ [.visit sampleLeft])).client.station = .returned := by decide +kernel
  exact hcomplete sampleLeft sampleLeft_of live ends

/-! ### The end of a watch -/

/-- The end of the job is on disk, and a daemon that answers knows of it. -/
structure Visit.Ended (v : Visit) (jobId name : String) : Prop where
  stores : v.stores.Ended jobId
  daemon : ∀ d, v.daemon = some d → ∀ r latest, d.resolveWatchTarget name = .ok r →
    d.getJob r.2 = some latest → latest.status.terminal = true

/-- The visits that are left. -/
def Station.rank : Station → ℕ
  | .returned => 0
  | .raised _ => 0
  | .lastResort _ => 1
  | .salvaging => 1
  | .watching => 2
  | .probing => 2
  | .connecting => 3
  | .checking => 3
  | .dialling => 3
  | .redialTime => 4

/-- A client that has not given up. -/
def Station.going : Station → Bool
  | .raised _ => false
  | _ => true

/-- A payload says of a job what its record says. -/
theorem buildWatchPayload_terminal {d : Dispatcher} {start : ℤ} {payload : Dispatcher.WatchPayload}
    (h : d.buildWatchPayload files name start = .ok payload) :
    ∃ r latest, d.resolveWatchTarget name = .ok r ∧ d.getJob r.2 = some latest ∧
      payload.terminal = latest.status.terminal := by
  obtain ⟨r, latest, hresolve, hjob⟩ := buildWatchPayload_ok h
  refine ⟨r, latest, hresolve, hjob, ?_⟩
  rw [Dispatcher.buildWatchPayload, hresolve] at h
  simp only [bind, Except.bind, hjob] at h
  cases hread : JobEventStore.readSinceTarget files r.1 start with
  | error e =>
    rw [hread] at h
    contradiction
  | ok read =>
    rw [hread] at h
    obtain rfl := Except.ok.inj h
    rfl

theorem Visit.Ended.terminal (ended : v.Ended jobId name) {c : Client} (htarget : c.target = name)
    {batch : WatchEventBatch} (hask : c.ask files v = some batch) : batch.terminal = true := by
  rw [Client.ask, htarget] at hask
  cases hd : v.daemon with
  | none =>
    rw [hd] at hask
    contradiction
  | some d =>
    rw [hd] at hask
    dsimp only at hask
    cases hbuild : d.buildWatchPayload files name c.cursor with
    | error e =>
      rw [hbuild] at hask
      contradiction
    | ok payload =>
      rw [hbuild] at hask
      obtain rfl := Option.some.inj hask
      obtain ⟨r, latest, hresolve, hjob, hterminal⟩ := buildWatchPayload_terminal hbuild
      exact hterminal.trans (ended.daemon d hd r latest hresolve hjob)

/-- The persisted end of a job ends a watch that looks for it. -/
theorem Visit.Ended.fallback (ended : v.Ended jobId name) {c : Client} (htarget : c.target = name)
    (hname : strip name = jobId) (hjob : "job_".toList.isPrefixOf jobId.toList = true)
    (otherwise : Station) : (c.fallback files v otherwise).station = .returned := by
  obtain ⟨batch, hload⟩ := ended.stores.loads hname hjob files c.cursor
  rw [Client.fallback, htarget, hload]

theorem Client.fallback_target (c : Client) (files : EventFiles) (v : Visit) (otherwise : Station) :
    (c.fallback files v otherwise).target = c.target := by
  rw [fallback]
  cases loadPersistedTerminalWatchPayload v.stores files c.target c.cursor with
  | none => rfl
  | some batch => rfl

theorem Client.visit_target (c : Client) (files : EventFiles) (v : Visit) :
    (c.visit files v).target = c.target := by
  unfold visit
  cases c.station with
  | watching =>
    cases c.ask files v with
    | none => rfl
    | some batch => rfl
  | salvaging => exact fallback_target ..
  | lastResort failure => exact fallback_target ..
  | probing =>
    cases loadPersistedTerminalWatchPayload v.stores files c.target c.cursor with
    | none => rfl
    | some batch => rfl
  | connecting => cases v.connects <;> rfl
  | dialling => cases v.connects <;> rfl
  | checking => cases c.deadlineExceeded v.now <;> rfl
  | redialTime => cases c.deadlineExceeded v.now <;> rfl
  | returned => rfl
  | raised failure => rfl

theorem Session.next_target (s : Session) (t : Turn) :
    (s.next t).client.target = s.client.target := by
  cases t with
  | append event valid => rfl
  | visit v => exact Client.visit_target s.client s.files v

theorem Session.run_target (path : String → String) (deadline : Option ℚ) (turns : List Turn) :
    (Session.run path (Client.fresh name deadline) turns).client.target = name := by
  induction turns using List.reverseRecOn with
  | nil => rfl
  | append_singleton turns t ih => rw [Session.run_concat, Session.next_target, ih]

/-- A step towards the end of a watch. -/
structure Station.Nearer (before after : Station) : Prop where
  going : after.going = true
  rank : after.rank ≤ before.rank - 1

/-- Once the job's end is on disk, each visit takes a client closer to its return. -/
theorem Visit.Ended.nearer (ended : v.Ended jobId name) {c : Client} (htarget : c.target = name)
    (hname : strip name = jobId) (hjob : "job_".toList.isPrefixOf jobId.toList = true)
    (going : c.station.going = true) : c.station.Nearer (c.visit files v).station := by
  have hfallback (otherwise : Station) : (c.fallback files v otherwise).station = .returned :=
    ended.fallback htarget hname hjob otherwise
  unfold Client.visit
  cases hstation : c.station with
  | connecting =>
    dsimp only
    split_ifs
    · exact ⟨rfl, by simp [Station.rank]⟩
    · exact ⟨rfl, by simp [Station.rank]⟩
  | watching =>
    dsimp only
    cases hask : c.ask files v with
    | none => exact ⟨rfl, by simp [Station.rank]⟩
    | some batch =>
      have hreturned : (c.take batch).station = .returned :=
        if_pos (ended.terminal htarget hask)
      dsimp only
      rw [hreturned]
      exact ⟨rfl, by simp [Station.rank]⟩
  | checking =>
    dsimp only
    split_ifs
    · exact ⟨rfl, by simp [Station.rank]⟩
    · exact ⟨rfl, by simp [Station.rank]⟩
  | salvaging =>
    dsimp only
    rw [hfallback]
    exact ⟨rfl, by simp [Station.rank]⟩
  | redialTime =>
    dsimp only
    split_ifs
    · exact ⟨rfl, by simp [Station.rank]⟩
    · exact ⟨rfl, by simp [Station.rank]⟩
  | dialling =>
    dsimp only
    split_ifs
    · exact ⟨rfl, by simp [Station.rank]⟩
    · exact ⟨rfl, by simp [Station.rank]⟩
  | probing =>
    obtain ⟨batch, hload⟩ := ended.stores.loads hname hjob files c.cursor
    rw [← htarget] at hload
    rw [hload]
    exact ⟨rfl, by simp [Station.rank]⟩
  | lastResort failure =>
    dsimp only
    rw [hfallback]
    exact ⟨rfl, by simp [Station.rank]⟩
  | returned =>
    dsimp only
    rw [hstation]
    exact ⟨rfl, by simp [Station.rank]⟩
  | raised failure =>
    rw [hstation] at going
    contradiction

/-- The visits among the turns. -/
def visits : List Turn → ℕ
  | [] => 0
  | .append _ _ :: turns => visits turns
  | .visit _ :: turns => visits turns + 1

theorem Session.nearer (hname : strip name = jobId)
    (hjob : "job_".toList.isPrefixOf jobId.toList = true) {turns : List Turn}
    (hturns : ∀ v, .visit v ∈ turns → v.Ended jobId name) {s : Session}
    (htarget : s.client.target = name) (going : s.client.station.going = true) :
    (turns.foldl Session.next s).client.station.going = true ∧
      (turns.foldl Session.next s).client.station.rank ≤ s.client.station.rank - visits turns := by
  induction turns generalizing s with
  | nil => exact ⟨going, le_refl _⟩
  | cons t turns ih =>
    replace ih := @ih fun v hv => hturns v (List.mem_cons_of_mem t hv)
    rw [List.foldl_cons]
    cases t with
    | append event valid =>
      exact ih (s := s.next (.append event valid)) htarget going
    | visit v =>
      have near : s.client.station.Nearer (s.client.visit s.files v).station :=
        (hturns v List.mem_cons_self).nearer htarget hname hjob going
      obtain ⟨hgoing, hrank⟩ := ih (s := s.next (.visit v))
        ((s.next_target (.visit v)).trans htarget) near.going
      have hstep : (s.next (.visit v)).client.station.rank ≤ s.client.station.rank - 1 := near.rank
      refine ⟨hgoing, hrank.trans ?_⟩
      rw [visits]
      omega

theorem Station.returned_of_rank {station : Station} (going : station.going = true)
    (h : station.rank = 0) : station = .returned := by
  cases station with
  | returned => rfl
  | raised failure => contradiction
  | _ => simp [rank] at h

/-- No watch outlives its job: once the end of the job is on disk, and whatever daemon is
there knows of it, a client that has not given up before returns within four visits,
wherever it stands and whether it gets through to a daemon or not. -/
theorem watch_client_returns (path : String → String) (deadline : Option ℚ)
    (hname : strip name = jobId) (hjob : "job_".toList.isPrefixOf jobId.toList = true)
    (before : List Turn) {turns : List Turn} (hturns : ∀ v, .visit v ∈ turns → v.Ended jobId name)
    (going : (Session.run path (Client.fresh name deadline) before).client.station.going = true)
    (enough : 4 ≤ visits turns) :
    (Session.run path (Client.fresh name deadline) (before ++ turns)).client.station =
      .returned := by
  have htarget : (Session.run path (Client.fresh name deadline) before).client.target = name :=
    Session.run_target path deadline before
  obtain ⟨hgoing, hrank⟩ := Session.nearer hname hjob hturns htarget going
  rw [Session.run, List.foldl_append]
  refine Station.returned_of_rank hgoing (Nat.le_zero.mp (hrank.trans ?_))
  have hmost (station : Station) : station.rank ≤ 4 := by cases station <;> simp [Station.rank]
  have := hmost (Session.run path (Client.fresh name deadline) before).client.station
  omega

/-- The client of the sample is looking at the disk when it finds the end there. -/
theorem watch_client_returns_sample :
    (Session.run id (Client.watchTarget " job_1" 0 10)
      (sampleTurns ++ List.replicate 4 (Turn.visit sampleLeft))).client.station =
        Station.returned := by
  have hname : strip " job_1" = "job_1" := by decide
  have hagent : strip "agent1" ≠ "" := by decide
  have hstores : sampleLeft.stores.Ended "job_1" :=
    ⟨⟨"agent1", some ⟨true, .completed, "done"⟩⟩, ⟨true, .completed, "done"⟩, rfl, rfl, rfl,
      hagent⟩
  have hended : sampleLeft.Ended "job_1" " job_1" :=
    ⟨hstores, fun d h => absurd h.symm (Option.some_ne_none d)⟩
  have hturns : ∀ v, Turn.visit v ∈ List.replicate 4 (Turn.visit sampleLeft) →
      v.Ended "job_1" " job_1" := by
    intro v hv
    obtain rfl := Turn.visit.inj (List.eq_of_mem_replicate hv)
    exact hended
  have going : (Session.run id (Client.fresh " job_1" (some (0 + 10)))
      sampleTurns).client.station.going = true := by decide +kernel
  have hfresh : Client.watchTarget " job_1" 0 10 = Client.fresh " job_1" (some (0 + 10)) := rfl
  rw [hfresh]
  exact watch_client_returns id (some (0 + 10)) hname (by decide +kernel) sampleTurns hturns going
    (le_refl 4)

end CodexBridge.Watch
