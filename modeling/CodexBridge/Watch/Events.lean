import CodexBridge.Storage.Rows

/-! Job events and the log they are kept in, one file for each target. An event is written as
a JSON object and read back as itself. -/

namespace CodexBridge.Watch

open Storage

/-- An event of a job of an agent. The kind of the target is always `agent`. -/
structure JobEvent where
  eventId : String
  jobId : String
  target : TargetName
  type : String
  payload : Payload
  timestamp : String
  eventId_ne : eventId ≠ ""
  jobId_ne : jobId ≠ ""
  type_ne : type ≠ ""

namespace JobEvent

/-- `__post_init__` -/
def make (eventId jobId agentName type : String) (payload : Payload) (timestamp targetKind
    targetName : String) : Except Raised JobEvent :=
  if hevent : eventId = "" then throw (.value "event_id cannot be empty")
  else if hjob : jobId = "" then throw (.value "job_id cannot be empty")
  else if htype : type = "" then throw (.value "type cannot be empty")
  else if targetKind ≠ "agent" then
    throw (.value ("'" ++ targetKind ++ "' is not a valid TargetKind"))
  else
    match hname : normalizeAgentName (if targetName = "" then agentName else targetName) with
    | .error e => throw e
    | .ok name => pure ⟨eventId, jobId, ⟨name, normalizeAgentName_idem hname⟩, type, payload,
        timestamp, hevent, hjob, htype⟩

/-- `SCHEMA_VERSION` -/
def schemaVersion : List Char := ['2']

def toRecord (e : JobEvent) : Payload :=
  [("schema_version", .num schemaVersion),
    ("record_type", .str "job_event"),
    ("event_id", .str e.eventId),
    ("job_id", .str e.jobId),
    ("agent_name", .str e.target.name),
    ("target_kind", .str "agent"),
    ("target_name", .str e.target.name),
    ("type", .str e.type),
    ("payload", .obj e.payload),
    ("timestamp", .str e.timestamp)]

end JobEvent

/-! ### Reading -/

/-- `record.get(name)` -/
def field (record : Payload) (name : String) : Option Json.Value :=
  (record.find? fun f => f.1 = name).map Prod.snd

/-- `record[name]`, a text. Values of other kinds, which no event is written with, are
refused. -/
def text (record : Payload) (name : String) : Except Raised String :=
  match field record name with
  | none => throw (.key name)
  | some (.str s) => pure s
  | some _ => throw (.value name)

/-- `record.get(name, default)`, a text. -/
def textOr (record : Payload) (name default : String) : Except Raised String :=
  match field record name with
  | none => pure default
  | some (.str s) => pure s
  | some _ => throw (.value name)

/-- `dict(record.get(name, {}))` -/
def dictOr (record : Payload) (name : String) : Except Raised Payload :=
  match field record name with
  | none => pure []
  | some (.obj fields) => pure fields
  | some _ => throw (.value name)

def isNumber (literal : List Char) : Option Json.Value → Bool
  | some (.num l) => l = literal
  | _ => false

def isText (s : String) : Option Json.Value → Bool
  | some (.str t) => t = s
  | _ => false

def validateRecord (record : Payload) (expectedType : String) : Except Raised Unit :=
  if !isNumber JobEvent.schemaVersion (field record "schema_version") then
    throw (.value "schema_version must be 2")
  else if !isText expectedType (field record "record_type") then
    throw (.value ("record_type must be '" ++ expectedType ++ "'"))
  else pure ()

def jobEventFromRecord (record : Payload) : Except Raised JobEvent := do
  validateRecord record "job_event"
  let eventId ← text record "event_id"
  let jobId ← text record "job_id"
  let agentName ← textOr record "agent_name" ""
  let targetKind ← textOr record "target_kind" "agent"
  let targetName ← textOr record "target_name" agentName
  let type ← text record "type"
  let payload ← dictOr record "payload"
  let timestamp ← text record "timestamp"
  JobEvent.make eventId jobId agentName type payload timestamp targetKind targetName

/-! ### The store -/

/-- The logs of the targets. -/
abbrev EventFiles := String → File

namespace JobEventStore

def append (event : JobEvent) (valid : (Json.Value.obj event.toRecord).Valid)
    (files : EventFiles) : EventFiles :=
  Function.update files event.target.name
    (JsonlStore.append event (fun _ => ⟨event.toRecord, valid⟩) (files event.target.name))

/-- Rows of other records are passed over. -/
def eventsOf : List Payload → Except Raised (List JobEvent)
  | [] => pure []
  | row :: rows =>
    if !isText "job_event" (field row "record_type") then eventsOf rows
    else do
      let event ← jobEventFromRecord row
      let events ← eventsOf rows
      pure (event :: events)

def readSinceTarget (files : EventFiles) (targetName : String) (startLine : ℤ) :
    Except Raised (ℤ × List JobEvent) := do
  let segment ← normalizeAgentName targetName
  let (line, rows) ← JsonlStore.readSince pure startLine (files segment)
  let events ← eventsOf rows
  pure (line, events)

end JobEventStore

/-! ### Round trip -/

theorem JobEvent.valid_toRecord (e : JobEvent) (h : (Json.Value.obj e.payload).Valid) :
    (Json.Value.obj e.toRecord).Valid := by
  refine .obj (by simp [toRecord]) ?_
  intro f hf
  simp only [toRecord, List.mem_cons, List.not_mem_nil, or_false] at hf
  rcases hf with rfl | rfl | rfl | rfl | rfl | rfl | rfl | rfl | rfl | rfl
  · exact .num (by decide)
  · exact .str _
  · exact .str _
  · exact .str _
  · exact .str _
  · exact .str _
  · exact .str _
  · exact .str _
  · exact h
  · exact .str _

theorem make_self (e : JobEvent) :
    JobEvent.make e.eventId e.jobId e.target.name e.type e.payload e.timestamp "agent"
      e.target.name = .ok e := by
  obtain ⟨eventId, jobId, ⟨name, hname⟩, type, payload, timestamp, hevent, hjob, htype⟩ := e
  simp only [JobEvent.make, hevent, hjob, htype, ↓reduceDIte, ↓reduceIte, ne_eq,
    not_true_eq_false]
  split
  · rename_i h
    rw [ite_self, hname] at h
    contradiction
  · rename_i n h
    rw [ite_self, hname] at h
    obtain rfl := Except.ok.inj h
    rfl

/-- An event is read back as it was written. -/
theorem jobEventFromRecord_toRecord (e : JobEvent) : jobEventFromRecord e.toRecord = .ok e :=
  make_self e

theorem eventsOf_records (es : List JobEvent) :
    JobEventStore.eventsOf (es.map JobEvent.toRecord) = .ok es := by
  induction es with
  | nil => rfl
  | cons e es ih =>
    rw [List.map_cons, JobEventStore.eventsOf]
    show (jobEventFromRecord e.toRecord >>= _) = _
    rw [jobEventFromRecord_toRecord, ih]
    rfl

end CodexBridge.Watch
