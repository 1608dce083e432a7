import Mathlib.Algebra.Order.Ring.Rat

/-! The heartbeat of a running job. Each evaluation sees when the job last made progress: after
enough silence the job gets a notice, then one more after each interval, and progress takes them
back. The service evaluates once for each tick and ends the job at its last notice. Timestamps
are numbers of seconds. -/

namespace CodexBridge.Heartbeat

/-- A notice after the first one is `REPEAT` in the source. -/
inductive HeartbeatAction where
  | idle | reset | enter | again
  deriving DecidableEq

structure HeartbeatPolicy where
  silenceStartAfter : ℚ
  repeatInterval : ℚ
  maxNoticeCount : Option ℕ
  silenceStart_nonneg : 0 ≤ silenceStartAfter
  repeatInterval_pos : 0 < repeatInterval
  maxNoticeCount_pos : ∀ n, maxNoticeCount = some n → 0 < n

/-- What is watched, and for whom. -/
structure Subject where
  kind : String
  id : String
  owner : String
  deriving DecidableEq

structure HeartbeatState where
  subject : Subject
  lastProgressAt : ℚ
  lastNoticeAt : Option ℚ
  heartbeatStartedAt : Option ℚ
  noticeCount : ℕ
  updatedAt : ℚ
  deriving DecidableEq

structure HeartbeatDecision where
  action : HeartbeatAction
  subject : Subject
  lastProgressAt : ℚ
  lastNoticeAt : Option ℚ
  silenceSeconds : ℚ
  noticeCount : ℕ
  deriving DecidableEq

namespace HeartbeatDecision

/-- `notice_due` -/
def noticeDue (decision : HeartbeatDecision) : Bool :=
  decision.action = .enter || decision.action = .again

end HeartbeatDecision

namespace HeartbeatState

/-- `_heartbeat_active` -/
def active (s : HeartbeatState) : Bool := 0 < s.noticeCount || s.lastNoticeAt.isSome

def shouldEnterHeartbeat (s : HeartbeatState) : Bool := s.lastNoticeAt.isNone || s.noticeCount = 0

def noticeLimitReached (s : HeartbeatState) (policy : HeartbeatPolicy) : Bool :=
  policy.maxNoticeCount.any fun limit => limit ≤ s.noticeCount

def sinceLastNotice (s : HeartbeatState) (now : ℚ) : ℚ :=
  match s.lastNoticeAt with
  | none => 0
  | some notice => max 0 (now - notice)

def reset (s : HeartbeatState) (progressAt now : ℚ) : HeartbeatState :=
  { s with
    lastProgressAt := progressAt
    lastNoticeAt := none
    heartbeatStartedAt := none
    noticeCount := 0
    updatedAt := now }

/-- A notice at `now`, the first one or the next. -/
def notice (s : HeartbeatState) (count : ℕ) (now : ℚ) : HeartbeatState :=
  { s with
    lastNoticeAt := some now
    heartbeatStartedAt := some (s.heartbeatStartedAt.getD now)
    noticeCount := count
    updatedAt := now }

def decision (s : HeartbeatState) (action : HeartbeatAction) (silence : ℚ) : HeartbeatDecision :=
  ⟨action, s.subject, s.lastProgressAt, s.lastNoticeAt, silence, s.noticeCount⟩

end HeartbeatState

/-- The progress an evaluation works with: what was observed, or else its own time. -/
def progressTimestamp (observed : Option ℚ) (now : ℚ) : ℚ := observed.getD now

def progressAdvanced (observed recorded : ℚ) : Bool :=
  observed ≠ recorded && 0 < observed - recorded

def currentState (state : Option HeartbeatState) (subject : Subject) (progressAt now : ℚ) :
    HeartbeatState :=
  state.getD ⟨subject, progressAt, none, none, 0, now⟩

def evaluateHeartbeat (policy : HeartbeatPolicy) (subject : Subject) (observed : Option ℚ)
    (now : ℚ) (state : Option HeartbeatState) : HeartbeatState × HeartbeatDecision :=
  let progressAt := progressTimestamp observed now
  let current := currentState state subject progressAt now
  let base := { current with subject := subject }
  if progressAdvanced progressAt current.lastProgressAt && current.active then
    let next := base.reset progressAt now
    (next, next.decision .reset 0)
  else
    let base := { base with lastProgressAt := progressAt }
    let silence := max 0 (now - progressAt)
    if silence < policy.silenceStartAfter then (base, base.decision .idle silence)
    else if base.shouldEnterHeartbeat then
      let next := base.notice 1 now
      (next, next.decision .enter silence)
    else if base.noticeLimitReached policy then (base, base.decision .idle silence)
    else if base.sinceLastNotice now < policy.repeatInterval
      then (base, base.decision .idle silence)
    else
      let next := base.notice (base.noticeCount + 1) now
      (next, next.decision .again silence)

/-! ### The service -/

/-- The service, as far as one job is concerned. -/
structure JobHeartbeatService where
  policy : HeartbeatPolicy
  terminalNoticeCount : Option ℕ

/-- What a tick finds: whether the snapshot of the job is terminal, and the updates of the
snapshot and of the job. -/
structure TickInput where
  snapshotTerminal : Bool
  snapshotUpdatedAt : Option ℚ
  jobUpdatedAt : Option ℚ
  now : ℚ

/-- What a tick does to the job. -/
inductive TickOutcome where
  | untracked
  | idle
  | reset (decision : HeartbeatDecision)
  | observed (decision : HeartbeatDecision)
  | timedOut (decision : HeartbeatDecision)
  deriving DecidableEq

namespace JobHeartbeatService

def heartbeatTimeoutDue (service : JobHeartbeatService) (decision : HeartbeatDecision) : Bool :=
  service.terminalNoticeCount.any fun limit => limit ≤ decision.noticeCount

/-- A tick, from the state in the store to the one it leaves there. A state that brings no
notice is not saved. -/
def tickJobHeartbeat (service : JobHeartbeatService) (subject : Subject)
    (stored : Option HeartbeatState) (input : TickInput) : Option HeartbeatState × TickOutcome :=
  if input.snapshotTerminal then (none, .untracked)
  else
    match input.snapshotUpdatedAt.or input.jobUpdatedAt with
    | none => (stored, .untracked)
    | some observed =>
      let (next, decision) :=
        evaluateHeartbeat service.policy subject (some observed) input.now stored
      if decision.action = .reset then (some next, .reset decision)
      else if decision.noticeDue = false then (stored, .idle)
      else if service.heartbeatTimeoutDue decision then (none, .timedOut decision)
      else (some next, .observed decision)

end JobHeartbeatService

end CodexBridge.Heartbeat
