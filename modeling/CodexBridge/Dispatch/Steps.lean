import CodexBridge.Dispatch.Control
import Mathlib.Logic.Relation

/-! The operations of the dispatcher as steps of a run. The sweep, the repair, the
preparation and the job starts that a tick performs in sequence are steps of
their own too. -/

namespace CodexBridge.Dispatch

inductive Op where
  | submit (request : MessageEnvelope)
  | resubmit (messageId : MessageId)
  | retry (target : ℕ)
  | tick
  | sweepCallbacks
  | repairCallbacks
  | prepareReplies
  | startJobs
  | complete (jobId : JobId) (decision : CompletionDecision)
  | cancel (jobId : JobId) (recordReply : Bool)
  | ack (agentName : AgentName) (inboundEventId : Option InboundEventId)
  | recover (jobId : JobId) (replyDeliveryJobId : Option JobId) (hint : Bool)
  | inspect (agentName : AgentName)
  | disableAutoReplyDelivery
  | shutdown

def exec (cfg : Config) (w : World) (s : State) : Op → State
  | .submit request => (s.submitJobs cfg w request).1
  | .resubmit messageId => (s.resubmitMessage cfg w messageId).1
  | .retry target =>
    match s.retryAttempt cfg target (w.clock 0 .accepted) with
    | .ok retried => retried.1
    | .error _ => s
  | .tick => s.tick cfg w
  | .sweepCallbacks => State.sweepCallbackTimeouts cfg (w.clock 0 .sweep) s
  | .repairCallbacks => State.repairCallbackEdges cfg w s
  | .prepareReplies => (s.prepare cfg w).1
  | .startJobs => s.tickJobs cfg w
  | .complete jobId decision => s.complete cfg w jobId decision
  | .cancel jobId recordReply => (s.cancelJob cfg w jobId recordReply).1
  | .ack agentName inboundEventId => (s.ackReply cfg w agentName inboundEventId).1
  | .recover jobId replyDeliveryJobId hint =>
    (s.commsRecover cfg w jobId replyDeliveryJobId hint).1
  | .inspect agentName =>
    if agentName ∈ cfg.agents then s.discardStaleHeadEvents (w.clock 0 .accepted) agentName else s
  | .disableAutoReplyDelivery => s.disableAutoReplyDelivery
  | .shutdown => s.terminateNonterminalJobs cfg w

/-- What callers promise: completions are reported for started jobs only, and a
request cannot name an edge identifier that was never issued. -/
def Op.admissible (s : State) : Op → Prop
  | .submit request => ∀ e, request.routeOptions.callbackEdgeId = some e → e < s.nextId
  | .complete jobId _ => ∀ current, s.getJob jobId = some current → current.status.pending = false
  | _ => True

instance (s : State) (op : Op) : Decidable (op.admissible s) :=
  match op with
  | .submit request =>
    match h : request.routeOptions.callbackEdgeId with
    | none => isTrue fun e he => by simp [h] at he
    | some i => decidable_of_iff (i < s.nextId) (by simp [Op.admissible, h])
  | .complete jobId _ =>
    match h : s.getJob jobId with
    | none => isTrue fun current hc => by simp [h] at hc
    | some r => decidable_of_iff (r.status.pending = false) (by simp [Op.admissible, h])
  | .resubmit _ | .retry _ | .tick | .sweepCallbacks | .repairCallbacks | .prepareReplies
  | .startJobs | .cancel _ _ | .ack _ _ | .recover _ _ _ | .inspect _
  | .disableAutoReplyDelivery | .shutdown => isTrue trivial

/-- One step of a run in which `allowed` says which operations may be taken where. -/
def Step (cfg : Config) (allowed : World → State → Op → Prop) (s s' : State) : Prop :=
  ∃ w op, op.admissible s ∧ allowed w s op ∧ s' = exec cfg w s op

def Reachable (cfg : Config) (allowed : World → State → Op → Prop) (s : State) : Prop :=
  ∃ autoReplyDelivery, Relation.ReflTransGen (Step cfg allowed) (State.initial autoReplyDelivery) s

end CodexBridge.Dispatch
