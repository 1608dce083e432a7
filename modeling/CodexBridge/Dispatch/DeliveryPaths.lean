import CodexBridge.Dispatch.Paths

/-! Preparing and repairing reply deliveries, and completing delivery jobs, as paths
of acts. -/

namespace CodexBridge.Dispatch

open AppendLog
open Mailbox (InboundEventRecord InboundEventType InboundEventStatus)

variable {cfg : Config} {w : World} {s s' : State} {a : AgentName}

/-- The acts that any operation may come to perform: the only jobs they end are
deliveries. -/
def Act.routine : Act → Prop
  | .finish current _ _ dequeue => dequeue = false ∧ State.isReplyDeliveryJob current = true
  | .startRequest .. | .startDelivery .. | .touch .. | .deliver .. | .reset ..
  | .consumeDelivered .. | .refresh .. | .issue .. | .disableAuto => True
  | _ => False

/-- A path of routine acts. -/
abbrev Routine (cfg : Config) : State → State → Prop := Path cfg fun _ act => act.routine

theorem Routine.act (act : Act) (hr : act.routine) (g : act.guard cfg s) :
    Routine cfg s (act.apply cfg s) :=
  Relation.ReflTransGen.single ⟨act, hr, g, rfl⟩

/-! ### Heads -/

theorem headPendingEvent_rewriteHead {mb : Mailbox} {head : InboundEventRecord}
    (h : mb.headPendingEvent = some head) (clock payloadRef updatedAt clear) :
    (mb.rewriteHead clock head.inboundEventId payloadRef .queued updatedAt
      clear).1.headPendingEvent =
        some (Mailbox.rewriteRecord head payloadRef .queued clear) := by
  obtain ⟨hmem, hlive⟩ := Mailbox.headPendingEvent_mem h
  rcases Mailbox.rewriteHead_cases mb clock head.inboundEventId payloadRef .queued updatedAt
    clear with ⟨-, hended⟩ | ⟨current, hcmem, hid, -, hrewrite⟩
  · rw [hended head hmem rfl] at hlive
    contradiction
  · obtain rfl := Mailbox.eq_of_mem_latestEvents hcmem hmem hid
    have hself : (mb.append (Mailbox.rewriteRecord current payloadRef .queued
        clear)).headPendingEvent = _ := Mailbox.headPendingEvent_append_self h rfl rfl
    rw [hrewrite, ← hself]
    exact Mailbox.headPendingEvent_congr (by simp)

/-- Taking a delivery that is over off the head. -/
theorem resetStaleReplyHead_path {head : InboundEventRecord} {replyId : ReplyId}
    (hhead : s.headReplyEvent a = some head)
    (hreply : replyIdFromPayload head.payloadRef = some replyId)
    (hover : Act.deliveryOver s head.payloadRef) (now : Timestamp) :
    Routine cfg s (s.resetStaleReplyHead a head replyId now) := by
  obtain ⟨hh, -⟩ := State.headReplyEvent_eq_some hhead
  exact Routine.act (.reset a head replyId now) trivial
    ⟨getLatest_head hh, .inl hreply, hover⟩

theorem headReplyEvent_resetStaleReplyHead {head ready : InboundEventRecord} {replyId : ReplyId}
    (hhead : s.headReplyEvent a = some head) {now : Timestamp}
    (h : (s.resetStaleReplyHead a head replyId now).headReplyEvent a = some ready) :
    ready.payloadRef = some (.reply replyId none) := by
  obtain ⟨hh, -⟩ := State.headReplyEvent_eq_some hhead
  obtain ⟨hready, -⟩ := State.headReplyEvent_eq_some h
  have hmb : (s.resetStaleReplyHead a head replyId now).mailboxes a = _ :=
    Function.update_self _ _ _
  rw [hmb, headPendingEvent_rewriteHead hh] at hready
  rw [← Option.some.inj hready]
  rfl

/-- Settling the delivery the head names; what is left is a head without one. -/
theorem resolveExistingDeliveryJob_path (cfg : Config) {head : InboundEventRecord}
    {replyId : ReplyId}
    (hhead : s.headReplyEvent a = some head)
    (hreply : replyIdFromPayload head.payloadRef = some replyId) (now : Timestamp) :
    Routine cfg s (s.resolveExistingDeliveryJob a head replyId now).1 ∧
      ∀ ready, (s.resolveExistingDeliveryJob a head replyId now).2 = some ready →
        (s.resolveExistingDeliveryJob a head replyId now).1.headReplyEvent a = some ready ∧
          ready.payloadRef = some (.reply replyId none) := by
  unfold State.resolveExistingDeliveryJob
  split
  · rename_i hnone
    refine ⟨.refl, fun ready hready => ?_⟩
    obtain rfl := Option.some.inj hready
    refine ⟨hhead, ?_⟩
    rcases hp : head.payloadRef with _ | ⟨j | ⟨r, d⟩⟩
    · simp [hp, replyIdFromPayload] at hreply
    · simp [hp, replyIdFromPayload] at hreply
    · simp only [hp, replyIdFromPayload, Option.some.injEq] at hreply
      simp only [hp, deliveryJobIdFromPayload] at hnone
      rw [hreply, hnone]
  · rename_i d hd
    split
    · rename_i hjob
      refine ⟨resetStaleReplyHead_path hhead hreply ?_ now, fun ready hready =>
        ⟨hready, headReplyEvent_resetStaleReplyHead hhead hready⟩⟩
      intro d' hd' job hjob'
      obtain rfl := Option.some.inj (hd.symm.trans hd')
      rw [hjob] at hjob'
      contradiction
    · rename_i current hjob
      split_ifs with hlive hdone
      · exact ⟨.refl, fun ready hready => by contradiction⟩
      · refine ⟨?_, fun ready hready => by contradiction⟩
        have hid := (State.getJob_mem hjob).2
        exact Routine.act (.consumeDelivered a head current current.updatedAt) trivial
          ⟨hhead, hid ▸ hd, hid ▸ hjob, hdone⟩
      · refine ⟨resetStaleReplyHead_path hhead hreply ?_ now, fun ready hready =>
          ⟨hready, headReplyEvent_resetStaleReplyHead hhead hready⟩⟩
        intro d' hd' job hjob'
        obtain rfl := Option.some.inj (hd.symm.trans hd')
        obtain rfl := Option.some.inj (hjob.symm.trans hjob')
        cases hs : current.status <;> simp_all [State.failedTerminal, JobStatus.pending]

theorem prepareAgentReplyDelivery_path (known : a ∈ cfg.agents) (depth : ℕ) :
    Routine cfg s (State.prepareAgentReplyDelivery cfg w depth s a).1 := by
  unfold State.prepareAgentReplyDelivery
  split
  · exact .refl
  · rename_i head hhead
    split
    · exact .refl
    · rename_i replyId hreply
      obtain ⟨hpath, hready⟩ := resolveExistingDeliveryJob_path cfg hhead hreply
        (w.clock depth (.reset a))
      split
      · rename_i resolved heq
        rw [heq] at hpath
        exact hpath
      · rename_i resolved ready heq
        rw [heq] at hpath hready
        obtain ⟨hh, hpay⟩ := hready ready rfl
        split
        · exact hpath
        · rename_i reply hget
          split_ifs
          · have hid := (State.getReply_mem hget).2
            exact hpath.trans (Routine.act
              (.deliver a ready reply (w.clock depth (.prepare a))) trivial
              ⟨known, hh, by rw [hid, hpay], hid.symm ▸ hget⟩)
          · exact hpath

/-! ### Repair and completion -/

/-- A delivery job named by a mailbox is a delivery job. -/
theorem Sound.isReplyDeliveryJob (h : Sound cfg s) {head : InboundEventRecord} {d : JobId}
    {current : JobRecord} (hhead : s.headReplyEvent a = some head)
    (hd : deliveryJobIdFromPayload head.payloadRef = some d) (hjob : s.getJob d = some current) :
    State.isReplyDeliveryJob current = true := by
  obtain ⟨hh, ht⟩ := State.headReplyEvent_eq_some hhead
  have hmem := mem_of_mem_latest (Mailbox.headPendingEvent_mem hh).1
  obtain ⟨-, rep, -, d', hp, -, -, hdel, -⟩ := ((h.inboxes.ok a).shape head hmem).resolve_left
    fun ha => by simp [ha.1] at ht
  rw [hp] at hd
  obtain ⟨r, hr, hid, hdelivers⟩ := hdel d hd
  have same := h.coherent.same hr hid hjob
  have hs := hdelivers.scheduled
  unfold scheduled at hs
  rw [same.providerOptions, Bool.and_eq_true] at hs
  simp [State.isReplyDeliveryJob, hs.1]

section Repair
variable {complete : State → JobId → CompletionDecision → State}
  (hcomplete : ∀ s, Sound cfg s → ∀ j current decision, s.getJob j = some current →
    current.status = .running → State.isReplyDeliveryJob current = true →
      Routine cfg s (complete s j decision))

include hcomplete in
theorem repairAgentReplyDeliveryHead_path (h : Sound cfg s) (depth : ℕ) (a : AgentName) :
    Routine cfg s (State.repairAgentReplyDeliveryHead cfg w depth complete s a) := by
  unfold State.repairAgentReplyDeliveryHead
  split
  · exact .refl
  · rename_i head hhead
    split
    · exact .refl
    · rename_i replyId hreply
      split
      · rename_i hnone
        split_ifs
        · refine resetStaleReplyHead_path hhead hreply (fun d hd => ?_) _
          rw [hnone] at hd
          contradiction
        · exact .refl
      · rename_i d hd
        split
        · rename_i hjob
          refine resetStaleReplyHead_path hhead hreply (fun d' hd' job hjob' => ?_) _
          obtain rfl := Option.some.inj (hd.symm.trans hd')
          rw [hjob] at hjob'
          contradiction
        · rename_i current hjob
          have hdelivery := h.isReplyDeliveryJob hhead hd hjob
          have hfound : s.getJob current.jobId = some current :=
            (State.getJob_mem hjob).2.symm ▸ hjob
          by_cases hrun : current.status = .running
          · rw [if_neg (not_not.mpr hrun)]
            split
            · exact hcomplete s h _ _ _ hfound hrun hdelivery
            · split_ifs
              · exact .refl
              · exact hcomplete s h _ _ _ hfound hrun hdelivery
          · rw [if_pos hrun]
            exact .refl

theorem prepare_foldl_fst (w : World) (depth : ℕ) (agents : List AgentName)
    (acc : State × List JobRecord) :
    (agents.foldl
      (fun acc agentName =>
        let prepared := State.prepareAgentReplyDelivery cfg w depth acc.1 agentName
        (prepared.1, acc.2 ++ prepared.2.toList)) acc).1 =
      agents.foldl (fun s agentName =>
        (State.prepareAgentReplyDelivery cfg w depth s agentName).1) acc.1 := by
  induction agents generalizing acc with
  | nil => rfl
  | cons a agents ih => exact ih _

include hcomplete in
theorem prepareReplyDeliveries_path (h : Sound cfg s) (depth : ℕ) :
    Routine cfg s (State.prepareReplyDeliveries cfg w depth complete s).1 := by
  have hrepair : Routine cfg s
      (cfg.agents.foldl (State.repairAgentReplyDeliveryHead cfg w depth complete) s) :=
    Path.foldl (fun s _ hs a _ => repairAgentReplyDeliveryHead_path hcomplete hs depth a) h
  unfold State.prepareReplyDeliveries
  dsimp only
  rw [prepare_foldl_fst]
  exact hrepair.trans (Path.foldl (fun s _ _ a ha => prepareAgentReplyDelivery_path ha depth)
    (hrepair.sound h))

end Repair

end CodexBridge.Dispatch
