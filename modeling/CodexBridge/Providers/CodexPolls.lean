import CodexBridge.Providers.Codex
import CodexBridge.Providers.LogSteps

/-! The polls of the Codex adapter as a machine over the steps of the session log. Its
parsing state survives the runtime state between two polls. -/

namespace CodexBridge.Providers

open Completion Execution

namespace Codex

variable (host : Host)

/-! ### The Codex machine -/

def step (sub : Submission) (now : Active.Now) (poll : PollState) : LogStep → PollState
  | .session path => applySessionRotation sub now poll path
  | .event entry => processEntry host sub now poll entry

theorem processEntryBatch_eq (sub : Submission) (now : Active.Now) {poll : PollState}
    (h : poll.reachedTerminal = false) (entries : List LogEvent) :
    processEntryBatch host sub now poll entries =
      runUntil (step host sub now) PollState.reachedTerminal poll (entries.map .event) := by
  induction entries generalizing poll with
  | nil => rfl
  | cons entry rest ih =>
    rw [List.map_cons, Halting.runUntil_cons h, processEntryBatch, step]
    split
    · rename_i hend
      rw [Halting.runUntil_halted hend]
    · rename_i hend
      exact ih (by simpa using hend)

theorem reachedTerminal_rotation (sub : Submission) (now : Active.Now) (poll : PollState)
    (path : String) :
    (applySessionRotation sub now poll path).reachedTerminal = poll.reachedTerminal := by
  simp only [applySessionRotation]
  split <;> rfl

/-- A rotation makes an item. -/
theorem rotation_of_quiet {sub : Submission} {now : Active.Now} {poll : PollState}
    {path : String} (h : (applySessionRotation sub now poll path).items = poll.items) :
    applySessionRotation sub now poll path = poll := by
  rw [applySessionRotation] at h ⊢
  split
  · rfl
  · rename_i hnew
    rw [if_neg hnew] at h
    exact absurd h (by simp [PollState.emit])

/-- Where the reads cut the log makes no difference. -/
theorem pollEntryBatches_eq (sub : Submission) (now : Active.Now) (reads : Reads)
    {poll : PollState} (h : poll.reachedTerminal = false) :
    (pollEntryBatches host sub now reads.last poll reads.batches).1 =
      runUntil (step host sub now) PollState.reachedTerminal poll
        (reads.steps (stateSessionPath host)) := by
  obtain ⟨batches, last⟩ := reads
  induction batches generalizing poll with
  | nil =>
    rw [Reads.steps, List.flatMap_nil, List.nil_append, Halting.runUntil_cons h]
    rfl
  | cons batch rest ih =>
    have hrot := reachedTerminal_rotation sub now poll (stateSessionPath host batch.state)
    rw [h] at hrot
    rw [Reads.steps, List.flatMap_cons, List.append_assoc, List.cons_append,
      Halting.runUntil_cons h, Halting.runUntil_append, pollEntryBatches, applySessionState,
      processEntryBatch_eq host sub now hrot]
    simp only [step]
    split
    · rename_i hend
      rw [Halting.runUntil_halted hend]
    · rename_i hend
      exact ih (by simpa using hend)

def emitter : Emitter PollState where
  items := PollState.items
  withItems poll items := { poll with items := items }
  reply := PollState.selectedReply
  items_withItems _ _ := rfl
  withItems_items _ := rfl
  withItems_withItems _ _ _ := rfl
  reply_withItems _ _ := rfl

section Agreement

-- Unfolding the texts that are compared is slow.
attribute [local irreducible] strip

variable {sub sub' : Submission} {now now' : Active.Now}

theorem rotation_agrees (hkind : sub.sourceKind = sub'.sourceKind)
    (hwrap : (sub.runtimeState.get "no_wrap").truthy = (sub'.runtimeState.get "no_wrap").truthy)
    (path : String) :
    emitter.Agree (fun poll => applySessionRotation sub now poll path)
      (fun poll => applySessionRotation sub' now' poll path) := by
  refine Emitter.Agree.ite (fun _ _ => Iff.rfl) (Emitter.Agree.refl) ?_
  refine Emitter.Agree.of_emit (fun _ => rfl) (fun poll l => ?_)
    (fun _ => timeless_buildItem hkind _ now now' _ _)
  rw [hwrap]
  rfl

theorem updateBindingRefs_agrees (entry : LogEvent) :
    emitter.Agree (fun poll => updateBindingRefs host poll entry)
      (fun poll => updateBindingRefs host poll entry) :=
  Emitter.Agree.of_quiet (fun _ => rfl) (fun _ _ => rfl) (fun _ => rfl)

theorem handleUserEntry_agrees (hkind : sub.sourceKind = sub'.sourceKind) (text : String) :
    emitter.Agree (fun poll => handleUserEntry sub now poll text)
      (fun poll => handleUserEntry sub' now' poll text) := by
  refine Emitter.Agree.ite (fun _ _ => Iff.rfl) ?_ (Emitter.Agree.refl)
  exact Emitter.Agree.of_emit (fun _ => rfl) (fun _ _ => rfl)
    (fun _ => timeless_buildItem hkind _ now now' _ _)

theorem handleAssistantEntry_agrees (hkind : sub.sourceKind = sub'.sourceKind)
    (entry : LogEvent) :
    emitter.Agree (fun poll => handleAssistantEntry host sub now poll entry)
      (fun poll => handleAssistantEntry host sub' now' poll entry) := by
  refine Emitter.Agree.ite (fun _ _ => Iff.rfl) (Emitter.Agree.refl) ?_
  refine Emitter.Agree.ite (fun _ _ => Iff.rfl) ?_ ?_
  · exact Emitter.Agree.of_quiet (fun _ => rfl) (fun _ _ => rfl) (fun _ => rfl)
  · exact Emitter.Agree.of_emit (fun _ => rfl) (fun _ _ => rfl)
      (fun _ => timeless_buildItem hkind _ now now' _ _)

theorem handleTerminalEntry_agrees (hkind : sub.sourceKind = sub'.sourceKind)
    (entry : LogEvent) :
    emitter.Agree (fun poll => handleTerminalEntry host sub now poll entry)
      (fun poll => handleTerminalEntry host sub' now' poll entry) := by
  refine Emitter.Agree.ite (fun _ _ => Iff.rfl) ?_
    (Emitter.Agree.ite (fun _ _ => Iff.rfl) ?_ (Emitter.Agree.refl))
  · exact Emitter.Agree.of_emit (fun _ => rfl) (fun _ _ => rfl)
      (fun _ => timeless_buildItem hkind _ now now' _ _)
  · exact Emitter.Agree.of_emit (fun _ => rfl) (fun _ _ => rfl)
      (fun _ => timeless_buildItem hkind _ now now' _ _)

theorem processEntry_agrees (hkind : sub.sourceKind = sub'.sourceKind) (entry : LogEvent) :
    emitter.Agree (fun poll => processEntry host sub now poll entry)
      (fun poll => processEntry host sub' now' poll entry) := by
  let role := lower (strip (host.text entry.fields "role"))
  let text := host.text entry.fields "text"
  have hrest : emitter.Agree
      (fun poll => if role = "user" then handleUserEntry sub now poll text
        else if !poll.anchorSeen then poll
        else if role = "assistant" then handleAssistantEntry host sub now poll entry
        else handleTerminalEntry host sub now poll entry)
      (fun poll => if role = "user" then handleUserEntry sub' now' poll text
        else if !poll.anchorSeen then poll
        else if role = "assistant" then handleAssistantEntry host sub' now' poll entry
        else handleTerminalEntry host sub' now' poll entry) :=
    Emitter.Agree.ite (fun _ _ => Iff.rfl) (handleUserEntry_agrees hkind _)
      (Emitter.Agree.ite (fun _ _ => Iff.rfl) Emitter.Agree.refl
        (Emitter.Agree.ite (fun _ _ => Iff.rfl) (handleAssistantEntry_agrees host hkind entry)
          (handleTerminalEntry_agrees host hkind entry)))
  exact hrest.comp (updateBindingRefs_agrees host entry)

theorem step_agrees (hkind : sub.sourceKind = sub'.sourceKind)
    (hwrap : (sub.runtimeState.get "no_wrap").truthy = (sub'.runtimeState.get "no_wrap").truthy)
    (logStep : LogStep) :
    emitter.Agree (fun poll => step host sub now poll logStep)
      (fun poll => step host sub' now' poll logStep) := by
  cases logStep with
  | session path => exact rotation_agrees hkind hwrap path
  | event entry => exact processEntry_agrees host hkind entry

theorem emit_congr {sub sub' : Submission} (h : sub.sourceKind = sub'.sourceKind)
    (poll : PollState) : poll.emit sub = poll.emit sub' := by
  funext now kind payload
  simp only [PollState.emit, buildItem_congr h]

/-- A step reads two things of the submission. -/
theorem step_congr {sub sub' : Submission} (hkind : sub.sourceKind = sub'.sourceKind)
    (hwrap : (sub.runtimeState.get "no_wrap").truthy = (sub'.runtimeState.get "no_wrap").truthy)
    (now : Active.Now) : step host sub now = step host sub' now := by
  funext poll logStep
  cases logStep with
  | session path => simp only [step, applySessionRotation, emit_congr hkind, hwrap]
  | event entry =>
    simp only [step, processEntry, handleUserEntry, handleAssistantEntry, handleTerminalEntry,
      appendTaskCompleteItem, appendTurnAbortedItem, emit_congr hkind]

/-- What the steps of a poll keep: the anchor of the job, and the tally of the items. -/
structure Tally (anchor : String) (first : ℕ) (poll : PollState) : Prop extends
    Tallied first poll.reachedTerminal poll.nextSeq poll.items where
  requestAnchor : poll.requestAnchor = anchor

namespace Tally

variable {anchor : String} {first : ℕ} {poll : PollState}

theorem emit (h : Tally anchor first poll) (sub : Submission) (now : Active.Now)
    (kind : ItemKind) (payload : Payload)
    (hkind : endsTurn (Active.buildItem sub kind now poll.nextSeq payload) = false) :
    Tally anchor first (poll.emit sub now kind payload) := by
  have hover : (poll.reachedTerminal ||
      endsTurn (Active.buildItem sub kind now poll.nextSeq payload)) = poll.reachedTerminal := by
    rw [hkind, Bool.or_false]
  exact ⟨h.toTallied.emit sub kind now payload hover, h.requestAnchor⟩

theorem emitLast (h : Tally anchor first poll) (sub : Submission) (now : Active.Now)
    (kind : ItemKind) (payload : Payload)
    (hkind : endsTurn (Active.buildItem sub kind now poll.nextSeq payload) = true) :
    Tally anchor first { poll.emit sub now kind payload with reachedTerminal := true } :=
  ⟨h.toTallied.emit sub kind now payload (by rw [hkind, Bool.or_true]), h.requestAnchor⟩

theorem rotation (h : Tally anchor first poll) (sub : Submission) (now : Active.Now)
    (path : String) : Tally anchor first (applySessionRotation sub now poll path) := by
  rw [applySessionRotation]
  split
  · exact h
  · have := h.emit sub now .sessionRotate
      [("session_path", .str path), ("provider_session_id", .str (pathStem path))] rfl
    exact ⟨this.1, this.2⟩

theorem userEntry (h : Tally anchor first poll) (sub : Submission) (now : Active.Now)
    (text : String) : Tally anchor first (handleUserEntry sub now poll text) := by
  rw [handleUserEntry]
  split
  · have := h.emit sub now .anchorSeen
      (("turn_id", .str (orElse poll.boundTurnId poll.requestAnchor)) ::
        optional "task_id" poll.boundTaskId ++ optional "session_path" poll.sessionPath) rfl
    exact ⟨this.1, this.2⟩
  · exact h

theorem assistantEntry (h : Tally anchor first poll) (sub : Submission) (now : Active.Now)
    (entry : LogEvent) : Tally anchor first (handleAssistantEntry host sub now poll entry) := by
  rw [handleAssistantEntry]
  split
  · exact h
  · have hnoted : Tally anchor first (noteSignature host poll entry) := ⟨h.1, h.2⟩
    dsimp only
    split
    · exact hnoted
    · refine emit ?_ sub now _ _ rfl
      exact ⟨hnoted.1, hnoted.2⟩

theorem terminalEntry (h : Tally anchor first poll) (sub : Submission) (now : Active.Now)
    (entry : LogEvent) : Tally anchor first (handleTerminalEntry host sub now poll entry) := by
  rw [handleTerminalEntry]
  split
  · refine emitLast ?_ sub now _ _ rfl
    exact ⟨h.1, h.2⟩
  · split
    · exact emitLast h sub now _ _ rfl
    · exact h

theorem step (h : Tally anchor first poll) (sub : Submission) (now : Active.Now)
    (logStep : LogStep) : Tally anchor first (step host sub now poll logStep) := by
  cases logStep with
  | session path => exact h.rotation sub now path
  | event entry =>
    have hbound : Tally anchor first (updateBindingRefs host poll entry) :=
      ⟨h.1, h.2⟩
    rw [Codex.step, processEntry]
    split
    · exact hbound.userEntry sub now _
    · split
      · exact hbound
      · split
        · exact hbound.assistantEntry host sub now entry
        · exact hbound.terminalEntry host sub now entry

end Tally

theorem processEntry_sessionPath (sub : Submission) (now : Active.Now) (poll : PollState)
    (entry : LogEvent) : (processEntry host sub now poll entry).sessionPath = poll.sessionPath := by
  have huser : ∀ poll text, (handleUserEntry sub now poll text).sessionPath = poll.sessionPath := by
    intro poll text
    rw [handleUserEntry]
    split <;> rfl
  have hassistant : ∀ poll,
      (handleAssistantEntry host sub now poll entry).sessionPath = poll.sessionPath := by
    intro poll
    rw [handleAssistantEntry]
    split
    · rfl
    · dsimp only
      split <;> rfl
  have hterminal : ∀ poll,
      (handleTerminalEntry host sub now poll entry).sessionPath = poll.sessionPath := by
    intro poll
    rw [handleTerminalEntry]
    split
    · rfl
    · split <;> rfl
  rw [processEntry]
  split
  · rw [huser]
    rfl
  · split
    · rfl
    · split
      · rw [hassistant]
        rfl
      · rw [hterminal]
        rfl

theorem rotation_sessionPath (sub : Submission) (now : Active.Now) (poll : PollState)
    {path : String} (h : path ≠ "") :
    (applySessionRotation sub now poll path).sessionPath = path := by
  rw [applySessionRotation]
  split
  · rename_i hsame
    simp only [h, decide_false, Bool.false_or, decide_eq_true_eq] at hsame
    exact hsame.symm
  · rfl

end Agreement

/-! ### Between two polls -/

section Refresh

variable (sub : Submission) (w : World)

theorem refreshReader_keeps : Keeps ["state", "workspace_path"] sub (refreshReader host sub w) := by
  rw [refreshReader]
  dsimp only
  split
  · exact Keeps.refl sub
  · split
    · exact Keeps.refl sub
    · split
      · exact Keeps.refl sub
      · refine (keeps_override sub _).mono ?_
        split_ifs <;> simp

theorem refreshReader_reply : (refreshReader host sub w).reply = sub.reply := by
  rw [refreshReader]
  dsimp only
  split
  · rfl
  · split
    · rfl
    · split <;> rfl

variable {sub w}

theorem buildPollState_refresh :
    buildPollState host (refreshReader host sub w) = buildPollState host sub := by
  have h := refreshReader_keeps host sub w
  simp [buildPollState, h.requestAnchor, nextSeq, h.lookup, h.get, h.text host]

end Refresh

/-- The log as a poll reads it. -/
def logSteps (sub : Submission) (w : World) : List LogStep :=
  (w.log.reads (readerState (refreshReader host sub w))).steps (stateSessionPath host)

/-- The poll gets to the log: the runtime is there, and the pane. -/
def ReadsLog (sub : Submission) (w : World) : Prop :=
  pollable host sub ∧ w.paneAlive = true

/-- The parsing state at the end of a poll. -/
def finalState (sub : Submission) (w : World) : PollState :=
  runUntil (step host sub w.now) PollState.reachedTerminal (buildPollState host sub)
    (logSteps host sub w)

theorem Tally.load (sub : Submission) :
    Tally (Service.requestAnchor host.toLibrary sub) (nextSeq sub.runtimeState)
      (buildPollState host sub) :=
  ⟨⟨rfl, rfl, rfl⟩, rfl⟩

theorem Tally.run (sub : Submission) (now : Active.Now) (steps : List LogStep) :
    Tally (Service.requestAnchor host.toLibrary sub) (nextSeq sub.runtimeState)
      (runUntil (Codex.step host sub now) PollState.reachedTerminal (buildPollState host sub)
        steps) :=
  Halting.runUntil_invariant (fun _ logStep _ h => h.step host sub now logStep)
    (Tally.load host sub) _

theorem Tally.final (sub : Submission) (w : World) :
    Tally (Service.requestAnchor host.toLibrary sub) (nextSeq sub.runtimeState)
      (finalState host sub w) :=
  Tally.run host sub w.now _

/-- A poll that has no result has found nothing. -/
theorem reads_of_unchanged {sub : Submission} {now : Active.Now} {log : SessionLog}
    {state : Value} (poll : PollState)
    (hlast : (pollEntryBatches host sub now (log.reads state).last poll
      (log.reads state).batches).2 = state)
    (hend : (pollEntryBatches host sub now (log.reads state).last poll
      (log.reads state).batches).1.reachedTerminal = false) :
    (log.reads state).batches = [] := by
  by_contra hne
  have hmoved : ∀ batches (poll : PollState),
      (pollEntryBatches host sub now (log.reads state).last poll
        batches).1.reachedTerminal = false →
      (pollEntryBatches host sub now (log.reads state).last poll batches).2 =
        (log.reads state).last := by
    intro batches
    induction batches with
    | nil =>
      intro poll _
      rfl
    | cons batch rest ih =>
      intro poll hend
      rw [pollEntryBatches] at hend ⊢
      split
      · rename_i hterminal
        rw [if_pos hterminal] at hend
        rw [hterminal] at hend
        cases hend
      · rename_i hterminal
        rw [if_neg hterminal] at hend
        exact ih _ hend
  exact log.moves state hne ((hmoved _ poll hend).symm.trans hlast)

/-- A poll that gets to the log either writes the parsing state back, or has read nothing
and has no result. -/
theorem poll_of_readsLog {sub : Submission} {w : World} (h : ReadsLog host sub w) :
    (∃ state, poll host sub w = some (polledResult
        (writtenBack (refreshReader host sub w) (finalState host sub w) state)
        (finalState host sub w).items)) ∨
      (poll host sub w = none ∧ finalState host sub w = buildPollState host sub) := by
  have hkeeps := refreshReader_keeps host sub w
  have hready : prepareActivePoll host (refreshReader host sub w) w = none :=
    (prepareActivePoll_eq_none host).mpr
      ⟨(hkeeps.pollable host (by decide) (by decide)).mpr h.1, h.2⟩
  have hfinal : (pollEntryBatches host (refreshReader host sub w) w.now
      (w.log.reads (readerState (refreshReader host sub w))).last
      (buildPollState host (refreshReader host sub w))
      (w.log.reads (readerState (refreshReader host sub w))).batches).1 =
      finalState host sub w := by
    rw [pollEntryBatches_eq host _ _ _ rfl, buildPollState_refresh, finalState, logSteps,
      step_congr host hkeeps.sourceKind (congrArg Value.truthy (hkeeps.get _ (by decide)))]
  rw [poll, pollSubmission, hready]
  dsimp only
  rw [finalizePollResult, hfinal]
  split
  · rename_i hquiet
    refine .inr ⟨rfl, ?_⟩
    have hend : (finalState host sub w).reachedTerminal = false := by
      rw [← (Tally.final host sub w).terminal, hquiet.1]
      rfl
    have hnone := reads_of_unchanged host _ hquiet.2.1.symm (hfinal ▸ hend)
    rw [hnone, pollEntryBatches, buildPollState_refresh] at hfinal
    rw [← hfinal]
    -- the one step left is the session of the state, and it would have made an item
    exact rotation_of_quiet ((congrArg PollState.items hfinal).trans hquiet.1)
  · exact .inl ⟨_, rfl⟩

/-! ### The adapter as a poller -/

def poller : Poller Submission World PollState PollState LogStep (ItemKind × Cursor × Payload)
    (SourceKind × Bool) String where
  source sub := (sub.sourceKind, (sub.runtimeState.get "no_wrap").truthy)
  load := buildPollState host
  log := logSteps host
  step sub w := step host sub w.now
  halted := PollState.reachedTerminal
  core := emitter.core
  out := emitter.out
  next := afterPoll (poll host)
  note := Submission.reply
  rep := PollState.selectedReply
  eager := false

/-- The runtime state keeps the parsing state. -/
theorem buildPollState_writtenBack (sub : Submission) (poll : PollState) (state : Value)
    (hanchor : poll.requestAnchor = Service.requestAnchor host.toLibrary sub) :
    buildPollState host (writtenBack sub poll state) =
      { poll with items := [], reachedTerminal := false } := by
  obtain ⟨⟩ := poll
  simp only at hanchor
  subst hanchor
  simp [buildPollState, writtenBack, Service.requestAnchor, nextSeq, Host.text_override,
    get_override, lookup_override, List.lookup_cons, Value.truthy]

theorem poller_final (sub : Submission) (w : World) :
    (poller host).final sub w = finalState host sub w := rfl

theorem poller_halted (poll : PollState) :
    (poller host).halted poll = poll.reachedTerminal := rfl

theorem poller_out (poll : PollState) :
    (poller host).out poll = poll.items.map timeless := rfl

theorem poller_rep (poll : PollState) :
    (poller host).rep ((poller host).core poll) = poll.selectedReply :=
  emitter.reply_withItems poll []

theorem poller_log (sub : Submission) (w : World) :
    (poller host).log sub w = logSteps host sub w := rfl

/-- The keys that polls change. -/
def movingKeys : List String :=
  ["state", "workspace_path", "next_seq", "anchor_seen", "bound_turn_id", "bound_task_id",
    "reply_buffer", "last_agent_message", "last_final_answer", "last_assistant_message",
    "last_assistant_signature", "session_path"]

section Next

variable {sub : Submission} {w : World} (h : ReadsLog host sub w)
include h

theorem next_keeps : Keeps movingKeys sub (afterPoll (poll host) sub w) := by
  obtain ⟨state, hpoll⟩ | ⟨hpoll, -⟩ := poll_of_readsLog host h
  · rw [afterPoll_of_some hpoll]
    have hrefresh : Keeps movingKeys sub (refreshReader host sub w) :=
      (refreshReader_keeps host sub w).mono (by decide)
    exact hrefresh.trans ⟨rfl, rfl, fun key hkey => lookup_override_of_notMem fun hmem =>
      hkey (by simp at hmem; simp [movingKeys]; tauto)⟩
  · rw [afterPoll_of_none hpoll]
    exact Keeps.refl sub

theorem next_reply : (afterPoll (poll host) sub w).reply =
    if (finalState host sub w).items = [] then sub.reply
    else (finalState host sub w).selectedReply := by
  obtain ⟨state, hpoll⟩ | ⟨hpoll, hfinal⟩ := poll_of_readsLog host h
  · rw [afterPoll_of_some hpoll, polledResult, writtenBack, refreshReader_reply]
  · rw [afterPoll_of_none hpoll, hfinal]
    rfl

theorem next_load : buildPollState host (afterPoll (poll host) sub w) =
    { finalState host sub w with items := [], reachedTerminal := false } := by
  obtain ⟨state, hpoll⟩ | ⟨hpoll, hfinal⟩ := poll_of_readsLog host h
  · rw [afterPoll_of_some hpoll]
    refine buildPollState_writtenBack host _ _ _ ?_
    rw [(Tally.final host sub w).requestAnchor]
    exact congrArg PollState.requestAnchor (buildPollState_refresh host).symm
  · rw [afterPoll_of_none hpoll, hfinal]
    rfl

theorem readsLog_next {w' : World} (h' : ReadsLog host sub w') :
    ReadsLog host (afterPoll (poll host) sub w) w' :=
  ⟨((next_keeps host h).pollable host (by decide) (by decide)).mpr h'.1, h'.2⟩

end Next

theorem poller_lawful : (poller host).Lawful (ReadsLog host) where
  load_out _ := rfl
  halted_core x y h := by
    have hsame : (emitter.core x).reachedTerminal = (emitter.core y).reachedTerminal :=
      congrArg PollState.reachedTerminal h
    exact hsame
  step_agrees s s' w w' x y e hsource hcore := by
    obtain ⟨hkind, hwrap⟩ := Prod.mk.inj hsource
    exact (step_agrees host hkind hwrap e).step hcore
  step_quiet s w x e h :=
    Emitter.Agree.quiet (g := fun poll => step host s w.now poll e) (step_agrees host rfl rfl e) h
  next_source s w h :=
    Prod.ext (next_keeps host h).sourceKind
      (congrArg Value.truthy ((next_keeps host h).get _ (by decide)))
  next_core s w h hend := by
    have hopen : (finalState host s w).reachedTerminal = false := hend
    have hcore : emitter.core (buildPollState host (afterPoll (poll host) s w)) =
        emitter.core (finalState host s w) := by
      rw [next_load host h, ← hopen]
      rfl
    exact hcore
  next_note s w h := by
    simp only [poller_final, poller_out, poller_rep, ne_eq, List.map_eq_nil_iff]
    refine (next_reply host h).trans ?_
    have heager : (poller host).eager = false := rfl
    simp only [heager, Bool.false_eq_true, false_or, ite_not]
    rfl
  next_ok s w w' h h' _ := readsLog_next host h h'

/-! ### Polls one after the other -/

theorem poll_numbered {sub : Submission} {w : World} {result : PollResult}
    (h : ReadsLog host sub w) (hpoll : poll host sub w = some result) :
    NumberedFrom (nextSeq sub.runtimeState) result.items ∧
      nextSeq result.submission.runtimeState =
        nextSeq sub.runtimeState + result.items.length := by
  have htally := Tally.final host sub w
  obtain ⟨state, hresult⟩ | ⟨hnone, -⟩ := poll_of_readsLog host h
  · rw [hpoll, Option.some_inj] at hresult
    rw [hresult]
    exact ⟨htally.numbered, htally.counted⟩
  · rw [hpoll] at hnone
    cases hnone

/-- Polls that get to the log run the poller. -/
theorem pollAll_eq_run {sub : Submission} {ws : List World}
    (h : ∀ w ∈ ws, ReadsLog host sub w) :
    (pollAll (poll host) sub ws).1.map timeless = ((poller host).run sub ws).1 ∧
      (pollAll (poll host) sub ws).2 = ((poller host).run sub ws).2 ∧
      logAll (poll host) (logSteps host) sub ws = (poller host).logs sub ws := by
  induction ws generalizing sub with
  | nil => exact ⟨rfl, rfl, rfl⟩
  | cons w ws ih =>
    have hw := h w (List.mem_cons_self ..)
    have hws : ∀ w' ∈ ws, ReadsLog host sub w' := fun w' hw' => h w' (List.mem_cons_of_mem _ hw')
    have htally := Tally.final host sub w
    have hhalted : (finalState host sub w).reachedTerminal =
      (finalState host sub w).items.any endsTurn := htally.terminal.symm
    have hnext : (poller host).next sub w = afterPoll (poll host) sub w := rfl
    rw [pollAll, logAll, Poller.run, Poller.logs, poller_final, poller_halted, poller_out,
      poller_log, hhalted, hnext]
    cases hend : (finalState host sub w).items.any endsTurn with
    | true =>
      obtain ⟨state, hpoll⟩ | ⟨hpoll, hquiet⟩ := poll_of_readsLog host hw
      · simp [hpoll, afterPoll, ended, polledResult, hend]
      · rw [hquiet] at hend
        cases hend
    | false =>
      have hrest := ih fun w' hw' =>
        (poller_lawful host).next_ok sub w w' hw (hws w' hw') (hhalted.trans hend)
      rw [hnext] at hrest
      obtain ⟨state, hpoll⟩ | ⟨hpoll, hquiet⟩ := poll_of_readsLog host hw
      · simp only [hpoll, afterPoll, ended, polledResult, hend] at hrest ⊢
        simp [hrest]
      · simp only [hpoll, afterPoll, hquiet] at hrest ⊢
        simp [hrest, buildPollState]

theorem runUntil_settled (sub : Submission) (now : Active.Now) (poll : PollState)
    (steps : List LogStep) :
    runUntil (step host sub now) PollState.reachedTerminal poll
        (settled poll.sessionPath steps) =
      runUntil (step host sub now) PollState.reachedTerminal poll steps := by
  refine Providers.runUntil_settled ?_ ?_ ?_ poll steps
  · intro poll path h
    rw [step, applySessionRotation, if_pos (by simpa using h)]
  · intro poll path h
    exact rotation_sessionPath sub now poll h
  · intro poll event
    exact processEntry_sessionPath host sub now poll event

/-- The polls bring the machine to where the log that they cut brings it. -/
theorem runUntil_logs {sub : Submission} {ws : List World} {log : List LogStep}
    (h : ∀ w ∈ ws, ReadsLog host sub w) (w₀ : World)
    (hcuts : Cuts (poll host) (logSteps host) sub (host.text sub.runtimeState "session_path") ws
      log) :
    runUntil (step host sub w₀.now) PollState.reachedTerminal (buildPollState host sub)
        ((poller host).logs sub ws) =
      runUntil (step host sub w₀.now) PollState.reachedTerminal (buildPollState host sub) log := by
  obtain ⟨hitems, -, hlogs⟩ := pollAll_eq_run host h
  rw [← hlogs]
  refine runUntil_of_cuts (fun steps => runUntil_settled host sub w₀.now (buildPollState host sub)
    steps) (fun hend => ?_) hcuts
  have htally := Tally.run host sub w₀.now ((poller host).logs sub ws)
  obtain ⟨hout, -⟩ := (poller_lawful host).run_follows w₀ h rfl rfl
  rw [← hitems] at hout
  rw [hlogs, ← htally.terminal, ← hend]
  exact any_endsTurn hout

/-- Two ways of cutting one log come to the same. -/
theorem pollAll_of_cuts {sub : Submission} {ws ws' : List World} {log : List LogStep}
    (hws : ws ≠ []) (hws' : ws' ≠ []) (h : ∀ w ∈ ws, ReadsLog host sub w)
    (h' : ∀ w ∈ ws', ReadsLog host sub w)
    (hcuts : Cuts (poll host) (logSteps host) sub (host.text sub.runtimeState "session_path") ws
      log)
    (hcuts' : Cuts (poll host) (logSteps host) sub (host.text sub.runtimeState "session_path") ws'
      log) :
    (pollAll (poll host) sub ws).1.map timeless = (pollAll (poll host) sub ws').1.map timeless ∧
      (pollAll (poll host) sub ws).2.reply = (pollAll (poll host) sub ws').2.reply ∧
      NumberedFrom (nextSeq sub.runtimeState) (pollAll (poll host) sub ws).1 := by
  obtain ⟨w₀, -⟩ := List.exists_mem_of_ne_nil ws hws
  obtain ⟨hitems, hstore, -⟩ := pollAll_eq_run host h
  obtain ⟨hitems', hstore', -⟩ := pollAll_eq_run host h'
  obtain ⟨hout, hnote⟩ := (poller_lawful host).run_eq w₀ rfl rfl rfl hws hws' h h'
    ((runUntil_logs host h w₀ hcuts).trans (runUntil_logs host h' w₀ hcuts').symm)
  refine ⟨?_, ?_, ?_⟩
  · rw [hitems, hitems', hout]
  · rw [hstore, hstore']
    exact hnote
  · refine pollAll_numbered (ReadsLog host) ?_ ?_ h
    · intro sub w result hok hpoll
      exact poll_numbered host hok hpoll
    · intro sub w w' result hok hok' hpoll hend
      rw [← afterPoll_of_some hpoll]
      exact readsLog_next host hok hok'

end Codex

end CodexBridge.Providers
