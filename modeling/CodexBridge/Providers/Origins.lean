import CodexBridge.Providers.LogSteps

/-! Where the items of a poll come from. Beside the parsing state runs the log as far as it has
been read: the session, and its events so far. Every item then has a step that made it and the
log before that step. -/

namespace CodexBridge.Providers

open Completion Execution

/-- The session log as far as it has been read. -/
structure LogView where
  sessionPath : String
  events : List LogEvent

/-- Another session starts a log of its own. -/
def LogView.read (view : LogView) : LogStep → LogView
  | .session path =>
    if path = "" ∨ path = view.sessionPath then view else ⟨path, []⟩
  | .event event => { view with events := view.events ++ [event] }

/-- An item, the step that made it, and the log before that step. -/
structure Origin where
  view : LogView
  made : LogStep
  item : Item

/-- What a turn says and how it ends. -/
def ofTurn : ItemKind → Bool
  | .assistantChunk | .turnBoundary | .turnAborted | .error => true
  | _ => false

section Machine

variable {σ : Type} (step : σ → LogStep → σ) (halted : σ → Bool) (items : σ → List Item)

def readStep (x : σ × LogView) (logStep : LogStep) : σ × LogView :=
  (step x.1 logStep, x.2.read logStep)

/-- The parsing state after the steps, and the log it has read. -/
def readAll (x : σ × LogView) (steps : List LogStep) : σ × LogView :=
  runUntil (readStep step) (halted ∘ Prod.fst) x steps

/-- The items that a step adds. -/
def added (x : σ) (logStep : LogStep) : List Item :=
  (items (step x logStep)).drop (items x).length

def origins (x : σ × LogView) : List LogStep → List Origin
  | [] => []
  | logStep :: rest =>
    if halted x.1 then []
    else (added step items x.1 logStep).map (Origin.mk x.2 logStep) ++
      origins (readStep step x logStep) rest

variable {step halted items}

theorem readAll_halted {x : σ × LogView} (h : halted x.1 = true) (steps : List LogStep) :
    readAll step halted x steps = x := by
  have hhalt : (halted ∘ Prod.fst) x = true := h
  exact Halting.runUntil_halted hhalt steps

theorem readAll_cons {x : σ × LogView} (h : halted x.1 = false) (logStep : LogStep)
    (rest : List LogStep) : readAll step halted x (logStep :: rest) =
      readAll step halted (readStep step x logStep) rest := by
  have hhalt : (halted ∘ Prod.fst) x = false := h
  exact Halting.runUntil_cons hhalt logStep rest

theorem readAll_fst (x : σ × LogView) (steps : List LogStep) :
    (readAll step halted x steps).1 = runUntil step halted x.1 steps := by
  induction steps generalizing x with
  | nil => rfl
  | cons logStep rest ih =>
    cases hx : halted x.1 with
    | true => rw [readAll_halted hx, Halting.runUntil_halted hx]
    | false => rw [readAll_cons hx, Halting.runUntil_cons hx, ih, readStep]

theorem readAll_invariant {Inv : σ × LogView → Prop}
    (hstep : ∀ x logStep, halted x.1 = false → Inv x → Inv (readStep step x logStep))
    {x : σ × LogView} (h : Inv x) (steps : List LogStep) : Inv (readAll step halted x steps) :=
  Halting.runUntil_invariant hstep h steps

/-- The items of a machine that only appends have origins, in their order. -/
theorem items_readAll (happend : ∀ x logStep, items x <+: items (step x logStep))
    (x : σ × LogView) (steps : List LogStep) :
    items (readAll step halted x steps).1 =
      items x.1 ++ (origins step halted items x steps).map Origin.item := by
  induction steps generalizing x with
  | nil => exact (List.append_nil _).symm
  | cons logStep rest ih =>
    cases hx : halted x.1 with
    | true =>
      rw [readAll_halted hx, origins, if_pos hx]
      exact (List.append_nil _).symm
    | false =>
      have hstep : items (step x.1 logStep) = items x.1 ++ added step items x.1 logStep :=
        (List.prefix_iff_eq_append.mp (happend x.1 logStep)).symm
      rw [readAll_cons hx, ih, origins, hx, if_neg Bool.false_ne_true,
        List.map_append, List.map_map, ← List.append_assoc, readStep, hstep]
      have hitem : Origin.item ∘ Origin.mk x.2 logStep = id := rfl
      rw [hitem, List.map_id]

/-- What every step keeps holds of the origin of every item. -/
theorem origins_invariant {Inv : σ × LogView → Prop} {Q : Origin → Prop}
    (hstep : ∀ x logStep, halted x.1 = false → Inv x → Inv (readStep step x logStep))
    (hadded : ∀ x logStep item, Inv x → item ∈ added step items x.1 logStep →
      Q ⟨x.2, logStep, item⟩)
    {x : σ × LogView} (h : Inv x) (steps : List LogStep) :
    ∀ origin ∈ origins step halted items x steps, Q origin := by
  induction steps generalizing x with
  | nil =>
    intro origin horigin
    nomatch horigin
  | cons logStep rest ih =>
    intro origin horigin
    cases hx : halted x.1 with
    | true =>
      rw [origins, if_pos hx] at horigin
      nomatch horigin
    | false =>
      rw [origins, hx, if_neg Bool.false_ne_true] at horigin
      obtain hfirst | hrest := List.mem_append.mp horigin
      · obtain ⟨item, hitem, rfl⟩ := List.mem_map.mp hfirst
        exact hadded x logStep item h hitem
      · exact ih (hstep x logStep hx h) origin hrest

end Machine

/-! ### Polls -/

/-- The submissions that polls lead to, with the log read by then; `view` is the log after a
poll, and every poll is one that is `allowed`. -/
inductive Polled (poll : Submission → World → Option PollResult)
    (view : Submission → World → LogView → LogView) (allowed : Submission → World → Prop)
    (start : Submission) (log : LogView) : Submission → LogView → Prop
  | start : Polled poll view allowed start log start log
  | poll {sub : Submission} {seen : LogView} (w : World)
      (h : Polled poll view allowed start log sub seen) (hw : allowed sub w) :
      Polled poll view allowed start log (afterPoll poll sub w) (view sub w seen)

/-- What every poll keeps holds after all of them. -/
theorem Polled.invariant {poll : Submission → World → Option PollResult}
    {view : Submission → World → LogView → LogView} {allowed : Submission → World → Prop}
    {Inv : Submission → LogView → Prop}
    (hpoll : ∀ sub seen w, allowed sub w → Inv sub seen →
      Inv (afterPoll poll sub w) (view sub w seen))
    {start sub : Submission} {log seen : LogView} (hstart : Inv start log)
    (h : Polled poll view allowed start log sub seen) : Inv sub seen := by
  induction h with
  | start => exact hstart
  | poll w _ hw ih => exact hpoll _ _ w hw ih

/-! ### Polls that fail -/

section Failures

variable (host : Host)

theorem passivated_keeps (sub : Submission) :
    Keeps ["mode", "next_seq"] sub (Active.passivated sub) :=
  keeps_override sub
    [("mode", .str "passive"), ("next_seq", .int (nextSeq sub.runtimeState + 1))]

theorem submission_of_unprepared {sub : Submission} {w : World} {result : PollResult}
    (h : prepareActivePollWithoutLiveness host sub w = some result) :
    result.submission = Active.passivated sub := by
  rw [prepareActivePollWithoutLiveness, runtimeModeError] at h
  split at h
  · rename_i hmode
    cases h
    split_ifs at hmode <;> cases hmode <;> rfl
  · split at h
    · cases h
      rfl
    · cases h

theorem submission_of_dead {sub : Submission} {w : World} {result : PollResult}
    (h : ensureActivePaneAlive sub w = some result) :
    result.submission = Active.passivated sub := by
  rw [ensureActivePaneAlive] at h
  split at h
  · cases h
  · cases h
    rfl

end Failures

/-! ### The anchor in the log -/

/-- The log has an event of the user with the anchor of the prompt. -/
def LogView.Carries (host : Host) (isUser : LogEvent → Bool) (anchor : String) (view : LogView) :
    Prop :=
  ∃ event ∈ view.events, isUser event = true ∧
    Protocol.carriesAnchor anchor (host.text event.fields "text") = true

theorem LogView.Carries.event {host : Host} {isUser : LogEvent → Bool} {anchor : String}
    {view : LogView} (h : view.Carries host isUser anchor) (event : LogEvent) :
    (view.read (.event event)).Carries host isUser anchor := by
  obtain ⟨carrier, hmem, hcarrier⟩ := h
  exact ⟨carrier, List.mem_append_left _ hmem, hcarrier⟩

theorem LogView.carries_read {host : Host} {isUser : LogEvent → Bool} {anchor : String}
    {event : LogEvent} (huser : isUser event = true)
    (hcarries : Protocol.carriesAnchor anchor (host.text event.fields "text") = true)
    (view : LogView) : (view.read (.event event)).Carries host isUser anchor :=
  ⟨event, List.mem_append_right _ (List.mem_singleton_self event), huser, hcarries⟩

end CodexBridge.Providers
