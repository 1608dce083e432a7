import CodexBridge.Heartbeat.Engine
import Mathlib.Tactic.Linarith
import Mathlib.Tactic.NormNum
import Mathlib.Tactic.Ring
import Mathlib.Data.List.Induction

/-! A job that has had `n` notices has been silent for as long as they take: the start of the
silence and `n - 1` intervals. The time of the last notice carries this from one evaluation to
the next, for a state that is looked at later is at least as silent. Progress that is observed
after the time of its evaluation counts as no silence at all, so a policy that starts without
any silence must not see it. -/

namespace CodexBridge.Heartbeat

variable {policy : HeartbeatPolicy} {subject : Subject} {observed : Option ℚ} {now : ℚ}
  {state : Option HeartbeatState}

/-- The silence that a number of notices takes. -/
def HeartbeatPolicy.silenceFor (policy : HeartbeatPolicy) (count : ℕ) : ℚ :=
  policy.silenceStartAfter + ((count : ℚ) - 1) * policy.repeatInterval

theorem silenceFor_one (policy : HeartbeatPolicy) :
    policy.silenceFor 1 = policy.silenceStartAfter := by
  simp [HeartbeatPolicy.silenceFor]

theorem silenceFor_succ (policy : HeartbeatPolicy) (count : ℕ) :
    policy.silenceFor (count + 1) = policy.silenceFor count + policy.repeatInterval := by
  simp only [HeartbeatPolicy.silenceFor, Nat.cast_add, Nat.cast_one]
  ring

/-! ### One evaluation -/

/-- The four things an evaluation can do to the current state. -/
inductive Moves (policy : HeartbeatPolicy) (progressAt now : ℚ) (current : HeartbeatState) :
    HeartbeatState → HeartbeatAction → Prop where
  | reset {next : HeartbeatState} (hcount : next.noticeCount = 0)
      (hnotice : next.lastNoticeAt = none) : Moves policy progressAt now current next .reset
  | idle {next : HeartbeatState}
      (hkept : current.active = true → progressAt ≤ current.lastProgressAt)
      (hprogress : next.lastProgressAt = progressAt)
      (hcount : next.noticeCount = current.noticeCount)
      (hnotice : next.lastNoticeAt = current.lastNoticeAt) :
      Moves policy progressAt now current next .idle
  | enter {next : HeartbeatState} (hprogress : next.lastProgressAt = progressAt)
      (hcount : next.noticeCount = 1) (hnotice : next.lastNoticeAt = some now)
      (hsilence : policy.silenceStartAfter ≤ max 0 (now - progressAt)) :
      Moves policy progressAt now current next .enter
  | again {next : HeartbeatState} {notice : ℚ} (hkept : progressAt ≤ current.lastProgressAt)
      (hprogress : next.lastProgressAt = progressAt)
      (hlast : current.lastNoticeAt = some notice)
      (hcount : next.noticeCount = current.noticeCount + 1) (hnotice : next.lastNoticeAt = some now)
      (hlimit : ∀ limit, policy.maxNoticeCount = some limit → current.noticeCount < limit)
      (hinterval : policy.repeatInterval ≤ max 0 (now - notice)) :
      Moves policy progressAt now current next .again

theorem progressAdvanced_eq_true {observed recorded : ℚ} :
    progressAdvanced observed recorded = true ↔ recorded < observed := by
  simp only [progressAdvanced, Bool.and_eq_true, decide_eq_true_eq, sub_pos, ne_eq,
    and_iff_right_iff_imp]
  exact fun h => h.ne'

theorem evaluateHeartbeat_moves (policy : HeartbeatPolicy) (subject : Subject)
    (observed : Option ℚ) (now : ℚ) (state : Option HeartbeatState) :
    Moves policy (progressTimestamp observed now) now
      (currentState state subject (progressTimestamp observed now) now)
      (evaluateHeartbeat policy subject observed now state).1
      (evaluateHeartbeat policy subject observed now state).2.action := by
  simp only [evaluateHeartbeat]
  generalize progressTimestamp observed now = progressAt
  generalize currentState state subject progressAt now = current
  split_ifs with hreset hsilence henter hlimit hinterval
  · exact .reset rfl rfl
  all_goals
    have hkept : current.active = true → progressAt ≤ current.lastProgressAt := by
      intro hactive
      by_contra hlt
      exact hreset (by simp [progressAdvanced_eq_true, hactive, not_le.mp hlt])
  · exact .idle hkept rfl rfl rfl
  · exact .enter rfl rfl rfl (not_lt.mp hsilence)
  · exact .idle hkept rfl rfl rfl
  · exact .idle hkept rfl rfl rfl
  · simp only [HeartbeatState.shouldEnterHeartbeat, Bool.or_eq_true, not_or] at henter
    obtain ⟨notice, hnotice⟩ := Option.ne_none_iff_exists'.mp fun hnone =>
      henter.1 (Option.isNone_iff_eq_none.mpr hnone)
    refine .again (hkept ?_) rfl hnotice rfl rfl ?_ ?_
    · simp [HeartbeatState.active, hnotice]
    · intro limit hmax
      simpa [HeartbeatState.noticeLimitReached, hmax] using hlimit
    · simp only [HeartbeatState.sinceLastNotice, hnotice] at hinterval
      exact not_lt.mp hinterval

/-! ### What a state says -/

/-- A state at a time `t`, not before its last notice: the silence up to that notice is as long
as the notices take, and there are not more of them than the policy has. -/
structure Sound (policy : HeartbeatPolicy) (s : HeartbeatState) (t : ℚ) : Prop where
  noticed : 0 < s.noticeCount → s.lastNoticeAt ≠ none
  silent : ∀ notice, s.lastNoticeAt = some notice →
    notice ≤ t ∧ policy.silenceFor s.noticeCount ≤ notice - s.lastProgressAt
  capped : ∀ limit, policy.maxNoticeCount = some limit → s.noticeCount ≤ limit

theorem Sound.mono {s : HeartbeatState} {t t' : ℚ} (h : Sound policy s t) (ht : t ≤ t') :
    Sound policy s t' :=
  ⟨h.noticed, fun notice hnotice =>
    ⟨(h.silent notice hnotice).1.trans ht, (h.silent notice hnotice).2⟩, h.capped⟩

theorem Sound.silence {s : HeartbeatState} {t : ℚ} (h : Sound policy s t)
    (hcount : 0 < s.noticeCount) : policy.silenceFor s.noticeCount ≤ t - s.lastProgressAt := by
  obtain ⟨notice, hnotice⟩ := Option.ne_none_iff_exists'.mp (h.noticed hcount)
  obtain ⟨htime, hsilent⟩ := h.silent notice hnotice
  linarith

theorem Sound.fresh (policy : HeartbeatPolicy) {s : HeartbeatState} (t : ℚ)
    (hcount : s.noticeCount = 0) (hnotice : s.lastNoticeAt = none) : Sound policy s t := by
  refine ⟨fun hpos => ?_, fun notice hsome => ?_, fun limit _ => ?_⟩
  · rw [hcount] at hpos
    exact absurd hpos (lt_irrefl 0)
  · rw [hnotice] at hsome
    cases hsome
  · rw [hcount]
    exact Nat.zero_le limit

theorem currentState_sound (policy : HeartbeatPolicy) (subject : Subject) (progressAt : ℚ)
    {t now : ℚ} (ht : t ≤ now) (h : ∀ s, state = some s → Sound policy s t) :
    Sound policy (currentState state subject progressAt now) now := by
  cases state with
  | none => exact .fresh policy now rfl rfl
  | some s => exact (h s rfl).mono ht

/-- Silence is not claimed for a time that has not come. -/
def Timely (policy : HeartbeatPolicy) (progressAt now : ℚ) : Prop :=
  0 < policy.silenceStartAfter ∨ progressAt ≤ now

theorem Moves.sound {current next : HeartbeatState} {action : HeartbeatAction} {progressAt : ℚ}
    (hmove : Moves policy progressAt now current next action) (h : Sound policy current now)
    (htimely : Timely policy progressAt now) : Sound policy next now := by
  cases hmove with
  | reset hcount hnotice => exact .fresh policy now hcount hnotice
  | idle hkept hprogress hcount hnotice =>
    refine ⟨?_, ?_, ?_⟩
    · rw [hcount, hnotice]
      exact h.noticed
    · intro notice hlast
      rw [hnotice] at hlast
      obtain ⟨htime, hsilent⟩ := h.silent notice hlast
      have hle := hkept (by simp [HeartbeatState.active, hlast])
      rw [hcount, hprogress]
      exact ⟨htime, by linarith⟩
    · rw [hcount]
      exact h.capped
  | enter hprogress hcount hnotice hsilence =>
    refine ⟨by simp [hnotice], ?_, ?_⟩
    · intro notice hlast
      obtain rfl := Option.some.inj (hnotice.symm.trans hlast)
      refine ⟨le_rfl, ?_⟩
      rw [hcount, hprogress, silenceFor_one]
      rcases htimely with hpos | hle
      · exact (le_max_iff.mp hsilence).resolve_left (not_le.mpr hpos)
      · rwa [max_eq_right (sub_nonneg.mpr hle)] at hsilence
    · intro limit hmax
      rw [hcount]
      exact policy.maxNoticeCount_pos limit hmax
  | again hkept hprogress hlast hcount hnotice hlimit hinterval =>
    refine ⟨by simp [hnotice], ?_, ?_⟩
    · intro notice hsome
      obtain rfl := Option.some.inj (hnotice.symm.trans hsome)
      obtain ⟨-, hsilent⟩ := h.silent _ hlast
      have hlong := (le_max_iff.mp hinterval).resolve_left (not_le.mpr policy.repeatInterval_pos)
      refine ⟨le_rfl, ?_⟩
      rw [hcount, hprogress, silenceFor_succ]
      linarith
    · intro limit hmax
      rw [hcount]
      exact hlimit limit hmax

theorem evaluateHeartbeat_sound {t : ℚ} (ht : t ≤ now)
    (h : ∀ s, state = some s → Sound policy s t)
    (htimely : Timely policy (progressTimestamp observed now) now) :
    Sound policy (evaluateHeartbeat policy subject observed now state).1 now :=
  (evaluateHeartbeat_moves policy subject observed now state).sound
    (currentState_sound policy subject _ ht h) htimely

/-! ### Runs of evaluations -/

/-- One call of the engine. -/
structure Evaluation where
  observed : Option ℚ
  now : ℚ

def Evaluation.progressAt (c : Evaluation) : ℚ := progressTimestamp c.observed c.now

/-- The state after some calls, each with the state of the one before. -/
def runEvaluations (policy : HeartbeatPolicy) (subject : Subject) (calls : List Evaluation) :
    Option HeartbeatState :=
  calls.foldl (fun s c => some (evaluateHeartbeat policy subject c.observed c.now s).1) none

@[simp] theorem runEvaluations_concat (calls : List Evaluation) (c : Evaluation) :
    runEvaluations policy subject (calls ++ [c]) =
      some (evaluateHeartbeat policy subject c.observed c.now
        (runEvaluations policy subject calls)).1 := by
  simp [runEvaluations]

theorem runEvaluations_sound {calls : List Evaluation}
    (htimes : calls.Pairwise fun c c' => c.now ≤ c'.now)
    (htimely : ∀ c ∈ calls, Timely policy c.progressAt c.now) {t : ℚ}
    (ht : ∀ c ∈ calls, c.now ≤ t) {s : HeartbeatState}
    (hrun : runEvaluations policy subject calls = some s) : Sound policy s t := by
  induction calls using List.reverseRec generalizing s t with
  | nil => cases hrun
  | append_singleton calls c ih =>
    rw [runEvaluations_concat] at hrun
    obtain rfl := Option.some.inj hrun
    rw [List.pairwise_append] at htimes
    have hbefore : ∀ s, runEvaluations policy subject calls = some s → Sound policy s c.now := by
      intro s hs
      refine ih htimes.1 (fun x hx => htimely x (List.mem_append_left _ hx)) ?_ hs
      exact fun x hx => htimes.2.2 x hx c (List.mem_singleton_self c)
    have hlast : c ∈ calls ++ [c] := List.mem_append_right _ (List.mem_singleton_self c)
    exact (evaluateHeartbeat_sound le_rfl hbefore (htimely c hlast)).mono (ht c hlast)

/-- The notices of a state began with one of the calls, and the progress observed has not
advanced from that call on. -/
def QuietSinceNotice (policy : HeartbeatPolicy) (subject : Subject) (calls : List Evaluation)
    (s : HeartbeatState) : Prop :=
  ∃ before first later, calls = before ++ first :: later ∧
    (evaluateHeartbeat policy subject first.observed first.now
      (runEvaluations policy subject before)).2.action = .enter ∧
    (first :: later).Pairwise (fun c c' => c'.progressAt ≤ c.progressAt) ∧
    ∀ c ∈ first :: later, s.lastProgressAt ≤ c.progressAt

theorem QuietSinceNotice.concat {calls : List Evaluation} {s next : HeartbeatState}
    (h : QuietSinceNotice policy subject calls s) {c : Evaluation}
    (hle : c.progressAt ≤ s.lastProgressAt) (hprogress : next.lastProgressAt = c.progressAt) :
    QuietSinceNotice policy subject (calls ++ [c]) next := by
  obtain ⟨before, first, later, hcalls, henter, hpairwise, hbelow⟩ := h
  refine ⟨before, first, later ++ [c], by simp [hcalls], henter, ?_, ?_⟩
  · rw [← List.cons_append]
    refine List.pairwise_append.mpr ⟨hpairwise, List.pairwise_singleton _ _, fun x hx y hy => ?_⟩
    rw [List.mem_singleton.mp hy]
    exact hle.trans (hbelow x hx)
  · intro x hx
    rw [hprogress]
    rw [← List.cons_append] at hx
    rcases List.mem_append.mp hx with hx | hx
    · exact hle.trans (hbelow x hx)
    · rw [List.mem_singleton.mp hx]

theorem runEvaluations_quiet (calls : List Evaluation) {s : HeartbeatState}
    (hrun : runEvaluations policy subject calls = some s) (hnotice : s.lastNoticeAt ≠ none) :
    QuietSinceNotice policy subject calls s := by
  induction calls using List.reverseRec generalizing s with
  | nil => cases hrun
  | append_singleton calls c ih =>
    rw [runEvaluations_concat] at hrun
    obtain rfl := Option.some.inj hrun
    have hmove := evaluateHeartbeat_moves policy subject c.observed c.now
      (runEvaluations policy subject calls)
    have hstored : ∀ notice, (currentState (runEvaluations policy subject calls) subject
        (progressTimestamp c.observed c.now) c.now).lastNoticeAt = some notice →
        ∃ s, runEvaluations policy subject calls = some s ∧ s.lastNoticeAt = some notice ∧
          currentState (runEvaluations policy subject calls) subject
            (progressTimestamp c.observed c.now) c.now = s := by
      intro notice hlast
      cases hbefore : runEvaluations policy subject calls with
      | none =>
        rw [hbefore] at hlast
        cases hlast
      | some s =>
        rw [hbefore] at hlast
        exact ⟨s, rfl, hlast, rfl⟩
    generalize hnext : evaluateHeartbeat policy subject c.observed c.now
      (runEvaluations policy subject calls) = result at hmove hnotice ⊢
    obtain ⟨next, decision⟩ := result
    dsimp only at hmove hnotice ⊢
    generalize haction : decision.action = action at hmove
    cases hmove with
    | reset _ hnone => exact absurd hnone hnotice
    | idle hkept hprogress _ hsame =>
      rw [hsame] at hnotice
      obtain ⟨notice, hlast⟩ := Option.ne_none_iff_exists'.mp hnotice
      obtain ⟨s, hs, hsnotice, hcurrent⟩ := hstored notice hlast
      rw [hcurrent] at hkept
      refine (ih hs (by simp [hsnotice])).concat (hkept ?_) hprogress
      simp [HeartbeatState.active, hsnotice]
    | enter hprogress _ _ _ =>
      refine ⟨calls, c, [], rfl, ?_, List.pairwise_singleton _ _, ?_⟩
      · rw [hnext, haction]
      · intro x hx
        rw [List.mem_singleton.mp hx, hprogress]
        rfl
    | again hkept hprogress hlast _ _ _ _ =>
      obtain ⟨s, hs, hsnotice, hcurrent⟩ := hstored _ hlast
      rw [hcurrent] at hkept
      exact (ih hs (by simp [hsnotice])).concat hkept hprogress

/-! ### Runs of ticks -/

/-- What happens to the state of a job in the store: a tick, or its removal. -/
inductive ServiceEvent where
  | tick (input : TickInput)
  | cleanup

def ServiceEvent.step (service : JobHeartbeatService) (subject : Subject)
    (stored : Option HeartbeatState) : ServiceEvent → Option HeartbeatState
  | .tick input => (service.tickJobHeartbeat subject stored input).1
  | .cleanup => none

def runEvents (service : JobHeartbeatService) (subject : Subject) (events : List ServiceEvent) :
    Option HeartbeatState :=
  events.foldl (ServiceEvent.step service subject) none

/-- The ticks of a run. -/
def ticks (events : List ServiceEvent) : List TickInput :=
  events.filterMap fun
    | .tick input => some input
    | .cleanup => none

/-- The progress a tick observes, if there is any. -/
def TickInput.progress (input : TickInput) : Option ℚ :=
  input.snapshotUpdatedAt.or input.jobUpdatedAt

/-- What a tick leaves in the store is what it found there, or what the engine has made of it. -/
theorem tickJobHeartbeat_cases (service : JobHeartbeatService) (subject : Subject)
    (stored : Option HeartbeatState) (input : TickInput) :
    (service.tickJobHeartbeat subject stored input).1 = none ∨
      (service.tickJobHeartbeat subject stored input).1 = stored ∨
      ∃ progressAt, input.progress = some progressAt ∧
        (service.tickJobHeartbeat subject stored input).1 =
          some (evaluateHeartbeat service.policy subject (some progressAt) input.now stored).1 := by
  unfold JobHeartbeatService.tickJobHeartbeat
  split
  · exact .inl rfl
  · cases hprogress : input.snapshotUpdatedAt.or input.jobUpdatedAt with
    | none => exact .inr (.inl rfl)
    | some progressAt =>
      dsimp only
      split_ifs
      · exact .inr (.inr ⟨progressAt, hprogress, rfl⟩)
      · exact .inr (.inl rfl)
      · exact .inl rfl
      · exact .inr (.inr ⟨progressAt, hprogress, rfl⟩)

/-- A notice counts at least one, and the decision says what the state says. -/
theorem evaluateHeartbeat_decision (policy : HeartbeatPolicy) (subject : Subject)
    (observed : Option ℚ) (now : ℚ) (state : Option HeartbeatState) :
    (evaluateHeartbeat policy subject observed now state).2.noticeCount =
        (evaluateHeartbeat policy subject observed now state).1.noticeCount ∧
      ((evaluateHeartbeat policy subject observed now state).2.noticeDue = true →
        0 < (evaluateHeartbeat policy subject observed now state).1.noticeCount ∧
        (evaluateHeartbeat policy subject observed now state).1.lastProgressAt =
          progressTimestamp observed now) := by
  constructor
  · simp only [evaluateHeartbeat]
    split_ifs <;> rfl
  · intro hdue
    have hmove := evaluateHeartbeat_moves policy subject observed now state
    simp only [HeartbeatDecision.noticeDue, Bool.or_eq_true, decide_eq_true_eq] at hdue
    generalize (evaluateHeartbeat policy subject observed now state).2.action = action at hmove hdue
    cases hmove with
    | reset => simp at hdue
    | idle => simp at hdue
    | enter hprogress hcount => exact ⟨by omega, hprogress⟩
    | again _ hprogress _ hcount => exact ⟨by omega, hprogress⟩

theorem tickJobHeartbeat_timedOut {service : JobHeartbeatService}
    {stored : Option HeartbeatState} {input : TickInput} {decision : HeartbeatDecision}
    (h : (service.tickJobHeartbeat subject stored input).2 = .timedOut decision) :
    ∃ progressAt limit, input.progress = some progressAt ∧
      service.terminalNoticeCount = some limit ∧ limit ≤ decision.noticeCount ∧
      decision.noticeDue = true ∧
      decision =
        (evaluateHeartbeat service.policy subject (some progressAt) input.now stored).2 := by
  unfold JobHeartbeatService.tickJobHeartbeat at h
  split at h
  · cases h
  · cases hprogress : input.snapshotUpdatedAt.or input.jobUpdatedAt with
    | none =>
      rw [hprogress] at h
      cases h
    | some progressAt =>
      rw [hprogress] at h
      dsimp only at h
      split_ifs at h with hreset hnotice hdue
      obtain rfl := TickOutcome.timedOut.inj h
      cases hlimit : service.terminalNoticeCount with
      | none =>
        rw [JobHeartbeatService.heartbeatTimeoutDue, hlimit] at hdue
        cases hdue
      | some limit =>
        rw [JobHeartbeatService.heartbeatTimeoutDue, hlimit] at hdue
        have hle := of_decide_eq_true (by simpa using hdue)
        exact ⟨progressAt, limit, hprogress, rfl, hle, by simpa using hnotice, rfl⟩

theorem runEvents_concat (service : JobHeartbeatService) (events : List ServiceEvent)
    (event : ServiceEvent) :
    runEvents service subject (events ++ [event]) =
      event.step service subject (runEvents service subject events) := by
  simp [runEvents]

/-- What the ticks of a run observe, and when. -/
structure TimelyTicks (policy : HeartbeatPolicy) (events : List ServiceEvent) : Prop where
  times : (ticks events).Pairwise fun input input' => input.now ≤ input'.now
  timely : ∀ input ∈ ticks events, ∀ progressAt, input.progress = some progressAt →
    Timely policy progressAt input.now

theorem ticks_concat_tick (events : List ServiceEvent) (input : TickInput) :
    ticks (events ++ [.tick input]) = ticks events ++ [input] := by
  simp [ticks]

theorem TimelyTicks.of_concat_tick {events : List ServiceEvent} {input : TickInput}
    (h : TimelyTicks policy (events ++ [.tick input])) :
    TimelyTicks policy events ∧ (∀ x ∈ ticks events, x.now ≤ input.now) ∧
      ∀ progressAt, input.progress = some progressAt → Timely policy progressAt input.now := by
  obtain ⟨htimes, htimely⟩ := h
  rw [ticks_concat_tick] at htimes htimely
  rw [List.pairwise_append] at htimes
  refine ⟨⟨htimes.1, fun x hx => htimely x (List.mem_append_left _ hx)⟩, fun x hx => ?_, ?_⟩
  · exact htimes.2.2 x hx input (List.mem_singleton_self input)
  · exact htimely input (List.mem_append_right _ (List.mem_singleton_self input))

theorem runEvents_sound (service : JobHeartbeatService) (subject : Subject)
    {events : List ServiceEvent} (h : TimelyTicks service.policy events) {t : ℚ}
    (ht : ∀ input ∈ ticks events, input.now ≤ t) {s : HeartbeatState}
    (hrun : runEvents service subject events = some s) : Sound service.policy s t := by
  induction events using List.reverseRec generalizing s t with
  | nil => cases hrun
  | append_singleton events event ih =>
    rw [runEvents_concat] at hrun
    cases event with
    | cleanup => cases hrun
    | tick input =>
      obtain ⟨hbefore, htimes, htimely⟩ := h.of_concat_tick
      rw [ticks_concat_tick] at ht
      have hnow : input.now ≤ t :=
        ht input (List.mem_append_right _ (List.mem_singleton_self input))
      have hmove := tickJobHeartbeat_cases service subject (runEvents service subject events) input
      rw [show (service.tickJobHeartbeat subject (runEvents service subject events) input).1 =
        some s from hrun] at hmove
      rcases hmove with hnone | hsame | ⟨progressAt, hprogress, heval⟩
      · cases hnone
      · exact ih hbefore (fun x hx => ht x (List.mem_append_left _ hx)) hsame.symm
      · obtain rfl := Option.some.inj heval
        refine Sound.mono (evaluateHeartbeat_sound le_rfl ?_ (htimely progressAt hprogress)) hnow
        exact fun s hs => ih hbefore htimes hs

/-! ### Notices respect silence -/

theorem silent_of_noticed (policy : HeartbeatPolicy) (subject : Subject) :
    (∀ (calls : List Evaluation) (c : Evaluation) (s : HeartbeatState),
      (calls ++ [c]).Pairwise (fun x y => x.now ≤ y.now) →
      (∀ x ∈ calls ++ [c], Timely policy x.progressAt x.now) →
      runEvaluations policy subject (calls ++ [c]) = some s → 1 ≤ s.noticeCount →
        policy.silenceFor s.noticeCount ≤ c.now - s.lastProgressAt ∧
        QuietSinceNotice policy subject (calls ++ [c]) s ∧
        ∀ limit, policy.maxNoticeCount = some limit → s.noticeCount ≤ limit) ∧
    ∀ (service : JobHeartbeatService) (events : List ServiceEvent) (input : TickInput)
      (decision : HeartbeatDecision), service.policy = policy →
      TimelyTicks policy (events ++ [.tick input]) →
      (service.tickJobHeartbeat subject (runEvents service subject events) input).2 =
        .timedOut decision →
      ∃ progressAt limit, input.progress = some progressAt ∧
        service.terminalNoticeCount = some limit ∧ limit ≤ decision.noticeCount ∧
        1 ≤ decision.noticeCount ∧
        policy.silenceFor decision.noticeCount ≤ input.now - progressAt := by
  constructor
  · intro calls c s htimes htimely hrun hcount
    have hlast : ∀ x ∈ calls ++ [c], x.now ≤ c.now := by
      intro x hx
      rw [List.pairwise_append] at htimes
      rcases List.mem_append.mp hx with hx | hx
      · exact htimes.2.2 x hx c (List.mem_singleton_self c)
      · rw [List.mem_singleton.mp hx]
    have hsound := runEvaluations_sound htimes htimely hlast hrun
    exact ⟨hsound.silence hcount, runEvaluations_quiet _ hrun (hsound.noticed hcount),
      hsound.capped⟩
  · rintro service events input decision rfl htimely htimedOut
    obtain ⟨progressAt, limit, hprogress, hlimit, hle, hdue, rfl⟩ :=
      tickJobHeartbeat_timedOut htimedOut
    obtain ⟨hbefore, htimes, hinput⟩ := htimely.of_concat_tick
    have hsound : Sound service.policy (evaluateHeartbeat service.policy subject (some progressAt)
        input.now (runEvents service subject events)).1 input.now :=
      evaluateHeartbeat_sound le_rfl
        (fun s hs => runEvents_sound service subject hbefore htimes hs)
          (hinput progressAt hprogress)
    obtain ⟨hsame, hnoticed⟩ := evaluateHeartbeat_decision service.policy subject (some progressAt)
      input.now (runEvents service subject events)
    obtain ⟨hpos, hlast⟩ := hnoticed hdue
    have hsilence := hsound.silence hpos
    rw [hlast] at hsilence
    rw [hsame]
    exact ⟨progressAt, limit, hprogress, hlimit, hsame ▸ hle, hpos, hsilence⟩

/-- Notices after ten minutes and then after each five, two of them for a job. -/
private def tenMinutes : HeartbeatPolicy where
  silenceStartAfter := 600
  repeatInterval := 300
  maxNoticeCount := some 2
  silenceStart_nonneg := by norm_num
  repeatInterval_pos := by norm_num
  maxNoticeCount_pos n hn := by cases hn; decide

private def quietCalls : List Evaluation := [⟨some 0, 0⟩]

private def quietTicks : List ServiceEvent :=
  [.tick ⟨false, some 0, some 0, 0⟩, .tick ⟨false, some 0, some 0, 600⟩]

private def quietInput : TickInput := ⟨false, some 0, some 0, 900⟩

private def sampleSubject : Subject := ⟨"job", "job_1", "codex"⟩

theorem silent_of_noticed_twice :
    (∃ s, runEvaluations tenMinutes sampleSubject (quietCalls ++ [⟨some 0, 600⟩]) = some s ∧
      1 ≤ s.noticeCount ∧ tenMinutes.silenceFor s.noticeCount ≤ 600 - s.lastProgressAt) ∧
    ∃ decision progressAt, (JobHeartbeatService.tickJobHeartbeat ⟨tenMinutes, some 2⟩ sampleSubject
        (runEvents ⟨tenMinutes, some 2⟩ sampleSubject quietTicks) quietInput).2 =
          .timedOut decision ∧
      quietInput.progress = some progressAt ∧
      tenMinutes.silenceFor decision.noticeCount ≤ quietInput.now - progressAt := by
  obtain ⟨hcalls, hticks⟩ := silent_of_noticed tenMinutes sampleSubject
  constructor
  · refine ⟨_, rfl, by decide +kernel, ?_⟩
    have hsilent := hcalls quietCalls ⟨some 0, 600⟩ _ (by simp [quietCalls])
      (fun x _ => .inl (by simp [tenMinutes])) rfl (by decide +kernel)
    exact hsilent.1
  · have htimely : TimelyTicks tenMinutes (quietTicks ++ [.tick quietInput]) := by
      refine ⟨?_, fun x _ _ _ => .inl (by simp [tenMinutes])⟩
      rw [ticks_concat_tick, show ticks quietTicks =
        [⟨false, some 0, some 0, 0⟩, ⟨false, some 0, some 0, 600⟩] from rfl]
      norm_num [quietInput]
    obtain ⟨progressAt, limit, hprogress, -, -, -, hsilence⟩ :=
      hticks ⟨tenMinutes, some 2⟩ quietTicks quietInput
        ⟨.again, sampleSubject, 0, some 900, 900, 2⟩ rfl htimely (by decide +kernel)
    exact ⟨_, progressAt, by decide +kernel, hprogress, hsilence⟩

/-- Progress after its own evaluation is no silence, and a policy that waits for none gives its
first notice all the same. -/
theorem notice_before_progress :
    ¬ ∀ (policy : HeartbeatPolicy) (subject : Subject) (calls : List Evaluation) (c : Evaluation)
      (s : HeartbeatState), (calls ++ [c]).Pairwise (fun x y => x.now ≤ y.now) →
      runEvaluations policy subject (calls ++ [c]) = some s → 1 ≤ s.noticeCount →
        policy.silenceFor s.noticeCount ≤ c.now - s.lastProgressAt := by
  intro h
  have hneg := h ⟨0, 1, none, le_rfl, one_pos, by simp⟩ sampleSubject [] ⟨some 10, 5⟩ _
    (List.pairwise_singleton _ _) rfl (by decide +kernel)
  exact absurd hneg (by decide +kernel)

end CodexBridge.Heartbeat
