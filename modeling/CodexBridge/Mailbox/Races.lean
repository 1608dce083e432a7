import CodexBridge.Mailbox.Delivery
import Mathlib.Data.Bool.Count

/-! Two summary updates of one mailbox at once. An update appends its event, loads
the stored record, builds the next one and saves it if the version is still the
one it loaded; the steps of two updates interleave freely. What becomes of the
counters depends only on which saves went through, and that is decided by the
schedule. -/

namespace CodexBridge.Mailbox

open AppendLog

/-! ### Steps -/

/-- One enqueue, as the threads of the daemon run it. -/
structure Enqueue where
  event : NewEvent
  clock : Timestamp
  updatedAt : Option Timestamp

/-- How far an update has come, with what it has read so far. -/
inductive Phase where
  | start
  | appended
  | loaded (prior : Option MailboxRecord) (lease : Option DeliveryLease)
  | built (record : MailboxRecord) (expected : Option ℕ)
  | done

/-- The record of `apply_incremental_summary_update` for a new event. -/
def incrementalRecord (mb : Mailbox) (u : Enqueue) (prior : Option MailboxRecord)
    (lease : Option DeliveryLease) : MailboxRecord :=
  mb.buildMailboxSummaryRecord prior lease
    { queueDepth := ((prior.elim 0 fun p => (p.queueDepth : ℤ)) + 1).toNat
      pendingReplyCount := ((prior.elim 0 fun p => (p.pendingReplyCount : ℤ)) +
        (if u.event.eventType = .taskReply then 1 else 0)).toNat
      activeInboundEventId := prior.bind MailboxRecord.activeInboundEventId
      lastStartedAt := prior.bind MailboxRecord.lastInboundStartedAt
      lastFinishedAt := prior.bind MailboxRecord.lastInboundFinishedAt
      updatedAt := u.updatedAt.getD u.clock
      summarySource := .incrementalUpsert
      summaryHead := none }

def Enqueue.step (u : Enqueue) (mb : Mailbox) : Phase → Mailbox × Phase
  | .start => (mb.append u.event.record, .appended)
  | .appended => (mb, .loaded mb.summary mb.lease)
  | .loaded prior lease =>
    (mb, .built (mb.incrementalRecord u prior lease) (prior.map MailboxRecord.summaryVersion))
  | .built record expected => (mb.saveSummaryRecord record expected, .done)
  | .done => (mb, .done)

/-- The steps one after the other are the update of a single thread. -/
theorem enqueue_eq_steps (u : Enqueue) (mb : Mailbox) :
    let appended := u.step mb .start
    let loaded := u.step appended.1 appended.2
    let built := u.step loaded.1 loaded.2
    u.step built.1 built.2 = (mb.enqueue u.clock u.event u.updatedAt, .done) := rfl

/-- A mailbox with two updates under way. -/
structure Race where
  mailbox : Mailbox
  phase : Bool → Phase

def Race.step (u : Bool → Enqueue) (r : Race) (b : Bool) : Race :=
  ⟨((u b).step r.mailbox (r.phase b)).1,
    Function.update r.phase b ((u b).step r.mailbox (r.phase b)).2⟩

/-- The schedule says which of the two updates makes the next step. -/
def Race.run (u : Bool → Enqueue) (mb : Mailbox) (schedule : List Bool) : Race :=
  schedule.foldl (Race.step u) ⟨mb, fun _ => .start⟩

/-- One update has saved before the other one loads. -/
def Serial (schedule : List Bool) : Prop :=
  ∃ k < schedule.length + 1, ∃ b, (schedule.take k).count b = 4 ∧ (schedule.take k).count (!b) < 2

instance : DecidablePred Serial := fun schedule =>
  inferInstanceAs (Decidable (∃ k < schedule.length + 1, ∃ b,
    (schedule.take k).count b = 4 ∧ (schedule.take k).count (!b) < 2))

/-- The stored record agrees with the projection of the history on the counters and on
the head. -/
def Reflects (mb : Mailbox) : Prop :=
  ∃ r, mb.summary = some r ∧ ∀ t,
    r.queueDepth = (mb.projectMailboxSummary t (some r)).queueDepth ∧
    r.pendingReplyCount = (mb.projectMailboxSummary t (some r)).pendingReplyCount ∧
    r.toSummaryHead = (mb.projectMailboxSummary t (some r)).toSummaryHead

theorem reflects_iff {mb : Mailbox} :
    Reflects mb ↔ ∃ r, mb.summary = some r ∧ r.queueDepth = (mb.pendingEvents none).length ∧
      r.pendingReplyCount = pendingReplies (mb.pendingEvents none) ∧
      r.toSummaryHead = summaryHeadFromEvent mb.headPendingEvent := by
  constructor
  · rintro ⟨r, hr, h⟩
    exact ⟨r, hr, h r.updatedAt⟩
  · rintro ⟨r, hr, h⟩
    exact ⟨r, hr, fun _ => h⟩

/-! ### Which saves go through -/

/-- How far an update has come, and whether the record it loaded counted the other one. -/
inductive Progress where
  | start | appended
  | loaded (other : Bool)
  | built (other : Bool)
  | done
  deriving DecidableEq

/-- The two updates without the records: an update is counted when its save goes
through, which it does while the other one has not saved since the load. -/
structure Tally where
  progress : Bool → Progress
  counted : Bool → Bool

def Tally.start : Tally := ⟨fun _ => .start, fun _ => false⟩

def Tally.step (t : Tally) (b : Bool) : Tally :=
  match t.progress b with
  | .start => ⟨Function.update t.progress b .appended, t.counted⟩
  | .appended => ⟨Function.update t.progress b (.loaded (t.counted !b)), t.counted⟩
  | .loaded other => ⟨Function.update t.progress b (.built other), t.counted⟩
  | .built other =>
    ⟨Function.update t.progress b .done,
      if t.counted (!b) = other then Function.update t.counted b true else t.counted⟩
  | .done => t

def Tally.run (schedule : List Bool) : Tally := schedule.foldl Tally.step Tally.start

/-- Both saves go through exactly on the serial schedules. -/
theorem tally_counted_iff (schedule : List Bool) (ht : schedule.count true = 4)
    (hf : schedule.count false = 4) :
    ((Tally.run schedule).progress true = .done ∧ (Tally.run schedule).progress false = .done) ∧
      (((Tally.run schedule).counted true = true ∧ (Tally.run schedule).counted false = true) ↔
        Serial schedule) := by
  have hlength : schedule.length = 8 := by
    have hsum : schedule.count false + schedule.count true = schedule.length :=
      List.count_not_add_count schedule true
    omega
  obtain ⟨a, b, c, d, e, f, g, h, rfl⟩ :
    ∃ a b c d e f g h, schedule = [a, b, c, d, e, f, g, h] := by
    match schedule, hlength with
    | [a, b, c, d, e, f, g, h], _ => exact ⟨a, b, c, d, e, f, g, h, rfl⟩
  clear hlength
  revert a b c d e f g h
  decide +kernel

/-- An update counts only when it is done, and what it has seen counted stays so. -/
structure Tally.Ok (t : Tally) : Prop where
  counted : ∀ b, t.counted b = true → t.progress b = .done
  seen : ∀ b, t.progress b = .loaded true ∨ t.progress b = .built true → t.counted (!b) = true

theorem Tally.Ok.start : Tally.start.Ok := by
  refine ⟨?_, ?_⟩
  · intro b h
    contradiction
  · rintro b (h | h) <;> contradiction

/-- A step that counts nothing. -/
theorem Tally.Ok.move {t : Tally} {b : Bool} {p : Progress} (h : t.Ok)
    (hb : t.progress b ≠ .done)
    (hp : p = .loaded true ∨ p = .built true → t.counted (!b) = true) :
    Tally.Ok ⟨Function.update t.progress b p, t.counted⟩ := by
  refine ⟨fun x hx => ?_, fun x hx => ?_⟩
  · have hdone := h.counted x hx
    have hne : x ≠ b := by
      rintro rfl
      exact hb hdone
    simpa [hne] using hdone
  · by_cases hne : x = b
    · subst hne
      simp only [Function.update_self] at hx
      exact hp hx
    · simp only [Function.update_of_ne hne] at hx
      exact h.seen x hx

theorem Tally.Ok.step {t : Tally} (h : t.Ok) (b : Bool) : (t.step b).Ok := by
  unfold Tally.step
  rcases hp : t.progress b with _ | _ | o | o | _
  · exact h.move (by simp [hp]) (by simp)
  · exact h.move (by simp [hp]) (by simp)
  · refine h.move (by simp [hp]) ?_
    rintro (ho | ho)
    · contradiction
    · obtain rfl := Progress.built.inj ho
      exact h.seen b (.inl hp)
  · refine ⟨fun x hx => ?_, fun x hx => ?_⟩
    · by_cases hne : x = b
      · simp [hne]
      · simp only [Function.update_of_ne hne]
        refine h.counted x ?_
        dsimp only at hx
        split_ifs at hx
        · simpa [hne] using hx
        · exact hx
    · have hne : x ≠ b := by
        rintro rfl
        simp at hx
      simp only [Function.update_of_ne hne] at hx
      have hcounted := h.seen x hx
      dsimp only
      split_ifs
      · by_cases he : (!x) = b
        · simp [he]
        · simpa [he] using hcounted
      · exact hcounted
  · exact h

theorem Tally.Ok.not_counted {t : Tally} (h : t.Ok) {b : Bool} (hb : t.progress b ≠ .done) :
    t.counted b = false := by
  rcases hc : t.counted b
  · rfl
  · exact absurd (h.counted b hc) hb

/-! ### The records behind the tally -/

section Simulation
variable (mb : Mailbox) (u : Bool → Enqueue)

/-- The version after so many saves. -/
def versionAfter : ℕ → Option ℕ
  | 0 => mb.summary.map MailboxRecord.summaryVersion
  | k + 1 => some ((mb.summary.elim 0 MailboxRecord.summaryVersion) + (k + 1))

/-- What an update adds to the pending replies. -/
def Enqueue.replies (e : Enqueue) : ℕ := if e.event.eventType = .taskReply then 1 else 0

/-- The counters of a record that counts the given updates. -/
structure Counts (counted : Bool → Bool) (stored : Option MailboxRecord) : Prop where
  version : stored.map MailboxRecord.summaryVersion =
    versionAfter mb ((counted true).toNat + (counted false).toNat)
  queueDepth : stored.elim 0 MailboxRecord.queueDepth = (mb.pendingEvents none).length +
    ((counted true).toNat + (counted false).toNat)
  pendingReplyCount : stored.elim 0 MailboxRecord.pendingReplyCount =
    pendingReplies (mb.pendingEvents none) +
      ((counted true).toNat * (u true).replies + (counted false).toNat * (u false).replies)

/-- What an update holds when it has come so far, in a mailbox that is now `now`. -/
inductive Holds (now : Mailbox) (b : Bool) : Phase → Progress → Prop
  | start : Holds now b .start .start
  | appended : Holds now b .appended .appended
  | loaded (prior : Option MailboxRecord) (lease : Option DeliveryLease) (other : Bool)
      (counts : Counts mb u (fun x => x != b && other) prior) :
      Holds now b (.loaded prior lease) (.loaded other)
  | built (record : MailboxRecord) (other : Bool)
      (counts : Counts mb u (fun x => x == b || other) (some record))
      (head : other = true → record.toSummaryHead = summaryHeadFromEvent now.headPendingEvent) :
      Holds now b (.built record (versionAfter mb other.toNat)) (.built other)
  | done : Holds now b .done .done

/-- The race as the tally sees it. -/
structure Follows (r : Race) (t : Tally) : Prop where
  log : ∃ l : List Bool, l.Nodup ∧ (∀ b, b ∈ l ↔ t.progress b ≠ .start) ∧
    r.mailbox.events = mb.events ++ l.map fun b => (u b).event.record
  stored : Counts mb u t.counted r.mailbox.summary
  head : t.counted true = true → t.counted false = true → ∀ record,
    r.mailbox.summary = some record →
      record.toSummaryHead = summaryHeadFromEvent r.mailbox.headPendingEvent
  phase : ∀ b, Holds mb u r.mailbox b (r.phase b) (t.progress b)

end Simulation

variable {mb now now' : Mailbox} {u : Bool → Enqueue} {b other : Bool} {r : Race} {t : Tally}

theorem versionAfter_inj {j k : ℕ} : versionAfter mb j = versionAfter mb k ↔ j = k := by
  rcases hs : mb.summary with _ | stored
  · rcases j with _ | j <;> rcases k with _ | k <;> simp [versionAfter, hs]
  · rcases j with _ | j <;> rcases k with _ | k <;> simp [versionAfter, hs]

theorem queueDepth_incrementalRecord (e : Enqueue) (prior : Option MailboxRecord)
    (lease : Option DeliveryLease) : (now.incrementalRecord e prior lease).queueDepth =
      prior.elim 0 MailboxRecord.queueDepth + 1 := by
  rcases prior with _ | p
  · rfl
  · show ((p.queueDepth : ℤ) + 1).toNat = p.queueDepth + 1
    omega

theorem pendingReplyCount_incrementalRecord (e : Enqueue) (prior : Option MailboxRecord)
    (lease : Option DeliveryLease) : (now.incrementalRecord e prior lease).pendingReplyCount =
      prior.elim 0 MailboxRecord.pendingReplyCount + e.replies := by
  have hreplies : (if e.event.eventType = .taskReply then (1 : ℤ) else 0) = e.replies := by
    unfold Enqueue.replies
    split_ifs <;> rfl
  unfold incrementalRecord buildMailboxSummaryRecord
  rw [hreplies]
  rcases prior with _ | p
  · simp
  · show ((p.pendingReplyCount : ℤ) + e.replies).toNat = p.pendingReplyCount + e.replies
    omega

/-- The queue depth has changed, so the version advances. -/
theorem summaryVersion_incrementalRecord (e : Enqueue) (prior : Option MailboxRecord)
    (lease : Option DeliveryLease) : (now.incrementalRecord e prior lease).summaryVersion =
      prior.elim 0 MailboxRecord.summaryVersion + 1 := by
  rcases prior with _ | p
  · rfl
  · simp [incrementalRecord, buildMailboxSummaryRecord, summaryVersionForRecord,
      nextSummaryVersion]

theorem elim_versionAfter {stored : Option MailboxRecord} {k : ℕ}
    (h : stored.map MailboxRecord.summaryVersion = versionAfter mb k) :
    some (stored.elim 0 MailboxRecord.summaryVersion + 1) = versionAfter mb (k + 1) := by
  rcases hs : mb.summary with _ | first <;> rcases stored with _ | p <;> rcases k with _ | k <;>
    simp_all [versionAfter]
  omega

/-- The record an update builds counts it on top of what it has loaded. -/
theorem Counts.build {prior : Option MailboxRecord} (lease : Option DeliveryLease)
    (h : Counts mb u (fun x => x != b && other) prior) :
    Counts mb u (fun x => x == b || other) (some (now.incrementalRecord (u b) prior lease)) := by
  refine ⟨?_, ?_, ?_⟩
  · rw [Option.map_some, summaryVersion_incrementalRecord, elim_versionAfter h.version]
    cases b <;> cases other <;> rfl
  · rw [Option.elim_some, queueDepth_incrementalRecord, h.queueDepth]
    cases b <;> cases other <;> rfl
  · rw [Option.elim_some, pendingReplyCount_incrementalRecord, h.pendingReplyCount]
    cases b <;> cases other <;> simp <;> omega

theorem Holds.keep {phase : Phase} {progress : Progress} (h : Holds mb u now b phase progress)
    (hhead : progress = .built true → now'.headPendingEvent = now.headPendingEvent) :
    Holds mb u now' b phase progress := by
  cases h with
  | start => exact .start
  | appended => exact .appended
  | loaded prior lease other counts => exact .loaded prior lease other counts
  | built record other counts head =>
    refine .built record other counts fun ho => ?_
    rw [hhead (ho ▸ rfl)]
    exact head ho
  | done => exact .done

theorem Counts.congr {counted counted' : Bool → Bool} {stored : Option MailboxRecord}
    (h : Counts mb u counted stored) (heq : ∀ b, counted b = counted' b) :
    Counts mb u counted' stored := by
  rwa [← funext heq]

/-- The save of an update goes through exactly when the tally counts it. -/
theorem Follows.save (h : Follows mb u r t) (ok : t.Ok) (record : MailboxRecord)
    (hp : t.progress b = .built other) :
    (r.mailbox.saveSummaryRecord record (versionAfter mb other.toNat)).summary =
      if t.counted (!b) = other then some record else r.mailbox.summary := by
  have hb : t.counted b = false := ok.not_counted (by simp [hp])
  have htotal : (t.counted true).toNat + (t.counted false).toNat = (t.counted !b).toNat := by
    cases b <;> simp [hb]
  have hversion := h.stored.version
  rw [htotal] at hversion
  unfold saveSummaryRecord compareAndSave
  by_cases hseen : t.counted (!b) = other
  · simp [hseen, hversion]
  · -- the other update has been counted in between, so there is a record
    have hother : other = false := by
      cases other with
      | false => rfl
      | true => exact absurd (ok.seen b (.inr hp)) hseen
    subst hother
    have hcounted : t.counted (!b) = true := by simpa using hseen
    rw [hcounted] at hversion
    have hne : r.mailbox.summary.map MailboxRecord.summaryVersion ≠
        versionAfter mb false.toNat := by
      rw [hversion, Ne, versionAfter_inj]
      decide
    have hsome : r.mailbox.summary.isSome = true := by
      rcases hs : r.mailbox.summary with _ | stored
      · simp [hs, versionAfter] at hversion
      · rfl
    rw [if_neg hne, if_neg hseen]
    simp [hsome]

theorem events_saveSummaryRecord (record : MailboxRecord) (expected : Option ℕ) :
    (mb.saveSummaryRecord record expected).events = mb.events := by
  unfold saveSummaryRecord compareAndSave
  split
  · rename_i saved hsaved
    split_ifs at hsaved
    rw [← Option.some.inj hsaved]
  · split_ifs <;> rfl

/-- The phases of the other update where only this one moves. -/
theorem Follows.phases (h : Follows mb u r t) {phase : Phase} {progress : Progress}
    (hb : Holds mb u now b phase progress)
    (hhead : t.progress (!b) = .built true → now.headPendingEvent = r.mailbox.headPendingEvent)
    (x : Bool) : Holds mb u now x (Function.update r.phase b phase x)
      (Function.update t.progress b progress x) := by
  by_cases hx : x = b
  · subst hx
    simpa using hb
  · obtain rfl : x = !b := by cases x <;> cases b <;> simp_all
    simpa using (h.phase (!b)).keep hhead

theorem Follows.step (h : Follows mb u r t) (ok : t.Ok) (b : Bool) :
    Follows mb u (r.step u b) (t.step b) := by
  have hb := h.phase b
  obtain ⟨l, hnodup, hmem, hevents⟩ := h.log
  -- an update that has started stays in the log
  have hlog : ∀ progress, t.progress b ≠ .start → progress ≠ .start → ∃ l : List Bool,
      l.Nodup ∧ (∀ x, x ∈ l ↔ Function.update t.progress b progress x ≠ .start) ∧
        r.mailbox.events = mb.events ++ l.map fun b => (u b).event.record := by
    intro progress hstart hne
    refine ⟨l, hnodup, fun x => ?_, hevents⟩
    rw [hmem]
    by_cases hx : x = b
    · subst hx
      simp [hstart, hne]
    · simp [hx]
  unfold Race.step Tally.step
  generalize hphase : r.phase b = phase at hb
  generalize hprogress : t.progress b = progress at hb
  cases hb with
  | start =>
    have hseen : t.progress (!b) ≠ .built true := by
      intro hbuilt
      have hdone := ok.counted _ (ok.seen (!b) (.inr hbuilt))
      rw [Bool.not_not, hprogress] at hdone
      contradiction
    refine ⟨⟨l ++ [b], ?_, fun x => ?_, ?_⟩, h.stored, ?_, ?_⟩
    · have hnot : b ∉ l := by simp [hmem, hprogress]
      exact List.Nodup.append hnodup (by simp) (by simpa using hnot)
    · by_cases hx : x = b
      · simp [hx]
      · simp [hx, hmem]
    · simp [Enqueue.step, Mailbox.append, hevents]
    · intro htrue hfalse
      have hdone : t.progress b = .done := by
        cases b
        · exact ok.counted _ hfalse
        · exact ok.counted _ htrue
      rw [hprogress] at hdone
      contradiction
    · exact h.phases .appended fun hbuilt => absurd hbuilt hseen
  | appended =>
    refine ⟨hlog _ (by simp [hprogress]) (by simp), h.stored, h.head, ?_⟩
    refine h.phases (.loaded _ _ _ ?_) fun _ => rfl
    refine h.stored.congr fun x => ?_
    have hcounted : t.counted b = false := ok.not_counted (by simp [hprogress])
    by_cases hx : x = b
    · simp [hx, hcounted]
    · obtain rfl : x = !b := by cases x <;> cases b <;> simp_all
      simp
  | loaded prior lease other counts =>
    refine ⟨hlog _ (by simp [hprogress]) (by simp), h.stored, h.head, ?_⟩
    refine h.phases ?_ fun _ => rfl
    have hversion : prior.map MailboxRecord.summaryVersion = versionAfter mb other.toNat := by
      rw [counts.version]
      cases b <;> cases other <;> rfl
    simp only [Enqueue.step, hversion]
    exact .built _ other (counts.build lease) fun _ => rfl
  | built record other counts head =>
    have hsave := h.save ok record hprogress
    have hsaved : (r.mailbox.saveSummaryRecord record (versionAfter mb other.toNat)).events =
        r.mailbox.events := events_saveSummaryRecord record _
    have hhead := headPendingEvent_congr hsaved
    simp only [Enqueue.step]
    have hcounted : t.counted b = false := ok.not_counted (by simp [hprogress])
    refine ⟨?_, ?_, ?_, h.phases .done fun _ => hhead⟩
    · rw [hsaved]
      exact hlog _ (by simp [hprogress]) (by simp)
    · rw [hsave]
      split_ifs with hseen
      · refine counts.congr fun x => ?_
        by_cases hx : x = b
        · simp [hx]
        · obtain rfl : x = !b := by cases x <;> cases b <;> simp_all
          simp [hseen]
      · exact h.stored
    · intro htrue hfalse stored hstored
      rw [hsave] at hstored
      rw [hhead]
      split_ifs at htrue hfalse hstored with hseen
      · obtain rfl := Option.some.inj hstored
        refine head ?_
        rw [← hseen]
        cases b <;> simpa using ‹_›
      · exact h.head htrue hfalse stored hstored
  | done =>
    refine ⟨h.log, h.stored, h.head, ?_⟩
    intro x
    by_cases hx : x = b
    · subst hx
      simpa [hprogress, Enqueue.step] using Holds.done
    · simpa [hx, Enqueue.step] using h.phase x

/-! ### Schedules -/

/-- The stored counters agree with the log before the updates start. -/
structure Counted (mb : Mailbox) : Prop where
  queueDepth : mb.summary.elim 0 MailboxRecord.queueDepth = (mb.pendingEvents none).length
  pendingReplyCount : mb.summary.elim 0 MailboxRecord.pendingReplyCount =
    pendingReplies (mb.pendingEvents none)

/-- Two new events, under identifiers of their own. -/
structure Fresh (mb : Mailbox) (u : Bool → Enqueue) : Prop where
  first : (u true).event.inboundEventId ∉ mb.events.map InboundEventRecord.inboundEventId
  second : (u false).event.inboundEventId ∉ mb.events.map InboundEventRecord.inboundEventId
  distinct : (u true).event.inboundEventId ≠ (u false).event.inboundEventId

theorem Follows.start (h : Counted mb) : Follows mb u ⟨mb, fun _ => .start⟩ Tally.start := by
  refine ⟨⟨[], by simp, by simp [Tally.start], by simp⟩, ⟨rfl, ?_, ?_⟩, ?_, fun _ => .start⟩
  · simpa [Tally.start] using h.queueDepth
  · simpa [Tally.start] using h.pendingReplyCount
  · intro htrue
    contradiction

theorem Follows.run (h : Counted mb) (schedule : List Bool) :
    Follows mb u (Race.run u mb schedule) (Tally.run schedule) ∧ (Tally.run schedule).Ok := by
  unfold Race.run Tally.run
  induction schedule using List.reverseRecOn with
  | nil => exact ⟨.start h, .start⟩
  | append_singleton schedule b ih =>
    simp only [List.foldl_append, List.foldl_cons, List.foldl_nil]
    exact ⟨ih.1.step ih.2 b, ih.2.step b⟩

/-- The pending events once both updates have appended theirs. -/
theorem Fresh.pendingEvents (h : Fresh mb u) {l : List Bool} (hl : l.Nodup)
    (hevents : now.events = mb.events ++ l.map fun b => (u b).event.record) :
    now.pendingEvents none = mb.pendingEvents none ++ l.map fun b => (u b).event.record := by
  have hfresh : ∀ b, (u b).event.inboundEventId ∉
      mb.events.map InboundEventRecord.inboundEventId := by
    intro b
    cases b
    · exact h.second
    · exact h.first
  have hinj : ∀ x y, (u x).event.inboundEventId = (u y).event.inboundEventId → x = y := by
    intro x y hxy
    cases x <;> cases y
    · rfl
    · exact absurd hxy.symm h.distinct
    · exact absurd hxy h.distinct
    · rfl
  induction l using List.reverseRecOn generalizing now with
  | nil =>
    have hsame : now.events = mb.events := by simpa using hevents
    rw [Mailbox.pendingEvents, latestEvents_congr hsame, Mailbox.pendingEvents]
    simp
  | append_singleton l b ih =>
    obtain ⟨hnodup, -, hnot⟩ := List.nodup_append.mp hl
    set before : Mailbox :=
      { now with events := mb.events ++ l.map fun b => (u b).event.record } with hbefore
    have hbefore' : before.pendingEvents none = _ := ih hnodup rfl
    have hnow : now.pendingEvents none = (before.append (u b).event.record).pendingEvents none := by
      have hsame : now.events = (before.append (u b).event.record).events := by
        simp [hevents, hbefore, Mailbox.append]
      rw [Mailbox.pendingEvents, latestEvents_congr hsame, Mailbox.pendingEvents]
    rw [hnow, pendingEvents_append_fresh rfl, hbefore']
    · simp
    · intro hmem
      simp only [hbefore, List.map_append, List.map_map, List.mem_append] at hmem
      rcases hmem with hmem | hmem
      · exact hfresh b hmem
      · obtain ⟨x, hx, hid⟩ := List.mem_map.mp hmem
        exact hnot x hx b (by simp) (hinj x b hid)

theorem both_of_nodup {l : List Bool} (h : l.Nodup) (hall : ∀ b, b ∈ l) :
    l = [true, false] ∨ l = [false, true] := by
  have hperm : l.Perm [true, false] := by
    refine (List.perm_ext_iff_of_nodup h (by decide)).mpr fun b => ?_
    cases b <;> simp [hall]
  match l, hperm.length_eq with
  | [x, y], _ =>
    have hx := hall true
    have hy := hall false
    cases x <;> cases y <;> simp_all

/-- Both appends are in the stored record exactly when one update saved before the other
one loaded. -/
theorem summary_updates_kept_iff (h : Counted mb) (fresh : Fresh mb u) {schedule : List Bool}
    (first : schedule.count true = 4) (second : schedule.count false = 4) :
    Reflects (Race.run u mb schedule).mailbox ↔ Serial schedule := by
  obtain ⟨⟨hdone, hdone'⟩, hserial⟩ := tally_counted_iff schedule first second
  obtain ⟨follows, -⟩ := Follows.run (u := u) h schedule
  obtain ⟨l, hnodup, hmem, hevents⟩ := follows.log
  have hpending := fresh.pendingEvents hnodup hevents
  have hboth : l = [true, false] ∨ l = [false, true] := by
    refine both_of_nodup hnodup fun b => ?_
    rw [hmem]
    cases b
    · simp [hdone']
    · simp [hdone]
  rw [reflects_iff, ← hserial]
  have hqueue := follows.stored.queueDepth
  have hreply := follows.stored.pendingReplyCount
  constructor
  · rintro ⟨stored, hstored, hdepth, -⟩
    have hlength : l.length = 2 := by rcases hboth with rfl | rfl <;> rfl
    rw [hstored, Option.elim_some, hdepth, hpending, List.length_append, List.length_map,
      hlength] at hqueue
    have htrue := Bool.toNat_le ((Tally.run schedule).counted true)
    have hfalse := Bool.toNat_le ((Tally.run schedule).counted false)
    exact ⟨Bool.toNat_eq_one.mp (by omega), Bool.toNat_eq_one.mp (by omega)⟩
  · rintro ⟨htrue, hfalse⟩
    have hsome : ∃ stored, (Race.run u mb schedule).mailbox.summary = some stored := by
      rcases hs : (Race.run u mb schedule).mailbox.summary with _ | stored
      · have hversion := follows.stored.version
        simp [hs, htrue, hfalse, versionAfter] at hversion
      · exact ⟨stored, rfl⟩
    obtain ⟨stored, hstored⟩ := hsome
    rw [hstored, Option.elim_some, htrue, hfalse] at hqueue hreply
    refine ⟨stored, hstored, ?_, ?_, follows.head htrue hfalse stored hstored⟩
    · rw [hqueue, hpending]
      rcases hboth with rfl | rfl <;> simp
    · rw [hreply, hpending]
      unfold pendingReplies Enqueue.replies
      rcases hboth with rfl | rfl
      · simp [List.countP_cons, List.countP_nil]
        omega
      · simp [List.countP_cons, List.countP_nil]

/-- A request and a reply for an empty mailbox. -/
def sampleRace (b : Bool) : Enqueue :=
  ⟨sampleEvent (if b then 4 else 5) (if b then .taskRequest else .taskReply), sampleTime, none⟩

theorem summary_updates_kept_serial :
    Reflects (Race.run sampleRace (Mailbox.empty "agent1")
      [true, false, true, true, true, false, false, false]).mailbox :=
  (summary_updates_kept_iff ⟨by decide, by decide⟩ ⟨by decide, by decide, by decide⟩ (by decide)
    (by decide)).mpr (by decide)

/-- Both updates load before one of them saves: one append stays out of the record. -/
theorem summary_update_lost :
    ¬Reflects (Race.run sampleRace (Mailbox.empty "agent1")
      [true, false, true, false, true, false, true, false]).mailbox := by
  rw [reflects_iff]
  rintro ⟨stored, hstored, hdepth, -⟩
  have hone : (Race.run sampleRace (Mailbox.empty "agent1")
      [true, false, true, false, true, false, true, false]).mailbox.summary.map
        MailboxRecord.queueDepth = some 1 := by decide +kernel
  have htwo : ((Race.run sampleRace (Mailbox.empty "agent1")
      [true, false, true, false, true, false, true, false]).mailbox.pendingEvents none).length =
        2 := by decide +kernel
  rw [hstored, Option.map_some, hdepth, htwo] at hone
  contradiction

end CodexBridge.Mailbox
