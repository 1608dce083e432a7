import CodexBridge.Completion.Selectors
import CodexBridge.Completion.Stability

/-! When the stability detector ends a turn. Its state is determined by the items since the
last session rotation: the time from which the reply has kept its fingerprint, and whether a
tool is at work. A tick completes the turn only when the settle window has passed since then
and no tool is at work. -/

namespace CodexBridge.Completion

/-! ### What the items say -/

/-- The items of a run, in order. -/
def ingested (calls : List Call) : List Item :=
  calls.filterMap fun
    | .ingest item => some item
    | _ => none

@[simp] theorem ingested_concat_ingest (calls : List Call) (item : Item) :
    ingested (calls ++ [.ingest item]) = ingested calls ++ [item] := by
  simp [ingested]

@[simp] theorem ingested_concat_tick (calls : List Call) (now : String) (cursor : Option Cursor) :
    ingested (calls ++ [.tick now cursor]) = ingested calls := by
  simp [ingested]

@[simp] theorem ingested_concat_timeout (calls : List Call) (now : String)
    (cursor : Option Cursor) :
    ingested (calls ++ [.finalizeTimeout now cursor]) = ingested calls := by
  simp [ingested]

/-- The items after the last session rotation. -/
def sinceRotation (items : List Item) : List Item :=
  items.rtakeWhile fun item => item.kind ≠ .sessionRotate

theorem sinceRotation_rotate {item : Item} (h : item.kind = .sessionRotate) (items : List Item) :
    sinceRotation (items ++ [item]) = [] :=
  List.rtakeWhile_concat_neg _ _ _ (by simp [h])

theorem sinceRotation_concat {item : Item} (h : item.kind ≠ .sessionRotate) (items : List Item) :
    sinceRotation (items ++ [item]) = sinceRotation items ++ [item] :=
  List.rtakeWhile_concat_pos _ _ _ (by simp [h])

namespace Item

/-- The reply a session shows. -/
def sessionReply (item : Item) : Option String :=
  match item.kind with
  | .sessionSnapshot | .sessionMutation =>
    firstNonEmpty item.payload ["reply", "content", "text"]
  | _ => none

def replyFingerprint (lib : Library) (item : Item) : Option String :=
  item.sessionReply.map fun reply => lib.fingerprintText
    [.str ((firstNonEmpty item.payload ["message_id"]).getD ""), .str reply,
      item.payload.get "message_count", item.payload.get "last_updated"]

/-- What an item says of the tools: that one is at work, or that none is. -/
def toolMark (lib : Library) (item : Item) : Option Bool :=
  match item.kind with
  | .toolCall => some true
  | .toolResult => some false
  | .sessionSnapshot | .sessionMutation =>
    let toolCalls := item.payload.get "tool_call_count"
    if toolCalls = .null then none else some (Detector.positiveCount lib toolCalls)
  | _ => none

end Item

/-- Whether a tool is at work after some items: the last one that speaks of the tools says so. -/
def toolOpen (lib : Library) (items : List Item) : Bool :=
  items.foldl (fun isOpen item => (item.toolMark lib).getD isOpen) false

theorem toolOpen_concat (lib : Library) (items : List Item) (item : Item) :
    toolOpen lib (items ++ [item]) = (item.toolMark lib).getD (toolOpen lib items) := by
  simp [toolOpen]

/-- A reply with the fingerprint `print` came at `since`, and no reply with another one
after it. -/
def KeptSince (lib : Library) (since print : String) (items : List Item) : Prop :=
  ∃ before item after, items = before ++ item :: after ∧ item.timestamp = since ∧
    item.replyFingerprint lib = some print ∧
      ∀ later ∈ after, ∀ other, later.replyFingerprint lib = some other → other = print

theorem KeptSince.new {lib : Library} {item : Item} {print : String}
    (h : item.replyFingerprint lib = some print) (items : List Item) :
    KeptSince lib item.timestamp print (items ++ [item]) :=
  ⟨items, item, [], rfl, rfl, h, by simp⟩

theorem KeptSince.concat {lib : Library} {since print : String} {items : List Item} {item : Item}
    (h : KeptSince lib since print items)
    (hsame : ∀ other, item.replyFingerprint lib = some other → other = print) :
    KeptSince lib since print (items ++ [item]) := by
  obtain ⟨before, first, after, hitems, htime, hprint, hafter⟩ := h
  refine ⟨before, first, after ++ [item], by simp [hitems], htime, hprint, ?_⟩
  intro later hlater
  rcases List.mem_append.mp hlater with hlater | hlater
  · exact hafter later hlater
  · rw [List.mem_singleton.mp hlater]
    exact hsame

/-! ### What the state tells -/

namespace Detector

/-- The parts of the state that decide when the turn has settled. -/
structure Settling where
  toolActive : Bool
  lastReplyHash : Option String
  stableSince : Option String

def settling (s : State) : Settling := ⟨s.toolActive, s.lastReplyHash, s.stableSince⟩

/-- The parts after an item. -/
def Settling.after (lib : Library) (p : Settling) (item : Item) : Settling :=
  if item.kind = .sessionRotate then ⟨false, none, none⟩
  else
    let toolActive := (item.toolMark lib).getD p.toolActive
    match item.replyFingerprint lib with
    | none => { p with toolActive := toolActive }
    | some print =>
      if some print = p.lastReplyHash then { p with toolActive := toolActive }
      else ⟨toolActive, some print, some item.timestamp⟩

@[simp] theorem syncCursor_settling (s : State) (cursor : Option Cursor) :
    settling (syncCursor s cursor) = settling s := by
  cases cursor <;> rfl

theorem consumeCommonItem_settling (s : State) (item : Item) :
    settling (consumeCommonItem s item) = settling (consumeKind s item.kind) := by
  have hsync : settling (consumeKind (syncCursor s (some item.cursor)) item.kind) =
      settling (consumeKind s item.kind) := by
    cases item.kind <;> rfl
  simp only [consumeCommonItem]
  split <;> split <;> exact hsync

theorem observeReply_settling (lib : Library) (s : State) {item : Item} {reply print : String}
    (hreply : strip reply ≠ "") (hprint : lib.fingerprintText
      [.str ((firstNonEmpty item.payload ["message_id"]).getD ""), .str reply,
        item.payload.get "message_count", item.payload.get "last_updated"] = print) :
    settling (observeReply lib s item reply) =
      if some print = s.lastReplyHash then settling s
      else ⟨s.toolActive, some print, some item.timestamp⟩ := by
  simp only [observeReply, hprint]
  split
  · rfl
  · rw [recordReply, if_neg hreply]
    rfl

/-- What a snapshot says of the tools is taken over before its reply is looked at. -/
theorem snapshot_settling (lib : Library) (d : Detector) {item : Item}
    (hkind : item.kind = .sessionSnapshot ∨ item.kind = .sessionMutation) :
    settling (ingest lib .anchoredSessionStability d item).state =
      (settling d.state).after lib item := by
  obtain ⟨s, hs⟩ : ∃ s, s = if item.payload.get "tool_call_count" = .null then
        consumeCommonItem d.state item
      else { consumeCommonItem d.state item with
        toolActive := positiveCount lib (item.payload.get "tool_call_count") } := ⟨_, rfl⟩
  have hingest : ingest lib .anchoredSessionStability d item =
      (firstNonEmpty item.payload ["reply", "content", "text"]).elim (setPending s)
        fun reply => setPending (observeReply lib s item reply) := by
    rcases hkind with hkind | hkind
    · simp only [ingest, anchoredSessionStabilityIngest, hkind, hs]
      cases firstNonEmpty item.payload ["reply", "content", "text"] <;> rfl
    · simp only [ingest, anchoredSessionStabilityIngest, hkind, hs]
      cases firstNonEmpty item.payload ["reply", "content", "text"] <;> rfl
  have hmark : item.toolMark lib = if item.payload.get "tool_call_count" = .null then none
      else some (positiveCount lib (item.payload.get "tool_call_count")) := by
    rcases hkind with hkind | hkind <;> simp only [Item.toolMark, hkind]
  have hreply : item.sessionReply = firstNonEmpty item.payload ["reply", "content", "text"] := by
    rcases hkind with hkind | hkind <;> simp only [Item.sessionReply, hkind]
  have hcommon : settling (consumeCommonItem d.state item) = settling d.state := by
    rw [consumeCommonItem_settling]
    rcases hkind with hkind | hkind <;> rw [hkind] <;> rfl
  have hsettling : settling s =
      { settling d.state with toolActive := (item.toolMark lib).getD d.state.toolActive } := by
    rw [hs, hmark]
    split
    · exact hcommon
    · rw [← hcommon]
      rfl
  have hrotate : item.kind ≠ .sessionRotate := by
    rcases hkind with hkind | hkind <;> simp [hkind]
  rw [hingest, Settling.after, if_neg hrotate, Item.replyFingerprint, hreply]
  cases htext : firstNonEmpty item.payload ["reply", "content", "text"] with
  | none => exact hsettling
  | some reply =>
    have hne : strip reply ≠ "" := by
      rw [(firstNonEmpty_strip htext).1]
      exact (firstNonEmpty_strip htext).2
    have hhash : s.lastReplyHash = d.state.lastReplyHash :=
      congrArg Settling.lastReplyHash hsettling
    have htool : s.toolActive = (item.toolMark lib).getD d.state.toolActive :=
      congrArg Settling.toolActive hsettling
    simp only [setPending, Option.elim_some, Option.map_some, observeReply_settling lib s hne rfl,
      hhash, htool, hsettling]
    rfl

/-- The detector moves these parts as the item says. -/
theorem ingest_settling (lib : Library) (d : Detector) (item : Item) :
    settling (ingest lib .anchoredSessionStability d item).state =
      (settling d.state).after lib item := by
  have hcommon := consumeCommonItem_settling d.state item
  cases hkind : item.kind <;> rw [hkind] at hcommon
  case sessionSnapshot => exact snapshot_settling lib d (.inl hkind)
  case sessionMutation => exact snapshot_settling lib d (.inr hkind)
  all_goals
    simp only [ingest, anchoredSessionStabilityIngest, Settling.after, Item.toolMark,
      Item.replyFingerprint, Item.sessionReply, hkind, setPending, setTerminal]
    exact hcommon

/-! ### Runs -/

/-- What the state tells of the items since the last rotation. -/
structure Tracks (lib : Library) (p : Settling) (items : List Item) : Prop where
  tools : p.toolActive = toolOpen lib (sinceRotation items)
  kept : ∀ since, p.stableSince = some since → ∃ print, p.lastReplyHash = some print ∧
    KeptSince lib since print (sinceRotation items)

theorem Tracks.after {lib : Library} {p : Settling} {items : List Item} (h : Tracks lib p items)
    (item : Item) : Tracks lib (p.after lib item) (items ++ [item]) := by
  by_cases hrotate : item.kind = .sessionRotate
  · rw [Settling.after, if_pos hrotate]
    refine ⟨?_, by simp⟩
    rw [sinceRotation_rotate hrotate]
    rfl
  · have hkept : (∀ other, item.replyFingerprint lib = some other → p.lastReplyHash = some other) →
        ∀ since, p.stableSince = some since → ∃ print, p.lastReplyHash = some print ∧
          KeptSince lib since print (sinceRotation items ++ [item]) := by
      intro hsame since hsince
      obtain ⟨print, hprint, hk⟩ := h.kept since hsince
      refine ⟨print, hprint, hk.concat fun other hother => ?_⟩
      exact Option.some.inj ((hsame other hother).symm.trans hprint)
    have htools : (item.toolMark lib).getD p.toolActive =
        toolOpen lib (sinceRotation items ++ [item]) := by
      rw [toolOpen_concat, h.tools]
    rw [Settling.after, if_neg hrotate]
    cases hprint : item.replyFingerprint lib with
    | none =>
      refine ⟨?_, ?_⟩
      · rw [sinceRotation_concat hrotate]
        exact htools
      · rw [sinceRotation_concat hrotate]
        exact hkept (by simp [hprint])
    | some print =>
      simp only
      split
      · rename_i hsame
        refine ⟨?_, ?_⟩
        · rw [sinceRotation_concat hrotate]
          exact htools
        · rw [sinceRotation_concat hrotate]
          refine hkept fun other hother => ?_
          rw [← hsame, ← hother, hprint]
      · refine ⟨?_, ?_⟩
        · rw [sinceRotation_concat hrotate]
          exact htools
        · rw [sinceRotation_concat hrotate]
          intro since hsince
          obtain rfl := Option.some.inj hsince
          exact ⟨print, rfl, .new hprint _⟩

/-- A decision reports at `now` that the reply of the session has settled. -/
structure ReportsSettled (decision : Decision) (now : String) : Prop where
  terminal : decision.terminal = true
  status : decision.status = .completed
  reason : decision.reason = some "session_reply_stable"
  finishedAt : decision.finishedAt = some now

/-- Since the last rotation a reply that is not empty has come, every later one has its
fingerprint, the settle window has passed from its time to `now`, and no tool is at work. -/
structure Settled (lib : Library) (items : List Item) (now : String) : Prop where
  unchanged : ∃ before item after reply, sinceRotation items = before ++ item :: after ∧
    item.sessionReply = some reply ∧ reply ≠ "" ∧
    (∀ later ∈ after, ∀ print, later.replyFingerprint lib = some print →
      item.replyFingerprint lib = some print) ∧
    ∃ elapsed, microsBetween lib item.timestamp now = some elapsed ∧ lib.settleWindow ≤ elapsed
  idle : toolOpen lib (sinceRotation items) = false

theorem Tracks.settled {lib : Library} {p : Settling} {items : List Item} {since now : String}
    {elapsed : ℤ} (h : Tracks lib p items) (hsince : p.stableSince = some since)
    (helapsed : microsBetween lib since now = some elapsed) (hwindow : lib.settleWindow ≤ elapsed)
    (htools : p.toolActive = false) : Settled lib items now := by
  obtain ⟨print, -, before, item, after, hitems, htime, hprint, hafter⟩ := h.kept since hsince
  obtain ⟨reply, hreply, -⟩ := Option.map_eq_some_iff.mp hprint
  have hne : reply ≠ "" := by
    rw [Item.sessionReply] at hreply
    split at hreply
    · exact (firstNonEmpty_strip hreply).2
    · exact (firstNonEmpty_strip hreply).2
    · cases hreply
  refine ⟨⟨before, item, after, reply, hitems, hreply, hne, ?_, ?_⟩, ?_⟩
  · intro later hlater other hother
    rw [hprint, hafter later hlater other hother]
  · rw [htime]
    exact ⟨elapsed, helapsed, hwindow⟩
  · rw [← h.tools]
    exact htools

/-- What holds after some calls: the state tells what the items say, and a report is right. -/
structure Watched (lib : Library) (d : Detector) (items : List Item) : Prop where
  tracks : Tracks lib (settling d.state) items
  reports : ∀ now, ReportsSettled d.decision now → Settled lib items now

theorem not_reportsSettled_pending {s : State} {now : String} :
    ¬ ReportsSettled (setPending s).decision now :=
  fun h => Bool.false_ne_true h.terminal

/-- An item never gives the report. -/
theorem not_reportsSettled_ingest (lib : Library) (d : Detector) (item : Item) (now : String) :
    ¬ ReportsSettled (ingest lib .anchoredSessionStability d item).decision now := by
  intro h
  have hgives := ingest_gives lib .anchoredSessionStability d item
  have hstatus := h.status
  cases hv : item.verdict .anchoredSessionStability with
  | none =>
    rw [hv] at hgives
    exact Bool.false_ne_true (hgives.1.symm.trans h.terminal)
  | some v =>
    rw [hv] at hgives
    have hcompleted : v.1 = .completed := by
      rw [← hgives.2.1]
      exact hstatus
    rw [Item.verdict] at hv
    split at hv
    · rw [← Option.some.inj hv] at hcompleted
      cases hcompleted
    · rw [← Option.some.inj hv] at hcompleted
      cases hcompleted
    · rw [← Option.some.inj hv] at hcompleted
      cases hcompleted
    · cases hv

theorem settle_watched {lib : Library} {d : Detector} {items : List Item}
    (h : Watched lib d items) (now : String) : Watched lib (settle lib d now) items := by
  have hpending : Watched lib (setPending d.state) items :=
    ⟨h.tracks, fun _ hreports => absurd hreports not_reportsSettled_pending⟩
  simp only [settle]
  split
  · exact h
  · rename_i since hsince
    split_ifs with hover htools
    · exact h
    · exact hpending
    · split
      · exact h
      · rename_i elapsed helapsed
        split_ifs with hwindow
        · refine ⟨h.tracks, fun later hreports => ?_⟩
          obtain rfl : now = later := Option.some.inj hreports.finishedAt
          exact h.tracks.settled hsince helapsed hwindow (by simpa [settling] using htools)
        · exact hpending

theorem run_watched (lib : Library) (baseline : Cursor) (calls : List Call) :
    Watched lib (run lib .anchoredSessionStability baseline calls) (ingested calls) := by
  induction calls using List.reverseRec with
  | nil =>
    refine ⟨⟨rfl, nofun⟩, fun now h => ?_⟩
    exact absurd h.terminal Bool.false_ne_true
  | append_singleton calls call ih =>
    rw [run_concat]
    cases call with
    | ingest item =>
      rw [ingested_concat_ingest]
      refine ⟨?_, fun now h => absurd h (not_reportsSettled_ingest lib _ item now)⟩
      rw [Detector.call, ingest_settling]
      exact ih.tracks.after item
    | tick now cursor =>
      rw [ingested_concat_tick]
      have htracks := ih.tracks
      rw [← syncCursor_settling _ cursor] at htracks
      have hsynced : Watched lib
          { run lib .anchoredSessionStability baseline calls with
            state := syncCursor (run lib .anchoredSessionStability baseline calls).state cursor }
          (ingested calls) := ⟨htracks, ih.reports⟩
      exact settle_watched hsynced now
    | finalizeTimeout now cursor =>
      rw [ingested_concat_timeout, Detector.call, finalizeTimeout]
      split_ifs with hover
      · exact ih
      · refine ⟨?_, fun later h => ?_⟩
        · simp only [setTerminal]
          exact (syncCursor_settling _ _).symm ▸ ih.tracks
        · exact absurd h.status (by simp [setTerminal])

/-- The turn is reported as settled only when the window has passed over an unchanged reply. -/
theorem settled_of_reported (lib : Library) (baseline : Cursor) (calls : List Call) (now : String)
    (h : ReportsSettled (run lib .anchoredSessionStability baseline calls).decision now) :
    Settled lib (ingested calls) now :=
  (run_watched lib baseline calls).reports now h

/-- A reply at one second, looked at three seconds later. -/
theorem settled_of_reported_snapshot :
    let lib : Library := { Sample.lib with
      fromisoformat := fun value =>
        [("2026-03-18T00:00:01+00:00", ⟨1773792001000000, true⟩),
          ("2026-03-18T00:00:04+00:00", ⟨1773792004000000, true⟩)].lookup value }
    let snapshot : Item :=
      { kind := .sessionSnapshot
        timestamp := "2026-03-18T00:00:01Z"
        cursor := Sample.cursor 1
        payload := [("reply", .str "done")]
        nonempty := by decide }
    Settled lib [snapshot] "2026-03-18T00:00:04Z" :=
  settled_of_reported _ (Sample.cursor 0)
    [.ingest _, .tick "2026-03-18T00:00:04Z" none] "2026-03-18T00:00:04Z"
    ⟨by decide +kernel, by decide +kernel, by decide +kernel, by decide +kernel⟩

end Detector

end CodexBridge.Completion
