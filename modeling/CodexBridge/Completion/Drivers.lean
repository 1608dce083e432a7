import CodexBridge.Completion.SettledReplies

/-! Whether the tracker and the orchestrator find the same reply for the same items. The
tracker forgets the candidates at a session rotation and goes on after the end of the turn,
the orchestrator keeps them and stops there; so they agree exactly when the candidates that
only one of them looks at do not decide the reply. -/

namespace CodexBridge.Completion

/-! ### The candidate that is picked -/

theorem argmin_append {α : Type*} (f : α → ℕ) (l r : List α) :
    (l ++ r).argmin f =
      match l.argmin f, r.argmin f with
      | none, b => b
      | a, none => a
      | some a, some b => if f b < f a then some b else some a := by
  induction l with
  | nil => rfl
  | cons x l ih =>
    rw [List.cons_append, List.argmin_cons, List.argmin_cons, ih]
    cases hl : l.argmin f <;> cases hr : r.argmin f
    · rfl
    · rfl
    · dsimp only
      split_ifs <;> rfl
    · dsimp only
      split_ifs <;> dsimp only <;> split_ifs <;> first | rfl | omega

/-- The last candidate of the best priority. -/
def lastBest (candidates : List ReplyCandidate) : Option ReplyCandidate :=
  candidates.reverse.argmin ReplyCandidate.rank

def bestText (candidates : List ReplyCandidate) : String :=
  ((lastBest candidates).map ReplyCandidate.text).getD ""

theorem lastBest_append (stale fresh : List ReplyCandidate) :
    lastBest (stale ++ fresh) =
      match lastBest fresh, lastBest stale with
      | none, c => c
      | c, none => c
      | some c, some x => if x.rank < c.rank then some x else some c := by
  simp only [lastBest, List.reverse_append, argmin_append]
  cases fresh.reverse.argmin ReplyCandidate.rank <;>
    cases stale.reverse.argmin ReplyCandidate.rank <;> rfl

theorem lastBest_mem {candidates : List ReplyCandidate} {c : ReplyCandidate}
    (h : lastBest candidates = some c) : c ∈ candidates :=
  List.mem_reverse.mp (List.argmin_mem (Option.mem_def.mpr h))

theorem lastBest_eq_none {candidates : List ReplyCandidate} :
    lastBest candidates = none ↔ candidates = [] := by
  rw [lastBest, List.argmin_eq_none, List.reverse_eq_nil_iff]

theorem lastBest_le {candidates : List ReplyCandidate} {c x : ReplyCandidate}
    (h : lastBest candidates = some c) (hx : x ∈ candidates) : c.rank ≤ x.rank :=
  List.le_of_mem_argmin (List.mem_reverse.mpr hx) (Option.mem_def.mpr h)

/-- A candidate that no earlier one and no later one goes before is the one. -/
theorem lastBest_of_split {before after : List ReplyCandidate} {c : ReplyCandidate}
    (hbefore : ∀ x ∈ before, c.rank ≤ x.rank) (hafter : ∀ x ∈ after, c.rank < x.rank) :
    lastBest (before ++ c :: after) = some c := by
  have hsuffix : lastBest (c :: after) = some c := by
    rw [← List.singleton_append, lastBest_append]
    cases hx : lastBest after with
    | none => rfl
    | some x => exact if_pos (hafter x (lastBest_mem hx))
  rw [lastBest_append, hsuffix]
  cases hx : lastBest before with
  | none => rfl
  | some x => exact if_neg (Nat.not_lt.mpr (hbefore x (lastBest_mem hx)))

/-! ### Selectors -/

namespace Selector

def held (s : Selector) : List ReplyCandidate := s.candidates.map Prod.snd

/-- The candidates are numbered in the order in which they came. -/
structure Numbered (s : Selector) : Prop where
  increasing : s.candidates.Pairwise fun a b => a.1 < b.1
  below : ∀ entry ∈ s.candidates, entry.1 < s.sequence

theorem Numbered.empty : Numbered .empty := ⟨.nil, by simp [Selector.empty]⟩

theorem Numbered.reset (s : Selector) : s.reset.Numbered :=
  ⟨.nil, by simp [Selector.reset]⟩

theorem Numbered.ingestCandidate {s : Selector} (h : s.Numbered) (c : ReplyCandidate) :
    (s.ingestCandidate c).Numbered := by
  refine ⟨List.pairwise_append.mpr ⟨h.increasing, List.pairwise_singleton _ _, ?_⟩, ?_⟩
  · intro a ha b hb
    rw [List.mem_singleton.mp hb]
    exact h.below a ha
  · intro entry hentry
    rcases List.mem_append.mp hentry with hentry | hentry
    · exact (h.below entry hentry).trans (Nat.lt_succ_self _)
    · rw [List.mem_singleton.mp hentry]
      exact Nat.lt_succ_self _

theorem Numbered.ingest {s : Selector} (h : s.Numbered) (cs : List ReplyCandidate) :
    (cs.foldl Selector.ingestCandidate s).Numbered ∧
      (cs.foldl Selector.ingestCandidate s).held = s.held ++ cs := by
  induction cs generalizing s with
  | nil => exact ⟨h, (List.append_nil _).symm⟩
  | cons c cs ih =>
    obtain ⟨hnumbered, hheld⟩ := ih (h.ingestCandidate c)
    refine ⟨hnumbered, ?_⟩
    rw [List.foldl_cons, hheld]
    simp [Selector.held, Selector.ingestCandidate]

theorem precedes_trans (a b c : ℕ × ReplyCandidate) (hab : precedes a b = true)
    (hbc : precedes b c = true) : precedes a c = true := by
  simp only [precedes, Bool.or_eq_true, Bool.and_eq_true, decide_eq_true_eq] at *
  omega

theorem precedes_total (a b : ℕ × ReplyCandidate) : (precedes a b || precedes b a) = true := by
  simp only [precedes, Bool.or_eq_true, Bool.and_eq_true, decide_eq_true_eq]
  omega

theorem Numbered.bestCandidate {s : Selector} (h : s.Numbered) :
    s.bestCandidate = lastBest s.held := by
  unfold Selector.bestCandidate
  cases hsorted : s.candidates.mergeSort precedes with
  | nil =>
    have hnil : s.candidates = [] := by
      have hlength : (s.candidates.mergeSort precedes).length = s.candidates.length :=
        List.length_mergeSort s.candidates
      rw [hsorted] at hlength
      exact List.eq_nil_of_length_eq_zero hlength.symm
    simp [Selector.held, hnil, lastBest]
  | cons m rest =>
    have hmem (x : ℕ × ReplyCandidate) : x ∈ s.candidates ↔ x ∈ m :: rest := by
      rw [← hsorted, List.mem_mergeSort]
    have hfirst : ∀ x ∈ s.candidates, precedes m x = true := by
      intro x hx
      have hpairwise := List.pairwise_mergeSort precedes_trans precedes_total s.candidates
      rw [hmem] at hx
      rw [hsorted, List.pairwise_cons] at hpairwise
      rcases List.mem_cons.mp hx with rfl | hx
      · simpa using precedes_total x x
      · exact hpairwise.1 x hx
    have hm : m ∈ s.candidates := (hmem m).mpr List.mem_cons_self
    obtain ⟨before, after, hsplit⟩ := List.append_of_mem hm
    have hincreasing := h.increasing
    rw [hsplit, List.pairwise_append, List.pairwise_cons] at hincreasing
    rw [Selector.held, hsplit, List.map_append, List.map_cons]
    refine (lastBest_of_split ?_ ?_).symm
    · intro c hc
      obtain ⟨x, hx, rfl⟩ := List.mem_map.mp hc
      have hle := hfirst x (by simp [hsplit, hx])
      simp only [precedes, Bool.or_eq_true, Bool.and_eq_true, decide_eq_true_eq] at hle
      omega
    · intro c hc
      obtain ⟨x, hx, rfl⟩ := List.mem_map.mp hc
      have hle := hfirst x (by simp [hsplit, hx])
      have hlt := hincreasing.2.1.1 x hx
      simp only [precedes, Bool.or_eq_true, Bool.and_eq_true, decide_eq_true_eq] at hle
      omega

theorem Numbered.preview {s : Selector} (h : s.Numbered) : s.preview = bestText s.held := by
  rw [Selector.preview, h.bestCandidate, bestText]

end Selector

/-! ### The reply a detector supplies -/

namespace Detector

/-- A decision that is not terminal has no reply. -/
structure Plain (d : Detector) : Prop where
  reply : d.decision.terminal = false → d.decision.reply = ""

theorem setPending_plain (s : State) : (setPending s).Plain := ⟨fun _ => rfl⟩

theorem setTerminal_plain (s : State) (status : Status) (reason : String)
    (confidence : Confidence) (finishedAt reply : String) (diagnostics : Payload) :
    (setTerminal s status reason confidence finishedAt reply diagnostics).Plain := ⟨nofun⟩

theorem ite_plain {c : Prop} [Decidable c] {d₁ d₂ : Detector} (h₁ : d₁.Plain) (h₂ : d₂.Plain) :
    (if c then d₁ else d₂).Plain := by
  split
  · exact h₁
  · exact h₂

theorem observed_plain (lib : Library) (s : State) (item : Item) :
    (match firstNonEmpty item.payload ["reply", "content", "text"] with
      | some reply => setPending (observeReply lib s item reply)
      | none => setPending s).Plain := by
  split <;> exact setPending_plain _

theorem ingest_plain (lib : Library) (family : Family) (d : Detector) (item : Item) :
    (ingest lib family d item).Plain := by
  cases family with
  | protocolTurn =>
    simp only [ingest, protocolTurnIngest, failTerminal]
    cases item.kind <;> first | exact setTerminal_plain .. | exact setPending_plain ..
  | sessionBoundary =>
    simp only [ingest, sessionBoundaryIngest]
    cases item.kind <;> first | exact setTerminal_plain .. | exact setPending_plain ..
  | structuredResult =>
    simp only [ingest, structuredResultIngest, terminalFromItem]
    cases item.kind <;> first | exact setTerminal_plain .. | exact setPending_plain ..
  | terminalTextQuiet =>
    simp only [ingest, terminalTextQuietIngest]
    cases item.kind <;>
      first
      | exact setTerminal_plain ..
      | exact setPending_plain ..
      | exact ite_plain (setTerminal_plain ..) (setPending_plain ..)
  | anchoredSessionStability =>
    simp only [ingest, anchoredSessionStabilityIngest]
    cases item.kind <;>
      first
      | exact setTerminal_plain ..
      | exact setPending_plain ..
      | exact observed_plain lib _ item

end Detector

/-- The reply the last item brings when it ends the turn. -/
def suppliedReply (family : Family) (items : List Item) : String :=
  ((items.getLast?.bind fun item => item.verdict family).map fun outcome => outcome.2.2).getD ""

theorem suppliedReply_concat (family : Family) (items : List Item) (item : Item) :
    suppliedReply family (items ++ [item]) =
      ((item.verdict family).map fun outcome => outcome.2.2).getD "" := by
  simp [suppliedReply]

/-- An item that does not end the turn does not change what is supplied after it. -/
theorem suppliedReply_cons {family : Family} {item : Item} (h : item.verdict family = none)
    (items : List Item) : suppliedReply family (item :: items) = suppliedReply family items := by
  cases items with
  | nil => simp [suppliedReply, h]
  | cons next items => simp [suppliedReply]

namespace Detector

theorem ingest_reply (lib : Library) (family : Family) (d : Detector) (item : Item) :
    (ingest lib family d item).decision.reply =
      ((item.verdict family).map fun outcome => outcome.2.2).getD "" := by
  have hgives := ingest_gives lib family d item
  cases hv : item.verdict family with
  | none =>
    rw [hv] at hgives
    exact (ingest_plain lib family d item).reply hgives.1
  | some v =>
    rw [hv] at hgives
    exact congrArg (fun outcome : Outcome => outcome.2.2) hgives.2.1

theorem verdict_eq_none {lib : Library} {family : Family} {d : Detector} {item : Item}
    (h : (ingest lib family d item).decision.terminal = false) : item.verdict family = none := by
  have hgives := ingest_gives lib family d item
  cases hv : item.verdict family with
  | none => rfl
  | some v =>
    rw [hv] at hgives
    exact absurd (hgives.1.symm.trans h) Bool.noConfusion

/-- A tick leaves the reply as it is. -/
theorem tick_reply (lib : Library) (family : Family) {d : Detector} (now : String)
    (cursor : Option Cursor) (h : d.Plain) :
    (tick lib family d now cursor).decision.reply = d.decision.reply ∧
      (tick lib family d now cursor).Plain := by
  cases family with
  | anchoredSessionStability =>
    simp only [tick, settle]
    split
    · exact ⟨rfl, ⟨h.reply⟩⟩
    · split_ifs with hover htools
      · exact ⟨rfl, ⟨h.reply⟩⟩
      · exact ⟨(h.reply (by simp_all)).symm, setPending_plain _⟩
      · have hopen : d.decision.terminal = false := by simp_all
        split
        · exact ⟨rfl, ⟨h.reply⟩⟩
        · split_ifs
          · exact ⟨(h.reply hopen).symm, setTerminal_plain ..⟩
          · exact ⟨(h.reply hopen).symm, setPending_plain _⟩
  | _ => exact ⟨rfl, ⟨h.reply⟩⟩

theorem finalizeTimeout_reply (family : Family) {d : Detector} (now : String)
    (cursor : Option Cursor) (h : d.Plain) :
    (finalizeTimeout family d now cursor).decision.reply = d.decision.reply ∧
      (finalizeTimeout family d now cursor).decision.terminal = true := by
  simp only [finalizeTimeout]
  split_ifs with hover hquiet
  · exact ⟨rfl, hover⟩
  · exact ⟨(h.reply (by simpa using hover)).symm, rfl⟩
  · exact ⟨(h.reply (by simpa using hover)).symm, rfl⟩

end Detector

/-! ### The tracker -/

/-- The items from the last session rotation on. -/
def fromRotation (items : List Item) : List Item :=
  items.foldl (fun kept item => if item.kind = .sessionRotate then [item] else kept ++ [item]) []

theorem fromRotation_concat (items : List Item) (item : Item) :
    fromRotation (items ++ [item]) =
      if item.kind = .sessionRotate then [item] else fromRotation items ++ [item] := by
  simp [fromRotation]

theorem fromRotation_suffix (items : List Item) : fromRotation items <:+ items := by
  induction items using List.reverseRec with
  | nil => exact List.suffix_rfl
  | append_singleton items item ih =>
    rw [fromRotation_concat]
    split
    · exact List.suffix_append _ _
    · obtain ⟨stale, hstale⟩ := ih
      exact ⟨stale, by rw [← List.append_assoc, hstale]⟩

/-- The reply the items call for: the one the detector supplies, or else the last candidate of
the best priority since the last session rotation. -/
def replyOf (family : Family) (items : List Item) : String :=
  if suppliedReply family items ≠ "" then suppliedReply family items
  else bestText ((fromRotation items).flatMap replyCandidatesFromItem)

inductive TrackerStep where
  | ingest (item : Item)
  | tick (now : String)

namespace Tracker

section Runs

variable (lib : Library) (family : Family) (timedOut : String → Bool)

def step (t : Tracker) : TrackerStep → Tracker
  | .ingest item => ingest lib family t item
  | .tick now => tick lib family timedOut t now

def run (baseline : Cursor) (steps : List TrackerStep) : Tracker :=
  steps.foldl (step lib family timedOut) (start baseline)

/-- The items a tracker has ingested. -/
def items (steps : List TrackerStep) : List Item :=
  steps.filterMap fun
    | .ingest item => some item
    | .tick _ => none

/-- What a tracker holds after the items. -/
structure Holds (t : Tracker) (items : List Item) : Prop where
  numbered : t.selector.Numbered
  held : t.selector.held = (fromRotation items).flatMap replyCandidatesFromItem
  supplied : t.detector.decision.reply = suppliedReply family items
  plain : t.detector.Plain

variable {family} in
theorem Holds.ingest {t : Tracker} {items : List Item} (h : Holds family t items) (item : Item) :
    Holds family (Tracker.ingest lib family t item) (items ++ [item]) := by
  have hselector : ∀ s : Selector, s.Numbered →
      s.held ++ replyCandidatesFromItem item =
        (fromRotation (items ++ [item])).flatMap replyCandidatesFromItem →
      ((replyCandidatesFromItem item).foldl Selector.ingestCandidate s).Numbered ∧
        ((replyCandidatesFromItem item).foldl Selector.ingestCandidate s).held =
          (fromRotation (items ++ [item])).flatMap replyCandidatesFromItem := by
    intro s hs heq
    obtain ⟨hnumbered, hheld⟩ := hs.ingest (replyCandidatesFromItem item)
    exact ⟨hnumbered, hheld.trans heq⟩
  have hstep : (Tracker.ingest lib family t item).selector.Numbered ∧
      (Tracker.ingest lib family t item).selector.held =
        (fromRotation (items ++ [item])).flatMap replyCandidatesFromItem := by
    rw [fromRotation_concat] at hselector ⊢
    by_cases hrotate : item.kind = .sessionRotate
    · simp only [Tracker.ingest, hrotate, if_true] at hselector ⊢
      refine hselector _ (.reset _) ?_
      simp [Selector.reset, Selector.held]
    · simp only [Tracker.ingest, hrotate, if_false] at hselector ⊢
      refine hselector _ h.numbered ?_
      rw [h.held, List.flatMap_append, List.flatMap_singleton]
  refine ⟨hstep.1, hstep.2, ?_, Detector.ingest_plain lib family _ item⟩
  rw [suppliedReply_concat]
  exact Detector.ingest_reply lib family _ item

variable {family} in
theorem Holds.tick {t : Tracker} {items : List Item} (h : Holds family t items) (now : String) :
    Holds family (Tracker.tick lib family timedOut t now) items := by
  obtain ⟨hreply, hplain⟩ :=
    Detector.tick_reply lib family now t.detector.state.latestCursor h.plain
  simp only [Tracker.tick]
  split_ifs
  · obtain ⟨htimeout, hover⟩ := Detector.finalizeTimeout_reply family now
      (Detector.tick lib family t.detector now t.detector.state.latestCursor).state.latestCursor
      hplain
    refine ⟨h.numbered, h.held, htimeout.trans (hreply.trans h.supplied), ⟨fun hopen => ?_⟩⟩
    exact absurd (hover.symm.trans hopen) Bool.noConfusion
  · exact ⟨h.numbered, h.held, hreply.trans h.supplied, hplain⟩

theorem run_holds (baseline : Cursor) (steps : List TrackerStep) :
    Holds family (run lib family timedOut baseline steps) (items steps) := by
  induction steps using List.reverseRec with
  | nil => exact ⟨.empty, rfl, rfl, ⟨fun _ => rfl⟩⟩
  | append_singleton steps next ih =>
    rw [run, List.foldl_append]
    cases next with
    | ingest item =>
      have hitems : items (steps ++ [.ingest item]) = items steps ++ [item] := by simp [items]
      rw [hitems]
      exact ih.ingest lib item
    | tick now =>
      have hitems : items (steps ++ [.tick now]) = items steps := by simp [items]
      rw [hitems]
      exact ih.tick lib timedOut now

/-- The tracker reports the reply that the items call for. -/
theorem run_reply (baseline : Cursor) (steps : List TrackerStep) :
    (run lib family timedOut baseline steps).current.reply = replyOf family (items steps) := by
  have h := run_holds lib family timedOut baseline steps
  have hpreview := h.numbered.preview
  rw [h.held] at hpreview
  rw [replyOf, ← h.supplied, ← hpreview]
  simp only [current, Selector.select, Decision.withReply]
  split_ifs <;> simp_all

end Runs

end Tracker

/-! ### The orchestrator -/

/-- The item a poll of the source gives. -/
def SourcePoll.given : SourcePoll → Option Item
  | .item found => some found
  | .nothing _ => none

namespace Orchestrator

/-- The items the loop takes from the source. -/
def takenFrom (lib : Library) (family : Family) (detector : Detector) (cursor : Cursor) :
    List SourcePoll → List Item
  | [] => []
  | .nothing now :: rest =>
    let detector := Detector.tick lib family detector now (some cursor)
    if detector.decision.terminal then [] else takenFrom lib family detector cursor rest
  | .item item :: rest =>
    let detector := Detector.ingest lib family detector item
    if detector.decision.terminal then [item]
    else item :: takenFrom lib family detector item.cursor rest

def taken (lib : Library) (family : Family) (baseline : Cursor) (polls : List SourcePoll) :
    List Item :=
  takenFrom lib family (Detector.bind baseline) baseline polls

/-- All the items that the source has given, in order. -/
def polled (polls : List SourcePoll) : List Item := polls.filterMap SourcePoll.given

theorem takenFrom_front (lib : Library) (family : Family) (detector : Detector)
    (cursor : Cursor) (polls : List SourcePoll) :
    takenFrom lib family detector cursor polls <+: polled polls := by
  induction polls generalizing detector cursor with
  | nil => exact List.nil_prefix
  | cons poll rest ih =>
    cases poll with
    | nothing now =>
      simp only [takenFrom, polled, List.filterMap_cons, SourcePoll.given]
      split
      · exact List.nil_prefix
      · exact ih _ _
    | item item =>
      simp only [takenFrom, polled, List.filterMap_cons, SourcePoll.given]
      split
      · exact (List.prefix_cons_inj item).mpr List.nil_prefix
      · exact (List.prefix_cons_inj item).mpr (ih _ _)

/-- The loop takes the items in order and stops at one of them, or takes them all. -/
theorem taken_front (lib : Library) (family : Family) (baseline : Cursor)
    (polls : List SourcePoll) : taken lib family baseline polls <+: polled polls :=
  takenFrom_front lib family _ baseline polls

theorem finalize_reply {selector : Selector} {decision : Decision}
    (h : decision.terminal = true) :
    (finalize selector decision).reply =
      if decision.reply ≠ "" then decision.reply else selector.preview := by
  simp only [finalize, h, Selector.select, Decision.withReply]
  split_ifs <;> simp_all

section Loop

variable (lib : Library) (family : Family) (deadline : String)

/-- The reply of the loop, from the candidates it has and the items it takes. -/
theorem loop_reply {detector : Detector} {selector : Selector} (cursor : Cursor)
    (hopen : detector.decision.reply = "") (hnumbered : selector.Numbered)
    (polls : List SourcePoll) :
    let items := takenFrom lib family detector cursor polls
    (loop lib family deadline detector selector cursor polls).reply =
      if suppliedReply family items ≠ "" then suppliedReply family items
      else bestText (selector.held ++ items.flatMap replyCandidatesFromItem) := by
  induction polls generalizing detector selector cursor with
  | nil =>
    obtain ⟨hreply, hover⟩ :=
      Detector.finalizeTimeout_reply family deadline (some cursor) ⟨fun _ => hopen⟩
    rw [loop, finalize_reply hover, hreply, hopen, hnumbered.preview]
    simp [takenFrom, suppliedReply]
  | cons poll rest ih =>
    cases poll with
    | nothing now =>
      obtain ⟨hreply, -⟩ := Detector.tick_reply lib family now (some cursor) ⟨fun _ => hopen⟩
      rw [hopen] at hreply
      simp only [loop, takenFrom]
      split
      · rename_i hover
        rw [finalize_reply hover, hreply, hnumbered.preview]
        simp [suppliedReply]
      · exact ih cursor hreply hnumbered
    | item item =>
      obtain ⟨hnumbered', hheld⟩ := hnumbered.ingest (replyCandidatesFromItem item)
      have hreply := Detector.ingest_reply lib family detector item
      simp only [loop, takenFrom]
      split
      · rename_i hover
        rw [finalize_reply hover, hreply, hnumbered'.preview, hheld]
        simp [suppliedReply]
      · rename_i hpending
        have hverdict := Detector.verdict_eq_none (by simpa using hpending)
        rw [hverdict] at hreply
        have hrest := ih item.cursor hreply hnumbered'
        rw [hheld] at hrest
        rw [suppliedReply_cons hverdict, List.flatMap_cons, ← List.append_assoc]
        exact hrest

theorem run_reply (baseline : Cursor) (polls : List SourcePoll) :
    let items := taken lib family baseline polls
    (run lib family baseline polls deadline).reply =
      if suppliedReply family items ≠ "" then suppliedReply family items
      else bestText (items.flatMap replyCandidatesFromItem) :=
  loop_reply lib family deadline baseline rfl .empty polls

end Loop

end Orchestrator

/-! ### Agreement -/

/-- An earlier candidate goes before all later ones. -/
def Outranks (earlier later : List ReplyCandidate) : Prop :=
  ∃ x ∈ earlier, ∀ c ∈ later, x.rank < c.rank

instance (earlier later : List ReplyCandidate) : Decidable (Outranks earlier later) :=
  inferInstanceAs (Decidable (∃ x ∈ earlier, ∀ c ∈ later, x.rank < c.rank))

/-- The candidates that decide between an earlier and a later part. -/
def prevailing (earlier later : List ReplyCandidate) : List ReplyCandidate :=
  if Outranks earlier later then earlier else later

theorem bestText_append (earlier later : List ReplyCandidate) :
    bestText (earlier ++ later) = bestText (prevailing earlier later) := by
  have hlast := lastBest_append earlier later
  cases hearlier : lastBest earlier with
  | none =>
    have hnil := lastBest_eq_none.mp hearlier
    subst hnil
    simp [prevailing, Outranks]
  | some x =>
    cases hlater : lastBest later with
    | none =>
      have hnil := lastBest_eq_none.mp hlater
      subst hnil
      have houtranks : Outranks earlier [] := ⟨x, lastBest_mem hearlier, by simp⟩
      rw [prevailing, if_pos houtranks, List.append_nil]
    | some c =>
      rw [hearlier, hlater] at hlast
      dsimp only at hlast
      split at hlast
      · rename_i hlt
        have houtranks : Outranks earlier later := by
          refine ⟨x, lastBest_mem hearlier, fun y hy => ?_⟩
          exact hlt.trans_le (lastBest_le hlater hy)
        rw [prevailing, if_pos houtranks, bestText, bestText, hlast, hearlier]
      · rename_i hge
        have hnot : ¬ Outranks earlier later := by
          rintro ⟨y, hy, hbest⟩
          have hyc := hbest c (lastBest_mem hlater)
          have hxy := lastBest_le hearlier hy
          omega
        rw [prevailing, if_neg hnot, bestText, bestText, hlast, hlater]

theorem drop_fromRotation (items : List Item) :
    items.drop (items.length - (fromRotation items).length) = fromRotation items := by
  obtain ⟨stale, hstale⟩ := fromRotation_suffix items
  have hlength : items.length - (fromRotation items).length = stale.length := by
    have := congrArg List.length hstale
    rw [List.length_append] at this
    omega
  rw [hlength, ← hstale, List.drop_left, hstale]

/-- What only one of the drivers looks at does not decide the reply: the orchestrator stops at
the item that ends the turn and keeps the candidates from before the last rotation, the tracker
goes on and drops them. Both look at the items taken since the last rotation. -/
def Undisturbed (family : Family) (taken later : List Item) : Prop :=
  let items := taken ++ later
  let k := items.length - (fromRotation items).length
  let stale := (taken.take k).flatMap replyCandidatesFromItem
  let shared := (taken.drop k).flatMap replyCandidatesFromItem
  let late := (later.drop (k - taken.length)).flatMap replyCandidatesFromItem
  let supplied := suppliedReply family taken
  let last := suppliedReply family items
  if supplied ≠ "" then
    -- with nothing after the end this is the end's own reply
    last = supplied ∨ last = "" ∧ bestText (prevailing shared late) = supplied
  else if last ≠ "" then bestText (prevailing stale shared) = last
  else bestText (prevailing stale shared) = bestText (prevailing shared late)

/-- The two drivers find the same reply, the one the items call for, exactly when neither the
candidates from before the last rotation nor the items after the end of the turn decide it. -/
theorem drivers_agree_iff (lib : Library) (family : Family) (timedOut : String → Bool)
    (baseline : Cursor) (polls : List SourcePoll) (deadline : String) :
    let items := Orchestrator.polled polls
    let taken := Orchestrator.taken lib family baseline polls
    let answer := (Orchestrator.run lib family baseline polls deadline).reply
    let shown := (Tracker.run lib family timedOut baseline (items.map .ingest)).current.reply
    (answer = shown ∧ shown = replyOf family items ∧ answer = replyOf family items) ↔
      Undisturbed family taken (items.drop taken.length) := by
  intro items taken answer shown
  have hitems : Tracker.items (items.map .ingest) = items := by simp [Tracker.items]
  have hshown : shown = replyOf family items := by
    rw [← hitems]
    exact Tracker.run_reply lib family timedOut baseline (items.map .ingest)
  have hanswer : answer = if suppliedReply family taken ≠ "" then suppliedReply family taken
      else bestText (taken.flatMap replyCandidatesFromItem) :=
    Orchestrator.run_reply lib family deadline baseline polls
  obtain ⟨later, hsplit⟩ := Orchestrator.taken_front lib family baseline polls
  have hlater : items.drop taken.length = later := by
    rw [show items = taken ++ later from hsplit.symm, List.drop_left]
  have hall : taken ++ later = items := hsplit
  -- the candidates of the two drivers, by whether the other one looks at them
  set k := items.length - (fromRotation items).length with hk
  set stale := (taken.take k).flatMap replyCandidatesFromItem with hstale
  set shared := (taken.drop k).flatMap replyCandidatesFromItem with hshared
  set late := (later.drop (k - taken.length)).flatMap replyCandidatesFromItem with hlate
  have htaken : taken.flatMap replyCandidatesFromItem = stale ++ shared := by
    rw [hstale, hshared, ← List.flatMap_append, List.take_append_drop]
  have hfresh : (fromRotation items).flatMap replyCandidatesFromItem = shared ++ late := by
    rw [← drop_fromRotation, ← hk, ← hall, List.drop_append, List.flatMap_append]
  rw [htaken, bestText_append] at hanswer
  rw [hlater, Undisturbed, hall, hshown, hanswer, replyOf, hfresh, bestText_append]
  rw [← hk, ← hstale, ← hshared, ← hlate]
  by_cases hsupplied : suppliedReply family taken = ""
  · by_cases hlast : suppliedReply family items = ""
    · simp [hsupplied, hlast]
    · simp [hsupplied, hlast]
  · by_cases hlast : suppliedReply family items = ""
    · simp [hsupplied, hlast, eq_comm, Ne.symm hsupplied]
    · simp [hsupplied, hlast, eq_comm]

namespace Sample

def rotation : Item :=
  { kind := .sessionRotate
    timestamp := "2026-03-18T00:00:03Z"
    cursor := Detector.Sample.cursor 3
    payload := []
    nonempty := by decide }

def silentBoundary : Item :=
  { kind := .turnBoundary
    timestamp := "2026-03-18T00:00:04Z"
    cursor := Detector.Sample.cursor 4
    payload := []
    nonempty := by decide }

/-- A text, a new session, and the end of the turn without a reply. -/
def rotatedPolls : List SourcePoll :=
  [.item Detector.Sample.chunk, .item rotation, .item silentBoundary]

end Sample

/-- The orchestrator answers with the text of the session that is over. -/
theorem rotation_keeps_old_candidate :
    ¬ ∀ lib family timedOut baseline polls deadline,
      (Orchestrator.run lib family baseline polls deadline).reply =
        (Tracker.run lib family timedOut baseline
          ((Orchestrator.polled polls).map .ingest)).current.reply := by
  intro h
  have hsame := h Detector.Sample.lib .sessionBoundary (fun _ => false)
    (Detector.Sample.cursor 0) Sample.rotatedPolls ""
  rw [Orchestrator.run_reply, Tracker.run_reply] at hsame
  exact absurd hsame (by decide +kernel)

end CodexBridge.Completion
