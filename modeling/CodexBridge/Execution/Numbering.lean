import CodexBridge.Execution.Active

/-! Sequence numbers. An adapter numbers the items of a job one after the other and
keeps its next number in the runtime state; the reliability monitor and the state
file leave that number alone. -/

namespace CodexBridge.Execution

open Completion

/-! ### Numbering -/

/-- The number of an item among those of its job. -/
def seqOf (item : Item) : ℕ := item.cursor.eventSeq.getD 0

/-- The items carry the numbers from `first` on. -/
def NumberedFrom (first : ℕ) (items : List Item) : Prop :=
  items.map (fun item => item.cursor.eventSeq) = (List.range' first items.length).map some

/-- An adapter numbers the items of a job from one on, and its number goes with the
submission through an export and a resume. -/
structure Numbers {World : Type} (adapter : Adapter World) : Prop where
  start : ∀ context w, nextSeq (adapter.start context w).runtimeState = 1
  poll : ∀ sub w result, adapter.poll sub w = some result →
    NumberedFrom (nextSeq sub.runtimeState) result.items ∧
      nextSeq result.submission.runtimeState = nextSeq sub.runtimeState + result.items.length
  exported : ∀ exporter sub payload, adapter.exportRuntimeState = some exporter →
    exporter sub = some payload → nextSeq payload = nextSeq sub.runtimeState
  resumed : ∀ resume sub context w sub', adapter.resume = some resume →
    resume sub context w = some sub' → nextSeq sub'.runtimeState = nextSeq sub.runtimeState

def Numbered {World : Type} (registry : Registry World) : Prop :=
  ∀ provider adapter, registry provider = some adapter → Numbers adapter

theorem NumberedFrom.named {first : ℕ} {items : List Item} (h : NumberedFrom first items)
    {item : Item} (hitem : item ∈ items) :
    item.cursor.eventSeq = some (seqOf item) ∧ first ≤ seqOf item ∧
      seqOf item < first + items.length := by
  have hmem : item.cursor.eventSeq ∈ (List.range' first items.length).map some :=
    h ▸ List.mem_map_of_mem hitem
  obtain ⟨n, hn, heq⟩ := List.mem_map.mp hmem
  have hseq : seqOf item = n := by rw [seqOf, ← heq, Option.getD_some]
  have hrange := List.mem_range'_1.mp hn
  exact ⟨by rw [← heq, hseq], by omega, by omega⟩

theorem NumberedFrom.map_seqOf {first : ℕ} {items : List Item} (h : NumberedFrom first items) :
    items.map seqOf = List.range' first items.length := by
  have : items.map seqOf =
      (items.map fun item => item.cursor.eventSeq).map fun n => n.getD 0 := by
    rw [List.map_map]
    rfl
  rw [this, h, List.map_map]
  exact List.map_id _

theorem NumberedFrom.nil (first : ℕ) : NumberedFrom first [] := rfl

theorem NumberedFrom.append {first : ℕ} {items more : List Item} (h : NumberedFrom first items)
    (h' : NumberedFrom (first + items.length) more) : NumberedFrom first (items ++ more) := by
  rw [NumberedFrom, List.map_append, h, h', List.length_append, ← List.map_append,
    List.range'_append_1]

theorem NumberedFrom.concat {first : ℕ} {items : List Item} (h : NumberedFrom first items)
    {item : Item} (hseq : item.cursor.eventSeq = some (first + items.length)) :
    NumberedFrom first (items ++ [item]) := by
  rw [NumberedFrom, List.map_append, h, List.length_append, List.length_singleton,
    List.range'_concat, List.map_append, Nat.one_mul]
  simp only [List.map_cons, List.map_nil, hseq]

/-! ### What leaves the number alone -/

theorem nextSeq_override {base overlay : Payload} (h : overlay.lookup "next_seq" = none) :
    nextSeq (override base overlay) = nextSeq base := by
  simp [nextSeq, override, List.lookup_append, h]

theorem lookup_filter_reliability (source : Payload) :
    (source.filter fun entry => "reliability_".toList <+: entry.1.toList).lookup "next_seq" =
      none := by
  rw [List.lookup_eq_none_iff]
  intro entry hentry
  have hprefix := (List.mem_filter.mp hentry).2
  simp only [decide_eq_true_eq] at hprefix
  rw [bne_iff_ne]
  intro hkey
  rw [← hkey] at hprefix
  exact absurd hprefix (by decide)

theorem nextSeq_withReliabilityState (runtimeState source : Payload) :
    nextSeq (Service.withReliabilityState runtimeState source) = nextSeq runtimeState :=
  nextSeq_override (lookup_filter_reliability source)

namespace Active

/-- A pane or a runtime that is gone gives one item, numbered as the next one. -/
theorem failedResult_numbered (sub : Submission) (now : Now) (kind : ItemKind) (reason : String)
    (payload diagnostics : Payload) :
    NumberedFrom (nextSeq sub.runtimeState)
        (failedResult sub now kind reason payload diagnostics).items ∧
      nextSeq (failedResult sub now kind reason payload diagnostics).submission.runtimeState =
        nextSeq sub.runtimeState + 1 :=
  ⟨rfl, rfl⟩

theorem resumeActiveSubmission_nextSeq {sub sub' : Submission} {context : Option RuntimeContext}
    {paneId : Option String} (h : resumeActiveSubmission sub context paneId = some sub') :
    nextSeq sub'.runtimeState = nextSeq sub.runtimeState := by
  simp only [resumeActiveSubmission] at h
  split at h
  · cases h
  · split at h
    · cases h
    · obtain ⟨pane, -, rfl⟩ := Option.map_eq_some_iff.mp h
      exact nextSeq_override (by simp [List.lookup_cons])

end Active

namespace Service

variable {World : Type} {lib : Library} {registry : Registry World}

theorem nextSeq_withLastProgressAt (sub : Submission) (now : String) :
    nextSeq (withLastProgressAt lib sub now).runtimeState = nextSeq sub.runtimeState := by
  simp only [withLastProgressAt]
  split
  · rfl
  · exact nextSeq_override (by simp [List.lookup_cons])

theorem nextSeq_timeoutPollResult {adapter : Adapter World} {context : Option RuntimeContext}
    {sub : Submission} {now : String} {result : PollResult}
    (h : timeoutPollResult lib adapter context sub now = some result) :
    result.items = [] ∧ nextSeq result.submission.runtimeState = nextSeq sub.runtimeState := by
  simp only [timeoutPollResult, Option.bind_eq_some_iff] at h
  obtain ⟨policy, -, h⟩ := h
  split_ifs at h
  rw [Option.some_inj] at h
  subst h
  exact ⟨rfl, nextSeq_override (by simp [List.lookup_cons])⟩

/-- The monitor may drop the items of a poll, and adds none. -/
theorem monitoredPoll_numbered {adapter : Adapter World} (hnum : Numbers adapter)
    {context : Option RuntimeContext} {sub : Submission} {w : World} {now : String}
    {result : PollResult} (h : monitoredPoll lib adapter context sub w now = some result) :
    NumberedFrom (nextSeq sub.runtimeState) result.items ∧
      nextSeq sub.runtimeState + result.items.length ≤ nextSeq result.submission.runtimeState := by
  have htimeout : ∀ {sub' : Submission} {r : PollResult},
      timeoutPollResult lib adapter context sub' now = some r →
      nextSeq sub.runtimeState ≤ nextSeq sub'.runtimeState →
      NumberedFrom (nextSeq sub.runtimeState) r.items ∧
        nextSeq sub.runtimeState + r.items.length ≤ nextSeq r.submission.runtimeState := by
    intro sub' r hr hle
    obtain ⟨hitems, hseq⟩ := nextSeq_timeoutPollResult hr
    rw [hitems, hseq]
    exact ⟨rfl, hle⟩
  simp only [monitoredPoll] at h
  split at h
  · exact htimeout h le_rfl
  · rename_i polled hpolled
    obtain ⟨hitems, hseq⟩ := hnum.poll sub w polled hpolled
    have hprogress : (applyReliabilityProgress lib polled sub now).items = polled.items ∧
        nextSeq (applyReliabilityProgress lib polled sub now).submission.runtimeState =
          nextSeq polled.submission.runtimeState := by
      simp only [applyReliabilityProgress]
      split
      · exact ⟨rfl, nextSeq_withLastProgressAt _ _⟩
      · exact ⟨rfl, rfl⟩
    have hkept : NumberedFrom (nextSeq sub.runtimeState)
          (applyReliabilityProgress lib polled sub now).items ∧
        nextSeq sub.runtimeState + (applyReliabilityProgress lib polled sub now).items.length ≤
          nextSeq (applyReliabilityProgress lib polled sub now).submission.runtimeState := by
      rw [hprogress.1, hprogress.2, hseq]
      exact ⟨hitems, le_rfl⟩
    split at h
    · rw [Option.some_inj] at h
      rwa [← h]
    · rw [Option.some_inj] at h
      cases ht : timeoutPollResult lib adapter context
          (applyReliabilityProgress lib polled sub now).submission now with
      | none =>
        rw [ht, Option.getD_none] at h
        rwa [← h]
      | some r =>
        rw [ht, Option.getD_some] at h
        rw [← h]
        exact htimeout ht (by omega)

/-- A state that can be resumed carries the number of the submission. -/
theorem nextSeq_persistedState (hnum : Numbered registry) {sub : Submission}
    {context : Option RuntimeContext} {decision : Option Decision} {items : List Item}
    {seqs : Finset ℕ}
    (h : (persistedState registry sub context decision items seqs).resumeCapable = true) :
    nextSeq (persistedState registry sub context decision items seqs).submission.runtimeState =
      nextSeq sub.runtimeState := by
  simp only [persistedState, Bool.and_eq_true, Option.isSome_iff_exists] at h ⊢
  obtain ⟨⟨payload, hpayload⟩, -⟩ := h
  rw [nextSeq_withReliabilityState, hpayload, Option.getD_some]
  simp only [exported, Option.bind_eq_some_iff] at hpayload
  obtain ⟨adapter, hadapter, exporter, hexporter, hpayload⟩ := hpayload
  exact (hnum _ adapter hadapter).exported exporter sub payload hexporter hpayload

end Service

end CodexBridge.Execution
