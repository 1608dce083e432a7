import CodexBridge.Mailbox.History

/-! The two counters of a mailbox. Lease versions grow with every claim, although the lease
itself is removed: the stored summary carries the last version on. Summary versions grow
with every change of the summary, and only then. -/

namespace CodexBridge.Mailbox

variable {a : AgentName} {h : History} {c : Call}

/-! ### Summaries -/

theorem Agrees.refl (r : MailboxRecord) : Agrees r r :=
  ⟨rfl, rfl, rfl, rfl, rfl, rfl, rfl, rfl⟩

theorem Agrees.trans {r r' r'' : MailboxRecord} (h : Agrees r r') (h' : Agrees r' r'') :
    Agrees r r'' :=
  ⟨h.queueDepth.trans h'.queueDepth, h.pendingReplyCount.trans h'.pendingReplyCount,
    h.activeInboundEventId.trans h'.activeInboundEventId, h.head.trans h'.head,
    h.mailboxState.trans h'.mailboxState, h.lastInboundStartedAt.trans h'.lastInboundStartedAt,
    h.lastInboundFinishedAt.trans h'.lastInboundFinishedAt,
    h.leaseVersion.trans h'.leaseVersion⟩

/-- The version of a record advances by one when its content differs from that of the prior
one, and stays otherwise. -/
theorem summaryVersion_build (mb : Mailbox) (prior : MailboxRecord) (lease : Option DeliveryLease)
    (u : SummaryUpdate) :
    let r := mb.buildMailboxSummaryRecord (some prior) lease u
    (Agrees prior r ∧ r.summaryVersion = prior.summaryVersion) ∨
      (¬Agrees prior r ∧ r.summaryVersion = prior.summaryVersion + 1) := by
  dsimp only
  set r := mb.buildMailboxSummaryRecord (some prior) lease u with hr
  by_cases hagrees : Agrees prior r
  · refine .inl ⟨hagrees, ?_⟩
    simp only [hr, buildMailboxSummaryRecord, summaryVersionForRecord]
    exact if_pos ⟨hagrees.activeInboundEventId, hagrees.queueDepth, hagrees.pendingReplyCount,
      hagrees.head, hagrees.lastInboundStartedAt, hagrees.lastInboundFinishedAt,
      hagrees.mailboxState, hagrees.leaseVersion⟩
  · refine .inr ⟨hagrees, ?_⟩
    simp only [hr, buildMailboxSummaryRecord, summaryVersionForRecord, nextSummaryVersion]
    refine if_neg fun h => hagrees ?_
    obtain ⟨hactive, hdepth, hreplies, hhead, hstarted, hfinished, hstate, hlease⟩ := h
    exact ⟨hdepth, hreplies, hactive, hhead, hstate, hstarted, hfinished, hlease⟩

/-- Later records have no smaller versions, and none of two contents. -/
def Identified (stored : List MailboxRecord) : Prop :=
  stored.Pairwise fun r r' => r.summaryVersion ≤ r'.summaryVersion ∧
    (r.summaryVersion = r'.summaryVersion → Agrees r r')

/-- The stored records of a history end with the one that is stored. -/
structure Archived (h : History) : Prop where
  last : h.stored.getLast? = h.mailbox.summary
  identified : Identified h.stored

/-- A record that follows the last one keeps the records identified. -/
theorem Identified.concat {stored : List MailboxRecord} {prior r : MailboxRecord}
    (h : Identified stored) (last : stored.getLast? = some prior)
    (next : prior.summaryVersion ≤ r.summaryVersion ∧
      (prior.summaryVersion = r.summaryVersion → Agrees prior r)) :
    Identified (stored ++ [r]) := by
  refine List.pairwise_append.mpr ⟨h, List.pairwise_singleton _ _, ?_⟩
  rintro x hx _ hr
  obtain rfl := List.mem_singleton.mp hr
  obtain ⟨init, rfl⟩ : ∃ init, stored = init ++ [prior] := by
    rw [List.getLast?_eq_some_iff] at last
    exact last
  rcases List.mem_append.mp hx with hx | hx
  · obtain ⟨hle, hagrees⟩ := (List.pairwise_append.mp h).2.2 x hx prior (List.mem_singleton.mpr rfl)
    refine ⟨hle.trans next.1, fun heq => ?_⟩
    have hmid : x.summaryVersion = prior.summaryVersion := le_antisymm hle (heq ▸ next.1)
    exact (hagrees hmid).trans (next.2 (hmid.symm.trans heq))
  · obtain rfl := List.mem_singleton.mp hx
    exact next

theorem Archived.call (arch : Archived h) (c : Call) : Archived (h.call c) := by
  obtain ⟨u, hu⟩ := Call.refreshed h.mailbox c
  set r := (c.exec h.mailbox).buildMailboxSummaryRecord h.mailbox.summary
    (c.exec h.mailbox).lease u with hr
  have hstored : (h.call c).stored = h.stored ++ [r] := by
    rw [History.call, hu, Option.toList_some]
  refine ⟨by rw [hstored, List.getLast?_concat]; exact hu.symm, ?_⟩
  rw [hstored]
  cases hprior : h.mailbox.summary with
  | none =>
    have hnil : h.stored = [] := by
      rw [← List.getLast?_eq_none_iff, arch.last, hprior]
    rw [hnil]
    exact List.pairwise_singleton _ _
  | some prior =>
    refine arch.identified.concat (arch.last.trans hprior) ?_
    rw [hr, hprior]
    rcases summaryVersion_build (c.exec h.mailbox) prior (c.exec h.mailbox).lease u with
      ⟨hagrees, hv⟩ | ⟨-, hv⟩
    · exact ⟨hv.ge, fun _ => hagrees⟩
    · refine ⟨by omega, fun heq => ?_⟩
      omega

theorem History.Served.archived (served : History.Served a h) : Archived h :=
  served.invariant ⟨rfl, List.Pairwise.nil⟩ fun _ c arch _ => arch.call c

theorem History.Served.summarized (served : History.Served a h) : Summarized h.mailbox := by
  induction served with
  | start => exact .inl ⟨rfl, rfl, rfl⟩
  | serve _ op adm ih =>
    rw [History.serve_mailbox]
    exact .inr (current_step (Op.step adm) ih)

/-- The version of a summary identifies its content: over a run the stored versions never
decrease, records with one version agree in all that is compared, and a refresh after an
operation leaves the version alone. -/
theorem summary_version_identifies_content (served : History.Served a h) :
    (h.stored.Pairwise fun r r' => r.summaryVersion ≤ r'.summaryVersion ∧
      (r.summaryVersion = r'.summaryVersion → Agrees r r')) ∧
    ∀ op : Op, op.admissible h.mailbox → ∀ updatedAt,
      (((h.serve op).mailbox.rebuildMailboxSummary updatedAt).summary.map
        MailboxRecord.summaryVersion) =
          (h.serve op).mailbox.summary.map MailboxRecord.summaryVersion := by
  refine ⟨served.archived.identified, fun op adm updatedAt => ?_⟩
  rw [History.serve_mailbox]
  obtain ⟨r, hr, tracks⟩ := current_step (Op.step adm) served.summarized
  rw [rebuildMailboxSummary, saveSummaryRecord_loaded, hr, Option.map_some, Option.map_some]
  have hagrees := agrees_of_tracks tracks updatedAt
  rw [projectMailboxSummary] at hagrees ⊢
  rcases summaryVersion_build (op.exec h.mailbox) r (op.exec h.mailbox).lease _ with
    ⟨-, hv⟩ | ⟨hnot, -⟩
  · exact congrArg some hv
  · exact absurd hagrees hnot

theorem summary_version_identifies_content_sample :
    sampleHistory.stored.map MailboxRecord.summaryVersion = [1, 2, 3, 4, 5, 6, 7, 8] ∧
      sampleHistory.stored.Pairwise fun r r' => r.summaryVersion ≤ r'.summaryVersion ∧
        (r.summaryVersion = r'.summaryVersion → Agrees r r') :=
  ⟨by decide +kernel, (summary_version_identifies_content sampleHistory_served).1⟩

/-! ### Leases -/

/-- The lease version a mailbox remembers. -/
def lastLeaseVersion (mb : Mailbox) : ℕ := mb.summary.elim 0 MailboxRecord.leaseVersion

theorem nextLeaseVersion_eq {mb : Mailbox} (hs : Summarized mb) :
    mb.nextLeaseVersion = mb.lastLeaseVersion + 1 := by
  rcases hs with ⟨hsummary, -, hlease⟩ | ⟨r, hsummary, tracks⟩
  · simp [nextLeaseVersion, lastLeaseVersion, hsummary, hlease]
  · have hversion := tracks.leaseVersion
    cases hlease : mb.lease with
    | none => simp [nextLeaseVersion, lastLeaseVersion, hsummary, hlease]
    | some lease =>
      rw [hlease, summaryLeaseVersion] at hversion
      simp [nextLeaseVersion, lastLeaseVersion, hsummary, hlease, hversion]

/-- A call remembers the version of the lease that is there, or else the one from before. -/
theorem Call.lastLeaseVersion_exec (mb : Mailbox) (c : Call) :
    (c.exec mb).lastLeaseVersion = summaryLeaseVersion mb.summary (c.exec mb).lease := by
  obtain ⟨u, hu⟩ := Call.refreshed mb c
  rw [lastLeaseVersion, hu]
  rfl

/-- The claims of a history are ordered by the versions of their leases, up to the one
remembered. -/
structure Fenced (h : History) : Prop where
  summarized : Summarized h.mailbox
  bounded : ∀ l ∈ h.leases, l.leaseVersion ≤ h.mailbox.lastLeaseVersion
  increasing : h.leases.Pairwise fun l l' => l.leaseVersion < l'.leaseVersion

theorem Fenced.call (fenced : Fenced h) (adm : c.admissible h.mailbox) : Fenced (h.call c) := by
  have hs := fenced.summarized
  have hlast := Call.lastLeaseVersion_exec h.mailbox c
  cases hc : c.lease h.mailbox with
  | none =>
    have hleases : (h.call c).leases = h.leases := by
      rw [History.call, hc, Option.toList_none, List.append_nil]
    have hkept : (c.exec h.mailbox).lastLeaseVersion = h.mailbox.lastLeaseVersion := by
      rw [hlast]
      rcases Call.lease_none hc with hl | hl
      · rw [hl]
        rcases hs with ⟨hsummary, -, hlease⟩ | ⟨r, hsummary, tracks⟩
        · rw [hlease, summaryLeaseVersion, lastLeaseVersion]
        · rw [hsummary, ← tracks.leaseVersion, lastLeaseVersion, hsummary, Option.elim_some]
      · rw [hl, summaryLeaseVersion, lastLeaseVersion]
    refine ⟨.inr (current_step (Call.step adm) hs), fun l hl => ?_, hleases ▸ fenced.increasing⟩
    rw [hleases] at hl
    exact (fenced.bounded l hl).trans hkept.ge
  | some l =>
    obtain ⟨-, -, -, hversion, hlease⟩ := Call.lease_some hc
    have hnext : l.leaseVersion = h.mailbox.lastLeaseVersion + 1 :=
      hversion.trans (nextLeaseVersion_eq hs)
    have hnew : (c.exec h.mailbox).lastLeaseVersion = l.leaseVersion := by
      rw [hlast, hlease, summaryLeaseVersion]
    have hleases : (h.call c).leases = h.leases ++ [l] := by
      rw [History.call, hc, Option.toList_some]
    have hbelow : ∀ x ∈ h.leases, x.leaseVersion < l.leaseVersion := by
      intro x hx
      have := fenced.bounded x hx
      omega
    refine ⟨.inr (current_step (Call.step adm) hs), fun x hx => ?_, ?_⟩
    · show x.leaseVersion ≤ (c.exec h.mailbox).lastLeaseVersion
      rw [hnew]
      rw [hleases] at hx
      rcases List.mem_append.mp hx with hx | hx
      · exact (hbelow x hx).le
      · exact (List.mem_singleton.mp hx ▸ le_rfl)
    · rw [hleases]
      refine List.pairwise_append.mpr ⟨fenced.increasing, List.pairwise_singleton _ _, ?_⟩
      rintro x hx _ hl
      obtain rfl := List.mem_singleton.mp hl
      exact hbelow x hx

/-- Lease versions fence: every claim of a mailbox writes a greater version than all claims
before it. -/
theorem lease_versions_fence (served : History.Served a h) :
    h.leases.Pairwise fun l l' => l.leaseVersion < l'.leaseVersion := by
  have fenced : Fenced h := served.invariant
    ⟨.inl ⟨rfl, rfl, rfl⟩, fun _ hl => absurd hl List.not_mem_nil, List.Pairwise.nil⟩
    fun _ _ fenced adm => fenced.call adm
  exact fenced.increasing

theorem lease_versions_fence_sample :
    sampleHistory.leases.map DeliveryLease.leaseVersion = [1, 2, 3] ∧
      sampleHistory.mailbox.lease = none ∧
      sampleHistory.leases.Pairwise fun l l' => l.leaseVersion < l'.leaseVersion :=
  ⟨by decide +kernel, by decide +kernel, lease_versions_fence sampleHistory_served⟩

end CodexBridge.Mailbox
