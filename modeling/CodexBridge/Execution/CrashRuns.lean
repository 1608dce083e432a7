import Mathlib.Logic.Relation
import CodexBridge.Execution.Numbering
import CodexBridge.Execution.Restarts

/-! Runs of one job with crashes between the durable writes. An item in a state
file is waiting until its number is applied; it is logged first and then stops
waiting, so a crash can only bring the head of the waiting items back. The log
never passes the waiting items, and the adapter numbers above both. -/

namespace CodexBridge.Execution

open Completion Relation

/-! ### First appearances -/

/-- The smaller of two entries appears first. -/
def InOrder (l : List ℕ) : Prop := ∀ a ∈ l, ∀ b ∈ l, a < b → l.idxOf a < l.idxOf b

theorem InOrder.concat {l : List ℕ} (h : InOrder l) {n : ℕ} (hn : ∀ a ∈ l, a ≤ n) :
    InOrder (l ++ [n]) := by
  intro a ha b hb hab
  rw [List.mem_append, List.mem_singleton] at ha hb
  have ha : a ∈ l := by
    obtain ha | rfl := ha
    · exact ha
    · obtain hb | rfl := hb
      · exact absurd (hn b hb) (by omega)
      · omega
  rw [List.idxOf_append_of_mem ha]
  by_cases hbl : b ∈ l
  · rw [List.idxOf_append_of_mem hbl]
    exact h a ha b hbl hab
  · rw [List.idxOf_append_of_notMem hbl]
    have := List.idxOf_lt_length_iff.mpr ha
    omega

/-! ### Runs -/

/-- Where the daemon stands between two durable writes of the job. -/
inductive Phase where
  | fresh
  | down
  | idle
  | append (items : List Item) (decision : Option Decision)
  | acknowledge (item : Item) (items : List Item) (decision : Option Decision)
  | finish
  | tick

structure Daemon where
  system : System
  phase : Phase

namespace Daemon

/-- The job has not been handed to the service yet. -/
def fresh : Daemon := ⟨⟨Service.restarted none, none, []⟩, .fresh⟩

/-- The items in the event log of the job. -/
def logged (d : Daemon) : List Item :=
  d.system.events.filterMap fun
    | .completionItem item => some item
    | _ => none

/-- The items of the state file whose numbers are not applied. -/
def waiting (d : Daemon) : List Item :=
  match d.system.service.store with
  | none => []
  | some persisted => filterPendingItems persisted

/-- No update is in hand and nothing is left to replay. -/
def Quiet (d : Daemon) : Prop := d.phase = .idle ∧ d.system.service.pendingReplay = none

variable {World : Type} (lib : Library) (registry : Registry World) (job : Job)

/-- The poll of the service, and what is left to do about its update. -/
def polled (s : System) (w : World) (now : String) : Daemon :=
  let result := s.service.poll lib registry w now
  let s := { s with service := result.1 }
  match result.2 with
  | none => ⟨s, .tick⟩
  | some update =>
    if s.terminalDecision.isSome then ⟨s.finish, .tick⟩
    else ⟨s, .append update.items update.decision⟩

/-- After the items: the decision is recorded, or the items are acknowledged. -/
def settled (s : System) (evidence : Evidence) (decision : Option Decision) : Daemon :=
  match System.resolveUpdateDecision decision evidence.tracked with
  | some decision => ⟨s.conclude evidence decision, .finish⟩
  | none => ⟨{ s with service := s.service.acknowledge }, .tick⟩

def ticked (s : System) (evidence : Evidence) : Daemon :=
  match (evidence.tracked.map View.decision).filter Decision.terminal with
  | some decision =>
    if s.terminalDecision.isSome then ⟨s, .idle⟩ else ⟨s.conclude evidence decision, .finish⟩
  | none => ⟨s, .idle⟩

/-- One durable write, or a crash, or a restore of a submission that can be resumed. -/
inductive Step : Daemon → Daemon → Prop
  | start (s : System) (w : World) :
    Step ⟨s, .fresh⟩
      ⟨{ s with service := s.service.start registry job.provider job.runtimeContext w }, .idle⟩
  | crash (s : System) (phase : Phase) : Step ⟨s, phase⟩ ⟨s.crash, .down⟩
  | restore (s : System) (evidence : Evidence) (w : World) (now : String)
    (h : s.terminalDecision = none → ∀ persisted, s.service.store = some persisted →
      System.Recoverable registry job persisted w) :
    Step ⟨s, .down⟩ ⟨s.restoreCurrentJob registry job evidence w now, .idle⟩
  | poll (s : System) (w : World) (now : String) : Step ⟨s, .idle⟩ (polled lib registry s w now)
  | append (s : System) (item : Item) (items : List Item) (decision : Option Decision) :
    Step ⟨s, .append (item :: items) decision⟩
      ⟨s.appendEvent (.completionItem item), .acknowledge item items decision⟩
  | acknowledge (s : System) (item : Item) (items : List Item) (decision : Option Decision) :
    Step ⟨s, .acknowledge item items decision⟩
      ⟨{ s with service := s.service.acknowledgeItem item.cursor.eventSeq },
        .append items decision⟩
  | settle (s : System) (evidence : Evidence) (decision : Option Decision) :
    Step ⟨s, .append [] decision⟩ (settled s evidence decision)
  | finish (s : System) : Step ⟨s, .finish⟩ ⟨s.finish, .tick⟩
  | tick (s : System) (evidence : Evidence) : Step ⟨s, .tick⟩ (ticked s evidence)

/-- The states the daemon can get to from another. -/
abbrev Runs : Daemon → Daemon → Prop := ReflTransGen (Step lib registry job)

/-! ### The invariant -/

/-- What the phase says of the waiting items, the replay and the job. -/
def AtPhase (d : Daemon) : Prop :=
  match d.phase with
  | .fresh => d.logged = [] ∧ d.system.service = Service.restarted none ∧
      d.system.terminalDecision = none
  | .down => d.system.service.active = none ∧ d.system.service.pendingReplay = none
  | .idle =>
    match d.system.service.pendingReplay with
    | none => d.waiting = []
    | some update => update.items = d.waiting ∧ d.system.service.active.isSome
  | .append items _ =>
    items = d.waiting ∧ d.system.service.pendingReplay = none ∧ d.system.terminalDecision = none
  | .acknowledge item items _ =>
    item :: items = d.waiting ∧ item ∈ d.logged ∧ d.system.service.pendingReplay = none ∧
      d.system.terminalDecision = none
  | .finish | .tick => d.waiting = [] ∧ d.system.service.pendingReplay = none

/-- A next number is positive and above everything logged or waiting. -/
def Above (d : Daemon) (next : ℕ) : Prop :=
  0 < next ∧ (∀ x ∈ d.logged, seqOf x < next) ∧ ∀ x ∈ d.waiting, seqOf x < next

structure Inv (d : Daemon) : Prop where
  ordered : (d.waiting.map seqOf).Pairwise (· < ·)
  named : ∀ item ∈ d.waiting, item.cursor.eventSeq = some (seqOf item) ∧ 0 < seqOf item
  behind : ∀ x ∈ d.logged, ∀ item ∈ d.waiting, seqOf x ≤ seqOf item
  pending : ∀ persisted, d.system.service.store = some persisted →
    ∀ item ∈ persisted.pendingItems, item ∈ d.logged ∨ item ∈ d.waiting
  recorded : ∀ persisted, d.system.service.store = some persisted →
    ∀ n ∈ persisted.appliedEventSeqs, ∃ x ∈ d.logged, seqOf x = n
  durable : ∀ persisted, d.system.service.store = some persisted →
    persisted.resumeCapable = true → d.Above (nextSeq persisted.submission.runtimeState)
  live : ∀ sub, d.system.service.active = some sub → d.Above (nextSeq sub.runtimeState)
  inOrder : InOrder (d.logged.map seqOf)
  ended : d.system.terminalDecision.isSome → d.waiting = []
  stopped : d.system.terminalDecision.isSome → d.phase ≠ .finish →
    d.system.service.active = none
  atPhase : d.AtPhase

theorem inv_fresh : fresh.Inv where
  ordered := List.Pairwise.nil
  named := by simp [waiting, fresh, Service.restarted]
  behind := by simp [logged, fresh]
  pending := by simp [fresh, Service.restarted]
  recorded := by simp [fresh, Service.restarted]
  durable := by simp [fresh, Service.restarted]
  live := by simp [fresh, Service.restarted]
  inOrder := by simp [InOrder, logged, fresh]
  ended := fun _ => rfl
  stopped := fun _ _ => rfl
  atPhase := ⟨rfl, rfl, rfl⟩

/-- What one step does: it keeps the invariant, logs waiting items only, drops no waiting
item that is not logged, and lets wait only what is above the log. -/
structure Moves (d d' : Daemon) : Prop where
  inv : d'.Inv
  grows : ∃ later, d'.logged = d.logged ++ later ∧ ∀ item ∈ later, item ∈ d.waiting
  kept : ∀ item ∈ d.waiting, item ∈ d'.logged ∨ item ∈ d'.waiting
  new : ∀ item ∈ d'.waiting, item ∈ d.waiting ∨ ∀ x ∈ d.logged, seqOf x < seqOf item

/-- A step that logs nothing and leaves the state file. -/
theorem Inv.of_kept {d d' : Daemon} (h : d.Inv) (hlogged : d'.logged = d.logged)
    (hstore : d'.system.service.store = d.system.service.store)
    (hactive : d'.system.service.active = d.system.service.active ∨
      d'.system.service.active = none)
    (hended : d'.system.terminalDecision.isSome → d.waiting = [])
    (hstopped : d'.system.terminalDecision.isSome → d'.phase ≠ .finish →
      d'.system.service.active = none)
    (hphase : d'.AtPhase) : Moves d d' := by
  have hwaiting : d'.waiting = d.waiting := by rw [waiting, waiting, hstore]
  have habove : ∀ {next}, d.Above next → d'.Above next := by
    intro next hnext
    rwa [Above, hlogged, hwaiting]
  refine ⟨?_, ⟨[], by simp [hlogged], by simp⟩, ?_, ?_⟩
  · exact
      { ordered := hwaiting ▸ h.ordered
        named := hwaiting ▸ h.named
        behind := by rw [hlogged, hwaiting]; exact h.behind
        pending := by rw [hlogged, hwaiting, hstore]; exact h.pending
        recorded := by rw [hlogged, hstore]; exact h.recorded
        durable := fun persisted hp hcapable => habove (h.durable persisted (hstore ▸ hp) hcapable)
        live := by
          intro sub hsub
          obtain hsame | hnone := hactive
          · exact habove (h.live sub (hsame ▸ hsub))
          · rw [hnone] at hsub
            cases hsub
        inOrder := hlogged ▸ h.inOrder
        ended := fun hsome => hwaiting.trans (hended hsome)
        stopped := hstopped
        atPhase := hphase }
  · exact fun item hitem => Or.inr (hwaiting ▸ hitem)
  · exact fun item hitem => Or.inl (hwaiting ▸ hitem)

/-- The state file is removed when nothing waits in it. -/
theorem Inv.of_removed {d d' : Daemon} (h : d.Inv) (hnothing : d.waiting = [])
    (hlogged : d'.logged = d.logged) (hstore : d'.system.service.store = none)
    (hactive : d'.system.service.active = none) (hphase : d'.AtPhase) : Moves d d' := by
  have hwaiting : d'.waiting = [] := by rw [waiting, hstore]
  refine ⟨?_, ⟨[], by simp [hlogged], by simp⟩, by simp [hnothing], by simp [hwaiting]⟩
  exact
    { ordered := by rw [hwaiting]; exact List.Pairwise.nil
      named := by simp [hwaiting]
      behind := by simp [hwaiting]
      pending := by simp [hstore]
      recorded := by simp [hstore]
      durable := by simp [hstore]
      live := by simp [hactive]
      inOrder := hlogged ▸ h.inOrder
      ended := fun _ => hwaiting
      stopped := fun _ _ => hactive
      atPhase := hphase }

theorem filterPendingItems_none_applied {persisted : PersistedExecutionState}
    (h : persisted.appliedEventSeqs = ∅) :
    filterPendingItems persisted = persisted.pendingItems := by
  rw [filterPendingItems, List.filter_eq_self]
  intro item _
  rw [h, applied]
  split <;> simp

variable {registry}

/-- A result of the adapter is saved with its items. -/
theorem Inv.of_polled (hnum : Numbered registry) {d d' : Daemon} (h : d.Inv)
    (hnothing : d.waiting = []) {next : ℕ} (hnext : d.Above next) (sub : Submission)
    (context : Option RuntimeContext) (decision : Option Decision) {items : List Item}
    (hitems : NumberedFrom next items) (hle : next + items.length ≤ nextSeq sub.runtimeState)
    (hlogged : d'.logged = d.logged)
    (hstore : d'.system.service.store =
      some (Service.persistedState registry sub context decision items ∅))
    (hactive : d'.system.service.active = some sub ∨ d'.system.service.active = none)
    (hrunning : d'.system.terminalDecision = none) (hphase : d'.waiting = items → d'.AtPhase) :
    Moves d d' := by
  have hwaiting : d'.waiting = items := by
    rw [waiting, hstore]
    exact filterPendingItems_none_applied rfl
  have hname := fun item (hitem : item ∈ items) => hitems.named hitem
  have habove : d'.Above (nextSeq sub.runtimeState) := by
    obtain ⟨hpos, hbelow, -⟩ := hnext
    refine ⟨by omega, ?_, ?_⟩
    · intro x hx
      have := hbelow x (hlogged ▸ hx)
      omega
    · intro x hx
      have := (hname x (hwaiting ▸ hx)).2.2
      omega
  refine ⟨?_, ⟨[], by simp [hlogged], by simp⟩, by simp [hnothing], ?_⟩
  · exact
      { ordered := by
          rw [hwaiting, hitems.map_seqOf]
          exact List.pairwise_lt_range' 1 (by omega)
        named := by
          intro item hitem
          obtain ⟨hseq, hge, -⟩ := hname item (hwaiting ▸ hitem)
          exact ⟨hseq, by have := hnext.1; omega⟩
        behind := by
          intro x hx item hitem
          have hx := hnext.2.1 x (hlogged ▸ hx)
          have := (hname item (hwaiting ▸ hitem)).2.1
          omega
        pending := by
          intro persisted hp item hitem
          rw [hstore, Option.some_inj] at hp
          rw [← hp] at hitem
          exact Or.inr (hwaiting ▸ hitem)
        recorded := by
          intro persisted hp n hn
          rw [hstore, Option.some_inj] at hp
          rw [← hp] at hn
          exact absurd hn (Finset.notMem_empty n)
        durable := by
          intro persisted hp hcapable
          rw [hstore, Option.some_inj] at hp
          rw [← hp] at hcapable ⊢
          rw [Service.nextSeq_persistedState hnum hcapable]
          exact habove
        live := by
          intro active hsub
          obtain hsome | hnone := hactive
          · rw [hsome, Option.some_inj] at hsub
            rwa [← hsub]
          · rw [hnone] at hsub
            cases hsub
        inOrder := hlogged ▸ h.inOrder
        ended := by simp [hrunning]
        stopped := by simp [hrunning]
        atPhase := hphase hwaiting }
  · intro item hitem
    refine Or.inr fun x hx => ?_
    have hx := hnext.2.1 x hx
    have := (hname item (hwaiting ▸ hitem)).2.1
    omega

/-! ### The steps -/

@[simp] theorem logged_conclude (s : System) (phase : Phase) (evidence : Evidence)
    (decision : Decision) :
    (⟨s.conclude evidence decision, phase⟩ : Daemon).logged = (⟨s, phase⟩ : Daemon).logged := by
  simp [logged, System.conclude, System.appendEvent]

theorem start_moves (hnum : Numbered registry) {s : System} (h : (⟨s, .fresh⟩ : Daemon).Inv)
    (w : World) :
    Moves ⟨s, .fresh⟩
      ⟨{ s with service := s.service.start registry job.provider job.runtimeContext w },
        .idle⟩ := by
  obtain ⟨hlogged, hservice, hrunning⟩ : _ ∧ s.service = _ ∧ s.terminalDecision = none := h.atPhase
  have hnothing : (⟨s, .fresh⟩ : Daemon).waiting = [] := by
    simp [waiting, hservice, Service.restarted]
  cases ha : registry job.provider with
  | none =>
    have hstart : s.service.start registry job.provider job.runtimeContext w = s.service := by
      simp [Service.start, ha]
    rw [hstart]
    refine h.of_kept rfl rfl (Or.inl rfl) (by simp [hrunning]) (by simp [hrunning]) ?_
    simp [AtPhase, hservice, Service.restarted, waiting]
  | some adapter =>
    have hfirst := (hnum _ adapter ha).start job.runtimeContext w
    have habove : (⟨s, .fresh⟩ : Daemon).Above 1 := by
      refine ⟨by omega, ?_, ?_⟩
      · simp [hlogged]
      · simp [hnothing]
    refine h.of_polled hnum hnothing habove (adapter.start job.runtimeContext w)
      job.runtimeContext none (NumberedFrom.nil 1) (by rw [hfirst]; simp) rfl
      (by simp only [Service.start, ha, Service.persistSubmission, Service.save])
      (Or.inl (by simp only [Service.start, ha, Service.persistSubmission, Service.save]))
      hrunning ?_
    intro hwaiting
    simpa [AtPhase, Service.start, ha, Service.persistSubmission, Service.save, hservice,
      Service.restarted] using hwaiting

theorem crash_moves {s : System} {phase : Phase} (h : (⟨s, phase⟩ : Daemon).Inv) :
    Moves ⟨s, phase⟩ ⟨s.crash, .down⟩ :=
  h.of_kept rfl rfl (Or.inr rfl) h.ended (fun _ _ => rfl) ⟨rfl, rfl⟩

theorem append_moves {s : System} {item : Item} {items : List Item} {decision : Option Decision}
    (h : (⟨s, .append (item :: items) decision⟩ : Daemon).Inv) :
    Moves ⟨s, .append (item :: items) decision⟩
      ⟨s.appendEvent (.completionItem item), .acknowledge item items decision⟩ := by
  set d : Daemon := ⟨s, .append (item :: items) decision⟩ with hd
  set d' : Daemon := ⟨s.appendEvent (.completionItem item), .acknowledge item items decision⟩
    with hd'
  obtain ⟨hitems, hreplay, hrunning⟩ : item :: items = d.waiting ∧ _ ∧ _ := h.atPhase
  have hlogged : d'.logged = d.logged ++ [item] := by
    simp [hd, hd', logged, System.appendEvent]
  have hwaiting : d'.waiting = d.waiting := rfl
  have hmem : item ∈ d.waiting := hitems ▸ List.mem_cons_self
  have hfirst : ∀ y ∈ d.waiting, seqOf item ≤ seqOf y := by
    have hordered := h.ordered
    rw [← hitems] at hordered ⊢
    intro y hy
    obtain rfl | hy := List.mem_cons.mp hy
    · exact le_rfl
    · exact (List.rel_of_pairwise_cons hordered (List.mem_map_of_mem hy)).le
  have habove : ∀ {next}, d.Above next → d'.Above next := by
    rintro next ⟨hpos, hbelow, hwait⟩
    refine ⟨hpos, ?_, hwait⟩
    intro x hx
    rw [hlogged, List.mem_append, List.mem_singleton] at hx
    obtain hx | rfl := hx
    · exact hbelow x hx
    · exact hwait x hmem
  refine ⟨?_, ⟨[item], hlogged, by simpa using hmem⟩, fun y hy => Or.inr hy,
    fun y hy => Or.inl hy⟩
  exact
    { ordered := h.ordered
      named := h.named
      behind := by
        intro x hx y hy
        rw [hlogged, List.mem_append, List.mem_singleton] at hx
        obtain hx | rfl := hx
        · exact h.behind x hx y hy
        · exact hfirst y hy
      pending := by
        intro persisted hp y hy
        rw [hlogged]
        exact (h.pending persisted hp y hy).imp_left (List.mem_append_left _)
      recorded := by
        intro persisted hp n hn
        obtain ⟨x, hx, hseq⟩ := h.recorded persisted hp n hn
        exact ⟨x, hlogged ▸ List.mem_append_left _ hx, hseq⟩
      durable := fun persisted hp hcapable => habove (h.durable persisted hp hcapable)
      live := fun sub hsub => habove (h.live sub hsub)
      inOrder := by
        rw [hlogged, List.map_append]
        refine h.inOrder.concat ?_
        intro a ha
        obtain ⟨x, hx, rfl⟩ := List.mem_map.mp ha
        exact h.behind x hx item hmem
      ended := h.ended
      stopped := fun hsome _ => h.stopped hsome (by simp)
      atPhase := ⟨hitems, by rw [hlogged]; simp, hreplay, hrunning⟩ }

/-- Applying one more number takes exactly its items out of the waiting ones. -/
theorem filterPendingItems_insert {persisted : PersistedExecutionState} {n : ℕ}
    (hnamed : ∀ item ∈ filterPendingItems persisted,
      item.cursor.eventSeq = some (seqOf item) ∧ 0 < seqOf item) :
    filterPendingItems { persisted with appliedEventSeqs := insert n persisted.appliedEventSeqs } =
      (filterPendingItems persisted).filter fun item => seqOf item ≠ n := by
  simp only [filterPendingItems, List.filter_filter]
  refine List.filter_congr fun item hitem => ?_
  by_cases happlied : applied persisted.appliedEventSeqs item = true
  · have hinsert : applied (insert n persisted.appliedEventSeqs) item = true := by
      simp only [applied] at happlied ⊢
      split at happlied
      · exact absurd happlied (by simp)
      · exact absurd happlied (by simp)
      · simp only [decide_eq_true_eq] at happlied ⊢
        exact Finset.mem_insert_of_mem happlied
    simp [happlied, hinsert]
  · have hmem : item ∈ filterPendingItems persisted := by
      rw [filterPendingItems, List.mem_filter]
      exact ⟨hitem, by simpa using happlied⟩
    obtain ⟨hseq, hpos⟩ := hnamed item hmem
    obtain ⟨k, hk⟩ := Nat.exists_eq_succ_of_ne_zero hpos.ne'
    rw [hk] at hseq
    simp only [applied, hseq, hk, Finset.mem_insert] at happlied ⊢
    simp [happlied]

theorem acknowledge_moves {s : System} {item : Item} {items : List Item}
    {decision : Option Decision} (h : (⟨s, .acknowledge item items decision⟩ : Daemon).Inv) :
    Moves ⟨s, .acknowledge item items decision⟩
      ⟨{ s with service := s.service.acknowledgeItem item.cursor.eventSeq },
        .append items decision⟩ := by
  set d : Daemon := ⟨s, .acknowledge item items decision⟩ with hd
  obtain ⟨hitems, hlog, hreplay, hrunning⟩ :
    item :: items = d.waiting ∧ item ∈ d.logged ∧ s.service.pendingReplay = none ∧
      s.terminalDecision = none := h.atPhase
  have hmem : item ∈ d.waiting := hitems ▸ List.mem_cons_self
  obtain ⟨hseq, hpos⟩ := h.named item hmem
  obtain ⟨persisted, hstore, hwaiting⟩ :
      ∃ p, s.service.store = some p ∧ d.waiting = filterPendingItems p := by
    cases hstore : s.service.store with
    | none => simp [waiting, hd, hstore] at hmem
    | some p => exact ⟨p, rfl, by simp [waiting, hd, hstore]⟩
  have hpending : persisted.pendingItems ≠ [] := by
    intro hnil
    rw [hwaiting, filterPendingItems, hnil] at hmem
    exact absurd hmem List.not_mem_nil
  have hservice : s.service.acknowledgeItem item.cursor.eventSeq =
      s.service.save { persisted with
        appliedEventSeqs := insert (seqOf item) persisted.appliedEventSeqs } := by
    simp [Service.acknowledgeItem, hseq, hstore, hpending]
  rw [hservice]
  set d' : Daemon := ⟨{ s with service := s.service.save { persisted with
    appliedEventSeqs := insert (seqOf item) persisted.appliedEventSeqs } },
    .append items decision⟩ with hd'
  have hfiltered : d'.waiting = d.waiting.filter fun x => seqOf x ≠ seqOf item := by
    rw [hwaiting]
    exact filterPendingItems_insert (hwaiting ▸ h.named)
  have hrest : d'.waiting = items := by
    have hordered := h.ordered
    rw [← hitems] at hordered
    rw [hfiltered, ← hitems, List.filter_cons_of_neg (by simp), List.filter_eq_self]
    intro x hx
    have hlt := List.rel_of_pairwise_cons hordered (List.mem_map_of_mem hx)
    simpa using (Nat.ne_of_lt hlt).symm
  have hsub : ∀ x ∈ d'.waiting, x ∈ d.waiting := by
    intro x hx
    rw [hrest] at hx
    exact hitems ▸ List.mem_cons_of_mem item hx
  have hkept : ∀ x ∈ d.waiting, x ∈ d'.logged ∨ x ∈ d'.waiting := by
    intro x hx
    rw [← hitems] at hx
    obtain rfl | hx := List.mem_cons.mp hx
    · exact Or.inl hlog
    · exact Or.inr (hrest ▸ hx)
  have habove : ∀ {next}, d.Above next → d'.Above next := by
    rintro next ⟨hp, hbelow, hwait⟩
    exact ⟨hp, hbelow, fun x hx => hwait x (hsub x hx)⟩
  refine ⟨?_, ⟨[], by simp [hd, hd', logged], by simp⟩, hkept, fun x hx => Or.inl (hsub x hx)⟩
  exact
    { ordered := by
        rw [hrest]
        have hordered := h.ordered
        rw [← hitems] at hordered
        exact hordered.of_cons
      named := fun x hx => h.named x (hsub x hx)
      behind := fun x hx y hy => h.behind x hx y (hsub y hy)
      pending := by
        intro p hp y hy
        obtain rfl := Option.some.inj hp
        exact (h.pending persisted hstore y hy).elim Or.inl (hkept y)
      recorded := by
        intro p hp n hn
        obtain rfl := Option.some.inj hp
        obtain rfl | hn := Finset.mem_insert.mp hn
        · exact ⟨item, hlog, rfl⟩
        · exact h.recorded persisted hstore n hn
      durable := by
        intro p hp hcapable
        obtain rfl := Option.some.inj hp
        exact habove (h.durable persisted hstore hcapable)
      live := fun sub hsub => habove (h.live sub hsub)
      inOrder := h.inOrder
      ended := by simp [hd', hrunning]
      stopped := by simp [hd', hrunning]
      atPhase := ⟨hrest.symm, hreplay, hrunning⟩ }

theorem settle_moves {s : System} {decision : Option Decision}
    (h : (⟨s, .append [] decision⟩ : Daemon).Inv) (evidence : Evidence) :
    Moves ⟨s, .append [] decision⟩ (settled s evidence decision) := by
  obtain ⟨hnothing, hreplay, hrunning⟩ :
    [] = (⟨s, .append [] decision⟩ : Daemon).waiting ∧ s.service.pendingReplay = none ∧
      s.terminalDecision = none := h.atPhase
  have hnothing := hnothing.symm
  simp only [settled]
  split
  · rename_i ended _
    exact h.of_kept (logged_conclude s _ evidence ended) rfl (Or.inl rfl) (fun _ => hnothing)
      (fun _ hphase => absurd rfl hphase) ⟨hnothing, hreplay⟩
  · cases hstore : s.service.store with
    | none =>
      have hservice : s.service.acknowledge = { s.service with pendingReplay := none } := by
        simp [Service.acknowledge, hstore]
      rw [hservice]
      exact h.of_kept rfl rfl (Or.inl rfl) (by simp [hrunning]) (by simp [hrunning])
        ⟨hnothing, rfl⟩
    | some persisted =>
      have hservice : s.service.acknowledge =
          { s.service with
            pendingReplay := none
            store := some { persisted with pendingItems := [], appliedEventSeqs := ∅ } } := by
        simp [Service.acknowledge, Service.save, hstore]
      rw [hservice]
      refine ⟨?_, ⟨[], by simp [logged], by simp⟩, by simp [hnothing],
        by simp [waiting, filterPendingItems]⟩
      exact
        { ordered := by simp [waiting, filterPendingItems]
          named := by simp [waiting, filterPendingItems]
          behind := by simp [waiting, filterPendingItems]
          pending := by
            intro p hp y hy
            obtain rfl := Option.some.inj hp
            exact absurd hy List.not_mem_nil
          recorded := by
            intro p hp n hn
            obtain rfl := Option.some.inj hp
            exact absurd hn (Finset.notMem_empty n)
          durable := by
            intro p hp hcapable
            obtain rfl := Option.some.inj hp
            have hnext := h.durable persisted hstore hcapable
            exact ⟨hnext.1, hnext.2.1, by simp [waiting, filterPendingItems]⟩
          live := by
            intro sub hsub
            have hnext := h.live sub hsub
            exact ⟨hnext.1, hnext.2.1, by simp [waiting, filterPendingItems]⟩
          inOrder := h.inOrder
          ended := by simp [hrunning]
          stopped := by simp [hrunning]
          atPhase := by simp [AtPhase, waiting, filterPendingItems] }

theorem finish_moves {s : System} (h : (⟨s, .finish⟩ : Daemon).Inv) :
    Moves ⟨s, .finish⟩ ⟨s.finish, .tick⟩ := by
  obtain ⟨hnothing, -⟩ : (⟨s, .finish⟩ : Daemon).waiting = [] ∧ _ := h.atPhase
  exact h.of_removed hnothing rfl rfl rfl ⟨rfl, rfl⟩

theorem tick_moves {s : System} (h : (⟨s, .tick⟩ : Daemon).Inv) (evidence : Evidence) :
    Moves ⟨s, .tick⟩ (ticked s evidence) := by
  obtain ⟨hnothing, hreplay⟩ :
    (⟨s, .tick⟩ : Daemon).waiting = [] ∧ s.service.pendingReplay = none := h.atPhase
  have hidle : (⟨s, .idle⟩ : Daemon).AtPhase := by
    simp only [AtPhase, hreplay]
    exact hnothing
  have hsame : Moves ⟨s, .tick⟩ ⟨s, .idle⟩ :=
    h.of_kept rfl rfl (Or.inl rfl) h.ended (fun hsome _ => h.stopped hsome (by simp)) hidle
  simp only [ticked]
  split
  · split
    · exact hsame
    · exact h.of_kept (logged_conclude s _ evidence _) rfl (Or.inl rfl) (fun _ => hnothing)
        (fun _ hphase => absurd rfl hphase) ⟨hnothing, hreplay⟩
  · exact hsame

/-- The adapter is polled: its items are saved before they are handed on. -/
theorem processActiveJob_moves (hnum : Numbered registry) {s : System}
    (h : (⟨s, .idle⟩ : Daemon).Inv) (hnothing : (⟨s, .idle⟩ : Daemon).waiting = [])
    (hreplay : s.service.pendingReplay = none) (hrunning : s.terminalDecision = none)
    {sub : Submission} (hsub : s.service.active = some sub) (w : World) (now : String) :
    Moves ⟨s, .idle⟩ (polled lib registry s w now) := by
  have hsame : Moves ⟨s, .idle⟩ ⟨s, .tick⟩ :=
    h.of_kept rfl rfl (Or.inl rfl) (by simp [hrunning]) (by simp [hrunning]) ⟨hnothing, hreplay⟩
  have hpoll : s.service.poll lib registry w now =
      Service.processActiveJob lib registry s.service sub w now := by
    simp [Service.poll, hreplay, hsub]
  cases ha : registry sub.provider with
  | none =>
    have hgone : s.service.poll lib registry w now = ({ s.service with active := none }, none) := by
      rw [hpoll, Service.processActiveJob, ha]
    simp only [polled, hgone]
    exact h.of_kept rfl rfl (Or.inr rfl) (by simp [hrunning]) (by simp [hrunning])
      ⟨hnothing, hreplay⟩
  | some adapter =>
    cases hr : Service.monitoredPoll lib adapter s.service.runtimeContext sub w now with
    | none =>
      have hnews : s.service.poll lib registry w now = (s.service, none) := by
        rw [hpoll, Service.processActiveJob, ha]
        simp only [hr]
      simp only [polled, hnews]
      exact hsame
    | some result =>
      obtain ⟨hitems, hle⟩ := Service.monitoredPoll_numbered (hnum _ adapter ha) hr
      have habove := h.live sub hsub
      by_cases hempty : result.items = [] ∧ result.decision = none
      · have hquiet : s.service.poll lib registry w now =
            (Service.persistSubmission registry { s.service with active := some result.submission }
              result.decision result.items ∅, none) := by
          rw [hpoll, Service.processActiveJob, ha]
          simp only [hr, if_pos hempty]
        simp only [polled, hquiet]
        refine h.of_polled hnum hnothing habove result.submission s.service.runtimeContext
          result.decision hitems hle rfl rfl (Or.inl rfl) hrunning fun hwaiting => ?_
        exact ⟨hwaiting.trans hempty.1, hreplay⟩
      · have hupdate : ∃ service, s.service.poll lib registry w now =
              (service, some ⟨result.items, result.decision⟩) ∧
            service.store = some (Service.persistedState registry result.submission
              s.service.runtimeContext result.decision result.items ∅) ∧
            (service.active = some result.submission ∨ service.active = none) ∧
            service.pendingReplay = none := by
          rw [hpoll, Service.processActiveJob, ha]
          simp only [hr, if_neg hempty]
          refine ⟨_, rfl, ?_⟩
          split
          · exact ⟨rfl, Or.inr rfl, hreplay⟩
          · exact ⟨rfl, Or.inl rfl, hreplay⟩
        obtain ⟨service, hservice, hstore, hactive, hnoreplay⟩ := hupdate
        simp only [polled, hservice, hrunning, Option.isSome_none, Bool.false_eq_true, if_false]
        exact h.of_polled hnum hnothing habove result.submission s.service.runtimeContext
          result.decision hitems hle rfl hstore hactive rfl
          fun hwaiting => ⟨hwaiting.symm, hnoreplay, rfl⟩

theorem poll_moves (hnum : Numbered registry) {s : System} (h : (⟨s, .idle⟩ : Daemon).Inv)
    (w : World) (now : String) : Moves ⟨s, .idle⟩ (polled lib registry s w now) := by
  have hphase := h.atPhase
  cases hreplay : s.service.pendingReplay with
  | some update =>
    simp only [AtPhase, hreplay] at hphase
    obtain ⟨hitems, hactive⟩ := hphase
    have hrunning : s.terminalDecision = none := by
      by_contra hsome
      have hnone := h.stopped (Option.isSome_iff_ne_none.mpr hsome) (by simp)
      rw [show s.service.active = none from hnone] at hactive
      exact absurd hactive (by simp)
    have hdrained : s.service.poll lib registry w now =
        ({ s.service with pendingReplay := none }, some update) := by
      simp [Service.poll, hreplay, Option.isNone_eq_false_iff.mpr hactive]
    simp only [polled, hdrained, hrunning, Option.isSome_none, Bool.false_eq_true, if_false]
    exact h.of_kept rfl rfl (Or.inl rfl) (by simp) (by simp) ⟨hitems, rfl, rfl⟩
  | none =>
    simp only [AtPhase, hreplay] at hphase
    cases hactive : s.service.active with
    | none =>
      have hnothing : s.service.poll lib registry w now = (s.service, none) := by
        simp [Service.poll, hreplay, hactive]
      simp only [polled, hnothing]
      exact h.of_kept rfl rfl (Or.inl rfl) h.ended (fun _ _ => hactive) ⟨hphase, hreplay⟩
    | some sub =>
      have hrunning : s.terminalDecision = none := by
        by_contra hsome
        have hnone := h.stopped (Option.isSome_iff_ne_none.mpr hsome) (by simp)
        rw [show s.service.active = none from hnone] at hactive
        cases hactive
      exact processActiveJob_moves lib hnum h hphase hreplay hrunning hactive w now

/-- A completion at a restart removes the state file, in which nothing waits. -/
theorem complete_moves {s : System} (h : (⟨s, .down⟩ : Daemon).Inv)
    (hnothing : (⟨s, .down⟩ : Daemon).waiting = []) (s' : System)
    (hlogged : (⟨s', .idle⟩ : Daemon).logged = (⟨s, .down⟩ : Daemon).logged)
    (hrunning : s'.terminalDecision = none) (evidence : Evidence) (decision : Decision) :
    Moves ⟨s, .down⟩ ⟨s'.complete evidence decision, .idle⟩ := by
  have hcomplete : s'.complete evidence decision = (s'.conclude evidence decision).finish := by
    simp [System.complete, hrunning]
  rw [hcomplete]
  refine h.of_removed hnothing ?_ rfl rfl rfl
  calc (⟨(s'.conclude evidence decision).finish, .idle⟩ : Daemon).logged
      = (⟨s'.conclude evidence decision, .idle⟩ : Daemon).logged := rfl
    _ = (⟨s', .idle⟩ : Daemon).logged := logged_conclude s' .idle evidence decision
    _ = (⟨s, .down⟩ : Daemon).logged := hlogged

theorem failRestore_moves {s : System} (h : (⟨s, .down⟩ : Daemon).Inv)
    (hnothing : (⟨s, .down⟩ : Daemon).waiting = []) (service : Service)
    (evidence : Evidence) (result : Service.ExecutionRestoreResult)
    (now : String) :
    Moves ⟨s, .down⟩ ⟨(System.mk service none s.events).failRestore evidence result now,
      .idle⟩ := by
  have hlogged : (⟨(System.mk service none s.events).appendEvent
      (.executionRestoreFailed result.status result.reason), .idle⟩ : Daemon).logged =
        (⟨s, .down⟩ : Daemon).logged := by
    simp [logged, System.appendEvent]
  exact complete_moves h hnothing _ hlogged rfl evidence _

theorem filterPendingItems_idem (persisted : PersistedExecutionState) :
    (filterPendingItems persisted).filter
        (fun item => !applied persisted.appliedEventSeqs item) =
      filterPendingItems persisted := by
  simp [filterPendingItems, List.filter_filter]

theorem resumeOrReason_ok {adapter : Adapter World} (hnum : Numbers adapter)
    {persisted : PersistedExecutionState} {context : Option RuntimeContext} {w : World}
    {sub : Submission} (h : Service.resumeOrReason adapter persisted context w = .ok sub) :
    persisted.resumeCapable = true ∧
      nextSeq sub.runtimeState = nextSeq persisted.submission.runtimeState := by
  simp only [Service.resumeOrReason] at h
  split at h
  · cases h
  · rename_i resume hresume
    split_ifs at h with hcapable
    split at h
    · cases h
    · rename_i resumed hsub
      obtain rfl := Except.ok.inj h
      exact ⟨by simpa using hcapable, hnum.resumed resume _ _ w _ hresume hsub⟩

/-- A submission taken up again: the waiting items are saved once more and replayed. -/
theorem resumed_moves (hnum : Numbered registry) {s : System} (h : (⟨s, .down⟩ : Daemon).Inv)
    {persisted : PersistedExecutionState}
    (hstore : s.service.store = some persisted) (hcapable : persisted.resumeCapable = true)
    {sub : Submission} (context : Option RuntimeContext)
    (hsub : nextSeq sub.runtimeState = nextSeq persisted.submission.runtimeState) :
    Moves ⟨s, .down⟩
      ⟨⟨(s.service.recoverPendingItems persisted).persistRestoredSubmission registry sub context
        persisted, none, s.events⟩, .idle⟩ := by
  set d : Daemon := ⟨s, .down⟩ with hd
  set d' : Daemon := ⟨⟨(s.service.recoverPendingItems persisted).persistRestoredSubmission registry
    sub context persisted, none, s.events⟩, .idle⟩ with hd'
  have hwaiting : d.waiting = filterPendingItems persisted := by simp [hd, waiting, hstore]
  have hsame : d'.waiting = d.waiting := by
    rw [hwaiting]
    exact filterPendingItems_idem persisted
  have hlogged : d'.logged = d.logged := rfl
  have habove : d'.Above (nextSeq sub.runtimeState) := by
    have := h.durable persisted hstore hcapable
    rw [hsub]
    rwa [Above, hlogged, hsame]
  have hreplay : d'.system.service.pendingReplay =
      if filterPendingItems persisted = [] then none
      else some ⟨filterPendingItems persisted, persisted.pendingDecision⟩ := by
    have hnone : s.service.pendingReplay = none := h.atPhase.2
    simp only [hd', Service.persistRestoredSubmission, Service.persistSubmission, Service.save,
      Service.recoverPendingItems]
    split <;> simp [hnone]
  refine ⟨?_, ⟨[], by simp [hlogged], by simp⟩, fun x hx => Or.inr (hsame ▸ hx),
    fun x hx => Or.inl (hsame ▸ hx)⟩
  exact
    { ordered := hsame ▸ h.ordered
      named := hsame ▸ h.named
      behind := by rw [hlogged, hsame]; exact h.behind
      pending := by
        intro p hp y hy
        obtain rfl := Option.some.inj hp
        exact Or.inr (by rw [hsame, hwaiting]; exact hy)
      recorded := by
        intro p hp n hn
        obtain rfl := Option.some.inj hp
        exact h.recorded persisted hstore n hn
      durable := by
        intro p hp hcapable'
        obtain rfl := Option.some.inj hp
        rw [Service.nextSeq_persistedState hnum hcapable']
        exact habove
      live := by
        intro active hactive
        obtain rfl := Option.some.inj hactive
        exact habove
      inOrder := h.inOrder
      ended := by simp [hd']
      stopped := by simp [hd']
      atPhase := by
        simp only [AtPhase, hreplay, hsame]
        by_cases hnothing : filterPendingItems persisted = []
        · simp [hnothing, hwaiting, hd']
        · simp [hnothing, hwaiting, hd', Service.persistRestoredSubmission,
            Service.persistSubmission, Service.save] }

theorem restore_moves (hnum : Numbered registry) {s : System} (h : (⟨s, .down⟩ : Daemon).Inv)
    (evidence : Evidence) (w : World) (now : String)
    (hrecoverable : s.terminalDecision = none → ∀ persisted, s.service.store = some persisted →
      System.Recoverable registry job persisted w) :
    Moves ⟨s, .down⟩ ⟨s.restoreCurrentJob registry job evidence w now, .idle⟩ := by
  obtain ⟨hactive, hreplay⟩ :
    s.service.active = none ∧ s.service.pendingReplay = none := h.atPhase
  cases hended : s.terminalDecision with
  | some ended =>
    have hwaiting : (⟨s, .down⟩ : Daemon).waiting = [] := h.ended (by simp [hended])
    rw [System.restoreCurrentJob, hended, Option.isSome_some, if_pos rfl]
    refine h.of_kept rfl rfl (Or.inl rfl) (fun _ => hwaiting) (fun _ _ => hactive) ?_
    simp only [AtPhase, hreplay]
    exact hwaiting
  | none =>
    have hrunning : ¬ (s.terminalDecision.isSome = true) := by simp [hended]
    cases hstore : s.service.store with
    | none =>
      have hnothing : (⟨s, .down⟩ : Daemon).waiting = [] := by simp [waiting, hstore]
      by_cases hdelivery : job.replyDelivery = true
      · rw [System.restoreCurrentJob, if_neg hrunning, if_pos hdelivery]
        exact complete_moves h hnothing s rfl hended evidence _
      · obtain ⟨service, result, hresult, hfailed⟩ : ∃ service result,
            s.service.restoreSubmission registry job.provider job.runtimeContext w =
              (service, result) ∧ result.restored = false := by
          simp only [Service.restoreSubmission, hactive, hstore, Option.isSome_none,
            Bool.false_eq_true, if_false]
          split <;> exact ⟨_, _, rfl, rfl⟩
        rw [System.restoreCurrentJob_of_failed registry job evidence w now hended
          (by simpa using hdelivery) hresult hfailed]
        exact failRestore_moves h hnothing service evidence result now
    | some persisted =>
      obtain ⟨hrequest, hadapter, hprovider, hreplays⟩ := hrecoverable hended persisted hstore
      obtain ⟨adapter, ha⟩ := Option.isSome_iff_exists.mp hadapter
      have hwaiting : (⟨s, .down⟩ : Daemon).waiting = filterPendingItems persisted := by
        simp [waiting, hstore]
      have hresult := System.restoreSubmission_found registry job w hactive hstore ha hprovider
      by_cases hpending : persisted.pendingDecision.isSome = true ∧
        filterPendingItems persisted = []
      · obtain ⟨decision, hdecision⟩ := Option.isSome_iff_exists.mp hpending.1
        rw [if_pos hpending, hdecision] at hresult
        rw [System.restoreCurrentJob_eq registry job evidence w now hended hrequest hresult]
        exact complete_moves h (hwaiting.trans hpending.2)
          (System.mk (s.service.recoverPendingItems persisted) none s.events) rfl rfl evidence
          decision
      · rw [if_neg hpending] at hresult
        cases hr : Service.resumeOrReason adapter persisted
            (job.runtimeContext.or persisted.runtimeContext) w with
        | error reason =>
          have hnothing : filterPendingItems persisted = [] := by
            refine hreplays.resolve_right fun hresumes => ?_
            obtain ⟨adapter', resume, ha', hresume, hcapable, hsub⟩ := hresumes
            obtain rfl : adapter = adapter' := Option.some.inj (ha.symm.trans ha')
            obtain ⟨sub, hsub⟩ := Option.isSome_iff_exists.mp hsub
            simp [Service.resumeOrReason, hresume, hcapable, hsub] at hr
          rw [hr] at hresult
          rw [System.restoreCurrentJob_of_failed registry job evidence w now hended hrequest hresult
            rfl]
          exact failRestore_moves h (hwaiting.trans hnothing) _ evidence _ now
        | ok sub =>
          obtain ⟨hcapable, hsub⟩ := resumeOrReason_ok (hnum _ adapter ha) hr
          rw [hr] at hresult
          rw [System.restoreCurrentJob_eq registry job evidence w now hended hrequest hresult]
          have hmoves := resumed_moves hnum h hstore hcapable
            (job.runtimeContext.or persisted.runtimeContext) hsub
          by_cases hnothing : filterPendingItems persisted = []
          · simpa [hnothing, Service.restoredResult, Service.ExecutionRestoreResult.restored]
              using hmoves
          · simpa [hnothing, Service.restoredResult, Service.ExecutionRestoreResult.restored]
              using hmoves

/-! ### Runs -/

variable {lib job}

theorem Step.moves (hnum : Numbered registry) {d d' : Daemon} (hstep : Step lib registry job d d')
    (h : d.Inv) : Moves d d' := by
  cases hstep with
  | start s w => exact start_moves job hnum h w
  | crash s phase => exact crash_moves h
  | restore s evidence w now hrecoverable =>
    exact restore_moves job hnum h evidence w now hrecoverable
  | poll s w now => exact poll_moves lib hnum h w now
  | append s item items decision => exact append_moves h
  | acknowledge s item items decision => exact acknowledge_moves h
  | settle s evidence decision => exact settle_moves h evidence
  | finish s => exact finish_moves h
  | tick s evidence => exact tick_moves h evidence

theorem Runs.inv (hnum : Numbered registry) {d d' : Daemon} (hrun : Runs lib registry job d d')
    (h : d.Inv) : d'.Inv := by
  induction hrun with
  | refl => exact h
  | tail _ hstep ih => exact (hstep.moves hnum ih).inv

/-- An item that is logged or waiting stays so. -/
theorem Runs.kept (hnum : Numbered registry) {d d' : Daemon} (hrun : Runs lib registry job d d')
    (h : d.Inv) {item : Item} (hitem : item ∈ d.logged ∨ item ∈ d.waiting) :
    item ∈ d'.logged ∨ item ∈ d'.waiting := by
  induction hrun with
  | refl => exact hitem
  | tail hrun hstep ih =>
    have hmoves := hstep.moves hnum (Runs.inv hnum hrun h)
    obtain ⟨later, hlater, -⟩ := hmoves.grows
    obtain hlog | hwait := ih
    · exact Or.inl (hlater ▸ List.mem_append_left later hlog)
    · exact hmoves.kept item hwait

/-- The number has been logged, and nothing waits under it. -/
def Done (d : Daemon) (n : ℕ) : Prop :=
  (∃ x ∈ d.logged, seqOf x = n) ∧ ∀ item ∈ d.waiting, seqOf item ≠ n

theorem Moves.done {d d' : Daemon} (hmoves : Moves d d') {n : ℕ} (h : d.Done n) :
    d'.Done n ∧ ∃ later, d'.logged = d.logged ++ later ∧ ∀ item ∈ later, seqOf item ≠ n := by
  obtain ⟨⟨x, hx, hseq⟩, hother⟩ := h
  obtain ⟨later, hlater, hmem⟩ := hmoves.grows
  refine ⟨⟨⟨x, hlater ▸ List.mem_append_left later hx, hseq⟩, ?_⟩, later, hlater,
    fun item hitem => hother item (hmem item hitem)⟩
  intro item hitem
  obtain hold | hnew := hmoves.new item hitem
  · exact hother item hold
  · have := hnew x hx
    omega

theorem Runs.done (hnum : Numbered registry) {d d' : Daemon} (hrun : Runs lib registry job d d')
    (h : d.Inv) {n : ℕ} (hdone : d.Done n) :
    d'.Done n ∧ ∃ later, d'.logged = d.logged ++ later ∧ ∀ item ∈ later, seqOf item ≠ n := by
  induction hrun with
  | refl => exact ⟨hdone, [], by simp, by simp⟩
  | tail hrun hstep ih =>
    obtain ⟨hdone, later, hlater, hother⟩ := ih
    have hmoves := hstep.moves hnum (Runs.inv hnum hrun h)
    obtain ⟨hdone', later', hlater', hother'⟩ := hmoves.done hdone
    refine ⟨hdone', later ++ later', by rw [hlater', hlater, List.append_assoc], ?_⟩
    intro item hitem
    obtain hitem | hitem := List.mem_append.mp hitem
    · exact hother item hitem
    · exact hother' item hitem

/-- An applied number has been logged and is waited for no more. -/
theorem Inv.done {d : Daemon} (h : d.Inv) {persisted : PersistedExecutionState}
    (hstore : d.system.service.store = some persisted) {n : ℕ}
    (hn : n ∈ persisted.appliedEventSeqs) : d.Done n := by
  refine ⟨h.recorded persisted hstore n hn, ?_⟩
  rintro item hitem rfl
  obtain ⟨hseq, hpos⟩ := h.named item hitem
  obtain ⟨k, hk⟩ := Nat.exists_eq_succ_of_ne_zero hpos.ne'
  rw [waiting, hstore] at hitem
  have hfree := (List.mem_filter.mp hitem).2
  rw [hk] at hseq hn
  simp [applied, hseq, hn] at hfree

theorem Inv.quiet {d : Daemon} (h : d.Inv) (hquiet : d.Quiet) : d.waiting = [] := by
  have hphase := h.atPhase
  rw [AtPhase, hquiet.1] at hphase
  simpa only [hquiet.2] using hphase

/-! ### A whole poll is a run -/

theorem runs_ingest (s : System) (items : List Item) (decision : Option Decision) :
    Runs lib registry job ⟨s, .append items decision⟩
      ⟨items.foldl System.ingestItem s, .append [] decision⟩ := by
  induction items generalizing s with
  | nil => exact .refl
  | cons item items ih =>
    refine .head (.append s item items decision) (.head (.acknowledge _ item items decision) ?_)
    exact ih (s.ingestItem item)

theorem runs_complete {s : System} (hrunning : s.terminalDecision = none) (evidence : Evidence)
    (decision : Decision) :
    Runs lib registry job ⟨s.conclude evidence decision, .finish⟩
      ⟨s.complete evidence decision, .tick⟩ := by
  have hcomplete : s.complete evidence decision = (s.conclude evidence decision).finish := by
    simp [System.complete, hrunning]
  rw [hcomplete]
  exact .single (.finish _)

theorem runs_settle {s : System} (hrunning : s.terminalDecision = none) (evidence : Evidence)
    (decision : Option Decision) :
    Runs lib registry job ⟨s, .append [] decision⟩ ⟨s.settleUpdate evidence decision, .tick⟩ := by
  have hstep : Step lib registry job ⟨s, .append [] decision⟩ (settled s evidence decision) :=
    .settle s evidence decision
  cases hd : System.resolveUpdateDecision decision evidence.tracked with
  | some ended =>
    simp only [settled, hd] at hstep
    simp only [System.settleUpdate, hd]
    exact .head hstep (runs_complete hrunning evidence ended)
  | none =>
    simp only [settled, hd] at hstep
    simp only [System.settleUpdate, hd]
    exact .single hstep

theorem runs_tick (s : System) (evidence : Evidence) :
    Runs lib registry job ⟨s, .tick⟩ ⟨s.tickTracker evidence, .idle⟩ := by
  have hstep : Step lib registry job ⟨s, .tick⟩ (ticked s evidence) := .tick s evidence
  cases hdecision : (evidence.tracked.map View.decision).filter Decision.terminal with
  | some decision =>
    simp only [ticked, hdecision] at hstep
    simp only [System.tickTracker, hdecision]
    by_cases hended : s.terminalDecision.isSome
    · rw [if_pos hended] at hstep
      have hsame : s.complete evidence decision = s := by simp [System.complete, hended]
      rw [hsame]
      exact .single hstep
    · rw [if_neg hended] at hstep
      have hrunning : s.terminalDecision = none := by simpa using hended
      refine .head hstep ((runs_complete hrunning evidence decision).trans ?_)
      exact .single (by simpa [ticked] using Step.tick (s.complete evidence decision) ⟨none, none⟩)
  | none =>
    simp only [ticked, hdecision] at hstep
    simp only [System.tickTracker, hdecision]
    exact .single hstep

/-- `poll_completion_updates` is a run of its durable writes. -/
theorem runs_poll (s : System) (ingested ticked : Evidence) (w : World) (now : String) :
    Runs lib registry job ⟨s, .idle⟩
      ⟨s.pollCompletionUpdates lib registry ingested ticked w now, .idle⟩ := by
  have hpoll : Step lib registry job ⟨s, .idle⟩ (polled lib registry s w now) := .poll s w now
  simp only [polled] at hpoll
  simp only [System.pollCompletionUpdates]
  split
  · rename_i hnone
    simp only [hnone] at hpoll
    exact .head hpoll (runs_tick _ ticked)
  · rename_i update hsome
    simp only [hsome] at hpoll
    by_cases hended : s.terminalDecision.isSome
    · rw [if_pos hended] at hpoll
      refine .head hpoll ?_
      simp only [System.ingestUpdate, hended, if_true]
      exact runs_tick _ ticked
    · rw [if_neg hended] at hpoll
      refine .head hpoll ?_
      simp only [System.ingestUpdate, hended]
      refine (runs_ingest _ update.items update.decision).trans ((runs_settle ?_ ingested
        update.decision).trans (runs_tick _ ticked))
      rw [System.foldl_ingestItem_terminalDecision]
      simpa using hended

/-! ### Nothing is lost -/

variable (lib job) in
theorem quiet_of_tick {s : System} (h : (⟨s, .tick⟩ : Daemon).Inv) :
    ∃ d, Runs lib registry job ⟨s, .tick⟩ d ∧ d.Quiet :=
  ⟨⟨s, .idle⟩, .single (by simpa [ticked] using Step.tick s ⟨none, none⟩), rfl, h.atPhase.2⟩

variable (lib job) in
theorem quiet_of_append (hnum : Numbered registry) {s : System} {items : List Item}
    {decision : Option Decision} (h : (⟨s, .append items decision⟩ : Daemon).Inv) :
    ∃ d, Runs lib registry job ⟨s, .append items decision⟩ d ∧ d.Quiet := by
  have hrunning : (items.foldl System.ingestItem s).terminalDecision = none := by
    rw [System.foldl_ingestItem_terminalDecision]
    exact h.atPhase.2.2
  have hrun : Runs lib registry job ⟨s, .append items decision⟩
      ⟨(items.foldl System.ingestItem s).settleUpdate ⟨none, none⟩ decision, .tick⟩ :=
    (runs_ingest s items decision).trans (runs_settle hrunning ⟨none, none⟩ decision)
  obtain ⟨d, hquiet⟩ := quiet_of_tick lib job (hrun.inv hnum h)
  exact ⟨d, hrun.trans hquiet.1, hquiet.2⟩

/-- A daemon that is up gets through with what it has in hand. -/
theorem reaches_quiet (hnum : Numbered registry) (w : World) (now : String) {d : Daemon}
    (h : d.Inv) (hstarted : d.phase ≠ .fresh) (hup : d.phase ≠ .down) :
    ∃ d', Runs lib registry job d d' ∧ d'.Quiet := by
  obtain ⟨s, phase⟩ := d
  cases phase with
  | fresh => exact absurd rfl hstarted
  | down => exact absurd rfl hup
  | idle =>
    have hstep : Step lib registry job ⟨s, .idle⟩ (polled lib registry s w now) := .poll s w now
    have hinv := (hstep.moves hnum h).inv
    obtain ⟨d, hrun, hquiet⟩ :
        ∃ d, Runs lib registry job (polled lib registry s w now) d ∧ d.Quiet := by
      simp only [polled] at hinv ⊢
      split
      · rename_i hnone
        simp only [hnone] at hinv
        exact quiet_of_tick lib job hinv
      · rename_i update hsome
        simp only [hsome] at hinv
        split
        · rename_i hended
          rw [if_pos hended] at hinv
          exact quiet_of_tick lib job hinv
        · rename_i hended
          rw [if_neg hended] at hinv
          exact quiet_of_append lib job hnum hinv
    exact ⟨d, .head hstep hrun, hquiet⟩
  | append items decision => exact quiet_of_append lib job hnum h
  | acknowledge item items decision =>
    have hstep : Step lib registry job _ _ := .acknowledge s item items decision
    obtain ⟨d, hrun, hquiet⟩ := quiet_of_append lib job hnum
      (hstep.moves hnum h).inv
    exact ⟨d, .head hstep hrun, hquiet⟩
  | finish =>
    have hstep : Step lib registry job _ _ := .finish s
    obtain ⟨d, hrun, hquiet⟩ := quiet_of_tick lib job (hstep.moves hnum h).inv
    exact ⟨d, .head hstep hrun, hquiet⟩
  | tick => exact quiet_of_tick lib job h

/-- Through every run with crashes: a saved item is logged or still waits in the state file,
it is logged once the daemon, which gets there whenever it is up, has nothing in hand; first
appearances are in the order of the numbers; and an item whose number was saved as applied
is never logged again. -/
theorem items_survive_crashes (hnum : Numbered registry) (w : World) {d d' : Daemon}
    (hd : Runs lib registry job fresh d) (hd' : Runs lib registry job d d') :
    (∀ persisted, d.system.service.store = some persisted → ∀ item ∈ persisted.pendingItems,
      (item ∈ d'.logged ∨ item ∈ d'.waiting) ∧ (d'.Quiet → item ∈ d'.logged)) ∧
    (d'.phase ≠ .fresh → d'.phase ≠ .down → ∃ q, Runs lib registry job d' q ∧ q.Quiet) ∧
    InOrder (d'.logged.map seqOf) ∧
    ∀ persisted, d.system.service.store = some persisted → ∀ n ∈ persisted.appliedEventSeqs,
      ∃ later, d'.logged = d.logged ++ later ∧ ∀ item ∈ later, seqOf item ≠ n := by
  have h : d.Inv := hd.inv hnum inv_fresh
  have h' : d'.Inv := hd'.inv hnum h
  refine ⟨?_, fun hstarted hup => reaches_quiet hnum w "" h' hstarted hup, h'.inOrder, ?_⟩
  · intro persisted hstore item hitem
    have hkept := hd'.kept hnum h (h.pending persisted hstore item hitem)
    refine ⟨hkept, fun hquiet => hkept.resolve_right ?_⟩
    rw [h'.quiet hquiet]
    exact List.not_mem_nil
  · intro persisted hstore n hn
    exact (hd'.done hnum h (h.done hstore hn)).2

/-! ### A crash at a dead pane -/

theorem sample_numbered : Numbered System.Sample.registry := by
  intro provider adapter h
  obtain rfl : System.Sample.adapter = adapter := by
    simp only [System.Sample.registry] at h
    split_ifs at h
    exact Option.some.inj h
  refine ⟨fun _ _ => rfl, ?_, ?_, ?_⟩
  · intro sub alive result hresult
    simp only [System.Sample.adapter] at hresult
    split_ifs at hresult
    obtain rfl := Option.some.inj hresult
    exact Active.failedResult_numbered sub _ _ _ _ _
  · intro exporter sub payload hexporter hpayload
    obtain rfl := Option.some.inj hexporter
    obtain rfl := Option.some.inj hpayload
    rfl
  · intro resume sub context alive sub' hresume hsub
    obtain rfl := Option.some.inj hresume
    exact Active.resumeActiveSubmission_nextSeq hsub

/-- The job of the sample, handed to the service. -/
def Sample.started : System :=
  ⟨fresh.system.service.start System.Sample.registry "codex" (some System.Sample.context) true,
    none, []⟩

/-- The pane is found dead and the daemon crashes before the item is logged: it waits. -/
theorem pane_dead_item_waits :
    ∃ d, Runs System.Sample.lib System.Sample.registry System.Sample.job fresh d ∧
      d.phase = .down ∧ ∀ item ∈ System.Sample.dead.items, item ∈ d.logged ∨ item ∈ d.waiting := by
  have hrun : Runs System.Sample.lib System.Sample.registry System.Sample.job fresh
      (polled System.Sample.lib System.Sample.registry Sample.started false
        "2026-03-18T00:00:05Z") :=
    .head (.start fresh.system true) (.single (.poll Sample.started false "2026-03-18T00:00:05Z"))
  obtain ⟨persisted, hstore, hitems⟩ : ∃ persisted : PersistedExecutionState,
      (polled System.Sample.lib System.Sample.registry Sample.started false
        "2026-03-18T00:00:05Z").system.service.store = some persisted ∧
      persisted.pendingItems = System.Sample.dead.items := ⟨_, rfl, rfl⟩
  refine ⟨_, hrun.tail (.crash _ _), rfl, fun item hitem => ?_⟩
  have hsurvive := items_survive_crashes sample_numbered true hrun (.single (.crash _ _))
  exact (hsurvive.1 persisted hstore item (hitems ▸ hitem)).1

end Daemon

end CodexBridge.Execution
