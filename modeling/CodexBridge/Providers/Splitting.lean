import CodexBridge.Providers.ClaudePolls
import CodexBridge.Providers.CodexPolls

/-! Poll splitting. Where reads and polls cut a session log makes no difference to what
the Codex and the Claude adapter make of it. -/

namespace CodexBridge.Providers

open Completion Execution

/-- The polls make the same items up to their times, numbered one after the other, and leave
the same reply. -/
def Alike (poll : Submission → World → Option PollResult) (sub : Submission)
    (ws ws' : List World) : Prop :=
  (pollAll poll sub ws).1.map timeless = (pollAll poll sub ws').1.map timeless ∧
    (pollAll poll sub ws).2.reply = (pollAll poll sub ws').2.reply ∧
    NumberedFrom (nextSeq sub.runtimeState) (pollAll poll sub ws).1

/-- Two ways of cutting one log into reads and polls come to the same. The polls get to the
log, and the prompt of a Claude job goes out with the first of them or with none. -/
theorem polls_cut_alike (host : Host) {sub : Submission} {ws ws' : List World}
    {log : List LogStep} (hws : ws ≠ []) (hws' : ws' ≠ []) :
    ((∀ w, w ∈ ws ∨ w ∈ ws' → Codex.ReadsLog host sub w) →
      Cuts (Codex.poll host) (Codex.logSteps host) sub
        (host.text sub.runtimeState "session_path") ws log →
      Cuts (Codex.poll host) (Codex.logSteps host) sub
        (host.text sub.runtimeState "session_path") ws' log →
      Alike (Codex.poll host) sub ws ws') ∧
    ((∀ w, w ∈ ws ∨ w ∈ ws' → Claude.ReadsLog host sub w) →
      (∀ w, w ∈ ws ∨ w ∈ ws' → Claude.NoPromptDue host sub w) ∨
        (∀ w, w ∈ ws.head? ∨ w ∈ ws'.head? → Claude.promptDeliveryDue host sub w = true) →
      1 ≤ nextSeq sub.runtimeState →
      Cuts (Claude.poll host) (Claude.logSteps host) sub
        (host.text sub.runtimeState "session_path") ws log →
      Cuts (Claude.poll host) (Claude.logSteps host) sub
        (host.text sub.runtimeState "session_path") ws' log →
      Alike (Claude.poll host) sub ws ws') := by
  constructor
  · intro hread hcuts hcuts'
    exact Codex.pollAll_of_cuts host hws hws' (fun w hw => hread w (.inl hw))
      (fun w hw => hread w (.inr hw)) hcuts hcuts'
  · intro hread hprompt hseq hcuts hcuts'
    exact Claude.pollAll_of_cuts host hws hws' (fun w hw => hread w (.inl hw))
      (fun w hw => hread w (.inr hw)) hprompt hseq hcuts hcuts'

namespace Sample

def turn : List LogEvent :=
  [event "user" "CCB_REQ_ID: job_1 hi", event "assistant" "hello\nCCB_DONE: job_1",
    ⟨[("payload_type", .str "task_complete")], [], []⟩]

def running : Submission :=
  submissionOf ⟨"job_1", "claude", "hi", "ask", false⟩ .sessionEventLog Active.Sample.now []
    [("mode", .str "active"), ("pane_id", .str "%1"), ("next_seq", .int 1)]

end Sample

open Sample in
theorem polls_cut_alike_turn :
    Alike (Codex.poll python) running [world turn 1, world turn 3] [world turn 3] ∧
      Alike (Claude.poll python) running [world turn 1, world turn 3] [world turn 3] := by
  have hpollable : pollable python running := by decide +kernel
  have hworlds : ∀ P : World → Prop, (∀ n, P (world turn n)) →
      ∀ w, w ∈ [world turn 1, world turn 3] ∨ w ∈ [world turn 3] → P w := by
    intro P hP w hw
    simp only [List.mem_cons, List.not_mem_nil, or_false] at hw
    obtain (rfl | rfl) | rfl := hw
    exacts [hP 1, hP 3, hP 3]
  have hboth := @polls_cut_alike python running [world turn 1, world turn 3] [world turn 3]
    (.session "/log/a.jsonl" :: turn.map .event) (List.cons_ne_nil _ _) (List.cons_ne_nil _ _)
  refine ⟨hboth.1 ?_ (.inl (by decide +kernel)) (.inl (by decide +kernel)),
    hboth.2 ?_ (.inl ?_) (by decide +kernel) (.inl (by decide +kernel))
      (.inl (by decide +kernel))⟩
  · exact hworlds _ fun n => ⟨hpollable, rfl⟩
  · exact hworlds _ fun n => ⟨hpollable, rfl, rfl, rfl⟩
  · exact hworlds _ fun n => .inl rfl

end CodexBridge.Providers
