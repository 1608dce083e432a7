import CodexBridge.Polling
import CodexBridge.Execution.Numbering
import CodexBridge.Providers.Runtime

/-! Session logs as sequences of steps. A session log comes to an adapter in reads, and
the reads in polls. The parsing state of an adapter takes the steps of the log (a
session, or an event of it) one after the other and appends items as it goes; what a
step does depends on the items so far and on the clock only in their times. -/

namespace CodexBridge.Providers

open Completion Execution

/-! ### Logs -/

/-- What a reader makes known: the session it reads, and an event of it. -/
inductive LogStep where
  | session (path : String)
  | event (event : LogEvent)
  deriving DecidableEq

/-- The reads of a poll as one sequence; `path` is the session path of a reader state. -/
def Reads.steps (path : Value → String) (reads : Reads) : List LogStep :=
  (reads.batches.flatMap fun batch =>
    .session (path batch.state) :: batch.events.map .event) ++ [.session (path reads.last)]

/-- The steps without the sessions that are none or the one the reader is in already: the
events, each after the session it is read in. -/
def settled (current : String) : List LogStep → List LogStep
  | [] => []
  | .session path :: rest =>
    if path = "" ∨ path = current then settled current rest
    else .session path :: settled path rest
  | .event event :: rest => .event event :: settled current rest

/-- A machine that keeps the session it reads does nothing at the steps that are left out. -/
theorem runUntil_settled {σ : Type} {step : σ → LogStep → σ} {halted : σ → Bool}
    {sessionPath : σ → String}
    (hskip : ∀ x path, path = "" ∨ path = sessionPath x → step x (.session path) = x)
    (hmove : ∀ x path, path ≠ "" → sessionPath (step x (.session path)) = path)
    (hevent : ∀ x event, sessionPath (step x (.event event)) = sessionPath x)
    (x : σ) (steps : List LogStep) :
    runUntil step halted x (settled (sessionPath x) steps) = runUntil step halted x steps := by
  induction steps generalizing x with
  | nil => rfl
  | cons first rest ih =>
    cases hx : halted x with
    | true => rw [Halting.runUntil_halted hx, Halting.runUntil_halted hx]
    | false =>
      rw [Halting.runUntil_cons hx]
      cases first with
      | session path =>
        rw [settled]
        split
        · rename_i hsame
          rw [hskip x path hsame]
          exact ih x
        · rename_i hnew
          rw [Halting.runUntil_cons hx, ← ih]
          rw [hmove x path fun hnil => hnew (.inl hnil)]
      | event event =>
        rw [settled, Halting.runUntil_cons hx, ← ih, hevent]

/-! ### Items without their times -/

theorem buildItem_congr {sub sub' : Submission} (h : sub.sourceKind = sub'.sourceKind) :
    Active.buildItem sub = Active.buildItem sub' := by
  funext kind now seq payload
  simp only [Active.buildItem, h]

/-- An item without its timestamps. -/
def timeless (item : Item) : ItemKind × Cursor × Payload :=
  (item.kind, { item.cursor with updatedAt := none }, item.payload)

theorem timeless_buildItem {sub sub' : Submission} (h : sub.sourceKind = sub'.sourceKind)
    (kind : ItemKind) (now now' : Active.Now) (seq : ℕ) (payload : Payload) :
    timeless (Active.buildItem sub kind now seq payload) =
      timeless (Active.buildItem sub' kind now' seq payload) := by
  simp only [timeless, Active.buildItem, h]

/-- A turn boundary, an abort or an error. -/
def endsTurn (item : Item) : Bool :=
  item.kind = .turnBoundary || item.kind = .turnAborted || item.kind = .error

theorem any_endsTurn {items items' : List Item} (h : items.map timeless = items'.map timeless) :
    items.any endsTurn = items'.any endsTurn := by
  have hkinds : ∀ items : List Item, items.any endsTurn =
      (items.map timeless).any fun kept =>
        kept.1 = .turnBoundary || kept.1 = .turnAborted || kept.1 = .error := by
    intro items
    rw [List.any_map]
    rfl
  rw [hkinds, h, ← hkinds]

/-- What a poll keeps of its items: they have numbers one after the other, and the poll is over
once an item has ended the turn. -/
structure Tallied (first : ℕ) (halted : Bool) (nextSeq : ℕ) (items : List Item) : Prop where
  terminal : items.any endsTurn = halted
  numbered : NumberedFrom first items
  counted : nextSeq = first + items.length

theorem Tallied.emit {first seq : ℕ} {halted halted' : Bool} {items : List Item}
    (h : Tallied first halted seq items) (sub : Submission) (kind : ItemKind) (now : Active.Now)
    (payload : Payload)
    (hover : (halted || endsTurn (Active.buildItem sub kind now seq payload)) = halted') :
    Tallied first halted' (seq + 1) (items ++ [Active.buildItem sub kind now seq payload]) where
  terminal := by simp [h.terminal, hover]
  numbered := h.numbered.concat (congrArg some h.counted)
  counted := by simp [h.counted, Nat.add_assoc]

/-- The job has come to its end with this result. -/
def ended (result : PollResult) : Bool := result.decision.isSome || result.items.any endsTurn

/-- The submission after a poll. -/
def afterPoll (poll : Submission → World → Option PollResult) (sub : Submission) (w : World) :
    Submission :=
  match poll sub w with
  | none => sub
  | some result => result.submission

theorem afterPoll_of_some {poll : Submission → World → Option PollResult} {sub : Submission}
    {w : World} {result : PollResult} (h : poll sub w = some result) :
    afterPoll poll sub w = result.submission := by
  rw [afterPoll, h]

theorem afterPoll_of_none {poll : Submission → World → Option PollResult} {sub : Submission}
    {w : World} (h : poll sub w = none) : afterPoll poll sub w = sub := by
  rw [afterPoll, h]

/-- The items of polls one after the other, up to a poll that ends the turn, and the
submission they leave. -/
def pollAll (poll : Submission → World → Option PollResult) :
    Submission → List World → List Item × Submission
  | sub, [] => ([], sub)
  | sub, w :: ws =>
    match poll sub w with
    | none => pollAll poll sub ws
    | some result =>
      if ended result then (result.items, result.submission)
      else
        let rest := pollAll poll result.submission ws
        (result.items ++ rest.1, rest.2)

/-- The log as these polls read it. -/
def logAll (poll : Submission → World → Option PollResult)
    (log : Submission → World → List LogStep) :
    Submission → List World → List LogStep
  | _, [] => []
  | sub, w :: ws =>
    log sub w ++
      match poll sub w with
      | none => logAll poll log sub ws
      | some result => if ended result then [] else logAll poll log result.submission ws

/-- The polls read this log: the whole of it, or a part of it in which the turn ends. -/
def Cuts (poll : Submission → World → Option PollResult)
    (log : Submission → World → List LogStep) (sub : Submission) (current : String)
    (ws : List World) (steps : List LogStep) : Prop :=
  settled current (logAll poll log sub ws) = steps ∨
    (pollAll poll sub ws).1.any endsTurn = true ∧
      settled current (logAll poll log sub ws) <+: steps

/-- A machine that has halted when the turn has ended comes to the same by the steps that the
polls read and by the log that they cut. -/
theorem runUntil_of_cuts {σ : Type} {step : σ → LogStep → σ} {halted : σ → Bool} {x : σ}
    {poll : Submission → World → Option PollResult} {log : Submission → World → List LogStep}
    {sub : Submission} {current : String} {ws : List World} {steps : List LogStep}
    (hsettled : ∀ l, runUntil step halted x (settled current l) = runUntil step halted x l)
    (hhalted : (pollAll poll sub ws).1.any endsTurn = true →
      halted (runUntil step halted x (logAll poll log sub ws)) = true)
    (hcuts : Cuts poll log sub current ws steps) :
    runUntil step halted x (logAll poll log sub ws) = runUntil step halted x steps := by
  obtain hall | ⟨hend, rest, hrest⟩ := hcuts
  · rw [← hsettled, hall]
  · rw [← hrest, Halting.runUntil_append, hsettled, Halting.runUntil_halted (hhalted hend)]

/-- Polls that number their items number all of them. -/
theorem pollAll_numbered {poll : Submission → World → Option PollResult}
    (ok : Submission → World → Prop)
    (hpoll : ∀ sub w result, ok sub w → poll sub w = some result →
      NumberedFrom (nextSeq sub.runtimeState) result.items ∧
        nextSeq result.submission.runtimeState = nextSeq sub.runtimeState + result.items.length)
    (hok : ∀ sub w w' result, ok sub w → ok sub w' → poll sub w = some result →
      ended result = false → ok result.submission w')
    {sub : Submission} {ws : List World} (h : ∀ w ∈ ws, ok sub w) :
    NumberedFrom (nextSeq sub.runtimeState) (pollAll poll sub ws).1 := by
  induction ws generalizing sub with
  | nil => exact NumberedFrom.nil _
  | cons w ws ih =>
    have hw := h w (List.mem_cons_self ..)
    have hws : ∀ w' ∈ ws, ok sub w' := fun w' hw' => h w' (List.mem_cons_of_mem _ hw')
    rw [pollAll]
    split
    · exact ih hws
    · rename_i result hresult
      obtain ⟨hitems, hnext⟩ := hpoll sub w result hw hresult
      split
      · exact hitems
      · rename_i hend
        have hrest := ih fun w' hw' =>
          hok sub w w' result hw (hws w' hw') hresult (by simpa using hend)
        rw [hnext] at hrest
        exact hitems.append hrest

/-! ### Steps that append items -/

/-- A parsing state with the items of the poll in it; the reply is read off the rest. -/
structure Emitter (σ : Type) where
  items : σ → List Item
  withItems : σ → List Item → σ
  reply : σ → String
  items_withItems : ∀ x l, items (withItems x l) = l
  withItems_items : ∀ x, withItems x (items x) = x
  withItems_withItems : ∀ x l l', withItems (withItems x l) l' = withItems x l'
  reply_withItems : ∀ x l, reply (withItems x l) = reply x

namespace Emitter

variable {σ : Type} (E : Emitter σ)

/-- The two functions do the same to a state whatever items it has, and append the same
items up to their times; the reply changes only with an item. -/
def Agree (f g : σ → σ) : Prop :=
  ∀ x l, ∃ new new', E.items (f x) = E.items x ++ new ∧
    g (E.withItems x l) = E.withItems (f x) (l ++ new') ∧ new.map timeless = new'.map timeless ∧
      (new = [] → E.reply (f x) = E.reply x)

variable {E}

theorem Agree.comp {f g f' g' : σ → σ} (h' : E.Agree f' g') (h : E.Agree f g) :
    E.Agree (f' ∘ f) (g' ∘ g) := by
  intro x l
  obtain ⟨new, new', hitems, hwith, htime, hreply⟩ := h x l
  obtain ⟨more, more', hitems', hwith', htime', hreply'⟩ := h' (f x) (l ++ new')
  refine ⟨new ++ more, new' ++ more', ?_, ?_, ?_, ?_⟩
  · rw [Function.comp, hitems', hitems, List.append_assoc]
  · rw [Function.comp, hwith, hwith', Function.comp, List.append_assoc]
  · rw [List.map_append, List.map_append, htime, htime']
  · intro hnil
    obtain ⟨rfl, rfl⟩ := List.append_eq_nil_iff.mp hnil
    rw [Function.comp, hreply' rfl, hreply rfl]

theorem Agree.refl : E.Agree id id := by
  intro x l
  exact ⟨[], [], (List.append_nil _).symm, by rw [List.append_nil]; rfl, rfl, fun _ => rfl⟩

theorem Agree.of_quiet {f g : σ → σ} (hitems : ∀ x, E.items (f x) = E.items x)
    (hwith : ∀ x l, g (E.withItems x l) = E.withItems (f x) l)
    (hreply : ∀ x, E.reply (f x) = E.reply x) : E.Agree f g := by
  intro x l
  exact ⟨[], [], by rw [hitems, List.append_nil], by rw [hwith, List.append_nil], rfl,
    fun _ => hreply x⟩

theorem Agree.of_emit {f g : σ → σ} {a b : σ → Item}
    (hitems : ∀ x, E.items (f x) = E.items x ++ [a x])
    (hwith : ∀ x l, g (E.withItems x l) = E.withItems (f x) (l ++ [b x]))
    (htime : ∀ x, timeless (a x) = timeless (b x)) : E.Agree f g := by
  intro x l
  exact ⟨[a x], [b x], hitems x, hwith x l, congrArg (fun item => [item]) (htime x), by simp⟩

theorem Agree.ite {c : σ → Prop} [DecidablePred c] {f g f' g' : σ → σ}
    (hc : ∀ x l, c (E.withItems x l) ↔ c x) (h : E.Agree f g) (h' : E.Agree f' g') :
    E.Agree (fun x => if c x then f x else f' x) (fun x => if c x then g x else g' x) := by
  intro x l
  by_cases hx : c x
  · simpa only [hx, hc x l, if_true] using h x l
  · simpa only [hx, hc x l, if_false] using h' x l

/-- What a state is apart from its items. -/
def core (E : Emitter σ) (x : σ) : σ := E.withItems x []

theorem eq_withItems {x y : σ} (h : E.core x = E.core y) : y = E.withItems x (E.items y) := by
  rw [← E.withItems_items y, E.items_withItems, ← E.withItems_withItems y [], ← core, ← h, core,
    E.withItems_withItems]

def out (E : Emitter σ) (x : σ) : List (ItemKind × Cursor × Payload) :=
  (E.items x).map timeless

theorem Agree.step {f g : σ → σ} (h : E.Agree f g) {x y : σ} (hcore : E.core x = E.core y) :
    E.core (f x) = E.core (g y) ∧
      ∃ new, E.out (f x) = E.out x ++ new ∧ E.out (g y) = E.out y ++ new := by
  obtain ⟨new, new', hitems, hwith, htime, -⟩ := h x (E.items y)
  rw [← eq_withItems hcore] at hwith
  refine ⟨by rw [hwith, core, core, E.withItems_withItems], new.map timeless, ?_, ?_⟩
  · rw [out, hitems, List.map_append, out]
  · rw [hwith, out, E.items_withItems, List.map_append, out, htime]

theorem Agree.quiet {f g : σ → σ} (h : E.Agree f g) {x : σ} (hout : E.out (f x) = E.out x) :
    E.reply (f x) = E.reply x := by
  obtain ⟨new, -, hitems, -, -, hreply⟩ := h x []
  apply hreply
  rw [out, hitems, List.map_append, out] at hout
  exact List.map_eq_nil_iff.mp (List.append_right_eq_self.mp hout)

end Emitter

end CodexBridge.Providers
