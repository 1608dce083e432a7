import CodexBridge.Reload.Coverage
import CodexBridge.Layout.RoundTrip
import CodexBridge.SplitTreeEdits
import Mathlib.Logic.Function.Basic

/-! The application of a patch to the windows of a session. A window is the tree of its panes,
each with its agent. New windows are built by their layouts, agents are appended by a chain of
splits that starts at the last pane, and the panes of removed agents are killed one by one. -/

namespace CodexBridge.Reload

open Agents (ProjectConfig WindowSpec)
open Layout (Kind LayoutNode parseLayoutSpec)

/-! ### Panes -/

/-- The panes of a window, without its sidebar. -/
abbrev Panes := SplitTree Kind String

def agentPanes (node : LayoutNode) : Panes := node.map fun leaf => lower leaf.name

/-- The panes of a window by its layout. -/
def windowPanes (window : NamespaceWindowPlan) : Option Panes :=
  match parseLayoutSpec window.userLayout with
  | .ok node => some (agentPanes node)
  | .error _ => none

/-- The windows of a session by their names. -/
abbrev Session := String → Option Panes

def topologySession (topology : NamespaceTopologyPlan) : Session :=
  fun name => (findWindow topology name).bind windowPanes

def Direction.kind : Direction → Kind
  | .right => .horizontal
  | .bottom => .vertical

/-- The splits of a plan and the agents in the new panes. -/
def planChain (plan : List AppendAgentPlan) : List (Kind × String) :=
  plan.map fun append => (append.direction.kind, append.agent)

/-! ### Mutations -/

def createNewWindows (old new : NamespaceTopologyPlan) (session : Session) : Session :=
  (new.filter fun window => window.name ∉ topologyWindows old).foldl
    (fun session window => Function.update session window.name (windowPanes window)) session

/-- The plans of the windows that gain agents, or none if a window has none. -/
def appendAgentWindows (old : NamespaceTopologyPlan) :
    NamespaceTopologyPlan → Option (List (NamespaceWindowPlan × List AppendAgentPlan))
  | [] => some []
  | window :: windows =>
    match findWindow old window.name with
    | none => appendAgentWindows old windows
    | some oldWindow =>
      match appendAgentPlanForWindow oldWindow window with
      | none => none
      | some plan => (appendAgentWindows old windows).map fun found =>
          if plan = [] then found else (oldWindow, plan) :: found

/-- The first pane is split off the one of the last old agent, each other one off the pane
before it. -/
def appendWindowAgentPanes (oldWindow : NamespaceWindowPlan) (plan : List AppendAgentPlan)
    (panes : Panes) : Panes :=
  match oldWindow.agentNames.getLast? with
  | none => panes
  | some anchor => panes.splitChain anchor (planChain plan)

def appendAgentPanes (old new : NamespaceTopologyPlan) (session : Session) : Session :=
  ((appendAgentWindows old new).getD []).foldl
    (fun session found => Function.update session found.1.name
      ((session found.1.name).map (appendWindowAgentPanes found.1 found.2))) session

/-- A window goes with its last pane. -/
def removeWindowAgents (agents : List String) (panes : Option Panes) : Option Panes :=
  agents.foldl (fun panes agent => panes.bind (SplitTree.prune (· ≠ agent))) panes

def removeAgentPanes (old new : NamespaceTopologyPlan) (session : Session) : Session :=
  old.foldl
    (fun session window => Function.update session window.name
      (match findWindow new window.name with
      -- `kill-window` fails in the source if the window, without a sidebar, has gone with its last
      -- pane; here it is the step of the plan, and the window is gone
      | none => none
      | some newWindow => removeWindowAgents (window.agentNames.filter (· ∉ newWindow.agentNames))
          (session window.name))) session

def applyMutations (old new : NamespaceTopologyPlan) (session : Session) : Session :=
  removeAgentPanes old new (appendAgentPanes old new (createNewWindows old new session))

/-! ### Windows one by one -/

section Updates
variable {α : Type} {key : α → String} {f : α → Option Panes → Option Panes}

theorem foldl_update_of_notMem {l : List α} {name : String} (h : name ∉ l.map key)
    (session : Session) :
    l.foldl (fun session x => Function.update session (key x) (f x (session (key x))))
      session name =
      session name := by
  induction l generalizing session with
  | nil => rfl
  | cons x l ih =>
    rw [List.map_cons, List.mem_cons, not_or] at h
    rw [List.foldl_cons, ih h.2, Function.update_of_ne h.1]

/-- Windows of different names are updated independently. -/
theorem foldl_update_of_mem {l : List α} (hnodup : (l.map key).Nodup) {x : α} (hx : x ∈ l)
    (session : Session) :
    l.foldl (fun session x => Function.update session (key x) (f x (session (key x)))) session
      (key x) = f x (session (key x)) := by
  induction l generalizing session with
  | nil => contradiction
  | cons y l ih =>
    rw [List.map_cons, List.nodup_cons] at hnodup
    rw [List.foldl_cons]
    rcases List.mem_cons.mp hx with rfl | hx
    · rw [foldl_update_of_notMem hnodup.1, Function.update_self]
    · have hne : key x ≠ key y := fun heq => hnodup.1 (heq ▸ List.mem_map_of_mem hx)
      rw [ih hnodup.2 hx, Function.update_of_ne hne]

end Updates

variable {old new : NamespaceTopologyPlan} {o w : NamespaceWindowPlan}

theorem createNewWindows_added (hnew : WellNamed new) (hw : w ∈ new)
    (hadded : findWindow old w.name = none) (session : Session) :
    createNewWindows old new session w.name = windowPanes w := by
  have hmem : w ∈ new.filter fun window => window.name ∉ topologyWindows old :=
    List.mem_filter.mpr ⟨hw, decide_eq_true (findWindow_none.mp hadded)⟩
  exact foldl_update_of_mem (f := fun window _ => windowPanes window)
    (hnew.windows.sublist (List.filter_sublist.map _)) hmem session

theorem createNewWindows_other {name : String}
    (h : findWindow old name ≠ none ∨ findWindow new name = none) (session : Session) :
    createNewWindows old new session name = session name := by
  refine foldl_update_of_notMem (f := fun window _ => windowPanes window) (fun hmem => ?_) session
  obtain ⟨window, hwindow, rfl⟩ := List.mem_map.mp hmem
  obtain ⟨hin, hout⟩ := List.mem_filter.mp hwindow
  rcases h with hold | hnone
  · exact hold (findWindow_none.mpr (of_decide_eq_true hout))
  · exact findWindow_none.mp hnone (List.mem_map_of_mem hin)

/-- The plans that are found are those of kept windows that gain agents. -/
theorem appendAgentWindows_some {windows : NamespaceTopologyPlan}
    (h : ∀ w ∈ windows, ∀ o, findWindow old w.name = some o → appendAgentPlanForWindow o w ≠ none) :
    ∃ found, appendAgentWindows old windows = some found ∧
      (found.map fun p => p.1.name).Sublist (topologyWindows windows) ∧
      ∀ p, p ∈ found ↔ ∃ w ∈ windows, findWindow old w.name = some p.1 ∧
        appendAgentPlanForWindow p.1 w = some p.2 ∧ p.2 ≠ [] := by
  induction windows with
  | nil => exact ⟨[], rfl, .slnil, fun p => by simp⟩
  | cons window windows ih =>
    obtain ⟨found, hfound, hnames, hmem⟩ := ih fun w hw => h w (List.mem_cons_of_mem window hw)
    rw [appendAgentWindows]
    cases hold : findWindow old window.name with
    | none =>
      refine ⟨found, hfound, hnames.cons _, fun p => ?_⟩
      simp [hmem, hold]
    | some o =>
      cases hplan : appendAgentPlanForWindow o window with
      | none => exact absurd hplan (h window List.mem_cons_self o hold)
      | some plan =>
        have hname : o.name = window.name := (findWindow_some hold).2
        rw [hfound]
        dsimp only
        rw [hplan]
        dsimp only
        rw [Option.map_some]
        by_cases hnil : plan = []
        · rw [if_pos hnil]
          refine ⟨found, rfl, hnames.cons _, fun p => ?_⟩
          simp only [hmem, List.mem_cons, exists_eq_or_imp]
          refine ⟨.inr, fun hp => hp.resolve_left ?_⟩
          rintro ⟨hp, hpplan, hne⟩
          rw [hold] at hp
          rw [← Option.some.inj hp, hplan] at hpplan
          exact hne (Option.some.inj hpplan ▸ hnil)
        · rw [if_neg hnil]
          refine ⟨(o, plan) :: found, rfl, ?_, fun p => ?_⟩
          · rw [List.map_cons, hname]
            exact hnames.cons_cons _
          · simp only [hmem, List.mem_cons, exists_eq_or_imp]
            refine or_congr_left ⟨?_, ?_⟩
            · rintro rfl
              exact ⟨hold, hplan, hnil⟩
            · rintro ⟨hp, hpplan, -⟩
              rw [hold] at hp
              obtain rfl := Option.some.inj hp
              rw [hplan] at hpplan
              exact Prod.ext (Option.some.inj hp).symm (Option.some.inj hpplan).symm

/-- A window that does not block the plan has a plan of its own. -/
theorem appendAgentPlan_of_unblocked (h : (appendedSteps o w).blocked = []) :
    ∃ plan, appendAgentPlanForWindow o w = some plan := by
  rw [appendedSteps] at h
  split_ifs at h with hsame hlength htake
  · exact ⟨[], if_pos hsame⟩
  · exact ⟨[], by rw [appendAgentPlanForWindow, if_neg hsame, if_pos hlength]⟩
  · cases hplan : appendAgentPlanForWindow o w with
    | none =>
      rw [hplan] at h
      contradiction
    | some plan => exact ⟨plan, rfl⟩

theorem Unblocked.appendAgentPlan (h : Unblocked old new) : ∀ w ∈ new, ∀ o,
    findWindow old w.name = some o → appendAgentPlanForWindow o w ≠ none := by
  intro w hw o ho
  obtain ⟨plan, hplan⟩ := appendAgentPlan_of_unblocked (h.additive w hw o ho)
  rw [hplan]
  exact Option.some_ne_none plan

theorem appendWindowAgentPanes_nil (oldWindow : NamespaceWindowPlan) :
    appendWindowAgentPanes oldWindow [] = id := by
  funext panes
  rw [appendWindowAgentPanes]
  split <;> rfl

theorem appendAgentPanes_kept (hold : WellNamed old) (hnew : WellNamed new) (h : Unblocked old new)
    (ho : o ∈ old) (hw : w ∈ new) (hname : o.name = w.name) {plan : List AppendAgentPlan}
    (hplan : appendAgentPlanForWindow o w = some plan) (session : Session) :
    appendAgentPanes old new session o.name =
      (session o.name).map (appendWindowAgentPanes o plan) := by
  obtain ⟨found, hfound, hnames, hmem⟩ := appendAgentWindows_some h.appendAgentPlan
  have hnodup : (found.map fun p => p.1.name).Nodup := hnew.windows.sublist hnames
  let appended (p : NamespaceWindowPlan × List AppendAgentPlan) (panes : Option Panes) :=
    panes.map (appendWindowAgentPanes p.1 p.2)
  rw [appendAgentPanes, hfound, Option.getD_some]
  by_cases hnil : plan = []
  · subst hnil
    rw [appendWindowAgentPanes_nil, Option.map_id, id]
    refine foldl_update_of_notMem (f := appended) (fun hin => ?_) session
    obtain ⟨p, hp, hpname⟩ := List.mem_map.mp hin
    obtain ⟨w', hw', hp', hplan', hne⟩ := (hmem p).mp hp
    have hpo := (hold.findWindow ho).symm.trans (hpname ▸ hold.findWindow (findWindow_some hp').1)
    have hw'name : w'.name = w.name := ((findWindow_some hp').2.symm.trans hpname).trans hname
    obtain rfl := List.inj_on_of_nodup_map hnew.windows hw' hw hw'name
    rw [← Option.some.inj hpo, hplan] at hplan'
    exact hne (Option.some.inj hplan').symm
  · have hin : (o, plan) ∈ found := (hmem _).mpr ⟨w, hw, hname ▸ hold.findWindow ho, hplan, hnil⟩
    exact foldl_update_of_mem (f := appended) hnodup hin session

theorem appendAgentPanes_other (h : Unblocked old new) {name : String}
    (hnone : findWindow old name = none ∨ findWindow new name = none) (session : Session) :
    appendAgentPanes old new session name = session name := by
  obtain ⟨found, hfound, -, hmem⟩ := appendAgentWindows_some h.appendAgentPlan
  let appended (p : NamespaceWindowPlan × List AppendAgentPlan) (panes : Option Panes) :=
    panes.map (appendWindowAgentPanes p.1 p.2)
  rw [appendAgentPanes, hfound, Option.getD_some]
  refine foldl_update_of_notMem (f := appended) (fun hin => ?_) session
  obtain ⟨p, hp, rfl⟩ := List.mem_map.mp hin
  obtain ⟨w, hw, hp, -, -⟩ := (hmem p).mp hp
  obtain ⟨hpold, hpname⟩ := findWindow_some hp
  rcases hnone with hold | hnew
  · exact findWindow_none.mp hold (List.mem_map_of_mem hpold)
  · refine findWindow_none.mp hnew ?_
    rw [hpname]
    exact List.mem_map_of_mem hw

/-- What happens to a window of the old topology when agents are removed. -/
def removedPanes (new : NamespaceTopologyPlan) (window : NamespaceWindowPlan)
    (panes : Option Panes) : Option Panes :=
  match findWindow new window.name with
  | none => none
  | some newWindow => removeWindowAgents (window.agentNames.filter (· ∉ newWindow.agentNames)) panes

theorem removeAgentPanes_mem (hold : WellNamed old) (ho : o ∈ old) (session : Session) :
    removeAgentPanes old new session o.name = removedPanes new o (session o.name) :=
  foldl_update_of_mem (f := removedPanes new) hold.windows ho session

theorem removeAgentPanes_other {name : String} (hnone : findWindow old name = none)
    (session : Session) : removeAgentPanes old new session name = session name :=
  foldl_update_of_notMem (f := removedPanes new) (findWindow_none.mp hnone) session

/-- The panes of a kept window after the mutations. -/
def keptPanes (o w : NamespaceWindowPlan) : Option Panes :=
  removeWindowAgents (o.agentNames.filter (· ∉ w.agentNames))
    ((windowPanes o).map (appendWindowAgentPanes o ((appendAgentPlanForWindow o w).getD [])))

/-- The windows after the mutations, one by one. -/
theorem applyMutations_eq (hold : WellNamed old) (hnew : WellNamed new) (h : Unblocked old new)
    (name : String) :
    applyMutations old new (topologySession old) name =
      match findWindow old name, findWindow new name with
      | some o, some w => keptPanes o w
      | none, some w => windowPanes w
      | _, none => none := by
  rw [applyMutations]
  cases hfind : findWindow old name with
  | none =>
    rw [removeAgentPanes_other hfind, appendAgentPanes_other h (.inl hfind)]
    cases hfind' : findWindow new name with
    | none =>
      rw [createNewWindows_other (.inr hfind'), topologySession, hfind]
      rfl
    | some w =>
      obtain ⟨hw, rfl⟩ := findWindow_some hfind'
      exact createNewWindows_added hnew hw hfind _
  | some o =>
    obtain ⟨ho, rfl⟩ := findWindow_some hfind
    rw [removeAgentPanes_mem hold ho, removedPanes]
    cases hfind' : findWindow new o.name with
    | none => rfl
    | some w =>
      obtain ⟨hw, hname⟩ := findWindow_some hfind'
      obtain ⟨plan, hplan⟩ := appendAgentPlan_of_unblocked
        (h.additive w hw o (hname ▸ hold.findWindow ho))
      have hkept : findWindow old o.name ≠ none ∨ findWindow new o.name = none :=
        .inl (by rw [hfind]; exact Option.some_ne_none o)
      dsimp only
      rw [appendAgentPanes_kept hold hnew h ho hw hname.symm hplan, createNewWindows_other hkept,
        topologySession, hfind, keptPanes, hplan]
      rfl

end CodexBridge.Reload
