import CodexBridge.Reload.Patch
import Mathlib.Data.List.Nodup
import Mathlib.Data.List.Perm.Lattice

/-! A planned patch covers the difference of two configurations. Its steps create the pairs of
windows and agents that only the new one has and kill those that only the old one has, each
once, and they create and kill the windows alike. -/

namespace CodexBridge.Reload

open Agents (ProjectConfig WindowSpec)

variable {old new : NamespaceTopologyPlan} {o w : NamespaceWindowPlan}

/-! ### Windows by name -/

/-- The names of the windows differ, and so do the agents of each. -/
structure WellNamed (topology : NamespaceTopologyPlan) : Prop where
  windows : (topologyWindows topology).Nodup
  agents : ∀ window ∈ topology, window.agentNames.Nodup

theorem wellNamed_topology (config : ProjectConfig) :
    WellNamed (buildNamespaceTopologyPlan config) := by
  constructor
  · have h := config.windows_nodup
    rwa [topologyWindows, buildNamespaceTopologyPlan, List.map_map]
  · intro window hwindow
    obtain ⟨spec, -, rfl⟩ := List.mem_map.mp hwindow
    exact spec.agents_nodup

theorem findWindow_some {topology : NamespaceTopologyPlan} {name : String}
    (h : findWindow topology name = some w) : w ∈ topology ∧ w.name = name := by
  refine ⟨List.mem_of_find?_eq_some h, ?_⟩
  simpa using List.find?_some h

theorem findWindow_none {topology : NamespaceTopologyPlan} {name : String} :
    findWindow topology name = none ↔ name ∉ topologyWindows topology := by
  simp [findWindow, topologyWindows]

theorem WellNamed.findWindow {topology : NamespaceTopologyPlan} (h : WellNamed topology)
    (hw : w ∈ topology) : findWindow topology w.name = some w := by
  cases hfind : Reload.findWindow topology w.name with
  | none => exact absurd (List.mem_map_of_mem hw) (findWindow_none.mp hfind)
  | some w' =>
    obtain ⟨hmem, hname⟩ := findWindow_some hfind
    exact congrArg some (List.inj_on_of_nodup_map h.windows hmem hw hname)

theorem mem_agentWindowPairs {topology : NamespaceTopologyPlan} {p : String × String} :
    p ∈ agentWindowPairs topology ↔ ∃ w ∈ topology, w.name = p.1 ∧ p.2 ∈ w.agentNames := by
  simp only [agentWindowPairs, List.mem_flatMap, List.mem_map]
  constructor
  · rintro ⟨w, hw, a, ha, rfl⟩
    exact ⟨w, hw, rfl, ha⟩
  · rintro ⟨w, hw, hname, ha⟩
    exact ⟨w, hw, p.2, ha, Prod.ext hname rfl⟩

theorem WellNamed.mem_agentWindowPairs {topology : NamespaceTopologyPlan} (h : WellNamed topology)
    (hw : w ∈ topology) {a : String} :
    (w.name, a) ∈ agentWindowPairs topology ↔ a ∈ w.agentNames := by
  rw [Reload.mem_agentWindowPairs]
  constructor
  · rintro ⟨w', hw', hname, ha⟩
    obtain rfl := List.inj_on_of_nodup_map h.windows hw' hw hname
    exact ha
  · exact fun ha => ⟨w, hw, rfl, ha⟩

/-! ### Differences -/

/-- The agents of a window that are in no window of that name in another topology. -/
def agentsOutside (others : NamespaceTopologyPlan) (window : NamespaceWindowPlan) : List String :=
  match findWindow others window.name with
  | none => window.agentNames
  | some other => window.agentNames.filter (· ∉ other.agentNames)

/-- The pairs of a topology that are not in another. -/
def pairsOutside (topology others : NamespaceTopologyPlan) : List (String × String) :=
  topology.flatMap fun window => (agentsOutside others window).map fun agent => (window.name, agent)

def windowsOutside (topology others : NamespaceTopologyPlan) : List String :=
  (topology.filter fun window => window.name ∉ topologyWindows others).map NamespaceWindowPlan.name

theorem mem_agentsOutside {others : NamespaceTopologyPlan} (h : WellNamed others) {a : String} :
    a ∈ agentsOutside others w ↔ a ∈ w.agentNames ∧ (w.name, a) ∉ agentWindowPairs others := by
  rw [agentsOutside]
  cases hfind : findWindow others w.name with
  | none =>
    refine ⟨fun ha => ⟨ha, fun hpair => ?_⟩, And.left⟩
    obtain ⟨w', hw', hname, -⟩ := mem_agentWindowPairs.mp hpair
    exact findWindow_none.mp hfind (List.mem_map.mpr ⟨w', hw', hname⟩)
  | some other =>
    obtain ⟨hmem, hname⟩ := findWindow_some hfind
    rw [← hname, h.mem_agentWindowPairs hmem]
    simp

theorem mem_pairsOutside {topology others : NamespaceTopologyPlan} (h : WellNamed others)
    {p : String × String} :
    p ∈ pairsOutside topology others ↔
      p ∈ agentWindowPairs topology ∧ p ∉ agentWindowPairs others := by
  rw [mem_agentWindowPairs]
  simp only [pairsOutside, List.mem_flatMap, List.mem_map, mem_agentsOutside h]
  constructor
  · rintro ⟨w, hw, a, ⟨ha, hnot⟩, rfl⟩
    exact ⟨⟨w, hw, rfl, ha⟩, hnot⟩
  · rintro ⟨⟨w, hw, hname, ha⟩, hnot⟩
    have hp : (w.name, p.2) = p := Prod.ext hname rfl
    exact ⟨w, hw, p.2, ⟨ha, hp.symm ▸ hnot⟩, hp⟩

theorem agentsOutside_nodup {topology others : NamespaceTopologyPlan} (h : WellNamed topology)
    (hw : w ∈ topology) : (agentsOutside others w).Nodup := by
  rw [agentsOutside]
  split
  · exact h.agents w hw
  · exact (h.agents w hw).filter _

theorem pairsOutside_nodup {topology others : NamespaceTopologyPlan} (h : WellNamed topology) :
    (pairsOutside topology others).Nodup := by
  rw [pairsOutside, List.nodup_flatMap]
  constructor
  · intro w hw
    exact (agentsOutside_nodup h hw).map fun a b hab => (Prod.mk.inj hab).2
  · refine (List.pairwise_map.mp h.windows).imp fun {w w'} hne p hp hp' => ?_
    obtain ⟨a, -, rfl⟩ := List.mem_map.mp hp
    obtain ⟨b, -, heq⟩ := List.mem_map.mp hp'
    exact hne (Prod.mk.inj heq).1.symm

theorem mem_windowsOutside {topology others : NamespaceTopologyPlan} {name : String} :
    name ∈ windowsOutside topology others ↔
      name ∈ topologyWindows topology ∧ name ∉ topologyWindows others := by
  simp only [windowsOutside, topologyWindows, List.mem_map, List.mem_filter, decide_eq_true_eq]
  constructor
  · rintro ⟨w, ⟨hw, hnot⟩, rfl⟩
    exact ⟨⟨w, hw, rfl⟩, hnot⟩
  · rintro ⟨⟨w, hw, rfl⟩, hnot⟩
    exact ⟨w, ⟨hw, hnot⟩, rfl⟩

theorem windowsOutside_nodup {topology others : NamespaceTopologyPlan} (h : WellNamed topology) :
    (windowsOutside topology others).Nodup :=
  h.windows.sublist (List.filter_sublist.map _)

/-! ### Planned targets -/

/-- The pairs of windows and agents on which the steps of an action work. -/
def plannedAgentTargets (action : StepAction) (steps : List NamespacePatchStep) :
    List (String × String) :=
  steps.filterMap fun step =>
    if step.action = action then some (step.window.getD "", step.agent.getD "") else none

/-- The windows on which the steps of an action work. -/
def plannedWindows (action : StepAction) (steps : List NamespacePatchStep) : List String :=
  steps.filterMap fun step => if step.action = action then some (step.window.getD "") else none

theorem plannedAgentTargets_append (action : StepAction) (steps steps' : List NamespacePatchStep) :
    plannedAgentTargets action (steps ++ steps') =
      plannedAgentTargets action steps ++ plannedAgentTargets action steps' :=
  List.filterMap_append

theorem plannedWindows_append (action : StepAction) (steps steps' : List NamespacePatchStep) :
    plannedWindows action (steps ++ steps') =
      plannedWindows action steps ++ plannedWindows action steps' :=
  List.filterMap_append

theorem plannedAgentTargets_flatMap {α : Type} (action : StepAction) (l : List α)
    (f : α → List NamespacePatchStep) :
    plannedAgentTargets action (l.flatMap f) = l.flatMap fun x =>
      plannedAgentTargets action (f x) :=
  List.filterMap_flatMap

theorem plannedWindows_flatMap {α : Type} (action : StepAction) (l : List α)
    (f : α → List NamespacePatchStep) :
    plannedWindows action (l.flatMap f) = l.flatMap fun x => plannedWindows action (f x) :=
  List.filterMap_flatMap

theorem plannedAgentTargets_panes (action : StepAction) (window : String) (anchor : Option String)
    (reason : String) (agents : List String) :
    plannedAgentTargets action
        (agents.map fun agent => agentPaneStep action window agent anchor reason) =
      agents.map fun agent => (window, agent) := by
  rw [plannedAgentTargets, List.filterMap_map, ← List.filterMap_eq_map]
  exact List.filterMap_congr fun agent _ => if_pos rfl

theorem plannedAgentTargets_nil {action : StepAction} {steps : List NamespacePatchStep}
    (h : ∀ step ∈ steps, step.action ≠ action) : plannedAgentTargets action steps = [] :=
  List.filterMap_eq_nil_iff.mpr fun step hstep => if_neg (h step hstep)

theorem plannedWindows_nil {action : StepAction} {steps : List NamespacePatchStep}
    (h : ∀ step ∈ steps, step.action ≠ action) : plannedWindows action steps = [] :=
  List.filterMap_eq_nil_iff.mpr fun step hstep => if_neg (h step hstep)

/-! ### Kept windows -/

theorem appendSteps_mem {window : String} {anchor : Option String} {plan : List AppendAgentPlan}
    {step : NamespacePatchStep} (h : step ∈ appendSteps window anchor plan) :
    ∃ agent anchor, step = agentPaneStep .createAgentPane window agent anchor
      "new agent appended to existing managed window" := by
  induction plan generalizing anchor with
  | nil => contradiction
  | cons append plan ih =>
    rcases List.mem_cons.mp h with rfl | htail
    · exact ⟨_, _, rfl⟩
    · exact ih htail

theorem plannedAgentTargets_appendSteps (window : String) (anchor : Option String)
    (plan : List AppendAgentPlan) :
    plannedAgentTargets .createAgentPane (appendSteps window anchor plan) =
      plan.map fun append => (window, append.agent) := by
  induction plan generalizing anchor with
  | nil => rfl
  | cons append plan ih => exact congrArg ((window, append.agent) :: ·) (ih _)

theorem appendAgentPlanForWindow_agents {plan : List AppendAgentPlan}
    (hne : o.agentNames ≠ w.agentNames) (hlength : ¬ w.agentNames.length < o.agentNames.length)
    (h : appendAgentPlanForWindow o w = some plan) :
    plan.map AppendAgentPlan.agent = w.agentNames.drop o.agentNames.length := by
  rw [appendAgentPlanForWindow, if_neg hne, if_neg hlength] at h
  split_ifs at h
  cases hplan : rightmostLeafAppendPlan o w with
  | none =>
    rw [hplan] at h
    contradiction
  | some found =>
    rw [hplan] at h
    dsimp only at h
    split_ifs at h with hagents
    obtain rfl := Option.some.inj h
    exact not_not.mp hagents

theorem filter_append_not_mem {l l' : List String} (h : (l ++ l').Nodup) :
    (l ++ l').filter (· ∉ l) = l' := by
  have hdisjoint := (List.nodup_append.mp h).2.2
  rw [List.filter_append, List.filter_eq_nil_iff.mpr, List.nil_append, List.filter_eq_self.mpr]
  · intro a ha
    exact decide_eq_true fun hl => hdisjoint a hl a ha rfl
  · intro a ha
    simp [ha]

/-- The steps of a kept window that is not blocked create the agents that it gains. -/
theorem appendedSteps_targets (hold : o.agentNames.Nodup) (hnew : w.agentNames.Nodup)
    (happend : (appendedSteps o w).blocked = []) (hremove : (removedAgentSteps o w).blocked = []) :
    plannedAgentTargets .createAgentPane (appendedSteps o w).steps =
      (w.agentNames.filter (· ∉ o.agentNames)).map fun agent => (w.name, agent) := by
  have hnil (hsubset : w.agentNames ⊆ o.agentNames) : w.agentNames.filter (· ∉ o.agentNames) = [] :=
    List.filter_eq_nil_iff.mpr fun a ha => by simpa using hsubset ha
  by_cases hsame : o.agentNames = w.agentNames
  · rw [appendedSteps, if_pos hsame, hnil fun a ha => hsame ▸ ha]
    rfl
  · by_cases hlength : w.agentNames.length < o.agentNames.length
    · -- An agent is lost, so the ones that stay are all there are.
      have hsubset : w.agentNames ⊆ o.agentNames := by
        rw [removedAgentSteps] at hremove
        split at hremove
        · rename_i hlost
          have hincluded : o.agentNames ⊆ w.agentNames := by
            intro a ha
            simpa using List.filter_eq_nil_iff.mp hlost a ha
          have := (List.subperm_of_subset hold hincluded).length_le
          omega
        · split_ifs at hremove with hkept
          rw [← not_not.mp hkept]
          exact List.filter_subset_self _
      rw [appendedSteps, if_neg hsame, if_pos hlength, hnil hsubset]
      rfl
    · rw [appendedSteps, if_neg hsame, if_neg hlength] at happend ⊢
      split_ifs at happend ⊢ with htake
      obtain hstart := not_not.mp htake
      cases hplan : appendAgentPlanForWindow o w with
      | none =>
        rw [hplan] at happend
        contradiction
      | some plan =>
        have hagents := appendAgentPlanForWindow_agents hsame hlength hplan
        have hsplit : w.agentNames = o.agentNames ++ w.agentNames.drop o.agentNames.length := by
          conv_lhs => rw [← List.take_append_drop o.agentNames.length w.agentNames, hstart]
        have hgained : w.agentNames.filter (· ∉ o.agentNames) =
            w.agentNames.drop o.agentNames.length := by
          conv_lhs => rw [hsplit]
          exact filter_append_not_mem (hsplit ▸ hnew)
        dsimp only
        rw [plannedAgentTargets_appendSteps, hgained, ← hagents, List.map_map]
        rfl

/-- The steps of a kept window that is not blocked kill the agents that it loses. -/
theorem removedAgentSteps_targets (hremove : (removedAgentSteps o w).blocked = []) :
    plannedAgentTargets .killAgentPane (removedAgentSteps o w).steps =
      (o.agentNames.filter (· ∉ w.agentNames)).map fun agent => (o.name, agent) := by
  rw [removedAgentSteps] at hremove ⊢
  split at hremove
  · rename_i hlost
    rw [hlost]
    rfl
  · rename_i removed hlost
    split_ifs at hremove with hkept
    rw [if_neg hkept]
    exact plannedAgentTargets_panes ..

theorem removeWindowSteps_targets (hremove : (removeWindowSteps o).blocked = []) :
    plannedAgentTargets .killAgentPane (removeWindowSteps o).steps =
        o.agentNames.map (fun agent => (o.name, agent)) ∧
      plannedWindows .killWindow (removeWindowSteps o).steps = [o.name] := by
  rw [removeWindowSteps] at hremove ⊢
  split at hremove
  · contradiction
  · rename_i removed hnil
    constructor
    · rw [plannedAgentTargets_append, plannedAgentTargets_panes]
      exact List.append_nil _
    · rw [plannedWindows_append, plannedWindows_nil]
      · rfl
      · intro step hstep
        obtain ⟨agent, -, rfl⟩ := List.mem_map.mp hstep
        exact nofun

/-! ### All windows -/

theorem appendedSteps_mem {step : NamespacePatchStep} (h : step ∈ (appendedSteps o w).steps) :
    step.action = .createAgentPane := by
  rw [appendedSteps] at h
  split_ifs at h with hsame hlength htake
  · contradiction
  · contradiction
  · contradiction
  · split at h
    · contradiction
    · obtain ⟨agent, anchor, rfl⟩ := appendSteps_mem h
      rfl

theorem removedAgentSteps_mem {step : NamespacePatchStep}
    (h : step ∈ (removedAgentSteps o w).steps) : step.action = .killAgentPane := by
  rw [removedAgentSteps] at h
  split at h
  · contradiction
  · split_ifs at h with hkept
    · contradiction
    · obtain ⟨agent, -, rfl⟩ := List.mem_map.mp h
      rfl

theorem removeWindowSteps_mem {step : NamespacePatchStep} (h : step ∈ (removeWindowSteps o).steps) :
    step.action = .killAgentPane ∨ step = windowStep .killWindow o.name
      "window exists only in current published config" := by
  rw [removeWindowSteps] at h
  split at h
  · contradiction
  · rcases List.mem_append.mp h with hpane | hwindow
    · obtain ⟨agent, -, rfl⟩ := List.mem_map.mp hpane
      exact .inl rfl
    · exact .inr (List.mem_singleton.mp hwindow)

theorem additiveWindowSteps_mem {step : NamespacePatchStep}
    (h : step ∈ additiveWindowSteps old new) :
    step.action = .createAgentPane ∨ step.agent = none ∧ step.action ≠ .killAgentPane ∧
      step.action ≠ .killWindow := by
  obtain ⟨window, -, hstep⟩ := List.mem_flatMap.mp h
  rcases List.mem_cons.mp hstep with rfl | hstep
  · exact .inr ⟨rfl, nofun, nofun⟩
  · rcases List.mem_append.mp hstep with hsidebar | hpane
    · split_ifs at hsidebar
      · rw [List.mem_singleton.mp hsidebar]
        exact .inr ⟨rfl, nofun, nofun⟩
      · contradiction
    · obtain ⟨agent, -, rfl⟩ := List.mem_map.mp hpane
      exact .inl rfl

section Sums
variable {α β γ : Type}

theorem flatMap_filterMap (f : α → Option β) (g : β → List γ) (l : List α) :
    (l.filterMap f).flatMap g = l.flatMap fun x => ((f x).map g).getD [] := by
  induction l with
  | nil => rfl
  | cons x l ih =>
    cases hx : f x with
    | none => rw [List.filterMap_cons_none hx, List.flatMap_cons, hx, ih]; rfl
    | some y => rw [List.filterMap_cons_some hx, List.flatMap_cons, List.flatMap_cons, hx, ih]; rfl

theorem flatMap_filter (p : α → Bool) (g : α → List γ) (l : List α) :
    (l.filter p).flatMap g = l.flatMap fun x => if p x then g x else [] := by
  induction l with
  | nil => rfl
  | cons x l ih =>
    cases hx : p x with
    | false => rw [List.filter_cons_of_neg (by simp [hx]), List.flatMap_cons, hx, ih]; rfl
    | true => rw [List.filter_cons_of_pos hx, List.flatMap_cons, List.flatMap_cons, hx, ih]; rfl

end Sums

theorem plannedAgentTargets_additiveWindowSteps (old new : NamespaceTopologyPlan) :
    plannedAgentTargets .createAgentPane (additiveWindowSteps old new) = new.flatMap fun window =>
      if window.name ∉ topologyWindows old then window.agentNames.map (window.name, ·) else [] := by
  rw [additiveWindowSteps, plannedAgentTargets_flatMap, flatMap_filter]
  refine List.flatMap_congr fun window _ => ?_
  by_cases hold : window.name ∉ topologyWindows old
  · rw [if_pos (decide_eq_true hold), if_pos hold, ← List.singleton_append,
      plannedAgentTargets_append,
      plannedAgentTargets_append, plannedAgentTargets_panes, plannedAgentTargets_nil,
      plannedAgentTargets_nil]
    · rfl
    · intro step hstep
      split_ifs at hstep
      · rw [List.mem_singleton.mp hstep]
        exact nofun
      · contradiction
    · intro step hstep
      rw [List.mem_singleton.mp hstep]
      exact nofun
  · rw [if_neg (by simpa using hold), if_neg hold]

theorem plannedWindows_additiveWindowSteps (old new : NamespaceTopologyPlan) :
    plannedWindows .createWindow (additiveWindowSteps old new) = windowsOutside new old := by
  rw [additiveWindowSteps, plannedWindows_flatMap, windowsOutside]
  rw [← List.flatMap_singleton' (List.map _ _), List.flatMap_map]
  refine List.flatMap_congr fun window _ => ?_
  refine congrArg (window.name :: ·) (plannedWindows_nil fun step hstep => ?_)
  rcases List.mem_append.mp hstep with hsidebar | hpane
  · split_ifs at hsidebar
    · rw [List.mem_singleton.mp hsidebar]
      exact nofun
    · contradiction
  · obtain ⟨agent, -, rfl⟩ := List.mem_map.mp hpane
    exact nofun

/-! ### Unblocked topologies -/

/-- No window of the topologies blocks the plan. -/
structure Unblocked (old new : NamespaceTopologyPlan) : Prop where
  additive : ∀ w ∈ new, ∀ o, findWindow old w.name = some o → (appendedSteps o w).blocked = []
  kept : ∀ o ∈ old, ∀ w, findWindow new o.name = some w → (removedAgentSteps o w).blocked = []
  removed : ∀ o ∈ old, findWindow new o.name = none → (removeWindowSteps o).blocked = []

theorem unblocked_of_topologySteps {operations : List Operation}
    (h : (topologySteps operations old new).blocked = []) : Unblocked old new := by
  simp only [topologySteps, List.append_eq_nil_iff, List.flatMap_eq_nil_iff] at h
  obtain ⟨⟨⟨hadditive, hremove⟩, -⟩, -⟩ := h
  refine ⟨fun w hw o ho => ?_, fun o ho w hw => ?_, fun o ho hnone => ?_⟩
  · refine hadditive _ (List.mem_filterMap.mpr ⟨w, hw, ?_⟩)
    rw [ho]
    rfl
  · have := hremove _ (List.mem_map_of_mem ho)
    rwa [hw] at this
  · have := hremove _ (List.mem_map_of_mem ho)
    rwa [hnone] at this

/-- The pairs created in kept and in added windows are those of the new topology only. -/
theorem created_perm (hold : WellNamed old) (hnew : WellNamed new) (h : Unblocked old new) :
    (plannedAgentTargets .createAgentPane (additiveWindowSteps old new) ++
      plannedAgentTargets .createAgentPane
        ((additiveAgentSteps old new).flatMap WindowSteps.steps)).Perm (pairsOutside new old) := by
  rw [plannedAgentTargets_additiveWindowSteps, additiveAgentSteps, flatMap_filterMap,
    plannedAgentTargets_flatMap, pairsOutside]
  refine (List.flatMap_append_perm ..).trans (List.Perm.of_eq ?_)
  refine List.flatMap_congr fun w hw => ?_
  cases hfind : findWindow old w.name with
  | none =>
    rw [if_pos (findWindow_none.mp hfind), agentsOutside, hfind]
    exact List.append_nil _
  | some o =>
    obtain ⟨ho, hname⟩ := findWindow_some hfind
    have hin : ¬ w.name ∉ topologyWindows old := by
      rw [← findWindow_none, hfind]
      exact nofun
    have hback : findWindow new o.name = some w := by
      rw [hname]
      exact hnew.findWindow hw
    rw [if_neg hin, agentsOutside, hfind, List.nil_append]
    exact appendedSteps_targets (hold.agents o ho) (hnew.agents w hw) (h.additive w hw o hfind)
      (h.kept o ho w hback)

theorem killed_eq (h : Unblocked old new) :
    plannedAgentTargets .killAgentPane ((removeAgentSteps old new).flatMap WindowSteps.steps) =
      pairsOutside old new := by
  rw [removeAgentSteps, List.flatMap_map, plannedAgentTargets_flatMap, pairsOutside]
  refine List.flatMap_congr fun o ho => ?_
  cases hfind : findWindow new o.name with
  | none =>
    rw [agentsOutside, hfind]
    exact (removeWindowSteps_targets (h.removed o ho hfind)).1
  | some w =>
    rw [agentsOutside, hfind]
    exact removedAgentSteps_targets (h.kept o ho w hfind)

theorem killedWindows_eq (h : Unblocked old new) :
    plannedWindows .killWindow ((removeAgentSteps old new).flatMap WindowSteps.steps) =
      windowsOutside old new := by
  rw [removeAgentSteps, List.flatMap_map, plannedWindows_flatMap, windowsOutside]
  rw [← List.flatMap_singleton' (List.map _ _), List.flatMap_map, flatMap_filter]
  refine List.flatMap_congr fun o ho => ?_
  cases hfind : findWindow new o.name with
  | none =>
    rw [if_pos (decide_eq_true (findWindow_none.mp hfind))]
    exact (removeWindowSteps_targets (h.removed o ho hfind)).2
  | some w =>
    have hin : ¬ o.name ∉ topologyWindows new := by
      rw [← findWindow_none, hfind]
      exact nofun
    rw [if_neg (by simpa using hin)]
    refine plannedWindows_nil fun step hstep => ?_
    rw [removedAgentSteps_mem hstep]
    exact nofun

/-! ### Coverage -/

theorem viewOnlySteps_mem {operations : List Operation} {step : NamespacePatchStep}
    (h : step ∈ viewOnlySteps operations) :
    step.action = .refreshProjectView ∧ step.agent = none := by
  rw [viewOnlySteps] at h
  split_ifs at h
  · rw [List.mem_singleton.mp h]
    exact ⟨rfl, rfl⟩
  · contradiction

theorem additiveAgentSteps_mem {step : NamespacePatchStep}
    (h : step ∈ (additiveAgentSteps old new).flatMap WindowSteps.steps) :
    step.action = .createAgentPane := by
  obtain ⟨steps, hsteps, hstep⟩ := List.mem_flatMap.mp h
  obtain ⟨w, -, hw⟩ := List.mem_filterMap.mp hsteps
  obtain ⟨o, -, rfl⟩ := Option.map_eq_some_iff.mp hw
  exact appendedSteps_mem hstep

theorem removeAgentSteps_mem {step : NamespacePatchStep}
    (h : step ∈ (removeAgentSteps old new).flatMap WindowSteps.steps) :
    step.action = .killAgentPane ∨ step.action = .killWindow ∧ step.agent = none := by
  obtain ⟨steps, hsteps, hstep⟩ := List.mem_flatMap.mp h
  obtain ⟨o, -, rfl⟩ := List.mem_map.mp hsteps
  split at hstep
  · obtain hkill | rfl := removeWindowSteps_mem hstep
    · exact .inl hkill
    · exact .inr ⟨rfl, rfl⟩
  · exact .inl (removedAgentSteps_mem hstep)

/-- What the steps of a plan cover. -/
structure Covers (old new : NamespaceTopologyPlan) (steps : List NamespacePatchStep) : Prop where
  created_nodup : (plannedAgentTargets .createAgentPane steps).Nodup
  created : ∀ p, p ∈ plannedAgentTargets .createAgentPane steps ↔
    p ∈ agentWindowPairs new ∧ p ∉ agentWindowPairs old
  killed_nodup : (plannedAgentTargets .killAgentPane steps).Nodup
  killed : ∀ p, p ∈ plannedAgentTargets .killAgentPane steps ↔
    p ∈ agentWindowPairs old ∧ p ∉ agentWindowPairs new
  createdWindows_nodup : (plannedWindows .createWindow steps).Nodup
  createdWindows : ∀ name, name ∈ plannedWindows .createWindow steps ↔
    name ∈ topologyWindows new ∧ name ∉ topologyWindows old
  killedWindows_nodup : (plannedWindows .killWindow steps).Nodup
  killedWindows : ∀ name, name ∈ plannedWindows .killWindow steps ↔
    name ∈ topologyWindows old ∧ name ∉ topologyWindows new
  preserved : ∀ step ∈ steps, ∀ window agent, step.window = some window →
    step.agent = some agent →
    ¬ ((window, agent) ∈ agentWindowPairs old ∧ (window, agent) ∈ agentWindowPairs new)

/-- The steps of a plan, apart from those that only refresh the view. -/
theorem topologySteps_targets (operations : List Operation) (hold : WellNamed old)
    (hnew : WellNamed new) (h : Unblocked old new) :
    (plannedAgentTargets .createAgentPane (topologySteps operations old new).steps).Perm
        (pairsOutside new old) ∧
      plannedAgentTargets .killAgentPane (topologySteps operations old new).steps =
        pairsOutside old new := by
  have hview (action : StepAction) (haction : action ≠ .refreshProjectView) :
      plannedAgentTargets action (viewOnlySteps operations) = [] :=
    plannedAgentTargets_nil fun step hstep heq =>
      haction (heq.symm.trans (viewOnlySteps_mem hstep).1)
  have hremove : plannedAgentTargets .createAgentPane
      ((removeAgentSteps old new).flatMap WindowSteps.steps) = [] := by
    refine plannedAgentTargets_nil fun step hstep heq => ?_
    obtain hkill | ⟨hkill, -⟩ := removeAgentSteps_mem hstep
    · exact nomatch heq.symm.trans hkill
    · exact nomatch heq.symm.trans hkill
  have hadded : plannedAgentTargets .killAgentPane
      ((additiveAgentSteps old new).flatMap WindowSteps.steps) = [] :=
    plannedAgentTargets_nil fun step hstep heq =>
      nomatch heq.symm.trans (additiveAgentSteps_mem hstep)
  have hwindows : plannedAgentTargets .killAgentPane (additiveWindowSteps old new) = [] := by
    refine plannedAgentTargets_nil fun step hstep heq => ?_
    obtain hcreate | ⟨-, hkill, -⟩ := additiveWindowSteps_mem hstep
    · exact nomatch heq.symm.trans hcreate
    · exact hkill heq
  simp only [topologySteps, plannedAgentTargets_append]
  rw [hview .createAgentPane nofun, hview .killAgentPane nofun, hremove, hadded, hwindows,
    killed_eq h, List.append_nil]
  exact ⟨created_perm hold hnew h, rfl⟩

theorem topologySteps_windows (operations : List Operation) (h : Unblocked old new) :
    plannedWindows .createWindow (topologySteps operations old new).steps = windowsOutside new old ∧
      plannedWindows .killWindow (topologySteps operations old new).steps =
        windowsOutside old new := by
  have hview (action : StepAction) (haction : action ≠ .refreshProjectView) :
      plannedWindows action (viewOnlySteps operations) = [] :=
    plannedWindows_nil fun step hstep heq => haction (heq.symm.trans (viewOnlySteps_mem hstep).1)
  have hremove : plannedWindows .createWindow
      ((removeAgentSteps old new).flatMap WindowSteps.steps) = [] := by
    refine plannedWindows_nil fun step hstep heq => ?_
    obtain hkill | ⟨hkill, -⟩ := removeAgentSteps_mem hstep
    · exact nomatch heq.symm.trans hkill
    · exact nomatch heq.symm.trans hkill
  have hadded (action : StepAction) (haction : action ≠ .createAgentPane) :
      plannedWindows action ((additiveAgentSteps old new).flatMap WindowSteps.steps) = [] :=
    plannedWindows_nil fun step hstep heq =>
      haction (heq.symm.trans (additiveAgentSteps_mem hstep))
  have hwindows : plannedWindows .killWindow (additiveWindowSteps old new) = [] := by
    refine plannedWindows_nil fun step hstep heq => ?_
    obtain hcreate | ⟨-, -, hkill⟩ := additiveWindowSteps_mem hstep
    · exact nomatch heq.symm.trans hcreate
    · exact hkill heq
  simp only [topologySteps, plannedWindows_append]
  rw [hview .createWindow nofun, hview .killWindow nofun, hremove, hadded .createWindow nofun,
    hadded .killWindow nofun, hwindows, killedWindows_eq h, plannedWindows_additiveWindowSteps]
  exact ⟨by simp, rfl⟩

/-- A step that works on an agent creates or kills its pane. -/
theorem topologySteps_mem {operations : List Operation} {step : NamespacePatchStep}
    (h : step ∈ (topologySteps operations old new).steps) :
    step.agent = none ∨ step.action = .createAgentPane ∨ step.action = .killAgentPane := by
  simp only [topologySteps, List.mem_append] at h
  obtain ((hview | hwindow) | hadded) | hremove := h
  · exact .inl (viewOnlySteps_mem hview).2
  · exact (additiveWindowSteps_mem hwindow).elim (fun hcreate => .inr (.inl hcreate))
      fun hnone => .inl hnone.1
  · exact .inr (.inl (additiveAgentSteps_mem hadded))
  · exact (removeAgentSteps_mem hremove).elim (fun hkill => .inr (.inr hkill))
      fun hnone => .inl hnone.2

theorem mem_plannedAgentTargets {step : NamespacePatchStep} {steps : List NamespacePatchStep}
    {window agent : String} (h : step ∈ steps) (hwindow : step.window = some window)
    (hagent : step.agent = some agent) :
    (window, agent) ∈ plannedAgentTargets step.action steps := by
  refine List.mem_filterMap.mpr ⟨step, h, ?_⟩
  rw [if_pos rfl, hwindow, hagent]
  rfl

theorem topologySteps_covers (operations : List Operation) (hold : WellNamed old)
    (hnew : WellNamed new) (h : Unblocked old new) :
    Covers old new (topologySteps operations old new).steps := by
  obtain ⟨hcreated, hkilled⟩ := topologySteps_targets operations hold hnew h
  obtain ⟨hcreate, hkill⟩ := topologySteps_windows operations h
  have hcreatedMem : ∀ p, p ∈ plannedAgentTargets .createAgentPane
      (topologySteps operations old new).steps ↔
        p ∈ agentWindowPairs new ∧ p ∉ agentWindowPairs old :=
    fun p => hcreated.mem_iff.trans (mem_pairsOutside hold)
  have hkilledMem : ∀ p, p ∈ plannedAgentTargets .killAgentPane
      (topologySteps operations old new).steps ↔
        p ∈ agentWindowPairs old ∧ p ∉ agentWindowPairs new := by
    intro p
    rw [hkilled]
    exact mem_pairsOutside hnew
  refine ⟨hcreated.nodup_iff.mpr (pairsOutside_nodup hnew), hcreatedMem, ?_, hkilledMem, ?_,
    ?_, ?_, ?_,
    ?_⟩
  · rw [hkilled]
    exact pairsOutside_nodup hold
  · rw [hcreate]
    exact windowsOutside_nodup hnew
  · intro name
    rw [hcreate]
    exact mem_windowsOutside
  · rw [hkill]
    exact windowsOutside_nodup hold
  · intro name
    rw [hkill]
    exact mem_windowsOutside
  · rintro step hstep window agent hwindow hagent ⟨hinOld, hinNew⟩
    have htarget := mem_plannedAgentTargets hstep hwindow hagent
    obtain hnone | haction | haction := topologySteps_mem hstep
    · rw [hnone] at hagent
      contradiction
    · rw [haction] at htarget
      exact ((hcreatedMem _).mp htarget).2 hinOld
    · rw [haction] at htarget
      exact ((hkilledMem _).mp htarget).2 hinNew

theorem buildNamespacePatchPlan_cases (current new : ProjectConfig) (operations : List Operation)
    (projectId : Option String) (currentNamespace : Option Namespace) :
    ∃ scope preserved planned,
      buildNamespacePatchPlan current new operations projectId currentNamespace =
        patchPlan scope preserved planned ∧
      (planned.blocked ≠ [] ∨ planned = topologySteps operations
        (buildNamespaceTopologyPlan current) (buildNamespaceTopologyPlan new)) := by
  unfold buildNamespacePatchPlan
  dsimp only
  split
  · exact ⟨_, _, _, rfl, .inr rfl⟩
  · rename_i blocked hblocked
    exact ⟨_, _, _, rfl, .inl hblocked⟩

/-- A plan that is not planned is not applied. -/
theorem applyReloadPatch_of_not_planned {plan : NamespacePatchPlan} (h : plan.status ≠ .planned)
    {σ : Type} (stepReason : Option (String × String)) (mutate : σ → σ) (session : σ) :
    applyReloadPatch stepReason mutate plan session =
      .error ("patch_plan_not_planned", "namespace patch plan is not planned") := by
  rw [applyReloadPatch, patchPlanStatusReason, if_pos h]
  rfl

/-- A planned patch covers the difference of the configurations. A plan that is not planned is
a no-op without steps, or it is blocked, and its application refuses it. -/
theorem patch_plan_coverage (current new : ProjectConfig) (operations : List Operation)
    (projectId : Option String) (currentNamespace : Option Namespace) :
    let plan := buildNamespacePatchPlan current new operations projectId currentNamespace
    (plan.status = .planned → Covers (buildNamespaceTopologyPlan current)
      (buildNamespaceTopologyPlan new) plan.steps) ∧
    (plan.status ≠ .planned → (plan.status = .noOp ∧ plan.steps = [] ∧ plan.blockedOperations = [] ∨
        plan.status = .blocked ∧ plan.blockedOperations ≠ []) ∧
      ∀ (σ : Type) (stepReason : Option (String × String)) (mutate : σ → σ) (session : σ),
        applyReloadPatch stepReason mutate plan session =
          .error ("patch_plan_not_planned", "namespace patch plan is not planned")) := by
  intro plan
  obtain ⟨scope, preserved, planned, hplan, hcases⟩ :=
    buildNamespacePatchPlan_cases current new operations projectId currentNamespace
  have happlied : plan.status ≠ .planned → ∀ (σ : Type) (stepReason : Option (String × String))
      (mutate : σ → σ) (session : σ), applyReloadPatch stepReason mutate plan session =
        .error ("patch_plan_not_planned", "namespace patch plan is not planned") :=
    fun hstatus _ stepReason mutate session =>
      applyReloadPatch_of_not_planned hstatus stepReason mutate session
  rw [show plan = patchPlan scope preserved planned from hplan] at happlied ⊢
  refine ⟨fun hstatus => ?_, fun hstatus => ⟨?_, happlied hstatus⟩⟩
  · by_cases hblocked : planned.blocked = []
    · have hplanned := hcases.resolve_left (not_not.mpr hblocked)
      rw [hplanned] at hblocked ⊢
      exact topologySteps_covers operations (wellNamed_topology current) (wellNamed_topology new)
        (unblocked_of_topologySteps hblocked)
    · simp [patchPlan, hblocked] at hstatus
  · by_cases hblocked : planned.blocked = []
    · by_cases hsteps : planned.steps = []
      · exact .inl ⟨by simp [patchPlan, hblocked, hsteps], hsteps, hblocked⟩
      · simp [patchPlan, hblocked, hsteps] at hstatus
    · exact .inr ⟨by simp [patchPlan, hblocked], hblocked⟩

namespace Sample

open Agents (AgentSpec Env defaultSidebarSpec defaultSidebarViewSpec)

def agentSpec (name : String) (normalized : normalizeAgentName name = .ok name) : AgentSpec where
  name := name
  provider := "codex"
  target := "."
  workspaceMode := .inplace
  workspaceRoot := none
  runtimeMode := .paneBacked
  restoreDefault := .auto
  permissionDefault := .manual
  queuePolicy := .serialPerAgent
  model := none
  startupArgs := []
  env := .empty
  api := ⟨none, none⟩
  providerProfile := ⟨.inherit, none, .empty, true, true, true, true, true, true⟩
  branchTemplate := none
  labels := []
  description := none
  watchPaths := []
  normalized := normalized
  provider_normal := by decide +kernel
  target_normal := by decide +kernel

def mainWindow : WindowSpec := ⟨"main", 0, "a:codex", ["a"], by decide, by decide, by decide⟩

def sideWindow : WindowSpec := ⟨"side", 1, "b:codex", ["b"], by decide, by decide, by decide⟩

/-- One agent in a window. -/
def oneWindow : ProjectConfig where
  defaultAgents := ["a"]
  agents := [("a", agentSpec "a" (by decide +kernel))]
  cmdEnabled := false
  layoutSpec := "a:codex"
  windows := [mainWindow]
  entryWindow := "main"
  sidebar := defaultSidebarSpec
  sidebarView := defaultSidebarViewSpec
  windowsExplicit := true
  defaults_ne_nil := by decide
  defaults_nodup := by decide
  defaults_known := by simp
  keys_nodup := by decide
  keys_match := by simp [agentSpec]
  windows_nodup := by decide
  windows_ordered := rfl
  placed_nodup := by decide
  placed_iff := by simp [mainWindow]
  entry_mem := by decide

/-- The same, and another agent in a window of its own. -/
def twoWindows : ProjectConfig where
  defaultAgents := ["a"]
  agents := [("a", agentSpec "a" (by decide +kernel)), ("b", agentSpec "b" (by decide +kernel))]
  cmdEnabled := false
  layoutSpec := "a:codex"
  windows := [mainWindow, sideWindow]
  entryWindow := "main"
  sidebar := defaultSidebarSpec
  sidebarView := defaultSidebarViewSpec
  windowsExplicit := true
  defaults_ne_nil := by decide
  defaults_nodup := by decide
  defaults_known := by simp
  keys_nodup := by decide
  keys_match := by simp [agentSpec]
  windows_nodup := by decide
  windows_ordered := rfl
  placed_nodup := by decide
  placed_iff := by simp [mainWindow, sideWindow]
  entry_mem := by decide

def projectNamespace : Namespace := ⟨some "p", some "/s", some "ccb", some 1, true⟩

end Sample

/-- Without a change the plan is neither planned nor blocked. -/
theorem unchanged_config_no_op :
    let plan := (buildReloadDryRunPlan (fun _ => "signature") Sample.oneWindow Sample.oneWindow none
      (some "p") (some Sample.projectNamespace)).namespacePatchPlan
    plan.status = .noOp ∧ plan.blockedOperations = [] := by
  decide +kernel

example : (buildReloadDryRunPlan ProjectConfig.entryWindow Sample.oneWindow Sample.twoWindows
    (some "signature") (some "p") (some Sample.projectNamespace)).namespacePatchPlan.status =
      .planned := by
  decide +kernel

end CodexBridge.Reload
