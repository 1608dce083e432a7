import CodexBridge.Reload.Application

/-! When a patch gives the layouts of the new configuration. A chain of splits gives the new
layout of a window that gains agents when the added panes are all split off in one direction.
A window that loses agents has the new layout when that is the old one pruned. -/

namespace CodexBridge.Reload

open Agents (ProjectConfig WindowSpec)
open Layout (Kind LayoutLeaf LayoutNode LeavesValid parseLayoutSpec renderChars)

/-! ### Added leaves -/

def isAddedLeaf (added : List String) : Panes → Bool
  | .leaf agent => agent ∈ added
  | .branch _ _ _ => false

/-- The kinds of the splits with an added agent alone on their second side. -/
def addedKinds (added : List String) : Panes → List Kind
  | .leaf _ => []
  | .branch kind left right =>
    addedKinds added left ++ if isAddedLeaf added right then [kind] else addedKinds added right

theorem addedKinds_eq_nil {added : List String} {t : Panes} (h : ∀ a ∈ t.leaves, a ∉ added) :
    addedKinds added t = [] := by
  induction t with
  | leaf a => rfl
  | branch kind l r ihl ihr =>
    have hl := ihl fun a ha => h a (List.mem_append_left _ ha)
    have hr := ihr fun a ha => h a (List.mem_append_right _ ha)
    have hleaf : isAddedLeaf added r = false := by
      cases r with
      | leaf a => exact decide_eq_false (h a (List.mem_append_right _ List.mem_cons_self))
      | branch k l' r' => rfl
    rw [addedKinds, hl, hleaf, hr]
    rfl

theorem addedKinds_leftComb {added : List String} {a : String} {chain : List (Kind × String)}
    (h : ∀ p ∈ chain, p.2 ∈ added) :
    addedKinds added (SplitTree.leftComb a chain) = chain.map Prod.fst := by
  induction chain using List.reverseRecOn with
  | nil => rfl
  | append_singleton chain p ih =>
    have hp : isAddedLeaf added (.leaf p.2) = true := decide_eq_true (h p (by simp))
    rw [SplitTree.leftComb_concat, addedKinds, ih fun q hq => h q (by simp [hq]), hp,
      List.map_append]
    rfl

theorem addedKinds_uniform {added : List String} {kind : Kind} {t : Panes} (h : t.Uniform kind) :
    ∀ k ∈ addedKinds added t, k = kind := by
  induction t with
  | leaf a => exact fun k hk => absurd hk List.not_mem_nil
  | branch k l r ihl ihr =>
    intro x hx
    rw [addedKinds, List.mem_append] at hx
    rcases hx with hl | hr
    · exact ihl h.2.1 x hl
    · split_ifs at hr
      · rw [List.mem_singleton.mp hr, h.1]
      · exact ihr h.2.2 x hr

/-! ### Plans of appended agents -/

/-- The splits of a plan, with agents by their names. -/
def loweredChain (plan : List AppendAgentPlan) : List (Kind × String) :=
  plan.map fun append => (append.direction.kind, lower append.agent)

theorem directionOf_kind (kind : Kind) : (directionOf kind).kind = kind := by cases kind <;> rfl

/-- A leaf that is expanded is the first of a comb. -/
theorem expandedLeafAppendPlan_some {anchor : List Char} {node : LayoutNode}
    {plan : List AppendAgentPlan} (h : expandedLeafAppendPlan anchor node = some plan) :
    ∃ leaf ∈ node.leaves, leaf.render = anchor ∧
      agentPanes node = SplitTree.leftComb (lower leaf.name) (loweredChain plan) := by
  induction node generalizing plan with
  | leaf leaf =>
    rw [expandedLeafAppendPlan] at h
    split_ifs at h with hrender
    obtain rfl := Option.some.inj h
    exact ⟨leaf, List.mem_cons_self, hrender, rfl⟩
  | branch kind l r ihl _ =>
    unfold expandedLeafAppendPlan at h
    split at h
    · rename_i leftPlan added hl _
      obtain rfl := Option.some.inj h
      obtain ⟨leaf, hleaf, hrender, hpanes⟩ := ihl hl
      have hchain : loweredChain (leftPlan ++ [⟨added.name, directionOf kind⟩]) =
          loweredChain leftPlan ++ [(kind, lower added.name)] := by
        rw [loweredChain, List.map_append, List.map_singleton, directionOf_kind]
        rfl
      refine ⟨leaf, List.mem_append_left _ hleaf, hrender, ?_⟩
      rw [hchain, SplitTree.leftComb_concat, ← hpanes]
      rfl
    · contradiction

theorem validLeaf_eq {leaf leaf' : LayoutLeaf} (h : leaf.Valid) (h' : leaf'.Valid)
    (hrender : leaf.render = leaf'.render) : leaf = leaf' := by
  have hmatch := h.matchLeaf
  rw [hrender, h'.matchLeaf] at hmatch
  exact (Option.some.inj hmatch).symm

theorem LeavesValid_left {kind : Kind} {l r : LayoutNode} (h : LeavesValid (.branch kind l r)) :
    LeavesValid l := fun leaf hleaf => h leaf (List.mem_append_left _ hleaf)

theorem LeavesValid_right {kind : Kind} {l r : LayoutNode} (h : LeavesValid (.branch kind l r)) :
    LeavesValid r := fun leaf hleaf => h leaf (List.mem_append_right _ hleaf)

/-- The splits that two layouts have in common, and the leaf below them that is expanded. -/
theorem rightmost_branch {kind : Kind} {l r new : LayoutNode} {plan : List AppendAgentPlan}
    (h : rightmostLeafAppendPlanForNodes (.branch kind l r) new = some plan) :
    ∃ l' r', new = .branch kind l' r' ∧ renderChars l = renderChars l' ∧
      rightmostLeafAppendPlanForNodes r r' = some plan := by
  cases new with
  | leaf leaf => contradiction
  | branch k l' r' =>
    rw [rightmostLeafAppendPlanForNodes] at h
    split_ifs at h with hkind hrender
    obtain rfl := not_not.mp hkind
    exact ⟨l', r', rfl, not_not.mp hrender, h⟩

theorem leaves_rightmost {old new : LayoutNode} (hold : LeavesValid old) (hnew : LeavesValid new)
    {plan : List AppendAgentPlan} (h : rightmostLeafAppendPlanForNodes old new = some plan) :
    (agentPanes new).leaves = (agentPanes old).leaves ++ (loweredChain plan).map Prod.snd := by
  induction old generalizing new with
  | leaf leaf =>
    rw [rightmostLeafAppendPlanForNodes] at h
    obtain ⟨leaf', hleaf', hrender, hpanes⟩ := expandedLeafAppendPlan_some h
    obtain rfl := validLeaf_eq (hnew leaf' hleaf') (hold leaf List.mem_cons_self) hrender
    rw [hpanes, SplitTree.leaves_leftComb]
    rfl
  | branch kind l r _ ihr =>
    obtain ⟨l', r', rfl, hrender, hright⟩ := rightmost_branch h
    have hl := Layout.reassoc_of_renderChars (LeavesValid_left hold) (LeavesValid_left hnew) hrender
    have hleft : (agentPanes l).leaves = (agentPanes l').leaves := (hl.map _).leaves
    have hrest := ihr (LeavesValid_right hold) (LeavesValid_right hnew) hright
    change (agentPanes l').leaves ++ (agentPanes r').leaves =
      (agentPanes l).leaves ++ (agentPanes r).leaves ++ _
    rw [hrest, hleft, List.append_assoc]

/-- The chain of a plan splits in one direction. -/
def Alike (chain : List (Kind × String)) : Prop := ∀ p ∈ chain, ∀ q ∈ chain, p.1 = q.1

/-- The chain of splits gives an expanded leaf when it splits in one direction. -/
theorem rightmost_reassoc {old new : LayoutNode} (hold : LeavesValid old) (hnew : LeavesValid new)
    {plan : List AppendAgentPlan} (h : rightmostLeafAppendPlanForNodes old new = some plan)
    {front : List String} {target : String} (hleaves : (agentPanes old).leaves = front ++ [target])
    (hnodup : (front ++ target :: (loweredChain plan).map Prod.snd).Nodup) :
    ((agentPanes old).splitChain target (loweredChain plan)).Reassoc (agentPanes new) ↔
      Alike (loweredChain plan) := by
  induction old generalizing new front with
  | leaf leaf =>
    rw [rightmostLeafAppendPlanForNodes] at h
    obtain ⟨leaf', hleaf', hrender, hpanes⟩ := expandedLeafAppendPlan_some h
    obtain rfl := validLeaf_eq (hnew leaf' hleaf') (hold leaf List.mem_cons_self) hrender
    have hone : [lower leaf'.name] = front ++ [target] := hleaves
    obtain ⟨rfl, hlast⟩ := (List.append_eq_singleton_iff.mp hone.symm).resolve_right (by simp)
    obtain rfl := List.singleton_inj.mp hlast
    have hsplit : (agentPanes (.leaf leaf')).splitChain (lower leaf'.name) (loweredChain plan) =
        SplitTree.rightComb (lower leaf'.name) (loweredChain plan) :=
      SplitTree.splitChain_leaf hnodup
    rw [hpanes, hsplit]
    exact SplitTree.reassoc_combs_iff _ _
  | branch kind l r _ ihr =>
    obtain ⟨l', r', rfl, hrender, hright⟩ := rightmost_branch h
    have hl := Layout.reassoc_of_renderChars (LeavesValid_left hold) (LeavesValid_left hnew) hrender
    -- The last leaf is on the right, and the chain leaves the left as it is.
    obtain ⟨rest, last, hr⟩ :=
      (List.eq_nil_or_concat' (agentPanes r).leaves).resolve_left (agentPanes r).leaves_ne_nil
    have hsplit : (agentPanes l).leaves ++ rest ++ [last] = front ++ [target] := by
      rw [← hleaves, List.append_assoc, ← hr]
      rfl
    obtain ⟨rfl, hlast⟩ := List.append_inj' hsplit rfl
    obtain rfl := List.singleton_inj.mp hlast
    rw [List.append_assoc] at hnodup
    obtain ⟨-, hrest, hdisjoint⟩ := List.nodup_append.mp hnodup
    have hnot : ∀ a ∈ last :: (loweredChain plan).map Prod.snd, a ∉ (agentPanes l).leaves :=
      fun a ha hmem => hdisjoint a hmem a (List.mem_append_right _ ha) rfl
    have hbranch : (agentPanes (.branch kind l r)).splitChain last (loweredChain plan) =
        .branch kind (agentPanes l) ((agentPanes r).splitChain last (loweredChain plan)) :=
      SplitTree.splitChain_branch (hnot last List.mem_cons_self)
        (fun p hp => hnot p.2 (List.mem_cons_of_mem _ (List.mem_map_of_mem hp))) _
    rw [hbranch]
    exact (SplitTree.reassoc_branch_iff kind (hl.map _)).trans
      (ihr (LeavesValid_right hold) (LeavesValid_right hnew) hright hr hrest)

/-- The added kinds of an expanded leaf are those of its plan. -/
theorem rightmost_addedKinds {old new : LayoutNode} (hold : LeavesValid old)
    (hnew : LeavesValid new) {plan : List AppendAgentPlan} {added : List String}
    (h : rightmostLeafAppendPlanForNodes old new = some plan)
    (hkept : ∀ a ∈ (agentPanes old).leaves, a ∉ added)
    (hadded : ∀ p ∈ loweredChain plan, p.2 ∈ added) :
    addedKinds added (agentPanes new) = (loweredChain plan).map Prod.fst := by
  induction old generalizing new with
  | leaf leaf =>
    rw [rightmostLeafAppendPlanForNodes] at h
    obtain ⟨leaf', hleaf', hrender, hpanes⟩ := expandedLeafAppendPlan_some h
    rw [hpanes]
    exact addedKinds_leftComb hadded
  | branch kind l r _ ihr =>
    obtain ⟨l', r', rfl, hrender, hright⟩ := rightmost_branch h
    have hl := Layout.reassoc_of_renderChars (LeavesValid_left hold) (LeavesValid_left hnew) hrender
    have hleft : (agentPanes l).leaves = (agentPanes l').leaves := (hl.map _).leaves
    have hkeptl : ∀ a ∈ (agentPanes l').leaves, a ∉ added := by
      rw [← hleft]
      exact fun a ha => hkept a (List.mem_append_left _ ha)
    have hkeptr : ∀ a ∈ (agentPanes r).leaves, a ∉ added :=
      fun a ha => hkept a (List.mem_append_right _ ha)
    have hrest := leaves_rightmost (LeavesValid_right hold) (LeavesValid_right hnew) hright
    have hnone : isAddedLeaf added (agentPanes r') = false := by
      obtain ⟨a, rest, ha⟩ := List.exists_cons_of_ne_nil (agentPanes r).leaves_ne_nil
      rw [ha] at hrest
      cases hpanes : agentPanes r' with
      | leaf b =>
        rw [hpanes] at hrest
        obtain rfl : b = a := (List.cons.inj hrest).1
        exact decide_eq_false (hkeptr b (by rw [ha]; exact List.mem_cons_self))
      | branch k l'' r'' => rfl
    change addedKinds added (agentPanes l') ++ (if isAddedLeaf added (agentPanes r') then [kind]
      else addedKinds added (agentPanes r')) = _
    rw [addedKinds_eq_nil hkeptl, hnone,
      ihr (LeavesValid_right hold) (LeavesValid_right hnew) hright hkeptr]
    rfl

/-! ### Sequences -/

theorem uniform_agentPanes {kind : Kind} {node : LayoutNode} (h : allBranchKinds kind node = true) :
    (agentPanes node).Uniform kind := by
  induction node with
  | leaf leaf => trivial
  | branch k l r ihl ihr =>
    simp only [allBranchKinds, Bool.and_eq_true, decide_eq_true_eq] at h
    exact ⟨h.1.1, ihl h.1.2, ihr h.2⟩

theorem sequenceKind_some {kind : Kind} {node : LayoutNode} (h : sequenceKind node = some kind) :
    (agentPanes node).Uniform kind := by
  cases node with
  | leaf leaf => contradiction
  | branch k l r =>
    rw [sequenceKind] at h
    split_ifs at h with hall
    obtain rfl := Option.some.inj h
    exact uniform_agentPanes hall

theorem leaves_agentPanes (node : LayoutNode) :
    (agentPanes node).leaves = (leafNames node).map lower := by
  rw [agentPanes, SplitTree.leaves_map, leafNames, List.map_map]
  rfl

/-- A plan for a sequence has all its splits, and those of the layouts, of one kind. -/
theorem trailing_some {old new : LayoutNode} {plan : List AppendAgentPlan}
    (h : trailingSequenceAppendPlan old new = some plan) :
    (agentPanes new).leaves = (agentPanes old).leaves ++ (loweredChain plan).map Prod.snd ∧
      (plan ≠ [] → ∃ kind, (agentPanes old).Uniform kind ∧ (agentPanes new).Uniform kind ∧
        ∀ p ∈ loweredChain plan, p.1 = kind) := by
  rw [trailingSequenceAppendPlan] at h
  split_ifs at h with hfront
  obtain ⟨-, htake⟩ := not_or.mp hfront
  have hnames := List.take_append_drop (leafNames old).length (leafNames new)
  rw [not_not.mp htake] at hnames
  rw [leaves_agentPanes, leaves_agentPanes, ← hnames, List.map_append]
  split at h
  · rename_i hdrop
    obtain rfl := Option.some.inj h
    rw [hdrop]
    exact ⟨rfl, fun hne => absurd rfl hne⟩
  · split at h
    · rename_i oldKind newKind hold hnew
      split_ifs at h with hkind
      obtain rfl := Option.some.inj h
      refine ⟨?_, fun _ => ⟨oldKind, sequenceKind_some hold, ?_, ?_⟩⟩
      · rw [loweredChain, List.map_map, List.map_map]
        rfl
      · rw [not_not.mp hkind]
        exact sequenceKind_some hnew
      · intro p hp
        rw [loweredChain, List.map_map] at hp
        obtain ⟨agent, -, rfl⟩ := List.mem_map.mp hp
        exact directionOf_kind oldKind
    · contradiction

/-! ### Kept windows -/

variable {old new : NamespaceTopologyPlan} {o w : NamespaceWindowPlan} {node newNode : LayoutNode}

/-- A window has a layout with its agents in their order. -/
structure LaidOut (window : NamespaceWindowPlan) (node : LayoutNode) : Prop where
  parsed : parseLayoutSpec window.userLayout = .ok node
  agents : (agentPanes node).leaves = window.agentNames

theorem LaidOut.windowPanes (h : LaidOut w node) : windowPanes w = some (agentPanes node) := by
  rw [Reload.windowPanes, h.parsed]

/-- When the mutations give the new layout of a kept window: the added agents alone on the
second side of a split are all in one direction, or the new layout is the old one pruned. -/
def Suits (o w : NamespaceWindowPlan) : Prop :=
  if ∀ a ∈ o.agentNames, a ∈ w.agentNames then
    ∀ panes, windowPanes w = some panes →
      ∀ k ∈ addedKinds (w.agentNames.filter (· ∉ o.agentNames)) panes,
      ∀ k' ∈ addedKinds (w.agentNames.filter (· ∉ o.agentNames)) panes, k = k'
  else ∃ oldPanes newPanes pruned, windowPanes o = some oldPanes ∧ windowPanes w = some newPanes ∧
    oldPanes.prune (· ∈ w.agentNames) = some pruned ∧ pruned.Reassoc newPanes

/-- The panes of a window are those of its layout. -/
def Realized (panes : Option Panes) (window : NamespaceWindowPlan) : Prop :=
  ∃ t u, panes = some t ∧ windowPanes window = some u ∧ t.Reassoc u

theorem LaidOut.realized_iff (h : LaidOut w node) {t : Panes} :
    Realized (some t) w ↔ t.Reassoc (agentPanes node) := by
  constructor
  · rintro ⟨t', u, ht, hu, hreassoc⟩
    obtain rfl := Option.some.inj ht
    obtain rfl := Option.some.inj (h.windowPanes.symm.trans hu)
    exact hreassoc
  · exact fun hreassoc => ⟨t, _, rfl, h.windowPanes, hreassoc⟩

theorem appendAgentPlanForWindow_gained (hne : o.agentNames ≠ w.agentNames)
    (hlength : ¬ w.agentNames.length < o.agentNames.length) {plan : List AppendAgentPlan}
    (h : appendAgentPlanForWindow o w = some plan) :
    rightmostLeafAppendPlan o w = some plan ∧
      w.agentNames = o.agentNames ++ plan.map AppendAgentPlan.agent := by
  have hagents := appendAgentPlanForWindow_agents hne hlength h
  rw [appendAgentPlanForWindow, if_neg hne, if_neg hlength] at h
  split_ifs at h with htake
  have hwhole := List.take_append_drop o.agentNames.length w.agentNames
  rw [not_not.mp htake] at hwhole
  split at h
  · contradiction
  · rename_i found hfound
    split_ifs at h
    rw [hagents, hwhole]
    exact ⟨hfound.trans h, rfl⟩

theorem rightmostLeafAppendPlan_cases (ho : LaidOut o node) (hw : LaidOut w newNode)
    {plan : List AppendAgentPlan} (h : rightmostLeafAppendPlan o w = some plan) :
    rightmostLeafAppendPlanForNodes node newNode = some plan ∨
      trailingSequenceAppendPlan node newNode = some plan := by
  rw [rightmostLeafAppendPlan, ho.parsed, hw.parsed] at h
  dsimp only at h
  split at h
  · rename_i found hfound
    exact .inl (hfound.trans h)
  · exact .inr h

theorem loweredChain_eq {plan : List AppendAgentPlan}
    (h : (loweredChain plan).map Prod.snd = plan.map AppendAgentPlan.agent) :
    loweredChain plan = planChain plan := by
  rw [loweredChain, List.map_map] at h
  refine List.map_congr_left fun append happend => ?_
  exact congrArg (append.direction.kind, ·) (List.map_inj_left.mp h append happend)

/-- A window that gains agents has the layout when they are split off in one direction. -/
theorem gained_iff (ho : LaidOut o node) (hw : LaidOut w newNode) (hnodup : w.agentNames.Nodup)
    (hne : o.agentNames ≠ w.agentNames) (hlength : ¬ w.agentNames.length < o.agentNames.length)
    {plan : List AppendAgentPlan} (hplan : appendAgentPlanForWindow o w = some plan) :
    (appendWindowAgentPanes o plan (agentPanes node)).Reassoc (agentPanes newNode) ↔
      ∀ k ∈ addedKinds (w.agentNames.filter (· ∉ o.agentNames)) (agentPanes newNode),
      ∀ k' ∈ addedKinds (w.agentNames.filter (· ∉ o.agentNames)) (agentPanes newNode), k = k' := by
  obtain ⟨hfound, hsplit⟩ := appendAgentPlanForWindow_gained hne hlength hplan
  have hcases := rightmostLeafAppendPlan_cases ho hw hfound
  have hvalid := Layout.parseLayoutSpec_valid ho.parsed
  have hnewValid := Layout.parseLayoutSpec_valid hw.parsed
  have hleaves : (agentPanes newNode).leaves =
      (agentPanes node).leaves ++ (loweredChain plan).map Prod.snd :=
    hcases.elim (leaves_rightmost hvalid hnewValid) fun h => (trailing_some h).1
  have hchain : loweredChain plan = planChain plan := by
    rw [ho.agents, hw.agents, hsplit] at hleaves
    exact loweredChain_eq (List.append_cancel_left hleaves).symm
  have hadded : w.agentNames.filter (· ∉ o.agentNames) = plan.map AppendAgentPlan.agent := by
    rw [hsplit]
    exact filter_append_not_mem (hsplit ▸ hnodup)
  have hplanNe : plan ≠ [] := by
    rintro rfl
    rw [List.map_nil, List.append_nil] at hsplit
    exact hne hsplit.symm
  have hagents : (loweredChain plan).map Prod.snd = plan.map AppendAgentPlan.agent := by
    rw [hchain, planChain, List.map_map]
    rfl
  obtain ⟨front, target, hfront⟩ :=
    (List.eq_nil_or_concat' (agentPanes node).leaves).resolve_left (agentPanes node).leaves_ne_nil
  have hold : o.agentNames = front ++ [target] := ho.agents.symm.trans hfront
  have hlast : o.agentNames.getLast? = some target := by rw [hold, List.getLast?_concat]
  have hpanes : appendWindowAgentPanes o plan (agentPanes node) =
      (agentPanes node).splitChain target (loweredChain plan) := by
    rw [appendWindowAgentPanes, hlast, hchain]
  have hchainNodup : (front ++ target :: (loweredChain plan).map Prod.snd).Nodup := by
    rw [hsplit, hold, ← hagents, List.append_assoc] at hnodup
    exact hnodup
  rw [hpanes, hadded]
  rcases hcases with hnodes | htrailing
  · -- The added kinds are those of the chain.
    have hkinds : addedKinds (plan.map AppendAgentPlan.agent) (agentPanes newNode) =
        (loweredChain plan).map Prod.fst := by
      refine rightmost_addedKinds hvalid hnewValid hnodes (fun a ha hmem => ?_)
        fun p hp => hagents ▸ List.mem_map_of_mem hp
      rw [ho.agents] at ha
      exact (List.nodup_append.mp (hsplit ▸ hnodup)).2.2 a ha a hmem rfl
    rw [hkinds, rightmost_reassoc hvalid hnewValid hnodes hfront hchainNodup]
    simp [Alike]
  · obtain ⟨kind, hu, hu', hkind⟩ := (trailing_some htrailing).2 hplanNe
    refine iff_of_true ?_ fun k hk k' hk' =>
      (addedKinds_uniform hu' k hk).trans (addedKinds_uniform hu' k' hk').symm
    refine (hu.splitChain hkind target).reassoc hu' ?_
    rw [SplitTree.leaves_splitChain_last hfront hchainNodup, hleaves, hfront, List.append_assoc]
    rfl

theorem removeWindowAgents_some (removed : List String) (panes : Panes) :
    removeWindowAgents removed (some panes) = panes.prune (· ∉ removed) :=
  SplitTree.foldl_prune removed panes

/-- The mutations give the layout of a kept window exactly when they suit it. -/
theorem kept_realized_iff (ho : LaidOut o node) (hw : LaidOut w newNode)
    (hold : o.agentNames.Nodup) (hnew : w.agentNames.Nodup)
    (happend : (appendedSteps o w).blocked = []) (hremove : (removedAgentSteps o w).blocked = [])
    (hsame : o.agentNames = w.agentNames → o.userLayout = w.userLayout) :
    Realized (keptPanes o w) w ↔ Suits o w := by
  obtain ⟨plan, hplan⟩ := appendAgentPlan_of_unblocked happend
  rw [keptPanes, ho.windowPanes, hplan, Option.getD_some, Option.map_some, Suits]
  by_cases hsubset : ∀ a ∈ o.agentNames, a ∈ w.agentNames
  · have hlost : o.agentNames.filter (· ∉ w.agentNames) = [] :=
      List.filter_eq_nil_iff.mpr fun a ha => by simpa using hsubset a ha
    have hpanes : ∀ panes, windowPanes w = some panes ↔ panes = agentPanes newNode := by
      intro panes
      rw [hw.windowPanes, Option.some_inj, eq_comm]
    rw [hlost, removeWindowAgents, List.foldl_nil, hw.realized_iff, if_pos hsubset]
    simp only [hpanes, forall_eq]
    by_cases heq : o.agentNames = w.agentNames
    · have hnil : w.agentNames.filter (· ∉ o.agentNames) = [] :=
        List.filter_eq_nil_iff.mpr fun a ha => by simpa using heq ▸ ha
      obtain rfl : plan = [] := by
        rw [appendAgentPlanForWindow, if_pos heq] at hplan
        exact (Option.some.inj hplan).symm
      have hnode : node = newNode := by
        have hparsed := ho.parsed
        rw [hsame heq, hw.parsed] at hparsed
        exact (Except.ok.inj hparsed).symm
      rw [appendWindowAgentPanes_nil, hnil, addedKinds_eq_nil fun a _ => List.not_mem_nil, hnode]
      exact iff_of_true (.refl _) fun k hk => absurd hk List.not_mem_nil
    · have hlength : ¬ w.agentNames.length < o.agentNames.length :=
        not_lt.mpr (List.subperm_of_subset hold hsubset).length_le
      exact gained_iff ho hw hnew heq hlength hplan
  · -- Some agents are lost, and the others keep their order.
    have hkept : o.agentNames.filter (· ∈ w.agentNames) = w.agentNames := by
      rw [removedAgentSteps] at hremove
      split at hremove
      · rename_i hlost
        refine absurd (fun a ha => ?_) hsubset
        simpa using List.filter_eq_nil_iff.mp hlost a ha
      · split_ifs at hremove with hkept
        exact not_not.mp hkept
    have hshorter : w.agentNames.length < o.agentNames.length := by
      rw [← hkept]
      refine List.length_filter_lt_length_iff_exists.mpr ?_
      simpa using hsubset
    have hne : o.agentNames ≠ w.agentNames := fun heq => hshorter.ne (congrArg List.length heq.symm)
    obtain rfl : plan = [] := by
      rw [appendAgentPlanForWindow, if_neg hne, if_pos hshorter] at hplan
      exact (Option.some.inj hplan).symm
    have hprune : (agentPanes node).prune (· ∉ o.agentNames.filter (· ∉ w.agentNames)) =
        (agentPanes node).prune (· ∈ w.agentNames) := by
      refine SplitTree.prune_congr fun a ha => ?_
      rw [ho.agents] at ha
      simp [ha]
    rw [if_neg hsubset, appendWindowAgentPanes_nil, removeWindowAgents_some, id, hprune]
    constructor
    · rintro ⟨t, u, ht, hu, hreassoc⟩
      exact ⟨_, u, t, ho.windowPanes, hu, ht, hreassoc⟩
    · rintro ⟨_, u, t, hpanes, hu, ht, hreassoc⟩
      obtain rfl := Option.some.inj (ho.windowPanes.symm.trans hpanes)
      exact ⟨t, u, ht, hu, hreassoc⟩

/-! ### Sessions -/

/-- The windows of a session are those of a topology, with their layouts. -/
def Realizes (session : Session) (topology : NamespaceTopologyPlan) : Prop :=
  ∀ name, match findWindow topology name with
    | some window => Realized (session name) window
    | none => session name = none

/-- Every window of a configuration has a layout with its agents, as the loader builds it. -/
def LoadedLayouts (config : ProjectConfig) : Prop :=
  ∀ window ∈ config.windows, ∃ node, parseLayoutSpec window.layoutSpec = .ok node ∧
    (node.leaves.map fun leaf => lower leaf.name) = window.agentNames

theorem LoadedLayouts.laidOut {config : ProjectConfig} (h : LoadedLayouts config)
    (hw : w ∈ buildNamespaceTopologyPlan config) : ∃ node, LaidOut w node := by
  obtain ⟨spec, hspec, rfl⟩ := List.mem_map.mp hw
  obtain ⟨node, hparsed, hagents⟩ := h spec hspec
  exact ⟨node, hparsed, by rw [agentPanes, SplitTree.leaves_map, hagents]; rfl⟩

/-- The mutations of an unblocked patch, when windows with the same agents keep their layouts. -/
theorem realizes_iff (hold : WellNamed old) (hnew : WellNamed new) (h : Unblocked old new)
    (hlaidOld : ∀ o ∈ old, ∃ node, LaidOut o node) (hlaidNew : ∀ w ∈ new, ∃ node, LaidOut w node)
    (hsame : ∀ o ∈ old, ∀ w ∈ new, o.name = w.name → o.agentNames = w.agentNames →
      o.userLayout = w.userLayout) :
    Realizes (applyMutations old new (topologySession old)) new ↔
      ∀ o ∈ old, ∀ w ∈ new, o.name = w.name → Suits o w := by
  have hkept {o w : NamespaceWindowPlan} (ho : o ∈ old) (hw : w ∈ new) (hname : o.name = w.name) :
      Realized (keptPanes o w) w ↔ Suits o w := by
    obtain ⟨node, hnode⟩ := hlaidOld o ho
    obtain ⟨newNode, hnewNode⟩ := hlaidNew w hw
    exact kept_realized_iff hnode hnewNode (hold.agents o ho) (hnew.agents w hw)
      (h.additive w hw o (hname ▸ hold.findWindow ho)) (h.kept o ho w (hname ▸ hnew.findWindow hw))
      (hsame o ho w hw hname)
  constructor
  · intro hrealizes o ho w hw hname
    have hat := hrealizes w.name
    rw [hnew.findWindow hw, applyMutations_eq hold hnew h, ← hname, hold.findWindow ho, hname,
      hnew.findWindow hw] at hat
    exact (hkept ho hw hname).mp hat
  · intro hsuits name
    rw [applyMutations_eq hold hnew h]
    cases hfind : findWindow new name with
    | none => cases findWindow old name <;> rfl
    | some w =>
      obtain ⟨hw, rfl⟩ := findWindow_some hfind
      cases hfind' : findWindow old w.name with
      | none =>
        obtain ⟨node, hnode⟩ := hlaidNew w hw
        exact ⟨_, _, hnode.windowPanes, hnode.windowPanes, .refl _⟩
      | some o =>
        obtain ⟨ho, hname⟩ := findWindow_some hfind'
        exact (hkept ho hw hname).mpr (hsuits o ho w hw hname)

/-! ### Dry runs -/

section DryRuns
variable {current next : ProjectConfig} {operations : List Operation} {projectId : Option String}
  {currentNamespace : Option Namespace}

theorem buildNamespacePatchPlan_planned
    (h : (buildNamespacePatchPlan current next operations projectId currentNamespace).status =
      .planned) :
    (∀ operation ∈ operations, operation.supported = true) ∧
      Unblocked (buildNamespaceTopologyPlan current) (buildNamespaceTopologyPlan next) := by
  have hblocked {scope : Scope} {preserved : List String} {planned : WindowSteps}
      (hstatus : (patchPlan scope preserved planned).status = .planned) : planned.blocked = [] := by
    by_contra hne
    simp [patchPlan, hne] at hstatus
  unfold buildNamespacePatchPlan at h
  dsimp only at h
  split at h
  · rename_i hbefore
    refine ⟨fun operation hoperation => ?_, unblocked_of_topologySteps (hblocked h)⟩
    have hnone := (List.append_eq_nil_iff.mp hbefore).1
    rw [blockedUnsupportedOperations, List.map_eq_nil_iff, List.filter_eq_nil_iff] at hnone
    simpa using hnone operation hoperation
  · rename_i hne
    exact absurd (hblocked h) hne

theorem windowRecord_mem {config : ProjectConfig} {spec : WindowSpec} (h : spec ∈ config.windows) :
    windowRecord config spec.name = some spec := by
  cases hfind : windowRecord config spec.name with
  | none =>
    have hnone := List.find?_eq_none.mp hfind spec h
    simp at hnone
  | some found =>
    have hname : found.name = spec.name := by simpa using List.find?_some hfind
    exact congrArg some
      (List.inj_on_of_nodup_map config.windows_nodup (List.mem_of_find?_eq_some hfind) h hname)

/-- A window with the same agents and another layout is an operation of its own. -/
theorem windowLayoutChange_mem {spec spec' : WindowSpec} (hspec : spec ∈ current.windows)
    (hspec' : spec' ∈ next.windows) (hname : spec.name = spec'.name) {operation : Operation}
    (h : windowLayoutChange spec spec' = some operation) :
    operation ∈ buildOperations current next := by
  have hmem : spec'.name ∈ orderedWindows next
      ((windowNames current).filter (· ∈ windowNames next)) := by
    rw [orderedWindows, List.mem_insertionSort]
    refine List.mem_filter.mpr ⟨?_, decide_eq_true (List.mem_map_of_mem hspec')⟩
    exact hname ▸ List.mem_map_of_mem hspec
  have hrecord : windowRecord current spec'.name = some spec := hname ▸ windowRecord_mem hspec
  have hchange : operation ∈ topologyOperations current next := by
    rw [topologyOperations]
    refine List.mem_append_left _ (List.mem_append_left _ (List.mem_append_right _ ?_))
    refine List.mem_filterMap.mpr ⟨spec'.name, hmem, ?_⟩
    rw [hrecord, windowRecord_mem hspec']
    exact h
  exact List.mem_append_right _ hchange

theorem layoutSpec_of_supported
    (h : ∀ operation ∈ buildOperations current next, operation.supported = true)
    {spec spec' : WindowSpec} (hspec : spec ∈ current.windows) (hspec' : spec' ∈ next.windows)
    (hname : spec.name = spec'.name) (hagents : spec.agentNames = spec'.agentNames) :
    spec.layoutSpec = spec'.layoutSpec := by
  have hset : (∀ a ∈ spec.agentNames, a ∈ spec'.agentNames) ∧
      ∀ a ∈ spec'.agentNames, a ∈ spec.agentNames :=
    ⟨fun a ha => hagents ▸ ha, fun a ha => hagents ▸ ha⟩
  cases hchange : windowLayoutChange spec spec' with
  | some operation =>
    have hsupported := h operation (windowLayoutChange_mem hspec hspec' hname hchange)
    rw [windowLayoutChange, if_pos hset] at hchange
    split at hchange
    · contradiction
    · obtain rfl := Option.some.inj hchange
      contradiction
  | none =>
    rw [windowLayoutChange, if_pos hset] at hchange
    split at hchange
    · rename_i hfields
      rw [changedWindowFields, List.append_eq_nil_iff, List.append_eq_nil_iff] at hfields
      by_contra hne
      rw [if_neg hne] at hfields
      exact nomatch hfields.1.2
    · contradiction

/-- A planned dry run blocks no window, and its operations change no layout of their own. -/
theorem dryRun_planned {configSignature : ProjectConfig → String} {currentSignature : Option String}
    (h : (buildReloadDryRunPlan configSignature current next currentSignature projectId
      currentNamespace).namespacePatchPlan.status = .planned) :
    Unblocked (buildNamespaceTopologyPlan current) (buildNamespaceTopologyPlan next) ∧
      (currentSignature.getD (configSignature current) = configSignature next ∨
        ∀ operation ∈ buildOperations current next, operation.supported = true) := by
  unfold buildReloadDryRunPlan identityPreservingPlan at h
  by_cases hsignature : currentSignature.getD (configSignature current) = configSignature next
  · rw [if_pos hsignature] at h
    refine ⟨?_, .inl hsignature⟩
    split at h
    · exact (buildNamespacePatchPlan_planned h).2
    · exact (buildNamespacePatchPlan_planned h).2
  · rw [if_neg hsignature] at h
    dsimp only at h
    obtain ⟨hsupported, hunblocked⟩ := buildNamespacePatchPlan_planned h
    refine ⟨hunblocked, .inr ?_⟩
    split at hsupported
    · rename_i hnil
      rw [hnil]
      exact fun operation hoperation => absurd hoperation List.not_mem_nil
    · exact hsupported

/-- Applying a planned patch gives the layouts of the new configuration exactly when it suits
every window that is kept. -/
theorem patch_realizes_layouts_iff (configSignature : ProjectConfig → String)
    (currentSignature : Option String) (hcurrent : LoadedLayouts current)
    (hnext : LoadedLayouts next)
    (hidentity : ∀ signature, currentSignature = some signature →
      signature = configSignature current)
    (hcollision : configSignature current = configSignature next → current.windows = next.windows)
    (hplanned : (buildReloadDryRunPlan configSignature current next currentSignature projectId
      currentNamespace).namespacePatchPlan.status = .planned) :
    let old := buildNamespaceTopologyPlan current
    let new := buildNamespaceTopologyPlan next
    Realizes (applyMutations old new (topologySession old)) new ↔
      ∀ o ∈ old, ∀ w ∈ new, o.name = w.name → Suits o w := by
  obtain ⟨hunblocked, hcases⟩ := dryRun_planned hplanned
  have hsignature : currentSignature.getD (configSignature current) = configSignature current := by
    cases hsome : currentSignature with
    | none => rfl
    | some signature => exact hidentity signature hsome
  refine realizes_iff (wellNamed_topology current) (wellNamed_topology next) hunblocked
    (fun o ho => hcurrent.laidOut ho) (fun w hw => hnext.laidOut hw)
    fun o ho w hw hname hagents => ?_
  obtain ⟨spec, hspec, rfl⟩ := List.mem_map.mp ho
  obtain ⟨spec', hspec', rfl⟩ := List.mem_map.mp hw
  rcases hcases with hequal | hsupported
  · rw [hsignature] at hequal
    rw [hcollision hequal] at hspec
    exact congrArg WindowSpec.layoutSpec
      (List.inj_on_of_nodup_map next.windows_nodup hspec hspec' hname)
  · exact layoutSpec_of_supported hsupported hspec hspec' hname hagents

end DryRuns

namespace Sample

open Agents (defaultSidebarSpec defaultSidebarViewSpec)

def codexLeaf (name : String) : LayoutNode := .leaf ⟨name, some "codex", none⟩

/-- The main window with agents. -/
def mainWith (layoutSpec : String) (agentNames : List String) (layout_ne_empty : layoutSpec ≠ "")
    (agents_ne_nil : agentNames ≠ []) (agents_nodup : agentNames.Nodup) : WindowSpec :=
  ⟨"main", 0, layoutSpec, agentNames, layout_ne_empty, agents_ne_nil, agents_nodup⟩

/-- Two agents side by side. -/
def pairWindow : ProjectConfig :=
  { twoWindows with
    layoutSpec := "a:codex; b:codex"
    windows := [mainWith "a:codex; b:codex" ["a", "b"] (by decide) (by decide) (by decide)]
    windows_nodup := by decide
    windows_ordered := rfl
    placed_nodup := by decide
    placed_iff := by simp [mainWith, twoWindows]
    entry_mem := by decide }

/-- Two agents side by side above a third. -/
def mixedWindow : ProjectConfig :=
  { twoWindows with
    agents := twoWindows.agents ++ [("c", agentSpec "c" (by decide +kernel))]
    layoutSpec := "(a:codex; b:codex), c:codex"
    windows := [mainWith "(a:codex; b:codex), c:codex" ["a", "b", "c"] (by decide) (by decide)
      (by decide)]
    defaults_known := by simp [twoWindows]
    keys_nodup := by decide
    keys_match := by simp [twoWindows, agentSpec]
    windows_nodup := by decide
    windows_ordered := rfl
    placed_nodup := by decide
    placed_iff := by simp [mainWith, twoWindows]
    entry_mem := by decide }

def pairNode : LayoutNode := .branch .horizontal (codexLeaf "a") (codexLeaf "b")

def mixedNode : LayoutNode := .branch .vertical pairNode (codexLeaf "c")

theorem parse_of_render (node : LayoutNode) {text : String} (hrender : Layout.render node = text)
    (hmatch : ∀ leaf ∈ node.leaves, Layout.matchLeaf leaf.render = some leaf) :
    parseLayoutSpec text = .ok node.combed := by
  rw [← hrender]
  exact Layout.parse_render fun leaf hleaf => Layout.matchLeaf_valid (hmatch leaf hleaf)

theorem parse_single : parseLayoutSpec "a:codex" = .ok (codexLeaf "a") :=
  parse_of_render (codexLeaf "a") (by decide) (by decide)

theorem parse_pair : parseLayoutSpec "a:codex; b:codex" = .ok pairNode :=
  parse_of_render pairNode (by decide) (by decide)

theorem parse_mixed : parseLayoutSpec "(a:codex; b:codex), c:codex" = .ok mixedNode :=
  parse_of_render mixedNode (by decide) (by decide)

theorem loaded_oneWindow : LoadedLayouts oneWindow := by
  intro window hwindow
  obtain rfl := List.mem_singleton.mp hwindow
  exact ⟨_, parse_single, by decide +kernel⟩

theorem loaded_pairWindow : LoadedLayouts pairWindow := by
  intro window hwindow
  obtain rfl := List.mem_singleton.mp hwindow
  exact ⟨_, parse_pair, by decide +kernel⟩

def mainPlan : NamespaceWindowPlan := windowPlan (some defaultSidebarSpec) mainWindow

/-- The plan of the only window of a configuration. -/
def onlyPlan (config : ProjectConfig) : NamespaceWindowPlan :=
  (buildNamespaceTopologyPlan config).headD mainPlan

theorem pair_append : appendAgentPlanForWindow mainPlan (onlyPlan pairWindow) =
    some [⟨"b", .right⟩] := by
  have hplan : rightmostLeafAppendPlan mainPlan (onlyPlan pairWindow) = some [⟨"b", .right⟩] := by
    unfold rightmostLeafAppendPlan
    rw [show mainPlan.userLayout = "a:codex" from rfl, parse_single,
      show (onlyPlan pairWindow).userLayout = "a:codex; b:codex" from rfl, parse_pair]
    rfl
  unfold appendAgentPlanForWindow
  rw [hplan]
  rfl

theorem mixed_append : appendAgentPlanForWindow mainPlan (onlyPlan mixedWindow) =
    some [⟨"b", .right⟩, ⟨"c", .bottom⟩] := by
  have hplan : rightmostLeafAppendPlan mainPlan (onlyPlan mixedWindow) =
      some [⟨"b", .right⟩, ⟨"c", .bottom⟩] := by
    unfold rightmostLeafAppendPlan
    rw [show mainPlan.userLayout = "a:codex" from rfl, parse_single,
      show (onlyPlan mixedWindow).userLayout = "(a:codex; b:codex), c:codex" from rfl, parse_mixed]
    rfl
  unfold appendAgentPlanForWindow
  rw [hplan]
  rfl

/-- The dry run from one agent to another configuration with one window. -/
def dryRun (next : ProjectConfig) : ReloadDryRunPlan :=
  buildReloadDryRunPlan ProjectConfig.layoutSpec oneWindow next none (some "p")
    (some projectNamespace)

theorem additiveAgentSteps_only {next : ProjectConfig} {steps : List NamespacePatchStep}
    (hname : (onlyPlan next).name = "main")
    (hnext : buildNamespaceTopologyPlan next = [onlyPlan next])
    (happended : appendedSteps mainPlan (onlyPlan next) = ⟨steps, []⟩) :
    additiveAgentSteps (buildNamespaceTopologyPlan oneWindow) (buildNamespaceTopologyPlan next) =
      [⟨steps, []⟩] := by
  have hfind : findWindow (buildNamespaceTopologyPlan oneWindow) (onlyPlan next).name =
      some mainPlan := by
    rw [hname]
    rfl
  rw [hnext, additiveAgentSteps, List.filterMap_cons, hfind, Option.map_some, happended]
  rfl

theorem pair_planned : (dryRun pairWindow).namespacePatchPlan.status = .planned := by
  have happended : appendedSteps mainPlan (onlyPlan pairWindow) =
      ⟨appendSteps "main" (some "a") [⟨"b", .right⟩], []⟩ := by
    unfold appendedSteps
    rw [pair_append]
    rfl
  unfold dryRun buildReloadDryRunPlan buildNamespacePatchPlan topologySteps
  dsimp only
  rw [additiveAgentSteps_only rfl rfl happended]
  rfl

theorem mixed_planned : (dryRun mixedWindow).namespacePatchPlan.status = .planned := by
  have happended : appendedSteps mainPlan (onlyPlan mixedWindow) =
      ⟨appendSteps "main" (some "a") [⟨"b", .right⟩, ⟨"c", .bottom⟩], []⟩ := by
    unfold appendedSteps
    rw [mixed_append]
    rfl
  unfold dryRun buildReloadDryRunPlan buildNamespacePatchPlan topologySteps
  dsimp only
  rw [additiveAgentSteps_only rfl rfl happended]
  rfl

end Sample

theorem patch_realizes_layouts_iff_pair :
    let old := buildNamespaceTopologyPlan Sample.oneWindow
    let new := buildNamespaceTopologyPlan Sample.pairWindow
    Realizes (applyMutations old new (topologySession old)) new ↔
      ∀ o ∈ old, ∀ w ∈ new, o.name = w.name → Suits o w :=
  patch_realizes_layouts_iff ProjectConfig.layoutSpec none Sample.loaded_oneWindow
    Sample.loaded_pairWindow nofun (fun h => absurd h (by decide)) Sample.pair_planned

/-- The third agent goes below the second one only, and not below both. -/
theorem mixed_splits_wrong_layout :
    (Sample.dryRun Sample.mixedWindow).namespacePatchPlan.status = .planned ∧
      let old := buildNamespaceTopologyPlan Sample.oneWindow
      let new := buildNamespaceTopologyPlan Sample.mixedWindow
      ¬ Realizes (applyMutations old new (topologySession old)) new := by
  refine ⟨Sample.mixed_planned, fun hrealizes => ?_⟩
  have hkept : keptPanes Sample.mainPlan (Sample.onlyPlan Sample.mixedWindow) =
      some (.branch .horizontal (.leaf "a") (.branch .vertical (.leaf "b") (.leaf "c"))) := by
    rw [keptPanes, Sample.mixed_append, windowPanes,
      show Sample.mainPlan.userLayout = "a:codex" from rfl, Sample.parse_single]
    decide +kernel
  have hnew : windowPanes (Sample.onlyPlan Sample.mixedWindow) =
      some (agentPanes Sample.mixedNode) := by
    rw [windowPanes, show (Sample.onlyPlan Sample.mixedWindow).userLayout =
      "(a:codex; b:codex), c:codex" from rfl, Sample.parse_mixed]
  have hmain := hrealizes "main"
  rw [applyMutations_eq (wellNamed_topology _) (wellNamed_topology _)
    (dryRun_planned Sample.mixed_planned).1] at hmain
  obtain ⟨t, u, ht, hu, hreassoc⟩ : Realized
    (keptPanes Sample.mainPlan (Sample.onlyPlan Sample.mixedWindow))
    (Sample.onlyPlan Sample.mixedWindow) := hmain
  obtain rfl := Option.some.inj (hkept.symm.trans ht)
  obtain rfl := Option.some.inj (hnew.symm.trans hu)
  exact absurd hreassoc.combed_eq (by decide)

end CodexBridge.Reload
