import VsphereCompliance.Engine.Drs
import Mathlib.Data.List.Forall2

/-!
# What the DRS plan covers

Every group of a cluster is cut into batches. The batches of at least two VMs become rules,
the only batch that can be shorter is a last one of a single VM (`batchRules_eq`,
`batchSkips_eq`). So the rules and the skipped entry of one group hold the VMs of the group
in order (`groupRules_append_groupSkips`), and those of a cluster hold every matched VM
exactly once (`plan_perm`).
-/

namespace VsphereCompliance.Engine

open Batches

/-! ## The batches of one group -/

/-- The part of a group that its rules cover: everything, except a last VM that would be
alone in its batch. -/
def covered (m : Nat) (groupVms : List String) : List String :=
  if groupVms.length % m = 1 then groupVms.take (groupVms.length - 1) else groupVms

theorem batchRules_of_long {c : Cluster} {key : GroupKey} {total : Nat}
    {ps : List (List String × Nat)} (h : ∀ p ∈ ps, 2 ≤ p.1.length) :
    batchRules c key total ps = ps.map fun p => ruleOf c key total p.1 p.2 := by
  rw [← List.filterMap_eq_map]
  apply List.filterMap_congr
  intro p hp
  have hlen := h p hp
  rw [if_neg (by omega)]
  rfl

theorem batchSkips_of_long {key : GroupKey} {ps : List (List String × Nat)}
    (h : ∀ p ∈ ps, 2 ≤ p.1.length) : batchSkips key ps = [] := by
  rw [batchSkips, List.filterMap_eq_nil_iff]
  intro p hp
  have hlen := h p hp
  rw [if_neg (by omega)]

theorem length_covered_mod (m : Nat) (groupVms : List String) :
    (covered m groupVms).length % m ≠ 1 := by
  unfold covered
  split
  · rename_i h
    have hdiv := Nat.div_add_mod groupVms.length m
    have hsub : groupVms.length - 1 = m * (groupVms.length / m) := by omega
    rw [List.length_take, Nat.min_eq_left (by omega), hsub, Nat.mul_mod_right]
    omega
  · assumption

theorem covered_append_left (m : Nat) (groupVms : List String) :
    covered m groupVms ++
      (if groupVms.length % m = 1 then groupVms.drop (groupVms.length - 1) else []) =
      groupVms := by
  unfold covered
  split
  · exact List.take_append_drop _ _
  · exact List.append_nil _

section Batch

variable {m : Nat} (hm : 2 ≤ m) (groupVms : List String)
include hm

theorem two_le_of_mem_zipIdx {p : List String × Nat}
    (hp : p ∈ (batches m (covered m groupVms)).zipIdx) : 2 ≤ p.1.length :=
  two_le_of_mem_batches hm (length_covered_mod m groupVms) (List.fst_mem_of_mem_zipIdx hp)

/-- The enumerated batches of a group: those of the covered part, then a single VM if the
length of the group is `1` modulo the batch size. -/
theorem zipIdx_batches :
    (batches m groupVms).zipIdx = (batches m (covered m groupVms)).zipIdx ++
      if groupVms.length % m = 1 then
        [(groupVms.drop (groupVms.length - 1), (batches m (covered m groupVms)).length)]
      else [] := by
  unfold covered
  split
  · rename_i h
    conv_lhs => rw [batches_of_mod_eq_one hm h, List.zipIdx_append]
    simp
  · simp

theorem batchRules_eq (c : Cluster) (key : GroupKey) (total : Nat) :
    batchRules c key total (batches m groupVms).zipIdx =
      (batches m (covered m groupVms)).zipIdx.map fun p => ruleOf c key total p.1 p.2 := by
  have hlong : ∀ p ∈ (batches m (covered m groupVms)).zipIdx, 2 ≤ p.1.length :=
    fun p => two_le_of_mem_zipIdx hm groupVms
  rw [← batchRules_of_long hlong, zipIdx_batches hm groupVms]
  split
  · have hshort : (groupVms.drop (groupVms.length - 1)).length < 2 := by
      rw [List.length_drop]
      omega
    simp only [batchRules, List.filterMap_append, List.filterMap_cons, List.filterMap_nil,
      if_pos hshort, List.append_nil]
  · rw [List.append_nil]

theorem batchSkips_eq (key : GroupKey) :
    batchSkips key (batches m groupVms).zipIdx =
      if groupVms.length % m = 1 then
        [leftoverOf key (groupVms.drop (groupVms.length - 1))
          (batches m (covered m groupVms)).length]
      else [] := by
  have hnil : batchSkips key (batches m (covered m groupVms)).zipIdx = [] :=
    batchSkips_of_long fun p => two_le_of_mem_zipIdx hm groupVms
  unfold batchSkips at hnil ⊢
  rw [zipIdx_batches hm groupVms, List.filterMap_append, hnil, List.nil_append]
  split
  · have hshort : (groupVms.drop (groupVms.length - 1)).length < 2 := by
      rw [List.length_drop]
      omega
    simp only [List.filterMap_cons, List.filterMap_nil, if_pos hshort]
  · rfl

end Batch

/-! ## One group -/

/-- The rules of a group that is not skipped as a whole are its covered batches. -/
theorem groupRules_eq {c : Cluster} {g : GroupKey × List String} (h : ¬ SkippedWhole c g.2) :
    groupRules c g =
      (batches (maxVmsPerRule c.hostCount)
        (covered (maxVmsPerRule c.hostCount) g.2)).zipIdx.map fun p =>
          ruleOf c g.1 (batches (maxVmsPerRule c.hostCount) g.2).length p.1 p.2 := by
  rw [groupRules, if_neg h]
  exact batchRules_eq (two_le_maxVmsPerRule _) _ _ _ _

theorem vms_groupRules {c : Cluster} {g : GroupKey × List String} (h : ¬ SkippedWhole c g.2) :
    (groupRules c g).flatMap RuleToCreate.vms =
      covered (maxVmsPerRule c.hostCount) g.2 := by
  have hm := two_le_maxVmsPerRule c.hostCount
  rw [groupRules_eq h, List.flatMap_map]
  have hfst : ∀ bs : List (List String), (bs.zipIdx.flatMap fun p => p.1) = bs.flatten := by
    intro bs
    conv_rhs => rw [← List.zipIdx_map_fst 0 bs]
    rw [List.flatMap_def]
  exact (hfst _).trans (flatten_batches (by omega) _)

/-- The rules of a group, then its skipped entry, hold the VMs of the group in order. -/
theorem groupRules_append_groupSkips (c : Cluster) (g : GroupKey × List String) :
    (groupRules c g).flatMap RuleToCreate.vms ++ (groupSkips c g).flatMap SkippedGroup.vms =
      g.2 := by
  by_cases h1 : g.2.length = 1
  · simp [groupRules, groupSkips, SkippedWhole, h1]
  · by_cases h2 : c.hostCount < 2
    · simp [groupRules, groupSkips, SkippedWhole, h1, h2]
    · have hskip : ¬ SkippedWhole c g.2 := fun h => h.elim h1 h2
      rw [vms_groupRules hskip, groupSkips, if_neg h1, if_neg h2,
        batchSkips_eq (two_le_maxVmsPerRule _)]
      conv_rhs => rw [← covered_append_left (maxVmsPerRule c.hostCount) g.2]
      split
      · simp [leftoverOf]
      · rfl

/-- A group of at least one VM gets no rule exactly when it is skipped as a whole. -/
theorem groupRules_eq_nil_iff {c : Cluster} {g : GroupKey × List String} (hne : g.2 ≠ []) :
    groupRules c g = [] ↔ SkippedWhole c g.2 := by
  refine ⟨?_, ?_⟩
  · intro hnil
    by_contra hskip
    have hcovered := vms_groupRules hskip
    rw [hnil, List.flatMap_nil] at hcovered
    have hpos : 0 < g.2.length := List.length_pos_of_ne_nil hne
    have hone : g.2.length ≠ 1 := fun h => hskip (Or.inl h)
    unfold covered at hcovered
    split at hcovered
    · have hlen := congrArg List.length hcovered
      rw [List.length_nil, List.length_take] at hlen
      omega
    · exact hne hcovered.symm
  · intro hskip
    rw [groupRules, if_pos hskip]

theorem groupKey_of_mem_groupRules {c : Cluster} (g : GroupKey × List String) :
    ∀ r ∈ groupRules c g, r.groupKey = g.1 := by
  intro r hr
  obtain ⟨_, idx, batch, _, _, rfl⟩ := mem_groupRules hr
  rfl

/-! ## One cluster -/

section Cluster

variable (search : Search) (patterns : List Pattern) (c : Cluster)

/-- The VMs of the group with key `k`, in inventory order. -/
def members (k : GroupKey) : List String :=
  (c.vms.filter fun vm => drsGroupKey search patterns vm.name = some k).map Vm.name

theorem mem_members {k : GroupKey} {name : String} :
    name ∈ members search patterns c k ↔
      (∃ vm ∈ c.vms, vm.name = name) ∧ drsGroupKey search patterns name = some k := by
  simp only [members, List.mem_map, List.mem_filter, decide_eq_true_eq]
  refine ⟨?_, ?_⟩
  · intro h
    obtain ⟨vm, ⟨hvm, hk⟩, rfl⟩ := h
    exact ⟨⟨vm, hvm, rfl⟩, hk⟩
  · intro h
    obtain ⟨⟨vm, hvm, rfl⟩, hk⟩ := h
    exact ⟨vm, ⟨hvm, hk⟩, rfl⟩

theorem mem_clusterGroups {k : GroupKey} {g : List String} :
    (k, g) ∈ (clusterGroups search patterns c).entries ↔
      g ≠ [] ∧ g = members search patterns c k :=
  OrderedDict.mem_entries_group _ _

theorem get?_clusterGroups {k : GroupKey} (h : members search patterns c k ≠ []) :
    (clusterGroups search patterns c).get? k = some (members search patterns c k) :=
  OrderedDict.get?_eq_some_iff.mpr ((mem_clusterGroups search patterns c).mpr ⟨h, rfl⟩)

/-- The planned rules with key `k` are the rules of the group with key `k`. -/
theorem filter_rulesToCreate {k : GroupKey} (h : members search patterns c k ≠ []) :
    (analyzeCluster search patterns c).1.rulesToCreate.filter (fun r => r.groupKey = k) =
      groupRules c (k, members search patterns c k) := by
  rw [rulesToCreate_analyzeCluster,
    OrderedDict.filter_flatMap_entries _ _ _ (fun g => groupKey_of_mem_groupRules g),
    get?_clusterGroups search patterns c h]
  rfl

theorem mem_skippedGroups_of_group {k : GroupKey} (h : members search patterns c k ≠ [])
    {s : SkippedGroup} (hs : s ∈ groupSkips c (k, members search patterns c k)) :
    s ∈ (analyzeCluster search patterns c).1.skippedGroups := by
  rw [skippedGroups_analyzeCluster]
  exact List.mem_flatMap.mpr ⟨_, (mem_clusterGroups search patterns c).mpr ⟨h, rfl⟩, hs⟩

/-- **No rule is planned** exactly when there are too few hosts or no two VMs with one key. -/
theorem rulesToCreate_eq_nil_iff :
    (analyzeCluster search patterns c).1.rulesToCreate = [] ↔
      c.hostCount < 2 ∨ ∀ k, (members search patterns c k).length < 2 := by
  rw [rulesToCreate_analyzeCluster, List.flatMap_eq_nil_iff]
  refine ⟨?_, ?_⟩
  · intro hnil
    by_cases hhosts : c.hostCount < 2
    · exact Or.inl hhosts
    · refine Or.inr fun k => ?_
      by_contra hlen
      have hne : members search patterns c k ≠ [] := List.ne_nil_of_length_pos (by omega)
      have hmem := (mem_clusterGroups search patterns c).mpr ⟨hne, rfl⟩
      rcases (groupRules_eq_nil_iff hne).mp (hnil _ hmem) with hone | hfew
      · dsimp only at hone
        omega
      · exact hhosts hfew
  · rintro hnone ⟨k, g⟩ hg
    obtain ⟨hne, rfl⟩ := (mem_clusterGroups search patterns c).mp hg
    refine (groupRules_eq_nil_iff hne).mpr ?_
    have hpos : 0 < (members search patterns c k).length := List.length_pos_of_ne_nil hne
    rcases hnone with hfew | hall
    · exact Or.inr hfew
    · have hlt := hall k
      exact Or.inl (by dsimp only; omega)

/-- A planned rule is about VMs of the cluster. -/
theorem exists_vm_of_mem_rulesToCreate {r : RuleToCreate}
    (hr : r ∈ (analyzeCluster search patterns c).1.rulesToCreate) {name : String}
    (hname : name ∈ r.vms) : ∃ vm ∈ c.vms, vm.name = name := by
  rw [rulesToCreate_analyzeCluster] at hr
  obtain ⟨g, hg, hr⟩ := List.mem_flatMap.mp hr
  obtain ⟨_, hg2⟩ := (mem_clusterGroups search patterns c).mp hg
  have hmem : name ∈ g.2 := by
    rw [← groupRules_append_groupSkips c g]
    exact List.mem_append_left _ (List.mem_flatMap.mpr ⟨r, hr, hname⟩)
  rw [hg2] at hmem
  exact ((mem_members search patterns c).mp hmem).1

theorem two_le_length_vms {r : RuleToCreate}
    (hr : r ∈ (analyzeCluster search patterns c).1.rulesToCreate) : 2 ≤ r.vms.length := by
  rw [rulesToCreate_analyzeCluster] at hr
  obtain ⟨g, _, hr⟩ := List.mem_flatMap.mp hr
  obtain ⟨_, _, _, _, hlen, rfl⟩ := mem_groupRules hr
  exact hlen

/-- The groups of the cluster that are not skipped as a whole. -/
def plannedGroups : List (GroupKey × List String) :=
  (clusterGroups search patterns c).entries.filter fun g => ¬ SkippedWhole c g.2

theorem mem_plannedGroups {g : GroupKey × List String} :
    g ∈ plannedGroups search patterns c ↔
      2 ≤ c.hostCount ∧ 2 ≤ g.2.length ∧ g.2 = members search patterns c g.1 := by
  have hgroup := mem_clusterGroups search patterns c (k := g.1) (g := g.2)
  simp only [plannedGroups, List.mem_filter, hgroup, SkippedWhole, decide_eq_true_eq, not_or]
  constructor
  · rintro ⟨⟨hne, hg⟩, hone, hhosts⟩
    have hpos : 0 < g.2.length := List.length_pos_of_ne_nil hne
    exact ⟨by omega, by omega, hg⟩
  · rintro ⟨hhosts, hlen, hg⟩
    exact ⟨⟨List.ne_nil_of_length_pos (by omega), hg⟩, by omega, by omega⟩

theorem nodup_plannedGroups : (plannedGroups search patterns c).Nodup :=
  (clusterGroups search patterns c).nodup.of_map.filter _

theorem rulesToCreate_eq_flatMap_plannedGroups :
    (analyzeCluster search patterns c).1.rulesToCreate =
      (plannedGroups search patterns c).flatMap (groupRules c) := by
  rw [rulesToCreate_analyzeCluster, plannedGroups]
  induction (clusterGroups search patterns c).entries with
  | nil => rfl
  | cons g gs ih =>
    by_cases hskip : SkippedWhole c g.2
    · rw [List.flatMap_cons, ih, List.filter_cons_of_neg (by simpa using hskip), groupRules,
        if_pos hskip, List.nil_append]
    · rw [List.flatMap_cons, ih, List.filter_cons_of_pos (by simpa using hskip),
        List.flatMap_cons]

/-- The plan of a cluster holds every VM that has a key exactly once. -/
theorem plan_perm :
    ((analyzeCluster search patterns c).1.rulesToCreate.flatMap RuleToCreate.vms ++
      (analyzeCluster search patterns c).1.skippedGroups.flatMap SkippedGroup.vms).Perm
      ((c.vms.filter fun vm => (drsGroupKey search patterns vm.name).isSome).map Vm.name) := by
  rw [rulesToCreate_analyzeCluster, skippedGroups_analyzeCluster, List.flatMap_assoc,
    List.flatMap_assoc]
  refine (List.flatMap_append_perm _ _ _).trans ?_
  have hgroup : (fun g => (groupRules c g).flatMap RuleToCreate.vms ++
      (groupSkips c g).flatMap SkippedGroup.vms) = Prod.snd :=
    funext fun g => groupRules_append_groupSkips c g
  rw [hgroup]
  exact OrderedDict.flatMap_entries_group _ _ _

end Cluster

/-! ## The whole plan -/

/-- Some `vm_name` pattern matches the name without raising an error. -/
def isMatched (search : Search) (patterns : List Pattern) (name : String) : Bool :=
  patterns.any fun p => p.patternType = .vmName && (search p.regexPattern name).isFound

theorem isSome_drsGroupKey (search : Search) (patterns : List Pattern) (name : String) :
    (drsGroupKey search patterns name).isSome = isMatched search patterns name := by
  rw [drsGroupKey, isSome_firstMatch, vmPatterns, List.any_filter, isMatched]

/-- The planned rules of the group with key `k`. -/
def ClusterResult.rulesOf (res : ClusterResult) (k : GroupKey) : List RuleToCreate :=
  res.rulesToCreate.filter fun r => r.groupKey = k

/-- The rules of a group are listed in the order of their suffixes `-1`, `-2`, …; the only
rule of a group has no suffix. -/
def InSuffixOrder (c : Cluster) (k : GroupKey) (rules : List RuleToCreate) : Prop :=
  (∃ r, rules = [r] ∧ r.ruleName = s!"VCM-AAR-{c.name}-{keyText k}") ∨
    ∀ i r, rules[i]? = some r → r.ruleName = s!"VCM-AAR-{c.name}-{keyText k}" ++ s!"-{i + 1}"

/-- A group in the plan: its rules in suffix order and its skipped entry hold its VMs in
inventory order. The entry is a last batch of one VM, or the group skipped as a whole. -/
def GroupKept (c : Cluster) (res : ClusterResult) (k : GroupKey) (groupVms : List String) :
    Prop :=
  InSuffixOrder c k (res.rulesOf k) ∧
    ∃ left : List String, (res.rulesOf k).flatMap RuleToCreate.vms ++ left = groupVms ∧
      (left = [] ∨
        left.length = 1 ∧ leftoverOf k left (res.rulesOf k).length ∈ res.skippedGroups ∨
        SkippedWhole c groupVms ∧ ∃ reason, ⟨k, left, reason⟩ ∈ res.skippedGroups)

/-- VM `i` of a group is in the rule `i / m` of the group, at position `i % m`. -/
def InRule (m : Nat) (rules : List RuleToCreate) (groupVms : List String) (i : Nat) : Prop :=
  ∃ r, rules[i / m]? = some r ∧ r.vms[i % m]? = groupVms[i]?

/-- No VM is lost or duplicated by the plan `res` of the cluster `c`. -/
structure PlanComplete (search : Search) (patterns : List Pattern) (c : Cluster)
    (res : ClusterResult) : Prop where
  /-- The rules and the skipped groups together hold the matched VMs. -/
  perm : (res.rulesToCreate.flatMap RuleToCreate.vms ++
      res.skippedGroups.flatMap SkippedGroup.vms).Perm
    ((c.vms.map Vm.name).filter (isMatched search patterns))
  /-- All VMs of a rule have its group key, that of their first matching pattern. -/
  sameKey : ∀ r ∈ res.rulesToCreate, ∀ name ∈ r.vms,
    ∃ m, FirstMatching search (vmPatterns patterns) name m ∧ drsKey m = r.groupKey
  kept : ∀ k, members search patterns c k ≠ [] →
    GroupKept c res k (members search patterns c k)
  /-- Only a last VM that would be alone in its batch is outside every rule. -/
  outside : 2 ≤ c.hostCount → ∀ k, 2 ≤ (members search patterns c k).length →
    ∀ i < (members search patterns c k).length,
      ¬ InRule (max 2 (c.hostCount - 1)) (res.rulesOf k) (members search patterns c k) i →
        i = (members search patterns c k).length - 1 ∧
          (members search patterns c k).length % max 2 (c.hostCount - 1) = 1

theorem getElem?_groupRules {c : Cluster} {g : GroupKey × List String}
    (h : ¬ SkippedWhole c g.2) (i : Nat) :
    (groupRules c g)[i]? =
      ((batches (maxVmsPerRule c.hostCount)
        (covered (maxVmsPerRule c.hostCount) g.2))[i]?).map fun b =>
          ruleOf c g.1 (batches (maxVmsPerRule c.hostCount) g.2).length b i := by
  rw [groupRules_eq h, List.getElem?_map, List.getElem?_zipIdx, Option.map_map, Nat.zero_add]
  rfl

theorem inSuffixOrder_groupRules (c : Cluster) (g : GroupKey × List String) :
    InSuffixOrder c g.1 (groupRules c g) := by
  by_cases hskip : SkippedWhole c g.2
  · refine Or.inr ?_
    intro i r hr
    rw [groupRules, if_pos hskip] at hr
    cases hr
  · by_cases htotal : (batches (maxVmsPerRule c.hostCount) g.2).length > 1
    · refine Or.inr ?_
      intro i r hr
      rw [getElem?_groupRules hskip] at hr
      obtain ⟨b, _, rfl⟩ := Option.map_eq_some_iff.mp hr
      simp only [ruleOf, if_pos htotal]
    · -- a single batch: at most one rule, and a group without rules is in order
      rcases hrules : groupRules c g with _ | ⟨r, _ | ⟨r', rest⟩⟩
      · refine Or.inr ?_
        intro i r hr
        cases hr
      · refine Or.inl ⟨r, rfl, ?_⟩
        obtain ⟨_, idx, b, _, _, rfl⟩ := mem_groupRules (hrules ▸ List.mem_singleton_self r)
        simp only [ruleOf, if_neg htotal, String.append_empty]
      · have hlen : (groupRules c g).length ≤ (batches (maxVmsPerRule c.hostCount) g.2).length := by
          rw [groupRules, if_neg hskip]
          exact (List.length_filterMap_le _ _).trans (by rw [List.length_zipIdx])
        rw [hrules] at hlen
        simp only [List.length_cons] at hlen
        omega

theorem groupSkips_cases (c : Cluster) (g : GroupKey × List String) :
    (groupSkips c g).flatMap SkippedGroup.vms = [] ∨
      ((groupSkips c g).flatMap SkippedGroup.vms).length = 1 ∧
        leftoverOf g.1 ((groupSkips c g).flatMap SkippedGroup.vms) (groupRules c g).length ∈
          groupSkips c g ∨
      SkippedWhole c g.2 ∧ ∃ reason,
        ⟨g.1, (groupSkips c g).flatMap SkippedGroup.vms, reason⟩ ∈ groupSkips c g := by
  by_cases h1 : g.2.length = 1
  · rw [groupSkips, if_pos h1, List.flatMap_singleton]
    exact Or.inr (Or.inr ⟨Or.inl h1, _, List.mem_singleton_self _⟩)
  · by_cases h2 : c.hostCount < 2
    · rw [groupSkips, if_neg h1, if_pos h2, List.flatMap_singleton]
      exact Or.inr (Or.inr ⟨Or.inr h2, _, List.mem_singleton_self _⟩)
    · have hskip : ¬ SkippedWhole c g.2 := fun h => h.elim h1 h2
      have hm := two_le_maxVmsPerRule c.hostCount
      have hcount : (groupRules c g).length =
          (batches (maxVmsPerRule c.hostCount)
            (covered (maxVmsPerRule c.hostCount) g.2)).length := by
        rw [groupRules_eq hskip, List.length_map, List.length_zipIdx]
      rw [hcount, groupSkips, if_neg h1, if_neg h2, batchSkips_eq hm]
      split
      · rename_i hmod
        refine Or.inr (Or.inl ?_)
        have hpos : 0 < g.2.length := by
          rcases Nat.eq_zero_or_pos g.2.length with h0 | h0
          · rw [h0, Nat.zero_mod] at hmod
            omega
          · exact h0
        rw [List.flatMap_singleton]
        refine ⟨?_, List.mem_singleton_self _⟩
        simp only [leftoverOf, List.length_drop]
        omega
      · exact Or.inl rfl

/-- A VM of a group is in the rule of its batch, unless it is a last VM alone. -/
theorem inRule_groupRules {c : Cluster} {g : GroupKey × List String}
    (h : ¬ SkippedWhole c g.2) {i : Nat}
    (hi : i < (covered (maxVmsPerRule c.hostCount) g.2).length) :
    InRule (maxVmsPerRule c.hostCount) (groupRules c g) g.2 i := by
  have hm := two_le_maxVmsPerRule c.hostCount
  generalize hmdef : maxVmsPerRule c.hostCount = m at hm hi ⊢
  have hdiv : i / m * m + i % m = i := by rw [Nat.mul_comm]; exact Nat.div_add_mod i m
  have hbatch : (batches m (covered m g.2))[i / m]? =
      some (((covered m g.2).drop (i / m * m)).take m) := by
    rw [getElem?_batches (by omega), if_pos (by omega)]
  have hget := getElem?_getElem_batches (by omega) hbatch (Nat.mod_lt i (by omega))
  refine ⟨_, by rw [getElem?_groupRules h, hmdef, hbatch, Option.map_some], ?_⟩
  show (((covered m g.2).drop (i / m * m)).take m)[i % m]? = g.2[i]?
  rw [hget, hdiv]
  unfold covered at hi ⊢
  split at hi
  · rename_i hmod
    rw [if_pos hmod]
    rw [List.length_take] at hi
    rw [List.getElem?_take_of_lt (by omega)]
  · rename_i hmod
    rw [if_neg hmod]

theorem planComplete_analyzeCluster (search : Search) (patterns : List Pattern) (c : Cluster) :
    PlanComplete search patterns c (analyzeCluster search patterns c).1 where
  perm := by
    have h := plan_perm search patterns c
    simp only [isSome_drsGroupKey] at h
    rw [List.filter_map]
    exact h
  sameKey := by
    intro r hr name hname
    rw [rulesToCreate_analyzeCluster] at hr
    obtain ⟨g, hg, hr⟩ := List.mem_flatMap.mp hr
    obtain ⟨_, hg2⟩ := (mem_clusterGroups search patterns c).mp hg
    have hmem : name ∈ g.2 := by
      have happ := groupRules_append_groupSkips c g
      rw [← happ]
      exact List.mem_append_left _ (List.mem_flatMap.mpr ⟨r, hr, hname⟩)
    rw [hg2] at hmem
    have hkey := ((mem_members search patterns c).mp hmem).2
    rw [groupKey_of_mem_groupRules g r hr]
    exact (firstMatch_eq_some_iff _ _ _ _ _).mp hkey
  kept := by
    intro k hk
    have hrules : (analyzeCluster search patterns c).1.rulesOf k =
        groupRules c (k, members search patterns c k) := filter_rulesToCreate search patterns c hk
    rw [GroupKept, hrules]
    refine ⟨inSuffixOrder_groupRules c (k, _), _, groupRules_append_groupSkips c (k, _), ?_⟩
    rcases groupSkips_cases c (k, members search patterns c k) with h | ⟨h1, h2⟩ | ⟨h1, reason, h2⟩
    · exact Or.inl h
    · exact Or.inr (Or.inl ⟨h1, mem_skippedGroups_of_group search patterns c hk h2⟩)
    · exact Or.inr (Or.inr ⟨h1, reason, mem_skippedGroups_of_group search patterns c hk h2⟩)
  outside := by
    intro hhost k hk i hi hout
    have hne : members search patterns c k ≠ [] := List.ne_nil_of_length_pos (by omega)
    have hrules : (analyzeCluster search patterns c).1.rulesOf k =
        groupRules c (k, members search patterns c k) := filter_rulesToCreate search patterns c hne
    have hskip : ¬ SkippedWhole c (members search patterns c k) := by
      unfold SkippedWhole
      omega
    rw [hrules, ← maxVmsPerRule_eq hhost] at hout
    rw [← maxVmsPerRule_eq hhost]
    have hlen : (covered (maxVmsPerRule c.hostCount) (members search patterns c k)).length ≤ i := by
      by_contra hlt
      have hlt' := Nat.lt_of_not_le hlt
      exact hout (inRule_groupRules (g := (k, members search patterns c k)) hskip hlt')
    unfold covered at hlen
    split at hlen
    · rename_i hmod
      rw [List.length_take] at hlen
      exact ⟨by omega, hmod⟩
    · omega

/-- **No VM is lost or duplicated by the DRS plan.** In every cluster result the rules and
the skipped groups hold exactly the matched VMs, group by group and in inventory order. -/
theorem drs_plan_complete (search : Search) (inventory : Inventory) (patterns : List Pattern) :
    List.Forall₂ (PlanComplete search patterns) inventory.clusters
      (analyzeDrsCompliance search inventory patterns).clusters := by
  rw [clusters_analyzeDrsCompliance, List.forall₂_map_right_iff, List.forall₂_same]
  intro c _
  exact planComplete_analyzeCluster search patterns c

end VsphereCompliance.Engine
