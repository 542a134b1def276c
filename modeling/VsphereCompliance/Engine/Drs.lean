import VsphereCompliance.Engine.Grouping
import VsphereCompliance.Library.Batches

/-!
# The DRS analysis

`analyzeDrsCompliance` is `AnalysisEngine.analyze_drs_compliance`: per cluster it groups the
VMs, lists the managed rules for deletion and cuts every group into batches, one
anti-affinity rule for each batch of at least two VMs. The `role` pattern that the source
looks up is not used there and is left out.

The loops append to the lists of the cluster result. What one pass through each loop appends
is stated once (`foldl_analyzeBatch`, `foldl_analyzeGroup`); the lists of a whole cluster follow
(`rulesToCreate_analyzeCluster`, `skippedGroups_analyzeCluster`).
-/

namespace VsphereCompliance.Engine

open Batches

/-- A group key inside an f-string. -/
def keyText : GroupKey → String
  | none => "None"
  | some s => s

structure RuleToCreate where
  ruleName : String
  vms : List String
  groupKey : GroupKey
  vmCount : Nat
  maxVmsPerRule : Nat
  rationale : String
  deriving DecidableEq, Repr

structure SkippedGroup where
  group : GroupKey
  vms : List String
  reason : String
  deriving DecidableEq, Repr

structure VmGroup where
  groupKey : GroupKey
  vmCount : Nat
  vms : List String
  deriving DecidableEq, Repr

structure ClusterResult where
  clusterName : String
  hostCount : Nat
  vmGroups : List VmGroup
  rulesToDelete : List DrsRule
  rulesToCreate : List RuleToCreate
  skippedGroups : List SkippedGroup
  existingRulesCount : Nat
  deriving DecidableEq, Repr

structure DrsResults where
  clusters : List ClusterResult
  totalViolations : Nat
  totalRulesToCreate : Nat
  totalRulesToDelete : Nat
  skippedSingleVm : List String
  deriving DecidableEq, Repr

/-- `name.startswith("VCM-AAR-")`. -/
def isVcmRule (name : String) : Bool := "VCM-AAR-".toList.isPrefixOf name.toList

/-- `max(2, host_count - 1) if host_count > 1 else 2`. -/
def maxVmsPerRule (hostCount : Nat) : Nat :=
  if hostCount > 1 then max 2 (hostCount - 1) else 2

/-- The patterns of the DRS analysis. -/
def vmPatterns (patterns : List Pattern) : List Pattern :=
  patterns.filter (·.patternType = .vmName)

/-- The key under which the DRS analysis files a VM, if some pattern matches its name. -/
def drsGroupKey (search : Search) (patterns : List Pattern) (name : String) :
    Option GroupKey :=
  firstMatch search drsKey (vmPatterns patterns) name

/-! ## One batch, one group, one cluster -/

/-- The rule for batch `idx` of `total` batches of a group. -/
def ruleOf (c : Cluster) (key : GroupKey) (total : Nat) (batch : List String) (idx : Nat) :
    RuleToCreate where
  ruleName := s!"VCM-AAR-{c.name}-{keyText key}" ++ (if total > 1 then s!"-{idx + 1}" else "")
  vms := batch
  groupKey := key
  vmCount := batch.length
  maxVmsPerRule := maxVmsPerRule c.hostCount
  rationale := s!"Host count={c.hostCount}, max VMs per rule={maxVmsPerRule c.hostCount}"

/-- The entry for a batch of a single VM. -/
def leftoverOf (key : GroupKey) (batch : List String) (idx : Nat) : SkippedGroup where
  group := some s!"{keyText key}_batch{idx + 1}"
  vms := batch
  reason := "Remaining VM count is 1, no rule needed"

/-- One pass of `for idx, batch in enumerate(batches)`. -/
def analyzeBatch (c : Cluster) (key : GroupKey) (total : Nat) (res : ClusterResult)
    (p : List String × Nat) : ClusterResult :=
  if p.1.length < 2 then
    { res with skippedGroups := res.skippedGroups ++ [leftoverOf key p.1 p.2] }
  else
    { res with rulesToCreate := res.rulesToCreate ++ [ruleOf c key total p.1 p.2] }

/-- One pass of `for group_key, group_vms in vm_groups.items()`. The second component is
`results["skipped_single_vm"]`. -/
def analyzeGroup (c : Cluster) (acc : ClusterResult × List String)
    (g : GroupKey × List String) : ClusterResult × List String :=
  let (res, single) := acc
  let (key, groupVms) := g
  if groupVms.length = 1 then
    ({ res with skippedGroups := res.skippedGroups ++
        [⟨key, groupVms, "Only 1 VM in group - anti-affinity rule not needed"⟩] },
      single ++ [s!"{c.name}/{keyText key}"])
  else if c.hostCount < 2 then
    ({ res with skippedGroups := res.skippedGroups ++ [⟨key, groupVms,
        s!"Cluster has only {c.hostCount} host(s) - anti-affinity not possible"⟩] }, single)
  else
    let bs := batches (maxVmsPerRule c.hostCount) groupVms
    let res := bs.zipIdx.foldl (analyzeBatch c key bs.length) res
    ({ res with vmGroups := res.vmGroups ++ [⟨key, groupVms.length, groupVms⟩] }, single)

/-- `vm_groups` of one cluster. -/
def clusterGroups (search : Search) (patterns : List Pattern) (c : Cluster) :
    OrderedDict GroupKey (List String) :=
  groupVms (fun vm => drsGroupKey search patterns vm.name) Vm.name c.vms

def initResult (c : Cluster) : ClusterResult where
  clusterName := c.name
  hostCount := c.hostCount
  vmGroups := []
  rulesToDelete := c.drsRules.filter fun rule => isVcmRule rule.name
  rulesToCreate := []
  skippedGroups := []
  existingRulesCount := c.drsRules.length

/-- The body of the loop over the clusters. -/
def analyzeCluster (search : Search) (patterns : List Pattern) (c : Cluster) :
    ClusterResult × List String :=
  (clusterGroups search patterns c).entries.foldl (analyzeGroup c) (initResult c, [])

/-- `AnalysisEngine.analyze_drs_compliance`. -/
def analyzeDrsCompliance (search : Search) (inventory : Inventory) (patterns : List Pattern) :
    DrsResults :=
  inventory.clusters.foldl (fun results c =>
    let (res, single) := analyzeCluster search patterns c
    { results with
      clusters := results.clusters ++ [res]
      totalRulesToCreate := results.totalRulesToCreate + res.rulesToCreate.length
      totalRulesToDelete := results.totalRulesToDelete + res.rulesToDelete.length
      skippedSingleVm := results.skippedSingleVm ++ single }) ⟨[], 0, 0, 0, []⟩

/-! ## What the loops append -/

theorem two_le_maxVmsPerRule (hostCount : Nat) : 2 ≤ maxVmsPerRule hostCount := by
  unfold maxVmsPerRule
  split <;> omega

theorem maxVmsPerRule_eq {hostCount : Nat} (h : 2 ≤ hostCount) :
    maxVmsPerRule hostCount = max 2 (hostCount - 1) := by
  unfold maxVmsPerRule
  rw [if_pos (by omega)]

/-- The rules of a group: one for each batch of at least two VMs. -/
def batchRules (c : Cluster) (key : GroupKey) (total : Nat) (ps : List (List String × Nat)) :
    List RuleToCreate :=
  ps.filterMap fun p => if p.1.length < 2 then none else some (ruleOf c key total p.1 p.2)

/-- The leftover batches of a group. -/
def batchSkips (key : GroupKey) (ps : List (List String × Nat)) : List SkippedGroup :=
  ps.filterMap fun p => if p.1.length < 2 then some (leftoverOf key p.1 p.2) else none

theorem foldl_analyzeBatch (c : Cluster) (key : GroupKey) (total : Nat) (res : ClusterResult)
    (ps : List (List String × Nat)) :
    ps.foldl (analyzeBatch c key total) res =
      { res with
        rulesToCreate := res.rulesToCreate ++ batchRules c key total ps
        skippedGroups := res.skippedGroups ++ batchSkips key ps } := by
  induction ps generalizing res with
  | nil => simp [batchRules, batchSkips]
  | cons p ps ih =>
    rw [List.foldl_cons, ih]
    by_cases hp : p.1.length < 2
    · simp only [analyzeBatch, batchRules, batchSkips, List.filterMap_cons, if_pos hp,
        List.append_assoc, List.singleton_append]
    · simp only [analyzeBatch, batchRules, batchSkips, List.filterMap_cons, if_neg hp,
        List.append_assoc, List.singleton_append]

/-- The group gets no rule at all: a single VM, or a cluster of fewer than two hosts. -/
def SkippedWhole (c : Cluster) (groupVms : List String) : Prop :=
  groupVms.length = 1 ∨ c.hostCount < 2

instance (c : Cluster) (groupVms : List String) : Decidable (SkippedWhole c groupVms) :=
  inferInstanceAs (Decidable (_ ∨ _))

/-- The rules that one group adds to `rules_to_create`. -/
def groupRules (c : Cluster) (g : GroupKey × List String) : List RuleToCreate :=
  if SkippedWhole c g.2 then []
  else
    let bs := batches (maxVmsPerRule c.hostCount) g.2
    batchRules c g.1 bs.length bs.zipIdx

/-- The entries that one group adds to `skipped_groups`. -/
def groupSkips (c : Cluster) (g : GroupKey × List String) : List SkippedGroup :=
  if g.2.length = 1 then
    [⟨g.1, g.2, "Only 1 VM in group - anti-affinity rule not needed"⟩]
  else if c.hostCount < 2 then
    [⟨g.1, g.2, s!"Cluster has only {c.hostCount} host(s) - anti-affinity not possible"⟩]
  else batchSkips g.1 (batches (maxVmsPerRule c.hostCount) g.2).zipIdx

theorem analyzeGroup_rulesToCreate (c : Cluster) (acc : ClusterResult × List String)
    (g : GroupKey × List String) :
    (analyzeGroup c acc g).1.rulesToCreate = acc.1.rulesToCreate ++ groupRules c g := by
  unfold analyzeGroup groupRules SkippedWhole
  by_cases h1 : g.2.length = 1
  · simp [h1]
  · by_cases h2 : c.hostCount < 2
    · simp [h1, h2]
    · simp [h1, h2, foldl_analyzeBatch]

theorem analyzeGroup_skippedGroups (c : Cluster) (acc : ClusterResult × List String)
    (g : GroupKey × List String) :
    (analyzeGroup c acc g).1.skippedGroups = acc.1.skippedGroups ++ groupSkips c g := by
  unfold analyzeGroup groupSkips
  by_cases h1 : g.2.length = 1
  · simp [h1]
  · by_cases h2 : c.hostCount < 2
    · simp [h1, h2]
    · simp [h1, h2, foldl_analyzeBatch]

/-- The loop over the groups leaves the fields alone that are set before it. -/
theorem analyzeGroup_frame (c : Cluster) (acc : ClusterResult × List String)
    (g : GroupKey × List String) :
    (analyzeGroup c acc g).1.clusterName = acc.1.clusterName ∧
      (analyzeGroup c acc g).1.hostCount = acc.1.hostCount ∧
      (analyzeGroup c acc g).1.rulesToDelete = acc.1.rulesToDelete := by
  unfold analyzeGroup
  by_cases h1 : g.2.length = 1
  · simp [h1]
  · by_cases h2 : c.hostCount < 2
    · simp [h1, h2]
    · simp [h1, h2, foldl_analyzeBatch]

theorem foldl_analyzeGroup (c : Cluster) (gs : List (GroupKey × List String))
    (acc : ClusterResult × List String) :
    (gs.foldl (analyzeGroup c) acc).1.rulesToCreate =
        acc.1.rulesToCreate ++ gs.flatMap (groupRules c) ∧
      (gs.foldl (analyzeGroup c) acc).1.skippedGroups =
        acc.1.skippedGroups ++ gs.flatMap (groupSkips c) ∧
      (gs.foldl (analyzeGroup c) acc).1.clusterName = acc.1.clusterName ∧
      (gs.foldl (analyzeGroup c) acc).1.hostCount = acc.1.hostCount ∧
      (gs.foldl (analyzeGroup c) acc).1.rulesToDelete = acc.1.rulesToDelete := by
  induction gs generalizing acc with
  | nil => simp
  | cons g gs ih =>
    obtain ⟨hrules, hskips, hname, hhosts, hdel⟩ := ih (analyzeGroup c acc g)
    obtain ⟨hn, hh, hd⟩ := analyzeGroup_frame c acc g
    rw [analyzeGroup_rulesToCreate] at hrules
    rw [analyzeGroup_skippedGroups] at hskips
    simp only [List.foldl_cons, List.flatMap_cons, ← List.append_assoc]
    exact ⟨hrules, hskips, hname.trans hn, hhosts.trans hh, hdel.trans hd⟩

section Cluster

variable (search : Search) (patterns : List Pattern) (c : Cluster)

/-- **The planned rules of a cluster** are those of its groups, in the order in which the
groups were first met. -/
theorem rulesToCreate_analyzeCluster :
    (analyzeCluster search patterns c).1.rulesToCreate =
      (clusterGroups search patterns c).entries.flatMap (groupRules c) :=
  (foldl_analyzeGroup c _ _).1

theorem skippedGroups_analyzeCluster :
    (analyzeCluster search patterns c).1.skippedGroups =
      (clusterGroups search patterns c).entries.flatMap (groupSkips c) :=
  (foldl_analyzeGroup c _ _).2.1

@[simp] theorem clusterName_analyzeCluster :
    (analyzeCluster search patterns c).1.clusterName = c.name :=
  (foldl_analyzeGroup c _ _).2.2.1

@[simp] theorem hostCount_analyzeCluster :
    (analyzeCluster search patterns c).1.hostCount = c.hostCount :=
  (foldl_analyzeGroup c _ _).2.2.2.1

@[simp] theorem rulesToDelete_analyzeCluster :
    (analyzeCluster search patterns c).1.rulesToDelete =
      c.drsRules.filter fun rule => isVcmRule rule.name :=
  (foldl_analyzeGroup c _ _).2.2.2.2

end Cluster

theorem analyzeGroup_vmGroups (c : Cluster) (acc : ClusterResult × List String)
    (g : GroupKey × List String) :
    (analyzeGroup c acc g).1.vmGroups =
      acc.1.vmGroups ++ if SkippedWhole c g.2 then [] else [⟨g.1, g.2.length, g.2⟩] := by
  unfold analyzeGroup SkippedWhole
  by_cases h1 : g.2.length = 1
  · simp [h1]
  · by_cases h2 : c.hostCount < 2
    · simp [h1, h2]
    · simp [h1, h2, foldl_analyzeBatch]

/-- `vm_groups` lists the groups that are not skipped as a whole. -/
theorem vmGroups_analyzeCluster (search : Search) (patterns : List Pattern) (c : Cluster) :
    (analyzeCluster search patterns c).1.vmGroups =
      ((clusterGroups search patterns c).entries.filter fun g => ¬ SkippedWhole c g.2).map
        fun g => ⟨g.1, g.2.length, g.2⟩ := by
  have hfold : ∀ (gs : List (GroupKey × List String)) (acc : ClusterResult × List String),
      (gs.foldl (analyzeGroup c) acc).1.vmGroups = acc.1.vmGroups ++
        (gs.filter fun g => ¬ SkippedWhole c g.2).map fun g => ⟨g.1, g.2.length, g.2⟩ := by
    intro gs
    induction gs with
    | nil => simp
    | cons g gs ih =>
      intro acc
      rw [List.foldl_cons, ih, analyzeGroup_vmGroups]
      by_cases hskip : SkippedWhole c g.2
      · simp [hskip]
      · simp [hskip]
  exact hfold (clusterGroups search patterns c).entries (initResult c, [])

/-- One cluster result for each cluster, in inventory order. -/
theorem clusters_analyzeDrsCompliance (search : Search) (inventory : Inventory)
    (patterns : List Pattern) :
    (analyzeDrsCompliance search inventory patterns).clusters =
      inventory.clusters.map fun c => (analyzeCluster search patterns c).1 := by
  unfold analyzeDrsCompliance
  have hfold : ∀ (cs : List Cluster) (results : DrsResults),
      (cs.foldl (fun results c =>
        let (res, single) := analyzeCluster search patterns c
        { results with
          clusters := results.clusters ++ [res]
          totalRulesToCreate := results.totalRulesToCreate + res.rulesToCreate.length
          totalRulesToDelete := results.totalRulesToDelete + res.rulesToDelete.length
          skippedSingleVm := results.skippedSingleVm ++ single }) results).clusters =
        results.clusters ++ cs.map fun c => (analyzeCluster search patterns c).1 := by
    intro cs
    induction cs with
    | nil => simp
    | cons c cs ih =>
      intro results
      rw [List.foldl_cons, ih]
      simp
  simpa using hfold inventory.clusters ⟨[], 0, 0, 0, []⟩

/-! ## The names of the rules -/

theorem isVcmRule_ruleOf (c : Cluster) (key : GroupKey) (total : Nat) (batch : List String)
    (idx : Nat) : isVcmRule (ruleOf c key total batch idx).ruleName = true := by
  simp only [isVcmRule, ruleOf, String.toList_append, List.append_assoc,
    List.isPrefixOf_iff_prefix]
  exact List.prefix_append _ _

theorem mem_groupRules {c : Cluster} {g : GroupKey × List String} {r : RuleToCreate}
    (h : r ∈ groupRules c g) :
    ¬ SkippedWhole c g.2 ∧ ∃ idx batch,
      (batches (maxVmsPerRule c.hostCount) g.2)[idx]? = some batch ∧ 2 ≤ batch.length ∧
      r = ruleOf c g.1 (batches (maxVmsPerRule c.hostCount) g.2).length batch idx := by
  unfold groupRules at h
  split at h
  · cases h
  · rename_i hskip
    refine ⟨hskip, ?_⟩
    obtain ⟨p, hp, hr⟩ := List.mem_filterMap.mp h
    split at hr
    · cases hr
    · rename_i hlen
      cases hr
      have hget := List.mem_zipIdx_iff_getElem?.mp hp
      exact ⟨p.2, p.1, hget, by omega, rfl⟩

/-- Every planned rule is managed: its name carries the prefix. -/
theorem isVcmRule_of_mem_rulesToCreate {search : Search} {patterns : List Pattern}
    {c : Cluster} {r : RuleToCreate}
    (h : r ∈ (analyzeCluster search patterns c).1.rulesToCreate) :
    isVcmRule r.ruleName = true := by
  rw [rulesToCreate_analyzeCluster] at h
  obtain ⟨g, _, hr⟩ := List.mem_flatMap.mp h
  obtain ⟨_, idx, batch, _, _, rfl⟩ := mem_groupRules hr
  exact isVcmRule_ruleOf _ _ _ _ _

end VsphereCompliance.Engine
