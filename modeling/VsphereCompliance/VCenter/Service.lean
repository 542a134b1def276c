import VsphereCompliance.VCenter.Objects
import VsphereCompliance.Engine.Storage

/-!
# The vCenter service

`VCenterService`: reading the inventory document from the objects, and adding an
anti-affinity rule to a cluster. `ReconfigureEx` may raise; otherwise it returns a task whose
result comes later and is never read, so a task carries its result from the start and
`Tree.finish` is the vCenter once the tasks have finished.
-/

namespace VsphereCompliance.VCenter

open Engine

/-! ## Reading -/

/-- `get_cluster_vms`. -/
def getClusterVms (c : ClusterObj) : List VmObj := c.hosts.flatMap HostObj.vms

/-- The loop of `_get_datastore_pod` over the parents: the first StoragePod. -/
def getDatastorePod : Ancestry → Option String
  | .root => none
  | .folder parent => getDatastorePod parent
  | .datacenter _ parent => getDatastorePod parent
  | .storagePod _ name _ => some name

/-- The entry of `disks` for one device. -/
def diskEntry : Device → Option Disk
  | .virtualDisk (some ds) => some ⟨some ds.name, getDatastorePod ds.parent, false⟩
  | .virtualDisk none => none
  | .virtualCdrom true ds => some ⟨ds.map DatastoreObj.name, none, true⟩
  | .virtualCdrom false _ => none
  | .other => none

def getVmDisksWithDatastores (vm : VmObj) : List Disk :=
  match vm.config with
  | none => []
  | some devices => devices.filterMap diskEntry

/-- The entry of `drs_rules` for one rule. -/
def ruleEntry (rule : RuleObj) : Option DrsRule :=
  let entry type : DrsRule := ⟨rule.name, type, rule.enabled, rule.mandatory,
    rule.vms.filterMap VmRef.name, rule.key⟩
  match rule.kind with
  | .antiAffinity => some (entry .antiAffinity)
  | .affinity => some (entry .affinity)
  | .other => none

def getDrsRules (c : ClusterObj) : List DrsRule := c.rules.filterMap ruleEntry

/-- `round(bytes / 1024**3, 2)`. -/
def roundGb (bytes : Nat) : ℚ := roundHalfEven (bytes / 1024 ^ 3 * 100) / 100

def vmEntry (vm : VmObj) : Option Vm :=
  if vm.config.isSome then some ⟨vm.name, getVmDisksWithDatastores vm⟩ else none

def clusterEntry (c : ClusterObj) : Cluster where
  name := c.name
  hostCount := c.hosts.length
  vms := (getClusterVms c).filterMap vmEntry
  drsRules := getDrsRules c

/-- `get_full_inventory`. -/
def getFullInventory (t : Tree) : Inventory where
  clusters := t.clusters.map clusterEntry
  datastores := t.datastores.map fun ds => ⟨ds.name, ds.freeSpace.elim 0 roundGb⟩
  datastoreClusters := t.pods.map fun pod => ⟨pod.name, pod.childEntity.map DatastoreObj.name⟩

/-- Each cluster of a fetched inventory has its VMs on hosts. -/
theorem populated_getFullInventory (t : Tree) : ∀ c ∈ (getFullInventory t).clusters,
    c.Populated := by
  intro c hc hhosts
  obtain ⟨obj, _, rfl⟩ := List.mem_map.mp hc
  have hnil : obj.hosts = [] := List.length_eq_zero_iff.mp hhosts
  simp [clusterEntry, getClusterVms, hnil]

/-! ## Adding a rule -/

/-- What `ReconfigureEx` does: it raises, or returns a task; the task will succeed with a key
for the new rule, or fail. -/
inductive Reconfigure
  | raises
  | task (result : Option Nat)
  deriving DecidableEq, Repr

/-- A task that adds an anti-affinity rule to the cluster with a reference. -/
structure RuleTask where
  cluster : Nat
  ruleName : String
  vms : List VmRef
  result : Option Nat
  deriving DecidableEq, Repr

/-- `[vm_map[name] for name in vm_names if name in vm_map]`. -/
def targetVms (c : ClusterObj) (vmNames : List String) : List VmRef :=
  let vmMap := OrderedDict.ofList ((getClusterVms c).map fun vm => (vm.name, vm))
  (vmNames.filterMap vmMap.get?).map fun vm => ⟨vm.ref, some vm.name⟩

/-- `create_anti_affinity_rule`: the task it started, if any, and what it returns. -/
def createAntiAffinityRule (c : ClusterObj) (ruleName : String) (vmNames : List String)
    (outcome : Reconfigure) : Option RuleTask × Bool :=
  if (targetVms c vmNames).length < 2 then (none, false)
  else
    match outcome with
    | .raises => (none, false)
    | .task result => (some ⟨c.ref, ruleName, targetVms c vmNames, result⟩, true)

/-- The rule that a task has added once it has finished. -/
def RuleTask.newRule (task : RuleTask) : Option RuleObj :=
  task.result.map fun key => ⟨task.ruleName, .antiAffinity, true, false, task.vms, key⟩

/-- The cluster after the task has finished. -/
def ClusterObj.finish (c : ClusterObj) (task : RuleTask) : ClusterObj :=
  if c.ref = task.cluster then { c with rules := c.rules ++ task.newRule.toList } else c

/-- The vCenter after the tasks have finished. -/
def Tree.finish (t : Tree) (tasks : List RuleTask) : Tree :=
  { t with clusters := t.clusters.map fun c => tasks.foldl ClusterObj.finish c }

/-! ## What finished tasks leave -/

/-- The rules that the tasks have added to the cluster with a reference. -/
def addedRules (tasks : List RuleTask) (cluster : Nat) : List RuleObj :=
  (tasks.filter fun task => task.cluster = cluster).filterMap RuleTask.newRule

theorem ClusterObj.foldl_finish (tasks : List RuleTask) (c : ClusterObj) :
    tasks.foldl ClusterObj.finish c = { c with rules := c.rules ++ addedRules tasks c.ref } := by
  induction tasks generalizing c with
  | nil => simp [addedRules]
  | cons task tasks ih =>
    rw [List.foldl_cons, ih]
    unfold ClusterObj.finish addedRules
    by_cases href : c.ref = task.cluster
    · cases hrule : task.newRule with
      | none => simp [href, hrule]
      | some rule => simp [href, hrule]
    · have href' : ¬ task.cluster = c.ref := fun h => href h.symm
      simp [href, href']

/-- **Finished tasks append their rules** to their clusters and change nothing else. -/
theorem Tree.clusters_finish (t : Tree) (tasks : List RuleTask) :
    (t.finish tasks).clusters =
      t.clusters.map fun c => { c with rules := c.rules ++ addedRules tasks c.ref } := by
  unfold Tree.finish
  exact List.map_congr_left fun c _ => c.foldl_finish tasks

theorem mem_addedRules {tasks : List RuleTask} {cluster : Nat} {rule : RuleObj} :
    rule ∈ addedRules tasks cluster ↔
      ∃ task ∈ tasks, task.cluster = cluster ∧ task.newRule = some rule := by
  unfold addedRules
  simp only [List.mem_filterMap, List.mem_filter, decide_eq_true_eq, and_assoc]

/-- Every name of a VM of the cluster is found. -/
theorem names_targetVms {c : ClusterObj} {vmNames : List String}
    (h : ∀ name ∈ vmNames, ∃ vm ∈ getClusterVms c, vm.name = name) :
    (targetVms c vmNames).filterMap VmRef.name = vmNames := by
  have hget : ∀ name ∈ vmNames,
      ((OrderedDict.ofList ((getClusterVms c).map fun vm => (vm.name, vm))).get? name).map
        VmObj.name = some name := by
    intro name hname
    obtain ⟨vm, hvm, rfl⟩ := h name hname
    have hkey : vm.name ∈
        (OrderedDict.ofList ((getClusterVms c).map fun vm => (vm.name, vm))).keys := by
      rw [OrderedDict.mem_keys_ofList, List.map_map]
      exact List.mem_map_of_mem hvm
    obtain ⟨vm', hget⟩ := Option.isSome_iff_exists.mp (OrderedDict.get?_isSome_iff.mpr hkey)
    obtain ⟨_, _, heq⟩ := List.mem_map.mp (OrderedDict.get?_ofList_mem hget)
    obtain ⟨hname', rfl⟩ := Prod.mk.inj heq
    rw [hget, Option.map_some, hname']
  unfold targetVms
  rw [List.filterMap_map]
  have hcomp : VmRef.name ∘ (fun vm : VmObj => (⟨vm.ref, some vm.name⟩ : VmRef)) =
      some ∘ VmObj.name := rfl
  rw [hcomp, List.filterMap_eq_map, List.map_filterMap, List.filterMap_congr hget]
  exact List.filterMap_some

/-- What a started task is about. -/
theorem createAntiAffinityRule_eq_some_iff {c : ClusterObj} {ruleName : String}
    {vmNames : List String} {outcome : Reconfigure} {task : RuleTask} :
    (createAntiAffinityRule c ruleName vmNames outcome).1 = some task ↔
      2 ≤ (targetVms c vmNames).length ∧ ∃ result, outcome = .task result ∧
        task = ⟨c.ref, ruleName, targetVms c vmNames, result⟩ := by
  unfold createAntiAffinityRule
  split
  · rename_i hlen
    constructor
    · intro h
      cases h
    · intro h
      exact absurd h.1 (Nat.not_le.mpr hlen)
  · rename_i hlen
    cases outcome with
    | raises => simp
    | task result =>
      simp only [Option.some.injEq, Reconfigure.task.injEq, exists_eq_left']
      exact ⟨fun h => ⟨Nat.le_of_not_lt hlen, h.symm⟩, fun h => h.2.symm⟩

end VsphereCompliance.VCenter
