import VsphereCompliance.Engine.Grouping
import VsphereCompliance.Library.OrderedPairs
import VsphereCompliance.Library.SetOrder
import Mathlib.Algebra.Order.Ring.Rat
import Mathlib.Data.List.MinMax
import Mathlib.Data.Rat.Floor

/-!
# The storage analysis

`analyzeStorageCompliance` is `AnalysisEngine.analyze_storage_compliance`: it groups the VMs
of all clusters, reports every two VMs of a group that share a datastore or a datastore
cluster, lists the VMs whose disks lie on several datastores, and makes one proposal for each
violation. A Python `set` is a `Finset`; where the source turns one into a list, the order is
an arbitrary `SetOrder`.
-/

namespace VsphereCompliance.Engine

open OrderedPairs

/-- `{**vm, "cluster": cluster["name"]}`. -/
structure VmEntry where
  name : String
  disks : List Disk
  cluster : String
  deriving DecidableEq, Repr

inductive Severity
  | info
  | warning
  | critical
  deriving DecidableEq, Repr

structure Violation where
  group : GroupKey
  vmA : String
  vmB : String
  sharedDatastores : List String
  sharedDatastoreClusters : List String
  severity : Severity
  deriving DecidableEq, Repr

/-! ## Lookup tables -/

/-- `{ds["name"]: ds for ds in inventory["datastores"]}`. -/
def allDatastores (inv : Inventory) : OrderedDict String Datastore :=
  OrderedDict.ofList (inv.datastores.map fun ds => (ds.name, ds))

/-- `{pod["name"]: pod for pod in inventory["datastore_clusters"]}`. -/
def dsClusters (inv : Inventory) : OrderedDict String Pod :=
  OrderedDict.ofList (inv.datastoreClusters.map fun pod => (pod.name, pod))

/-- The datastore names in the order of the loop that fills `ds_to_pod`, each with the
cluster that lists it. -/
def podListings (inv : Inventory) : List (String × String) :=
  (dsClusters inv).entries.flatMap fun p => p.2.datastores.map fun ds => (ds, p.1)

def dsToPod (inv : Inventory) : OrderedDict String String := OrderedDict.ofList (podListings inv)

/-- `[d for d in vm["disks"] if not d.get("is_iso") and d.get("datastore")]`. -/
def realDisks (disks : List Disk) : List Disk :=
  disks.filter fun d => !d.isIso && (truthy d.datastore).isSome

/-- `ds_to_pod.get(disk["datastore"]) or disk.get("datastore_cluster")`, if true. -/
def effectivePod (toPod : OrderedDict String String) (d : Disk) : Option String :=
  truthy (pyOr (d.datastore.bind toPod.get?) d.datastoreCluster)

/-! ## Violations -/

/-- The sets `ds_set` and `pod_set` of one VM. -/
structure Footprint where
  datastores : Finset String
  pods : Finset String
  deriving DecidableEq

def footprint (toPod : OrderedDict String String) (disks : List Disk) : Footprint where
  datastores := ((realDisks disks).filterMap Disk.datastore).toFinset
  pods := ((realDisks disks).filterMap (effectivePod toPod)).toFinset

/-- `vm_storage` of one group. -/
def vmStorage (toPod : OrderedDict String String) (groupVms : List VmEntry) :
    OrderedDict String Footprint :=
  OrderedDict.ofList (groupVms.map fun vm => (vm.name, footprint toPod vm.disks))

/-- The body of the double loop: a record if the two footprints meet. -/
def violationOf (order : SetOrder String) (key : GroupKey)
    (p : (String × Footprint) × (String × Footprint)) : Option Violation :=
  let sharedDs := p.1.2.datastores ∩ p.2.2.datastores
  let sharedPods := p.1.2.pods ∩ p.2.2.pods
  if sharedDs ≠ ∅ ∨ sharedPods ≠ ∅ then
    some {
      group := key
      vmA := p.1.1
      vmB := p.2.1
      sharedDatastores := order.toList sharedDs
      sharedDatastoreClusters := order.toList sharedPods
      severity := if sharedPods ≠ ∅ then .critical else .warning }
  else none

/-- The violations of one group of VMs. -/
def groupViolations (order : SetOrder String) (toPod : OrderedDict String String)
    (g : GroupKey × List VmEntry) : List Violation :=
  if g.2.length < 2 then []
  else (pairs (vmStorage toPod g.2).entries).filterMap (violationOf order g.1)

/-- The patterns of the storage analysis. -/
def dsPatterns (patterns : List Pattern) : List Pattern :=
  patterns.filter fun p => p.patternType = .datastore || p.patternType = .vmName

/-- The key under which the storage analysis files a VM. -/
def storageGroupKey (search : Search) (patterns : List Pattern) (name : String) :
    Option GroupKey :=
  firstMatch search storageKey (dsPatterns patterns) name

def allVmsWithDisks (inv : Inventory) : List VmEntry :=
  inv.clusters.flatMap fun c => c.vms.map fun vm => ⟨vm.name, vm.disks, c.name⟩

/-- `vm_groups`, over all clusters. -/
def storageGroups (search : Search) (patterns : List Pattern) (inv : Inventory) :
    OrderedDict GroupKey (List VmEntry) :=
  groupVms (fun vm => storageGroupKey search patterns vm.name) id (allVmsWithDisks inv)

def violations (search : Search) (order : SetOrder String) (inv : Inventory)
    (patterns : List Pattern) : List Violation :=
  (storageGroups search patterns inv).entries.flatMap (groupViolations order (dsToPod inv))

/-! ## Scattered VMs -/

/-- What `_generate_consolidation_proposal` advises. -/
inductive Recommendation
  | alreadySingle
  | consolidate (ds : Datastore)
  | manualReview (datastores : Nat)
  deriving DecidableEq

/-- The nearest integer, the even one of two. -/
def roundHalfEven (q : ℚ) : Int :=
  let f := ⌊q⌋
  if q - f < 1 / 2 then f
  else if 1 / 2 < q - f then f + 1
  else if f % 2 = 0 then f else f + 1

/-- The string that `_generate_consolidation_proposal` returns. -/
def Recommendation.text : Recommendation → String
  | .alreadySingle => "VM disks already on single datastore."
  | .consolidate ds =>
    s!"Consolidate all disks to '{ds.name}' (most free space: {roundHalfEven ds.freeGb} GB)"
  | .manualReview n => s!"VM has disks on {n} datastores. Manual review needed."

/-- `_generate_consolidation_proposal`; `max` returns the first of several largest. -/
def generateConsolidationProposal (datastores : List String)
    (allDs : OrderedDict String Datastore) : Recommendation :=
  if datastores.length ≤ 1 then .alreadySingle
  else
    match allDs.values.argmax Datastore.freeGb with
    | some best => .consolidate best
    | none => .manualReview datastores.length

structure ScatteredVm where
  vmName : String
  cluster : String
  datastores : List String
  datastoreClusters : List String
  diskCount : Nat
  recommendation : Recommendation
  deriving DecidableEq

/-- `set(ds_to_pod.get(..) or d.get("datastore_cluster") or "" for d in real_disks)`
without the empty string. -/
def scatteredPods (toPod : OrderedDict String String) (disks : List Disk) : Finset String :=
  ((realDisks disks).map fun d => (effectivePod toPod d).getD "").toFinset.erase ""

/-- The body of the loop over all VMs. -/
def scatteredVm (order : SetOrder String) (inv : Inventory) (vm : VmEntry) :
    Option ScatteredVm :=
  let dsSet := (footprint (dsToPod inv) vm.disks).datastores
  let podSet := scatteredPods (dsToPod inv) vm.disks
  if realDisks vm.disks = [] then none
  else if dsSet.card > 1 ∨ podSet.card > 1 then
    some {
      vmName := vm.name
      cluster := vm.cluster
      datastores := order.toList dsSet
      datastoreClusters := order.toList podSet
      diskCount := (realDisks vm.disks).length
      recommendation := generateConsolidationProposal (order.toList dsSet) (allDatastores inv) }
  else none

def scatteredVms (order : SetOrder String) (inv : Inventory) : List ScatteredVm :=
  (allVmsWithDisks inv).filterMap (scatteredVm order inv)

/-! ## Proposals -/

/-- What `_suggest_separation` advises. -/
inductive Suggestion
  | tooFew (availableDs : Nat)
  | otherPod (vmB : String) (pods : List String)
  | otherDatastore (vmB : String) (datastores : List String)
  | manualReview
  deriving DecidableEq, Repr

/-- The string that `_suggest_separation` returns. -/
def Suggestion.text : Suggestion → String
  | .tooFew n =>
    s!"⚠️ Only {n} datastore(s) available. Separation may not be possible. Review infrastructure."
  | .otherPod vmB pods =>
    s!"Move '{vmB}' disks to a different datastore cluster. Available: " ++ ", ".intercalate pods
  | .otherDatastore vmB datastores =>
    s!"Move '{vmB}' disks to a different datastore. Options: " ++ ", ".intercalate datastores
  | .manualReview => "Manual review required for optimal placement."

/-- `_suggest_separation`. -/
def suggestSeparation (vmB : String) (sharedDs sharedPods : List String)
    (availableDs : List Datastore) (availablePods : List Pod) : Suggestion :=
  if availableDs.length < 2 ∧ availablePods.length < 2 then .tooFew availableDs.length
  else if sharedPods ≠ [] ∧ availablePods.length ≥ 2 then
    .otherPod vmB ((availablePods.take 3).map Pod.name)
  else if sharedDs ≠ [] ∧ availableDs.length ≥ 2 then
    .otherDatastore vmB ((availableDs.take 3).map Datastore.name)
  else .manualReview

structure Proposal where
  violation : Violation
  feasible : Bool
  suggestion : Suggestion
  deriving DecidableEq, Repr

/-- `[ds for ds in all_datastores.values() if ds["free_gb"] > 50]`. -/
def availableDs (inv : Inventory) : List Datastore :=
  (allDatastores inv).values.filter fun ds => ds.freeGb > 50

def availablePods (inv : Inventory) : List Pod := (dsClusters inv).values

def proposalOf (inv : Inventory) (v : Violation) : Proposal where
  violation := v
  feasible := (availableDs inv).length ≥ 2 || (availablePods inv).length ≥ 2
  suggestion := suggestSeparation v.vmB v.sharedDatastores v.sharedDatastoreClusters
    (availableDs inv) (availablePods inv)

structure StorageSummary where
  totalViolations : Nat
  totalScatteredVms : Nat
  totalProposals : Nat
  criticalViolations : Nat
  deriving DecidableEq, Repr

structure StorageResults where
  violations : List Violation
  scatteredVms : List ScatteredVm
  proposals : List Proposal
  summary : StorageSummary
  deriving DecidableEq

/-- `AnalysisEngine.analyze_storage_compliance`. -/
def analyzeStorageCompliance (search : Search) (order : SetOrder String) (inv : Inventory)
    (patterns : List Pattern) : StorageResults :=
  let vs := violations search order inv patterns
  let scattered := scatteredVms order inv
  let proposals := vs.map (proposalOf inv)
  { violations := vs
    scatteredVms := scattered
    proposals := proposals
    summary := {
      totalViolations := vs.length
      totalScatteredVms := scattered.length
      totalProposals := proposals.length
      criticalViolations := (vs.filter fun v => v.severity = .critical).length } }

end VsphereCompliance.Engine
