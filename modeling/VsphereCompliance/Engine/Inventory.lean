import Mathlib.Data.Rat.Defs

/-!
# The inventory and the patterns

The document that `VCenterService.get_full_inventory` builds and `AnalysisEngine` reads, and
the active patterns. Only the entries that the engine reads are kept. Sizes are rationals: a
size in GB is rounded to two decimals before it is compared or printed.
-/

namespace VsphereCompliance.Engine

/-- One entry of a VM's `disks`: a virtual disk, or the medium of a CD/DVD drive
(`is_iso`). -/
structure Disk where
  datastore : Option String
  datastoreCluster : Option String
  isIso : Bool
  deriving DecidableEq, Repr

structure Vm where
  name : String
  disks : List Disk
  deriving DecidableEq, Repr

/-- The `type` of an entry of `drs_rules`. -/
inductive RuleType
  | antiAffinity
  | affinity
  deriving DecidableEq, Repr

/-- One entry of a cluster's `drs_rules`. -/
structure DrsRule where
  name : String
  type : RuleType
  enabled : Bool
  mandatory : Bool
  vms : List String
  key : Nat
  deriving DecidableEq, Repr

structure Cluster where
  name : String
  hostCount : Nat
  vms : List Vm
  drsRules : List DrsRule
  deriving DecidableEq, Repr

structure Datastore where
  name : String
  freeGb : ℚ
  deriving DecidableEq

/-- One entry of `datastore_clusters`: a StoragePod with the names of its datastores. -/
structure Pod where
  name : String
  datastores : List String
  deriving DecidableEq, Repr

structure Inventory where
  clusters : List Cluster
  datastores : List Datastore
  datastoreClusters : List Pod
  deriving DecidableEq

/-- A cluster without hosts has no VMs: the VMs of a cluster are read from its hosts. -/
def Cluster.Populated (c : Cluster) : Prop := c.hostCount = 0 → c.vms = []

/-- The `pattern_type` column holds any text; `other` stands for every text that the engine
does not look for. -/
inductive PatternType
  | vmName
  | datastore
  | role
  | other
  deriving DecidableEq, Repr

structure Pattern where
  patternType : PatternType
  regexPattern : String
  deriving DecidableEq, Repr

/-! ## Python's truth of optional strings -/

/-- `x` as a condition: `None` and the empty string are false. -/
def truthy : Option String → Option String
  | none => none
  | some s => if s = "" then none else some s

/-- `x or y`. -/
def pyOr (x y : Option String) : Option String := if (truthy x).isSome then x else y

@[simp] theorem truthy_none : truthy none = none := rfl

theorem truthy_some (s : String) : truthy (some s) = if s = "" then none else some s := rfl

theorem truthy_eq_some_iff {o : Option String} {s : String} :
    truthy o = some s ↔ o = some s ∧ s ≠ "" := by
  cases o with
  | none => simp
  | some t =>
    by_cases ht : t = ""
    · subst ht
      simp [truthy_some, eq_comm]
    · rw [truthy_some, if_neg ht, Option.some.injEq]
      exact ⟨fun h => ⟨h, h ▸ ht⟩, And.left⟩

theorem truthy_pyOr (x y : Option String) : truthy (pyOr x y) = (truthy x).or (truthy y) := by
  unfold pyOr
  cases hx : truthy x with
  | none => simp
  | some s => simp [hx]

end VsphereCompliance.Engine
