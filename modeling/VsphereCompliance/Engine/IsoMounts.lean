import VsphereCompliance.Engine.Violations
import Mathlib.Data.List.Forall2

/-!
# What is no disk does not count

The media of CD/DVD drives and the disks without a datastore have no part in the storage
analysis: it gives the same result for an inventory and for the one that has the real disks only
(`analyzeStorageCompliance_stripped`). An edit of entries that are no real disks keeps the real
disks, so it keeps the result up to the order in which sets are listed
(`iso_edits_irrelevant`).
-/

namespace VsphereCompliance.Engine

open OrderedPairs

/-! ## Edits -/

/-- From the first list of disks to the second by inserting, removing and changing entries that
are ISO mounts or have no datastore. -/
inductive DisksEdited : List Disk → List Disk → Prop
  | nil : DisksEdited [] []
  | keep {disks disks' : List Disk} (d : Disk) :
      DisksEdited disks disks' → DisksEdited (d :: disks) (d :: disks')
  | insert {disks disks' : List Disk} {d : Disk} :
      ¬ d.IsReal → DisksEdited disks disks' → DisksEdited disks (d :: disks')
  | remove {disks disks' : List Disk} {d : Disk} :
      ¬ d.IsReal → DisksEdited disks disks' → DisksEdited (d :: disks) disks'

def VmEdited (vm vm' : Vm) : Prop :=
  ∃ disks, DisksEdited vm.disks disks ∧ vm' = { vm with disks }

def ClusterEdited (c c' : Cluster) : Prop :=
  ∃ vms, List.Forall₂ VmEdited c.vms vms ∧ c' = { c with vms }

/-- The inventories differ in such entries only. -/
def InventoryEdited (inv inv' : Inventory) : Prop :=
  ∃ clusters, List.Forall₂ ClusterEdited inv.clusters clusters ∧ inv' = { inv with clusters }

/-! ## The inventory with the real disks only -/

def Vm.stripped (vm : Vm) : Vm := { vm with disks := realDisks vm.disks }

def Cluster.stripped (c : Cluster) : Cluster := { c with vms := c.vms.map Vm.stripped }

def Inventory.stripped (inv : Inventory) : Inventory :=
  { inv with clusters := inv.clusters.map Cluster.stripped }

def VmEntry.stripped (vm : VmEntry) : VmEntry := { vm with disks := realDisks vm.disks }

theorem realDisks_cons (d : Disk) (disks : List Disk) :
    realDisks (d :: disks) = realDisks [d] ++ realDisks disks := List.filter_append [d] disks

theorem realDisks_cons_of_not_isReal {d : Disk} (h : ¬ d.IsReal) (disks : List Disk) :
    realDisks (d :: disks) = realDisks disks := by
  have hnil : realDisks [d] = [] := by
    apply List.eq_nil_iff_forall_not_mem.mpr
    intro d' hd'
    obtain ⟨hmem, hreal⟩ := mem_realDisks.mp hd'
    exact h (List.mem_singleton.mp hmem ▸ hreal)
  rw [realDisks_cons, hnil, List.nil_append]

@[simp] theorem realDisks_realDisks (disks : List Disk) :
    realDisks (realDisks disks) = realDisks disks := by
  simp [realDisks, List.filter_filter]

/-- An edit keeps the real disks. -/
theorem DisksEdited.realDisks_eq {disks disks' : List Disk} (h : DisksEdited disks disks') :
    realDisks disks = realDisks disks' := by
  induction h with
  | nil => rfl
  | keep d _ ih => rw [realDisks_cons, ih, ← realDisks_cons]
  | insert hd _ ih => rw [ih, realDisks_cons_of_not_isReal hd]
  | remove hd _ ih => rw [realDisks_cons_of_not_isReal hd, ih]

theorem map_eq_of_forall₂ {α β : Type} {R : α → α → Prop} {f : α → β}
    (hf : ∀ a b, R a b → f a = f b) {xs ys : List α} (h : List.Forall₂ R xs ys) :
    xs.map f = ys.map f := by
  induction h with
  | nil => rfl
  | cons hab _ ih => rw [List.map_cons, List.map_cons, hf _ _ hab, ih]

theorem InventoryEdited.stripped_eq {inv inv' : Inventory} (h : InventoryEdited inv inv') :
    inv.stripped = inv'.stripped := by
  have hvm : ∀ vm vm', VmEdited vm vm' → vm.stripped = vm'.stripped := by
    rintro vm _ ⟨disks, hdisks, rfl⟩
    simp [Vm.stripped, hdisks.realDisks_eq]
  have hcluster : ∀ c c', ClusterEdited c c' → c.stripped = c'.stripped := by
    rintro c _ ⟨vms, hvms, rfl⟩
    simp [Cluster.stripped, map_eq_of_forall₂ hvm hvms]
  obtain ⟨clusters, hclusters, rfl⟩ := h
  simp [Inventory.stripped, map_eq_of_forall₂ hcluster hclusters]

/-! ## The analysis of the real disks -/

section Stripped

variable (search : Search) (order : SetOrder String) (inv : Inventory) (patterns : List Pattern)

@[simp] theorem footprint_realDisks (toPod : OrderedDict String String) (disks : List Disk) :
    footprint toPod (realDisks disks) = footprint toPod disks := by
  simp [footprint]

@[simp] theorem scatteredPods_realDisks (toPod : OrderedDict String String) (disks : List Disk) :
    scatteredPods toPod (realDisks disks) = scatteredPods toPod disks := by
  simp [scatteredPods]

theorem allVmsWithDisks_stripped :
    allVmsWithDisks inv.stripped = (allVmsWithDisks inv).map VmEntry.stripped := by
  simp [allVmsWithDisks, Inventory.stripped, Cluster.stripped, Vm.stripped, VmEntry.stripped,
    List.flatMap_map, List.map_flatMap, Function.comp_def]

theorem storageGroups_stripped :
    (storageGroups search patterns inv.stripped).entries =
      (storageGroups search patterns inv).entries.map
        fun g => (g.1, g.2.map VmEntry.stripped) := by
  have hgroup : storageGroups search patterns inv.stripped =
      OrderedDict.group (fun vm : VmEntry => storageGroupKey search patterns vm.name)
        VmEntry.stripped (allVmsWithDisks inv) := by
    unfold storageGroups groupVms OrderedDict.group
    rw [allVmsWithDisks_stripped, List.foldl_map]
    rfl
  have hmap := OrderedDict.group_map_val
    (fun vm : VmEntry => storageGroupKey search patterns vm.name) id VmEntry.stripped
    (allVmsWithDisks inv)
  rw [hgroup]
  exact congrArg OrderedDict.entries hmap

theorem groupViolations_stripped (toPod : OrderedDict String String)
    (g : GroupKey × List VmEntry) :
    groupViolations order toPod (g.1, g.2.map VmEntry.stripped) =
      groupViolations order toPod g := by
  have hstorage : vmStorage toPod (g.2.map VmEntry.stripped) = vmStorage toPod g.2 := by
    simp [vmStorage, VmEntry.stripped, Function.comp_def]
  unfold groupViolations
  rw [hstorage, List.length_map]

theorem violations_stripped :
    violations search order inv.stripped patterns = violations search order inv patterns := by
  unfold violations
  rw [storageGroups_stripped, List.flatMap_map]
  apply List.flatMap_congr
  intro g _
  exact groupViolations_stripped order (dsToPod inv) g

theorem scatteredVm_stripped (vm : VmEntry) :
    scatteredVm order inv.stripped vm.stripped = scatteredVm order inv vm := by
  have htoPod : dsToPod inv.stripped = dsToPod inv := rfl
  have hall : allDatastores inv.stripped = allDatastores inv := rfl
  simp only [scatteredVm, VmEntry.stripped, footprint_realDisks, scatteredPods_realDisks,
    realDisks_realDisks, htoPod, hall]

theorem scatteredVms_stripped : scatteredVms order inv.stripped = scatteredVms order inv := by
  unfold scatteredVms
  rw [allVmsWithDisks_stripped, List.filterMap_map]
  apply List.filterMap_congr
  intro vm _
  exact scatteredVm_stripped order inv vm

/-- **The analysis sees the real disks only.** -/
theorem analyzeStorageCompliance_stripped :
    analyzeStorageCompliance search order inv.stripped patterns =
      analyzeStorageCompliance search order inv patterns := by
  unfold analyzeStorageCompliance
  rw [violations_stripped, scatteredVms_stripped]
  rfl

end Stripped

/-! ## The order of sets -/

/-- Equal but for the order of the two lists that come from sets. -/
structure Violation.Similar (v v' : Violation) : Prop where
  group : v.group = v'.group
  vmA : v.vmA = v'.vmA
  vmB : v.vmB = v'.vmB
  sharedDatastores : v.sharedDatastores.Perm v'.sharedDatastores
  sharedDatastoreClusters : v.sharedDatastoreClusters.Perm v'.sharedDatastoreClusters
  severity : v.severity = v'.severity

structure ScatteredVm.Similar (s s' : ScatteredVm) : Prop where
  vmName : s.vmName = s'.vmName
  cluster : s.cluster = s'.cluster
  datastores : s.datastores.Perm s'.datastores
  datastoreClusters : s.datastoreClusters.Perm s'.datastoreClusters
  diskCount : s.diskCount = s'.diskCount
  recommendation : s.recommendation = s'.recommendation

structure Proposal.Similar (p p' : Proposal) : Prop where
  violation : p.violation.Similar p'.violation
  feasible : p.feasible = p'.feasible
  suggestion : p.suggestion = p'.suggestion

/-- Equal but for the order of the lists that come from sets. -/
structure StorageResults.Similar (r r' : StorageResults) : Prop where
  violations : List.Forall₂ Violation.Similar r.violations r'.violations
  scatteredVms : List.Forall₂ ScatteredVm.Similar r.scatteredVms r'.scatteredVms
  proposals : List.Forall₂ Proposal.Similar r.proposals r'.proposals
  summary : r.summary = r'.summary

theorem perm_toList (order order' : SetOrder String) (s : Finset String) :
    (order.toList s).Perm (order'.toList s) := by
  rw [List.perm_ext_iff_of_nodup (order.nodup s) (order'.nodup s)]
  simp [order.mem_toList, order'.mem_toList]

section Orders

variable (search : Search) (order order' : SetOrder String) (inv : Inventory)
  (patterns : List Pattern)

theorem similar_violationOf (key : GroupKey) (p : (String × Footprint) × (String × Footprint)) :
    Option.Rel Violation.Similar (violationOf order key p) (violationOf order' key p) := by
  unfold violationOf
  dsimp only
  split
  · exact .some ⟨rfl, rfl, rfl, perm_toList order order' _, perm_toList order order' _, rfl⟩
  · exact .none

theorem similar_violations : List.Forall₂ Violation.Similar
    (violations search order inv patterns) (violations search order' inv patterns) := by
  unfold violations
  refine List.rel_flatMap (R := Eq) (List.forall₂_refl _) ?_
  rintro g _ rfl
  unfold groupViolations
  split
  · exact .nil
  · refine List.rel_filterMap (R := Eq) ?_ (List.forall₂_refl _)
    rintro p _ rfl
    exact similar_violationOf order order' g.1 p

theorem similar_scatteredVm (vm : VmEntry) :
    Option.Rel ScatteredVm.Similar (scatteredVm order inv vm) (scatteredVm order' inv vm) := by
  unfold scatteredVm
  dsimp only
  split
  · exact .none
  split
  · refine .some ⟨rfl, rfl, perm_toList order order' _, perm_toList order order' _, rfl, ?_⟩
    simp [generateConsolidationProposal, SetOrder.length_toList]
  · exact .none

theorem similar_scatteredVms : List.Forall₂ ScatteredVm.Similar (scatteredVms order inv)
    (scatteredVms order' inv) := by
  unfold scatteredVms
  refine List.rel_filterMap (R := Eq) ?_ (List.forall₂_refl _)
  rintro vm _ rfl
  exact similar_scatteredVm order order' inv vm

/-- The advice asks only whether the shared lists are empty. -/
theorem similar_proposalOf {v v' : Violation} (h : v.Similar v') :
    (proposalOf inv v).Similar (proposalOf inv v') := by
  refine ⟨h, rfl, ?_⟩
  have hds : v.sharedDatastores = [] ↔ v'.sharedDatastores = [] :=
    ⟨fun hnil => (hnil ▸ h.sharedDatastores).nil_eq.symm,
      fun hnil => (hnil ▸ h.sharedDatastores).eq_nil⟩
  have hpods : v.sharedDatastoreClusters = [] ↔ v'.sharedDatastoreClusters = [] :=
    ⟨fun hnil => (hnil ▸ h.sharedDatastoreClusters).nil_eq.symm,
      fun hnil => (hnil ▸ h.sharedDatastoreClusters).eq_nil⟩
  simp only [proposalOf, suggestSeparation, h.vmB, ne_eq, hds, hpods]

/-- **The order in which sets are listed** shows nowhere else in the result. -/
theorem similar_analyzeStorageCompliance :
    (analyzeStorageCompliance search order inv patterns).Similar
      (analyzeStorageCompliance search order' inv patterns) := by
  have hviolations := similar_violations search order order' inv patterns
  have hscattered := similar_scatteredVms order order' inv
  have hproposals := List.rel_map (P := Proposal.Similar)
    (fun v v' h => similar_proposalOf inv h) hviolations
  have hcritical := List.rel_filter (p := fun v => decide (v.severity = .critical))
    (q := fun v => decide (v.severity = .critical)) (fun v v' h => by simp [h.severity]) hviolations
  refine ⟨hviolations, hscattered, hproposals, ?_⟩
  simp only [analyzeStorageCompliance, hviolations.length_eq, hscattered.length_eq,
    hproposals.length_eq, hcritical.length_eq]

end Orders

/-- **ISO mounts never influence the storage analysis.** -/
theorem iso_edits_irrelevant (search : Search) (order order' : SetOrder String)
    (patterns : List Pattern) {inv inv' : Inventory} (h : InventoryEdited inv inv') :
    (analyzeStorageCompliance search order inv patterns).Similar
      (analyzeStorageCompliance search order' inv' patterns) := by
  rw [← analyzeStorageCompliance_stripped search order inv, h.stripped_eq,
    analyzeStorageCompliance_stripped]
  exact similar_analyzeStorageCompliance search order order' inv' patterns

/-- The web servers of `sharedInventory`; `WEB-01` has an ISO on the datastore of its disk, and
`WEB-02` has no ISO. -/
def remountedInventory : Inventory :=
  { sharedInventory with
    clusters := [⟨"Cluster-A", 4, [
      ⟨"WEB-01", [⟨some "DS-01", none, false⟩, ⟨some "DS-01", none, true⟩]⟩,
      ⟨"WEB-02", [⟨some "DS-01", none, false⟩]⟩], []⟩] }

theorem iso_edits_irrelevant_remounted :
    InventoryEdited sharedInventory remountedInventory ∧
      (analyzeStorageCompliance webSearch (SetOrder.sorted String) sharedInventory
        [webPattern]).Similar
      (analyzeStorageCompliance webSearch (SetOrder.sorted String) remountedInventory
        [webPattern]) := by
  have hiso : ∀ ds, ¬ (⟨ds, none, true⟩ : Disk).IsReal := by simp [Disk.IsReal]
  have hweb1 : VmEdited ⟨"WEB-01", [⟨some "DS-01", none, false⟩]⟩
      ⟨"WEB-01", [⟨some "DS-01", none, false⟩, ⟨some "DS-01", none, true⟩]⟩ :=
    ⟨_, .keep _ (.insert (hiso _) .nil), rfl⟩
  have hweb2 : VmEdited ⟨"WEB-02", [⟨some "DS-01", none, false⟩, ⟨some "DS-ISO", none, true⟩]⟩
      ⟨"WEB-02", [⟨some "DS-01", none, false⟩]⟩ := ⟨_, .keep _ (.remove (hiso _) .nil), rfl⟩
  have hedited : InventoryEdited sharedInventory remountedInventory :=
    ⟨_, .cons ⟨_, .cons hweb1 (.cons hweb2 .nil), rfl⟩ .nil, rfl⟩
  exact ⟨hedited, iso_edits_irrelevant webSearch _ _ [webPattern] hedited⟩

end VsphereCompliance.Engine
