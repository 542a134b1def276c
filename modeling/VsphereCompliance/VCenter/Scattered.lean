import VsphereCompliance.VCenter.Identity
import Mathlib.Data.List.Forall2

/-!
# Which VMs are reported as scattered

A VM is scattered when its disks lie on two datastores of different names. The analysis also
looks at the datastore clusters, which it takes from two places: from the table of the
StoragePods, by the name of the datastore, or else from the parents of the datastore. In a vCenter
the virtual disks of a VM lie in one datacenter, where a name belongs to one datastore
(`StorageTree`). So the disks of a VM on one datastore name have one answer, whatever the table
says (`card_scatteredPods_le`), and exactly the scattered VMs are reported (`exactly_scattered`).
-/

namespace VsphereCompliance.VCenter

open Engine

/-! ## The datastores and datastore clusters of a VM -/

/-- The names of the datastores of the disks that are no ISO. -/
def datastoreNames (disks : List Disk) : Finset String :=
  ((disks.filter fun d => !d.isIso).filterMap Disk.datastore).toFinset

/-- The disks lie on at least two datastores of different names. -/
def Spread (vm : VmEntry) : Prop := 2 ≤ (datastoreNames vm.disks).card

instance (vm : VmEntry) : Decidable (Spread vm) := inferInstanceAs (Decidable (_ ≤ _))

/-- The entry of a virtual disk on the datastore. -/
def diskOf (ds : DatastoreObj) : Disk := ⟨some ds.name, getDatastorePod ds.parent, false⟩

/-- The entries that are no ISO are those of the virtual disks. -/
theorem filter_getVmDisksWithDatastores (obj : VmObj) :
    (getVmDisksWithDatastores obj).filter (fun d => !d.isIso) = (virtualDisks obj).map diskOf := by
  unfold getVmDisksWithDatastores virtualDisks
  cases obj.config with
  | none => rfl
  | some devices =>
    dsimp only [Option.getD_some]
    rw [List.filter_filterMap, List.map_filterMap]
    apply List.filterMap_congr
    intro device _
    cases device with
    | virtualDisk backing =>
      cases backing with
      | none => rfl
      | some ds => rfl
    | virtualCdrom hasFileName backing =>
      cases hasFileName with
      | false => rfl
      | true => rfl
    | other => rfl

section Vm

variable {obj : VmObj}

theorem realDisks_eq (h : ∀ ds ∈ virtualDisks obj, ds.name ≠ "") :
    realDisks (getVmDisksWithDatastores obj) = (virtualDisks obj).map diskOf := by
  have hsplit : realDisks (getVmDisksWithDatastores obj) =
      ((getVmDisksWithDatastores obj).filter fun d => !d.isIso).filter
        fun d => (truthy d.datastore).isSome := by
    rw [realDisks, List.filter_filter]
    apply List.filter_congr
    intro d _
    exact Bool.and_comm _ _
  rw [hsplit, filter_getVmDisksWithDatastores, List.filter_eq_self]
  intro d hd
  obtain ⟨ds, hds, rfl⟩ := List.mem_map.mp hd
  simp [diskOf, truthy_some, h ds hds]

theorem mem_datastoreNames {name : String} :
    name ∈ datastoreNames (getVmDisksWithDatastores obj) ↔
      ∃ ds ∈ virtualDisks obj, ds.name = name := by
  simp [datastoreNames, filter_getVmDisksWithDatastores, diskOf]

theorem datastores_footprint (h : ∀ ds ∈ virtualDisks obj, ds.name ≠ "")
    (toPod : OrderedDict String String) :
    (footprint toPod (getVmDisksWithDatastores obj)).datastores =
      datastoreNames (getVmDisksWithDatastores obj) := by
  ext name
  simp [footprint, realDisks_eq h, mem_datastoreNames, diskOf]

end Vm

/-! ## The tree -/

/-- The datastores and VMs of a vCenter: datastores have names, which are unique in one datacenter,
and the virtual disks of a VM lie on datastores of one datacenter. -/
structure StorageTree (t : Tree) : Prop where
  namedDatastores : ∀ ds ∈ t.datastores, ds.name ≠ ""
  uniqueNames : ∀ a ∈ t.datastores, ∀ b ∈ t.datastores,
    datacenterOf a.parent = datacenterOf b.parent → a.name = b.name → a = b
  backings : ∀ c ∈ t.clusters, ∀ vm ∈ getClusterVms c, ∀ ds ∈ virtualDisks vm, ds ∈ t.datastores
  oneDatacenter : ∀ c ∈ t.clusters, ∀ vm ∈ getClusterVms c, ∀ a ∈ virtualDisks vm,
    ∀ b ∈ virtualDisks vm, datacenterOf a.parent = datacenterOf b.parent

variable {t : Tree}

theorem StorageTree.names (h : StorageTree t) {c : ClusterObj} (hc : c ∈ t.clusters) {obj : VmObj}
    (hobj : obj ∈ getClusterVms c) : ∀ ds ∈ virtualDisks obj, ds.name ≠ "" :=
  fun ds hds => h.namedDatastores ds (h.backings c hc obj hobj ds hds)

/-! ## The scattered VMs -/

/-- The record is about the VM and lists its datastores and the number of its disks. -/
structure ScatteredRecord (s : ScatteredVm) (vm : VmEntry) : Prop where
  vmName : s.vmName = vm.name
  cluster : s.cluster = vm.cluster
  datastores : s.datastores.toFinset = datastoreNames vm.disks
  diskCount : s.diskCount = (vm.disks.filter fun d => !d.isIso).length

/-- The records are those of the VMs on several datastores, one for each in the order of the
inventory. -/
def ExactlyScattered (t : Tree) (scattered : List ScatteredVm) : Prop :=
  List.Forall₂ ScatteredRecord scattered
    ((allVmsWithDisks (getFullInventory t)).filter fun vm => Spread vm)

theorem forall₂_filterMap_filter {α β : Type} {R : β → α → Prop} {f : α → Option β}
    {p : α → Bool} {xs : List α} (hp : ∀ x ∈ xs, (f x).isSome = p x)
    (hR : ∀ x ∈ xs, ∀ y, f x = some y → R y x) :
    List.Forall₂ R (xs.filterMap f) (xs.filter p) := by
  induction xs with
  | nil => exact .nil
  | cons x xs ih =>
    have ih := ih (fun y hy => hp y (List.mem_cons_of_mem x hy))
      fun y hy => hR y (List.mem_cons_of_mem x hy)
    have hx := hp x List.mem_cons_self
    cases hfx : f x with
    | none =>
      rw [hfx] at hx
      rw [List.filterMap_cons_none hfx, List.filter_cons_of_neg (by simp [← hx])]
      exact ih
    | some y =>
      rw [hfx] at hx
      rw [List.filterMap_cons_some hfx, List.filter_cons_of_pos (by simp [← hx])]
      exact .cons (hR x List.mem_cons_self y hfx) ih

section Main

variable (order : SetOrder String)

/-- What the body of the loop tests: the footprint without disks is empty. -/
theorem isSome_scatteredVm_iff (inv : Inventory) (vm : VmEntry) :
    (scatteredVm order inv vm).isSome ↔
      1 < (footprint (dsToPod inv) vm.disks).datastores.card ∨
        1 < (scatteredPods (dsToPod inv) vm.disks).card := by
  unfold scatteredVm
  dsimp only
  split
  · rename_i hnil
    simp [footprint, scatteredPods, hnil]
  · split
    · rename_i hcard
      exact ⟨fun _ => hcard, fun _ => rfl⟩
    · rename_i hcard
      exact ⟨fun hsome => absurd hsome Bool.false_ne_true, fun hor => absurd hor hcard⟩

variable {order} in
theorem fields_of_scatteredVm {inv : Inventory} {vm : VmEntry} {s : ScatteredVm}
    (h : scatteredVm order inv vm = some s) : s.vmName = vm.name ∧ s.cluster = vm.cluster ∧
      s.datastores = order.toList (footprint (dsToPod inv) vm.disks).datastores ∧
        s.diskCount = (realDisks vm.disks).length := by
  unfold scatteredVm at h
  dsimp only at h
  split at h
  · cases h
  · split at h
    · cases h
      exact ⟨rfl, rfl, rfl, rfl⟩
    · cases h

/-- The entry of a VM object of a cluster. -/
def entryOf (c : ClusterObj) (obj : VmObj) : VmEntry :=
  ⟨obj.name, getVmDisksWithDatastores obj, c.name⟩

variable {c : ClusterObj} {obj : VmObj}

/-- The datastores and the disks of the footprint, for a VM whose datastores have names. -/
theorem StorageTree.footprint_entryOf (h : StorageTree t) (hc : c ∈ t.clusters)
    (hobj : obj ∈ getClusterVms c) :
    (footprint (dsToPod (getFullInventory t)) (entryOf c obj).disks).datastores =
      datastoreNames (entryOf c obj).disks :=
  datastores_footprint (h.names hc hobj) _

theorem StorageTree.scatteredRecord (h : StorageTree t) (hc : c ∈ t.clusters)
    (hobj : obj ∈ getClusterVms c) {s : ScatteredVm}
    (hs : scatteredVm order (getFullInventory t) (entryOf c obj) = some s) :
    ScatteredRecord s (entryOf c obj) := by
  have hnames := h.names hc hobj
  obtain ⟨hname, hcluster, hdatastores, hcount⟩ := fields_of_scatteredVm hs
  refine ⟨hname, hcluster, ?_, ?_⟩
  · rw [hdatastores, order.toFinset_toList, h.footprint_entryOf hc hobj]
  · show _ = ((getVmDisksWithDatastores obj).filter fun d => !d.isIso).length
    rw [hcount, filter_getVmDisksWithDatastores]
    exact congrArg List.length (realDisks_eq hnames)

/-- A VM that is not spread has its disks on one datastore. -/
theorem StorageTree.one_datastore (h : StorageTree t) (hc : c ∈ t.clusters)
    (hobj : obj ∈ getClusterVms c) (hspread : ¬ Spread (entryOf c obj)) :
    ∀ a ∈ virtualDisks obj, ∀ b ∈ virtualDisks obj, a = b := by
  intro a ha b hb
  have hcard : (datastoreNames (getVmDisksWithDatastores obj)).card ≤ 1 := by
    unfold Spread entryOf at hspread
    dsimp only at hspread
    omega
  have hname : a.name = b.name := Finset.card_le_one.mp hcard _
    (mem_datastoreNames.mpr ⟨a, ha, rfl⟩) _ (mem_datastoreNames.mpr ⟨b, hb, rfl⟩)
  exact h.uniqueNames a (h.backings c hc obj hobj a ha) b (h.backings c hc obj hobj b hb)
    (h.oneDatacenter c hc obj hobj a ha b hb) hname

/-- **The second test adds nothing**: a VM that is not spread has at most one datastore cluster,
with any table. -/
theorem StorageTree.card_scatteredPods_le (h : StorageTree t) (hc : c ∈ t.clusters)
    (hobj : obj ∈ getClusterVms c) (hspread : ¬ Spread (entryOf c obj))
    (toPod : OrderedDict String String) :
    (scatteredPods toPod (entryOf c obj).disks).card ≤ 1 := by
  apply Finset.card_le_one.mpr
  intro pod hpod pod' hpod'
  have hdisk : ∀ {p}, p ∈ scatteredPods toPod (entryOf c obj).disks →
      ∃ ds ∈ virtualDisks obj, (effectivePod toPod (diskOf ds)).getD "" = p := by
    intro p hp
    obtain ⟨d, hd, rfl⟩ := List.mem_map.mp (List.mem_toFinset.mp (Finset.mem_of_mem_erase hp))
    rw [entryOf, realDisks_eq (h.names hc hobj)] at hd
    obtain ⟨ds, hds, rfl⟩ := List.mem_map.mp hd
    exact ⟨ds, hds, rfl⟩
  obtain ⟨a, ha, rfl⟩ := hdisk hpod
  obtain ⟨b, hb, rfl⟩ := hdisk hpod'
  rw [h.one_datastore hc hobj hspread a ha b hb]

/-- **A VM is reported exactly when it is spread**. -/
theorem StorageTree.reported_iff_spread (h : StorageTree t) (hc : c ∈ t.clusters)
    (hobj : obj ∈ getClusterVms c) :
    (scatteredVm order (getFullInventory t) (entryOf c obj)).isSome ↔ Spread (entryOf c obj) := by
  rw [isSome_scatteredVm_iff, h.footprint_entryOf hc hobj]
  constructor
  · rintro (hcard | hcard)
    · exact hcard
    · by_contra hspread
      have hle := h.card_scatteredPods_le hc hobj hspread (dsToPod (getFullInventory t))
      omega
  · exact Or.inl

/-- **Exactly the spread VMs are reported**, once and in the order of the inventory. -/
theorem exactly_scattered (search : Search) (order : SetOrder String) (patterns : List Pattern)
    (h : StorageTree t) :
    ExactlyScattered t
      (analyzeStorageCompliance search order (getFullInventory t) patterns).scatteredVms := by
  have hentries : ∀ vm ∈ allVmsWithDisks (getFullInventory t), ∃ c ∈ t.clusters,
      ∃ obj ∈ getClusterVms c, vm = entryOf c obj := fun vm hvm => exists_vmObj hvm
  refine forall₂_filterMap_filter ?_ ?_
  · intro vm hvm
    obtain ⟨c, hc, obj, hobj, rfl⟩ := hentries vm hvm
    rw [Bool.eq_iff_iff, decide_eq_true_iff]
    exact h.reported_iff_spread order hc hobj
  · intro vm hvm s hs
    obtain ⟨c, hc, obj, hobj, rfl⟩ := hentries vm hvm
    exact h.scatteredRecord order hc hobj hs

end Main

/-- The datastore in a StoragePod of a datacenter. -/
def clusteredDatastore (ref datacenter podRef : Nat) (name pod : String) : DatastoreObj :=
  ⟨ref, name, some (500 * 1024 ^ 3),
    .storagePod podRef pod (.folder (.datacenter datacenter .root))⟩

/-- Two datacenters with equally named datastores and StoragePods: `WEB-01` lies on two datastores
of the first, `WEB-02` with two disks on one datastore of the second, whose StoragePod the view
lists before its empty namesake. -/
def equalPods : Tree where
  clusters := [
    ⟨10, "Cluster-A", [⟨[⟨20, "WEB-01", some [
      .virtualDisk (localDatastore 30 1),
      .virtualDisk (clusteredDatastore 31 1 41 "datastore2" "Pod-2")]⟩]⟩], []⟩,
    ⟨11, "Cluster-B", [⟨[⟨21, "WEB-02", some [
      .virtualDisk (clusteredDatastore 32 2 42 "datastore1" "Pod-1"),
      .virtualDisk (clusteredDatastore 32 2 42 "datastore1" "Pod-1")]⟩]⟩], []⟩]
  datastores := [localDatastore 30 1, clusteredDatastore 31 1 41 "datastore2" "Pod-2",
    clusteredDatastore 32 2 42 "datastore1" "Pod-1"]
  pods := [
    ⟨42, "Pod-1", .folder (.datacenter 2 .root),
      [clusteredDatastore 32 2 42 "datastore1" "Pod-1"]⟩,
    ⟨41, "Pod-2", .folder (.datacenter 1 .root),
      [clusteredDatastore 31 1 41 "datastore2" "Pod-2"]⟩,
    ⟨40, "Pod-1", .folder (.datacenter 1 .root), []⟩]

theorem storageTree_equalPods : StorageTree equalPods where
  namedDatastores := by decide
  uniqueNames := by decide
  backings := by decide
  oneDatacenter := by decide

theorem wellFormed_equalPods : WellFormed equalPods where
  datastoreNames := by decide
  podNames := by decide
  datastoreRefs := by decide
  podRefs := by decide
  children := by decide
  inverse := by decide
  parents := by decide
  backings := by decide
  vmNames := by decide

theorem exactly_scattered_equalPods :
    WellFormed equalPods ∧ StorageTree equalPods ∧
      ExactlyScattered equalPods (analyzeStorageCompliance webSearch (SetOrder.sorted String)
        (getFullInventory equalPods) [webPattern]).scatteredVms ∧
      ((allVmsWithDisks (getFullInventory equalPods)).filter fun vm => Spread vm).map
        VmEntry.name = ["WEB-01"] :=
  ⟨wellFormed_equalPods, storageTree_equalPods, exactly_scattered webSearch
    (SetOrder.sorted String) [webPattern] storageTree_equalPods, by decide⟩

end VsphereCompliance.VCenter
