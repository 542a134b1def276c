import VsphereCompliance.Engine.Violations

/-!
# Moving the disks of a VM

`moveTo inv x t` is the inventory after every virtual disk of the VM `x` has moved to the
datastore `t`; media of CD/DVD drives stay. The tables of datastores and datastore clusters
do not change, so the analysis of the new inventory differs from the old one in the
resources of `x` only: they become those of `t` (`usesOf_moveTo`).
-/

namespace VsphereCompliance.Engine

open Conflicts

/-! ## The new inventory -/

/-- A virtual disk that lies on the datastore `t`, and so in the datastore cluster of the
inventory that lists `t`. -/
def diskOn (inv : Inventory) (t : String) : Disk :=
  ⟨some t, listingCluster inv.datastoreClusters t, false⟩

def Disk.moveTo (inv : Inventory) (t : String) (d : Disk) : Disk :=
  if d.isIso then d else diskOn inv t

def Vm.moveTo (inv : Inventory) (x t : String) (vm : Vm) : Vm :=
  if vm.name = x then { vm with disks := vm.disks.map (Disk.moveTo inv t) } else vm

def Cluster.moveTo (inv : Inventory) (x t : String) (c : Cluster) : Cluster :=
  { c with vms := c.vms.map (Vm.moveTo inv x t) }

/-- The inventory after all virtual disks of `x` moved to the datastore `t`. -/
def moveTo (inv : Inventory) (x t : String) : Inventory :=
  { inv with clusters := inv.clusters.map (Cluster.moveTo inv x t) }

/-- What a VM occupies whose virtual disks all lie on `t`. -/
def targetResources (inv : Inventory) (t : String) : Set Resource :=
  resources (countedPods inv) [diskOn inv t]

/-- The VM `a` has a real disk on the datastore `t` or in its datastore cluster. -/
def Occupied (inv : Inventory) (a t : String) : Prop :=
  (usesOf inv a ∩ targetResources inv t).Nonempty

section Moved

variable {inv : Inventory} {x t : String}

@[simp] theorem Vm.name_moveTo (vm : Vm) : (vm.moveTo inv x t).name = vm.name := by
  unfold Vm.moveTo
  split
  · rfl
  · rfl

/-- The entry of a VM after the move. -/
def VmEntry.moveTo (inv : Inventory) (x t : String) (vm : VmEntry) : VmEntry :=
  if vm.name = x then { vm with disks := vm.disks.map (Disk.moveTo inv t) } else vm

@[simp] theorem VmEntry.name_moveTo (vm : VmEntry) : (vm.moveTo inv x t).name = vm.name := by
  unfold VmEntry.moveTo
  split
  · rfl
  · rfl

theorem allVmsWithDisks_moveTo :
    allVmsWithDisks (moveTo inv x t) = (allVmsWithDisks inv).map (VmEntry.moveTo inv x t) := by
  unfold allVmsWithDisks moveTo
  rw [List.flatMap_map, List.map_flatMap]
  apply List.flatMap_congr
  intro c _
  show (c.vms.map (Vm.moveTo inv x t)).map _ = (c.vms.map _).map _
  rw [List.map_map, List.map_map]
  apply List.map_congr_left
  intro vm _
  by_cases hx : vm.name = x
  · simp [Cluster.moveTo, Vm.moveTo, VmEntry.moveTo, hx]
  · simp [Cluster.moveTo, Vm.moveTo, VmEntry.moveTo, hx]

theorem distinctNames_moveTo (h : DistinctNames inv) : DistinctNames (moveTo inv x t) := by
  unfold DistinctNames
  rw [allVmsWithDisks_moveTo, List.map_map]
  have hname : VmEntry.name ∘ VmEntry.moveTo inv x t = VmEntry.name :=
    funext fun vm => vm.name_moveTo
  rw [hname]
  exact h

/-! ## What the moved VM occupies -/

theorem Disk.IsReal.isIso {d : Disk} (h : d.IsReal) : d.isIso = false := h.1

/-- After the move the real disks of the VM are copies of one disk on `t`. -/
theorem resources_map_moveTo {disks : List Disk} (h : ∃ d ∈ disks, d.isIso = false) :
    resources (countedPods inv) (disks.map (Disk.moveTo inv t)) = targetResources inv t := by
  ext r
  refine ⟨?_, ?_⟩
  · intro h'
    obtain ⟨d', hd', hreal, huse⟩ := h'
    obtain ⟨d, _, rfl⟩ := List.mem_map.mp hd'
    by_cases hiso : d.isIso = true
    · rw [Disk.moveTo, if_pos hiso] at hreal
      rw [hreal.isIso] at hiso
      cases hiso
    · rw [Disk.moveTo, if_neg hiso] at hreal huse
      exact ⟨_, List.mem_singleton_self _, hreal, huse⟩
  · intro h'
    obtain ⟨d', hd', hreal, huse⟩ := h'
    rw [List.mem_singleton.mp hd'] at hreal huse
    obtain ⟨d, hd, hiso⟩ := h
    refine ⟨diskOn inv t, List.mem_map.mpr ⟨d, hd, ?_⟩, hreal, huse⟩
    rw [Disk.moveTo, hiso]
    rfl

theorem mem_usesOf_moveTo {name : String} {r : Resource} :
    r ∈ usesOf (moveTo inv x t) name ↔ ∃ vm ∈ allVmsWithDisks inv,
      vm.name = name ∧ r ∈ resources (countedPods inv) (vm.moveTo inv x t).disks := by
  show (∃ vm ∈ allVmsWithDisks (moveTo inv x t), _) ↔ _
  rw [allVmsWithDisks_moveTo]
  refine ⟨?_, ?_⟩
  · intro h
    obtain ⟨_, hvm', hname, hr⟩ := h
    obtain ⟨vm, hvm, rfl⟩ := List.mem_map.mp hvm'
    exact ⟨vm, hvm, vm.name_moveTo ▸ hname, hr⟩
  · intro h
    obtain ⟨vm, hvm, hname, hr⟩ := h
    exact ⟨_, List.mem_map_of_mem hvm, vm.name_moveTo.trans hname, hr⟩

theorem usesOf_moveTo_of_ne {name : String} (h : name ≠ x) :
    usesOf (moveTo inv x t) name = usesOf inv name := by
  have hstay : ∀ vm : VmEntry, vm.name = name → vm.moveTo inv x t = vm := by
    intro vm hvm
    rw [VmEntry.moveTo, if_neg fun hx => h (hvm.symm.trans hx)]
  ext r
  rw [mem_usesOf_moveTo]
  refine ⟨?_, ?_⟩
  · intro h'
    obtain ⟨vm, hvm, hname, hr⟩ := h'
    rw [hstay vm hname] at hr
    exact ⟨vm, hvm, hname, hr⟩
  · intro h'
    obtain ⟨vm, hvm, hname, hr⟩ := h'
    refine ⟨vm, hvm, hname, ?_⟩
    rw [hstay vm hname]
    exact hr

theorem usesOf_moveTo_self (hn : DistinctNames inv) {vm : VmEntry}
    (hvm : vm ∈ allVmsWithDisks inv) (hdisk : ∃ d ∈ vm.disks, d.isIso = false) :
    usesOf (moveTo inv vm.name t) vm.name = targetResources inv t := by
  have hmoved : resources (countedPods inv) (vm.moveTo inv vm.name t).disks =
      targetResources inv t := by
    rw [VmEntry.moveTo, if_pos rfl]
    exact resources_map_moveTo hdisk
  ext r
  rw [mem_usesOf_moveTo]
  refine ⟨?_, ?_⟩
  · intro h
    obtain ⟨vm', hvm', hname, hr⟩ := h
    rw [List.inj_on_of_nodup_map hn hvm' hvm hname, hmoved] at hr
    exact hr
  · intro hr
    exact ⟨vm, hvm, rfl, hmoved ▸ hr⟩

/-- **Moving one VM** replaces its resources by those of the datastore and leaves all others
as they are. -/
theorem usesOf_moveTo (hn : DistinctNames inv) {vm : VmEntry} (hvm : vm ∈ allVmsWithDisks inv)
    (hdisk : ∃ d ∈ vm.disks, d.isIso = false) :
    usesOf (moveTo inv vm.name t) =
      Function.update (usesOf inv) vm.name (targetResources inv t) := by
  funext name
  by_cases hname : name = vm.name
  · rw [hname, Function.update_self]
    exact usesOf_moveTo_self hn hvm hdisk
  · rw [Function.update_of_ne hname]
    exact usesOf_moveTo_of_ne hname

/-- The VM of some resource has a virtual disk. -/
theorem exists_disk_of_mem_usesOf {name : String} {r : Resource} (h : r ∈ usesOf inv name) :
    ∃ vm ∈ allVmsWithDisks inv, vm.name = name ∧ ∃ d ∈ vm.disks, d.isIso = false := by
  obtain ⟨vm, hvm, hname, d, hd, hreal, _⟩ := h
  exact ⟨vm, hvm, hname, d, hd, hreal.isIso⟩

/-- What the analysis reports after the move of a VM that has a virtual disk. -/
theorem reported_moveTo_iff (search : Search) (order : SetOrder String)
    (patterns : List Pattern) (hn : DistinctNames inv) {vm : VmEntry}
    (hvm : vm ∈ allVmsWithDisks inv) (hdisk : ∃ d ∈ vm.disks, d.isIso = false) (a b : String) :
    Reported (violations search order (moveTo inv vm.name t) patterns) a b ↔
      Conflict (storageGroupKey search patterns)
        (Function.update (usesOf inv) vm.name (targetResources inv t)) a b := by
  rw [reported_iff_conflict search order patterns (distinctNames_moveTo hn),
    usesOf_moveTo hn hvm hdisk]

end Moved

end VsphereCompliance.Engine
