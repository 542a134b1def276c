import VsphereCompliance.Engine.Relocation

/-!
# What the consolidation advice does to the violations

A scattered VM is advised to move to the datastore with the most free space, whichever VMs
are there already. The move leaves it on one datastore and in one datastore cluster at most,
and the only new violations are those of the VM with members of its group that occupy the
recommended datastore (`consolidation_advice`). There can be such members
(`consolidation_creates_violation`).
-/

namespace VsphereCompliance.Engine

open Conflicts

/-! ## The moved VM is not scattered -/

section Scattered

variable {inv : Inventory} {t : String} {disks : List Disk}

theorem eq_diskOn_of_mem_realDisks {d : Disk}
    (hd : d ∈ realDisks (disks.map (Disk.moveTo inv t))) : d = diskOn inv t := by
  obtain ⟨hmem, hreal⟩ := mem_realDisks.mp hd
  obtain ⟨d', _, rfl⟩ := List.mem_map.mp hmem
  by_cases hiso : d'.isIso = true
  · rw [Disk.moveTo, if_pos hiso] at hreal
    rw [hreal.isIso] at hiso
    cases hiso
  · rw [Disk.moveTo, if_neg hiso]

theorem card_datastores_moveTo_le (toPod : OrderedDict String String) :
    (footprint toPod (disks.map (Disk.moveTo inv t))).datastores.card ≤ 1 := by
  apply Finset.card_le_one.mpr
  intro a ha b hb
  obtain ⟨d, hd, hda⟩ := List.mem_filterMap.mp (List.mem_toFinset.mp ha)
  obtain ⟨d', hd', hdb⟩ := List.mem_filterMap.mp (List.mem_toFinset.mp hb)
  rw [eq_diskOn_of_mem_realDisks hd] at hda
  rw [eq_diskOn_of_mem_realDisks hd', hda] at hdb
  exact Option.some.inj hdb

theorem card_scatteredPods_moveTo_le (toPod : OrderedDict String String) :
    (scatteredPods toPod (disks.map (Disk.moveTo inv t))).card ≤ 1 := by
  apply Finset.card_le_one.mpr
  intro a ha b hb
  obtain ⟨d, hd, rfl⟩ := List.mem_map.mp (List.mem_toFinset.mp (Finset.mem_of_mem_erase ha))
  obtain ⟨d', hd', rfl⟩ := List.mem_map.mp (List.mem_toFinset.mp (Finset.mem_of_mem_erase hb))
  rw [eq_diskOn_of_mem_realDisks hd, eq_diskOn_of_mem_realDisks hd']

theorem vmName_of_scatteredVm {order : SetOrder String} {vm : VmEntry} {s : ScatteredVm}
    (h : scatteredVm order inv vm = some s) : s.vmName = vm.name ∧ realDisks vm.disks ≠ [] ∧
      ((footprint (dsToPod inv) vm.disks).datastores.card > 1 ∨
        (scatteredPods (dsToPod inv) vm.disks).card > 1) := by
  unfold scatteredVm at h
  dsimp only at h
  split at h
  · cases h
  · rename_i hreal
    split at h
    · rename_i hcard
      cases h
      exact ⟨rfl, hreal, hcard⟩
    · cases h

/-- After its move the VM has no scattered record. -/
theorem not_scattered_moveTo (order : SetOrder String) {x : String} :
    ∀ s ∈ scatteredVms order (moveTo inv x t), s.vmName ≠ x := by
  intro s hs hname
  obtain ⟨vm', hvm', hrec⟩ := List.mem_filterMap.mp hs
  rw [allVmsWithDisks_moveTo] at hvm'
  obtain ⟨vm, _, rfl⟩ := List.mem_map.mp hvm'
  obtain ⟨hvm, _, hcard⟩ := vmName_of_scatteredVm hrec
  have hx : vm.name = x := by
    rw [← hname, hvm, VmEntry.name_moveTo]
  rw [VmEntry.moveTo, if_pos hx] at hcard
  rcases hcard with hcard | hcard
  · exact absurd (card_datastores_moveTo_le _) (Nat.not_le.mpr hcard)
  · exact absurd (card_scatteredPods_moveTo_le _) (Nat.not_le.mpr hcard)

theorem exists_disk_of_mem_scatteredVms {order : SetOrder String} {s : ScatteredVm}
    (hs : s ∈ scatteredVms order inv) :
    ∃ vm ∈ allVmsWithDisks inv, vm.name = s.vmName ∧ ∃ d ∈ vm.disks, d.isIso = false := by
  obtain ⟨vm, hvm, hrec⟩ := List.mem_filterMap.mp hs
  obtain ⟨hname, hreal, _⟩ := vmName_of_scatteredVm hrec
  obtain ⟨d, hd⟩ := List.exists_mem_of_ne_nil _ hreal
  exact ⟨vm, hvm, hname.symm, d, (mem_realDisks.mp hd).1, (mem_realDisks.mp hd).2.isIso⟩

end Scattered

/-! ## The new violations -/

/-- `b` is another VM of the group of `x` and occupies the datastore `t`. -/
def NeighbourAt (search : Search) (inv : Inventory) (patterns : List Pattern) (t x b : String) :
    Prop :=
  b ≠ x ∧ (∃ k, storageGroupKey search patterns b = some k ∧
    storageGroupKey search patterns x = some k) ∧ Occupied inv b t

/-- What holds after all virtual disks of `x` moved to `t`. -/
structure ConsolidationEffect (search : Search) (order : SetOrder String) (inv : Inventory)
    (patterns : List Pattern) (x t : String) : Prop where
  notScattered : ∀ s ∈ (analyzeStorageCompliance search order (moveTo inv x t)
    patterns).scatteredVms, s.vmName ≠ x
  newViolations : ∀ a b,
    Reported (analyzeStorageCompliance search order (moveTo inv x t) patterns).violations a b →
    ¬ Reported (analyzeStorageCompliance search order inv patterns).violations a b →
    (a = x ∧ NeighbourAt search inv patterns t x b) ∨
      (b = x ∧ NeighbourAt search inv patterns t x a)

section Main

variable (search : Search) (order : SetOrder String) {inv : Inventory} (patterns : List Pattern)

/-- **Following the consolidation advice** for a scattered VM ends its scattering, and creates
violations only with members of its group that occupy the recommended datastore. -/
theorem consolidation_advice (hn : DistinctNames inv) {s : ScatteredVm}
    (hs : s ∈ (analyzeStorageCompliance search order inv patterns).scatteredVms)
    {ds : Datastore} (_ : s.recommendation = .consolidate ds) :
    ConsolidationEffect search order inv patterns s.vmName ds.name := by
  refine ⟨not_scattered_moveTo order, ?_⟩
  intro a b hafter hbefore
  obtain ⟨vm, hvm, hname, hdisk⟩ := exists_disk_of_mem_scatteredVms hs
  rw [← hname] at hafter ⊢
  have hconf := (reported_moveTo_iff search order patterns hn hvm hdisk a b).mp hafter
  have hold := (not_congr (reported_iff_conflict search order patterns hn a b)).mp hbefore
  have hgroup := hconf.2.1
  rcases conflict_of_update hconf hold with ⟨rfl, hne, hmeet⟩ | ⟨rfl, hne, hmeet⟩
  · obtain ⟨k, hx, hb⟩ := hgroup
    exact Or.inl ⟨rfl, hne, ⟨k, hb, hx⟩, hmeet⟩
  · exact Or.inr ⟨rfl, hne, hgroup, hmeet⟩

end Main

/-- A scattered web server, and another one on the datastore with the most free space. -/
def scatteredInventory : Inventory where
  clusters := [⟨"Cluster-A", 4, [
    ⟨"WEB-01", [⟨some "DS-01", none, false⟩, ⟨some "DS-02", none, false⟩]⟩,
    ⟨"WEB-02", [⟨some "DS-03", none, false⟩]⟩], []⟩]
  datastores := [⟨"DS-01", 100⟩, ⟨"DS-02", 200⟩, ⟨"DS-03", 900⟩]
  datastoreClusters := []

/-- The record of `WEB-01`. -/
def scatteredRecord : ScatteredVm :=
  ⟨"WEB-01", "Cluster-A", ["DS-01", "DS-02"], [], 2, .consolidate ⟨"DS-03", 900⟩⟩

theorem consolidation_advice_scattered :
    DistinctNames scatteredInventory ∧
      scatteredRecord ∈ (analyzeStorageCompliance webSearch (SetOrder.sorted String)
        scatteredInventory [webPattern]).scatteredVms ∧
      scatteredRecord.recommendation = .consolidate ⟨"DS-03", 900⟩ ∧
      ConsolidationEffect webSearch (SetOrder.sorted String) scatteredInventory [webPattern]
        "WEB-01" "DS-03" :=
  ⟨by decide, by decide, rfl, consolidation_advice webSearch (SetOrder.sorted String)
    [webPattern] (by decide) (s := scatteredRecord) (by decide) rfl⟩

/-- The advice for `WEB-01` puts it on the datastore of `WEB-02`. -/
theorem consolidation_creates_violation :
    DistinctNames scatteredInventory ∧
      scatteredRecord ∈ (analyzeStorageCompliance webSearch (SetOrder.sorted String)
        scatteredInventory [webPattern]).scatteredVms ∧
      scatteredRecord.recommendation = .consolidate ⟨"DS-03", 900⟩ ∧
      ¬ Reported (analyzeStorageCompliance webSearch (SetOrder.sorted String)
        scatteredInventory [webPattern]).violations "WEB-01" "WEB-02" ∧
      Reported (analyzeStorageCompliance webSearch (SetOrder.sorted String)
        (moveTo scatteredInventory "WEB-01" "DS-03") [webPattern]).violations
        "WEB-01" "WEB-02" := by
  decide

end VsphereCompliance.Engine
