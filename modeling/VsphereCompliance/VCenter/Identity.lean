import VsphereCompliance.VCenter.Service
import VsphereCompliance.Engine.Violations

/-!
# Violations and the objects of the vCenter

The inventory names datastores and StoragePods, and the analysis compares the names. The
names of a well-formed vCenter are unique within one datacenter only. A reported violation
goes back to equal names, and so to one datastore or one StoragePod for disks whose names belong
to one object each (`violation_objects`); two datacenters with equally named datastores give a
false one (`twoDatacenters_false_violation`).
-/

namespace VsphereCompliance.VCenter

open Engine

/-! ## Identity -/

/-- The datacenter in the chain of parents. -/
def datacenterOf : Ancestry → Option Nat
  | .root => none
  | .folder parent => datacenterOf parent
  | .datacenter ref _ => some ref
  | .storagePod _ _ parent => datacenterOf parent

/-- The StoragePod in the chain of parents, with its name. -/
def podOf : Ancestry → Option (Nat × String)
  | .root => none
  | .folder parent => podOf parent
  | .datacenter _ parent => podOf parent
  | .storagePod ref name _ => some (ref, name)

theorem getDatastorePod_eq (a : Ancestry) : getDatastorePod a = (podOf a).map Prod.snd := by
  induction a with
  | root => rfl
  | folder parent ih => exact ih
  | datacenter ref parent ih => exact ih
  | storagePod ref name parent _ => rfl

/-- The datastores of the virtual disks of a VM. -/
def virtualDisks (vm : VmObj) : List DatastoreObj :=
  (vm.config.getD []).filterMap fun device =>
    match device with
    | .virtualDisk ds => ds
    | .virtualCdrom _ _ => none
    | .other => none

/-- What holds of the objects of every vCenter. -/
structure WellFormed (t : Tree) : Prop where
  datastoreNames : ∀ a ∈ t.datastores, ∀ b ∈ t.datastores,
    datacenterOf a.parent = datacenterOf b.parent → a.name = b.name → a = b
  podNames : ∀ a ∈ t.pods, ∀ b ∈ t.pods,
    datacenterOf a.parent = datacenterOf b.parent → a.name = b.name → a = b
  datastoreRefs : (t.datastores.map DatastoreObj.ref).Nodup
  podRefs : (t.pods.map PodObj.ref).Nodup
  children : ∀ p ∈ t.pods, ∀ d ∈ p.childEntity, d ∈ t.datastores
  /-- `parent` and `childEntity` are inverse to each other. -/
  inverse : ∀ p ∈ t.pods, ∀ d ∈ t.datastores,
    d ∈ p.childEntity ↔ d.parent = .storagePod p.ref p.name p.parent
  parents : ∀ d ∈ t.datastores, ∀ q ∈ podOf d.parent, ∃ p ∈ t.pods, (p.ref, p.name) = q
  backings : ∀ c ∈ t.clusters, ∀ vm ∈ getClusterVms c, ∀ d ∈ virtualDisks vm, d ∈ t.datastores
  vmNames : ((t.clusters.flatMap getClusterVms).map VmObj.name).Nodup

/-- Both datastores are in the same StoragePod. -/
def SamePod (a b : DatastoreObj) : Prop :=
  podOf a.parent ≠ none ∧ (podOf a.parent).map Prod.fst = (podOf b.parent).map Prod.fst

instance (a b : DatastoreObj) : Decidable (SamePod a b) := inferInstanceAs (Decidable (_ ∧ _))

/-- Both datastores are in StoragePods, and these have one name. -/
def EqualPodNames (a b : DatastoreObj) : Prop :=
  ∃ name, (podOf a.parent).map Prod.snd = some name ∧ (podOf b.parent).map Prod.snd = some name

/-- The datastores have one name, or their names are those of datastores in StoragePods of one
name. -/
def EqualNames (t : Tree) (a b : DatastoreObj) : Prop :=
  a.name = b.name ∨ ∃ a' ∈ t.datastores, a'.name = a.name ∧
    ∃ b' ∈ t.datastores, b'.name = b.name ∧ EqualPodNames a' b'

/-- Another datastore has the name of `d`, or another StoragePod that of the one of `d`. -/
def Ambiguous (t : Tree) (d : DatastoreObj) : Prop :=
  (∃ d' ∈ t.datastores, d'.ref ≠ d.ref ∧ d'.name = d.name) ∨
    ∃ q ∈ podOf d.parent, ∃ p ∈ t.pods, p.ref ≠ q.1 ∧ p.name = q.2

/-! ## From the inventory back to the objects -/

section Objects

variable {t : Tree}

theorem exists_vmObj {vm : VmEntry} (hvm : vm ∈ allVmsWithDisks (getFullInventory t)) :
    ∃ c ∈ t.clusters, ∃ obj ∈ getClusterVms c,
      vm = ⟨obj.name, getVmDisksWithDatastores obj, c.name⟩ := by
  obtain ⟨c', hc', hvm⟩ := List.mem_flatMap.mp hvm
  obtain ⟨c, hc, rfl⟩ := List.mem_map.mp hc'
  obtain ⟨entry, hentry, rfl⟩ := List.mem_map.mp hvm
  obtain ⟨obj, hobj, heq⟩ := List.mem_filterMap.mp hentry
  unfold vmEntry at heq
  split at heq
  · cases heq
    exact ⟨c, hc, obj, hobj, rfl⟩
  · cases heq

theorem names_allVmsWithDisks : ((allVmsWithDisks (getFullInventory t)).map VmEntry.name).Sublist
    ((t.clusters.flatMap getClusterVms).map VmObj.name) := by
  unfold allVmsWithDisks getFullInventory
  rw [List.flatMap_map, List.map_flatMap, List.map_flatMap]
  induction t.clusters with
  | nil => exact List.Sublist.refl _
  | cons c cs ih =>
    rw [List.flatMap_cons, List.flatMap_cons]
    refine List.Sublist.append ?_ ih
    rw [List.map_map]
    show (((getClusterVms c).filterMap vmEntry).map fun vm => vm.name).Sublist _
    have hname : ((getClusterVms c).filterMap vmEntry).map (fun vm => vm.name) =
        ((getClusterVms c).filter fun vm => vm.config.isSome).map VmObj.name := by
      rw [List.map_filterMap, ← List.filterMap_eq_filter, List.map_filterMap]
      apply List.filterMap_congr
      intro vm _
      by_cases hconf : vm.config.isSome = true
      · simp [vmEntry, Option.guard, hconf]
      · simp [vmEntry, Option.guard, hconf]
    rw [hname]
    exact List.filter_sublist.map _

theorem distinctNames_getFullInventory (hwf : WellFormed t) :
    DistinctNames (getFullInventory t) := names_allVmsWithDisks.nodup hwf.vmNames

/-- A real disk of the inventory is a virtual disk on some datastore. -/
theorem exists_virtualDisk {obj : VmObj} {d : Disk} (hd : d ∈ getVmDisksWithDatastores obj)
    (hreal : d.IsReal) :
    ∃ ds ∈ virtualDisks obj, d = ⟨some ds.name, getDatastorePod ds.parent, false⟩ := by
  unfold getVmDisksWithDatastores at hd
  unfold virtualDisks
  cases hconf : obj.config with
  | none =>
    rw [hconf] at hd
    cases hd
  | some devices =>
    rw [hconf] at hd
    obtain ⟨device, hdev, heq⟩ := List.mem_filterMap.mp hd
    cases device with
    | virtualDisk backing =>
      cases backing with
      | none => cases heq
      | some ds =>
        cases heq
        exact ⟨ds, List.mem_filterMap.mpr ⟨_, hdev, rfl⟩, rfl⟩
    | virtualCdrom hasFileName backing =>
      cases hasFileName with
      | false => cases heq
      | true =>
        cases heq
        exact absurd hreal.1 (by simp)
    | other => cases heq

/-- A resource of a VM is one of the datastore of a virtual disk of it. -/
theorem exists_datastore_of_mem_usesOf {name : String} {r : Resource}
    (hr : r ∈ usesOf (getFullInventory t) name) :
    ∃ c ∈ t.clusters, ∃ obj ∈ getClusterVms c, obj.name = name ∧ ∃ ds ∈ virtualDisks obj,
      diskUses (countedPods (getFullInventory t))
        ⟨some ds.name, getDatastorePod ds.parent, false⟩ r := by
  obtain ⟨vm, hvm, hname, d, hd, hreal, huse⟩ := hr
  obtain ⟨c, hc, obj, hobj, rfl⟩ := exists_vmObj hvm
  obtain ⟨ds, hds, rfl⟩ := exists_virtualDisk hd hreal
  exact ⟨c, hc, obj, hobj, hname, ds, hds, huse⟩

/-- The datastore cluster of a disk is the StoragePod of its datastore or of one with its
name. -/
theorem pod_of_diskUses (hwf : WellFormed t) {ds : DatastoreObj} (hds : ds ∈ t.datastores)
    {name : String} (huse : diskUses (countedPods (getFullInventory t))
      ⟨some ds.name, getDatastorePod ds.parent, false⟩ (.cluster name)) :
    ∃ ds' ∈ t.datastores, ds'.name = ds.name ∧ (podOf ds'.parent).map Prod.snd = some name := by
  have huse' : (truthy (listingCluster (countedPods (getFullInventory t)) ds.name)).or
      (truthy (getDatastorePod ds.parent)) = some name := huse
  rcases Option.or_eq_some_iff.mp huse' with hlist | ⟨_, hown⟩
  · obtain ⟨pod, hpod, rfl, hmem⟩ := mem_of_listingCluster (truthy_eq_some_iff.mp hlist).1
    obtain ⟨p, hp, rfl⟩ := List.mem_map.mp (mem_of_mem_countedPods hpod)
    obtain ⟨child, hchild, hname⟩ := List.mem_map.mp hmem
    have hdatastore := hwf.children p hp child hchild
    refine ⟨child, hdatastore, hname, ?_⟩
    rw [(hwf.inverse p hp child hdatastore).mp hchild]
    rfl
  · rw [getDatastorePod_eq] at hown
    exact ⟨ds, hds, rfl, (truthy_eq_some_iff.mp hown).1⟩

/-- Two datastores that give their disks one resource have equal names. -/
theorem equalNames_of_diskUses (hwf : WellFormed t) {a b : DatastoreObj} (ha : a ∈ t.datastores)
    (hb : b ∈ t.datastores) {r : Resource}
    (hra : diskUses (countedPods (getFullInventory t))
      ⟨some a.name, getDatastorePod a.parent, false⟩ r)
    (hrb : diskUses (countedPods (getFullInventory t))
      ⟨some b.name, getDatastorePod b.parent, false⟩ r) : EqualNames t a b := by
  cases r with
  | datastore name => exact Or.inl (Option.some.inj (hra.trans hrb.symm))
  | cluster name =>
    obtain ⟨a', ha', hname, hpod⟩ := pod_of_diskUses hwf ha hra
    obtain ⟨b', hb', hname', hpod'⟩ := pod_of_diskUses hwf hb hrb
    exact Or.inr ⟨a', ha', hname, b', hb', hname', name, hpod, hpod'⟩

/-- Two datastores with equal names are one object or in one StoragePod, or a name of theirs is
that of another object. -/
theorem objects_of_equalNames (hwf : WellFormed t) {a b : DatastoreObj} (ha : a ∈ t.datastores)
    (hb : b ∈ t.datastores) (h : EqualNames t a b) :
    a.ref = b.ref ∨ SamePod a b ∨ Ambiguous t a ∨ Ambiguous t b := by
  have hsame : ∀ {d d'}, d ∈ t.datastores → d' ∈ t.datastores → d'.name = d.name →
      Ambiguous t d ∨ d' = d := by
    intro d d' hd hd' hname
    by_cases href : d'.ref = d.ref
    · exact Or.inr (List.inj_on_of_nodup_map hwf.datastoreRefs hd' hd href)
    · exact Or.inl (Or.inl ⟨d', hd', href, hname⟩)
  rcases h with hname | ⟨a', ha', hname, b', hb', hname', name, hpod, hpod'⟩
  · rcases hsame ha hb hname.symm with hamb | rfl
    · exact Or.inr (Or.inr (Or.inl hamb))
    · exact Or.inl rfl
  rcases hsame ha ha' hname with hamb | rfl
  · exact Or.inr (Or.inr (Or.inl hamb))
  rcases hsame hb hb' hname' with hamb | rfl
  · exact Or.inr (Or.inr (Or.inr hamb))
  obtain ⟨⟨ra, na⟩, hpa, rfl⟩ := Option.map_eq_some_iff.mp hpod
  obtain ⟨⟨rb, nb⟩, hpb, hnb⟩ := Option.map_eq_some_iff.mp hpod'
  by_cases href : ra = rb
  · refine Or.inr (Or.inl ⟨?_, ?_⟩)
    · rw [hpa]
      exact Option.some_ne_none _
    · rw [hpa, hpb, Option.map_some, Option.map_some, href]
  · -- two StoragePods with one name
    obtain ⟨p, hp, hpq⟩ := hwf.parents b' hb (rb, nb) hpb
    obtain ⟨hpref, hpname⟩ := Prod.mk.inj hpq
    refine Or.inr (Or.inr (Or.inl (Or.inr ⟨(ra, na), hpa, p, hp, ?_, hpname.trans hnb⟩)))
    rw [hpref]
    exact fun h => href h.symm

end Objects

/-! ## The objects behind a violation -/

/-- Some virtual disks of two VMs with the names of the record lie on datastores that `P`
relates. -/
def DisksRelated (t : Tree) (P : DatastoreObj → DatastoreObj → Prop) (v : Violation) : Prop :=
  ∃ c ∈ t.clusters, ∃ x ∈ getClusterVms c, x.name = v.vmA ∧ ∃ a ∈ virtualDisks x,
    ∃ c' ∈ t.clusters, ∃ y ∈ getClusterVms c', y.name = v.vmB ∧ ∃ b ∈ virtualDisks y, P a b

/-- **A reported violation goes back to equal names**: of two datastores, or of the StoragePods
of datastores with these names; so to one datastore or one StoragePod, unless another object has
the name of one involved. -/
theorem violation_objects (search : Search) (order : SetOrder String) (patterns : List Pattern)
    {t : Tree} (hwf : WellFormed t) {v : Violation}
    (hv : v ∈ (analyzeStorageCompliance search order (getFullInventory t) patterns).violations) :
    DisksRelated t (fun a b => EqualNames t a b ∧
      (a.ref = b.ref ∨ SamePod a b ∨ Ambiguous t a ∨ Ambiguous t b)) v := by
  obtain ⟨_, _, r, hra, hrb⟩ := conflict_of_mem_violations (distinctNames_getFullInventory hwf) hv
  obtain ⟨c, hc, x, hx, hxa, a, ha, hua⟩ := exists_datastore_of_mem_usesOf hra
  obtain ⟨c', hc', y, hy, hyb, b, hb, hub⟩ := exists_datastore_of_mem_usesOf hrb
  have hao := hwf.backings c hc x hx a ha
  have hbo := hwf.backings c' hc' y hy b hb
  have hnames := equalNames_of_diskUses hwf hao hbo hua hub
  exact ⟨c, hc, x, hx, hxa, a, ha, c', hc', y, hy, hyb, b, hb, hnames,
    objects_of_equalNames hwf hao hbo hnames⟩

/-! ## A false violation -/

/-- The datastore `datastore1` of a datacenter. -/
def localDatastore (ref datacenter : Nat) : DatastoreObj :=
  ⟨ref, "datastore1", some (500 * 1024 ^ 3), .folder (.datacenter datacenter .root)⟩

/-- A web server in each of two datacenters, on the datastore `datastore1` there. -/
def twoDatacenters : Tree where
  clusters := [
    ⟨10, "Cluster-A", [⟨[⟨20, "WEB-01", some [.virtualDisk (localDatastore 30 1)]⟩]⟩], []⟩,
    ⟨11, "Cluster-B", [⟨[⟨21, "WEB-02", some [.virtualDisk (localDatastore 31 2)]⟩]⟩], []⟩]
  datastores := [localDatastore 30 1, localDatastore 31 2]
  pods := []

theorem wellFormed_twoDatacenters : WellFormed twoDatacenters where
  datastoreNames := by decide
  podNames := by decide
  datastoreRefs := by decide
  podRefs := by decide
  children := by decide
  inverse := by decide
  parents := by decide
  backings := by decide
  vmNames := by decide

/-- The record about the two web servers. -/
def datastore1Violation : Violation :=
  ⟨some "WEB", "WEB-01", "WEB-02", ["datastore1"], [], .warning⟩

theorem violation_objects_twoDatacenters :
    WellFormed twoDatacenters ∧
      datastore1Violation ∈ (analyzeStorageCompliance webSearch (SetOrder.sorted String)
        (getFullInventory twoDatacenters) [webPattern]).violations ∧
      DisksRelated twoDatacenters (fun a b => EqualNames twoDatacenters a b ∧
        (a.ref = b.ref ∨ SamePod a b ∨ Ambiguous twoDatacenters a ∨
          Ambiguous twoDatacenters b)) datastore1Violation :=
  ⟨wellFormed_twoDatacenters, by decide, violation_objects webSearch (SetOrder.sorted String)
    [webPattern] wellFormed_twoDatacenters (by decide)⟩

/-- The web servers of two datacenters are reported although they share no object. -/
theorem twoDatacenters_false_violation :
    WellFormed twoDatacenters ∧
      datastore1Violation ∈ (analyzeStorageCompliance webSearch (SetOrder.sorted String)
        (getFullInventory twoDatacenters) [webPattern]).violations ∧
      ¬ DisksRelated twoDatacenters (fun a b => a.ref = b.ref ∨ SamePod a b)
        datastore1Violation := by
  refine ⟨wellFormed_twoDatacenters, by decide, ?_⟩
  unfold DisksRelated
  decide

end VsphereCompliance.VCenter
