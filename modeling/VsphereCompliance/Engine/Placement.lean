import VsphereCompliance.Engine.Storage
import VsphereCompliance.Library.Conflicts

/-!
# Where a VM's disks lie

What the tables and sets of the storage analysis say about one disk and one VM. A disk lies
on its datastore and in its effective datastore cluster: the one that lists the datastore,
else the one named by the disk itself (`effectiveCluster`; an empty name is no name). The
resources of a VM are those of its real disks. The analysis files the datastore clusters by
name, so that of several with one name the last counts (`countedPods`); two VMs share storage
among these exactly when their footprints meet (`footprints_meet_iff`).
-/

namespace VsphereCompliance.Engine

/-! ## The datastore cluster of a disk -/

/-- The datastore cluster among `pods` that lists the datastore; the last one, should there be
several. -/
def listingCluster (pods : List Pod) (ds : String) : Option String :=
  ((pods.filter fun pod => ds ∈ pod.datastores).getLast?).map Pod.name

/-- The datastore cluster of a disk: the one that lists its datastore, else its own field. -/
def effectiveCluster (pods : List Pod) (d : Disk) : Option String :=
  (truthy (d.datastore.bind (listingCluster pods))).or (truthy d.datastoreCluster)

/-- The listing datastore cluster is one of the list that lists the datastore. -/
theorem mem_of_listingCluster {pods : List Pod} {ds name : String}
    (h : listingCluster pods ds = some name) :
    ∃ pod ∈ pods, pod.name = name ∧ ds ∈ pod.datastores := by
  obtain ⟨pod, hlast, rfl⟩ := Option.map_eq_some_iff.mp h
  obtain ⟨hmem, hds⟩ := List.mem_filter.mp (List.mem_of_getLast? hlast)
  exact ⟨pod, hmem, rfl, by simpa using hds⟩

/-! ## The datastore clusters that count -/

/-- Of the datastore clusters with one name the last, in the place of the first. -/
def lastOfEachName (pods : List Pod) : List Pod :=
  (pods.map Pod.name).eraseDups.filterMap fun name => pods.reverse.find? fun pod => pod.name = name

/-- The datastore clusters that the analysis knows. -/
def countedPods (inv : Inventory) : List Pod := lastOfEachName inv.datastoreClusters

theorem values_dsClusters (inv : Inventory) : (dsClusters inv).values = countedPods inv := by
  rw [dsClusters, OrderedDict.values_ofList_map Pod.name fun pod => pod]
  simp only [Option.map_id_fun', id_eq]
  rfl

/-- Datastore clusters with distinct names all count. -/
theorem lastOfEachName_of_nodup {pods : List Pod} (h : (pods.map Pod.name).Nodup) :
    lastOfEachName pods = pods := by
  have hvalues := OrderedDict.values_ofList_map Pod.name (fun pod => pod) pods
  have hsnd : (pods.map fun pod => (pod.name, pod)).map Prod.snd = pods := by
    rw [List.map_map]
    exact List.map_id pods
  rw [OrderedDict.values, OrderedDict.entries_ofList (by rwa [List.map_map]), hsnd] at hvalues
  simpa [lastOfEachName] using hvalues.symm

theorem mem_of_mem_countedPods {inv : Inventory} {pod : Pod} (h : pod ∈ countedPods inv) :
    pod ∈ inv.datastoreClusters := by
  obtain ⟨_, _, hfind⟩ := List.mem_filterMap.mp h
  exact List.mem_reverse.mp (List.mem_of_find?_eq_some hfind)

theorem name_of_mem_dsClusters {inv : Inventory} {p : String × Pod}
    (hp : p ∈ (dsClusters inv).entries) : p.2.name = p.1 := by
  have hget := OrderedDict.get?_ofList_mem (OrderedDict.get?_eq_some_iff.mpr hp)
  obtain ⟨pod, _, heq⟩ := List.mem_map.mp hget
  obtain ⟨hname, rfl⟩ := Prod.mk.inj heq
  exact hname

theorem lookup_reverse_listing {names : List String} {ds : String} (name : String)
    (h : ds ∈ names) : ((names.map fun d => (d, name)).reverse).lookup ds = some name := by
  induction names using List.reverseRecOn with
  | nil => cases h
  | append_singleton names d ih =>
    rw [List.map_append, List.reverse_append, List.map_singleton, List.reverse_singleton,
      List.singleton_append, List.lookup_cons]
    by_cases hd : ds = d
    · simp [hd]
    · rw [beq_false_of_ne hd]
      rcases List.mem_append.mp h with h | h
      · exact ih h
      · exact absurd (List.mem_singleton.mp h) hd

/-- Looking up a key among listings reads the last listing that has it. -/
theorem lookup_reverse_listings (es : List (String × Pod)) (hes : ∀ p ∈ es, p.2.name = p.1)
    (ds : String) :
    ((es.flatMap fun p => p.2.datastores.map fun d => (d, p.1)).reverse).lookup ds =
      (((es.map Prod.snd).filter fun pod => ds ∈ pod.datastores).getLast?).map Pod.name := by
  induction es using List.reverseRecOn with
  | nil => rfl
  | append_singleton es p ih =>
    have hp := hes p (List.mem_append_right _ (List.mem_singleton_self p))
    have hes' : ∀ q ∈ es, q.2.name = q.1 := fun q hq => hes q (List.mem_append_left _ hq)
    rw [List.flatMap_append, List.flatMap_singleton, List.reverse_append, List.lookup_append,
      ih hes', List.map_append, List.map_singleton, List.filter_append]
    by_cases hmem : ds ∈ p.2.datastores
    · have hlook := lookup_reverse_listing p.1 hmem
      simp [hlook, hmem, hp]
    · have hlook : ((p.2.datastores.map fun d => (d, p.1)).reverse).lookup ds = none := by
        rw [List.lookup_eq_none_iff]
        intro q hq
        obtain ⟨d, hd, rfl⟩ := List.mem_map.mp (List.mem_reverse.mp hq)
        have hne : ds ≠ d := fun h => hmem (h ▸ hd)
        simpa using hne
      simp [hlook, hmem]

/-- The table `ds_to_pod` is the listing datastore cluster. -/
theorem get?_dsToPod (inv : Inventory) (ds : String) :
    (dsToPod inv).get? ds = listingCluster (countedPods inv) ds := by
  rw [dsToPod, OrderedDict.get?_ofList, podListings, listingCluster, ← values_dsClusters,
    OrderedDict.values]
  exact lookup_reverse_listings _ (fun p hp => name_of_mem_dsClusters hp) ds

theorem effectivePod_dsToPod (inv : Inventory) (d : Disk) :
    effectivePod (dsToPod inv) d = effectiveCluster (countedPods inv) d := by
  have hfun : (dsToPod inv).get? = listingCluster (countedPods inv) := funext (get?_dsToPod inv)
  rw [effectivePod, truthy_pyOr, hfun, effectiveCluster]

/-! ## The resources of a VM -/

/-- What VMs can share: a datastore or a datastore cluster. -/
inductive Resource
  | datastore (name : String)
  | cluster (name : String)
  deriving DecidableEq, Repr

/-- The disk is no ISO and has a datastore. -/
def Disk.IsReal (d : Disk) : Prop := d.isIso = false ∧ ∃ ds, d.datastore = some ds ∧ ds ≠ ""

/-- The resources that one disk occupies. -/
def diskUses (pods : List Pod) (d : Disk) : Resource → Prop
  | .datastore ds => d.datastore = some ds
  | .cluster name => effectiveCluster pods d = some name

/-- The resources that a list of disks occupies through its real disks. -/
def resources (pods : List Pod) (disks : List Disk) : Set Resource :=
  {r | ∃ d ∈ disks, d.IsReal ∧ diskUses pods d r}

theorem mem_realDisks {disks : List Disk} {d : Disk} :
    d ∈ realDisks disks ↔ d ∈ disks ∧ d.IsReal := by
  rw [realDisks, List.mem_filter, Bool.and_eq_true, Option.isSome_iff_exists]
  simp only [Bool.not_eq_true', truthy_eq_some_iff, Disk.IsReal]

theorem mem_footprint_datastores {inv : Inventory} {disks : List Disk} {ds : String} :
    ds ∈ (footprint (dsToPod inv) disks).datastores ↔
      Resource.datastore ds ∈ resources (countedPods inv) disks := by
  simp only [footprint, List.mem_toFinset, List.mem_filterMap, mem_realDisks, resources,
    diskUses, Set.mem_ofPred_eq, and_assoc]

theorem mem_footprint_pods {inv : Inventory} {disks : List Disk} {name : String} :
    name ∈ (footprint (dsToPod inv) disks).pods ↔
      Resource.cluster name ∈ resources (countedPods inv) disks := by
  simp only [footprint, List.mem_toFinset, List.mem_filterMap, mem_realDisks, resources,
    diskUses, Set.mem_ofPred_eq, and_assoc, effectivePod_dsToPod]

/-- Two lists of disks share storage when they occupy a common resource. -/
def Shares (pods : List Pod) (a b : List Disk) : Prop :=
  (resources pods a ∩ resources pods b).Nonempty

theorem Shares.symm {pods : List Pod} {a b : List Disk} (h : Shares pods a b) :
    Shares pods b a := by
  obtain ⟨r, ha, hb⟩ := h
  exact ⟨r, hb, ha⟩

theorem inter_datastores_nonempty_iff {inv : Inventory} {a b : List Disk} :
    (footprint (dsToPod inv) a).datastores ∩ (footprint (dsToPod inv) b).datastores ≠ ∅ ↔
      ∃ ds, Resource.datastore ds ∈ resources (countedPods inv) a ∧
        Resource.datastore ds ∈ resources (countedPods inv) b := by
  rw [← Finset.nonempty_iff_ne_empty]
  simp only [Finset.Nonempty, Finset.mem_inter, mem_footprint_datastores]

theorem inter_pods_nonempty_iff {inv : Inventory} {a b : List Disk} :
    (footprint (dsToPod inv) a).pods ∩ (footprint (dsToPod inv) b).pods ≠ ∅ ↔
      ∃ p, Resource.cluster p ∈ resources (countedPods inv) a ∧
        Resource.cluster p ∈ resources (countedPods inv) b := by
  rw [← Finset.nonempty_iff_ne_empty]
  simp only [Finset.Nonempty, Finset.mem_inter, mem_footprint_pods]

/-- The test of the double loop: the two footprints meet. -/
theorem footprints_meet_iff {inv : Inventory} {a b : List Disk} :
    ((footprint (dsToPod inv) a).datastores ∩ (footprint (dsToPod inv) b).datastores ≠ ∅ ∨
      (footprint (dsToPod inv) a).pods ∩ (footprint (dsToPod inv) b).pods ≠ ∅) ↔
      Shares (countedPods inv) a b := by
  rw [inter_datastores_nonempty_iff, inter_pods_nonempty_iff]
  refine ⟨?_, ?_⟩
  · rintro (⟨ds, ha, hb⟩ | ⟨p, ha, hb⟩)
    · exact ⟨_, ha, hb⟩
    · exact ⟨_, ha, hb⟩
  · intro h
    obtain ⟨r, ha, hb⟩ := h
    cases r with
    | datastore ds => exact Or.inl ⟨ds, ha, hb⟩
    | cluster p => exact Or.inr ⟨p, ha, hb⟩

end VsphereCompliance.Engine
