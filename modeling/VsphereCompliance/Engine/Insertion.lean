import VsphereCompliance.Engine.PatternOrder

/-!
# Adding a VM to the inventory

The storage analysis keeps one record of the disks for each name, that of the last VM that has
it. A new VM adds a name, or it takes the place of the earlier VMs of its name
(`get?_disksByName_insert`). Then a pair that was reported for the earlier VM stays reported
only if the new VM lies on what the two shared (`insertion_keeps_reports_iff`).
-/

namespace VsphereCompliance.Engine

open OrderedPairs

/-! ## What a violation says -/

/-- The resources that a violation lists. -/
def Violation.resources (v : Violation) : Set Resource :=
  {r | match r with
    | .datastore ds => ds ∈ v.sharedDatastores
    | .cluster pod => pod ∈ v.sharedDatastoreClusters}

/-- The violation is about the two names. -/
def Violation.Names (v : Violation) (a b : String) : Prop :=
  v.vmA = a ∧ v.vmB = b ∨ v.vmA = b ∧ v.vmB = a

instance (v : Violation) (a b : String) : Decidable (v.Names a b) :=
  inferInstanceAs (Decidable (_ ∨ _))

theorem Violation.Names.symm {v : Violation} {a b : String} (h : v.Names a b) : v.Names b a :=
  Or.symm h

theorem Violation.resources_subset_iff {v w : Violation} :
    v.resources ⊆ w.resources ↔ v.sharedDatastores ⊆ w.sharedDatastores ∧
      v.sharedDatastoreClusters ⊆ w.sharedDatastoreClusters := by
  constructor
  · intro h
    exact ⟨fun ds hds => h (a := .datastore ds) hds, fun pod hpod => h (a := .cluster pod) hpod⟩
  · rintro ⟨hds, hpods⟩ r hr
    cases r with
    | datastore ds => exact hds hr
    | cluster pod => exact hpods hr

section Reports

variable {search : Search} {order : SetOrder String} {inv : Inventory} {patterns : List Pattern}

theorem resources_of_violationOf {key : GroupKey} {a b : String} {disks disks' : List Disk}
    {v : Violation} (h : violationOf order key ((a, footprint (dsToPod inv) disks),
      (b, footprint (dsToPod inv) disks')) = some v) :
    v.resources = resources (countedPods inv) disks ∩ resources (countedPods inv) disks' := by
  unfold violationOf at h
  dsimp only at h
  split at h
  · cases h
    ext r
    cases r with
    | datastore ds =>
      show ds ∈ order.toList _ ↔ _
      rw [order.mem_toList, Finset.mem_inter, mem_footprint_datastores, mem_footprint_datastores,
        Set.mem_inter_iff]
    | cluster pod =>
      show pod ∈ order.toList _ ↔ _
      rw [order.mem_toList, Finset.mem_inter, mem_footprint_pods, mem_footprint_pods,
        Set.mem_inter_iff]
  · cases h

/-- What a report goes back to. -/
theorem disks_of_mem_violations {v : Violation} (hv : v ∈ violations search order inv patterns) :
    v.vmA ≠ v.vmB ∧ Together search patterns v.vmA v.vmB ∧ ∃ disks disks',
      (disksByName inv).get? v.vmA = some disks ∧ (disksByName inv).get? v.vmB = some disks' ∧
        Shares (countedPods inv) disks disks' ∧
          v.resources = resources (countedPods inv) disks ∩ resources (countedPods inv) disks' := by
  obtain ⟨ha, hb, disks, disks', hp, hviolation⟩ := (mem_violations_iff _ _ _ _).mp hv
  obtain ⟨hmem, hmem'⟩ := mem_of_mem_pairs hp
  have hne : v.vmA ≠ v.vmB := by
    have hnames : (v.vmA, v.vmB) ∈ pairs ((disksByName inv).entries.map Prod.fst) := by
      rw [pairs_map]
      exact List.mem_map.mpr ⟨_, hp, rfl⟩
    exact ne_of_mem_pairs (disksByName inv).nodup hnames
  exact ⟨hne, ⟨v.group, ha, hb⟩, disks, disks', OrderedDict.get?_eq_some_iff.mpr hmem,
    OrderedDict.get?_eq_some_iff.mpr hmem', footprints_meet_iff.mp
      (violationOf_eq_some hviolation).2, resources_of_violationOf hviolation⟩

/-- Two names that are together and share storage are reported. -/
theorem exists_report (order : SetOrder String) {a b : String} {disks disks' : List Disk}
    (hne : a ≠ b) (htogether : Together search patterns a b)
    (ha : (disksByName inv).get? a = some disks) (hb : (disksByName inv).get? b = some disks')
    (hshares : Shares (countedPods inv) disks disks') :
    ∃ v ∈ violations search order inv patterns, v.Names a b ∧
      v.resources = resources (countedPods inv) disks ∩ resources (countedPods inv) disks' := by
  have hreport : ∀ {a b disks disks'}, Together search patterns a b →
      ((a, disks), (b, disks')) ∈ pairs (disksByName inv).entries →
      Shares (countedPods inv) disks disks' →
      ∃ v ∈ violations search order inv patterns, v.Names a b ∧
        v.resources = resources (countedPods inv) disks ∩ resources (countedPods inv) disks' := by
    rintro a b disks disks' ⟨k, ha, hb⟩ hp hshares
    obtain ⟨v, hv⟩ := exists_violationOf order k
      (p := ((a, footprint (dsToPod inv) disks), (b, footprint (dsToPod inv) disks')))
      (footprints_meet_iff.mpr hshares)
    obtain rfl := group_of_violationOf order hv
    obtain ⟨rfl, rfl⟩ := Prod.mk.inj (violationOf_eq_some hv).1
    exact ⟨v, (mem_violations_iff _ _ _ _).mpr ⟨ha, hb, disks, disks', hp, hv⟩,
      Or.inl ⟨rfl, rfl⟩, resources_of_violationOf hv⟩
  rcases pairs_total (OrderedDict.get?_eq_some_iff.mp ha) (OrderedDict.get?_eq_some_iff.mp hb)
      (fun heq => hne (congrArg Prod.fst heq)) with hp | hp
  · exact hreport htogether hp hshares
  · obtain ⟨v, hv, hnames, hres⟩ := hreport htogether.symm hp hshares.symm
    exact ⟨v, hv, hnames.symm, by rw [hres, Set.inter_comm]⟩

end Reports

/-! ## The new inventory -/

/-- A place between two VMs of a cluster. -/
structure Place (inv : Inventory) where
  before : List Cluster
  cluster : Cluster
  after : List Cluster
  front : List Vm
  back : List Vm
  clusters_eq : inv.clusters = before ++ cluster :: after
  vms_eq : cluster.vms = front ++ back

variable {inv : Inventory}

/-- The inventory with a VM at the place. -/
def Place.insert (p : Place inv) (vm : Vm) : Inventory :=
  { inv with clusters := p.before ++ { p.cluster with vms := p.front ++ vm :: p.back } :: p.after }

/-- The entries of a list of VMs of a cluster. -/
def entriesOf (cluster : String) (vms : List Vm) : List VmEntry :=
  vms.map fun vm => ⟨vm.name, vm.disks, cluster⟩

/-- The VMs behind the place. -/
def Place.later (p : Place inv) : List VmEntry :=
  entriesOf p.cluster.name p.back ++ p.after.flatMap fun c => entriesOf c.name c.vms

/-- The VMs in front of the place. -/
def Place.earlier (p : Place inv) : List VmEntry :=
  (p.before.flatMap fun c => entriesOf c.name c.vms) ++ entriesOf p.cluster.name p.front

theorem Place.allVmsWithDisks_eq (p : Place inv) : allVmsWithDisks inv = p.earlier ++ p.later := by
  simp [allVmsWithDisks, Place.earlier, Place.later, entriesOf, p.clusters_eq, p.vms_eq]

theorem Place.allVmsWithDisks_insert (p : Place inv) (vm : Vm) :
    allVmsWithDisks (p.insert vm) =
      p.earlier ++ ⟨vm.name, vm.disks, p.cluster.name⟩ :: p.later := by
  simp [allVmsWithDisks, Place.insert, Place.earlier, Place.later, entriesOf]

/-! ## The disks of a name -/

/-- The disks of the last VM of the list that has the name. -/
def lastDisks (vms : List VmEntry) (name : String) : Option (List Disk) :=
  (vms.reverse.find? fun vm => vm.name = name).map VmEntry.disks

theorem get?_disksByName (inv : Inventory) (name : String) :
    (disksByName inv).get? name = lastDisks (allVmsWithDisks inv) name :=
  OrderedDict.get?_ofList_map _ _ _ _

theorem lastDisks_append (vms vms' : List VmEntry) (name : String) :
    lastDisks (vms ++ vms') name = (lastDisks vms' name).or (lastDisks vms name) := by
  unfold lastDisks
  rw [List.reverse_append, List.find?_append]
  cases vms'.reverse.find? fun vm => vm.name = name with
  | none => rfl
  | some vm => rfl

theorem lastDisks_eq_none_iff {vms : List VmEntry} {name : String} :
    lastDisks vms name = none ↔ ∀ vm ∈ vms, vm.name ≠ name := by
  simp [lastDisks]

/-- **The disks of a name after the insertion**: those of the new VM if it is the last one of
its name, and those of before otherwise. -/
theorem Place.get?_disksByName_insert (p : Place inv) (vm : Vm) (name : String) :
    (disksByName (p.insert vm)).get? name =
      if vm.name = name ∧ ∀ entry ∈ p.later, entry.name ≠ name then some vm.disks
      else (disksByName inv).get? name := by
  rw [get?_disksByName, get?_disksByName, p.allVmsWithDisks_insert, p.allVmsWithDisks_eq,
    List.append_cons, lastDisks_append, lastDisks_append, lastDisks_append]
  have hnew : lastDisks [⟨vm.name, vm.disks, p.cluster.name⟩] name =
      if vm.name = name then some vm.disks else none := by
    by_cases hname : vm.name = name
    · simp [lastDisks, hname]
    · simp [lastDisks, hname]
  rw [hnew]
  by_cases hname : vm.name = name
  · simp only [hname, if_true, true_and, ← lastDisks_eq_none_iff]
    cases lastDisks p.later name with
    | none => simp
    | some disks => simp
  · simp [hname]

/-! ## What stays reported -/

/-- Every pair that `vs` reports is reported by `ws`, with the same shared storage or more. -/
def StillReported (vs ws : List Violation) : Prop :=
  ∀ v ∈ vs, ∃ w ∈ ws, w.Names v.vmA v.vmB ∧ v.sharedDatastores ⊆ w.sharedDatastores ∧
    v.sharedDatastoreClusters ⊆ w.sharedDatastoreClusters

instance (vs ws : List Violation) : Decidable (StillReported vs ws) :=
  inferInstanceAs (Decidable (∀ v ∈ vs, ∃ w ∈ ws, _))

/-- A VM behind the place has the name too, or the new VM lies on all that the last VM of its
name shares with other VMs of the group. -/
def HidesNothing (search : Search) (patterns : List Pattern) (p : Place inv) (vm : Vm) : Prop :=
  (∃ entry ∈ p.later, entry.name = vm.name) ∨
    ∀ disks other disks', (disksByName inv).get? vm.name = some disks →
      (disksByName inv).get? other = some disks' → vm.name ≠ other →
      Together search patterns vm.name other →
      resources (countedPods inv) disks ∩ resources (countedPods inv) disks' ⊆
        resources (countedPods inv) vm.disks

section Insertion

variable (search : Search) (order order' : SetOrder String) (patterns : List Pattern)
  (p : Place inv) (vm : Vm)

/-- Where the new VM hides nothing, its name has the disks of before or lies on what they
share with a name of the group. -/
theorem HidesNothing.exists_disks {search : Search} {patterns : List Pattern} {p : Place inv}
    {vm : Vm} (h : HidesNothing search patterns p vm) {name other : String}
    {disks disks' : List Disk} (hdisks : (disksByName inv).get? name = some disks)
    (hother : (disksByName inv).get? other = some disks') (hne : name ≠ other)
    (htogether : Together search patterns name other) :
    ∃ after, (disksByName (p.insert vm)).get? name = some after ∧
      resources (countedPods inv) disks ∩ resources (countedPods inv) disks' ⊆
        resources (countedPods inv) after := by
  rw [p.get?_disksByName_insert]
  split
  · rename_i hlast
    obtain ⟨rfl, hlater⟩ := hlast
    refine ⟨vm.disks, rfl, ?_⟩
    rcases h with ⟨entry, hentry, hname⟩ | hcovers
    · exact absurd hname (hlater entry hentry)
    · exact hcovers disks other disks' hdisks hother hne htogether
  · exact ⟨disks, hdisks, Set.inter_subset_left⟩

theorem stillReported_of_hidesNothing (h : HidesNothing search patterns p vm) :
    StillReported (violations search order inv patterns)
      (violations search order' (p.insert vm) patterns) := by
  intro v hv
  obtain ⟨hne, htogether, disks, disks', ha, hb, hshares, hres⟩ := disks_of_mem_violations hv
  obtain ⟨after, hafter, hsub⟩ := h.exists_disks ha hb hne htogether
  obtain ⟨after', hafter', hsub'⟩ := h.exists_disks hb ha hne.symm htogether.symm
  rw [Set.inter_comm] at hsub'
  have hall : resources (countedPods inv) disks ∩ resources (countedPods inv) disks' ⊆
      resources (countedPods inv) after ∩ resources (countedPods inv) after' :=
    Set.subset_inter hsub hsub'
  obtain ⟨w, hw, hnames, hres'⟩ := exists_report order' hne htogether hafter
    hafter' (hshares.mono hall)
  refine ⟨w, hw, hnames, Violation.resources_subset_iff.mp ?_⟩
  rw [hres, hres']
  exact hall

theorem hidesNothing_of_stillReported (h : StillReported (violations search order inv patterns)
    (violations search order' (p.insert vm) patterns)) : HidesNothing search patterns p vm := by
  by_cases hlater : ∃ entry ∈ p.later, entry.name = vm.name
  · exact Or.inl hlater
  · refine Or.inr ?_
    intro disks other disks' hdisks hother hne htogether r hr
    have hnew : (disksByName (p.insert vm)).get? vm.name = some vm.disks := by
      rw [p.get?_disksByName_insert, if_pos ⟨rfl, fun entry hentry hname =>
        hlater ⟨entry, hentry, hname⟩⟩]
    obtain ⟨v, hv, hnames, hres⟩ := exists_report order hne htogether hdisks hother ⟨r, hr⟩
    obtain ⟨w, hw, hwnames, hsub⟩ := h v hv
    have hmem : r ∈ w.resources := Violation.resources_subset_iff.mpr hsub (hres ▸ hr)
    obtain ⟨_, _, after, after', ha, hb, _, hres'⟩ := disks_of_mem_violations hw
    rw [hres'] at hmem
    -- one of the two names is that of the new VM
    have hname : w.vmA = vm.name ∨ w.vmB = vm.name := by
      rcases hnames with ⟨h1, h2⟩ | ⟨h1, h2⟩ <;> rcases hwnames with ⟨h3, h4⟩ | ⟨h3, h4⟩
      · exact Or.inl (h3.trans h1)
      · exact Or.inr (h4.trans h1)
      · exact Or.inr (h4.trans h2)
      · exact Or.inl (h3.trans h2)
    rcases hname with hname | hname
    · rw [hname, hnew] at ha
      cases ha
      exact hmem.1
    · rw [hname, hnew] at hb
      cases hb
      exact hmem.2

/-- **Adding a VM keeps every report**, with its shared storage, exactly when the new VM hides
nothing that the last VM of its name shares with the others of the group. -/
theorem insertion_keeps_reports_iff :
    StillReported (analyzeStorageCompliance search order inv patterns).violations
        (analyzeStorageCompliance search order' (p.insert vm) patterns).violations ↔
      HidesNothing search patterns p vm :=
  ⟨hidesNothing_of_stillReported search order order' patterns p vm,
    stillReported_of_hidesNothing search order order' patterns p vm⟩

end Insertion

/-! ## A namesake without disks -/

/-- Behind the two web servers of `sharedInventory`. -/
def behindWebServers : Place sharedInventory where
  before := []
  cluster := ⟨"Cluster-A", 4, [⟨"WEB-01", [⟨some "DS-01", none, false⟩]⟩,
    ⟨"WEB-02", [⟨some "DS-01", none, false⟩, ⟨some "DS-ISO", none, true⟩]⟩], []⟩
  after := []
  front := [⟨"WEB-01", [⟨some "DS-01", none, false⟩]⟩,
    ⟨"WEB-02", [⟨some "DS-01", none, false⟩, ⟨some "DS-ISO", none, true⟩]⟩]
  back := []
  clusters_eq := rfl
  vms_eq := rfl

/-- **A VM of another folder with the name `WEB-01`** and without disks makes the violation of
the two web servers disappear. -/
theorem namesake_hides_violation :
    (analyzeStorageCompliance webSearch (SetOrder.sorted String) sharedInventory
        [webPattern]).violations =
        [⟨some "WEB", "WEB-01", "WEB-02", ["DS-01"], ["DSC-01"], .critical⟩] ∧
      (analyzeStorageCompliance webSearch (SetOrder.sorted String)
        (behindWebServers.insert ⟨"WEB-01", []⟩) [webPattern]).violations = [] ∧
      ¬ StillReported (analyzeStorageCompliance webSearch (SetOrder.sorted String)
          sharedInventory [webPattern]).violations
        (analyzeStorageCompliance webSearch (SetOrder.sorted String)
          (behindWebServers.insert ⟨"WEB-01", []⟩) [webPattern]).violations := by
  decide

end VsphereCompliance.Engine
