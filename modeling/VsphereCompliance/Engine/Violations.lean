import VsphereCompliance.Engine.Placement

/-!
# What the storage violations say

The violations of a group are the pairs of its `vm_storage` entries whose footprints meet.
For a group with pairwise distinct names these are the pairs of its VMs that share storage,
one record for each pair (`storage_violations_exact`); a datastore cluster with a later
namesake does not count (`namesakeInventory_not_exact`). For an inventory whose VM names are
distinct the reported pairs are the conflicts of the VMs' resources within their groups
(`reported_iff_conflict`).
-/

namespace VsphereCompliance.Engine

open OrderedPairs Conflicts

/-! ## The violations of one group -/

section Group

variable (search : Search) (order : SetOrder String) (inv : Inventory) (patterns : List Pattern)

/-- The VMs of the storage group with key `k`, in inventory order over all clusters. -/
def storageMembers (k : GroupKey) : List VmEntry :=
  (allVmsWithDisks inv).filter fun vm => storageGroupKey search patterns vm.name = some k

theorem mem_storageMembers {k : GroupKey} {vm : VmEntry} :
    vm ∈ storageMembers search inv patterns k ↔
      vm ∈ allVmsWithDisks inv ∧ storageGroupKey search patterns vm.name = some k := by
  rw [storageMembers, List.mem_filter, decide_eq_true_eq]

theorem mem_storageGroups {g : GroupKey × List VmEntry} :
    g ∈ (storageGroups search patterns inv).entries ↔
      g.2 ≠ [] ∧ g.2 = storageMembers search inv patterns g.1 := by
  obtain ⟨k, vms⟩ := g
  have h : (k, vms) ∈ (storageGroups search patterns inv).entries ↔
      vms ≠ [] ∧ vms = (storageMembers search inv patterns k).map id :=
    OrderedDict.mem_entries_group _ _
  rw [List.map_id] at h
  exact h

theorem group_of_violationOf {k : GroupKey} {p : (String × Footprint) × (String × Footprint)}
    {v : Violation} (h : violationOf order k p = some v) : v.group = k := by
  unfold violationOf at h
  dsimp only at h
  split at h
  · cases h
    rfl
  · cases h

theorem group_of_mem_groupViolations {toPod : OrderedDict String String}
    (g : GroupKey × List VmEntry) : ∀ v ∈ groupViolations order toPod g, v.group = g.1 := by
  intro v hv
  unfold groupViolations at hv
  split at hv
  · cases hv
  · obtain ⟨p, _, hp⟩ := List.mem_filterMap.mp hv
    exact group_of_violationOf order hp

theorem groupViolations_nil (toPod : OrderedDict String String) (k : GroupKey) :
    groupViolations order toPod (k, []) = [] := rfl

/-- The violations reported for the key `k` are those of the group with key `k`. -/
theorem filter_violations (k : GroupKey) :
    (violations search order inv patterns).filter (fun v => v.group = k) =
      groupViolations order (dsToPod inv) (k, storageMembers search inv patterns k) := by
  rw [violations, OrderedDict.filter_flatMap_entries _ _ _
    (fun g => group_of_mem_groupViolations order g)]
  cases h : (storageGroups search patterns inv).get? k with
  | none =>
    have hnil : storageMembers search inv patterns k = [] := by
      by_contra hne
      have hmem := (mem_storageGroups search inv patterns (g := (k, _))).mpr ⟨hne, rfl⟩
      rw [OrderedDict.get?_eq_some_iff.mpr hmem] at h
      cases h
    rw [hnil, groupViolations_nil]
    rfl
  | some vms =>
    have hmem := OrderedDict.get?_eq_some_iff.mp h
    rw [← ((mem_storageGroups search inv patterns).mp hmem).2]
    rfl

end Group

/-! ## A group with distinct names -/

/-- The record of the violation between `a` and `b`, with `pods` for datastore clusters. -/
structure RecordOf (pods : List Pod) (k : GroupKey) (a b : VmEntry) (v : Violation) : Prop where
  group : v.group = k
  vmA : v.vmA = a.name
  vmB : v.vmB = b.name
  shares : Shares pods a.disks b.disks
  datastores : ∀ ds, ds ∈ v.sharedDatastores ↔
    .datastore ds ∈ resources pods a.disks ∧ .datastore ds ∈ resources pods b.disks
  datastoreClusters : ∀ p, p ∈ v.sharedDatastoreClusters ↔
    .cluster p ∈ resources pods a.disks ∧ .cluster p ∈ resources pods b.disks
  severity : v.severity = .critical ↔
    ∃ p, .cluster p ∈ resources pods a.disks ∧ .cluster p ∈ resources pods b.disks

section Distinct

variable (order : SetOrder String) (inv : Inventory) (k : GroupKey) {vms : List VmEntry}

theorem entries_vmStorage (h : (vms.map VmEntry.name).Nodup) :
    (vmStorage (dsToPod inv) vms).entries =
      vms.map fun vm => (vm.name, footprint (dsToPod inv) vm.disks) := by
  apply OrderedDict.entries_ofList
  rw [List.map_map]
  exact h

/-- The loop body for a pair of VMs. -/
def pairViolation (p : VmEntry × VmEntry) : Option Violation :=
  violationOf order k ((p.1.name, footprint (dsToPod inv) p.1.disks),
    (p.2.name, footprint (dsToPod inv) p.2.disks))

theorem pairViolation_eq_some {a b : VmEntry} {v : Violation}
    (h : pairViolation order inv k (a, b) = some v) : RecordOf (countedPods inv) k a b v := by
  unfold pairViolation violationOf at h
  dsimp only at h
  split at h
  · rename_i hmeet
    cases h
    refine ⟨rfl, rfl, rfl, footprints_meet_iff.mp hmeet, ?_, ?_, ?_⟩
    · intro ds
      rw [order.mem_toList, Finset.mem_inter, mem_footprint_datastores, mem_footprint_datastores]
    · intro p
      rw [order.mem_toList, Finset.mem_inter, mem_footprint_pods, mem_footprint_pods]
    · rw [← inter_pods_nonempty_iff]
      dsimp only
      split
      · rename_i hpods
        exact ⟨fun _ => hpods, fun _ => rfl⟩
      · rename_i hpods
        exact ⟨fun h => Severity.noConfusion h, fun h => absurd h hpods⟩
  · cases h

theorem pairViolation_isSome_iff {a b : VmEntry} :
    (pairViolation order inv k (a, b)).isSome ↔ Shares (countedPods inv) a.disks b.disks := by
  unfold pairViolation violationOf
  dsimp only
  rw [← footprints_meet_iff]
  split
  · rename_i hmeet
    exact ⟨fun _ => hmeet, fun _ => rfl⟩
  · rename_i hmeet
    exact ⟨fun h => (Bool.noConfusion h), fun h => absurd h hmeet⟩

theorem groupViolations_of_nodup (h : (vms.map VmEntry.name).Nodup) :
    groupViolations order (dsToPod inv) (k, vms) =
      (pairs vms).filterMap (pairViolation order inv k) := by
  unfold groupViolations
  split
  · rename_i hlen
    rw [pairs_of_length_lt_two hlen]
    rfl
  · rw [entries_vmStorage inv h, pairs_map, List.filterMap_map]
    rfl

end Distinct

/-- The records for the key `k` and the two names, in either order. -/
def reportsOf (vs : List Violation) (k : GroupKey) (a b : String) : List Violation :=
  vs.filter fun v => v.group = k ∧ (v.vmA = a ∧ v.vmB = b ∨ v.vmA = b ∧ v.vmB = a)

/-- `vs` reports, for the group `k` of the VMs `vms`, exactly the pairs that share storage, with
`pods` for datastore clusters. -/
structure ViolationsExact (pods : List Pod) (vs : List Violation) (k : GroupKey)
    (vms : List VmEntry) : Prop where
  /-- A record is about two VMs of the group that share storage, in inventory order. -/
  sound : ∀ v ∈ vs, v.group = k → ∃ a b, [a, b].Sublist vms ∧ RecordOf pods k a b v
  /-- Two VMs that share storage have one record. -/
  exactlyOne : ∀ a b, [a, b].Sublist vms → Shares pods a.disks b.disks →
    ∃ v, reportsOf vs k a.name b.name = [v]
  /-- Two VMs that share no storage have none. -/
  none : ∀ a b, [a, b].Sublist vms → ¬ Shares pods a.disks b.disks →
    reportsOf vs k a.name b.name = []

section Exact

variable (search : Search) (order : SetOrder String) (inv : Inventory) (patterns : List Pattern)
  {k : GroupKey}

/-- Over VMs with distinct names, the record of a pair names `a` and `b` only if it is the
record of the pair `(a, b)`. -/
theorem filter_pairViolation {vms : List VmEntry} (h : (vms.map VmEntry.name).Nodup)
    {a b : VmEntry} (hab : (a, b) ∈ pairs vms) {p : VmEntry × VmEntry} (hp : p ∈ pairs vms) :
    (pairViolation order inv k p).filter (fun v => decide
        (v.vmA = a.name ∧ v.vmB = b.name ∨ v.vmA = b.name ∧ v.vmB = a.name)) =
      if p = (a, b) then pairViolation order inv k p else none := by
  have hinj := List.inj_on_of_nodup_map h
  have hmem := mem_of_mem_pairs hab
  have hmem' := mem_of_mem_pairs hp
  cases hv : pairViolation order inv k p with
  | none => simp
  | some v =>
    have hrec := pairViolation_eq_some order inv k hv
    rw [Option.filter_some, hrec.vmA, hrec.vmB]
    by_cases hpab : p = (a, b)
    · subst hpab
      simp
    · have hnot : ¬ (p.1.name = a.name ∧ p.2.name = b.name ∨
          p.1.name = b.name ∧ p.2.name = a.name) := by
        rintro (⟨h1, h2⟩ | ⟨h1, h2⟩)
        · exact hpab (Prod.ext (hinj hmem'.1 hmem.1 h1) (hinj hmem'.2 hmem.2 h2))
        · have heq : p = (b, a) := Prod.ext (hinj hmem'.1 hmem.2 h1) (hinj hmem'.2 hmem.1 h2)
          exact pairs_asymm h.of_map hab (heq ▸ hp)
      simp [hpab, hnot]

theorem reportsOf_eq_filter (vs : List Violation) (a b : String) :
    reportsOf vs k a b = (vs.filter fun v => v.group = k).filter fun v =>
      decide (v.vmA = a ∧ v.vmB = b ∨ v.vmA = b ∧ v.vmB = a) := by
  rw [List.filter_filter, reportsOf]
  apply List.filter_congr
  intro v _
  rw [Bool.decide_and, Bool.and_comm]

/-- The record of a pair of the group is the one that the loop body makes for it. -/
theorem reportsOf_pair (h : ((storageMembers search inv patterns k).map VmEntry.name).Nodup)
    {a b : VmEntry} (hab : (a, b) ∈ pairs (storageMembers search inv patterns k)) :
    reportsOf (violations search order inv patterns) k a.name b.name =
      (pairViolation order inv k (a, b)).toList := by
  have hfm := List.filterMap_filter (f := pairViolation order inv k)
    (p := fun p => decide (p = (a, b))) (l := pairs (storageMembers search inv patterns k))
  simp only [decide_eq_true_eq, filter_pairs_eq h.of_map hab] at hfm
  rw [reportsOf_eq_filter, filter_violations, groupViolations_of_nodup order inv k h,
    List.filter_filterMap,
    List.filterMap_congr fun p hp => filter_pairViolation order inv h hab hp, ← hfm]
  cases hv : pairViolation order inv k (a, b) with
  | none => simp [hv]
  | some v => simp [hv]

theorem storage_sound (h : ((storageMembers search inv patterns k).map VmEntry.name).Nodup) :
    ∀ v ∈ violations search order inv patterns, v.group = k →
      ∃ a b, [a, b].Sublist (storageMembers search inv patterns k) ∧
        RecordOf (countedPods inv) k a b v := by
  intro v hv hk
  have hmem : v ∈ (violations search order inv patterns).filter (fun v => v.group = k) :=
    List.mem_filter.mpr ⟨hv, decide_eq_true hk⟩
  rw [filter_violations, groupViolations_of_nodup order inv k h] at hmem
  obtain ⟨⟨a, b⟩, hp, hrec⟩ := List.mem_filterMap.mp hmem
  exact ⟨a, b, mem_pairs_iff.mp hp, pairViolation_eq_some order inv k hrec⟩

theorem storage_complete (h : ((storageMembers search inv patterns k).map VmEntry.name).Nodup)
    {a b : VmEntry} (hab : (a, b) ∈ pairs (storageMembers search inv patterns k))
    (hshare : Shares (countedPods inv) a.disks b.disks) :
    ∃ v, v ∈ violations search order inv patterns ∧ v.vmA = a.name ∧ v.vmB = b.name := by
  obtain ⟨v, hv⟩ := Option.isSome_iff_exists.mp
    ((pairViolation_isSome_iff order inv k).mpr hshare)
  have hrec := pairViolation_eq_some order inv k hv
  have hmem :
      v ∈ groupViolations order (dsToPod inv) (k, storageMembers search inv patterns k) := by
    rw [groupViolations_of_nodup order inv k h]
    exact List.mem_filterMap.mpr ⟨(a, b), hab, hv⟩
  rw [← filter_violations] at hmem
  exact ⟨v, (List.mem_filter.mp hmem).1, hrec.vmA, hrec.vmB⟩

theorem violationsExact_countedPods
    (h : ((storageMembers search inv patterns k).map VmEntry.name).Nodup) :
    ViolationsExact (countedPods inv) (violations search order inv patterns) k
      (storageMembers search inv patterns k) where
  sound := storage_sound search order inv patterns h
  exactlyOne := by
    intro a b hab hshare
    obtain ⟨v, hv⟩ := Option.isSome_iff_exists.mp
      ((pairViolation_isSome_iff order inv k).mpr hshare)
    refine ⟨v, ?_⟩
    rw [reportsOf_pair search order inv patterns h (mem_pairs_iff.mpr hab), hv]
    rfl
  none := by
    intro a b hab hshare
    have hnone : pairViolation order inv k (a, b) = Option.none := by
      rw [← Option.not_isSome_iff_eq_none, pairViolation_isSome_iff]
      exact hshare
    rw [reportsOf_pair search order inv patterns h (mem_pairs_iff.mpr hab), hnone]
    rfl

/-- **Storage violations are sound and complete** for every group whose VM names are
pairwise distinct, with the last datastore cluster of each name; with all datastore clusters of
the inventory where their names are distinct. -/
theorem storage_violations_exact
    (h : ((storageMembers search inv patterns k).map VmEntry.name).Nodup) :
    ViolationsExact (lastOfEachName inv.datastoreClusters)
        (analyzeStorageCompliance search order inv patterns).violations k
        (storageMembers search inv patterns k) ∧
      ((inv.datastoreClusters.map Pod.name).Nodup →
        ViolationsExact inv.datastoreClusters
          (analyzeStorageCompliance search order inv patterns).violations k
          (storageMembers search inv patterns k)) := by
  have hexact : ViolationsExact (lastOfEachName inv.datastoreClusters)
      (analyzeStorageCompliance search order inv patterns).violations k
      (storageMembers search inv patterns k) :=
    violationsExact_countedPods search order inv patterns h
  refine ⟨hexact, fun hpods => ?_⟩
  rw [lastOfEachName_of_nodup hpods] at hexact
  exact hexact

end Exact

/-- Two web servers on one datastore, which is listed by a datastore cluster. -/
def sharedInventory : Inventory where
  clusters := [⟨"Cluster-A", 4, [⟨"WEB-01", [⟨some "DS-01", none, false⟩]⟩,
    ⟨"WEB-02", [⟨some "DS-01", none, false⟩, ⟨some "DS-ISO", none, true⟩]⟩], []⟩]
  datastores := [⟨"DS-01", 500⟩, ⟨"DS-02", 400⟩]
  datastoreClusters := [⟨"DSC-01", ["DS-01"]⟩]

theorem storage_violations_exact_shared :
    (storageMembers webSearch sharedInventory [webPattern] (some "WEB")).map VmEntry.name =
        ["WEB-01", "WEB-02"] ∧
      ViolationsExact sharedInventory.datastoreClusters
        (analyzeStorageCompliance webSearch (SetOrder.sorted String) sharedInventory
          [webPattern]).violations (some "WEB")
        (storageMembers webSearch sharedInventory [webPattern] (some "WEB")) :=
  ⟨by decide, (storage_violations_exact webSearch (SetOrder.sorted String) sharedInventory
    [webPattern] (by decide)).2 (by decide)⟩

/-! ## Two datastore clusters of one name -/

/-- Two web servers on two datastores of the datastore cluster `DSC-01`, and an empty datastore
cluster of this name in another datacenter. -/
def namesakeInventory : Inventory where
  clusters := [⟨"Cluster-A", 4, [⟨"WEB-01", [⟨some "DS-01", none, false⟩]⟩,
    ⟨"WEB-02", [⟨some "DS-02", none, false⟩]⟩], []⟩]
  datastores := [⟨"DS-01", 500⟩, ⟨"DS-02", 400⟩]
  datastoreClusters := [⟨"DSC-01", ["DS-01", "DS-02"]⟩, ⟨"DSC-01", []⟩]

/-- The datastore cluster that the two web servers share is lost to its namesake. -/
theorem namesakeInventory_not_exact :
    (storageMembers webSearch namesakeInventory [webPattern] (some "WEB")).map VmEntry.name =
        ["WEB-01", "WEB-02"] ∧
      (∀ ds ∈ ["DS-01", "DS-02"],
        listingCluster namesakeInventory.datastoreClusters ds = some "DSC-01") ∧
      (analyzeStorageCompliance webSearch (SetOrder.sorted String) namesakeInventory
        [webPattern]).violations = [] ∧
      ¬ ViolationsExact namesakeInventory.datastoreClusters
        (analyzeStorageCompliance webSearch (SetOrder.sorted String) namesakeInventory
          [webPattern]).violations (some "WEB")
        (storageMembers webSearch namesakeInventory [webPattern] (some "WEB")) := by
  have hnone : (analyzeStorageCompliance webSearch (SetOrder.sorted String) namesakeInventory
      [webPattern]).violations = [] := by decide
  refine ⟨by decide, by decide, hnone, ?_⟩
  intro h
  have huse : ∀ ds ∈ ["DS-01", "DS-02"], Resource.cluster "DSC-01" ∈
      resources namesakeInventory.datastoreClusters [⟨some ds, none, false⟩] := by
    intro ds hds
    have heff : effectiveCluster namesakeInventory.datastoreClusters ⟨some ds, none, false⟩ =
        some "DSC-01" := by
      revert ds
      decide
    have hne : ds ≠ "" := by
      rintro rfl
      revert hds
      decide
    exact ⟨_, List.mem_singleton_self _, ⟨rfl, ds, rfl, hne⟩, heff⟩
  have hshares : Shares namesakeInventory.datastoreClusters [⟨some "DS-01", none, false⟩]
      [⟨some "DS-02", none, false⟩] :=
    ⟨.cluster "DSC-01", huse "DS-01" (by decide), huse "DS-02" (by decide)⟩
  obtain ⟨v, hv⟩ := h.exactlyOne ⟨"WEB-01", [⟨some "DS-01", none, false⟩], "Cluster-A"⟩
    ⟨"WEB-02", [⟨some "DS-02", none, false⟩], "Cluster-A"⟩ (by decide) hshares
  rw [hnone] at hv
  cases hv

/-! ## The reported pairs of an inventory with distinct names -/

/-- No two VMs of the inventory have the same name. -/
def DistinctNames (inv : Inventory) : Prop := ((allVmsWithDisks inv).map VmEntry.name).Nodup

instance (inv : Inventory) : Decidable (DistinctNames inv) :=
  inferInstanceAs (Decidable (List.Nodup _))

/-- Some record is about the two names. -/
def Reported (vs : List Violation) (a b : String) : Prop :=
  ∃ v ∈ vs, v.vmA = a ∧ v.vmB = b ∨ v.vmA = b ∧ v.vmB = a

instance (vs : List Violation) (a b : String) : Decidable (Reported vs a b) :=
  inferInstanceAs (Decidable (∃ v ∈ vs, _))

theorem Reported.symm {vs : List Violation} {a b : String} (h : Reported vs a b) :
    Reported vs b a := by
  obtain ⟨v, hv, hab⟩ := h
  exact ⟨v, hv, hab.symm⟩

/-- The resources of the VM with a name. -/
def usesOf (inv : Inventory) (name : String) : Set Resource :=
  {r | ∃ vm ∈ allVmsWithDisks inv, vm.name = name ∧ r ∈ resources (countedPods inv) vm.disks}

/-- **The reported pairs are the conflicts** of the VMs' resources within their groups. -/
theorem reported_iff_conflict (search : Search) (order : SetOrder String) {inv : Inventory}
    (patterns : List Pattern) (h : DistinctNames inv) (a b : String) :
    Reported (violations search order inv patterns) a b ↔
      Conflict (storageGroupKey search patterns) (usesOf inv) a b := by
  have hnodup : ∀ k, ((storageMembers search inv patterns k).map VmEntry.name).Nodup :=
    fun k => (List.filter_sublist.map _).nodup h
  have hconf : ∀ {k va vb}, va ∈ storageMembers search inv patterns k →
      vb ∈ storageMembers search inv patterns k → va.name ≠ vb.name →
      Shares (countedPods inv) va.disks vb.disks →
      Conflict (storageGroupKey search patterns) (usesOf inv) va.name vb.name := by
    intro k va vb ha hb hne hshare
    obtain ⟨hva, hka⟩ := (mem_storageMembers search inv patterns).mp ha
    obtain ⟨hvb, hkb⟩ := (mem_storageMembers search inv patterns).mp hb
    obtain ⟨r, hra, hrb⟩ := hshare
    exact ⟨hne, ⟨k, hka, hkb⟩, r, ⟨va, hva, rfl, hra⟩, ⟨vb, hvb, rfl, hrb⟩⟩
  refine ⟨?_, ?_⟩
  · intro h'
    obtain ⟨v, hv, hab⟩ := h'
    obtain ⟨va, vb, hsub, hrec⟩ :=
      (storage_sound search order inv patterns (hnodup v.group)) v hv rfl
    have hp := mem_pairs_iff.mpr hsub
    have hne : va.name ≠ vb.name := fun heq =>
      ne_of_mem_pairs (hnodup v.group).of_map hp
        (List.inj_on_of_nodup_map (hnodup v.group) (mem_of_mem_pairs hp).1
          (mem_of_mem_pairs hp).2 heq)
    have hc := hconf (mem_of_mem_pairs hp).1 (mem_of_mem_pairs hp).2 hne hrec.shares
    rw [hrec.vmA, hrec.vmB] at hab
    rcases hab with ⟨rfl, rfl⟩ | ⟨rfl, rfl⟩
    · exact hc
    · exact hc.symm
  · intro h'
    obtain ⟨hne, ⟨k, hka, hkb⟩, r, ⟨va, hva, rfl, hra⟩, ⟨vb, hvb, rfl, hrb⟩⟩ := h'
    have ha := (mem_storageMembers search inv patterns).mpr ⟨hva, hka⟩
    have hb := (mem_storageMembers search inv patterns).mpr ⟨hvb, hkb⟩
    have hreport : ∀ {x y}, (x, y) ∈ pairs (storageMembers search inv patterns k) →
        Shares (countedPods inv) x.disks y.disks →
        Reported (violations search order inv patterns) x.name y.name := by
      intro x y hxy hshare
      obtain ⟨v, hv⟩ := storage_complete search order inv patterns (hnodup k) hxy hshare
      exact ⟨v, hv.1, Or.inl hv.2⟩
    rcases pairs_total ha hb (fun heq => hne (congrArg VmEntry.name heq)) with hp | hp
    · exact hreport hp ⟨r, hra, hrb⟩
    · exact (hreport hp ⟨r, hrb, hra⟩).symm

section Records

variable {search : Search} {order : SetOrder String} {inv : Inventory} {patterns : List Pattern}

theorem usesOf_name (hn : DistinctNames inv) {vm : VmEntry} (hvm : vm ∈ allVmsWithDisks inv) :
    usesOf inv vm.name = resources (countedPods inv) vm.disks := by
  ext r
  refine ⟨?_, ?_⟩
  · intro h
    obtain ⟨vm', hvm', hname, hr⟩ := h
    rw [List.inj_on_of_nodup_map hn hvm' hvm hname] at hr
    exact hr
  · intro hr
    exact ⟨vm, hvm, rfl, hr⟩

theorem conflict_of_mem_violations (hn : DistinctNames inv) {v : Violation}
    (hv : v ∈ violations search order inv patterns) :
    Conflict (storageGroupKey search patterns) (usesOf inv) v.vmA v.vmB := by
  rw [← reported_iff_conflict search order patterns hn]
  exact ⟨v, hv, Or.inl ⟨rfl, rfl⟩⟩

/-- The lists of a violation are what its two VMs share. -/
theorem shared_of_mem_violations (hn : DistinctNames inv) {v : Violation}
    (hv : v ∈ violations search order inv patterns) :
    (∀ ds, ds ∈ v.sharedDatastores ↔
        .datastore ds ∈ usesOf inv v.vmA ∧ .datastore ds ∈ usesOf inv v.vmB) ∧
      (∀ pod, pod ∈ v.sharedDatastoreClusters ↔
        .cluster pod ∈ usesOf inv v.vmA ∧ .cluster pod ∈ usesOf inv v.vmB) := by
  have hnodup : ((storageMembers search inv patterns v.group).map VmEntry.name).Nodup :=
    (List.filter_sublist.map _).nodup hn
  obtain ⟨va, vb, hsub, hrec⟩ := storage_sound search order inv patterns hnodup v hv rfl
  have huses : ∀ vm ∈ storageMembers search inv patterns v.group,
      usesOf inv vm.name = resources (countedPods inv) vm.disks := fun vm hvm =>
    usesOf_name hn ((mem_storageMembers search inv patterns).mp hvm).1
  have hp := mem_of_mem_pairs (mem_pairs_iff.mpr hsub)
  rw [hrec.vmA, hrec.vmB, huses va hp.1, huses vb hp.2]
  exact ⟨hrec.datastores, hrec.datastoreClusters⟩

end Records

end VsphereCompliance.Engine
