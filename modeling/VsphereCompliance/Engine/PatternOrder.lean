import VsphereCompliance.Engine.PatternTypes

/-!
# Reading the patterns in another order

The first matching pattern wins, so the order in which the rows are read decides the key of a
name that several patterns match. Two orders give the same DRS plan of a cluster exactly when
the same VMs have company under the same keys (`samePlan_iff`), and the same violating pairs
exactly when the same names that share storage are together (`violatingPairs_perm_iff`);
`order_independent_iff` puts the two together. Patterns that agree on the name of every VM can
be read in any order (`sameAnalysis_of_agree`).
-/

namespace VsphereCompliance.Engine

open OrderedPairs

/-! ## The plan of a cluster -/

/-- The name has the key `k`, and another VM of the cluster has it too. -/
def InCompany (search : Search) (patterns : List Pattern) (c : Cluster) (name : String)
    (k : GroupKey) : Prop :=
  drsGroupKey search patterns name = some k ∧ 2 ≤ (members search patterns c k).length

/-- The two results plan the same groups and the same rules, up to order. -/
def SamePlan (res res' : ClusterResult) : Prop :=
  res.vmGroups.Perm res'.vmGroups ∧ res.rulesToCreate.Perm res'.rulesToCreate

section TwoOrders

variable {search : Search} {ps qs : List Pattern} {c : Cluster}

/-- A group with company under both orders has the same members under both. -/
theorem members_eq_of_inCompany
    (h : ∀ vm ∈ c.vms, ∀ k, InCompany search ps c vm.name k ↔ InCompany search qs c vm.name k)
    {k : GroupKey} (hlen : 2 ≤ (members search ps c k).length) :
    members search ps c k = members search qs c k := by
  have hforward : ∀ vm ∈ c.vms, drsGroupKey search ps vm.name = some k →
      InCompany search qs c vm.name k := fun vm hvm hk => (h vm hvm k).mp ⟨hk, hlen⟩
  have hcompany : 2 ≤ (members search qs c k).length := by
    have hpos : 0 < (members search ps c k).length := by omega
    obtain ⟨name, hname⟩ := List.exists_mem_of_length_pos hpos
    obtain ⟨⟨vm, hvm, rfl⟩, hk⟩ := (mem_members search ps c).mp hname
    exact (hforward vm hvm hk).2
  unfold members
  congr 1
  apply List.filter_congr
  intro vm hvm
  rw [decide_eq_decide]
  constructor
  · intro hk
    exact (hforward vm hvm hk).1
  · intro hk
    exact ((h vm hvm k).mpr ⟨hk, hcompany⟩).1

theorem plannedGroups_perm
    (h : 2 ≤ c.hostCount →
      ∀ vm ∈ c.vms, ∀ k, InCompany search ps c vm.name k ↔ InCompany search qs c vm.name k) :
    (plannedGroups search ps c).Perm (plannedGroups search qs c) := by
  rw [List.perm_ext_iff_of_nodup (nodup_plannedGroups search ps c)
    (nodup_plannedGroups search qs c)]
  intro g
  rw [mem_plannedGroups, mem_plannedGroups]
  constructor
  · rintro ⟨hhosts, hlen, hg⟩
    refine ⟨hhosts, hlen, hg.trans ?_⟩
    exact members_eq_of_inCompany (h hhosts) (hg ▸ hlen)
  · rintro ⟨hhosts, hlen, hg⟩
    refine ⟨hhosts, hlen, hg.trans ?_⟩
    exact members_eq_of_inCompany (fun vm hvm k => (h hhosts vm hvm k).symm) (hg ▸ hlen)

/-- A VM with company under one order has the same company under the other, if both plan the
same groups. -/
theorem inCompany_of_vmGroups_subset (hhosts : 2 ≤ c.hostCount)
    (h : (analyzeCluster search ps c).1.vmGroups ⊆ (analyzeCluster search qs c).1.vmGroups)
    {vm : Vm} (hvm : vm ∈ c.vms) {k : GroupKey} (hk : InCompany search ps c vm.name k) :
    InCompany search qs c vm.name k := by
  have hmem : ⟨k, (members search ps c k).length, members search ps c k⟩ ∈
      (analyzeCluster search ps c).1.vmGroups := by
    rw [vmGroups_analyzeCluster]
    exact List.mem_map.mpr ⟨(k, members search ps c k),
      (mem_plannedGroups search ps c).mpr ⟨hhosts, hk.2, rfl⟩, rfl⟩
  have hmem' := h hmem
  rw [vmGroups_analyzeCluster] at hmem'
  obtain ⟨g, hg, heq⟩ := List.mem_map.mp hmem'
  obtain ⟨_, hlen, hg2⟩ := (mem_plannedGroups search qs c).mp hg
  have hk1 : g.1 = k := congrArg VmGroup.groupKey heq
  have hg1 : g.2 = members search ps c k := congrArg VmGroup.vms heq
  rw [hk1] at hg2
  have hname : vm.name ∈ members search qs c k := by
    rw [← hg2, hg1]
    exact (mem_members search ps c).mpr ⟨⟨vm, hvm, rfl⟩, hk.1⟩
  exact ⟨((mem_members search qs c).mp hname).2, hg2 ▸ hlen⟩

/-- **The same plan**: a cluster of at least two hosts is planned alike exactly when the same
VMs have company, under the same keys. -/
theorem samePlan_iff :
    SamePlan (analyzeCluster search ps c).1 (analyzeCluster search qs c).1 ↔
      (2 ≤ c.hostCount → ∀ vm ∈ c.vms, ∀ k,
        InCompany search ps c vm.name k ↔ InCompany search qs c vm.name k) := by
  constructor
  · rintro ⟨hgroups, _⟩ hhosts vm hvm k
    exact ⟨inCompany_of_vmGroups_subset hhosts hgroups.subset hvm,
      inCompany_of_vmGroups_subset hhosts hgroups.symm.subset hvm⟩
  · intro h
    have hperm := plannedGroups_perm h
    refine ⟨?_, ?_⟩
    · rw [vmGroups_analyzeCluster, vmGroups_analyzeCluster]
      exact hperm.map _
    · rw [rulesToCreate_eq_flatMap_plannedGroups, rulesToCreate_eq_flatMap_plannedGroups]
      exact hperm.flatMap_right _

end TwoOrders

/-! ## The violating pairs -/

/-- The two names of every violation. -/
def violatingPairs (vs : List Violation) : List (String × String) :=
  vs.map fun v => (v.vmA, v.vmB)

/-- The disks with which the storage analysis knows a name: those of the last VM that has
it. -/
def disksByName (inv : Inventory) : OrderedDict String (List Disk) :=
  OrderedDict.ofList ((allVmsWithDisks inv).map fun vm => (vm.name, vm.disks))

/-- The storage analysis puts the two names in one group. -/
def Together (search : Search) (patterns : List Pattern) (a b : String) : Prop :=
  ∃ k, storageGroupKey search patterns a = some k ∧ storageGroupKey search patterns b = some k

theorem Together.symm {search : Search} {patterns : List Pattern} {a b : String}
    (h : Together search patterns a b) : Together search patterns b a := by
  obtain ⟨k, ha, hb⟩ := h
  exact ⟨k, hb, ha⟩

section Pairs

variable (search : Search) (order : SetOrder String) (inv : Inventory) (patterns : List Pattern)

/-- `vm_storage` of a group holds the names of the group in the order of all names. -/
theorem entries_vmStorage_storageMembers (k : GroupKey) :
    (vmStorage (dsToPod inv) (storageMembers search inv patterns k)).entries =
      ((disksByName inv).entries.filter fun e => storageGroupKey search patterns e.1 = some k).map
        fun e => (e.1, footprint (dsToPod inv) e.2) := by
  have hlist : (storageMembers search inv patterns k).map
        (fun vm => (vm.name, footprint (dsToPod inv) vm.disks)) =
      (((allVmsWithDisks inv).map fun vm => (vm.name, vm.disks)).filter
        fun e => decide (storageGroupKey search patterns e.1 = some k)).map
          fun e => (e.1, footprint (dsToPod inv) e.2) := by
    rw [List.filter_map, List.map_map]
    rfl
  rw [vmStorage, hlist, OrderedDict.ofList_mapValues]
  show ((OrderedDict.ofList _).entries).map _ = _
  rw [OrderedDict.entries_ofList_filter
    (fun name => decide (storageGroupKey search patterns name = some k))]
  rfl

theorem groupViolations_eq (toPod : OrderedDict String String) (g : GroupKey × List VmEntry) :
    groupViolations order toPod g =
      (pairs (vmStorage toPod g.2).entries).filterMap (violationOf order g.1) := by
  unfold groupViolations
  split
  · rename_i hlen
    rcases hg : g.2 with _ | ⟨vm, _ | ⟨vm', rest⟩⟩
    · rfl
    · rfl
    · rw [hg] at hlen
      simp only [List.length_cons] at hlen
      omega
  · rfl

theorem violationOf_eq_some {order : SetOrder String} {k : GroupKey}
    {p : (String × Footprint) × (String × Footprint)} {v : Violation}
    (h : violationOf order k p = some v) :
    (v.vmA, v.vmB) = (p.1.1, p.2.1) ∧
      (p.1.2.datastores ∩ p.2.2.datastores ≠ ∅ ∨ p.1.2.pods ∩ p.2.2.pods ≠ ∅) := by
  unfold violationOf at h
  dsimp only at h
  split at h
  · rename_i hmeet
    cases h
    exact ⟨rfl, hmeet⟩
  · cases h

theorem exists_violationOf (order : SetOrder String) (k : GroupKey)
    {p : (String × Footprint) × (String × Footprint)}
    (h : p.1.2.datastores ∩ p.2.2.datastores ≠ ∅ ∨ p.1.2.pods ∩ p.2.2.pods ≠ ∅) :
    ∃ v, violationOf order k p = some v := by
  unfold violationOf
  dsimp only
  rw [if_pos h]
  exact ⟨_, rfl⟩

/-- The pairs of a group are pairs of its names, in their order. -/
theorem violatingPairs_sublist (toPod : OrderedDict String String)
    (g : GroupKey × List VmEntry) :
    (violatingPairs (groupViolations order toPod g)).Sublist
      (pairs (vmStorage toPod g.2).keys) := by
  rw [groupViolations_eq, violatingPairs, OrderedDict.keys, pairs_map]
  induction pairs (vmStorage toPod g.2).entries with
  | nil => exact List.Sublist.refl _
  | cons p ps ih =>
    cases hv : violationOf order g.1 p with
    | none =>
      rw [List.filterMap_cons_none hv]
      exact ih.cons _
    | some v =>
      rw [List.filterMap_cons_some hv, List.map_cons, (violationOf_eq_some hv).1]
      exact ih.cons_cons _

/-- **The violations** are those of the pairs of names that are together, in the order of all
names, with the disks of the last VM that has the name. -/
theorem mem_violations_iff {v : Violation} :
    v ∈ violations search order inv patterns ↔
      storageGroupKey search patterns v.vmA = some v.group ∧
        storageGroupKey search patterns v.vmB = some v.group ∧ ∃ disks disks',
          ((v.vmA, disks), (v.vmB, disks')) ∈ pairs (disksByName inv).entries ∧
            violationOf order v.group ((v.vmA, footprint (dsToPod inv) disks),
              (v.vmB, footprint (dsToPod inv) disks')) = some v := by
  have hgroup : v ∈ violations search order inv patterns ↔
      v ∈ (violations search order inv patterns).filter fun w => w.group = v.group := by
    simp
  rw [hgroup, filter_violations, groupViolations_eq, entries_vmStorage_storageMembers, pairs_map,
    List.filterMap_map, List.mem_filterMap]
  constructor
  · rintro ⟨⟨⟨a, disks⟩, ⟨b, disks'⟩⟩, hp, hv⟩
    obtain ⟨rfl, rfl⟩ := Prod.mk.inj (violationOf_eq_some hv).1
    obtain ⟨ha, hb⟩ := mem_of_mem_pairs hp
    refine ⟨by simpa using (List.mem_filter.mp ha).2, by simpa using (List.mem_filter.mp hb).2,
      disks, disks', ?_, hv⟩
    exact mem_pairs_iff.mpr ((mem_pairs_iff.mp hp).trans List.filter_sublist)
  · rintro ⟨ha, hb, disks, disks', hp, hv⟩
    have hsub := (mem_pairs_iff.mp hp).filter
      fun e => decide (storageGroupKey search patterns e.1 = some v.group)
    rw [List.filter_cons_of_pos (by simpa using ha), List.filter_cons_of_pos (by simpa using hb),
      List.filter_nil] at hsub
    exact ⟨_, mem_pairs_iff.mpr hsub, hv⟩

/-- **The violating pairs** are the names that are together and share storage, each pair once
and in the order of all names. -/
theorem mem_violatingPairs {a b : String} :
    (a, b) ∈ violatingPairs (violations search order inv patterns) ↔
      Together search patterns a b ∧ ∃ disks disks',
        ((a, disks), (b, disks')) ∈ pairs (disksByName inv).entries ∧
          Shares (countedPods inv) disks disks' := by
  constructor
  · intro hmem
    obtain ⟨v, hv, hab⟩ := List.mem_map.mp hmem
    obtain ⟨ha, hb, disks, disks', hp, hviolation⟩ :=
      (mem_violations_iff search order inv patterns).mp hv
    obtain ⟨rfl, rfl⟩ := Prod.mk.inj hab
    exact ⟨⟨v.group, ha, hb⟩, disks, disks', hp,
      footprints_meet_iff.mp (violationOf_eq_some hviolation).2⟩
  · rintro ⟨⟨k, ha, hb⟩, disks, disks', hp, hshares⟩
    obtain ⟨v, hv⟩ := exists_violationOf order k
      (p := ((a, footprint (dsToPod inv) disks), (b, footprint (dsToPod inv) disks')))
      (footprints_meet_iff.mpr hshares)
    obtain rfl := group_of_violationOf order hv
    obtain ⟨rfl, rfl⟩ := Prod.mk.inj (violationOf_eq_some hv).1
    exact List.mem_map.mpr ⟨v, (mem_violations_iff search order inv patterns).mpr
      ⟨ha, hb, disks, disks', hp, hv⟩, rfl⟩

/-- No pair is reported twice. -/
theorem nodup_violatingPairs :
    (violatingPairs (violations search order inv patterns)).Nodup := by
  rw [violatingPairs, violations, List.map_flatMap, List.nodup_flatMap]
  refine ⟨?_, ?_⟩
  · intro g _
    exact (pairs_nodup (vmStorage (dsToPod inv) g.2).nodup).sublist
      (violatingPairs_sublist order (dsToPod inv) g)
  · have hkeys := List.pairwise_map.mp (storageGroups search patterns inv).nodup
    refine hkeys.imp_of_mem ?_
    rintro g g' hg hg' hne ⟨a, b⟩ hab hab'
    apply hne
    -- the first name of a pair has the key of the pair's group
    have hkey : ∀ g ∈ (storageGroups search patterns inv).entries,
        (a, b) ∈ violatingPairs (groupViolations order (dsToPod inv) g) →
          storageGroupKey search patterns a = some g.1 := by
      intro g hg hmem
      have ha := (mem_of_mem_pairs ((violatingPairs_sublist order (dsToPod inv) g).subset hmem)).1
      rw [((mem_storageGroups search inv patterns).mp hg).2, OrderedDict.keys,
        entries_vmStorage_storageMembers, List.map_map] at ha
      obtain ⟨e, he, rfl⟩ := List.mem_map.mp ha
      simpa using (List.mem_filter.mp he).2
    exact Option.some.inj ((hkey g hg hab).symm.trans (hkey g' hg' hab'))

end Pairs

/-- **The same violating pairs**: two orders report the same pairs exactly when the same
names that share storage are together. -/
theorem violatingPairs_perm_iff (search : Search) (order order' : SetOrder String)
    (inv : Inventory) (ps qs : List Pattern) :
    (violatingPairs (violations search order inv ps)).Perm
        (violatingPairs (violations search order' inv qs)) ↔
      ∀ a disks b disks', (disksByName inv).get? a = some disks →
        (disksByName inv).get? b = some disks' → a ≠ b → Shares (countedPods inv) disks disks' →
          (Together search ps a b ↔ Together search qs a b) := by
  rw [List.perm_ext_iff_of_nodup (nodup_violatingPairs search order inv ps)
    (nodup_violatingPairs search order' inv qs)]
  constructor
  · intro h a disks b disks' ha hb hne hshares
    rcases pairs_total (OrderedDict.get?_eq_some_iff.mp ha) (OrderedDict.get?_eq_some_iff.mp hb)
        (fun heq => hne (congrArg Prod.fst heq)) with hp | hp
    · have hab := h (a, b)
      rw [mem_violatingPairs, mem_violatingPairs] at hab
      exact ⟨fun hps => (hab.mp ⟨hps, disks, disks', hp, hshares⟩).1,
        fun hqs => (hab.mpr ⟨hqs, disks, disks', hp, hshares⟩).1⟩
    · have hba := h (b, a)
      rw [mem_violatingPairs, mem_violatingPairs] at hba
      exact ⟨fun hps => (hba.mp ⟨hps.symm, disks', disks, hp, hshares.symm⟩).1.symm,
        fun hqs => (hba.mpr ⟨hqs.symm, disks', disks, hp, hshares.symm⟩).1.symm⟩
  · rintro h ⟨a, b⟩
    rw [mem_violatingPairs, mem_violatingPairs]
    apply and_congr_left
    rintro ⟨disks, disks', hp, hshares⟩
    obtain ⟨ha, hb⟩ := mem_of_mem_pairs hp
    have hne : a ≠ b := by
      have hnames : (a, b) ∈ pairs ((disksByName inv).entries.map Prod.fst) := by
        rw [pairs_map]
        exact List.mem_map.mpr ⟨_, hp, rfl⟩
      exact ne_of_mem_pairs (disksByName inv).nodup hnames
    exact h a disks b disks' (OrderedDict.get?_eq_some_iff.mpr ha)
      (OrderedDict.get?_eq_some_iff.mpr hb) hne hshares

/-! ## The two analyses under two orders -/

/-- The analyses with the patterns `ps` and `qs` plan the same groups and rules in every
cluster and report the same violating pairs, up to order. -/
def SameAnalysis (search : Search) (order order' : SetOrder String) (inv : Inventory)
    (ps qs : List Pattern) : Prop :=
  List.Forall₂ SamePlan (analyzeDrsCompliance search inv ps).clusters
      (analyzeDrsCompliance search inv qs).clusters ∧
    (violatingPairs (analyzeStorageCompliance search order inv ps).violations).Perm
      (violatingPairs (analyzeStorageCompliance search order' inv qs).violations)

/-- In clusters of at least two hosts the same VMs have company under the same keys, and the
same names that share storage are together. -/
structure SameCompany (search : Search) (inv : Inventory) (ps qs : List Pattern) : Prop where
  drs : ∀ c ∈ inv.clusters, 2 ≤ c.hostCount → ∀ vm ∈ c.vms, ∀ k,
    InCompany search ps c vm.name k ↔ InCompany search qs c vm.name k
  storage : ∀ a disks b disks', (disksByName inv).get? a = some disks →
    (disksByName inv).get? b = some disks' → a ≠ b → Shares (countedPods inv) disks disks' →
      (Together search ps a b ↔ Together search qs a b)

theorem forall₂_samePlan_iff (search : Search) (inv : Inventory) (ps qs : List Pattern) :
    List.Forall₂ SamePlan (analyzeDrsCompliance search inv ps).clusters
        (analyzeDrsCompliance search inv qs).clusters ↔
      ∀ c ∈ inv.clusters, 2 ≤ c.hostCount → ∀ vm ∈ c.vms, ∀ k,
        InCompany search ps c vm.name k ↔ InCompany search qs c vm.name k := by
  rw [clusters_analyzeDrsCompliance, clusters_analyzeDrsCompliance, List.forall₂_map_left_iff,
    List.forall₂_map_right_iff, List.forall₂_same]
  exact forall₂_congr fun c _ => samePlan_iff

/-- **Two orders of the same patterns** give the same analyses exactly when they keep the same
VMs in company. -/
theorem order_independent_iff (search : Search) (order order' : SetOrder String)
    (inv : Inventory) (patterns : List Pattern) :
    ∀ reordered, reordered.Perm patterns →
      (SameAnalysis search order order' inv patterns reordered ↔
        SameCompany search inv patterns reordered) := by
  intro reordered _
  have hdrs := forall₂_samePlan_iff search inv patterns reordered
  have hstorage := violatingPairs_perm_iff search order order' inv patterns reordered
  constructor
  · rintro ⟨hplan, hpairs⟩
    exact ⟨hdrs.mp hplan, hstorage.mp hpairs⟩
  · intro h
    exact ⟨hdrs.mpr h.drs, hstorage.mpr h.storage⟩

/-- Two patterns for the web servers, the narrower one first. -/
def narrowFirst : List Pattern := [⟨.vmName, "^(WEB-PROD)-"⟩, webPattern]

/-- The same patterns, the wider one first. -/
def wideFirst : List Pattern := [webPattern, ⟨.vmName, "^(WEB-PROD)-"⟩]

theorem order_independent_iff_web :
    wideFirst.Perm narrowFirst ∧
      (SameAnalysis prefixSearch (SetOrder.sorted String) (SetOrder.sorted String)
          ⟨[webCluster], [], []⟩ narrowFirst wideFirst ↔
        SameCompany prefixSearch ⟨[webCluster], [], []⟩ narrowFirst wideFirst) :=
  ⟨by decide, order_independent_iff prefixSearch (SetOrder.sorted String) (SetOrder.sorted String)
    ⟨[webCluster], [], []⟩ narrowFirst wideFirst (by decide)⟩

/-- With the narrower pattern first both VMs are alone and nothing is planned, with the wider
one first they are a group and get a rule. -/
theorem order_decides_plan :
    ¬ ∀ (search : Search) (order order' : SetOrder String) (inv : Inventory)
      (patterns reordered : List Pattern), reordered.Perm patterns →
        SameAnalysis search order order' inv patterns reordered := by
  intro hall
  have h := (hall prefixSearch (SetOrder.sorted String) (SetOrder.sorted String)
    ⟨[webCluster], [], []⟩ narrowFirst wideFirst (by decide)).1
  rw [clusters_analyzeDrsCompliance, clusters_analyzeDrsCompliance] at h
  have hlen := (List.forall₂_cons.mp h).1.1.length_eq
  exact absurd hlen (by decide)

/-! ## Patterns that agree -/

/-- Patterns that match a name give it the same key. -/
def Agree (search : Search) (patterns : List Pattern) (name : String) : Prop :=
  ∀ p ∈ patterns, ∀ q ∈ patterns, ∀ m m', search p.regexPattern name = .found m →
    search q.regexPattern name = .found m' → drsKey m = drsKey m'

section Agree

variable {search : Search} {ps qs : List Pattern} {name : String}

theorem Agree.subset (h : Agree search ps name) (hsub : qs ⊆ ps) : Agree search qs name :=
  fun p hp q hq => h p (hsub hp) q (hsub hq)

theorem firstMatch_perm (hperm : ps.Perm qs) (hagree : Agree search ps name) :
    firstMatch search drsKey ps name = firstMatch search drsKey qs name := by
  have hsome : (firstMatch search drsKey ps name).isSome =
      (firstMatch search drsKey qs name).isSome := by
    rw [isSome_firstMatch, isSome_firstMatch, hperm.any_eq]
  cases hps : firstMatch search drsKey ps name with
  | none =>
    rw [hps] at hsome
    exact (Option.not_isSome_iff_eq_none.mp (by simp [← hsome])).symm
  | some k =>
    rw [hps] at hsome
    obtain ⟨k', hqs⟩ := Option.isSome_iff_exists.mp hsome.symm
    obtain ⟨m, ⟨_, p, _, rfl, _, hm⟩, rfl⟩ := (firstMatch_eq_some_iff _ _ _ _ _).mp hps
    obtain ⟨m', ⟨_, q, _, rfl, _, hm'⟩, rfl⟩ := (firstMatch_eq_some_iff _ _ _ _ _).mp hqs
    rw [hqs, hagree p (by simp) q (hperm.mem_iff.mpr (by simp)) m m' hm hm']

theorem vmPatterns_subset_dsPatterns (patterns : List Pattern) :
    vmPatterns patterns ⊆ dsPatterns patterns := by
  intro p hp
  obtain ⟨hmem, htype⟩ := List.mem_filter.mp hp
  exact List.mem_filter.mpr ⟨hmem, by simpa using Or.inr (of_decide_eq_true htype)⟩

theorem drsGroupKey_perm (hperm : ps.Perm qs) (hagree : Agree search (dsPatterns ps) name) :
    drsGroupKey search ps name = drsGroupKey search qs name :=
  firstMatch_perm (hperm.filter _) (hagree.subset (vmPatterns_subset_dsPatterns ps))

theorem storageGroupKey_perm (hperm : ps.Perm qs) (hagree : Agree search (dsPatterns ps) name) :
    storageGroupKey search ps name = storageGroupKey search qs name := by
  have hkey : storageKey = drsKey := funext storageKey_eq_drsKey
  rw [storageGroupKey, storageGroupKey, hkey]
  exact firstMatch_perm (hperm.filter _) hagree

theorem inCompany_congr {c : Cluster}
    (h : ∀ vm ∈ c.vms, drsGroupKey search ps vm.name = drsGroupKey search qs vm.name)
    {vm : Vm} (hvm : vm ∈ c.vms) (k : GroupKey) :
    InCompany search ps c vm.name k ↔ InCompany search qs c vm.name k := by
  have hmembers : members search ps c k = members search qs c k := by
    unfold members
    congr 1
    apply List.filter_congr
    intro vm hvm
    rw [h vm hvm]
  rw [InCompany, InCompany, h vm hvm, hmembers]

/-- **Patterns that agree** on the name of every VM can be read in any order. -/
theorem sameAnalysis_of_agree (order order' : SetOrder String) {inv : Inventory}
    (hperm : ps.Perm qs)
    (hagree : ∀ c ∈ inv.clusters, ∀ vm ∈ c.vms, Agree search (dsPatterns ps) vm.name) :
    SameAnalysis search order order' inv ps qs := by
  refine ⟨(forall₂_samePlan_iff search inv ps qs).mpr ?_,
    (violatingPairs_perm_iff search order order' inv ps qs).mpr ?_⟩
  · intro c hc _ vm hvm k
    exact inCompany_congr (fun vm hvm => drsGroupKey_perm hperm (hagree c hc vm hvm)) hvm k
  · intro a disks b disks' ha hb _ _
    have hname : ∀ {name : String} {disks : List Disk},
        (disksByName inv).get? name = some disks →
          storageGroupKey search ps name = storageGroupKey search qs name := by
      intro name disks hget
      obtain ⟨entry, hentry, heq⟩ := List.mem_map.mp (OrderedDict.get?_ofList_mem hget)
      obtain ⟨c, hc, hentry⟩ := List.mem_flatMap.mp hentry
      obtain ⟨vm, hvm, rfl⟩ := List.mem_map.mp hentry
      obtain ⟨rfl, _⟩ := Prod.mk.inj heq
      exact storageGroupKey_perm hperm (hagree c hc vm hvm)
    rw [Together, Together, hname ha, hname hb]

end Agree

end VsphereCompliance.Engine
