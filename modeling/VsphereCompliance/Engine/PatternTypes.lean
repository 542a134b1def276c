import VsphereCompliance.Engine.DrsPlan
import VsphereCompliance.Engine.Violations

/-!
# The two selections of patterns

The DRS analysis tries the `vm_name` patterns on a VM's name, the storage analysis the
`vm_name` and the `datastore` patterns in one list. A VM with a DRS key has the same key in
the storage analysis exactly when no `datastore` pattern that comes first in that list
catches its name under another key (`storage_group_iff`).
-/

namespace VsphereCompliance.Engine

/-! ## Membership in a group -/

/-- `analyze_drs_compliance` puts the VM in the group with key `k` of the cluster. -/
def InDrsGroup (search : Search) (patterns : List Pattern) (c : Cluster) (vm : Vm)
    (k : GroupKey) : Prop :=
  ∃ g, (k, g) ∈ (clusterGroups search patterns c).entries ∧ vm.name ∈ g

/-- `analyze_storage_compliance` puts the VM of the cluster in the group with key `k`. -/
def InStorageGroup (search : Search) (patterns : List Pattern) (inv : Inventory) (c : Cluster)
    (vm : Vm) (k : GroupKey) : Prop :=
  ∃ g, (k, g) ∈ (storageGroups search patterns inv).entries ∧
    (⟨vm.name, vm.disks, c.name⟩ : VmEntry) ∈ g

theorem inDrsGroup_iff {search : Search} {patterns : List Pattern} {c : Cluster} {vm : Vm}
    (hvm : vm ∈ c.vms) {k : GroupKey} :
    InDrsGroup search patterns c vm k ↔ drsGroupKey search patterns vm.name = some k := by
  constructor
  · rintro ⟨g, hg, hname⟩
    obtain ⟨_, rfl⟩ := (mem_clusterGroups search patterns c).mp hg
    exact ((mem_members search patterns c).mp hname).2
  · intro hk
    have hname : vm.name ∈ members search patterns c k :=
      (mem_members search patterns c).mpr ⟨⟨vm, hvm, rfl⟩, hk⟩
    have hne : members search patterns c k ≠ [] := List.ne_nil_of_mem hname
    exact ⟨_, (mem_clusterGroups search patterns c).mpr ⟨hne, rfl⟩, hname⟩

theorem mem_allVmsWithDisks {inv : Inventory} {c : Cluster} (hc : c ∈ inv.clusters) {vm : Vm}
    (hvm : vm ∈ c.vms) : ⟨vm.name, vm.disks, c.name⟩ ∈ allVmsWithDisks inv :=
  List.mem_flatMap.mpr ⟨c, hc, List.mem_map.mpr ⟨vm, hvm, rfl⟩⟩

theorem inStorageGroup_iff {search : Search} {patterns : List Pattern} {inv : Inventory}
    {c : Cluster} (hc : c ∈ inv.clusters) {vm : Vm} (hvm : vm ∈ c.vms) {k : GroupKey} :
    InStorageGroup search patterns inv c vm k ↔
      storageGroupKey search patterns vm.name = some k := by
  constructor
  · rintro ⟨g, hg, hentry⟩
    obtain ⟨_, hg⟩ := (mem_storageGroups search inv patterns).mp hg
    dsimp only at hg
    rw [hg] at hentry
    exact ((mem_storageMembers search inv patterns).mp hentry).2
  · intro hk
    have hentry := (mem_storageMembers search inv patterns (k := k)).mpr
      ⟨mem_allVmsWithDisks hc hvm, hk⟩
    exact ⟨_, (mem_storageGroups search inv patterns (g := (k, _))).mpr
      ⟨List.ne_nil_of_mem hentry, rfl⟩, hentry⟩

/-! ## A name caught by a datastore pattern -/

/-- The storage analysis tries the pattern. -/
def Pattern.Tried (p : Pattern) : Prop := p.patternType = .datastore ∨ p.patternType = .vmName

instance (p : Pattern) : Decidable p.Tried := inferInstanceAs (Decidable (_ ∨ _))

/-- A `datastore` pattern matches the name and gives it another key than `k`, and no pattern
that the storage analysis tries before it matches the name. -/
def CaughtElsewhere (search : Search) (patterns : List Pattern) (name : String)
    (k : GroupKey) : Prop :=
  ∃ before p after m, patterns = before ++ p :: after ∧ p.patternType = .datastore ∧
    (∀ q ∈ before, q.Tried → ∀ m', search q.regexPattern name ≠ .found m') ∧
    search p.regexPattern name = .found m ∧ storageKey m ≠ k

variable {search : Search} {p : Pattern} {patterns : List Pattern} {name : String}
  {k : GroupKey}

theorem caughtElsewhere_cons_iff :
    CaughtElsewhere search (p :: patterns) name k ↔
      (p.patternType = .datastore ∧ ∃ m, search p.regexPattern name = .found m ∧
        storageKey m ≠ k) ∨
      ((p.Tried → ∀ m, search p.regexPattern name ≠ .found m) ∧
        CaughtElsewhere search patterns name k) := by
  constructor
  · rintro ⟨before, q, after, m, heq, htype, hbefore, hm, hk⟩
    cases before with
    | nil =>
      obtain ⟨rfl, rfl⟩ := List.cons.inj heq
      exact Or.inl ⟨htype, m, hm, hk⟩
    | cons r before =>
      obtain ⟨rfl, rfl⟩ := List.cons.inj heq
      refine Or.inr ⟨hbefore _ List.mem_cons_self, before, q, after, m, rfl, htype, ?_, hm, hk⟩
      intro r hr
      exact hbefore r (List.mem_cons_of_mem _ hr)
  · rintro (⟨htype, m, hm, hk⟩ | ⟨hp, before, q, after, m, rfl, htype, hbefore, hm, hk⟩)
    · exact ⟨[], p, patterns, m, rfl, htype, by simp, hm, hk⟩
    · refine ⟨p :: before, q, after, m, rfl, htype, ?_, hm, hk⟩
      intro r hr
      rcases List.mem_cons.mp hr with rfl | hr
      · exact hp
      · exact hbefore r hr

/-! ## One pattern more -/

theorem firstMatch_cons (search : Search) (key : Match → GroupKey) (p : Pattern)
    (ps : List Pattern) (name : String) :
    firstMatch search key (p :: ps) name =
      match search p.regexPattern name with
      | .found m => some (key m)
      | .noMatch => firstMatch search key ps name
      | .error => firstMatch search key ps name := rfl

theorem drsGroupKey_cons :
    drsGroupKey search (p :: patterns) name =
      if p.patternType = .vmName then
        match search p.regexPattern name with
        | .found m => some (drsKey m)
        | .noMatch => drsGroupKey search patterns name
        | .error => drsGroupKey search patterns name
      else drsGroupKey search patterns name := by
  unfold drsGroupKey vmPatterns
  by_cases htype : p.patternType = .vmName
  · rw [List.filter_cons_of_pos (by simpa using htype), if_pos htype]
    exact firstMatch_cons search drsKey p (patterns.filter (·.patternType = .vmName)) name
  · rw [List.filter_cons_of_neg (by simpa using htype), if_neg htype]

theorem storageGroupKey_cons :
    storageGroupKey search (p :: patterns) name =
      if p.Tried then
        match search p.regexPattern name with
        | .found m => some (storageKey m)
        | .noMatch => storageGroupKey search patterns name
        | .error => storageGroupKey search patterns name
      else storageGroupKey search patterns name := by
  unfold storageGroupKey dsPatterns
  by_cases htype : p.Tried
  · rw [List.filter_cons_of_pos (by simpa [Pattern.Tried] using htype), if_pos htype]
    exact firstMatch_cons search storageKey p _ name
  · rw [List.filter_cons_of_neg (by simpa [Pattern.Tried] using htype), if_neg htype]

theorem drsGroupKey_of_not_found (h : ∀ m, search p.regexPattern name ≠ .found m) :
    drsGroupKey search (p :: patterns) name = drsGroupKey search patterns name := by
  rw [drsGroupKey_cons]
  cases hs : search p.regexPattern name with
  | found m => exact absurd hs (h m)
  | noMatch => exact ite_self _
  | error => exact ite_self _

theorem storageGroupKey_of_not_found (h : ∀ m, search p.regexPattern name ≠ .found m) :
    storageGroupKey search (p :: patterns) name = storageGroupKey search patterns name := by
  rw [storageGroupKey_cons]
  cases hs : search p.regexPattern name with
  | found m => exact absurd hs (h m)
  | noMatch => exact ite_self _
  | error => exact ite_self _

theorem storageGroupKey_of_found (hp : p.Tried) {m : Match}
    (hm : search p.regexPattern name = .found m) :
    storageGroupKey search (p :: patterns) name = some (storageKey m) := by
  rw [storageGroupKey_cons, if_pos hp, hm]

/-- A VM with a DRS key has the same storage key unless a `datastore` pattern catches it. -/
theorem storageGroupKey_eq_iff (h : drsGroupKey search patterns name = some k) :
    storageGroupKey search patterns name = some k ↔
      ¬ CaughtElsewhere search patterns name k := by
  induction patterns with
  | nil =>
    rw [drsGroupKey, vmPatterns, List.filter_nil, firstMatch] at h
    cases h
  | cons p patterns ih =>
    rw [caughtElsewhere_cons_iff]
    by_cases hfound : ∃ m, search p.regexPattern name = .found m
    · obtain ⟨m, hm⟩ := hfound
      have hunique : (∃ m', search p.regexPattern name = .found m' ∧ storageKey m' ≠ k) ↔
          storageKey m ≠ k := by
        simp [hm]
      by_cases hp : p.Tried
      · -- the storage analysis stops here; the DRS analysis does so for a `vm_name` pattern
        have hstop : ¬ (p.Tried → ∀ m', search p.regexPattern name ≠ .found m') :=
          fun hnone => hnone hp m hm
        rw [storageGroupKey_of_found hp hm, hunique, Option.some.injEq]
        rcases hp with htype | htype
        · simp [htype, hstop]
        · rw [drsGroupKey_cons, if_pos htype, hm] at h
          rw [storageKey_eq_drsKey, Option.some.inj h]
          simp [htype, hstop]
      · have hvm : ¬ p.patternType = .vmName := fun htype => hp (Or.inr htype)
        have hds : ¬ p.patternType = .datastore := fun htype => hp (Or.inl htype)
        rw [drsGroupKey_cons, if_neg hvm] at h
        rw [storageGroupKey_cons, if_neg hp, ih h]
        simp [hds, hp]
    · have hnone : ∀ m, search p.regexPattern name ≠ .found m := fun m hm => hfound ⟨m, hm⟩
      rw [drsGroupKey_of_not_found hnone] at h
      rw [storageGroupKey_of_not_found hnone, ih h]
      simp [hnone]

/-- **The two analyses group alike** exactly the VMs that no earlier `datastore` pattern
catches under another key. -/
theorem storage_group_iff (search : Search) (inv : Inventory) (patterns : List Pattern) :
    ∀ c ∈ inv.clusters, ∀ vm ∈ c.vms, ∀ k, InDrsGroup search patterns c vm k →
      (InStorageGroup search patterns inv c vm k ↔
        ¬ CaughtElsewhere search patterns vm.name k) := by
  intro c hc vm hvm k hk
  rw [inStorageGroup_iff hc hvm]
  exact storageGroupKey_eq_iff ((inDrsGroup_iff hvm).mp hk)

/-- Two web servers, the second in production. -/
def webCluster : Cluster := ⟨"Cluster-A", 4, [⟨"WEB-01", []⟩, ⟨"WEB-PROD-01", []⟩], []⟩

/-- A pattern for the datastores `WEB-PROD-…` before the pattern for the web servers. -/
def mixedPatterns : List Pattern := [⟨.datastore, "^(WEB-PROD)-"⟩, webPattern]

theorem storage_group_iff_web :
    InDrsGroup prefixSearch mixedPatterns webCluster ⟨"WEB-01", []⟩ (some "WEB") ∧
      (InStorageGroup prefixSearch mixedPatterns ⟨[webCluster], [], []⟩ webCluster
          ⟨"WEB-01", []⟩ (some "WEB") ↔
        ¬ CaughtElsewhere prefixSearch mixedPatterns "WEB-01" (some "WEB")) := by
  have hdrs : InDrsGroup prefixSearch mixedPatterns webCluster ⟨"WEB-01", []⟩ (some "WEB") :=
    (inDrsGroup_iff (by decide)).mpr (by decide)
  exact ⟨hdrs, storage_group_iff prefixSearch ⟨[webCluster], [], []⟩ mixedPatterns webCluster
    (by decide) ⟨"WEB-01", []⟩ (by decide) (some "WEB") hdrs⟩

/-- The pattern for datastores matches the VM name `WEB-PROD-01`: the DRS analysis puts the
VM in the group `WEB`, the storage analysis in the group `WEB-PROD`. -/
theorem datastore_pattern_regroups :
    ¬ ∀ (search : Search) (inv : Inventory) (patterns : List Pattern), ∀ c ∈ inv.clusters,
      ∀ vm ∈ c.vms, ∀ k, InDrsGroup search patterns c vm k →
        InStorageGroup search patterns inv c vm k := by
  intro hall
  have hc : webCluster ∈ (⟨[webCluster], [], []⟩ : Inventory).clusters := by decide
  have hvm : (⟨"WEB-PROD-01", []⟩ : Vm) ∈ webCluster.vms := by decide
  have hdrs : InDrsGroup prefixSearch mixedPatterns webCluster ⟨"WEB-PROD-01", []⟩ (some "WEB") :=
    (inDrsGroup_iff hvm).mpr (by decide)
  have hkey := (inStorageGroup_iff hc hvm).mp (hall _ _ _ _ hc _ hvm _ hdrs)
  exact absurd hkey (by decide)

end VsphereCompliance.Engine
