import VsphereCompliance.Analysis.Run
import VsphereCompliance.Engine.DrsPlan
import VsphereCompliance.Engine.Violations

/-!
# When the rows of a run fit into their columns

A finding row holds the joined names of a batch of VMs, of a pair of VMs or of the storage
that VMs use. `RowsFit` says of an inventory that these texts stay within the columns, and
`fits_generateFindings_iff` that this is when PostgreSQL accepts all findings of a run.
-/

namespace VsphereCompliance.Analysis

open Engine Store OrderedPairs Batches

/-! ## One row of each kind -/

section Rows

variable (runId : Nat)

@[simp] theorem fitsColumn_some {n : Nat} {s : String} :
    FitsColumn n (some s) ↔ s.length ≤ n := by
  unfold FitsColumn
  rw [Option.all_some, decide_eq_true_eq]

@[simp] theorem fitsColumn_none (n : Nat) : FitsColumn n none := rfl

theorem fits_findingType (t : FindingType) : FitsColumn 100 (some t.text) := by
  cases t with
  | drsSkip => decide
  | drsRuleNeeded => decide
  | storageShared => decide
  | storageScattered => decide

theorem fits_severity (s : Severity) : FitsColumn 20 (some s.text) := by
  cases s with
  | info => decide
  | warning => decide
  | critical => decide

/-- The type and the severity of a finding always fit. -/
theorem fitsColumns_iff (f : NewFinding) : FitsColumns f ↔ FitsColumn 500 f.clusterName ∧
    f.vmName.length ≤ 500 ∧ FitsColumn 500 f.datastoreName := by
  rw [← fitsColumn_some]
  exact ⟨fun h => ⟨h.clusterName, h.vmName, h.datastoreName⟩, fun ⟨h1, h2, h3⟩ =>
    ⟨fits_findingType _, fits_severity _, h1, h2, h3⟩⟩

/-- The names of a cluster and of a list of its VMs fit. -/
def BatchFits (cluster : String) (vms : List String) : Prop :=
  cluster.length ≤ 500 ∧ (", ".intercalate vms).length ≤ 500

theorem fits_skipFinding_iff {cluster : ClusterResult} {skip : SkippedGroup} :
    FitsColumns (skipFinding runId cluster skip) ↔ BatchFits cluster.clusterName skip.vms := by
  rw [fitsColumns_iff]
  simp [skipFinding, BatchFits]

theorem fits_ruleFinding_iff {cluster : ClusterResult} {rule : RuleToCreate} :
    FitsColumns (ruleFinding runId cluster rule) ↔ BatchFits cluster.clusterName rule.vms := by
  rw [fitsColumns_iff]
  simp [ruleFinding, BatchFits]

theorem fits_violationFinding_iff {v : Violation} :
    FitsColumns (violationFinding runId v) ↔ v.vmA.length + 3 + v.vmB.length ≤ 500 ∧
      (", ".intercalate (v.sharedDatastores ++ v.sharedDatastoreClusters)).length ≤ 500 := by
  rw [fitsColumns_iff]
  have hlen : (violationFinding runId v).vmName.length = v.vmA.length + 3 + v.vmB.length := by
    show (toString v.vmA ++ " + " ++ toString v.vmB).length = _
    rw [String.length_append, String.length_append]
    rfl
  rw [hlen]
  simp [violationFinding]

theorem fits_scatteredFinding_iff {vm : ScatteredVm} :
    FitsColumns (scatteredFinding runId vm) ↔ vm.cluster.length ≤ 500 ∧ vm.vmName.length ≤ 500 ∧
      (", ".intercalate vm.datastores).length ≤ 500 := by
  rw [fitsColumns_iff]
  simp [scatteredFinding]

end Rows

/-! ## The findings of the DRS analysis -/

/-- The lists of VMs that the findings of a group are about: the group itself if it is
skipped, else its batches. -/
def groupLists (c : Cluster) (groupVms : List String) : List (List String) :=
  if SkippedWhole c groupVms then [groupVms] else batches (maxVmsPerRule c.hostCount) groupVms

/-- The rules and the skipped entries of a group are about its lists. -/
theorem forall_groupLists_iff {P : List String → Prop} (c : Cluster)
    (g : GroupKey × List String) :
    ((∀ s ∈ groupSkips c g, P s.vms) ∧ ∀ r ∈ groupRules c g, P r.vms) ↔
      ∀ l ∈ groupLists c g.2, P l := by
  unfold groupSkips groupRules groupLists SkippedWhole
  by_cases h1 : g.2.length = 1
  · simp [h1]
  by_cases h2 : c.hostCount < 2
  · simp [h1, h2]
  simp only [h1, h2, or_self, if_false]
  refine ⟨?_, ?_⟩
  · rintro ⟨hskips, hrules⟩ l hl
    obtain ⟨i, hi⟩ := List.mem_iff_getElem?.mp hl
    have hp : (l, i) ∈ (batches (maxVmsPerRule c.hostCount) g.2).zipIdx :=
      List.mem_zipIdx_iff_getElem?.mpr hi
    by_cases hlen : l.length < 2
    · exact hskips (leftoverOf g.1 l i)
        (List.mem_filterMap.mpr ⟨(l, i), hp, by rw [if_pos hlen]⟩)
    · exact hrules (ruleOf c g.1 _ l i)
        (List.mem_filterMap.mpr ⟨(l, i), hp, by rw [if_neg hlen]⟩)
  · intro hall
    refine ⟨?_, ?_⟩
    · intro s hs
      obtain ⟨p, hp, hps⟩ := List.mem_filterMap.mp hs
      split at hps
      · cases hps
        exact hall _ (List.fst_mem_of_mem_zipIdx hp)
      · cases hps
    · intro r hr
      obtain ⟨p, hp, hpr⟩ := List.mem_filterMap.mp hr
      split at hpr
      · cases hpr
      · cases hpr
        exact hall _ (List.fst_mem_of_mem_zipIdx hp)

/-- The texts of the DRS findings: every group has a cluster name and lists of VM names. -/
def DrsRowsFit (search : Search) (patterns : List Pattern) (inv : Inventory) : Prop :=
  ∀ c ∈ inv.clusters, ∀ k, members search patterns c k ≠ [] →
    ∀ l ∈ groupLists c (members search patterns c k), BatchFits c.name l

theorem fits_clusterFindings_iff (search : Search) (patterns : List Pattern) (runId : Nat)
    (c : Cluster) :
    (∀ f ∈ clusterFindings runId (analyzeCluster search patterns c).1, FitsColumns f) ↔
      ∀ k, members search patterns c k ≠ [] →
        ∀ l ∈ groupLists c (members search patterns c k), BatchFits c.name l := by
  have hgroups : (∀ f ∈ clusterFindings runId (analyzeCluster search patterns c).1,
      FitsColumns f) ↔ ∀ g ∈ (clusterGroups search patterns c).entries,
        (∀ s ∈ groupSkips c g, BatchFits c.name s.vms) ∧
          ∀ r ∈ groupRules c g, BatchFits c.name r.vms := by
    simp only [clusterFindings, List.forall_mem_append, List.forall_mem_map,
      fits_skipFinding_iff, fits_ruleFinding_iff, skippedGroups_analyzeCluster,
      rulesToCreate_analyzeCluster, clusterName_analyzeCluster, List.mem_flatMap]
    refine ⟨?_, ?_⟩
    · rintro ⟨hs, hr⟩ g hg
      exact ⟨fun s h => hs s ⟨g, hg, h⟩, fun r h => hr r ⟨g, hg, h⟩⟩
    · intro hall
      refine ⟨?_, ?_⟩
      · rintro s ⟨g, hg, h⟩
        exact (hall g hg).1 s h
      · rintro r ⟨g, hg, h⟩
        exact (hall g hg).2 r h
  rw [hgroups]
  simp only [forall_groupLists_iff]
  refine ⟨?_, ?_⟩
  · intro hall k hk
    exact hall (k, _) ((mem_clusterGroups search patterns c).mpr ⟨hk, rfl⟩)
  · rintro hall ⟨k, vms⟩ hg
    obtain ⟨hne, rfl⟩ := (mem_clusterGroups search patterns c).mp hg
    exact hall k hne

theorem fits_drsFindings_iff (search : Search) (patterns : List Pattern) (runId : Nat)
    (inv : Inventory) :
    (∀ f ∈ drsFindings runId (analyzeDrsCompliance search inv patterns), FitsColumns f) ↔
      DrsRowsFit search patterns inv := by
  unfold drsFindings DrsRowsFit
  rw [clusters_analyzeDrsCompliance]
  simp only [← fits_clusterFindings_iff search patterns runId, List.mem_flatMap, List.mem_map]
  refine ⟨?_, ?_⟩
  · intro hall c hc f hf
    exact hall f ⟨_, ⟨c, hc, rfl⟩, hf⟩
  · rintro hall f ⟨_, ⟨c, hc, rfl⟩, hf⟩
    exact hall c hc f hf

/-! ## The findings of the storage analysis -/

/-- The last VM of the list with the name: the one whose storage `vm_storage` keeps. -/
def lastNamed (vms : List VmEntry) (name : String) : Option VmEntry :=
  vms.reverse.find? fun vm => vm.name = name

theorem mem_entries_vmStorage {toPod : OrderedDict String String} {vms : List VmEntry}
    {e : String × Footprint} : e ∈ (vmStorage toPod vms).entries ↔
      ∃ vm, lastNamed vms e.1 = some vm ∧ footprint toPod vm.disks = e.2 := by
  obtain ⟨name, fp⟩ := e
  rw [← OrderedDict.get?_eq_some_iff, vmStorage,
    OrderedDict.get?_ofList_map VmEntry.name fun vm => footprint toPod vm.disks,
    Option.map_eq_some_iff]
  rfl

/-- A group of fewer than two VMs has no pair of entries. -/
theorem groupViolations_eq (order : SetOrder String) (toPod : OrderedDict String String)
    (g : GroupKey × List VmEntry) : groupViolations order toPod g =
      (pairs (vmStorage toPod g.2).entries).filterMap (violationOf order g.1) := by
  obtain ⟨k, vms⟩ := g
  unfold groupViolations
  split
  · rename_i hlen
    match vms, hlen with
    | [], _ => rfl
    | [vm], _ => rfl
  · rfl

/-- What a violation record for two footprints takes up: the two names and the shared
storage. -/
def PairFits (p q : String × Footprint) : Prop :=
  p.2.datastores ∩ q.2.datastores ≠ ∅ ∨ p.2.pods ∩ q.2.pods ≠ ∅ →
    p.1.length + 3 + q.1.length ≤ 500 ∧
      joinedLength₂ 2 (p.2.datastores ∩ q.2.datastores) (p.2.pods ∩ q.2.pods) ≤ 500

theorem PairFits.symm {p q : String × Footprint} (h : PairFits p q) : PairFits q p := by
  unfold PairFits at h ⊢
  rw [Finset.inter_comm q.2.datastores, Finset.inter_comm q.2.pods]
  intro hmeet
  have hlen := h hmeet
  exact ⟨by omega, hlen.2⟩

theorem fits_violationOf_iff (runId : Nat) (order : SetOrder String) (k : GroupKey)
    (p q : String × Footprint) :
    (∀ v ∈ violationOf order k (p, q), FitsColumns (violationFinding runId v)) ↔
      PairFits p q := by
  unfold violationOf PairFits
  dsimp only
  split
  · rename_i hmeet
    simp only [Option.mem_some_iff, forall_eq', fits_violationFinding_iff,
      length_intercalate_toList_append]
    exact ⟨fun h _ => h, fun h => h hmeet⟩
  · rename_i hmeet
    exact ⟨fun _ h => absurd h hmeet, fun _ v hv => by cases hv⟩

/-- The texts of the violations: any two names of a group whose last VMs share storage. -/
def ViolationRowsFit (search : Search) (patterns : List Pattern) (inv : Inventory) : Prop :=
  ∀ k a b, a ≠ b → ∀ va ∈ lastNamed (storageMembers search inv patterns k) a,
    ∀ vb ∈ lastNamed (storageMembers search inv patterns k) b,
      PairFits (a, footprint (dsToPod inv) va.disks) (b, footprint (dsToPod inv) vb.disks)

theorem fits_groupViolations_iff (runId : Nat) (order : SetOrder String)
    (toPod : OrderedDict String String) (k : GroupKey) (vms : List VmEntry) :
    (∀ v ∈ groupViolations order toPod (k, vms), FitsColumns (violationFinding runId v)) ↔
      ∀ a b, a ≠ b → ∀ va ∈ lastNamed vms a, ∀ vb ∈ lastNamed vms b,
        PairFits (a, footprint toPod va.disks) (b, footprint toPod vb.disks) := by
  have hpairs : (∀ v ∈ groupViolations order toPod (k, vms),
      FitsColumns (violationFinding runId v)) ↔
        ∀ p ∈ pairs (vmStorage toPod vms).entries, PairFits p.1 p.2 := by
    rw [groupViolations_eq]
    simp only [List.mem_filterMap, ← fits_violationOf_iff runId order k]
    refine ⟨?_, ?_⟩
    · intro hall p hp v hv
      exact hall v ⟨p, hp, hv⟩
    · rintro hall v ⟨p, hp, hv⟩
      exact hall p hp v hv
  have hnodup : (vmStorage toPod vms).entries.Nodup := (vmStorage toPod vms).nodup.of_map
  rw [hpairs, forall_pairs_iff hnodup (Q := PairFits) fun p q h => h.symm]
  simp only [mem_entries_vmStorage]
  refine ⟨?_, ?_⟩
  · intro hall a b hab va hva vb hvb
    refine hall (a, _) ⟨va, hva, rfl⟩ (b, _) ⟨vb, hvb, rfl⟩ ?_
    exact fun heq => hab (congrArg Prod.fst heq)
  · rintro hall ⟨a, fa⟩ ⟨va, hva, rfl⟩ ⟨b, fb⟩ ⟨vb, hvb, rfl⟩ hne
    refine hall a b ?_ va hva vb hvb
    -- one name has one last VM
    rintro rfl
    have hvm : va = vb := Option.some.inj (hva.symm.trans hvb)
    exact hne (by rw [hvm])

theorem fits_violations_iff (runId : Nat) (search : Search) (order : SetOrder String)
    (patterns : List Pattern) (inv : Inventory) :
    (∀ v ∈ violations search order inv patterns, FitsColumns (violationFinding runId v)) ↔
      ViolationRowsFit search patterns inv := by
  have hgroup : ∀ k, _ := fun k => fits_groupViolations_iff runId order (dsToPod inv) k
    (storageMembers search inv patterns k)
  unfold ViolationRowsFit violations
  simp only [← hgroup, List.mem_flatMap]
  refine ⟨?_, ?_⟩
  · intro hall k v hv
    refine hall v ⟨(k, storageMembers search inv patterns k), ?_, hv⟩
    refine (mem_storageGroups search inv patterns).mpr ⟨?_, rfl⟩
    intro hnil
    dsimp only at hnil
    rw [hnil, groupViolations_nil] at hv
    cases hv
  · rintro hall v ⟨⟨k, vms⟩, hg, hv⟩
    obtain ⟨_, hvms⟩ := (mem_storageGroups search inv patterns).mp hg
    dsimp only at hvms
    rw [hvms] at hv
    exact hall k v hv

/-- The VM lies on several datastores or in several datastore clusters. -/
def IsScattered (inv : Inventory) (vm : VmEntry) : Prop :=
  (footprint (dsToPod inv) vm.disks).datastores.card > 1 ∨
    (scatteredPods (dsToPod inv) vm.disks).card > 1

/-- The texts of the scattered VMs. -/
def ScatteredRowsFit (inv : Inventory) : Prop :=
  ∀ vm ∈ allVmsWithDisks inv, IsScattered inv vm →
    vm.cluster.length ≤ 500 ∧ vm.name.length ≤ 500 ∧
      joinedLength 2 (footprint (dsToPod inv) vm.disks).datastores ≤ 500

theorem realDisks_of_isScattered {inv : Inventory} {vm : VmEntry} (h : IsScattered inv vm) :
    realDisks vm.disks ≠ [] := by
  intro hnil
  unfold IsScattered footprint scatteredPods at h
  rw [hnil] at h
  rcases h with h | h
  · simp at h
  · simp at h

theorem fits_scatteredVms_iff (runId : Nat) (order : SetOrder String) (inv : Inventory) :
    (∀ s ∈ scatteredVms order inv, FitsColumns (scatteredFinding runId s)) ↔
      ScatteredRowsFit inv := by
  have hone : ∀ vm, (∀ s ∈ scatteredVm order inv vm, FitsColumns (scatteredFinding runId s)) ↔
      (IsScattered inv vm → vm.cluster.length ≤ 500 ∧ vm.name.length ≤ 500 ∧
        joinedLength 2 (footprint (dsToPod inv) vm.disks).datastores ≤ 500) := by
    intro vm
    unfold scatteredVm
    dsimp only
    split
    · rename_i hnil
      exact ⟨fun _ h => absurd hnil (realDisks_of_isScattered h), fun _ s hs => by cases hs⟩
    · split
      · rename_i hcard
        simp only [Option.mem_some_iff, forall_eq', fits_scatteredFinding_iff,
          length_intercalate_toList]
        exact ⟨fun h _ => h, fun h => h hcard⟩
      · rename_i hcard
        exact ⟨fun _ h => absurd h hcard, fun _ s hs => by cases hs⟩
  unfold ScatteredRowsFit scatteredVms
  simp only [← hone, List.mem_filterMap]
  refine ⟨?_, ?_⟩
  · intro hall vm hvm s hs
    exact hall s ⟨vm, hvm, hs⟩
  · rintro hall s ⟨vm, hvm, hs⟩
    exact hall vm hvm s hs

/-! ## All findings of a run -/

/-- The texts of all findings that an analysis of the type makes of the inventory. -/
def RowsFit (search : Search) (type : AnalysisType) (patterns : List Pattern)
    (inv : Inventory) : Prop :=
  (includesDrs type = true → DrsRowsFit search patterns inv) ∧
    (includesStorage type = true →
      ViolationRowsFit search patterns inv ∧ ScatteredRowsFit inv)

theorem fits_storageFindings_iff (runId : Nat) (search : Search) (order : SetOrder String)
    (patterns : List Pattern) (inv : Inventory) :
    (∀ f ∈ storageFindings runId (analyzeStorageCompliance search order inv patterns),
      FitsColumns f) ↔ ViolationRowsFit search patterns inv ∧ ScatteredRowsFit inv := by
  rw [← fits_violations_iff runId search order, ← fits_scatteredVms_iff runId order]
  unfold storageFindings
  rw [List.forall_mem_append, List.forall_mem_map, List.forall_mem_map]
  rfl

/-- **PostgreSQL accepts the findings of a run** exactly when the texts fit. -/
theorem fits_generateFindings_iff (cfg : Config) (type : AnalysisType) (runId : Nat)
    (patterns : List Pattern) (inv : Inventory) :
    (∀ f ∈ generateFindings (analyze cfg type inv patterns).drs
      (analyze cfg type inv patterns).storage runId, FitsColumns f) ↔
      RowsFit cfg.search type patterns inv := by
  unfold generateFindings RowsFit
  rw [List.forall_mem_append, ← fits_drsFindings_iff cfg.search patterns runId,
    ← fits_storageFindings_iff runId cfg.search cfg.setOrder]
  refine and_congr ?_ ?_
  · unfold analyze
    cases includesDrs type with
    | false => simp
    | true => simp
  · unfold analyze
    cases includesStorage type with
    | false => simp
    | true => simp

/-! ## The rules of the clusters do not matter -/

/-- The inventory without the rules of its clusters. -/
def forgetRules (inv : Inventory) : Inventory :=
  { inv with clusters := inv.clusters.map fun c => { c with drsRules := [] } }

theorem allVmsWithDisks_forgetRules (inv : Inventory) :
    allVmsWithDisks (forgetRules inv) = allVmsWithDisks inv := by
  unfold allVmsWithDisks forgetRules
  rw [List.flatMap_map]

theorem rowsFit_forgetRules (search : Search) (type : AnalysisType) (patterns : List Pattern)
    (inv : Inventory) :
    RowsFit search type patterns (forgetRules inv) ↔ RowsFit search type patterns inv := by
  have hdrs : DrsRowsFit search patterns (forgetRules inv) ↔ DrsRowsFit search patterns inv := by
    unfold DrsRowsFit forgetRules
    rw [List.forall_mem_map]
    rfl
  have hmembers : ∀ k, storageMembers search (forgetRules inv) patterns k =
      storageMembers search inv patterns k := by
    intro k
    unfold storageMembers
    rw [allVmsWithDisks_forgetRules]
  have hviolations : ViolationRowsFit search patterns (forgetRules inv) ↔
      ViolationRowsFit search patterns inv := by
    unfold ViolationRowsFit
    simp only [hmembers]
    rfl
  have hscattered : ScatteredRowsFit (forgetRules inv) ↔ ScatteredRowsFit inv := by
    unfold ScatteredRowsFit
    rw [allVmsWithDisks_forgetRules]
    rfl
  unfold RowsFit
  rw [hdrs, hviolations, hscattered]

end VsphereCompliance.Analysis
