import VsphereCompliance.Engine.DrsPlan
import VsphereCompliance.Library.Colouring
import Mathlib.Data.Finset.Card
import Mathlib.Data.Fintype.Card
import Mathlib.Data.List.FinRange
import Mathlib.Data.List.Flatten

/-!
# The plan of a cluster can be met

The VM entries of a cluster are the positions of its list of VMs. Every planned rule is about
a batch of entries, an entry is in one rule at most (`nodup_flatten_ruleEntries`), and no
batch is larger than the number of hosts. So one placement of all entries meets all rules of
the cluster, also with one host less where there are three (`plan_satisfiable`).
-/

namespace VsphereCompliance.Engine

open Batches Colouring

/-! ## The entries of a rule -/

theorem map_vms_batchRules (c : Cluster) (key : GroupKey) (total : Nat)
    (bs : List (List String)) (n : Nat) :
    (batchRules c key total (bs.zipIdx n)).map RuleToCreate.vms = bs.filter (2 ≤ ·.length) := by
  induction bs generalizing n with
  | nil => rfl
  | cons b bs ih =>
    unfold batchRules at ih ⊢
    rw [List.zipIdx_cons]
    by_cases hb : b.length < 2
    · have hlen : decide (2 ≤ b.length) = false := decide_eq_false (Nat.not_le.mpr hb)
      simp only [List.filterMap_cons, if_pos hb, ih]
      rw [List.filter_cons_of_neg (by exact ne_true_of_eq_false hlen)]
    · have hlen : decide (2 ≤ b.length) = true := decide_eq_true (Nat.le_of_not_lt hb)
      simp only [List.filterMap_cons, if_neg hb, List.map_cons, ih]
      rw [List.filter_cons_of_pos (by exact hlen)]
      rfl

theorem map_vms_groupRules (c : Cluster) (g : GroupKey × List String) :
    (groupRules c g).map RuleToCreate.vms =
      if SkippedWhole c g.2 then []
      else (batches (maxVmsPerRule c.hostCount) g.2).filter (2 ≤ ·.length) := by
  unfold groupRules
  split
  · rfl
  · exact map_vms_batchRules c g.1 _ _ 0

section Entries

variable (search : Search) (patterns : List Pattern) (c : Cluster)

/-- A VM entry of the cluster. -/
abbrev Entry := Fin c.vms.length

def entryName (i : Entry c) : String := (c.vms.get i).name

/-- The entries of the group with key `k`. -/
def groupEntries (k : GroupKey) : List (Entry c) :=
  (List.finRange c.vms.length).filter fun i => drsGroupKey search patterns (entryName c i) = some k

/-- The batches of entries that become the rules of a group. -/
def batchEntries (k : GroupKey) : List (List (Entry c)) :=
  if SkippedWhole c (members search patterns c k) then []
  else (batches (maxVmsPerRule c.hostCount) (groupEntries search patterns c k)).filter
    (2 ≤ ·.length)

/-- The entries of the planned rules, rule by rule. -/
def ruleEntries : List (List (Entry c)) :=
  (clusterGroups search patterns c).keys.flatMap (batchEntries search patterns c)

theorem map_entryName_groupEntries (k : GroupKey) :
    (groupEntries search patterns c k).map (entryName c) = members search patterns c k := by
  have hvms : c.vms = (List.finRange c.vms.length).map c.vms.get := (List.map_get_finRange _).symm
  unfold members
  conv_rhs => rw [hvms]
  rw [List.filter_map, List.map_map]
  rfl

theorem map_entryName_batchEntries (k : GroupKey) :
    (batchEntries search patterns c k).map (List.map (entryName c)) =
      (groupRules c (k, members search patterns c k)).map RuleToCreate.vms := by
  rw [map_vms_groupRules, batchEntries]
  split
  · rfl
  · rw [← map_entryName_groupEntries, batches_map, List.filter_map]
    simp [Function.comp_def]

/-- The names of the entries are the VMs that the rules list. -/
theorem map_entryName_ruleEntries :
    (ruleEntries search patterns c).map (List.map (entryName c)) =
      (analyzeCluster search patterns c).1.rulesToCreate.map RuleToCreate.vms := by
  rw [rulesToCreate_analyzeCluster, ruleEntries, OrderedDict.keys, List.flatMap_map,
    List.map_flatMap, List.map_flatMap]
  apply List.flatMap_congr
  rintro ⟨k, g⟩ hg
  obtain ⟨_, rfl⟩ := (mem_clusterGroups search patterns c).mp hg
  exact map_entryName_batchEntries search patterns c k

theorem flatten_batchEntries_sublist (k : GroupKey) :
    (batchEntries search patterns c k).flatten.Sublist (groupEntries search patterns c k) := by
  have hm := two_le_maxVmsPerRule c.hostCount
  unfold batchEntries
  split
  · exact List.nil_sublist _
  · conv_rhs => rw [← flatten_batches (m := maxVmsPerRule c.hostCount) (by omega)
      (groupEntries search patterns c k)]
    exact List.filter_sublist.flatten

/-- **No entry is in two rules**, or twice in one. -/
theorem nodup_flatten_ruleEntries : (ruleEntries search patterns c).flatten.Nodup := by
  have hkey : ∀ k, ∀ i ∈ (batchEntries search patterns c k).flatten,
      drsGroupKey search patterns (entryName c i) = some k := by
    intro k i hi
    have hmem := (flatten_batchEntries_sublist search patterns c k).subset hi
    simpa using (List.mem_filter.mp hmem).2
  rw [ruleEntries, List.flatten_eq_flatMap, List.flatMap_assoc, List.nodup_flatMap]
  simp only [List.flatMap_id]
  refine ⟨?_, ?_⟩
  · intro k _
    exact ((List.nodup_finRange _).filter _).sublist
      (flatten_batchEntries_sublist search patterns c k)
  · refine (clusterGroups search patterns c).nodup.imp ?_
    intro k k' hne i hi hi'
    exact hne (Option.some.inj ((hkey k i hi).symm.trans (hkey k' i hi')))

end Entries

/-! ## One placement for all rules -/

/-- The rules of a cluster, and a placement of its entries that meets them all. `ids` are the
entries of the rules, rule by rule. -/
structure JointlySatisfiable (c : Cluster) (rules : List RuleToCreate) : Prop where
  few : c.hostCount < 2 → rules = []
  sizes : ∀ r ∈ rules, 2 ≤ r.vms.length ∧ r.vms.length ≤ max 2 (c.hostCount - 1)
  placement : ∃ ids : List (List (Entry c)),
    ids.map (List.map (entryName c)) = rules.map RuleToCreate.vms ∧ ids.flatten.Nodup ∧
      ∀ hosts : Finset (Fin c.hostCount),
        hosts = Finset.univ ∨ 3 ≤ c.hostCount ∧ hosts.card = c.hostCount - 1 →
          ∃ place : Entry c → Fin c.hostCount, (∀ i, place i ∈ hosts) ∧
            ∀ rule ∈ ids, (rule.map place).Nodup

section Placement

variable {search : Search} {patterns : List Pattern} {c : Cluster}

theorem length_vms_of_mem_rulesToCreate {r : RuleToCreate}
    (hr : r ∈ (analyzeCluster search patterns c).1.rulesToCreate) :
    2 ≤ c.hostCount ∧ r.vms.length ≤ max 2 (c.hostCount - 1) := by
  rw [rulesToCreate_analyzeCluster] at hr
  obtain ⟨g, _, hr⟩ := List.mem_flatMap.mp hr
  obtain ⟨hskip, idx, batch, hbatch, _, rfl⟩ := mem_groupRules hr
  have hm := two_le_maxVmsPerRule c.hostCount
  have hhosts : 2 ≤ c.hostCount := by
    unfold SkippedWhole at hskip
    omega
  have hlen := (length_of_getElem?_batches (by omega) hbatch).2
  rw [← maxVmsPerRule_eq hhosts]
  exact ⟨hhosts, by show batch.length ≤ _; omega⟩

/-- The entries of a rule are no more than the hosts, also with one host less of three. -/
theorem length_le_of_mem_ruleEntries {rule : List (Entry c)}
    (hrule : rule ∈ ruleEntries search patterns c) :
    2 ≤ c.hostCount ∧ rule.length ≤ max 2 (c.hostCount - 1) := by
  have hmem := List.mem_map_of_mem (f := List.map (entryName c)) hrule
  rw [map_entryName_ruleEntries] at hmem
  obtain ⟨r, hr, hvms⟩ := List.mem_map.mp hmem
  have h := length_vms_of_mem_rulesToCreate hr
  rw [hvms, List.length_map] at h
  exact h

theorem exists_place (hpopulated : c.Populated)
    (hosts : Finset (Fin c.hostCount))
    (hcard : hosts = Finset.univ ∨ 3 ≤ c.hostCount ∧ hosts.card = c.hostCount - 1) :
    ∃ place : Entry c → Fin c.hostCount, (∀ i, place i ∈ hosts) ∧
      ∀ rule ∈ ruleEntries search patterns c, (rule.map place).Nodup := by
  have hsize : hosts.card = c.hostCount ∨ 3 ≤ c.hostCount ∧ hosts.card = c.hostCount - 1 := by
    refine hcard.imp ?_ id
    rintro rfl
    rw [Finset.card_univ, Fintype.card_fin]
  by_cases hzero : c.hostCount = 0
  · have hnone : Entry c → False := by
      intro i
      have hlen : c.vms.length = 0 := List.length_eq_zero_iff.mpr (hpopulated hzero)
      have hlt := i.isLt
      omega
    refine ⟨fun i => (hnone i).elim, fun i => (hnone i).elim, ?_⟩
    intro rule hrule
    have h := (length_le_of_mem_ruleEntries hrule).1
    omega
  · have hne : hosts.toList ≠ [] := by
      intro hnil
      have hlen := hosts.length_toList
      rw [hnil, List.length_nil] at hlen
      omega
    obtain ⟨place, hmem, hplace⟩ := exists_colouring hne hosts.nodup_toList
      (nodup_flatten_ruleEntries search patterns c) (by
        intro rule hrule
        have h := length_le_of_mem_ruleEntries hrule
        rw [Finset.length_toList]
        omega)
    exact ⟨place, fun i => Finset.mem_toList.mp (hmem i), hplace⟩

theorem jointlySatisfiable_analyzeCluster (hpopulated : c.Populated) :
    JointlySatisfiable c (analyzeCluster search patterns c).1.rulesToCreate where
  few := by
    intro hhosts
    apply List.eq_nil_iff_forall_not_mem.mpr
    intro r hr
    have h := (length_vms_of_mem_rulesToCreate hr).1
    omega
  sizes := fun r hr =>
    ⟨two_le_length_vms search patterns c hr, (length_vms_of_mem_rulesToCreate hr).2⟩
  placement := ⟨ruleEntries search patterns c, map_entryName_ruleEntries search patterns c,
    nodup_flatten_ruleEntries search patterns c, exists_place hpopulated⟩

end Placement

/-- **The plan of every cluster is jointly satisfiable**, unless it has VMs and no host. -/
theorem plan_satisfiable (search : Search) (inv : Inventory) (patterns : List Pattern) :
    List.Forall₂ (fun c res => c.Populated → JointlySatisfiable c res.rulesToCreate) inv.clusters
      (analyzeDrsCompliance search inv patterns).clusters := by
  rw [clusters_analyzeDrsCompliance, List.forall₂_map_right_iff, List.forall₂_same]
  intro c _ hpopulated
  exact jointlySatisfiable_analyzeCluster hpopulated

/-- Four web servers on three hosts: two rules of two VMs. -/
def fourOnThree : Cluster :=
  ⟨"Cluster-A", 3, [⟨"WEB-01", []⟩, ⟨"WEB-02", []⟩, ⟨"WEB-03", []⟩, ⟨"WEB-04", []⟩], []⟩

/-- A cluster without hosts beside it does not matter. -/
def besideUnpopulated : Inventory where
  clusters := [fourOnThree, ⟨"Cluster-B", 0, [⟨"WEB-05", []⟩], []⟩]
  datastores := []
  datastoreClusters := []

theorem plan_satisfiable_web :
    ∃ res rest, (analyzeDrsCompliance webSearch besideUnpopulated [webPattern]).clusters =
      res :: rest ∧ JointlySatisfiable fourOnThree res.rulesToCreate := by
  have hpopulated : fourOnThree.Populated := fun hzero => absurd hzero (by decide)
  obtain ⟨res, rest, hplan, _, hclusters⟩ := List.forall₂_cons_left_iff.mp
    (plan_satisfiable webSearch besideUnpopulated [webPattern])
  exact ⟨res, rest, hclusters, hplan hpopulated⟩

end VsphereCompliance.Engine
