import VsphereCompliance.Engine.DrsPlan
import VsphereCompliance.Library.NumberedNames
import Mathlib.Data.Set.Pairwise.List

/-!
# The names of the planned rules

Within a cluster a rule is named after its group key, and after its number where the group has
several batches (`names_groupRules`). The key is free text and may end in a hyphen and a
number itself. The names in a cluster are all different exactly when no two groups that get
rules have keys of the same text, both numbered or both not, and the key of no unnumbered
group is the numbered name of another group's rule (`rule_names_unique_iff`).
-/

namespace VsphereCompliance.Engine

open Batches NumberedNames

/-! ## The names of one group -/

/-- What tells the rules of a cluster apart: the key, numbered if the group has several
batches. -/
def ruleLabel (key : GroupKey) (several : Prop) [Decidable several] (idx : Nat) : String :=
  if several then numbered (keyText key) (idx + 1) else keyText key

theorem ruleName_ruleOf (c : Cluster) (key : GroupKey) (total : Nat) (batch : List String)
    (idx : Nat) : (ruleOf c key total batch idx).ruleName =
      "VCM-AAR-" ++ c.name ++ "-" ++ ruleLabel key (total > 1) idx := by
  show ("VCM-AAR-" ++ c.name ++ "-" ++ keyText key) ++
    (if total > 1 then "-" ++ toString (idx + 1) else "") = _
  unfold ruleLabel numbered
  split
  · simp only [String.append_assoc]
  · rw [String.append_empty]

theorem label_inj {c : Cluster} {s t : String} :
    "VCM-AAR-" ++ c.name ++ "-" ++ s = "VCM-AAR-" ++ c.name ++ "-" ++ t ↔ s = t := by
  constructor
  · intro h
    have hlist := congrArg String.toList h
    simp only [String.toList_append] at hlist
    exact String.toList_inj.mp (List.append_cancel_left hlist)
  · intro h
    rw [h]

section Group

variable {c : Cluster} {g : GroupKey × List String} (h : ¬ SkippedWhole c g.2)
include h

/-- The rules of a group are numbered from 0 as long as two VMs are left. -/
theorem lt_length_groupRules_iff {i : Nat} :
    i < (groupRules c g).length ↔ i * maxVmsPerRule c.hostCount + 2 ≤ g.2.length := by
  have hm := two_le_maxVmsPerRule c.hostCount
  rw [groupRules_eq h, List.length_map, List.length_zipIdx, length_batches, lt_count_iff (by omega)]
  unfold covered
  split
  · rename_i hmod
    rw [List.length_take]
    omega
  · rename_i hmod
    constructor
    · intro hlt
      by_contra hnot
      apply hmod
      rw [show g.2.length = i * maxVmsPerRule c.hostCount + 1 by omega, Nat.mul_comm,
        Nat.mul_add_mod, Nat.mod_eq_of_lt (by omega)]
    · omega

theorem names_groupRules :
    (groupRules c g).map RuleToCreate.ruleName =
      (List.range (groupRules c g).length).map fun i => "VCM-AAR-" ++ c.name ++ "-" ++
        ruleLabel g.1 (maxVmsPerRule c.hostCount < g.2.length) i := by
  have hm := two_le_maxVmsPerRule c.hostCount
  have htotal : (batches (maxVmsPerRule c.hostCount) g.2).length > 1 ↔
      maxVmsPerRule c.hostCount < g.2.length := by
    rw [length_batches, gt_iff_lt, lt_count_iff (by omega), Nat.one_mul]
  rw [groupRules_eq h, List.map_map, List.length_map, List.length_zipIdx, List.range_eq_range',
    ← List.zipIdx_map_snd 0, List.map_map]
  apply List.map_congr_left
  intro p _
  simp only [Function.comp_apply, ruleName_ruleOf, htotal]

theorem mem_names_groupRules {name : String} :
    name ∈ (groupRules c g).map RuleToCreate.ruleName ↔
      ∃ i, i * maxVmsPerRule c.hostCount + 2 ≤ g.2.length ∧
        name = "VCM-AAR-" ++ c.name ++ "-" ++
          ruleLabel g.1 (maxVmsPerRule c.hostCount < g.2.length) i := by
  rw [names_groupRules h, List.mem_map]
  simp only [List.mem_range, lt_length_groupRules_iff h, eq_comm]

/-- The rules of one group have different names. -/
theorem nodup_names_groupRules : ((groupRules c g).map RuleToCreate.ruleName).Nodup := by
  rw [names_groupRules h]
  apply List.nodup_range.map_on
  intro i hi j hj hij
  rw [List.mem_range, lt_length_groupRules_iff h] at hi hj
  rw [label_inj] at hij
  unfold ruleLabel at hij
  split at hij
  · have hnum := (numbered_inj.mp hij).2
    omega
  · -- a group of one batch has one rule
    rename_i hone
    have hzero : ∀ i, i * maxVmsPerRule c.hostCount + 2 ≤ g.2.length → i = 0 := by
      intro i hi
      by_contra hne
      have hle := Nat.mul_le_mul_right (maxVmsPerRule c.hostCount) (Nat.one_le_iff_ne_zero.mpr hne)
      omega
    rw [hzero i hi, hzero j hj]

end Group

/-! ## The names of a cluster -/

/-- Two groups of at least two VMs, in a cluster with `m` VMs per rule, have a rule of the
same name. -/
def NamesMeet (m : Nat) (g g' : GroupKey × List String) : Prop :=
  ∃ i j, i * m + 2 ≤ g.2.length ∧ j * m + 2 ≤ g'.2.length ∧
    ruleLabel g.1 (m < g.2.length) i = ruleLabel g'.1 (m < g'.2.length) j

theorem not_disjoint_iff {c : Cluster} {g g' : GroupKey × List String}
    (h : ¬ SkippedWhole c g.2) (h' : ¬ SkippedWhole c g'.2) :
    ¬ List.Disjoint ((groupRules c g).map RuleToCreate.ruleName)
        ((groupRules c g').map RuleToCreate.ruleName) ↔
      NamesMeet (maxVmsPerRule c.hostCount) g g' := by
  unfold List.Disjoint NamesMeet
  simp only [mem_names_groupRules h, mem_names_groupRules h']
  constructor
  · intro hmeet
    push Not at hmeet
    obtain ⟨name, ⟨i, hi, rfl⟩, ⟨j, hj, hij⟩, _⟩ := hmeet
    exact ⟨i, j, hi, hj, label_inj.mp hij⟩
  · rintro ⟨i, j, hi, hj, hij⟩ hdisjoint
    exact hdisjoint ⟨i, hi, rfl⟩ ⟨j, hj, label_inj.mpr hij⟩

/-- The group `g` is numbered, `g'` is not, and the key of `g'` is the name of a rule of
`g`. -/
def NumberedAs (m : Nat) (g g' : GroupKey × List String) : Prop :=
  m < g.2.length ∧ g'.2.length ≤ m ∧
    ∃ i, i * m + 2 ≤ g.2.length ∧ keyText g'.1 = numbered (keyText g.1) (i + 1)

theorem namesMeet_iff {m : Nat} {g g' : GroupKey × List String} (hg : 2 ≤ g.2.length)
    (hg' : 2 ≤ g'.2.length) :
    NamesMeet m g g' ↔
      (keyText g.1 = keyText g'.1 ∧ (m < g.2.length ↔ m < g'.2.length)) ∨
        NumberedAs m g g' ∨ NumberedAs m g' g := by
  unfold NamesMeet NumberedAs ruleLabel
  by_cases hs : m < g.2.length
  · by_cases hs' : m < g'.2.length
    · -- both numbered: the first rules meet, if any do
      simp only [hs, hs', if_true, numbered_inj, Nat.not_le.mpr hs,
        Nat.not_le.mpr hs', and_true, false_and, and_false, or_false]
      constructor
      · rintro ⟨i, j, _, _, hkey, _⟩
        exact hkey
      · intro hkey
        exact ⟨0, 0, by omega, by omega, hkey, rfl⟩
    · simp only [hs, hs', if_true, if_false, Nat.not_lt.mp hs', true_and, false_and,
        or_false, iff_false, not_true, and_false, false_or]
      constructor
      · rintro ⟨i, j, hi, _, hkey⟩
        exact ⟨i, hi, hkey.symm⟩
      · rintro ⟨i, hi, hkey⟩
        exact ⟨i, 0, hi, by omega, hkey.symm⟩
  · by_cases hs' : m < g'.2.length
    · simp only [hs, hs', if_true, if_false, Nat.not_lt.mp hs, true_and, false_and,
        false_or, false_iff, not_true, and_false]
      constructor
      · rintro ⟨i, j, _, hj, hkey⟩
        exact ⟨j, hj, hkey⟩
      · rintro ⟨j, hj, hkey⟩
        exact ⟨0, j, by omega, hj, hkey⟩
    · simp only [hs, hs', if_false, and_true, false_and, or_false]
      constructor
      · rintro ⟨i, j, _, _, hkey⟩
        exact hkey
      · intro hkey
        exact ⟨0, 0, by omega, by omega, hkey⟩

section Cluster

variable (search : Search) (patterns : List Pattern) (c : Cluster)

/-- The keys of the groups that get rules do not lead to equal names. A group of more than
`maxVmsPerRule` VMs has numbered rules, one for each number `i + 1` with at least two VMs
from position `i * maxVmsPerRule` on. -/
structure LabelsApart : Prop where
  /-- Two keys of the same text are not both numbered, and not both without numbers. -/
  texts : ∀ k k', k ≠ k' → 2 ≤ (members search patterns c k).length →
    2 ≤ (members search patterns c k').length → keyText k = keyText k' →
      ¬ (maxVmsPerRule c.hostCount < (members search patterns c k).length ↔
        maxVmsPerRule c.hostCount < (members search patterns c k').length)
  /-- The key of a group without numbers is no numbered key of another group. -/
  numbers : ∀ k k', maxVmsPerRule c.hostCount < (members search patterns c k).length →
    2 ≤ (members search patterns c k').length →
      (members search patterns c k').length ≤ maxVmsPerRule c.hostCount →
        ∀ i, i * maxVmsPerRule c.hostCount + 2 ≤ (members search patterns c k).length →
          keyText k' ≠ numbered (keyText k) (i + 1)

theorem labelsApart_iff (hhosts : 2 ≤ c.hostCount) :
    LabelsApart search patterns c ↔
      ∀ g ∈ plannedGroups search patterns c, ∀ g' ∈ plannedGroups search patterns c, g ≠ g' →
        ¬ NamesMeet (maxVmsPerRule c.hostCount) g g' := by
  constructor
  · rintro h ⟨k, g⟩ hg ⟨k', g'⟩ hg' hne
    obtain ⟨_, hlen, hmembers⟩ := (mem_plannedGroups search patterns c).mp hg
    obtain ⟨_, hlen', hmembers'⟩ := (mem_plannedGroups search patterns c).mp hg'
    obtain rfl : g = members search patterns c k := hmembers
    obtain rfl : g' = members search patterns c k' := hmembers'
    have hkey : k ≠ k' := fun heq => hne (by rw [heq])
    rw [namesMeet_iff hlen hlen']
    rintro (⟨htext, hboth⟩ | ⟨hs, hs', i, hi, hnum⟩ | ⟨hs', hs, i, hi, hnum⟩)
    · exact h.texts k k' hkey hlen hlen' htext hboth
    · exact h.numbers k k' hs hlen' hs' i hi hnum
    · exact h.numbers k' k hs' hlen hs i hi hnum
  · intro h
    have hmeet : ∀ k k', k ≠ k' → 2 ≤ (members search patterns c k).length →
        2 ≤ (members search patterns c k').length →
          ¬ NamesMeet (maxVmsPerRule c.hostCount) (k, members search patterns c k)
            (k', members search patterns c k') := by
      intro k k' hkey hlen hlen'
      exact h _ ((mem_plannedGroups search patterns c).mpr ⟨hhosts, hlen, rfl⟩)
        _ ((mem_plannedGroups search patterns c).mpr ⟨hhosts, hlen', rfl⟩)
        (fun heq => hkey (congrArg Prod.fst heq))
    have hm := two_le_maxVmsPerRule c.hostCount
    refine ⟨?_, ?_⟩
    · intro k k' hkey hlen hlen' htext hboth
      exact hmeet k k' hkey hlen hlen' ((namesMeet_iff hlen hlen').mpr (Or.inl ⟨htext, hboth⟩))
    · intro k k' hs hlen' hs' i hi hnum
      have hlen : 2 ≤ (members search patterns c k).length := by omega
      have hkey : k ≠ k' := by
        rintro rfl
        omega
      exact hmeet k k' hkey hlen hlen'
        ((namesMeet_iff hlen hlen').mpr (Or.inr (Or.inl ⟨hs, hs', i, hi, hnum⟩)))

theorem nodup_names_iff :
    ((analyzeCluster search patterns c).1.rulesToCreate.map RuleToCreate.ruleName).Nodup ↔
      (2 ≤ c.hostCount → LabelsApart search patterns c) := by
  have hskip : ∀ g ∈ plannedGroups search patterns c, ¬ SkippedWhole c g.2 := by
    intro g hg
    simpa using (List.mem_filter.mp hg).2
  let apart : GroupKey × List String → GroupKey × List String → Prop := fun g g' =>
    List.Disjoint ((groupRules c g).map RuleToCreate.ruleName)
      ((groupRules c g').map RuleToCreate.ruleName)
  have hsymm : Std.Symm apart := ⟨fun _ _ h => List.disjoint_comm.mp h⟩
  rw [rulesToCreate_eq_flatMap_plannedGroups, List.map_flatMap, List.nodup_flatMap]
  have hpairs := (nodup_plannedGroups search patterns c).pairwise_coe (r := apart)
  constructor
  · rintro ⟨_, hdisjoint⟩ hhosts
    rw [labelsApart_iff search patterns c hhosts]
    intro g hg g' hg' hne hmeet
    exact (not_disjoint_iff (hskip g hg) (hskip g' hg')).mpr hmeet
      (hpairs.mpr hdisjoint hg hg' hne)
  · intro h
    refine ⟨fun g hg => nodup_names_groupRules (hskip g hg), hpairs.mp ?_⟩
    intro g hg g' hg' hne
    by_contra hnot
    have hmeet := (not_disjoint_iff (hskip g hg) (hskip g' hg')).mp hnot
    have hhosts := ((mem_plannedGroups search patterns c).mp hg).1
    exact (labelsApart_iff search patterns c hhosts).mp (h hhosts) g hg g' hg' hne hmeet

end Cluster

/-- **Rule names are unique** in every cluster result exactly when in every cluster of at
least two hosts the keys do not lead to equal names. -/
theorem rule_names_unique_iff (search : Search) (inv : Inventory) (patterns : List Pattern) :
    (∀ res ∈ (analyzeDrsCompliance search inv patterns).clusters,
      (res.rulesToCreate.map RuleToCreate.ruleName).Nodup) ↔
    ∀ c ∈ inv.clusters, 2 ≤ c.hostCount → LabelsApart search patterns c := by
  rw [clusters_analyzeDrsCompliance, List.forall_mem_map]
  exact forall₂_congr fun c _ => nodup_names_iff search patterns c

/-- A cluster of two hosts: three VMs of the group `WEB`, two of the group `WEB-1`. -/
def twinCluster : Cluster :=
  ⟨"Prod", 2, [⟨"WEB-01", []⟩, ⟨"WEB-02", []⟩, ⟨"WEB-03", []⟩, ⟨"WEB-1-A", []⟩,
    ⟨"WEB-1-B", []⟩], []⟩

/-- The first of the two batches of `WEB` and the only batch of `WEB-1` both give the rule
`VCM-AAR-Prod-WEB-1`. -/
theorem rule_names_clash :
    ¬ ∀ (search : Search) (inv : Inventory) (patterns : List Pattern),
      ∀ res ∈ (analyzeDrsCompliance search inv patterns).clusters,
        (res.rulesToCreate.map RuleToCreate.ruleName).Nodup := by
  intro hall
  have hnodup := hall prefixSearch ⟨[twinCluster], [], []⟩ [⟨.vmName, "^(WEB-1)-"⟩, webPattern]
  rw [clusters_analyzeDrsCompliance, List.forall_mem_map] at hnodup
  have hapart := (nodup_names_iff _ _ twinCluster).mp (hnodup twinCluster (by decide)) (by decide)
  exact hapart.numbers (some "WEB") (some "WEB-1") (by decide) (by decide) (by decide) 0
    (by decide) (by decide)

end VsphereCompliance.Engine
