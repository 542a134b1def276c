import VsphereCompliance.Analysis.Cycle

/-!
# Does analyse-then-apply converge?

After one cycle the managed rules of a cluster should be the planned ones, and a second cycle
should change nothing. The plan counts on the old managed rules being deleted before the new
ones are created ("Delete old VCM rules first"), and nothing deletes them: a cycle only
appends. So it converges exactly when there is nothing to delete and nothing to create
(`converged_iff`).
-/

namespace VsphereCompliance.Analysis

open Engine Store VCenter

/-! ## What should hold -/

/-- The rules whose name starts with `VCM-AAR-`. -/
def managedRules (c : ClusterObj) : List RuleObj := c.rules.filter fun r => isVcmRule r.name

/-- All other rules. -/
def otherRules (c : ClusterObj) : List RuleObj := c.rules.filter fun r => !isVcmRule r.name

/-- What a cycle from `t` to `t'` should have done. -/
structure Converged (cfg : Config) (req : RunRequest) (db : Db) (t : Tree) (db' : Db)
    (t' : Tree) : Prop where
  /-- The managed rules of an analysed cluster are the planned ones. -/
  managed : includesDrs req.analysisType = true → List.Forall₂ (fun c c' =>
    ((managedRules c').map ruleView).Perm
      ((plannedRules cfg db req.analysisType c).map plannedView)) t.clusters t'.clusters
  /-- The other rules are what they were. -/
  others : List.Forall₂ (fun c c' => otherRules c' = otherRules c) t.clusters t'.clusters
  /-- A second cycle leaves the rules of every cluster as they are. -/
  stable : ∀ db'' t'', Cycle cfg req db' t' db'' t'' → List.Forall₂ (fun c c' =>
    (c'.rules.map ruleView).Perm (c.rules.map ruleView)) t'.clusters t''.clusters

/-- No DRS analysis; or no cluster has a managed rule, nor hosts and VMs for a new one. -/
def NothingToDo (cfg : Config) (db : Db) (type : AnalysisType) (t : Tree) : Prop :=
  includesDrs type = true → ∀ c ∈ t.clusters, managedRules c = [] ∧
    (c.hosts.length < 2 ∨
      ∀ k, (members cfg.search (patternList cfg db) (clusterEntry c) k).length < 2)

/-! ## One cluster -/

section Cluster

variable {cfg : Config} {db db' : Db} {type : AnalysisType} {c c' : ClusterObj}

theorem plannedRules_eq_nil_iff (h : includesDrs type = true) :
    plannedRules cfg db type c = [] ↔ c.hosts.length < 2 ∨
      ∀ k, (members cfg.search (patternList cfg db) (clusterEntry c) k).length < 2 := by
  rw [plannedRules, if_pos h]
  exact rulesToCreate_eq_nil_iff cfg.search (patternList cfg db) (clusterEntry c)

/-- The rules that the cluster has after the cycle: those before, then managed ones. -/
theorem Extends.rules (h : Extends cfg db type c c') :
    otherRules c' = otherRules c ∧
      ((managedRules c').map ruleView).Perm ((managedRules c).map ruleView ++
        (plannedRules cfg db type c).map plannedView) ∧
      (c'.rules.map ruleView).Perm (c.rules.map ruleView ++
        (plannedRules cfg db type c).map plannedView) := by
  obtain ⟨added, rfl, hperm⟩ := h
  have hvcm : ∀ r ∈ added, isVcmRule r.name = true := by
    intro r hr
    obtain ⟨p, hp, hview⟩ := List.mem_map.mp (hperm.mem_iff.mp (List.mem_map_of_mem hr))
    have hname : p.ruleName = r.name := congrArg Prod.fst hview
    rw [← hname]
    exact (mem_plannedRules hp).1
  refine ⟨?_, ?_, ?_⟩
  · show (c.rules ++ added).filter _ = _
    have hnone : added.filter (fun r => !isVcmRule r.name) = [] := by
      rw [List.filter_eq_nil_iff]
      intro r hr
      rw [hvcm r hr]
      exact Bool.false_ne_true
    rw [List.filter_append, hnone, List.append_nil]
    rfl
  · show (((c.rules ++ added).filter fun r => isVcmRule r.name).map ruleView).Perm _
    rw [List.filter_append, List.filter_eq_self.mpr hvcm, List.map_append]
    exact hperm.append_left _
  · show ((c.rules ++ added).map ruleView).Perm _
    rw [List.map_append]
    exact hperm.append_left _

/-- The plan for a cluster does not depend on its rules. -/
theorem Extends.plannedRules_eq (h : Extends cfg db type c c') :
    plannedRules cfg db type c' = plannedRules cfg db type c := by
  obtain ⟨added, rfl, _⟩ := h
  unfold plannedRules
  rw [rulesToCreate_analyzeCluster, rulesToCreate_analyzeCluster]
  rfl

end Cluster

/-! ## One cycle, and a second one -/

section Converged

variable {cfg : Config} {req : RunRequest} {db db' : Db} {t t' : Tree}

/-- A second cycle plans for every cluster what the first one planned. -/
theorem Cycle.plannedRules_again (h : Cycle cfg req db t db' t') {c c' : ClusterObj}
    (hext : Extends cfg db req.analysisType c c') :
    plannedRules cfg db' req.analysisType c' = plannedRules cfg db req.analysisType c := by
  rw [← hext.plannedRules_eq]
  unfold plannedRules
  rw [h.patternList_eq]

theorem nothingToDo_of_converged (hd : DistinctClusters t) (h : Cycle cfg req db t db' t')
    (hconv : Converged cfg req db t db' t') : NothingToDo cfg db req.analysisType t := by
  intro hincludes c hc
  obtain ⟨i, hi, rfl⟩ := List.getElem_of_mem hc
  have hi' : i < t'.clusters.length := (h.extends hd).length_eq ▸ hi
  have hext := (h.extends hd).get hi hi'
  constructor
  · -- the planned rules alone, and also after the old managed ones
    have hperm := ((hconv.managed hincludes).get hi hi').symm.trans hext.rules.2.1
    rw [← List.nil_append (List.map plannedView _)] at hperm
    exact List.map_eq_nil_iff.mp (List.nil_perm.mp ((List.perm_append_right_iff _).mp hperm))
  · obtain ⟨db'', t'', h'⟩ := h.again
    have hi'' : i < t''.clusters.length := (h'.extends (h.distinct hd)).length_eq ▸ hi'
    have hext' := (h'.extends (h.distinct hd)).get hi' hi''
    -- the rules of the second cycle, although it should change nothing
    have hperm := ((hconv.stable db'' t'' h').get hi' hi'').symm.trans hext'.rules.2.2
    rw [← List.append_nil (List.map ruleView _), List.append_assoc, List.nil_append,
      h.plannedRules_again hext] at hperm
    have hnil : plannedRules cfg db req.analysisType t.clusters[i] = [] :=
      List.map_eq_nil_iff.mp (List.nil_perm.mp ((List.perm_append_left_iff _).mp hperm))
    exact (plannedRules_eq_nil_iff hincludes).mp hnil

theorem converged_of_nothingToDo (hd : DistinctClusters t) (h : Cycle cfg req db t db' t')
    (hnone : NothingToDo cfg db req.analysisType t) : Converged cfg req db t db' t' := by
  have hplan : ∀ c ∈ t.clusters, plannedRules cfg db req.analysisType c = [] := by
    intro c hc
    cases hincludes : includesDrs req.analysisType with
    | false => simp [plannedRules, hincludes]
    | true => exact (plannedRules_eq_nil_iff hincludes).mpr (hnone hincludes c hc).2
  refine ⟨?_, ?_, ?_⟩
  · intro hincludes
    refine List.forall₂_iff_get.mpr ⟨(h.extends hd).length_eq, fun i hi hi' => ?_⟩
    have hmanaged := ((h.extends hd).get hi hi').rules.2.1
    rw [(hnone hincludes _ (List.get_mem _ _)).1] at hmanaged
    exact hmanaged
  · exact (h.extends hd).imp fun _ _ hext => hext.rules.1
  · intro db'' t'' h'
    have hd' := h.distinct hd
    refine List.forall₂_iff_get.mpr ⟨(h'.extends hd').length_eq, fun i hi' hi'' => ?_⟩
    have hi : i < t.clusters.length := (h.extends hd).length_eq.symm ▸ hi'
    have hrules := ((h'.extends hd').get hi' hi'').rules.2.2
    rw [h.plannedRules_again ((h.extends hd).get hi hi'), hplan _ (List.get_mem _ _),
      List.map_nil, List.append_nil] at hrules
    exact hrules

/-- **Analyse-then-apply converges** exactly when it finds no managed rule and plans none. -/
theorem converged_iff (hd : DistinctClusters t) (h : Cycle cfg req db t db' t') :
    Converged cfg req db t db' t' ↔ NothingToDo cfg db req.analysisType t :=
  ⟨nothingToDo_of_converged hd h, converged_of_nothingToDo hd h⟩

end Converged

/-! ## Two web servers on two hosts -/

theorem distinctClusters_webTree : DistinctClusters webTree :=
  ⟨List.nodup_singleton _, List.nodup_singleton _⟩

/-- A cycle for the cluster of two hosts. -/
theorem cycle_webTree : ∃ db' t', Cycle webConfig ⟨1, 1, .full⟩ seededDb webTree db' t' := by
  have hfetch : Fetched (accessTo (getFullInventory webTree)) (seededDb.insertRun ⟨1, 1, .full⟩) 1
      (getFullInventory webTree) := ⟨_, _, rfl, rfl, rfl, rfl⟩
  exact ⟨_, _, Cycle.intro _ (RowOrder.asInserted _) "admin" id rfl hfetch reaches_completedDb⟩

theorem converged_iff_webTree :
    ∃ db' t', Cycle webConfig ⟨1, 1, .full⟩ seededDb webTree db' t' ∧
      (Converged webConfig ⟨1, 1, .full⟩ seededDb webTree db' t' ↔
        NothingToDo webConfig seededDb .full webTree) := by
  obtain ⟨db', t', h⟩ := cycle_webTree
  exact ⟨db', t', h, converged_iff distinctClusters_webTree h⟩

/-- The rule of the first cycle is there a second time after the next one. -/
theorem webTree_diverges :
    ∃ db' t', Cycle webConfig ⟨1, 1, .full⟩ seededDb webTree db' t' ∧
      ¬ Converged webConfig ⟨1, 1, .full⟩ seededDb webTree db' t' := by
  obtain ⟨db', t', h⟩ := cycle_webTree
  refine ⟨db', t', h, fun hconv => ?_⟩
  have hnone := nothingToDo_of_converged distinctClusters_webTree h hconv rfl
  obtain ⟨_, hfew | hall⟩ := hnone _ (List.mem_singleton_self _)
  · exact absurd hfew (by decide)
  · exact absurd (hall (some "WEB")) (by decide)

end VsphereCompliance.Analysis
