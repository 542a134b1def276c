import VsphereCompliance.Analysis.Terminal

/-!
# What the summary counts

The counters of a run come from three places: the loop over the clusters adds up the planned
rules, the storage analysis counts its own lists, and `_do_analysis` puts both into the summary.
The findings are made in a second pass over the same results. `countP_generateFindings` counts
findings of any kind over the results; so the counters agree with the stored findings
(`storesResults_of_completed`).
-/

namespace VsphereCompliance.Engine

/-! ## The records behind the findings -/

/-- The records of one cluster result. -/
def ClusterResult.records (cluster : ClusterResult) : List Details :=
  cluster.skippedGroups.map .skip ++ cluster.rulesToCreate.map .rule

def DrsResults.records (drs : DrsResults) : List Details :=
  drs.clusters.flatMap ClusterResult.records

def StorageResults.records (storage : StorageResults) : List Details :=
  storage.violations.map .violation ++ storage.scatteredVms.map .scattered

/-- **Every finding carries its record**, in the order of the results. -/
theorem map_details_generateFindings (drs : Option DrsResults) (storage : Option StorageResults)
    (runId : Nat) : (generateFindings drs storage runId).map NewFinding.details =
      drs.elim [] DrsResults.records ++ storage.elim [] StorageResults.records := by
  have hcluster : ∀ cluster, (clusterFindings runId cluster).map NewFinding.details =
      cluster.records := by
    intro cluster
    rw [clusterFindings, List.map_append, List.map_map, List.map_map]
    rfl
  unfold generateFindings
  rw [List.map_append]
  congr 1
  · cases drs with
    | none => rfl
    | some drs =>
      show (drs.clusters.flatMap (clusterFindings runId)).map _ = drs.clusters.flatMap _
      rw [List.map_flatMap]
      simp only [hcluster]
  · cases storage with
    | none => rfl
    | some storage =>
      show (storageFindings runId storage).map _ = storage.records
      rw [storageFindings, List.map_append, List.map_map, List.map_map]
      rfl

/-! ## Counting findings -/

section Counting

variable (p : NewFinding → Bool) (runId : Nat)

theorem countP_drsFindings (drs : DrsResults) :
    (drsFindings runId drs).countP p = (drs.clusters.map fun cluster =>
      cluster.skippedGroups.countP (p ∘ skipFinding runId cluster) +
        cluster.rulesToCreate.countP (p ∘ ruleFinding runId cluster)).sum := by
  unfold drsFindings
  rw [List.countP_flatMap]
  congr 1
  apply List.map_congr_left
  intro cluster _
  simp only [Function.comp_apply, clusterFindings, List.countP_append, List.countP_map]

theorem countP_storageFindings (storage : StorageResults) :
    (storageFindings runId storage).countP p =
      storage.violations.countP (p ∘ violationFinding runId) +
        storage.scatteredVms.countP (p ∘ scatteredFinding runId) := by
  simp only [storageFindings, List.countP_append, List.countP_map]

/-- **A count over the findings** is a count over the results. -/
theorem countP_generateFindings (drs : Option DrsResults) (storage : Option StorageResults) :
    (generateFindings drs storage runId).countP p =
      drs.elim 0 (fun drs => (drs.clusters.map fun cluster =>
        cluster.skippedGroups.countP (p ∘ skipFinding runId cluster) +
          cluster.rulesToCreate.countP (p ∘ ruleFinding runId cluster)).sum) +
      storage.elim 0 fun storage => storage.violations.countP (p ∘ violationFinding runId) +
        storage.scatteredVms.countP (p ∘ scatteredFinding runId) := by
  unfold generateFindings
  rw [List.countP_append]
  congr 1
  · cases drs with
    | none => rfl
    | some drs => exact countP_drsFindings p runId drs
  · cases storage with
    | none => rfl
    | some storage => exact countP_storageFindings p runId storage

end Counting

/-- The loop over the clusters adds up the planned rules. -/
theorem totalRulesToCreate_analyzeDrsCompliance (search : Search) (inventory : Inventory)
    (patterns : List Pattern) :
    (analyzeDrsCompliance search inventory patterns).totalRulesToCreate =
      ((analyzeDrsCompliance search inventory patterns).clusters.map fun cluster =>
        cluster.rulesToCreate.length).sum := by
  unfold analyzeDrsCompliance
  apply List.foldlRecOn
    (motive := fun results : DrsResults => results.totalRulesToCreate =
      (results.clusters.map fun cluster => cluster.rulesToCreate.length).sum)
  · rfl
  · intro results ih c _
    simp [ih]

end VsphereCompliance.Engine

namespace VsphereCompliance.Analysis

open Engine Store

/-! ## The counters of a summary -/

/-- The four counters are numbers of findings; an absent entry counts as 0. -/
structure CountsFindings (summary : RunSummary) (findings : List NewFinding) : Prop where
  rulesToCreate : summary.drs.elim 0 DrsSummary.rulesToCreate =
    findings.countP fun f => f.findingType = .drsRuleNeeded
  totalViolations : summary.storage.elim 0 StorageSummary.totalViolations =
    findings.countP fun f => f.findingType = .storageShared
  criticalViolations : summary.storage.elim 0 StorageSummary.criticalViolations =
    findings.countP fun f => f.severity = .critical
  totalScatteredVms : summary.storage.elim 0 StorageSummary.totalScatteredVms =
    findings.countP fun f => f.findingType = .storageScattered

/-- The counters of the results are the lengths of their lists. -/
structure Results.Counted (r : Results) : Prop where
  drs : ∀ drs ∈ r.drs, drs.totalRulesToCreate =
    (drs.clusters.map fun cluster => cluster.rulesToCreate.length).sum
  storage : ∀ storage ∈ r.storage,
    storage.summary.totalViolations = storage.violations.length ∧
    storage.summary.totalScatteredVms = storage.scatteredVms.length ∧
    storage.summary.criticalViolations = storage.violations.countP fun v => v.severity = .critical

theorem counted_analyze (cfg : Config) (type : AnalysisType) (inventory : Inventory)
    (patterns : List Pattern) : (analyze cfg type inventory patterns).Counted := by
  refine ⟨?_, ?_⟩
  · intro drs hdrs
    obtain ⟨_, hsome⟩ := Option.ite_none_right_eq_some.mp hdrs
    obtain rfl := Option.some.inj hsome
    exact totalRulesToCreate_analyzeDrsCompliance cfg.search inventory patterns
  · intro storage hstorage
    obtain ⟨_, hsome⟩ := Option.ite_none_right_eq_some.mp hstorage
    obtain rfl := Option.some.inj hsome
    exact ⟨rfl, rfl, List.countP_eq_length_filter.symm⟩

/-- A counter of the storage analysis counts findings that are not about rules. -/
theorem Results.elim_storage_eq_countP (r : Results) (runId : Nat) {counter : StorageSummary → Nat}
    {p : NewFinding → Bool} (hskip : ∀ cluster skip, p (skipFinding runId cluster skip) = false)
    (hrule : ∀ cluster rule, p (ruleFinding runId cluster rule) = false)
    (hcounter : ∀ storage ∈ r.storage, counter storage.summary =
      storage.violations.countP (p ∘ violationFinding runId) +
        storage.scatteredVms.countP (p ∘ scatteredFinding runId)) :
    (summaryOf r).storage.elim 0 counter =
      (generateFindings r.drs r.storage runId).countP p := by
  have hdrs : (generateFindings r.drs r.storage runId).countP p =
      r.storage.elim 0 fun storage => storage.violations.countP (p ∘ violationFinding runId) +
        storage.scatteredVms.countP (p ∘ scatteredFinding runId) := by
    rw [countP_generateFindings]
    cases r.drs with
    | none => simp
    | some drs => simp [Function.comp_def, hskip, hrule]
  rw [hdrs, summaryOf]
  cases hstorage : r.storage with
  | none => rfl
  | some storage => exact hcounter storage hstorage

/-- **The summary counts the findings that are generated.** -/
theorem Results.Counted.countsFindings {r : Results} (h : r.Counted) (runId : Nat) :
    CountsFindings (summaryOf r) (generateFindings r.drs r.storage runId) := by
  refine ⟨?_, ?_, ?_, ?_⟩
  · rw [countP_generateFindings]
    show r.drs.elim 0 DrsResults.totalRulesToCreate = _
    cases hdrs : r.drs with
    | none => cases r.storage <;> simp [Function.comp_def, violationFinding, scatteredFinding]
    | some drs =>
      rw [Option.elim_some, h.drs drs hdrs]
      cases r.storage <;>
        simp [Function.comp_def, skipFinding, ruleFinding, violationFinding, scatteredFinding]
  · refine r.elim_storage_eq_countP runId (by simp [skipFinding]) (by simp [ruleFinding]) ?_
    intro storage hstorage
    simp [(h.storage storage hstorage).1, Function.comp_def, violationFinding, scatteredFinding]
  · refine r.elim_storage_eq_countP runId (by simp [skipFinding]) (by simp [ruleFinding]) ?_
    intro storage hstorage
    have hscattered : storage.scatteredVms.countP
        ((fun f => decide (f.severity = .critical)) ∘ scatteredFinding runId) = 0 := by
      simp [scatteredFinding]
    rw [hscattered, Nat.add_zero]
    exact (h.storage storage hstorage).2.2
  · refine r.elim_storage_eq_countP runId (by simp [skipFinding]) (by simp [ruleFinding]) ?_
    intro storage hstorage
    simp [(h.storage storage hstorage).2.1, Function.comp_def, violationFinding,
      scatteredFinding]

/-! ## What a completed run has stored -/

/-- The records of the engine in the order in which the findings are stored. -/
def Results.records (r : Results) : List Details :=
  r.drs.elim [] DrsResults.records ++ r.storage.elim [] StorageResults.records

/-- The findings of the run carry the records of the results one by one, and the summary of the
run counts them. -/
structure StoresResults (db : Db) (runId : Nat) (r : Results) : Prop where
  details : (db.findingsOf runId).map (fun f => f.details) = r.records
  summary : ∃ run summary, db.runs.find? runId = some run ∧ run.summary = some summary ∧
    CountsFindings summary ((db.findingsOf runId).map AnalysisFinding.toNewFinding)

section Completed

variable {cfg : Config} {access : Access} {db : Db} {runId vcenterId : Nat}
  {type : AnalysisType} {run : AnalysisRun}

/-- **A run that completes** has stored the results of the inventory it fetched. -/
theorem storesResults_of_completed (hrun : db.runs.find? runId = some run)
    (hstatus : run.status = .running) (hnone : db.findingsOf runId = []) {ended : AnalysisRun}
    (hended : (doAnalysis cfg access db runId vcenterId type).1.runs.find? runId = some ended)
    (hcompleted : ended.status = .completed) :
    ∃ inventory, Fetched access db vcenterId inventory ∧
      StoresResults (doAnalysis cfg access db runId vcenterId type).1 runId
        (analyze cfg type inventory (patternList cfg db)) := by
  cases h : fetchInventory access (db.connection vcenterId) with
  | error e =>
    rw [doAnalysis_error hrun h, Db.find?_finishRun (.failed e) hrun] at hended
    cases hended
    cases hcompleted
  | ok inventory =>
    by_cases hfit : ∀ f ∈ findingsFor cfg db runId type inventory, FitsColumns f
    · obtain ⟨hacc, heq⟩ := doAnalysis_completed hrun h hfit
      rw [heq]
      have hinsert : (db.insertFindings (findingsFor cfg db runId type inventory)
          hacc).runs.find? runId = some run := hrun
      have hfindings : ((db.insertFindings (findingsFor cfg db runId type inventory)
          hacc).findingsOf runId).map AnalysisFinding.toNewFinding =
            findingsFor cfg db runId type inventory := by
        rw [Db.findingsOf_insertFindings hacc fun f hf => analysisRunId_of_mem_generateFindings hf,
          hnone, List.nil_append, Db.map_findingRow]
      refine ⟨inventory, fetchInventory_eq_ok_iff.mp h, ?_, _, _, Db.find?_finishRun _ hinsert,
        rfl, ?_⟩
      · rw [Db.findingsOf_finishRun, Results.records, ← map_details_generateFindings _ _ runId]
        have hdetails := congrArg (List.map NewFinding.details) hfindings
        rw [List.map_map] at hdetails
        exact hdetails
      · rw [Db.findingsOf_finishRun, hfindings]
        exact (counted_analyze cfg type inventory (patternList cfg db)).countsFindings runId
    · -- a rejected run stays as it was
      rw [doAnalysis_rejected hrun h hfit, hrun] at hended
      cases hended
      rw [hstatus] at hcompleted
      cases hcompleted

end Completed

end VsphereCompliance.Analysis
