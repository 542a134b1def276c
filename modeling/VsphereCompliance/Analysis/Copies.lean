import VsphereCompliance.Analysis.Isolation

/-!
# The two copies of a full analysis

`_do_analysis` and `run_scheduled_analysis` each have the pipeline written out. On the same
connection and the same patterns they end with the same status and the same findings
(`copies_agree_up_to_summary`), but a completed scheduled run stores an empty `drs` entry where a
manual one stores the counts that the report page shows. `copies_agree_iff` says that the two
runs agree exactly when the run does not complete.
-/

namespace VsphereCompliance.Analysis

open Engine Store

/-- What a triggered full analysis of a connection leaves. -/
def manualReport (cfg : Config) (access : Access) (db : Db) (vcenterId : Nat) : RunReport :=
  match fetchInventory access (db.connection vcenterId) with
  | .error _ => ⟨.failed, none, []⟩
  | .ok inventory =>
    if ∀ f ∈ findingsFor cfg db 0 .full inventory, FitsColumns f then
      ⟨.completed, some (summaryOf (analyze cfg .full inventory (patternList cfg db))),
        findingsFor cfg db 0 .full inventory⟩
    else ⟨.running, none, []⟩

/-! ## The report of a triggered analysis -/

section Manual

variable {cfg : Config} {access : Access} {db : Db} {vcenterId runId : Nat} {run : AnalysisRun}

theorem manualReport_eq {inventory : Inventory}
    (h : fetchInventory access (db.connection vcenterId) = .ok inventory) :
    manualReport cfg access db vcenterId =
      if ∀ f ∈ findingsFor cfg db 0 .full inventory, FitsColumns f then
        ⟨.completed, some (summaryOf (analyze cfg .full inventory (patternList cfg db))),
          findingsFor cfg db 0 .full inventory⟩
      else ⟨.running, none, []⟩ := by
  unfold manualReport
  rw [h]

/-- The report of the run after `_do_analysis`, for a run that was just inserted. -/
theorem exists_report_doAnalysis (cfg : Config) (access : Access) (vcenterId : Nat)
    (hrun : db.runs.find? runId = some run) (hstatus : run.status = .running)
    (hsummary : run.summary = none) (hnone : db.findingsOf runId = []) :
    ∃ after, (doAnalysis cfg access db runId vcenterId .full).1.runs.find? runId = some after ∧
      reportOf (doAnalysis cfg access db runId vcenterId .full).1 after =
        manualReport cfg access db vcenterId := by
  obtain ⟨_, rfl⟩ := Table.find?_eq_some_iff.mp hrun
  cases h : fetchInventory access (db.connection vcenterId) with
  | error e =>
    have hreport : manualReport cfg access db vcenterId = ⟨.failed, none, []⟩ := by
      unfold manualReport
      rw [h]
    rw [doAnalysis_error hrun h, hreport]
    refine ⟨_, Db.find?_finishRun (.failed e) hrun, ?_⟩
    show RunReport.mk _ run.summary ((db.findingsOf run.id).map _) = _
    rw [hsummary, hnone]
    rfl
  | ok inventory =>
    by_cases hfit : ∀ f ∈ findingsFor cfg db run.id .full inventory, FitsColumns f
    · obtain ⟨hacc, hout⟩ := doAnalysis_completed hrun h hfit
      have hinsert : (db.insertFindings (findingsFor cfg db run.id .full inventory)
        hacc).runs.find? run.id = some run := hrun
      rw [fits_findingsFor_iff, ← fits_findingsFor_iff cfg db 0] at hfit
      rw [hout, manualReport_eq h, if_pos hfit]
      refine ⟨_, Db.find?_finishRun _ hinsert, ?_⟩
      exact congrArg (RunReport.mk _ _) (map_forgetRun_insertFindings hacc hnone)
    · rw [doAnalysis_rejected hrun h hfit]
      rw [fits_findingsFor_iff, ← fits_findingsFor_iff cfg db 0] at hfit
      rw [manualReport_eq h, if_neg hfit]
      refine ⟨run, hrun, ?_⟩
      show RunReport.mk run.status run.summary ((db.findingsOf run.id).map _) = _
      rw [hstatus, hsummary, hnone]
      rfl

end Manual

/-! ## Agreement -/

section Agreement

variable {cfg : Config} {access : Access} {db : Db} {vcenterId : Nat}

/-- **The two copies always agree on the status and the findings.** -/
theorem copies_agree_up_to_summary (cfg : Config) (access : Access) (db : Db) (vcenterId : Nat) :
    (manualReport cfg access db vcenterId).status =
        (scheduledReport cfg access db vcenterId).status ∧
      (manualReport cfg access db vcenterId).findings =
        (scheduledReport cfg access db vcenterId).findings := by
  unfold manualReport scheduledReport
  cases fetchInventory access (db.connection vcenterId) with
  | error e => exact ⟨rfl, rfl⟩
  | ok inventory =>
    dsimp only
    split
    · exact ⟨rfl, rfl⟩
    · exact ⟨rfl, rfl⟩

/-- The reports are the same when the run does not complete. -/
theorem manualReport_eq_scheduledReport_iff :
    manualReport cfg access db vcenterId = scheduledReport cfg access db vcenterId ↔
      ∀ inventory, Fetched access db vcenterId inventory →
        ¬ RowsFit cfg.search .full (patternList cfg db) inventory := by
  cases h : fetchInventory access (db.connection vcenterId) with
  | error e =>
    refine ⟨?_, ?_⟩
    · intro _ inventory hfetch
      rw [fetchInventory_eq_ok_iff.mpr hfetch] at h
      cases h
    · intro _
      unfold manualReport scheduledReport
      rw [h]
  | ok inventory =>
    rw [manualReport_eq h, scheduledReport_eq h]
    refine ⟨?_, ?_⟩
    · intro heq inventory' hfetch hrows
      rw [fetchInventory_eq_ok_iff.mpr hfetch] at h
      obtain rfl := Except.ok.inj h
      have hfit := (fits_findingsFor_iff cfg db 0 inventory').mpr hrows
      rw [if_pos hfit, if_pos hfit] at heq
      -- the entry `drs` of the summary
      have hdrs := congrArg (fun report => report.summary.bind RunSummary.drs) heq
      cases hdrs
    · intro hall
      have hrows := hall inventory (fetchInventory_eq_ok_iff.mp h)
      have hfit : ¬ ∀ f ∈ findingsFor cfg db 0 .full inventory, FitsColumns f :=
        fun hall => hrows ((fits_findingsFor_iff cfg db 0 inventory).mp hall)
      rw [if_neg hfit, if_neg hfit]

/-- The scheduled run of a connection has the report of the connection. -/
theorem reportOf_of_mem_newRuns {order : RowOrder VCenterConnection} {run : AnalysisRun}
    (hrun : run ∈ newRuns db (runScheduledAnalysis cfg order access db).1)
    (hvcenter : run.vcenterId = some vcenterId) :
    reportOf (runScheduledAnalysis cfg order access db).1 run =
      scheduledReport cfg access db vcenterId := by
  obtain ⟨_, hreports⟩ := newRuns_spec cfg access db (activeConnections order db)
  obtain ⟨id, _, hid, hreport⟩ := exists_id_of_mem_newRuns hreports hrun
  rw [hvcenter] at hid
  obtain rfl := Option.some.inj hid
  exact hreport

theorem scheduledReport_of_same_data {db' : Db}
    (hconnection : db'.connection vcenterId = db.connection vcenterId)
    (hpatterns : patternList cfg db' = patternList cfg db) :
    scheduledReport cfg access db' vcenterId = scheduledReport cfg access db vcenterId := by
  unfold scheduledReport findingsFor
  rw [hconnection, hpatterns]

/-- **A manual and a scheduled full analysis** of the same connection with the same patterns
agree on status, findings and summary exactly when the run does not complete. -/
theorem copies_agree_iff {order : RowOrder VCenterConnection} {db db' started : Db}
    {req : RunRequest} {runId : Nat} {manual scheduled : AnalysisRun}
    (hconnection : db'.connection req.vcenterId = db.connection req.vcenterId)
    (hpatterns : patternList cfg db' = patternList cfg db)
    (htrigger : triggerAnalysis db req = some (started, runId))
    (hfull : req.analysisType = .full)
    (hmanual : (doAnalysis cfg access started runId req.vcenterId
      req.analysisType).1.runs.find? runId = some manual)
    (hscheduled : scheduled ∈ newRuns db' (runScheduledAnalysis cfg order access db').1)
    (hvcenter : scheduled.vcenterId = some req.vcenterId) :
    reportOf (doAnalysis cfg access started runId req.vcenterId req.analysisType).1 manual =
        reportOf (runScheduledAnalysis cfg order access db').1 scheduled ↔
      ∀ inventory, Fetched access db req.vcenterId inventory →
        ¬ RowsFit cfg.search .full (patternList cfg db) inventory := by
  obtain ⟨_, rfl, rfl⟩ := triggerAnalysis_eq_some_iff.mp htrigger
  rw [hfull] at hmanual ⊢
  obtain ⟨after, hafter, hreport⟩ := exists_report_doAnalysis cfg access req.vcenterId
    (db.find?_insertRun req) rfl rfl db.findingsOf_next
  rw [hmanual] at hafter
  obtain rfl := Option.some.inj hafter
  rw [hreport, reportOf_of_mem_newRuns hscheduled hvcenter,
    scheduledReport_of_same_data hconnection hpatterns]
  exact manualReport_eq_scheduledReport_iff

end Agreement

/-! ## A completed run -/

def emptyInventory : Inventory := ⟨[], [], []⟩

/-- The runs that the two copies make of an empty inventory. -/
def manualRun : AnalysisRun :=
  { Db.newRun 1 ⟨1, 1, .full⟩ with
    status := .completed
    summary := some (summaryOf (analyze webConfig .full emptyInventory
      (patternList webConfig seededDb))) }

def scheduledRun : AnalysisRun :=
  { Db.newScheduledRun 1 1 with
    status := .completed
    summary := some (scheduledSummary (analyzeStorageCompliance webSearch
      (SetOrder.sorted String) emptyInventory (patternList webConfig seededDb))) }

theorem find?_manualRun : (doAnalysis webConfig (accessTo emptyInventory) triggeredDb 1 1
    .full).1.runs.find? 1 = some manualRun := by
  decide

theorem newRuns_scheduledRun : newRuns seededDb (runScheduledAnalysis webConfig
    (RowOrder.asInserted _) (accessTo emptyInventory) seededDb).1 = [scheduledRun] := by
  decide

/-- On the empty inventory the two copies store different summaries. -/
theorem emptyInventory_summaries_differ :
    triggerAnalysis seededDb ⟨1, 1, .full⟩ = some (triggeredDb, 1) ∧
      (doAnalysis webConfig (accessTo emptyInventory) triggeredDb 1 1 .full).1.runs.find? 1 =
        some manualRun ∧
      newRuns seededDb (runScheduledAnalysis webConfig (RowOrder.asInserted _)
        (accessTo emptyInventory) seededDb).1 = [scheduledRun] ∧
      reportOf (doAnalysis webConfig (accessTo emptyInventory) triggeredDb 1 1 .full).1
          manualRun ≠
        reportOf (runScheduledAnalysis webConfig (RowOrder.asInserted _)
          (accessTo emptyInventory) seededDb).1 scheduledRun := by
  refine ⟨rfl, find?_manualRun, newRuns_scheduledRun, ?_⟩
  intro heq
  have hdrs := congrArg (fun report => report.summary.bind RunSummary.drs) heq
  cases hdrs

theorem copies_agree_iff_emptyInventory :
    reportOf (doAnalysis webConfig (accessTo emptyInventory) triggeredDb 1 1 .full).1
          manualRun =
        reportOf (runScheduledAnalysis webConfig (RowOrder.asInserted _)
          (accessTo emptyInventory) seededDb).1 scheduledRun ↔
      ∀ inventory, Fetched (accessTo emptyInventory) seededDb 1 inventory →
        ¬ RowsFit webConfig.search .full (patternList webConfig seededDb) inventory := by
  have hscheduled : scheduledRun ∈ newRuns seededDb (runScheduledAnalysis webConfig
      (RowOrder.asInserted _) (accessTo emptyInventory) seededDb).1 := by
    rw [newRuns_scheduledRun]
    exact List.mem_singleton_self _
  have htrigger : triggerAnalysis seededDb ⟨1, 1, .full⟩ = some (triggeredDb, 1) := rfl
  exact copies_agree_iff rfl rfl htrigger rfl find?_manualRun hscheduled rfl

end VsphereCompliance.Analysis
