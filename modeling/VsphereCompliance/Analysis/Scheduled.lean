import VsphereCompliance.Analysis.Terminal

/-!
# The scheduled analysis

`runScheduledAnalysis` is `run_scheduled_analysis`: one session, and a loop that makes a full
analysis of every active connection. The steps of a connection are inside a `try`, but the
commit behind them is not: a rejected commit ends the whole call.

`scheduledReport` says of one connection what its run leaves, and `scheduledStep_spec` that one
pass of the loop leaves just that and touches nothing else. `scheduledLoop_spec` is the same for
the whole loop, which stops behind the first connection whose findings are rejected
(`reached`).
-/

namespace VsphereCompliance.Store.Db

/-- What `run_scheduled_analysis` writes into a new run. -/
def newScheduledRun (id vcenterId : Nat) : AnalysisRun where
  id := id
  vcenterId := some vcenterId
  triggeredBy := none
  analysisType := .full
  status := .running
  summary := none
  errorMessage := none

/-- Insert the run of a scheduled analysis; its id is `db.runs.next`. -/
def insertScheduledRun (db : Db) (vcenterId : Nat) : Db :=
  { db with
    runs := db.runs.insertRows newScheduledRun (fun _ _ => rfl) [vcenterId]
    hasRun := by
      intro f hf
      obtain ⟨r, hr, hid⟩ := db.hasRun f hf
      exact ⟨r, List.mem_append_left _ hr, hid⟩ }

theorem find?_insertScheduledRun (db : Db) (vcenterId : Nat) :
    (db.insertScheduledRun vcenterId).runs.find? db.runs.next =
      some (newScheduledRun db.runs.next vcenterId) :=
  Table.find?_eq_some_iff.mpr ⟨List.mem_append_right _ (List.mem_singleton_self _), rfl⟩

/-- Finishing the newest run changes its row and no other. -/
theorem rows_finishRun_insertScheduledRun (db : Db) (vcenterId : Nat) (o : RunOutcome) :
    ((db.insertScheduledRun vcenterId).finishRun db.runs.next o).runs.rows =
      db.runs.rows ++ [o.write (newScheduledRun db.runs.next vcenterId)] := by
  refine Table.rows_update_insertRows (fun _ _ => rfl) (fun r => o.id_write r) ?_ ?_
  · intro r hr
    have hlt := db.runs.key_lt r hr
    exact decide_eq_false (by omega)
  · intro r hr
    obtain rfl := List.mem_singleton.mp hr
    exact decide_eq_true rfl

end VsphereCompliance.Store.Db

namespace VsphereCompliance.Analysis

open Engine Store

/-! ## The loop -/

/-- The `summary` that the scheduled analysis stores: the results of the DRS analysis have no
entry `summary`, so `drs.get("summary", {})` is `{}`. -/
def scheduledSummary (storage : StorageResults) : RunSummary where
  drs := none
  storage := some storage.summary

/-- The loop body for one connection. -/
def scheduledStep (cfg : Config) (access : Access) (db : Db) (vcenterId : Nat) : Db × Ended :=
  let runId := db.runs.next
  let db := db.insertScheduledRun vcenterId
  match fetchInventory access (db.connection vcenterId) with
  | .error e => (db.finishRun runId (.failed e), .returned)
  | .ok inventory =>
    let patterns := patternList cfg db
    let drs := analyzeDrsCompliance cfg.search inventory patterns
    let storage := analyzeStorageCompliance cfg.search cfg.setOrder inventory patterns
    let findings := generateFindings (some drs) (some storage) runId
    -- the commit is outside of the `try`
    if h : ∀ f ∈ findings, Accepts db f then
      ((db.insertFindings findings fun f hf =>
        ⟨coherent_of_mem_generateFindings hf, (h f hf).2⟩).finishRun runId
          (.completed (scheduledSummary storage)), .returned)
    else (db, .raised)

def scheduledLoop (cfg : Config) (access : Access) : Db → List Nat → Db × Ended
  | db, [] => (db, .returned)
  | db, vcenterId :: rest =>
    match scheduledStep cfg access db vcenterId with
    | (db, .returned) => scheduledLoop cfg access db rest
    | (db, .raised) => (db, .raised)

/-- The ids of the active connections. -/
def activeConnections (order : RowOrder VCenterConnection) (db : Db) : List Nat :=
  (order.arrange (db.connections.rows.filter VCenterConnection.isActive)).map
    VCenterConnection.id

/-- `run_scheduled_analysis`. -/
def runScheduledAnalysis (cfg : Config) (order : RowOrder VCenterConnection) (access : Access)
    (db : Db) : Db × Ended :=
  scheduledLoop cfg access db (activeConnections order db)

/-! ## What a run leaves -/

/-- The finding without the run it belongs to. -/
def forgetRun (f : NewFinding) : NewFinding := { f with analysisRunId := 0 }

theorem map_forgetRun_generateFindings (drs : Option DrsResults)
    (storage : Option StorageResults) (runId : Nat) :
    (generateFindings drs storage runId).map forgetRun = generateFindings drs storage 0 := by
  unfold generateFindings
  rw [List.map_append]
  congr 1
  · cases drs with
    | none => rfl
    | some drs =>
      show (drs.clusters.flatMap _).map forgetRun = drs.clusters.flatMap _
      rw [List.map_flatMap]
      congr 1
      funext cluster
      unfold clusterFindings
      rw [List.map_append, List.map_map, List.map_map]
      rfl
  · cases storage with
    | none => rfl
    | some storage =>
      show (storageFindings runId storage).map forgetRun = storageFindings 0 storage
      unfold storageFindings
      rw [List.map_append, List.map_map, List.map_map]
      rfl

/-- The findings that a run without findings inserts. -/
theorem map_forgetRun_insertFindings {db : Db} {drs : Option DrsResults}
    {storage : Option StorageResults} {run : Nat}
    (hacc : ∀ f ∈ generateFindings drs storage run,
      f.Coherent ∧ ∃ r ∈ db.runs.rows, r.id = f.analysisRunId)
    (hnone : db.findingsOf run = []) :
    ((db.insertFindings (generateFindings drs storage run) hacc).findingsOf run).map
      (fun f => forgetRun f.toNewFinding) = generateFindings drs storage 0 := by
  have hrow : ∀ n xs, (Table.newRows Db.findingRow n xs).map
      (fun f => forgetRun f.toNewFinding) = xs.map forgetRun :=
    Table.map_newRows fun _ _ => rfl
  rw [Db.findingsOf_insertFindings hacc fun f hf => analysisRunId_of_mem_generateFindings hf,
    hnone, List.nil_append, hrow, map_forgetRun_generateFindings]

/-- The status and the summary of a run, and its findings up to the id of the run. -/
structure RunReport where
  status : AnalysisStatus
  summary : Option RunSummary
  findings : List NewFinding
  deriving DecidableEq

def reportOf (db : Db) (run : AnalysisRun) : RunReport where
  status := run.status
  summary := run.summary
  findings := (db.findingsOf run.id).map fun f => forgetRun f.toNewFinding

/-- What the run of a connection leaves, as the connection and the patterns determine it. -/
def scheduledReport (cfg : Config) (access : Access) (db : Db) (vcenterId : Nat) : RunReport :=
  match fetchInventory access (db.connection vcenterId) with
  | .error _ => ⟨.failed, none, []⟩
  | .ok inventory =>
    if ∀ f ∈ findingsFor cfg db 0 .full inventory, FitsColumns f then
      ⟨.completed,
        some (scheduledSummary (analyzeStorageCompliance cfg.search cfg.setOrder inventory
          (patternList cfg db))),
        findingsFor cfg db 0 .full inventory⟩
    else ⟨.running, none, []⟩

/-- The steps of the connection succeed, and PostgreSQL rejects the findings. -/
def Rejected (cfg : Config) (access : Access) (db : Db) (vcenterId : Nat) : Prop :=
  ∃ inventory, Fetched access db vcenterId inventory ∧
    ¬ RowsFit cfg.search .full (patternList cfg db) inventory

theorem fits_findingsFor_iff (cfg : Config) (db : Db) (runId : Nat) (inventory : Inventory) :
    (∀ f ∈ findingsFor cfg db runId .full inventory, FitsColumns f) ↔
      RowsFit cfg.search .full (patternList cfg db) inventory :=
  fits_generateFindings_iff cfg .full runId (patternList cfg db) inventory

section Step

variable {cfg : Config} {access : Access} {db : Db} {vcenterId : Nat}

theorem scheduledReport_eq {inventory : Inventory}
    (h : fetchInventory access (db.connection vcenterId) = .ok inventory) :
    scheduledReport cfg access db vcenterId =
      if ∀ f ∈ findingsFor cfg db 0 .full inventory, FitsColumns f then
        ⟨.completed,
          some (scheduledSummary (analyzeStorageCompliance cfg.search cfg.setOrder inventory
            (patternList cfg db))),
          findingsFor cfg db 0 .full inventory⟩
      else ⟨.running, none, []⟩ := by
  unfold scheduledReport
  rw [h]

/-- The run stays `running` exactly when its findings are rejected. -/
theorem status_scheduledReport_eq_running_iff :
    (scheduledReport cfg access db vcenterId).status = .running ↔
      Rejected cfg access db vcenterId := by
  cases h : fetchInventory access (db.connection vcenterId) with
  | error e =>
    refine ⟨?_, ?_⟩
    · intro hstatus
      unfold scheduledReport at hstatus
      rw [h] at hstatus
      cases hstatus
    · intro hrejected
      obtain ⟨inventory, hfetch, _⟩ := hrejected
      rw [fetchInventory_eq_ok_iff.mpr hfetch] at h
      cases h
  | ok inventory =>
    have hfit := fits_findingsFor_iff cfg db 0 inventory
    rw [scheduledReport_eq h]
    refine ⟨?_, ?_⟩
    · intro hstatus
      refine ⟨inventory, fetchInventory_eq_ok_iff.mp h, ?_⟩
      intro hrows
      rw [if_pos (hfit.mpr hrows)] at hstatus
      cases hstatus
    · intro hrejected
      obtain ⟨inventory', hfetch, hrows⟩ := hrejected
      rw [fetchInventory_eq_ok_iff.mpr hfetch] at h
      obtain rfl := Except.ok.inj h
      rw [if_neg fun hall => hrows (hfit.mp hall)]

/-- A run that is not left `running` has ended. -/
theorem status_scheduledReport (h : ¬ Rejected cfg access db vcenterId) :
    (scheduledReport cfg access db vcenterId).status = .completed ∨
      (scheduledReport cfg access db vcenterId).status = .failed := by
  rw [← status_scheduledReport_eq_running_iff] at h
  revert h
  unfold scheduledReport
  split
  · exact fun _ => Or.inr rfl
  · split
    · exact fun _ => Or.inl rfl
    · exact fun h => absurd rfl h

theorem scheduledStep_error {e : String}
    (h : fetchInventory access (db.connection vcenterId) = .error e) :
    scheduledStep cfg access db vcenterId =
      ((db.insertScheduledRun vcenterId).finishRun db.runs.next (.failed e), .returned) := by
  have h' : fetchInventory access ((db.insertScheduledRun vcenterId).connection vcenterId) =
      .error e := h
  unfold scheduledStep
  dsimp only
  rw [h']

theorem scheduledStep_rejected {inventory : Inventory}
    (h : fetchInventory access (db.connection vcenterId) = .ok inventory)
    (hfit : ¬ RowsFit cfg.search .full (patternList cfg db) inventory) :
    scheduledStep cfg access db vcenterId = (db.insertScheduledRun vcenterId, .raised) := by
  have h' : fetchInventory access ((db.insertScheduledRun vcenterId).connection vcenterId) =
      .ok inventory := h
  rw [← fits_findingsFor_iff cfg db db.runs.next] at hfit
  have hacc : (∀ f ∈ findingsFor cfg (db.insertScheduledRun vcenterId) db.runs.next .full
      inventory, Accepts (db.insertScheduledRun vcenterId) f) ↔ _ :=
    accepts_findingsFor_iff (Db.find?_insertScheduledRun db vcenterId) inventory
  unfold scheduledStep
  dsimp only
  rw [h']
  exact dif_neg fun hall => hfit (hacc.mp hall)

theorem scheduledStep_completed {inventory : Inventory}
    (h : fetchInventory access (db.connection vcenterId) = .ok inventory)
    (hfit : RowsFit cfg.search .full (patternList cfg db) inventory) :
    ∃ hacc, scheduledStep cfg access db vcenterId =
      (((db.insertScheduledRun vcenterId).insertFindings
          (findingsFor cfg db db.runs.next .full inventory) hacc).finishRun db.runs.next
        (.completed (scheduledSummary (analyzeStorageCompliance cfg.search cfg.setOrder
          inventory (patternList cfg db)))), .returned) := by
  have h' : fetchInventory access ((db.insertScheduledRun vcenterId).connection vcenterId) =
      .ok inventory := h
  rw [← fits_findingsFor_iff cfg db db.runs.next] at hfit
  have hall := (accepts_findingsFor_iff (Db.find?_insertScheduledRun db vcenterId)
    inventory).mpr hfit
  refine ⟨fun f hf => ⟨coherent_of_mem_generateFindings hf, (hall f hf).2⟩, ?_⟩
  unfold scheduledStep
  dsimp only
  rw [h']
  exact dif_pos hall

/-- What one pass of the loop leaves: one new run with the report of its connection. -/
structure StepLeaves (cfg : Config) (access : Access) (db : Db) (vcenterId : Nat)
    (out : Db × Ended) : Prop where
  run : ∃ run, out.1.runs.rows = db.runs.rows ++ [run] ∧ run.id = db.runs.next ∧
    run.vcenterId = some vcenterId ∧ reportOf out.1 run = scheduledReport cfg access db vcenterId
  next : out.1.runs.next = db.runs.next + 1
  findings : ∀ id < db.runs.next, out.1.findingsOf id = db.findingsOf id
  connections : out.1.connections = db.connections
  patterns : out.1.patterns = db.patterns
  ended : out.2 = .returned ↔ ¬ Rejected cfg access db vcenterId

theorem stepLeaves_of_error {e : String}
    (h : fetchInventory access (db.connection vcenterId) = .error e) :
    StepLeaves cfg access db vcenterId (scheduledStep cfg access db vcenterId) := by
  have hreport : scheduledReport cfg access db vcenterId = ⟨.failed, none, []⟩ := by
    unfold scheduledReport
    rw [h]
  have hended : ¬ Rejected cfg access db vcenterId := by
    rw [← status_scheduledReport_eq_running_iff, hreport]
    intro hstatus
    cases hstatus
  rw [scheduledStep_error h]
  refine ⟨⟨_, Db.rows_finishRun_insertScheduledRun db vcenterId _, rfl, rfl, ?_⟩, rfl,
    fun _ _ => rfl, rfl, rfl, fun _ => hended, fun _ => rfl⟩
  rw [hreport]
  show RunReport.mk _ _ ((db.findingsOf db.runs.next).map _) = _
  rw [db.findingsOf_next]
  rfl

theorem stepLeaves_of_rejected {inventory : Inventory}
    (h : fetchInventory access (db.connection vcenterId) = .ok inventory)
    (hfit : ¬ RowsFit cfg.search .full (patternList cfg db) inventory) :
    StepLeaves cfg access db vcenterId (scheduledStep cfg access db vcenterId) := by
  have hrejected : Rejected cfg access db vcenterId :=
    ⟨inventory, fetchInventory_eq_ok_iff.mp h, hfit⟩
  have hreport : scheduledReport cfg access db vcenterId = ⟨.running, none, []⟩ := by
    rw [scheduledReport_eq h, if_neg fun hall => hfit ((fits_findingsFor_iff cfg db 0 _).mp hall)]
  rw [scheduledStep_rejected h hfit]
  refine ⟨⟨_, rfl, rfl, rfl, ?_⟩, rfl, fun _ _ => rfl, rfl, rfl, ?_⟩
  · rw [hreport]
    show RunReport.mk _ _ ((db.findingsOf db.runs.next).map _) = _
    rw [db.findingsOf_next]
    rfl
  · refine ⟨?_, fun hnot => absurd hrejected hnot⟩
    intro hended
    cases hended

theorem stepLeaves_of_completed {inventory : Inventory}
    (h : fetchInventory access (db.connection vcenterId) = .ok inventory)
    (hfit : RowsFit cfg.search .full (patternList cfg db) inventory) :
    StepLeaves cfg access db vcenterId (scheduledStep cfg access db vcenterId) := by
  have hreport : scheduledReport cfg access db vcenterId = _ := scheduledReport_eq h
  rw [if_pos ((fits_findingsFor_iff cfg db 0 _).mpr hfit)] at hreport
  have hended : ¬ Rejected cfg access db vcenterId := by
    rw [← status_scheduledReport_eq_running_iff, hreport]
    intro hstatus
    cases hstatus
  obtain ⟨hacc, hout⟩ := scheduledStep_completed h hfit
  have hruns : ∀ f ∈ findingsFor cfg db db.runs.next .full inventory,
      f.analysisRunId = db.runs.next :=
    fun f hf => analysisRunId_of_mem_generateFindings hf
  rw [hout]
  refine ⟨⟨_, Db.rows_finishRun_insertScheduledRun db vcenterId _, rfl, rfl, ?_⟩, rfl, ?_, rfl,
    rfl, fun _ => hended, fun _ => rfl⟩
  · rw [hreport]
    show RunReport.mk _ _ ((((db.insertScheduledRun vcenterId).insertFindings _ hacc).findingsOf
      db.runs.next).map _) = _
    exact congrArg (RunReport.mk _ _) (map_forgetRun_insertFindings hacc db.findingsOf_next)
  · intro id hid
    refine Db.findingsOf_insertFindings_of_ne hacc ?_
    intro f hf
    have heq := hruns f hf
    omega

/-- **One pass of the loop.** -/
theorem scheduledStep_spec (cfg : Config) (access : Access) (db : Db) (vcenterId : Nat) :
    StepLeaves cfg access db vcenterId (scheduledStep cfg access db vcenterId) := by
  cases h : fetchInventory access (db.connection vcenterId) with
  | error e => exact stepLeaves_of_error h
  | ok inventory =>
    by_cases hfit : RowsFit cfg.search .full (patternList cfg db) inventory
    · exact stepLeaves_of_completed h hfit
    · exact stepLeaves_of_rejected h hfit

end Step

/-! ## The whole loop -/

/-- The connections that the loop comes to: it stops behind the first rejected one. -/
def reached (cfg : Config) (access : Access) (db : Db) : List Nat → List Nat
  | [] => []
  | vcenterId :: rest =>
    vcenterId :: if (scheduledReport cfg access db vcenterId).status = .running then []
      else reached cfg access db rest

/-- What the loop leaves: one new run for each connection it came to. -/
structure LoopLeaves (cfg : Config) (access : Access) (db : Db) (ids : List Nat) (after : Db) :
    Prop where
  runs : ∃ new, after.runs.rows = db.runs.rows ++ new ∧
    (∀ run ∈ new, db.runs.next ≤ run.id) ∧
    new.map (fun run => (run.vcenterId, reportOf after run)) =
      (reached cfg access db ids).map fun id => (some id, scheduledReport cfg access db id)
  next : db.runs.next ≤ after.runs.next
  findings : ∀ id < db.runs.next, after.findingsOf id = db.findingsOf id
  connections : after.connections = db.connections
  patterns : after.patterns = db.patterns

section Loop

variable {cfg : Config} {access : Access} {db : Db}

/-- The report of a connection does not look at the runs. -/
theorem scheduledReport_congr {db' : Db} (hconnections : db'.connections = db.connections)
    (hpatterns : db'.patterns = db.patterns) :
    scheduledReport cfg access db' = scheduledReport cfg access db := by
  funext vcenterId
  unfold scheduledReport findingsFor patternList Db.activePatterns Db.connection
  rw [hconnections, hpatterns]

theorem reached_congr {db' : Db} (hconnections : db'.connections = db.connections)
    (hpatterns : db'.patterns = db.patterns) (ids : List Nat) :
    reached cfg access db' ids = reached cfg access db ids := by
  have hreport : scheduledReport cfg access db' = scheduledReport cfg access db :=
    scheduledReport_congr hconnections hpatterns
  induction ids with
  | nil => rfl
  | cons vcenterId rest ih => rw [reached, reached, ih, hreport]

/-- A report depends on the row of the run and on its findings. -/
theorem reportOf_congr {db' : Db} {run : AnalysisRun}
    (h : db'.findingsOf run.id = db.findingsOf run.id) : reportOf db' run = reportOf db run := by
  unfold reportOf
  rw [h]

theorem scheduledLoop_cons_returned {vcenterId : Nat} (rest : List Nat)
    (h : (scheduledStep cfg access db vcenterId).2 = .returned) :
    scheduledLoop cfg access db (vcenterId :: rest) =
      scheduledLoop cfg access (scheduledStep cfg access db vcenterId).1 rest := by
  rw [scheduledLoop]
  cases hout : scheduledStep cfg access db vcenterId with
  | mk db' ended =>
    rw [hout] at h
    subst h
    rfl

theorem scheduledLoop_cons_raised {vcenterId : Nat} (rest : List Nat)
    (h : (scheduledStep cfg access db vcenterId).2 = .raised) :
    scheduledLoop cfg access db (vcenterId :: rest) = scheduledStep cfg access db vcenterId := by
  rw [scheduledLoop]
  cases hout : scheduledStep cfg access db vcenterId with
  | mk db' ended =>
    rw [hout] at h
    subst h
    rfl

/-- The pass that the loop stops behind. -/
theorem LoopLeaves.of_raised {vcenterId : Nat} {out : Db × Ended} (rest : List Nat)
    (h : StepLeaves cfg access db vcenterId out) (hended : out.2 = .raised) :
    LoopLeaves cfg access db (vcenterId :: rest) out.1 := by
  obtain ⟨run, hrows, hid, hvcenter, hreport⟩ := h.run
  have hnext := h.next
  have hstatus : (scheduledReport cfg access db vcenterId).status = .running := by
    rw [status_scheduledReport_eq_running_iff]
    by_contra hnot
    rw [h.ended.mpr hnot] at hended
    cases hended
  refine ⟨⟨[run], hrows, ?_, ?_⟩, by omega, h.findings, h.connections, h.patterns⟩
  · intro r hr
    obtain rfl := List.mem_singleton.mp hr
    omega
  · rw [reached, if_pos hstatus, List.map_singleton, List.map_singleton, hvcenter, hreport]

/-- A pass, and what the loop leaves behind it. -/
theorem LoopLeaves.cons {vcenterId : Nat} {out : Db × Ended} {rest : List Nat} {after : Db}
    (h : StepLeaves cfg access db vcenterId out) (hended : out.2 = .returned)
    (hrest : LoopLeaves cfg access out.1 rest after) :
    LoopLeaves cfg access db (vcenterId :: rest) after := by
  obtain ⟨run, hrows, hid, hvcenter, hreport⟩ := h.run
  obtain ⟨new, hafter, hnew, hreports⟩ := hrest.runs
  have hnext := h.next
  have hlater := hrest.next
  have hstatus : (scheduledReport cfg access db vcenterId).status ≠ .running := by
    rw [Ne, status_scheduledReport_eq_running_iff]
    exact h.ended.mp hended
  refine ⟨⟨run :: new, ?_, ?_, ?_⟩, by omega, ?_, hrest.connections.trans h.connections,
    hrest.patterns.trans h.patterns⟩
  · rw [hafter, hrows, List.append_assoc, List.singleton_append]
  · intro r hr
    rcases List.mem_cons.mp hr with rfl | hr
    · omega
    · have hle := hnew r hr
      omega
  · have hrun : reportOf after run = reportOf out.1 run :=
      reportOf_congr (hrest.findings run.id (by omega))
    rw [reached, if_neg hstatus, List.map_cons, List.map_cons, hreports, hvcenter, hrun, hreport,
      reached_congr h.connections h.patterns, scheduledReport_congr h.connections h.patterns]
  · intro id hlt
    rw [hrest.findings id (by omega), h.findings id hlt]

/-- **The whole loop.** -/
theorem scheduledLoop_spec (cfg : Config) (access : Access) (db : Db) (ids : List Nat) :
    LoopLeaves cfg access db ids (scheduledLoop cfg access db ids).1 := by
  induction ids generalizing db with
  | nil =>
    exact ⟨⟨[], (List.append_nil _).symm, fun _ hr => absurd hr List.not_mem_nil, rfl⟩,
      Nat.le_refl _, fun _ _ => rfl, rfl, rfl⟩
  | cons vcenterId rest ih =>
    have hstep := scheduledStep_spec cfg access db vcenterId
    cases hended : (scheduledStep cfg access db vcenterId).2 with
    | raised =>
      rw [scheduledLoop_cons_raised rest hended]
      exact LoopLeaves.of_raised rest hstep hended
    | returned =>
      rw [scheduledLoop_cons_returned rest hended]
      exact LoopLeaves.cons hstep hended (ih _)

end Loop

end VsphereCompliance.Analysis
