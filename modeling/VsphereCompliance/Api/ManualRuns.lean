import VsphereCompliance.Analysis.Scheduled
import VsphereCompliance.Analysis.SummaryCounts
import VsphereCompliance.Api.Roles

/-!
# Manual runs

Between the request that inserts a run and the background task that makes its analysis, other
requests, other tasks and scheduled analyses take their turns. The run of a waiting task stays
`running` and without findings (`TasksWait`), whatever they do. So when the task completes the
run, its findings and its summary are those of this one analysis (`completed_run_counts`).
-/

namespace VsphereCompliance.Api

open Engine Store VCenter Accounts Settings
open Analysis (Access Config Fetched StoresResults analyze patternList triggerAnalysis doAnalysis
  applyDrs approveStorageMove runScheduledAnalysis)

/-! ## A waiting run -/

/-- The run is `running` and has no findings. -/
structure Waits (db : Db) (runId : Nat) : Prop where
  run : ∃ run ∈ db.runs.rows, run.id = runId ∧ run.status = .running
  findings : db.findingsOf runId = []

section Waits

variable {db db' : Db} {runId : Nat}

theorem Waits.lt_next (h : Waits db runId) : runId < db.runs.next := by
  obtain ⟨run, hrun, rfl, _⟩ := h.run
  exact db.runs.key_lt run hrun

/-- More runs may come, and the rows of the runs may change in other columns. -/
theorem Waits.of_runs (h : Waits db runId) (hfindings : db'.findingsOf runId = db.findingsOf runId)
    (hruns : ∀ run ∈ db.runs.rows, run.id = runId →
      ∃ run' ∈ db'.runs.rows, run'.id = run.id ∧ run'.status = run.status) : Waits db' runId := by
  obtain ⟨run, hrun, hid, hstatus⟩ := h.run
  obtain ⟨run', hrun', hid', hstatus'⟩ := hruns run hrun hid
  exact ⟨⟨run', hrun', hid'.trans hid, hstatus'.trans hstatus⟩, hfindings.trans h.findings⟩

theorem Waits.of_eq (h : Waits db runId) (hruns : db'.runs = db.runs)
    (hfindings : db'.findings = db.findings) : Waits db' runId := by
  refine h.of_runs ?_ fun run hrun _ => ⟨run, hruns ▸ hrun, rfl, rfl⟩
  unfold Db.findingsOf
  rw [hfindings]

theorem waits_insertRun_next (db : Db) (req : RunRequest) :
    Waits (db.insertRun req) db.runs.next :=
  ⟨⟨_, List.mem_append_right _ (List.mem_singleton_self _), rfl, rfl⟩, db.findingsOf_next⟩

theorem Waits.insertRun (h : Waits db runId) (req : RunRequest) :
    Waits (db.insertRun req) runId :=
  h.of_runs rfl fun run hrun _ => ⟨run, List.mem_append_left _ hrun, rfl, rfl⟩

theorem Waits.finishRun (h : Waits db runId) {id : Nat} (hne : id ≠ runId) (o : RunOutcome) :
    Waits (db.finishRun id o) runId := by
  refine h.of_runs rfl fun run hrun hid => ?_
  refine ⟨_, List.mem_map_of_mem hrun, ?_⟩
  have hother : run.id ≠ id := fun heq => hne (heq.symm.trans hid)
  simp [hother]

/-- The analysis of another run. -/
theorem Waits.doAnalysis (h : Waits db runId) {id : Nat} (hne : id ≠ runId) (cfg : Config)
    (access : Access) (vcenterId : Nat) (type : AnalysisType) :
    Waits (doAnalysis cfg access db id vcenterId type).1 runId := by
  unfold Analysis.doAnalysis
  split
  · exact h
  · split
    · exact h.finishRun hne _
    · dsimp only
      split
      · refine Waits.finishRun ?_ hne _
        refine h.of_runs ?_ fun run hrun _ => ⟨run, hrun, rfl, rfl⟩
        apply Db.findingsOf_insertFindings_of_ne
        intro f hf hrun
        exact hne ((analysisRunId_of_mem_generateFindings hf).symm.trans hrun)
      · exact h

theorem Waits.runScheduledAnalysis (h : Waits db runId) (cfg : Config)
    (order : RowOrder VCenterConnection) (access : Access) :
    Waits (runScheduledAnalysis cfg order access db).1 runId := by
  have hspec := Analysis.scheduledLoop_spec cfg access db (Analysis.activeConnections order db)
  obtain ⟨new, hrows, _, _⟩ := hspec.runs
  refine h.of_runs (hspec.findings runId h.lt_next) fun run hrun _ => ⟨run, ?_, rfl, rfl⟩
  unfold Analysis.runScheduledAnalysis
  rw [hrows]
  exact List.mem_append_left _ hrun

theorem Waits.takeAction (h : Waits db runId) (ids : List Nat) :
    Waits (db.takeAction ids) runId := by
  refine ⟨h.run, ?_⟩
  unfold Db.findingsOf
  rw [List.filter_eq_nil_iff]
  intro g hg hrun
  obtain ⟨f, hf, ⟨_, rfl⟩ | ⟨_, rfl⟩⟩ := Db.exists_of_mem_takeAction hg
  · exact (List.filter_eq_nil_iff.mp h.findings) f hf hrun
  · exact (List.filter_eq_nil_iff.mp h.findings) g hf hrun

theorem Waits.applyDrs (h : Waits db runId) (access : Access) (order : RowOrder AnalysisFinding)
    (req : Analysis.Request) (commits : Bool) :
    Waits (applyDrs access order db req commits).db runId := by
  by_cases hreach : Analysis.Reaches access db req.runId
  · rw [Analysis.applyDrs_of_reaches order commits hreach]
    cases commits with
    | false => exact h
    | true => exact (h.takeAction _).of_eq rfl rfl
  · rw [(Analysis.applyDrs_of_not_reaches order commits hreach).1]
    exact h

theorem Waits.approveStorageMove (h : Waits db runId) (id findingId user : Nat)
    (commits : Bool) : Waits (approveStorageMove db id findingId user commits).1 runId := by
  rcases Analysis.approveStorageMove_cases db id findingId user commits with heq | ⟨f, _, _, _, _,
      heq⟩
  · rw [heq]
    exact h
  · rw [heq]
    have hlog : Waits (db.logMove (Analysis.moveRow id user f)) runId := h.of_eq rfl rfl
    exact hlog.takeAction [f.id]

theorem Waits.deleteConnection (h : Waits db runId) (id : Nat) :
    Waits (deleteConnection db id) runId := by
  refine h.of_runs rfl fun run hrun _ => ⟨_, List.mem_map_of_mem hrun, ?_⟩
  split
  · exact ⟨rfl, rfl⟩
  · exact ⟨rfl, rfl⟩

end Waits

/-! ## What may happen meanwhile -/

/-- Requests, background tasks and scheduled analyses. -/
inductive Occurrence
  | event (e : Event)
  | scheduled (cfg : Config) (order : RowOrder VCenterConnection) (access : Access)

variable {c : Cipher} {services : Services} {now : Nat} {s s' : State c} {user : User}
  {req : Request}

def occur (services : Services) (s : State c) : Occurrence → State c
  | .event e => handle services s e
  | .scheduled cfg order access => { s with db := (runScheduledAnalysis cfg order access s.db).1 }

/-- The runs of the waiting tasks wait, each for one task. -/
structure TasksWait (s : State c) : Prop where
  waits : ∀ task ∈ s.tasks, Waits s.db task.runId
  distinct : (s.tasks.map Task.runId).Nodup

theorem TasksWait.of_waits (h : TasksWait s) (htasks : s'.tasks = s.tasks)
    (hwaits : ∀ runId, Waits s.db runId → Waits s'.db runId) : TasksWait s' := by
  refine ⟨?_, ?_⟩
  · rw [htasks]
    exact fun task htask => hwaits task.runId (h.waits task htask)
  · rw [htasks]
    exact h.distinct

/-- A new run gets a task of its own. -/
theorem TasksWait.trigger (h : TasksWait s) (run : RunRequest) (task : Task)
    (hid : task.runId = s.db.runs.next) :
    TasksWait { s with db := s.db.insertRun run, tasks := s.tasks ++ [task] } := by
  refine ⟨?_, ?_⟩
  · intro task' htask'
    rcases List.mem_append.mp htask' with htask' | htask'
    · exact (h.waits task' htask').insertRun run
    · obtain rfl := List.mem_singleton.mp htask'
      rw [hid]
      exact waits_insertRun_next s.db run
  · rw [List.map_append, List.nodup_append]
    refine ⟨h.distinct, List.nodup_singleton _, ?_⟩
    intro id hmem id' hmem' heq
    obtain ⟨task', htask', rfl⟩ := List.mem_map.mp hmem
    obtain rfl := List.mem_singleton.mp hmem'
    have hlt := (h.waits task' htask').lt_next
    omega

/-- **Each request** that succeeds. -/
theorem TasksWait.perform (hs : TasksWait s) (h : perform services now s user req = .ok s') :
    TasksWait s' := by
  have hsame {t : State c} (hdb : t.db = s.db) (htasks : t.tasks = s.tasks) : TasksWait t :=
    hs.of_waits htasks fun _ hwaits => hdb.symm ▸ hwaits
  cases req with
  | read endpoint =>
    cases h
    exact hs
  | changePassword salt payload =>
    obtain ⟨users, _, rfl⟩ := map_eq_ok_iff.mp h
    exact hsame rfl rfl
  | createUser salt payload =>
    obtain ⟨r, _, rfl⟩ := map_eq_ok_iff.mp h
    exact hsame rfl rfl
  | updateUser id payload =>
    obtain ⟨r, _, rfl⟩ := map_eq_ok_iff.mp h
    exact hsame rfl rfl
  | deactivateUser id =>
    obtain ⟨users, _, rfl⟩ := map_eq_ok_iff.mp h
    exact hsame rfl rfl
  | addVcenter encryptValue payload =>
    obtain ⟨r, hadd, rfl⟩ := map_eq_ok_iff.mp h
    refine hs.of_waits rfl fun _ hwaits => ?_
    unfold addVcenter at hadd
    dsimp only at hadd
    split at hadd
    · cases hadd
      exact hwaits.of_eq rfl rfl
    · cases hadd
  | updateVcenter encryptValue id payload =>
    obtain ⟨r, hupdate, rfl⟩ := map_eq_ok_iff.mp h
    refine hs.of_waits rfl fun _ hwaits => ?_
    unfold updateVcenter at hupdate
    split at hupdate
    · cases hupdate
    dsimp only at hupdate
    split at hupdate
    · cases hupdate
      exact hwaits.of_eq rfl rfl
    · cases hupdate
  | deleteVcenter id =>
    obtain ⟨db, hdelete, rfl⟩ := map_eq_ok_iff.mp h
    refine hs.of_waits rfl fun _ hwaits => ?_
    unfold deleteVcenter at hdelete
    split at hdelete
    · cases hdelete
    · cases hdelete
      exact hwaits.deleteConnection id
  | testVcenter access getVersion rejection id =>
    obtain ⟨r, htest, rfl⟩ := map_eq_ok_iff.mp h
    refine hs.of_waits rfl fun _ hwaits => ?_
    unfold testVcenter at htest
    split at htest
    · cases htest
    split at htest
    · cases htest
    split at htest
    · cases htest
      exact hwaits.of_eq rfl rfl
    · cases htest
  | triggerAnalysis vcenterId type =>
    unfold Api.perform at h
    dsimp only at h
    split at h
    · cases h
    · rename_i db runId htrigger
      cases h
      obtain ⟨_, rfl, rfl⟩ := Analysis.triggerAnalysis_eq_some_iff.mp htrigger
      exact hs.trigger _ _ rfl
  | applyDrs access order tree outcome runId commits =>
    cases h
    exact hs.of_waits rfl fun _ hwaits => hwaits.applyDrs access order _ commits
  | approveStorageMove runId findingId commits =>
    cases h
    exact hs.of_waits rfl fun _ hwaits =>
      hwaits.approveStorageMove runId findingId user.id commits
  | updateSettings items =>
    obtain ⟨r, _, rfl⟩ := map_eq_ok_iff.mp h
    exact hsame rfl rfl
  | createPattern payload =>
    obtain ⟨r, hcreate, rfl⟩ := map_eq_ok_iff.mp h
    refine hs.of_waits rfl fun _ hwaits => ?_
    unfold createPattern at hcreate
    split at hcreate
    · cases hcreate
    split at hcreate
    · cases hcreate
      exact hwaits.of_eq rfl rfl
    · cases hcreate
  | updatePattern id payload =>
    obtain ⟨r, hupdate, rfl⟩ := map_eq_ok_iff.mp h
    refine hs.of_waits rfl fun _ hwaits => ?_
    unfold updatePattern at hupdate
    split at hupdate
    · cases hupdate
    split at hupdate
    · cases hupdate
    split at hupdate
    · cases hupdate
      exact hwaits.of_eq rfl rfl
    · cases hupdate
  | deletePattern id =>
    obtain ⟨db, hdelete, rfl⟩ := map_eq_ok_iff.mp h
    refine hs.of_waits rfl fun _ hwaits => ?_
    unfold deletePattern at hdelete
    split at hdelete
    · cases hdelete
    · cases hdelete
      exact hwaits.of_eq rfl rfl

/-- A task that is taken from the list leaves the others waiting. -/
theorem TasksWait.background (hs : TasksWait s) (services : Services) (i : Nat) (cfg : Config)
    (access : Access) :
    TasksWait (handle services s (.background i cfg access)) := by
  unfold handle
  dsimp only
  split
  · exact hs
  · rename_i task htask
    have hmem : ∀ task' ∈ s.tasks.eraseIdx i, task' ∈ s.tasks :=
      fun _ => List.mem_of_mem_eraseIdx
    obtain ⟨hi, rfl⟩ := List.getElem?_eq_some_iff.mp htask
    have hperm := (List.getElem_cons_eraseIdx_perm hi).map Task.runId
    obtain ⟨hnotMem, hdistinct⟩ := List.nodup_cons.mp (hperm.nodup_iff.mpr hs.distinct)
    refine ⟨fun task' htask' => ?_, hdistinct⟩
    refine (hs.waits task' (hmem task' htask')).doAnalysis ?_ cfg access _ _
    intro heq
    exact hnotMem (heq ▸ List.mem_map_of_mem htask')

/-- **Each occurrence** leaves the tasks waiting. -/
theorem TasksWait.occur (hs : TasksWait s) (o : Occurrence) : TasksWait (occur services s o) := by
  cases o with
  | event e =>
    cases e with
    | request now token req =>
      rcases handle_request_cases services s now token req with hsame | ⟨user, _, _, h⟩
      · show TasksWait (handle services s (.request now token req))
        rw [hsame]
        exact hs
      · exact hs.perform h
    | background i cfg access => exact hs.background services i cfg access
  | scheduled cfg order access =>
    exact hs.of_waits rfl fun _ hwaits => hwaits.runScheduledAnalysis cfg order access

/-- A process starts without tasks. -/
theorem tasksWait_run (hstart : s.tasks = []) (occurrences : List Occurrence) :
    TasksWait (occurrences.foldl (occur services) s) := by
  refine List.foldlRecOn occurrences (occur services) ⟨?_, ?_⟩ fun _ ht o _ => ht.occur o
  · rw [hstart]
    exact fun _ htask => absurd htask List.not_mem_nil
  · rw [hstart]
    exact List.nodup_nil

/-- **When a manual run completes**, whatever came before, its findings carry the records of the
analysis of the inventory it fetched one by one, and the counters of its summary are their
numbers. -/
theorem completed_run_counts (services : Services) (hstart : s.tasks = [])
    (before : List Occurrence) (cfg : Config) (access : Access) {t : State c}
    (hbefore : before.foldl (occur services) s = t) {i : Nat} {task : Task}
    (htask : t.tasks[i]? = some task) {run : AnalysisRun}
    (hrun : (handle services t (.background i cfg access)).db.runs.find? task.runId = some run)
    (hcompleted : run.status = .completed) :
    ∃ inventory, Fetched access t.db task.vcenterId inventory ∧
      StoresResults (handle services t (.background i cfg access)).db task.runId
        (analyze cfg task.type inventory (patternList cfg t.db)) := by
  obtain ⟨⟨waiting, hwaiting, hid, hrunning⟩, hnone⟩ :=
    (hbefore ▸ tasksWait_run hstart before).waits task (List.mem_of_getElem? htask)
  have hdb : (handle services t (.background i cfg access)).db =
      (doAnalysis cfg access t.db task.runId task.vcenterId task.type).1 := by
    unfold handle
    dsimp only
    rw [htask]
  rw [hdb] at hrun ⊢
  exact Analysis.storesResults_of_completed (Table.find?_eq_some_iff.mpr ⟨hwaiting, hid⟩) hrunning
    hnone hrun hcompleted

/-! ## One run -/

def operatorState : State labelledCipher :=
  { veraState with accounts := ⟨⟨Table.singleton { vera with role := .operator }, by decide⟩, []⟩ }

/-- The operator has asked for a full analysis. -/
def requestedState : State labelledCipher :=
  handle veraServices operatorState (.request 5 "token" (.triggerAnalysis 1 .full))

theorem completed_run_counts_requested :
    ∃ inventory, Fetched (Analysis.accessTo sharedInventory) requestedState.db 1 inventory ∧
      StoresResults (handle veraServices requestedState
          (.background 0 Analysis.webConfig (Analysis.accessTo sharedInventory))).db 1
        (analyze Analysis.webConfig .full inventory
          (patternList Analysis.webConfig requestedState.db)) := by
  have hstatus : ((handle veraServices requestedState (.background 0 Analysis.webConfig
      (Analysis.accessTo sharedInventory))).db.runs.find? 1).map AnalysisRun.status =
        some .completed := by
    decide
  obtain ⟨run, hrun, hcompleted⟩ := Option.map_eq_some_iff.mp hstatus
  have htask : requestedState.tasks[0]? = some ⟨1, 1, .full⟩ := by decide
  have hstart : operatorState.tasks = [] := rfl
  have hbefore : [Occurrence.event (.request 5 "token" (.triggerAnalysis 1 .full))].foldl
      (occur veraServices) operatorState = requestedState := rfl
  exact completed_run_counts veraServices hstart _ Analysis.webConfig
    (Analysis.accessTo sharedInventory) hbefore htask hrun hcompleted

end VsphereCompliance.Api
