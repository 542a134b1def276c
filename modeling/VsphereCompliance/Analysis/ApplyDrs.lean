import VsphereCompliance.Analysis.Run
import VsphereCompliance.VCenter.Service

/-!
# Applying the planned rules

`applyDrs` is `apply_drs`. The loop over the pending findings starts one task on the vCenter
for each rule it can place; the flags of the findings and the history rows wait in the
session until the commit at the end. `outcome` says for each finding what `ReconfigureEx`
does, `commits` whether the commit goes through. The loop is a map over the pending findings
(`applyLoop_eq`): each starts the task `taskFor`, and the session has a row for each task.
-/

namespace VsphereCompliance.Analysis

open Engine Store VCenter

/-! ## The request -/

/-- `{c.name: c for c in clusters}`. -/
def clusterMap (t : Tree) : OrderedDict String ClusterObj :=
  OrderedDict.ofList (t.clusters.map fun c => (c.name, c))

/-- The finding is one that `apply_drs` asks for. -/
def Pending (runId : Nat) (f : AnalysisFinding) : Prop :=
  f.analysisRunId = runId ∧ f.findingType = .drsRuleNeeded ∧ f.actionTaken = false

instance (runId : Nat) (f : AnalysisFinding) : Decidable (Pending runId f) :=
  inferInstanceAs (Decidable (_ ∧ _))

def pendingFindings (order : RowOrder AnalysisFinding) (db : Db) (runId : Nat) :
    List AnalysisFinding :=
  order.arrange (db.findings.rows.filter fun f => Pending runId f)

/-- What one request knows and meets: the objects of the vCenter, the run and the user, and
the outcome of `ReconfigureEx` for each finding. -/
structure Request where
  tree : Tree
  runId : Nat
  user : String
  outcome : Nat → Reconfigure

/-- The state of the loop: the tasks started so far, each with its finding, and the session. -/
structure ApplyState where
  tasks : List (Nat × RuleTask)
  taken : List Nat
  history : List DrsRuleHistory
  created : Nat
  failed : Nat

def ApplyState.empty : ApplyState := ⟨[], [], [], 0, 0⟩

def historyRow (req : Request) (f : AnalysisFinding) (rule : RuleToCreate) : DrsRuleHistory where
  analysisRunId := req.runId
  clusterName := f.clusterName
  ruleName := rule.ruleName
  action := "created"
  vmsInRule := rule.vms
  reason := s!"Applied by {req.user}"
  finding := f.id

/-- The loop body; none when `details` has no `rule_name`. -/
def applyStep (req : Request) (s : ApplyState) (f : AnalysisFinding) : Option ApplyState :=
  match f.clusterName.bind (clusterMap req.tree).get? with
  | none => some s
  | some cluster =>
    match f.details with
    | .skip _ => none
    | .violation _ => none
    | .scattered _ => none
    | .rule rule =>
      let (task, success) := createAntiAffinityRule cluster rule.ruleName rule.vms
        (req.outcome f.id)
      let s := { s with tasks := s.tasks ++ (task.map fun task => (f.id, task)).toList }
      if success then
        some { s with
          taken := s.taken ++ [f.id]
          history := s.history ++ [historyRow req f rule]
          created := s.created + 1 }
      else some { s with failed := s.failed + 1 }

def applyLoop (req : Request) : ApplyState → List AnalysisFinding → ApplyState × Ended
  | s, [] => (s, .returned)
  | s, f :: fs =>
    match applyStep req s f with
    | some s' => applyLoop req s' fs
    | none => (s, .raised)

/-- The answer to the request: 404, 500 or the two counters. -/
inductive ApplyAnswer
  | notFound
  | error
  | ok (created failed : Nat)
  deriving DecidableEq, Repr

structure ApplyResult where
  db : Db
  tasks : List (Nat × RuleTask)
  answer : ApplyAnswer

/-- What the commit of the session writes. -/
def commitApply (db : Db) (s : ApplyState) : Db := (db.takeAction s.taken).logRules s.history

/-- `apply_drs`. -/
def applyDrs (access : Access) (order : RowOrder AnalysisFinding) (db : Db) (req : Request)
    (commits : Bool) : ApplyResult :=
  match db.runs.find? req.runId with
  | none => ⟨db, [], .notFound⟩
  | some run =>
    if run.status ≠ .completed then ⟨db, [], .notFound⟩
    else
      match openVCenter access (run.vcenterId.bind db.connection) with
      | .error _ => ⟨db, [], .error⟩
      | .ok _ =>
        match applyLoop req .empty (pendingFindings order db req.runId) with
        | (s, .raised) => ⟨db, s.tasks, .error⟩
        | (s, .returned) =>
          if commits then ⟨commitApply db s, s.tasks, .ok s.created s.failed⟩
          else ⟨db, s.tasks, .error⟩

/-! ## What the loop does -/

/-- The task that the request starts for a finding. -/
def taskFor (req : Request) (f : AnalysisFinding) : Option RuleTask :=
  match f.clusterName.bind (clusterMap req.tree).get?, f.details with
  | some cluster, .rule rule =>
    (createAntiAffinityRule cluster rule.ruleName rule.vms (req.outcome f.id)).1
  | _, _ => none

/-- The history row that goes with the task. -/
def rowFor (req : Request) (f : AnalysisFinding) : Option DrsRuleHistory :=
  match f.details with
  | .rule rule => (taskFor req f).map fun _ => historyRow req f rule
  | _ => none

theorem createAntiAffinityRule_snd (c : ClusterObj) (ruleName : String) (vmNames : List String)
    (outcome : Reconfigure) :
    (createAntiAffinityRule c ruleName vmNames outcome).2 =
      (createAntiAffinityRule c ruleName vmNames outcome).1.isSome := by
  unfold createAntiAffinityRule
  split
  · rfl
  · cases outcome with
    | raises => rfl
    | task result => rfl

/-- The details of a pending finding are a rule. -/
theorem exists_rule_of_pending {db : Db} {f : AnalysisFinding} (hf : f ∈ db.findings.rows)
    (h : f.findingType = .drsRuleNeeded) : ∃ rule, f.details = .rule rule := by
  have hcoh := db.coherent f hf
  unfold NewFinding.Coherent at hcoh
  cases hd : f.details with
  | rule rule => exact ⟨rule, rfl⟩
  | skip s =>
    rw [hd] at hcoh
    rw [hcoh.1] at h
    cases h
  | violation v =>
    rw [hd] at hcoh
    rw [hcoh.1] at h
    cases h
  | scattered s =>
    rw [hd] at hcoh
    rw [hcoh.1] at h
    cases h

/-- What the loop adds to the state for a list of findings. -/
def ApplyState.advance (req : Request) (s : ApplyState) (fs : List AnalysisFinding) :
    ApplyState where
  tasks := s.tasks ++ fs.filterMap fun f => (taskFor req f).map fun task => (f.id, task)
  taken := s.taken ++ (fs.filter fun f => (taskFor req f).isSome).map AnalysisFinding.id
  history := s.history ++ fs.filterMap (rowFor req)
  created := s.created + (fs.filter fun f => (taskFor req f).isSome).length
  failed := s.failed + (fs.filter fun f =>
    (f.clusterName.bind (clusterMap req.tree).get?).isSome && (taskFor req f).isNone).length

theorem ApplyState.advance_nil (req : Request) (s : ApplyState) : s.advance req [] = s := by
  simp [ApplyState.advance]

theorem ApplyState.advance_advance (req : Request) (s : ApplyState)
    (fs gs : List AnalysisFinding) :
    (s.advance req fs).advance req gs = s.advance req (fs ++ gs) := by
  simp [ApplyState.advance, Nat.add_assoc]

/-- **One pass of the loop** over a finding with the details of a rule. -/
theorem applyStep_eq (req : Request) (s : ApplyState) {f : AnalysisFinding}
    (h : ∃ rule, f.details = .rule rule) : applyStep req s f = some (s.advance req [f]) := by
  obtain ⟨rule, hrule⟩ := h
  unfold applyStep ApplyState.advance rowFor taskFor
  cases hcluster : f.clusterName.bind (clusterMap req.tree).get? with
  | none => simp [hcluster, hrule]
  | some cluster =>
    simp only [hrule, createAntiAffinityRule_snd]
    cases htask : (createAntiAffinityRule cluster rule.ruleName rule.vms (req.outcome f.id)).1 with
    | none => simp [hcluster, hrule, htask]
    | some task => simp [hcluster, hrule, htask]

/-- **The whole loop** over findings with the details of a rule. -/
theorem applyLoop_eq (req : Request) (s : ApplyState) {fs : List AnalysisFinding}
    (h : ∀ f ∈ fs, ∃ rule, f.details = .rule rule) :
    applyLoop req s fs = (s.advance req fs, .returned) := by
  induction fs generalizing s with
  | nil => rw [ApplyState.advance_nil]; rfl
  | cons f fs ih =>
    rw [applyLoop, applyStep_eq req s (h f List.mem_cons_self)]
    dsimp only
    rw [ih _ fun g hg => h g (List.mem_cons_of_mem f hg), ApplyState.advance_advance,
      List.singleton_append]

/-! ## What the request does -/

section Request

variable {access : Access} {order : RowOrder AnalysisFinding} {db : Db} {req : Request}

theorem mem_pendingFindings {runId : Nat} {f : AnalysisFinding} :
    f ∈ pendingFindings order db runId ↔ f ∈ db.findings.rows ∧ Pending runId f := by
  rw [pendingFindings, (order.perm _).mem_iff, List.mem_filter, decide_eq_true_eq]

theorem nodup_pendingFindings (order : RowOrder AnalysisFinding) (db : Db) (runId : Nat) :
    ((pendingFindings order db runId).map AnalysisFinding.id).Nodup := by
  have hperm := (order.perm (db.findings.rows.filter fun f => Pending runId f)).map
    AnalysisFinding.id
  rw [pendingFindings, hperm.nodup_iff]
  exact (List.filter_sublist.map _).nodup db.findings.nodup

theorem rule_of_mem_pendingFindings {runId : Nat} {f : AnalysisFinding}
    (hf : f ∈ pendingFindings order db runId) : ∃ rule, f.details = .rule rule := by
  obtain ⟨hmem, hpend⟩ := mem_pendingFindings.mp hf
  exact exists_rule_of_pending hmem hpend.2.1

/-- The run is completed, and the connection to its vCenter opens. -/
def Reaches (access : Access) (db : Db) (runId : Nat) : Prop :=
  ∃ run conn, db.runs.find? runId = some run ∧ run.status = .completed ∧
    openVCenter access (run.vcenterId.bind db.connection) = .ok conn

/-- The state of the loop after the last finding. -/
def session (order : RowOrder AnalysisFinding) (db : Db) (req : Request) : ApplyState :=
  ApplyState.empty.advance req (pendingFindings order db req.runId)

theorem tasks_session (order : RowOrder AnalysisFinding) (db : Db) (req : Request) :
    (session order db req).tasks.map Prod.snd =
      (pendingFindings order db req.runId).filterMap (taskFor req) := by
  show ([] ++ List.filterMap _ _).map Prod.snd = _
  rw [List.nil_append, List.map_filterMap]
  apply List.filterMap_congr
  intro f _
  cases taskFor req f with
  | none => rfl
  | some task => rfl

/-- A request that does not reach the loop does nothing. -/
theorem applyDrs_of_not_reaches (order : RowOrder AnalysisFinding) (commits : Bool)
    (h : ¬ Reaches access db req.runId) :
    (applyDrs access order db req commits).db = db ∧
      (applyDrs access order db req commits).tasks = [] := by
  unfold applyDrs
  cases hrun : db.runs.find? req.runId with
  | none => exact ⟨rfl, rfl⟩
  | some run =>
    dsimp only
    split
    · exact ⟨rfl, rfl⟩
    · rename_i hstatus
      cases hopen : openVCenter access (run.vcenterId.bind db.connection) with
      | error e => exact ⟨rfl, rfl⟩
      | ok conn => exact absurd ⟨run, conn, hrun, not_not.mp hstatus, hopen⟩ h

/-- A request that reaches the loop goes through all pending findings. -/
theorem applyDrs_of_reaches (order : RowOrder AnalysisFinding) (commits : Bool)
    (h : Reaches access db req.runId) :
    applyDrs access order db req commits =
      if commits then ⟨commitApply db (session order db req), (session order db req).tasks,
        .ok (session order db req).created (session order db req).failed⟩
      else ⟨db, (session order db req).tasks, .error⟩ := by
  obtain ⟨run, conn, hrun, hstatus, hopen⟩ := h
  unfold applyDrs
  rw [hrun]
  dsimp only
  rw [if_neg (not_not.mpr hstatus), hopen]
  dsimp only
  rw [applyLoop_eq req .empty fun f hf => rule_of_mem_pendingFindings hf]
  rfl

end Request

/-! ## What the session holds for one finding -/

section Session

variable {req : Request} {fs : List AnalysisFinding}

/-- A row in the session is about a finding of the list. -/
theorem finding_of_rowFor {f : AnalysisFinding} {row : DrsRuleHistory}
    (h : rowFor req f = some row) : row.finding = f.id ∧ row.action = "created" := by
  unfold rowFor at h
  split at h
  · obtain ⟨_, _, rfl⟩ := Option.map_eq_some_iff.mp h
    exact ⟨rfl, rfl⟩
  · cases h

theorem isSome_rowFor {f : AnalysisFinding} (h : ∃ rule, f.details = .rule rule) :
    (rowFor req f).isSome = (taskFor req f).isSome := by
  obtain ⟨rule, hrule⟩ := h
  unfold rowFor
  rw [hrule]
  exact Option.isSome_map

theorem filter_id_eq (hn : (fs.map AnalysisFinding.id).Nodup) {f : AnalysisFinding}
    (hf : f ∈ fs) : fs.filter (fun g => g.id = f.id) = [f] := by
  have hcongr : ∀ g ∈ fs, decide (g.id = f.id) = decide (g = f) := by
    intro g hg
    exact decide_eq_decide.mpr ⟨List.inj_on_of_nodup_map hn hg hf, fun h => h ▸ rfl⟩
  rw [List.filter_congr hcongr, List.filter_eq, List.count_eq_one_of_mem hn.of_map hf]
  rfl

/-- The rows of the session that are about one finding of the list. -/
theorem filter_rows (hn : (fs.map AnalysisFinding.id).Nodup) {f : AnalysisFinding}
    (hf : f ∈ fs) :
    (fs.filterMap (rowFor req)).filter (fun row => row.finding = f.id ∧ row.action = "created") =
      (rowFor req f).toList := by
  have hrow : ∀ g, (rowFor req g).filter
      (fun row => decide (row.finding = f.id ∧ row.action = "created")) =
        if g.id = f.id then rowFor req g else none := by
    intro g
    cases h : rowFor req g with
    | none => simp
    | some row =>
      obtain ⟨hfinding, haction⟩ := finding_of_rowFor h
      simp [Option.filter_some, hfinding, haction]
  have hfm := List.filterMap_filter (f := rowFor req) (p := fun g => decide (g.id = f.id))
    (l := fs)
  simp only [decide_eq_true_eq] at hfm
  rw [List.filter_filterMap, List.filterMap_congr fun g _ => hrow g, ← hfm, filter_id_eq hn hf]
  cases h : rowFor req f with
  | none => simp [h]
  | some row => simp [h]

/-- No row of the session is about another finding. -/
theorem filter_rows_of_notMem {id : Nat} (h : ∀ f ∈ fs, f.id ≠ id) :
    (fs.filterMap (rowFor req)).filter (fun row => row.finding = id ∧ row.action = "created") =
      [] := by
  rw [List.filter_eq_nil_iff]
  intro row hrow
  obtain ⟨f, hf, hfrow⟩ := List.mem_filterMap.mp hrow
  obtain ⟨hfinding, _⟩ := finding_of_rowFor hfrow
  rw [decide_eq_true_eq, hfinding]
  exact fun hid => h f hf hid.1

end Session

/-! ## What the commit writes for one finding -/

section Commit

variable {order : RowOrder AnalysisFinding} {db : Db} {req : Request} {f : AnalysisFinding}

/-- The commit marks the pending findings whose task was started. -/
theorem mem_taken_session (hrow : f ∈ db.findings.rows) :
    f.id ∈ (session order db req).taken ↔ Pending req.runId f ∧ (taskFor req f).isSome := by
  show f.id ∈ [] ++ List.map _ (List.filter _ _) ↔ _
  rw [List.nil_append, List.mem_map]
  refine ⟨?_, ?_⟩
  · intro h
    obtain ⟨g, hg, hid⟩ := h
    obtain ⟨hg, htask⟩ := List.mem_filter.mp hg
    obtain ⟨hgrow, hpend⟩ := mem_pendingFindings.mp hg
    obtain rfl : g = f := db.findings.eq_of_key hgrow hrow hid
    exact ⟨hpend, htask⟩
  · intro h
    obtain ⟨hpend, htask⟩ := h
    exact ⟨f, List.mem_filter.mpr ⟨mem_pendingFindings.mpr ⟨hrow, hpend⟩, htask⟩, rfl⟩

theorem createdFor_commitApply (hf : f ∈ pendingFindings order db req.runId) :
    (commitApply db (session order db req)).createdFor f.id =
      db.createdFor f.id ++ (rowFor req f).toList := by
  rw [← filter_rows (nodup_pendingFindings order db req.runId) hf]
  exact List.filter_append _ _

theorem createdFor_commitApply_of_notMem {id : Nat}
    (h : ∀ f ∈ pendingFindings order db req.runId, f.id ≠ id) :
    (commitApply db (session order db req)).createdFor id = db.createdFor id := by
  have hsplit := List.filter_append (p := fun row : DrsRuleHistory =>
    decide (row.finding = id ∧ row.action = "created"))
    db.drsHistory ((pendingFindings order db req.runId).filterMap (rowFor req))
  rw [filter_rows_of_notMem h, List.append_nil] at hsplit
  exact hsplit

end Commit

end VsphereCompliance.Analysis
