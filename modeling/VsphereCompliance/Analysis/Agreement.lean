import VsphereCompliance.Analysis.ApplyDrs
import VsphereCompliance.Analysis.Terminal

/-!
# Does the store agree with the vCenter?

After `apply_drs` a finding should be marked, with a history row, exactly when its rule was
added. The loop marks it as soon as the task is started, and everything it marked is lost if
the commit fails. So store and vCenter agree exactly when every started task ends like the
commit: all succeed and it goes through, or all fail and it fails (`apply_agrees_iff`).
-/

namespace VsphereCompliance.Analysis

open Engine Store VCenter

/-! ## What should agree -/

/-- The finding is marked in the store and has a `created` row. -/
def MarkedCreated (db : Db) (id : Nat) : Prop :=
  (∃ f ∈ db.findings.rows, f.id = id ∧ f.actionTaken = true) ∧ db.createdFor id ≠ []

/-- A task started for the finding has added its rule, once all tasks have finished. -/
def AddedFor (t : Tree) (tasks : List (Nat × RuleTask)) (id : Nat) : Prop :=
  ∃ task, (id, task) ∈ tasks ∧ ∃ rule, task.newRule = some rule ∧
    ∃ c ∈ (t.finish (tasks.map Prod.snd)).clusters, c.ref = task.cluster ∧ rule ∈ c.rules

/-- The request starts a task for the finding, with this result: the cluster is there with
two of the VMs, and `ReconfigureEx` does not raise. -/
def Submits (req : Request) (f : AnalysisFinding) (result : Option Nat) : Prop :=
  ∃ cluster rule, f.clusterName.bind (clusterMap req.tree).get? = some cluster ∧
    f.details = .rule rule ∧ 2 ≤ (targetVms cluster rule.vms).length ∧
    req.outcome f.id = .task result

/-! ## One finding -/

section Finding

variable {order : RowOrder AnalysisFinding} {db : Db} {req : Request} {f : AnalysisFinding}

theorem taskFor_eq_some_iff {task : RuleTask} : taskFor req f = some task ↔
    ∃ cluster rule result, f.clusterName.bind (clusterMap req.tree).get? = some cluster ∧
      f.details = .rule rule ∧ 2 ≤ (targetVms cluster rule.vms).length ∧
      req.outcome f.id = .task result ∧
      task = ⟨cluster.ref, rule.ruleName, targetVms cluster rule.vms, result⟩ := by
  refine ⟨?_, ?_⟩
  · intro h
    unfold taskFor at h
    split at h
    · rename_i cluster rule hcluster hrule
      obtain ⟨hlen, result, hout, htask⟩ := createAntiAffinityRule_eq_some_iff.mp h
      exact ⟨cluster, rule, result, hcluster, hrule, hlen, hout, htask⟩
    · cases h
  · intro h'
    obtain ⟨cluster, rule, result, hcluster, hrule, hlen, hout, htask⟩ := h'
    unfold taskFor
    rw [hcluster, hrule]
    exact createAntiAffinityRule_eq_some_iff.mpr ⟨hlen, result, hout, htask⟩

theorem submits_iff {result : Option Nat} :
    Submits req f result ↔ ∃ task, taskFor req f = some task ∧ task.result = result := by
  refine ⟨?_, ?_⟩
  · intro h
    obtain ⟨cluster, rule, hcluster, hrule, hlen, hout⟩ := h
    exact ⟨_, taskFor_eq_some_iff.mpr
      ⟨cluster, rule, result, hcluster, hrule, hlen, hout, rfl⟩, rfl⟩
  · intro h
    obtain ⟨task, htask, rfl⟩ := h
    obtain ⟨cluster, rule, result, hcluster, hrule, hlen, hout, rfl⟩ :=
      taskFor_eq_some_iff.mp htask
    exact ⟨cluster, rule, hcluster, hrule, hlen, hout⟩

/-- The task of a finding is about a cluster of the vCenter. -/
theorem exists_cluster_of_taskFor {task : RuleTask} (h : taskFor req f = some task) :
    ∃ c ∈ req.tree.clusters, c.ref = task.cluster := by
  obtain ⟨cluster, rule, result, hcluster, _, _, _, rfl⟩ := taskFor_eq_some_iff.mp h
  obtain ⟨name, _, hget⟩ := Option.bind_eq_some_iff.mp hcluster
  obtain ⟨c, hc, heq⟩ := List.mem_map.mp (OrderedDict.get?_ofList_mem hget)
  exact ⟨c, hc, congrArg ClusterObj.ref (Prod.mk.inj heq).2⟩

/-- The tasks of the session are those of the pending findings. -/
theorem mem_tasks_session {id : Nat} {task : RuleTask} :
    (id, task) ∈ (session order db req).tasks ↔
      ∃ g ∈ pendingFindings order db req.runId, taskFor req g = some task ∧ g.id = id := by
  show (id, task) ∈ [] ++ List.filterMap _ _ ↔ _
  rw [List.nil_append, List.mem_filterMap]
  simp only [Option.map_eq_some_iff, Prod.mk.injEq]
  refine ⟨?_, ?_⟩
  · intro h
    obtain ⟨g, hg, task', htask, hid, rfl⟩ := h
    exact ⟨g, hg, htask, hid⟩
  · intro h
    obtain ⟨g, hg, htask, hid⟩ := h
    exact ⟨g, hg, task, htask, hid, rfl⟩

/-- The rule of a pending finding is added exactly when its task succeeds. -/
theorem addedFor_session_iff (hf : f ∈ pendingFindings order db req.runId) :
    AddedFor req.tree (session order db req).tasks f.id ↔
      ∃ task, taskFor req f = some task ∧ task.result.isSome := by
  refine ⟨?_, ?_⟩
  · intro h
    obtain ⟨task, hmem, rule, hrule, _⟩ := h
    obtain ⟨g, hg, htask, hid⟩ := mem_tasks_session.mp hmem
    have hgf : g = f :=
      List.inj_on_of_nodup_map (nodup_pendingFindings order db req.runId) hg hf hid
    obtain ⟨key, hkey, _⟩ := Option.map_eq_some_iff.mp hrule
    exact ⟨task, hgf ▸ htask, by rw [hkey]; rfl⟩
  · intro h
    obtain ⟨task, htask, hresult⟩ := h
    have hmem : (f.id, task) ∈ (session order db req).tasks :=
      mem_tasks_session.mpr ⟨f, hf, htask, rfl⟩
    obtain ⟨key, hkey⟩ := Option.isSome_iff_exists.mp hresult
    have hrule : task.newRule = some
        ⟨task.ruleName, .antiAffinity, true, false, task.vms, key⟩ := by
      rw [RuleTask.newRule, hkey]
      rfl
    obtain ⟨c, hc, href⟩ := exists_cluster_of_taskFor htask
    refine ⟨task, hmem, _, hrule, ?_⟩
    rw [Tree.clusters_finish]
    refine ⟨_, List.mem_map_of_mem hc, href, List.mem_append_right _ ?_⟩
    exact mem_addedRules.mpr ⟨task, List.mem_map_of_mem hmem, href.symm, hrule⟩

/-- The commit marks a pending finding exactly when its task was started. -/
theorem marked_commit_iff (hf : f ∈ pendingFindings order db req.runId) :
    (∃ g ∈ (commitApply db (session order db req)).findings.rows,
      g.id = f.id ∧ g.actionTaken = true) ↔ (taskFor req f).isSome := by
  obtain ⟨hrow, hpend⟩ := mem_pendingFindings.mp hf
  refine ⟨?_, ?_⟩
  · intro h
    obtain ⟨g, hg, hid, htrue⟩ := h
    obtain ⟨g', hg', ⟨hmem, rfl⟩ | ⟨_, rfl⟩⟩ := Db.exists_of_mem_takeAction hg
    · obtain rfl : g' = f := db.findings.eq_of_key hg' hrow hid
      exact ((mem_taken_session hrow).mp hmem).2
    · rw [db.findings.eq_of_key hg' hrow hid, hpend.2.2] at htrue
      cases htrue
  · intro htask
    have htaken : f.id ∈ (session order db req).taken :=
      (mem_taken_session hrow).mpr ⟨hpend, htask⟩
    refine ⟨Db.markTaken f, ?_, rfl, rfl⟩
    refine List.mem_map.mpr ⟨f, hrow, ?_⟩
    rw [if_pos (decide_eq_true htaken)]

/-- The commit then writes a row for it as well. -/
theorem markedCreated_commit_iff (hf : f ∈ pendingFindings order db req.runId) :
    MarkedCreated (commitApply db (session order db req)) f.id ↔ (taskFor req f).isSome := by
  refine ⟨fun h => (marked_commit_iff hf).mp h.1, ?_⟩
  intro htask
  refine ⟨(marked_commit_iff hf).mpr htask, ?_⟩
  have hsome : (rowFor req f).isSome := by
    rw [isSome_rowFor (rule_of_mem_pendingFindings hf)]
    exact htask
  obtain ⟨row, hrowFor⟩ := Option.isSome_iff_exists.mp hsome
  rw [createdFor_commitApply hf, hrowFor]
  exact List.append_ne_nil_of_right_ne_nil _ (List.cons_ne_nil _ _)

/-- Before the request, no pending finding is marked. -/
theorem not_marked (hf : f ∈ pendingFindings order db req.runId) :
    ¬ ∃ g ∈ db.findings.rows, g.id = f.id ∧ g.actionTaken = true := by
  intro h
  obtain ⟨g, hg, hid, htrue⟩ := h
  obtain ⟨hrow, hpend⟩ := mem_pendingFindings.mp hf
  rw [db.findings.eq_of_key hg hrow hid, hpend.2.2] at htrue
  cases htrue

theorem not_markedCreated (hf : f ∈ pendingFindings order db req.runId) :
    ¬ MarkedCreated db f.id := fun h => not_marked hf h.1

/-- If the commit fails, the store is right exactly when every started task fails. -/
theorem agrees_rollback_iff (hf : f ∈ pendingFindings order db req.runId) :
    (MarkedCreated db f.id ↔ AddedFor req.tree (session order db req).tasks f.id) ↔
      ∀ result, Submits req f result → ¬ result.isSome := by
  rw [addedFor_session_iff hf]
  refine ⟨?_, ?_⟩
  · intro hiff result hsub hsome
    obtain ⟨task, htask, rfl⟩ := submits_iff.mp hsub
    exact not_markedCreated hf (hiff.mpr ⟨task, htask, hsome⟩)
  · intro hall
    refine ⟨fun hmark => absurd hmark (not_markedCreated hf), ?_⟩
    intro h
    obtain ⟨task, htask, hsome⟩ := h
    exact absurd hsome (hall _ (submits_iff.mpr ⟨task, htask, rfl⟩))

/-- If the commit goes through, the store is right exactly when every started task succeeds. -/
theorem agrees_commit_iff (hf : f ∈ pendingFindings order db req.runId) :
    (MarkedCreated (commitApply db (session order db req)) f.id ↔
        AddedFor req.tree (session order db req).tasks f.id) ↔
      ∀ result, Submits req f result → result.isSome := by
  rw [markedCreated_commit_iff hf, addedFor_session_iff hf]
  refine ⟨?_, ?_⟩
  · intro hiff result hsub
    obtain ⟨task, htask, rfl⟩ := submits_iff.mp hsub
    obtain ⟨task', htask', hsome⟩ := hiff.mp (by rw [htask]; rfl)
    rw [htask] at htask'
    cases htask'
    exact hsome
  · intro hall
    refine ⟨?_, ?_⟩
    · intro hstarted
      obtain ⟨task, htask⟩ := Option.isSome_iff_exists.mp hstarted
      exact ⟨task, htask, hall _ (submits_iff.mpr ⟨task, htask, rfl⟩)⟩
    · intro h
      obtain ⟨task, htask, _⟩ := h
      rw [htask]
      rfl

end Finding

/-! ## The request -/

section Request

variable (access : Access) (order : RowOrder AnalysisFinding) (db : Db) (req : Request)
  (commits : Bool)

/-- For the pending findings, the store says what happened on the vCenter. -/
def StoreAgrees : Prop :=
  ∀ f ∈ db.findings.rows, Pending req.runId f →
    (MarkedCreated (applyDrs access order db req commits).db f.id ↔
      AddedFor req.tree (applyDrs access order db req commits).tasks f.id)

/-- Every task that the request starts ends like its commit. -/
def TasksFollowCommit : Prop :=
  Reaches access db req.runId → ∀ f ∈ db.findings.rows, Pending req.runId f →
    ∀ result, Submits req f result → (result.isSome ↔ commits = true)

/-- **The store agrees with the vCenter** after the request exactly when every task that it
starts ends like the commit. -/
theorem apply_agrees_iff :
    StoreAgrees access order db req commits ↔ TasksFollowCommit access db req commits := by
  unfold StoreAgrees TasksFollowCommit
  by_cases hreach : Reaches access db req.runId
  · rw [applyDrs_of_reaches order commits hreach]
    simp only [hreach, forall_const]
    apply forall₂_congr
    intro f hrow
    apply forall_congr'
    intro hpend
    have hf : f ∈ pendingFindings order db req.runId := mem_pendingFindings.mpr ⟨hrow, hpend⟩
    cases commits with
    | false =>
      refine (agrees_rollback_iff hf).trans ?_
      simp only [Bool.false_eq_true, iff_false]
    | true =>
      refine (agrees_commit_iff hf).trans ?_
      simp only [iff_true]
  · -- the store is unchanged and no task was started
    obtain ⟨hdb, htasks⟩ := applyDrs_of_not_reaches order commits hreach
    rw [hdb, htasks]
    refine ⟨fun _ h => absurd h hreach, fun _ f hrow hpend => ⟨?_, ?_⟩⟩
    · intro hmark
      have hf : f ∈ pendingFindings order db req.runId := mem_pendingFindings.mpr ⟨hrow, hpend⟩
      exact absurd hmark (not_markedCreated hf)
    · intro h'
      obtain ⟨_, hmem, _⟩ := h'
      exact absurd hmem List.not_mem_nil

end Request

/-! ## A task that fails after the commit -/

/-- A cluster of two hosts with a web server on each. -/
def webTree : Tree where
  clusters := [⟨10, "Cluster-A",
    [⟨[⟨20, "WEB-01", some []⟩]⟩, ⟨[⟨21, "WEB-02", some []⟩]⟩], []⟩]
  datastores := []
  pods := []

/-- The store after the triggered analysis of the cluster: finding 1 needs a rule. -/
def completedDb : Db :=
  (doAnalysis webConfig (accessTo (getFullInventory webTree)) triggeredDb 1 1 .full).1

/-- A completed run of a vCenter that answers. -/
theorem reaches_accessTo {inventory : Inventory} {db : Db} {runId : Nat} (conn : VCenterConnection)
    (hrun : (db.runs.find? runId).map (fun run => (run.status, run.vcenterId)) =
      some (.completed, some conn.id)) (hconn : db.connection conn.id = some conn) :
    Reaches (accessTo inventory) db runId := by
  obtain ⟨run, hfind, hfields⟩ := Option.map_eq_some_iff.mp hrun
  obtain ⟨hstatus, hvcenter⟩ := Prod.mk.inj hfields
  refine ⟨run, conn, hfind, hstatus, ?_⟩
  rw [hvcenter, Option.bind_some, hconn]
  rfl

theorem reaches_completedDb : Reaches (accessTo (getFullInventory webTree)) completedDb 1 :=
  reaches_accessTo localConnection (by decide) (by decide)

/-- The request to apply the rule; `ReconfigureEx` returns a task that will fail. -/
def failingRequest : Request := ⟨webTree, 1, "admin", fun _ => .task none⟩

/-- The store says that the rule was created, and it never was. -/
theorem failed_task_disagrees :
    ¬ StoreAgrees (accessTo (getFullInventory webTree)) (RowOrder.asInserted AnalysisFinding)
      completedDb failingRequest true := by
  intro hagree
  have hpending : ∃ f ∈ completedDb.findings.rows, Pending 1 f ∧ f.id = 1 := by decide
  obtain ⟨f, hf, hpend, hid⟩ := hpending
  have hiff := hagree f hf hpend
  rw [hid] at hiff
  obtain ⟨task, hmem, rule, hrule, _⟩ := hiff.mp ⟨by decide, by decide⟩
  have htasks : (applyDrs (accessTo (getFullInventory webTree))
      (RowOrder.asInserted AnalysisFinding) completedDb failingRequest true).tasks =
        [(1, ⟨10, "VCM-AAR-Cluster-A-WEB", [⟨20, some "WEB-01"⟩, ⟨21, some "WEB-02"⟩], none⟩)] := by
    decide
  rw [htasks] at hmem
  cases List.mem_singleton.mp hmem
  cases hrule

end VsphereCompliance.Analysis
