import VsphereCompliance.Analysis.Agreement

/-!
# Analyse, then apply

A `Cycle` is one completed analysis of a vCenter and the `apply_drs` after it, in which every
call to the vCenter succeeds. The store carries the plan from the one to the other: the
pending findings are the planned rules (`pending_perm`), and each of them becomes a task on
the cluster that it was planned for (`taskFor_planned`). So a cycle appends to every cluster
the rules planned for it and does nothing else to the vCenter (`Cycle.extends`).
-/

namespace VsphereCompliance.Analysis

open Engine Store VCenter

/-! ## A triggered analysis -/

/-- The store after the analysis that was triggered. -/
def analysed (cfg : Config) (access : Access) (db : Db) (req : RunRequest) : Db :=
  (doAnalysis cfg access (db.insertRun req) db.runs.next req.vcenterId req.analysisType).1

section Analysed

variable {cfg : Config} {access : Access} {db : Db} {req : RunRequest} {inventory : Inventory}

theorem openVCenter_of_fetched (h : Fetched access db req.vcenterId inventory) :
    ∃ conn, openVCenter access (db.connection req.vcenterId) = .ok conn := by
  obtain ⟨conn, password, hget, hdecrypt, hconnect, _⟩ := h
  refine ⟨conn, ?_⟩
  unfold openVCenter
  rw [hget]
  simp [hdecrypt, hconnect, bind, Except.bind, pure, Except.pure]

/-- The run completes, and the rules can be applied, exactly when its findings fit. -/
theorem reaches_analysed_iff (h : Fetched access (db.insertRun req) req.vcenterId inventory) :
    Reaches access (analysed cfg access db req) db.runs.next ↔
      RowsFit cfg.search req.analysisType (patternList cfg db) inventory := by
  have hrun := db.find?_insertRun req
  have hfetch := fetchInventory_eq_ok_iff.mpr h
  have hfit := fits_generateFindings_iff cfg req.analysisType db.runs.next
    (patternList cfg (db.insertRun req)) inventory
  refine ⟨?_, ?_⟩
  · intro h'
    obtain ⟨run, _, hfind, hstatus, _⟩ := h'
    by_contra hbad
    rw [analysed, doAnalysis_rejected hrun hfetch fun hall => hbad (hfit.mp hall)] at hfind
    dsimp only at hfind
    rw [hrun] at hfind
    cases hfind
    cases hstatus
  · intro hrows
    obtain ⟨hacc, heq⟩ := doAnalysis_completed hrun hfetch (hfit.mpr hrows)
    obtain ⟨conn, hopen⟩ := openVCenter_of_fetched h
    rw [analysed, heq]
    exact ⟨_, conn, Db.find?_finishRun (r := Db.newRun db.runs.next req) _ hrun, rfl, hopen⟩

/-- The findings of the run, as rows. -/
theorem findingsOf_analysed (h : Fetched access (db.insertRun req) req.vcenterId inventory)
    (hrows : RowsFit cfg.search req.analysisType (patternList cfg db) inventory) :
    (analysed cfg access db req).findingsOf db.runs.next =
      Table.newRows Db.findingRow db.findings.next
        (findingsFor cfg db db.runs.next req.analysisType inventory) := by
  have hfit := fits_generateFindings_iff cfg req.analysisType db.runs.next
    (patternList cfg (db.insertRun req)) inventory
  obtain ⟨hacc, heq⟩ := doAnalysis_completed (db.find?_insertRun req)
    (fetchInventory_eq_ok_iff.mpr h) (hfit.mpr hrows)
  have hnone : (db.insertRun req).findingsOf db.runs.next = [] := db.findingsOf_next
  rw [analysed, heq, Db.findingsOf_finishRun,
    Db.findingsOf_insertFindings hacc fun f hf => analysisRunId_of_mem_generateFindings hf,
    hnone]
  rfl

/-- **The pending findings** are those that the run made of planned rules. -/
theorem pending_perm (order : RowOrder AnalysisFinding)
    (h : Fetched access (db.insertRun req) req.vcenterId inventory)
    (hrows : RowsFit cfg.search req.analysisType (patternList cfg db) inventory) :
    ((pendingFindings order (analysed cfg access db req) db.runs.next).map
        AnalysisFinding.toNewFinding).Perm
      ((findingsFor cfg db db.runs.next req.analysisType inventory).filter
        fun f => f.findingType = .drsRuleNeeded) := by
  have hpending : (analysed cfg access db req).findings.rows.filter
      (fun f => Pending db.runs.next f) =
        ((analysed cfg access db req).findingsOf db.runs.next).filter fun f =>
          f.findingType = .drsRuleNeeded ∧ f.actionTaken = false := by
    rw [Db.findingsOf, List.filter_filter]
    apply List.filter_congr
    intro f _
    rw [← Bool.decide_and]
    exact decide_eq_decide.mpr and_comm
  have hnew : ((analysed cfg access db req).findingsOf db.runs.next).filter (fun f =>
      f.findingType = .drsRuleNeeded ∧ f.actionTaken = false) =
        ((analysed cfg access db req).findingsOf db.runs.next).filter
          ((fun f : NewFinding => decide (f.findingType = .drsRuleNeeded)) ∘
            AnalysisFinding.toNewFinding) := by
    rw [findingsOf_analysed h hrows]
    apply List.filter_congr
    intro f hf
    obtain ⟨i, x, _, _, rfl⟩ := Table.mem_newRows hf
    exact decide_eq_decide.mpr (and_iff_left rfl)
  refine ((order.perm _).map _).trans ?_
  rw [hpending, hnew, ← List.filter_map, findingsOf_analysed h hrows, Db.map_findingRow]

end Analysed

/-! ## The plan -/

section Plan

variable (cfg : Config) (db : Db) (type : AnalysisType)

/-- The rules that an analysis of the type plans for a cluster. -/
def plannedRules (c : ClusterObj) : List RuleToCreate :=
  if includesDrs type then
    (analyzeCluster cfg.search (patternList cfg db) (clusterEntry c)).1.rulesToCreate
  else []

/-- The planned rules are `rules_to_create` of the cluster results. -/
theorem rulesToCreate_analyze (t : Tree) (h : includesDrs type = true) :
    ((analyze cfg type (getFullInventory t) (patternList cfg db)).drs.map fun drs =>
      drs.clusters.map ClusterResult.rulesToCreate) =
        some (t.clusters.map (plannedRules cfg db type)) := by
  unfold analyze plannedRules getFullInventory
  rw [if_pos h]
  simp only [h, if_true]
  rw [Option.map_some, clusters_analyzeDrsCompliance, List.map_map, List.map_map]
  rfl

/-- The findings of a run that need a rule, cluster by cluster. -/
theorem filter_findingsFor (runId : Nat) (t : Tree) :
    (findingsFor cfg db runId type (getFullInventory t)).filter
        (fun f => f.findingType = .drsRuleNeeded) =
      t.clusters.flatMap fun c => (plannedRules cfg db type c).map (ruleFinding runId
        (analyzeCluster cfg.search (patternList cfg db) (clusterEntry c)).1) := by
  rw [findingsFor, filter_generateFindings]
  unfold analyze plannedRules
  cases includesDrs type with
  | false => simp
  | true =>
    simp only [if_true, Option.elim_some]
    rw [clusters_analyzeDrsCompliance, List.flatMap_map]
    show (t.clusters.map clusterEntry).flatMap _ = _
    rw [List.flatMap_map]

/-- A planned rule is managed, and about at least two VMs of its cluster. -/
theorem mem_plannedRules {cfg : Config} {db : Db} {type : AnalysisType} {c : ClusterObj}
    {r : RuleToCreate} (hr : r ∈ plannedRules cfg db type c) :
    isVcmRule r.ruleName = true ∧ 2 ≤ r.vms.length ∧
      ∀ name ∈ r.vms, ∃ vm ∈ getClusterVms c, vm.name = name := by
  unfold plannedRules at hr
  split at hr
  · refine ⟨isVcmRule_of_mem_rulesToCreate hr, two_le_length_vms _ _ _ hr, ?_⟩
    intro name hname
    obtain ⟨vm, hvm, rfl⟩ := exists_vm_of_mem_rulesToCreate _ _ _ hr hname
    obtain ⟨obj, hobj, hentry⟩ := List.mem_filterMap.mp hvm
    unfold vmEntry at hentry
    split at hentry
    · cases hentry
      exact ⟨obj, hobj, rfl⟩
    · cases hentry
  · cases hr

end Plan

/-! ## From the plan to the rules -/

/-- The name and the VMs of a planned rule. -/
def plannedView (r : RuleToCreate) : String × Finset String := (r.ruleName, r.vms.toFinset)

/-- The name and the VMs of a rule. -/
def ruleView (r : RuleObj) : String × Finset String :=
  (r.name, (r.vms.filterMap VmRef.name).toFinset)

/-- The request to apply the rules when every call to the vCenter succeeds; `key` gives the
keys of the new rules. -/
def succeeding (t : Tree) (runId : Nat) (user : String) (key : Nat → Nat) : Request :=
  ⟨t, runId, user, fun id => .task (some (key id))⟩

/-- Clusters of one name are one, and so are clusters of one reference. -/
structure DistinctClusters (t : Tree) : Prop where
  names : (t.clusters.map ClusterObj.name).Nodup
  refs : (t.clusters.map ClusterObj.ref).Nodup

theorem get?_clusterMap {t : Tree} (h : DistinctClusters t) {c : ClusterObj}
    (hc : c ∈ t.clusters) : (clusterMap t).get? c.name = some c := by
  have hkeys : ((t.clusters.map fun c => (c.name, c)).map Prod.fst).Nodup := by
    rw [List.map_map]
    exact h.names
  rw [OrderedDict.get?_eq_some_iff, clusterMap, OrderedDict.entries_ofList hkeys]
  exact List.mem_map_of_mem hc

section Tasks

variable {cfg : Config} {db : Db} {type : AnalysisType} {t : Tree}

/-- **A planned rule becomes a task** on its cluster, which adds the rule. -/
theorem taskFor_planned (runId : Nat) (user : String) (key : Nat → Nat)
    (h : DistinctClusters t) {c : ClusterObj} (hc : c ∈ t.clusters)
    {r : RuleToCreate} (hr : r ∈ plannedRules cfg db type c) {f : AnalysisFinding}
    (hcluster : f.clusterName = some c.name) (hdetails : f.details = .rule r) :
    ∃ task, taskFor (succeeding t runId user key) f = some task ∧ task.cluster = c.ref ∧
      task.newRule.map ruleView = some (plannedView r) := by
  obtain ⟨_, hlen, hvms⟩ := mem_plannedRules hr
  have hnames := names_targetVms hvms
  have htargets : 2 ≤ (targetVms c r.vms).length := by
    have hle := List.length_filterMap_le VmRef.name (targetVms c r.vms)
    rw [hnames] at hle
    omega
  refine ⟨_, taskFor_eq_some_iff.mpr ⟨c, r, some (key f.id), ?_, hdetails, htargets, rfl, rfl⟩,
    rfl, ?_⟩
  · rw [hcluster]
    exact get?_clusterMap h hc
  · show some (r.ruleName, ((targetVms c r.vms).filterMap VmRef.name).toFinset) = _
    rw [hnames]
    rfl

end Tasks

/-- The cluster and the rule that a finding about a rule names. -/
def findingView (f : NewFinding) : Option (String × String × Finset String) :=
  match f.details, f.clusterName with
  | .rule r, some name => some (name, plannedView r)
  | _, _ => none

section Added

variable {cfg : Config} {access : Access} {db : Db} {req : RunRequest} {t : Tree}
  {order : RowOrder AnalysisFinding} {user : String} {key : Nat → Nat}

/-- A pending finding of the run is about a planned rule. -/
theorem planned_of_pending
    (h : Fetched access (db.insertRun req) req.vcenterId (getFullInventory t))
    (hrows : RowsFit cfg.search req.analysisType (patternList cfg db) (getFullInventory t))
    {f : AnalysisFinding}
    (hf : f ∈ pendingFindings order (analysed cfg access db req) db.runs.next) :
    ∃ c ∈ t.clusters, ∃ r ∈ plannedRules cfg db req.analysisType c,
      f.clusterName = some c.name ∧ f.details = .rule r := by
  have hmem := (pending_perm order h hrows).mem_iff.mp (List.mem_map_of_mem hf)
  rw [filter_findingsFor] at hmem
  obtain ⟨c, hc, hmem⟩ := List.mem_flatMap.mp hmem
  obtain ⟨r, hr, heq⟩ := List.mem_map.mp hmem
  refine ⟨c, hc, r, hr, ?_, (congrArg NewFinding.details heq).symm⟩
  rw [← congrArg NewFinding.clusterName heq]
  exact congrArg some (clusterName_analyzeCluster _ _ _)

/-- What the pending findings name, for one cluster: the rules planned for it. -/
theorem findingViews_perm (order : RowOrder AnalysisFinding) (hd : DistinctClusters t)
    (h : Fetched access (db.insertRun req) req.vcenterId (getFullInventory t))
    (hrows : RowsFit cfg.search req.analysisType (patternList cfg db) (getFullInventory t))
    {c : ClusterObj} (hc : c ∈ t.clusters) :
    (((((pendingFindings order (analysed cfg access db req) db.runs.next).map
      AnalysisFinding.toNewFinding).filterMap findingView).filter
        fun p => p.1 = c.name).map Prod.snd).Perm
      ((plannedRules cfg db req.analysisType c).map plannedView) := by
  have hviews : ((findingsFor cfg db db.runs.next req.analysisType (getFullInventory t)).filter
      (fun f => f.findingType = .drsRuleNeeded)).filterMap findingView =
        (clusterMap t).entries.flatMap fun e =>
          (plannedRules cfg db req.analysisType e.2).map fun r => (e.1, plannedView r) := by
    have hkeys : ((t.clusters.map fun c => (c.name, c)).map Prod.fst).Nodup := by
      rw [List.map_map]
      exact hd.names
    rw [filter_findingsFor, List.filterMap_flatMap, clusterMap, OrderedDict.entries_ofList hkeys,
      List.flatMap_map]
    apply List.flatMap_congr
    intro c _
    rw [List.filterMap_map, ← List.filterMap_eq_map]
    apply List.filterMap_congr
    intro r _
    show some ((analyzeCluster _ _ (clusterEntry c)).1.clusterName, plannedView r) = _
    rw [clusterName_analyzeCluster]
    rfl
  have hperm := (pending_perm order h hrows).filterMap findingView
  rw [hviews] at hperm
  have hcluster := OrderedDict.filter_flatMap_entries (clusterMap t)
    (fun e => (plannedRules cfg db req.analysisType e.2).map fun r => (e.1, plannedView r))
    Prod.fst ?_ c.name
  · refine ((hperm.filter _).map Prod.snd).trans ?_
    rw [hcluster, get?_clusterMap hd hc, Option.elim_some, List.map_map]
    exact List.Perm.refl _
  · intro e p hp
    obtain ⟨r, _, rfl⟩ := List.mem_map.mp hp
    rfl

/-- **The rules that the tasks add** to a cluster are those planned for it. -/
theorem addedRules_perm (hd : DistinctClusters t)
    (h : Fetched access (db.insertRun req) req.vcenterId (getFullInventory t))
    (hrows : RowsFit cfg.search req.analysisType (patternList cfg db) (getFullInventory t))
    {c : ClusterObj} (hc : c ∈ t.clusters) :
    ((addedRules ((session order (analysed cfg access db req)
      (succeeding t db.runs.next user key)).tasks.map Prod.snd) c.ref).map ruleView).Perm
      ((plannedRules cfg db req.analysisType c).map plannedView) := by
  refine List.Perm.trans (List.Perm.of_eq ?_) (findingViews_perm order hd h hrows hc)
  rw [tasks_session, addedRules, List.filter_filterMap, List.filterMap_filterMap,
    List.map_filterMap, List.filterMap_map, List.filter_filterMap, List.map_filterMap]
  apply List.filterMap_congr
  intro f hf
  obtain ⟨c', hc', r, hr, hcluster, hdetails⟩ := planned_of_pending h hrows hf
  obtain ⟨task, htask, href, hview⟩ :=
    taskFor_planned db.runs.next user key hd hc' hr hcluster hdetails
  have hfinding : findingView f.toNewFinding = some (c'.name, plannedView r) := by
    rw [findingView, hcluster, hdetails]
  rw [htask, Function.comp_apply, hfinding, Option.filter_some, Option.filter_some, href]
  by_cases heq : c' = c
  · rw [heq]
    simpa using hview
  · have hname : c'.name ≠ c.name := fun hn => heq (List.inj_on_of_nodup_map hd.names hc' hc hn)
    have href' : c'.ref ≠ c.ref := fun hr => heq (List.inj_on_of_nodup_map hd.refs hc' hc hr)
    simp [hname, href']

end Added

/-! ## One cycle -/

/-- `apply_drs` for the run that was just analysed, when every call to the vCenter succeeds. -/
def applied (cfg : Config) (access : Access) (order : RowOrder AnalysisFinding) (db : Db)
    (req : RunRequest) (t : Tree) (user : String) (key : Nat → Nat) : ApplyResult :=
  applyDrs access order (analysed cfg access db req) (succeeding t db.runs.next user key) true

/-- A completed analysis and the application of its rules, with the store and the vCenter
before and after. -/
inductive Cycle (cfg : Config) (req : RunRequest) (db : Db) (t : Tree) : Db → Tree → Prop
  | intro (access : Access) (order : RowOrder AnalysisFinding) (user : String)
      (key : Nat → Nat) :
      triggerAnalysis db req = some (db.insertRun req, db.runs.next) →
      Fetched access (db.insertRun req) req.vcenterId (getFullInventory t) →
      Reaches access (analysed cfg access db req) db.runs.next →
      Cycle cfg req db t (applied cfg access order db req t user key).db
        (t.finish ((applied cfg access order db req t user key).tasks.map Prod.snd))

theorem analysed_frame (cfg : Config) (access : Access) (db : Db) (req : RunRequest) :
    (analysed cfg access db req).connections = db.connections ∧
      (analysed cfg access db req).patterns = db.patterns := by
  unfold analysed doAnalysis
  split
  · exact ⟨rfl, rfl⟩
  · split
    · exact ⟨rfl, rfl⟩
    · dsimp only
      split
      · exact ⟨rfl, rfl⟩
      · exact ⟨rfl, rfl⟩

section Cycle

variable {cfg : Config} {req : RunRequest} {db db' : Db} {t t' : Tree}

theorem applied_of_reaches {access : Access} (order : RowOrder AnalysisFinding) (t : Tree)
    (user : String) (key : Nat → Nat)
    (hreach : Reaches access (analysed cfg access db req) db.runs.next) :
    (applied cfg access order db req t user key).db =
        commitApply (analysed cfg access db req)
          (session order (analysed cfg access db req) (succeeding t db.runs.next user key)) ∧
      (applied cfg access order db req t user key).tasks =
        (session order (analysed cfg access db req)
          (succeeding t db.runs.next user key)).tasks := by
  have happly : applied cfg access order db req t user key = if true then _ else _ :=
    applyDrs_of_reaches order true hreach
  rw [happly]
  exact ⟨rfl, rfl⟩

/-- What a cycle takes: an active connection, and findings that fit. -/
theorem Cycle.premises (h : Cycle cfg req db t db' t') :
    (∃ conn, db.connection req.vcenterId = some conn ∧ conn.isActive = true) ∧
      RowsFit cfg.search req.analysisType (patternList cfg db) (getFullInventory t) := by
  obtain ⟨access, order, user, key, htrigger, hfetch, hreach⟩ := h
  exact ⟨(triggerAnalysis_eq_some_iff.mp htrigger).1, (reaches_analysed_iff hfetch).mp hreach⟩

/-- A cycle changes neither the connections nor the patterns. -/
theorem Cycle.frame (h : Cycle cfg req db t db' t') :
    db'.connections = db.connections ∧ db'.patterns = db.patterns := by
  obtain ⟨access, order, user, key, _, _, hreach⟩ := h
  rw [(applied_of_reaches order t user key hreach).1]
  exact analysed_frame cfg access db req

/-- The cluster after a cycle has the rules it had and then those planned for it. -/
def Extends (cfg : Config) (db : Db) (type : AnalysisType) (c c' : ClusterObj) : Prop :=
  ∃ added, c' = { c with rules := c.rules ++ added } ∧
    (added.map ruleView).Perm ((plannedRules cfg db type c).map plannedView)

/-- **A cycle appends the planned rules** to every cluster. -/
theorem Cycle.extends (hd : DistinctClusters t) (h : Cycle cfg req db t db' t') :
    List.Forall₂ (Extends cfg db req.analysisType) t.clusters t'.clusters := by
  obtain ⟨access, order, user, key, _, hfetch, hreach⟩ := h
  have hrows := (reaches_analysed_iff hfetch).mp hreach
  rw [(applied_of_reaches order t user key hreach).2, Tree.clusters_finish,
    List.forall₂_map_right_iff, List.forall₂_same]
  intro c hc
  exact ⟨_, rfl, addedRules_perm hd hfetch hrows hc⟩

theorem Cycle.patternList_eq (h : Cycle cfg req db t db' t') :
    patternList cfg db' = patternList cfg db := by
  unfold patternList Db.activePatterns
  rw [h.frame.2]

/-- The clusters keep their names and references. -/
theorem Cycle.distinct (hd : DistinctClusters t) (h : Cycle cfg req db t db' t') :
    DistinctClusters t' := by
  obtain ⟨access, order, user, key, _, _, _⟩ := h
  have hclusters := t.clusters_finish
    ((applied cfg access order db req t user key).tasks.map Prod.snd)
  refine ⟨?_, ?_⟩
  · rw [hclusters, List.map_map]
    exact hd.names
  · rw [hclusters, List.map_map]
    exact hd.refs

/-- The inventory changes in the rules at most. -/
theorem Cycle.forgetRules (h : Cycle cfg req db t db' t') :
    forgetRules (getFullInventory t') = forgetRules (getFullInventory t) := by
  obtain ⟨access, order, user, key, _, _, _⟩ := h
  have hclusters := t.clusters_finish
    ((applied cfg access order db req t user key).tasks.map Prod.snd)
  unfold Analysis.forgetRules getFullInventory
  rw [hclusters]
  simp only [List.map_map]
  rfl

/-- A cycle can be repeated. -/
theorem Cycle.again (h : Cycle cfg req db t db' t') :
    ∃ db'' t'', Cycle cfg req db' t' db'' t'' := by
  obtain ⟨hconnections, _⟩ := h.frame
  obtain ⟨⟨conn, hconn, hactive⟩, hrows⟩ := h.premises
  have hconn' : db'.connection req.vcenterId = some conn := by
    rw [Db.connection, hconnections]
    exact hconn
  have hfetch : Fetched (accessTo (getFullInventory t')) (db'.insertRun req) req.vcenterId
      (getFullInventory t') := ⟨conn, conn.encryptedPassword, hconn', rfl, rfl, rfl⟩
  have hrows' : RowsFit cfg.search req.analysisType (patternList cfg db')
      (getFullInventory t') := by
    rw [h.patternList_eq, ← rowsFit_forgetRules, h.forgetRules, rowsFit_forgetRules]
    exact hrows
  refine ⟨_, _, Cycle.intro _ (RowOrder.asInserted _) "" id ?_ hfetch
    ((reaches_analysed_iff hfetch).mpr hrows')⟩
  exact triggerAnalysis_eq_some_iff.mpr ⟨⟨conn, hconn', hactive⟩, rfl, rfl⟩

end Cycle

end VsphereCompliance.Analysis
