import VsphereCompliance.Analysis.Agreement

/-!
# Is the applied rule the recorded one?

`apply_drs` looks for the cluster and the VMs again, by name and in the vCenter of that moment.
Of the clusters with one name it takes the last, names without a VM are left out of the rule,
and a name listed twice gives one VM twice. The history row lists the planned names all the
same. So the rule is the recorded one exactly when the plan is found as it was made
(`applied_rule_iff`); with a VM gone it is another one (`removed_vm_recorded`).
-/

namespace VsphereCompliance.Analysis

open Engine Store VCenter

/-! ## What should hold -/

/-- The VMs of a rule are one VM for each of the names. -/
structure OneEach (vms : List VmRef) (names : List String) : Prop where
  listed : ∀ vm ∈ vms, ∃ name ∈ names, vm.name = some name
  one : ∀ name ∈ names, ∃! ref, (⟨ref, some name⟩ : VmRef) ∈ vms

/-- The rule is one on the cluster, for two VMs at least, and for the VMs of the row. -/
structure AsRecorded (origin : Nat) (task : RuleTask) (row : DrsRuleHistory) : Prop where
  cluster : task.cluster = origin
  two : ∃ a ∈ task.vms, ∃ b ∈ task.vms, a.ref ≠ b.ref
  vms : OneEach task.vms row.vmsInRule

/-- If the request marks the finding, then the rule that it submits for it, on the cluster
`origin`, is the one of the row that it writes for it. -/
def AppliedAsRecorded (access : Access) (order : RowOrder AnalysisFinding) (db : Db)
    (req : Request) (commits : Bool) (origin : Nat) (f : AnalysisFinding) : Prop :=
  (∃ g ∈ (applyDrs access order db req commits).db.findings.rows,
      g.id = f.id ∧ g.actionTaken = true) →
    ∃ task row, (f.id, task) ∈ (applyDrs access order db req commits).tasks ∧
      (applyDrs access order db req commits).db.createdFor f.id = db.createdFor f.id ++ [row] ∧
      AsRecorded origin task row

/-! ## What the names lead to -/

/-- The last of the clusters with the name. -/
def lastCluster (t : Tree) (name : String) : Option ClusterObj :=
  t.clusters.reverse.find? fun c => c.name = name

/-- The last of the VMs of the cluster with the name. -/
def lastVm (c : ClusterObj) (name : String) : Option VmObj :=
  (getClusterVms c).reverse.find? fun vm => vm.name = name

/-- The cluster has a VM with the name. -/
def HasVm (c : ClusterObj) (name : String) : Prop := ∃ vm ∈ getClusterVms c, vm.name = name

instance (c : ClusterObj) (name : String) : Decidable (HasVm c name) :=
  inferInstanceAs (Decidable (∃ vm ∈ getClusterVms c, vm.name = name))

/-- A VM, known by its reference, has one name. -/
def OneNameEach (t : Tree) : Prop :=
  ∀ c ∈ t.clusters, ∀ v ∈ getClusterVms c, ∀ w ∈ getClusterVms c, v.ref = w.ref → v.name = w.name

instance (t : Tree) : Decidable (OneNameEach t) :=
  inferInstanceAs (Decidable (∀ c ∈ t.clusters, ∀ v ∈ getClusterVms c, ∀ w ∈ getClusterVms c,
    v.ref = w.ref → v.name = w.name))

theorem get?_clusterMap_eq (t : Tree) : (clusterMap t).get? = lastCluster t := by
  funext name
  unfold clusterMap lastCluster
  rw [OrderedDict.get?_ofList_map ClusterObj.name fun c => c]
  exact Option.map_id'

theorem mem_of_lastCluster {t : Tree} {name : Option String} {c : ClusterObj}
    (h : name.bind (lastCluster t) = some c) : c ∈ t.clusters := by
  obtain ⟨_, _, hlast⟩ := Option.bind_eq_some_iff.mp h
  exact List.mem_reverse.mp (List.mem_of_find?_eq_some hlast)

section Vms

variable {c : ClusterObj} {names : List String} {name : String}

theorem isSome_lastVm : (lastVm c name).isSome ↔ HasVm c name := by
  unfold lastVm HasVm
  simp only [List.find?_isSome, List.mem_reverse, decide_eq_true_eq]

theorem of_lastVm_eq_some {vm : VmObj} (h : lastVm c name = some vm) :
    vm ∈ getClusterVms c ∧ vm.name = name := by
  have hname := List.find?_some h
  exact ⟨List.mem_reverse.mp (List.mem_of_find?_eq_some h), of_decide_eq_true hname⟩

theorem targetVms_eq (c : ClusterObj) (names : List String) : targetVms c names =
    (names.filterMap (lastVm c)).map fun vm => ⟨vm.ref, some vm.name⟩ := by
  have hget : ∀ name, (OrderedDict.ofList ((getClusterVms c).map fun vm => (vm.name, vm))).get?
      name = lastVm c name := by
    intro name
    rw [OrderedDict.get?_ofList_map VmObj.name fun vm => vm]
    exact Option.map_id'
  unfold targetVms
  dsimp only
  rw [List.filterMap_congr fun name _ => hget name]

theorem mem_targetVms {vm : VmRef} : vm ∈ targetVms c names ↔
    ∃ name ∈ names, ∃ v, lastVm c name = some v ∧ vm = ⟨v.ref, some name⟩ := by
  rw [targetVms_eq, List.mem_map]
  constructor
  · intro h
    obtain ⟨v, hv, rfl⟩ := h
    obtain ⟨name, hname, hlast⟩ := List.mem_filterMap.mp hv
    exact ⟨name, hname, v, hlast, by rw [(of_lastVm_eq_some hlast).2]⟩
  · intro h
    obtain ⟨name, hname, v, hlast, rfl⟩ := h
    exact ⟨v, List.mem_filterMap.mpr ⟨name, hname, hlast⟩, by rw [(of_lastVm_eq_some hlast).2]⟩

/-- A listed name counts each time it is found. -/
theorem length_targetVms (c : ClusterObj) (names : List String) :
    (targetVms c names).length = names.countP (HasVm c ·) := by
  rw [targetVms_eq, List.length_map, List.length_filterMap_eq_countP]
  apply List.countP_congr
  intro name _
  rw [decide_eq_true_eq]
  exact isSome_lastVm

/-- A found name is the name of one VM in the rule. -/
theorem existsUnique_targetVms (hname : name ∈ names) (h : HasVm c name) :
    ∃! ref, (⟨ref, some name⟩ : VmRef) ∈ targetVms c names := by
  obtain ⟨v, hlast⟩ := Option.isSome_iff_exists.mp (isSome_lastVm.mpr h)
  refine ⟨v.ref, mem_targetVms.mpr ⟨name, hname, v, hlast, rfl⟩, ?_⟩
  intro ref hmem
  obtain ⟨name', _, v', hlast', heq⟩ := mem_targetVms.mp hmem
  obtain ⟨rfl, hsome⟩ := VmRef.mk.inj heq
  obtain rfl := Option.some.inj hsome
  rw [hlast] at hlast'
  rw [Option.some.inj hlast']

/-- The VMs of the rule are one for each listed name exactly when each is found. -/
theorem oneEach_targetVms_iff :
    OneEach (targetVms c names) names ↔ ∀ name ∈ names, HasVm c name := by
  constructor
  · intro h name hname
    obtain ⟨ref, hmem, _⟩ := h.one name hname
    obtain ⟨name', _, v, hlast, heq⟩ := mem_targetVms.mp hmem
    obtain rfl := Option.some.inj (VmRef.mk.inj heq).2
    exact isSome_lastVm.mp (Option.isSome_iff_exists.mpr ⟨v, hlast⟩)
  · intro hall
    refine ⟨?_, fun name hname => existsUnique_targetVms hname (hall name hname)⟩
    intro vm hvm
    obtain ⟨name, hname, _, _, rfl⟩ := mem_targetVms.mp hvm
    exact ⟨name, hname, rfl⟩

/-- Two names are names of two VMs. -/
theorem two_targetVms_iff (hnames : ∀ v ∈ getClusterVms c, ∀ w ∈ getClusterVms c,
      v.ref = w.ref → v.name = w.name) (hall : ∀ name ∈ names, HasVm c name) :
    (∃ a ∈ targetVms c names, ∃ b ∈ targetVms c names, a.ref ≠ b.ref) ↔
      ∃ a ∈ names, ∃ b ∈ names, a ≠ b := by
  constructor
  · intro h
    obtain ⟨x, hx, y, hy, hne⟩ := h
    obtain ⟨a, ha, v, hv, rfl⟩ := mem_targetVms.mp hx
    obtain ⟨b, hb, w, hw, rfl⟩ := mem_targetVms.mp hy
    refine ⟨a, ha, b, hb, ?_⟩
    rintro rfl
    rw [hv] at hw
    exact hne (congrArg VmObj.ref (Option.some.inj hw))
  · intro h
    obtain ⟨a, ha, b, hb, hne⟩ := h
    obtain ⟨v, hv⟩ := Option.isSome_iff_exists.mp (isSome_lastVm.mpr (hall a ha))
    obtain ⟨w, hw⟩ := Option.isSome_iff_exists.mp (isSome_lastVm.mpr (hall b hb))
    refine ⟨_, mem_targetVms.mpr ⟨a, ha, v, hv, rfl⟩, _, mem_targetVms.mpr ⟨b, hb, w, hw, rfl⟩, ?_⟩
    intro href
    obtain ⟨hvmem, rfl⟩ := of_lastVm_eq_some hv
    obtain ⟨hwmem, rfl⟩ := of_lastVm_eq_some hw
    exact hne (hnames v hvmem w hwmem href)

end Vms

/-! ## The request -/

/-- If the request is to submit a rule for the finding, and at least two listed names are found
on the last cluster with the name, then this is the cluster `origin`, all listed names are
found on it, and they are not all the same name. -/
def FoundAsPlanned (access : Access) (db : Db) (req : Request) (commits : Bool) (origin : Nat)
    (f : AnalysisFinding) : Prop :=
  Reaches access db req.runId → commits = true → ∀ cluster rule result,
    f.clusterName.bind (lastCluster req.tree) = some cluster → f.details = .rule rule →
    req.outcome f.id = .task result → 2 ≤ rule.vms.countP (HasVm cluster ·) →
    cluster.ref = origin ∧ (∀ name ∈ rule.vms, HasVm cluster name) ∧
      ∃ a ∈ rule.vms, ∃ b ∈ rule.vms, a ≠ b

section Request

variable {access : Access} {order : RowOrder AnalysisFinding} {db : Db} {req : Request}
  {commits : Bool} {f : AnalysisFinding}

theorem marked_applyDrs_iff (hf : f ∈ pendingFindings order db req.runId) :
    (∃ g ∈ (applyDrs access order db req commits).db.findings.rows,
        g.id = f.id ∧ g.actionTaken = true) ↔
      Reaches access db req.runId ∧ commits = true ∧ (taskFor req f).isSome := by
  by_cases hreach : Reaches access db req.runId
  · rw [applyDrs_of_reaches order commits hreach]
    cases commits with
    | false => simp [not_marked hf]
    | true => simpa [hreach] using marked_commit_iff hf
  · rw [(applyDrs_of_not_reaches order commits hreach).1]
    simp [hreach, not_marked hf]

/-- The finding has one task. -/
theorem mem_tasks_session_iff (hf : f ∈ pendingFindings order db req.runId) {task : RuleTask} :
    (f.id, task) ∈ (session order db req).tasks ↔ taskFor req f = some task := by
  rw [mem_tasks_session]
  constructor
  · intro h
    obtain ⟨g, hg, htask, hid⟩ := h
    obtain rfl : g = f :=
      List.inj_on_of_nodup_map (nodup_pendingFindings order db req.runId) hg hf hid
    exact htask
  · intro htask
    exact ⟨f, hf, htask, rfl⟩

/-- The task and the row that a marked finding has after the request. -/
theorem exists_asRecorded_iff (hf : f ∈ pendingFindings order db req.runId) {rule : RuleToCreate}
    (hrule : f.details = .rule rule) {task : RuleTask} (htask : taskFor req f = some task)
    (origin : Nat) :
    (∃ task row, (f.id, task) ∈ (session order db req).tasks ∧
        (commitApply db (session order db req)).createdFor f.id =
          db.createdFor f.id ++ [row] ∧ AsRecorded origin task row) ↔
      AsRecorded origin task (historyRow req f rule) := by
  have hrowFor : rowFor req f = some (historyRow req f rule) := by
    unfold rowFor
    rw [hrule]
    dsimp only
    rw [htask]
    rfl
  rw [createdFor_commitApply hf, hrowFor, Option.toList_some]
  constructor
  · intro h
    obtain ⟨task', row, hmem, hcreated, hrec⟩ := h
    rw [mem_tasks_session_iff hf, htask] at hmem
    obtain rfl := Option.some.inj hmem
    obtain rfl := List.singleton_inj.mp (List.append_cancel_left hcreated)
    exact hrec
  · intro hrec
    exact ⟨task, _, (mem_tasks_session_iff hf).mpr htask, rfl, hrec⟩

/-- The rule for the listed VMs on a cluster. -/
theorem asRecorded_iff {c : ClusterObj} (hnames : ∀ v ∈ getClusterVms c, ∀ w ∈ getClusterVms c,
      v.ref = w.ref → v.name = w.name) (rule : RuleToCreate) (result : Option Nat)
    (origin : Nat) :
    AsRecorded origin ⟨c.ref, rule.ruleName, targetVms c rule.vms, result⟩
        (historyRow req f rule) ↔
      c.ref = origin ∧ (∀ name ∈ rule.vms, HasVm c name) ∧
        ∃ a ∈ rule.vms, ∃ b ∈ rule.vms, a ≠ b := by
  constructor
  · intro h
    have hall := oneEach_targetVms_iff.mp h.vms
    exact ⟨h.cluster, hall, (two_targetVms_iff hnames hall).mp h.two⟩
  · intro h
    obtain ⟨href, hall, htwo⟩ := h
    exact ⟨href, (two_targetVms_iff hnames hall).mpr htwo, oneEach_targetVms_iff.mpr hall⟩

/-- **The applied rule is the recorded one** exactly when the plan is found as it was made. -/
theorem applied_rule_iff (access : Access) (order : RowOrder AnalysisFinding) (db : Db)
    (req : Request) (commits : Bool) (origin : Nat) (f : AnalysisFinding)
    (hnames : OneNameEach req.tree) (hrow : f ∈ db.findings.rows) (hpend : Pending req.runId f) :
    AppliedAsRecorded access order db req commits origin f ↔
      FoundAsPlanned access db req commits origin f := by
  have hf : f ∈ pendingFindings order db req.runId := mem_pendingFindings.mpr ⟨hrow, hpend⟩
  constructor
  · intro h hreach hcommits cluster rule result hcluster hrule hout hfound
    have htask : taskFor req f =
        some ⟨cluster.ref, rule.ruleName, targetVms cluster rule.vms, result⟩ := by
      rw [← get?_clusterMap_eq] at hcluster
      rw [← length_targetVms] at hfound
      exact taskFor_eq_some_iff.mpr ⟨cluster, rule, result, hcluster, hrule, hfound, hout, rfl⟩
    have hrec := h ((marked_applyDrs_iff hf).mpr ⟨hreach, hcommits, by rw [htask]; rfl⟩)
    rw [applyDrs_of_reaches order commits hreach, if_pos hcommits] at hrec
    exact (asRecorded_iff (hnames cluster (mem_of_lastCluster hcluster)) rule result origin).mp
      ((exists_asRecorded_iff hf hrule htask origin).mp hrec)
  · intro h hmark
    obtain ⟨hreach, hcommits, hstarted⟩ := (marked_applyDrs_iff hf).mp hmark
    obtain ⟨task, htask⟩ := Option.isSome_iff_exists.mp hstarted
    obtain ⟨cluster, rule, result, hcluster, hrule, hfound, hout, rfl⟩ :=
      taskFor_eq_some_iff.mp htask
    rw [get?_clusterMap_eq] at hcluster
    rw [length_targetVms] at hfound
    rw [applyDrs_of_reaches order commits hreach, if_pos hcommits]
    refine (exists_asRecorded_iff hf hrule htask origin).mpr ?_
    refine (asRecorded_iff (hnames cluster (mem_of_lastCluster hcluster)) rule result origin).mpr ?_
    exact h hreach hcommits cluster rule result hcluster hrule hout hfound

/-- Three web servers on a cluster of four hosts. -/
def threeWebTree : Tree where
  clusters := [⟨10, "Cluster-A", [⟨[⟨20, "WEB-01", some []⟩]⟩, ⟨[⟨21, "WEB-02", some []⟩]⟩,
    ⟨[⟨22, "WEB-03", some []⟩]⟩, ⟨[]⟩], []⟩]
  datastores := []
  pods := []

/-- The store after the analysis of these three: finding 1 needs a rule. -/
def threeWebDb : Db :=
  (doAnalysis webNamesConfig (accessTo (getFullInventory threeWebTree)) triggeredDb 1 1 .full).1

/-- The request to apply the rule in a vCenter; the task will succeed. -/
def applyRequest (t : Tree) : Request := ⟨t, 1, "admin", fun _ => .task (some 7)⟩

theorem exists_pending_threeWebDb : ∃ f ∈ threeWebDb.findings.rows, Pending 1 f ∧ f.id = 1 := by
  decide

theorem applied_rule_iff_threeWeb : ∃ f ∈ threeWebDb.findings.rows,
    (AppliedAsRecorded (accessTo (getFullInventory threeWebTree)) (RowOrder.asInserted _) threeWebDb
        (applyRequest threeWebTree) true 10 f ↔
      FoundAsPlanned (accessTo (getFullInventory threeWebTree)) threeWebDb
        (applyRequest threeWebTree) true 10 f) := by
  obtain ⟨f, hf, hpend, _⟩ := exists_pending_threeWebDb
  exact ⟨f, hf, applied_rule_iff _ _ threeWebDb (applyRequest threeWebTree) true 10 f (by decide) hf
    hpend⟩

/-- With the third web server gone, the rule is for two VMs and the row lists three. -/
theorem removed_vm_recorded : ∃ f ∈ threeWebDb.findings.rows, Pending 1 f ∧
    ¬ AppliedAsRecorded (accessTo (getFullInventory webTree)) (RowOrder.asInserted _) threeWebDb
      (applyRequest webTree) true 10 f := by
  obtain ⟨f, hf, hpend, hid⟩ := exists_pending_threeWebDb
  refine ⟨f, hf, hpend, ?_⟩
  intro h
  unfold AppliedAsRecorded at h
  rw [hid] at h
  obtain ⟨task, row, hmem, hcreated, hrec⟩ := h (by decide)
  have htasks : ∀ p ∈ (applyDrs (accessTo (getFullInventory webTree)) (RowOrder.asInserted _)
      threeWebDb (applyRequest webTree) true).tasks,
      p.2.vms = [⟨20, some "WEB-01"⟩, ⟨21, some "WEB-02"⟩] := by
    decide
  have hrows : ∀ row ∈ (applyDrs (accessTo (getFullInventory webTree)) (RowOrder.asInserted _)
      threeWebDb (applyRequest webTree) true).db.createdFor 1, "WEB-03" ∈ row.vmsInRule := by
    decide
  have hlisted := hrows row (by rw [hcreated]; exact List.mem_append_right _ List.mem_cons_self)
  obtain ⟨ref, hvm, _⟩ := hrec.vms.one "WEB-03" hlisted
  have htask : (⟨ref, some "WEB-03"⟩ : VmRef) ∈
      [(⟨20, some "WEB-01"⟩ : VmRef), ⟨21, some "WEB-02"⟩] := htasks _ hmem ▸ hvm
  simp at htask

end Request

end VsphereCompliance.Analysis
