import VsphereCompliance.Analysis.ApplyDrs
import VsphereCompliance.Analysis.Terminal
import VsphereCompliance.Library.Sessions

/-!
# The sessions with a vCenter

Five operations connect to a vCenter, use the connection and disconnect: the manual and the
scheduled analysis, `apply_drs`, `test_vcenter` and `get_inventory`. Each is written here with the
steps that may raise as parameters, in the order of the source; the store is left out. The
call of `disconnect` is a plain line behind the uses, not in a `finally` as `db.close()` is. So an
operation closes every session it opens exactly when no step between `connect` and `disconnect`
raises (`sessions_closed_iff`).
-/

namespace VsphereCompliance.Analysis

open Engine Store VCenter Sessions

/-! ## The shared lines -/

/-- What the operations ask of `VCenterService`. -/
structure Service extends Access where
  getVersion : VCenterConnection → Except String String
  getAllClusters : VCenterConnection → Except String (List ClusterObj)

/-- Decrypt the password, connect, use the connection and disconnect; `connect` opens no session
if it raises, and `disconnect` catches what `Disconnect` raises. -/
def useVCenter {α : Type} (service : Service) (conn : Option VCenterConnection)
    (use : VCenterConnection → Except String α) : Tracked String α :=
  openUseClose (openVCenter service.toAccess conn) use

/-! ## The operations -/

/-- The inner `try` of an analysis: the inventory, the engine and the columns of the run, and what
is written into the run after an exception. -/
def analyseVCenter (service : Service) (conn : Option VCenterConnection)
    (analyse : Inventory → Except String Unit) (markFailed : Except String Unit) :
    Tracked String Unit :=
  tryCatch (do
    let inventory ← useVCenter service conn service.getFullInventory
    step (analyse inventory)) fun _ => step markFailed

/-- The steps of `_do_analysis`; `queries` are those for the run, the connection and the
patterns. -/
structure ManualSteps where
  queries : Except String (Option VCenterConnection)
  analyse : Inventory → Except String Unit
  markFailed : Except String Unit
  commit : Except String Unit

/-- `_do_analysis`. -/
def manualAnalysis (service : Service) (steps : ManualSteps) : Tracked String Unit := do
  let conn ← step steps.queries
  analyseVCenter service conn steps.analyse steps.markFailed
  step steps.commit

/-- The steps for one connection of `run_scheduled_analysis`. -/
structure ScheduledSteps where
  conn : VCenterConnection
  insertRun : Except String Unit
  analyse : Inventory → Except String Unit
  markFailed : Except String Unit
  commit : Except String Unit

/-- One pass of the loop over the connections. -/
def scheduledPass (service : Service) (steps : ScheduledSteps) : Tracked String Unit := do
  step steps.insertRun
  analyseVCenter service (some steps.conn) steps.analyse steps.markFailed
  step steps.commit

/-- `run_scheduled_analysis`; `connections` is the query for the active ones. -/
def scheduledAnalysis (service : Service) (connections : Except String (List ScheduledSteps)) :
    Tracked String Unit := do
  let passes ← step connections
  forM passes (scheduledPass service)

/-- The steps of `apply_drs`; `queries` are those for the run and the connection, and `applyRule`
is the body of the loop over the findings. -/
structure ApplySteps where
  queries : Except String (Option VCenterConnection)
  clusterName : ClusterObj → Except String String
  findings : Except String (List AnalysisFinding)
  applyRule : OrderedDict String ClusterObj → AnalysisFinding → Except String Unit
  commit : Except String Unit

/-- What `apply_drs` does between `connect` and `disconnect`. -/
def applyRules (service : Service) (steps : ApplySteps) (conn : VCenterConnection) :
    Except String Unit := do
  let clusters ← service.getAllClusters conn
  let names ← clusters.mapM steps.clusterName
  let findings ← steps.findings
  forM findings (steps.applyRule (OrderedDict.ofList (names.zip clusters)))

/-- `apply_drs`; an exception is raised again as an `HTTPException`. -/
def applyRulesTo (service : Service) (steps : ApplySteps) : Tracked String Unit := do
  let conn ← step steps.queries
  useVCenter service conn (applyRules service steps)
  step steps.commit

/-- `test_vcenter`; `commit` stores the version. -/
def testConnection (service : Service) (connection : Except String VCenterConnection)
    (commit : String → Except String Unit) : Tracked String Unit := do
  let conn ← step connection
  let version ← useVCenter service (some conn) service.getVersion
  step (commit version)

/-- `get_inventory`. -/
def getInventory (service : Service) (connection : Except String VCenterConnection) :
    Tracked String Inventory := do
  let conn ← step connection
  useVCenter service (some conn) service.getFullInventory

/-! ## What the shared lines do -/

section Shared

variable {α : Type} {service : Service} {conn : Option VCenterConnection}
  {use : VCenterConnection → Except String α}

/-- Whenever the connection is opened, the uses return. -/
def UsesReturn (service : Service) (conn : Option VCenterConnection)
    (use : VCenterConnection → Except String α) : Prop :=
  ∀ c, openVCenter service.toAccess conn = .ok c → ∃ a, use c = .ok a

theorem orderly_useVCenter : Sessions.Orderly (useVCenter service conn use) :=
  orderly_openUseClose _ _

theorem closesAll_useVCenter_iff (s : State) :
    ClosesAll (useVCenter service conn use) s ↔ UsesReturn service conn use :=
  closesAll_openUseClose_iff _ _ s

/-- Without the sessions this is what the other modules call `fetchInventory`. -/
theorem yields_fetchInventory (service : Service) (conn : Option VCenterConnection) :
    Yields (useVCenter service conn service.getFullInventory)
      (fetchInventory service.toAccess conn) :=
  yields_openUseClose _ _

theorem orderly_analyseVCenter (analyse : Inventory → Except String Unit)
    (markFailed : Except String Unit) :
    Sessions.Orderly (analyseVCenter service conn analyse markFailed) :=
  (orderly_useVCenter.bind fun _ => orderly_step _).tryCatch fun _ => orderly_step _

theorem closesAll_analyseVCenter_iff (analyse : Inventory → Except String Unit)
    (markFailed : Except String Unit) (s : State) :
    ClosesAll (analyseVCenter service conn analyse markFailed) s ↔
      UsesReturn service conn service.getFullInventory := by
  unfold analyseVCenter
  rw [closesAll_tryCatch_iff (orderly_useVCenter.bind fun _ => orderly_step _)
    (fun _ => orderly_step _) fun _ _ => closesAll_step _ _,
    closesAll_bind_step_iff orderly_useVCenter, closesAll_useVCenter_iff]

end Shared

/-! ## The loop over the connections -/

/-- How a pass ends, without the sessions. -/
def ScheduledSteps.outcome (service : Service) (steps : ScheduledSteps) : Except String Unit := do
  steps.insertRun
  tryCatch (do
    let inventory ← fetchInventory service.toAccess (some steps.conn)
    steps.analyse inventory) fun _ => steps.markFailed
  steps.commit

section Scheduled

variable {service : Service}

theorem orderly_scheduledPass (steps : ScheduledSteps) :
    Sessions.Orderly (scheduledPass service steps) :=
  (orderly_step _).bind fun _ => (orderly_analyseVCenter _ _).bind fun _ => orderly_step _

theorem yields_scheduledPass (steps : ScheduledSteps) :
    Yields (scheduledPass service steps) (steps.outcome service) :=
  (yields_step _).bind fun _ => ((((yields_fetchInventory service _).bind fun _ =>
    yields_step _).tryCatch fun _ => yields_step _).bind fun _ => yields_step _)

theorem closesAll_scheduledPass_iff (steps : ScheduledSteps) (s : State) :
    ClosesAll (scheduledPass service steps) s ↔ ∀ u, steps.insertRun = .ok u →
      UsesReturn service (some steps.conn) service.getFullInventory := by
  unfold scheduledPass
  rw [closesAll_step_bind_iff _ fun _ => (orderly_analyseVCenter _ _).bind fun _ =>
    orderly_step _]
  simp only [closesAll_bind_step_iff (orderly_analyseVCenter _ _), closesAll_analyseVCenter_iff]

end Scheduled

/-! ## The manual analysis of a store -/

/-- The steps that `doAnalysis` takes: without its run the columns cannot be written, and the
commit is rejected with a finding that does not fit. -/
def stepsOf (cfg : Config) (service : Service) (db : Db) (runId vcenterId : Nat)
    (type : AnalysisType) : ManualSteps :=
  let writeRun : Except String Unit := if (db.runs.find? runId).isSome then .ok () else
    .error "'NoneType' object has no attribute 'status'"
  { queries := .ok (db.connection vcenterId)
    analyse := fun _ => writeRun
    markFailed := writeRun
    commit := match fetchInventory service.toAccess (db.connection vcenterId) with
      | .error _ => .ok ()
      | .ok inventory =>
        if ∀ f ∈ findingsFor cfg db runId type inventory, Accepts db f then .ok ()
        else .error "value too long for type character varying" }

theorem tryCatch_bind_const {ε α β : Type} (x : Except ε β) (r : Except ε α) :
    tryCatch (x >>= fun _ => r) (fun _ => r) = r := by
  cases x with
  | error e => rfl
  | ok b =>
    cases r with
    | error e => rfl
    | ok a => rfl

/-- **The manual analysis ends as `doAnalysis` does.** -/
theorem manualAnalysis_returns_iff (cfg : Config) (service : Service) (db : Db)
    (runId vcenterId : Nat) (type : AnalysisType) (s : State) :
    (exec (manualAnalysis service (stepsOf cfg service db runId vcenterId type)) s).1 = .ok () ↔
      (doAnalysis cfg service.toAccess db runId vcenterId type).2 = .returned := by
  have hyields : Yields (manualAnalysis service (stepsOf cfg service db runId vcenterId type))
      ((stepsOf cfg service db runId vcenterId type).markFailed >>= fun _ =>
        (stepsOf cfg service db runId vcenterId type).commit) := by
    rw [← tryCatch_bind_const (fetchInventory service.toAccess (db.connection vcenterId))
      (stepsOf cfg service db runId vcenterId type).markFailed]
    exact (yields_step _).bind fun _ => ((((yields_fetchInventory service _).bind fun _ =>
      yields_step _).tryCatch fun _ => yields_step _).bind fun _ => yields_step _)
  rw [hyields s]
  cases hrun : db.runs.find? runId with
  | none => simp [stepsOf, doAnalysis, hrun, bind, Except.bind]
  | some run =>
    cases hfetch : fetchInventory service.toAccess (db.connection vcenterId) with
    | error e =>
      rw [doAnalysis_error hrun hfetch]
      simp [stepsOf, hrun, hfetch, bind, Except.bind]
    | ok inventory =>
      have hacc : (∀ f ∈ findingsFor cfg db runId type inventory, Accepts db f) ↔ _ :=
        accepts_findingsFor_iff hrun inventory
      by_cases hfit : ∀ f ∈ findingsFor cfg db runId type inventory, FitsColumns f
      · obtain ⟨_, heq⟩ := doAnalysis_completed hrun hfetch hfit
        rw [heq]
        simp [stepsOf, hrun, hfetch, bind, Except.bind, if_pos (hacc.mpr hfit)]
      · rw [doAnalysis_rejected hrun hfetch hfit]
        simp [stepsOf, hrun, hfetch, bind, Except.bind, if_neg fun hall => hfit (hacc.mp hall)]

/-! ## All operations -/

/-- A call of one of the operations, with the outcomes of its steps. -/
inductive Call
  | manualAnalysis (steps : ManualSteps)
  | scheduledAnalysis (connections : Except String (List ScheduledSteps))
  | applyDrs (steps : ApplySteps)
  | testVcenter (connection : Except String VCenterConnection)
      (commit : String → Except String Unit)
  | getInventory (connection : Except String VCenterConnection)

/-- The sessions after the call. -/
def sessionsAfter (service : Service) (s : State) : Call → State
  | .manualAnalysis steps => (exec (manualAnalysis service steps) s).2
  | .scheduledAnalysis connections => (exec (scheduledAnalysis service connections) s).2
  | .applyDrs steps => (exec (applyRulesTo service steps) s).2
  | .testVcenter connection commit => (exec (testConnection service connection commit) s).2
  | .getInventory connection => (exec (getInventory service connection) s).2

/-- No step between `connect` and `disconnect` raises, for every connection that the call comes
to. -/
def StepsReturn (service : Service) : Call → Prop
  | .manualAnalysis steps => ∀ conn, steps.queries = .ok conn →
    UsesReturn service conn service.getFullInventory
  | .scheduledAnalysis connections => ∀ passes, connections = .ok passes →
    ∀ pass ∈ Sessions.reached (ScheduledSteps.outcome service) passes, ∀ u,
      pass.insertRun = .ok u → UsesReturn service (some pass.conn) service.getFullInventory
  | .applyDrs steps => ∀ conn, steps.queries = .ok conn →
    UsesReturn service conn (applyRules service steps)
  | .testVcenter connection _ => ∀ conn, connection = .ok conn →
    UsesReturn service (some conn) service.getVersion
  | .getInventory connection => ∀ conn, connection = .ok conn →
    UsesReturn service (some conn) service.getFullInventory

/-- **Every session that is opened is closed** exactly when no step between `connect` and
`disconnect` raises, for each of the operations. -/
theorem sessions_closed_iff (service : Service) (call : Call) (s : State) :
    AllClosed s (sessionsAfter service s call) ↔ StepsReturn service call := by
  cases call with
  | manualAnalysis steps =>
    show ClosesAll (manualAnalysis service steps) s ↔ _
    unfold manualAnalysis
    rw [closesAll_step_bind_iff _ fun _ => (orderly_analyseVCenter _ _).bind fun _ =>
      orderly_step _]
    simp only [closesAll_bind_step_iff (orderly_analyseVCenter _ _), closesAll_analyseVCenter_iff]
    rfl
  | scheduledAnalysis connections =>
    show ClosesAll (scheduledAnalysis service connections) s ↔ _
    unfold scheduledAnalysis
    rw [closesAll_step_bind_iff _ fun _ => orderly_forM orderly_scheduledPass _]
    simp only [closesAll_forM_iff orderly_scheduledPass yields_scheduledPass
      closesAll_scheduledPass_iff]
    rfl
  | applyDrs steps =>
    show ClosesAll (applyRulesTo service steps) s ↔ _
    unfold applyRulesTo
    rw [closesAll_step_bind_iff _ fun _ => orderly_useVCenter.bind fun _ => orderly_step _]
    simp only [closesAll_bind_step_iff orderly_useVCenter, closesAll_useVCenter_iff]
    rfl
  | testVcenter connection commit =>
    show ClosesAll (testConnection service connection commit) s ↔ _
    unfold testConnection
    rw [closesAll_step_bind_iff _ fun _ => orderly_useVCenter.bind fun _ => orderly_step _]
    simp only [closesAll_bind_step_iff orderly_useVCenter, closesAll_useVCenter_iff]
    rfl
  | getInventory connection =>
    show ClosesAll (getInventory service connection) s ↔ _
    unfold getInventory
    rw [closesAll_step_bind_iff _ fun _ => orderly_useVCenter]
    simp only [closesAll_useVCenter_iff]
    rfl

/-! ## An inventory that cannot be read -/

/-- The vCenter accepts the login, and reading its inventory raises. -/
def unreadable : Service where
  decryptValue := .ok
  connect _ _ := .ok ()
  getFullInventory _ := .error "NoPermission"
  getVersion _ := .ok "8.0.2"
  getAllClusters _ := .ok []

/-- The session of a manual analysis stays open. -/
theorem unreadable_inventory_leaks :
    sessionsAfter unreadable [] (.manualAnalysis ⟨.ok (some localConnection), fun _ => .ok (),
        .ok (), .ok ()⟩) = [false] ∧
      ¬ AllClosed [] (sessionsAfter unreadable [] (.manualAnalysis
        ⟨.ok (some localConnection), fun _ => .ok (), .ok (), .ok ()⟩)) := by
  have hopen : sessionsAfter unreadable [] (.manualAnalysis ⟨.ok (some localConnection),
      fun _ => .ok (), .ok (), .ok ()⟩) = [false] := rfl
  rw [hopen]
  decide

end VsphereCompliance.Analysis
