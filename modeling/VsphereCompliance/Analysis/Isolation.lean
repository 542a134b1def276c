import VsphereCompliance.Analysis.Scheduled

/-!
# Does one connection affect the others?

A scheduled analysis should leave one ended run for every active connection, whatever happens
to the others. `failure_isolated_iff` says that it does exactly when the findings of every
connection fit into their columns: a rejected commit leaves its run `running` and the
connections behind it without a run.
-/

namespace VsphereCompliance.Analysis

open Engine Store

/-! ## The runs of one call -/

/-- The runs that were inserted since. -/
def newRuns (db after : Db) : List AnalysisRun :=
  after.runs.rows.filter fun run => db.runs.next ≤ run.id

/-- What the new runs of a connection leave. -/
def outcomes (db after : Db) (vcenterId : Nat) : List RunReport :=
  ((newRuns db after).filter fun run => run.vcenterId = some vcenterId).map (reportOf after)

/-- The store with no other connection. -/
def onlyConnection (db : Db) (vcenterId : Nat) : Db :=
  { db with connections := db.connections.filter fun conn => conn.id = vcenterId }

/-- One ended run for each active connection, with the outcome it has alone. -/
structure FailureIsolated (cfg : Config) (order : RowOrder VCenterConnection) (access : Access)
    (db after : Db) : Prop where
  kept : after.runs.rows = db.runs.rows ++ newRuns db after
  oneRun : (newRuns db after).map AnalysisRun.vcenterId =
    (activeConnections order db).map some
  terminal : ∀ run ∈ newRuns db after, run.status = .completed ∨ run.status = .failed
  independent : ∀ vcenterId ∈ activeConnections order db, outcomes db after vcenterId =
    outcomes (onlyConnection db vcenterId)
      (runScheduledAnalysis cfg order access (onlyConnection db vcenterId)).1 vcenterId

section Connections

variable {cfg : Config} {order : RowOrder VCenterConnection} {access : Access} {db : Db}

theorem mem_activeConnections {vcenterId : Nat} :
    vcenterId ∈ activeConnections order db ↔
      ∃ conn ∈ db.connections.rows, conn.isActive = true ∧ conn.id = vcenterId := by
  rw [activeConnections, List.mem_map]
  refine ⟨?_, ?_⟩
  · intro h
    obtain ⟨conn, hconn, hid⟩ := h
    obtain ⟨hrow, hactive⟩ := List.mem_filter.mp ((order.perm _).mem_iff.mp hconn)
    exact ⟨conn, hrow, hactive, hid⟩
  · intro h
    obtain ⟨conn, hrow, hactive, hid⟩ := h
    exact ⟨conn, (order.perm _).mem_iff.mpr (List.mem_filter.mpr ⟨hrow, hactive⟩), hid⟩

theorem nodup_activeConnections (order : RowOrder VCenterConnection) (db : Db) :
    (activeConnections order db).Nodup := by
  have hperm := (order.perm (db.connections.rows.filter VCenterConnection.isActive)).map
    VCenterConnection.id
  rw [activeConnections, hperm.nodup_iff]
  exact (List.filter_sublist.map _).nodup db.connections.nodup

theorem connection_onlyConnection (db : Db) (vcenterId : Nat) :
    (onlyConnection db vcenterId).connection vcenterId = db.connection vcenterId := by
  show (db.connections.rows.filter _).find? _ = db.connections.rows.find? _
  rw [List.find?_filter]
  congr 1
  funext conn
  simp

/-- A connection that is alone is the only one to be analysed. -/
theorem activeConnections_onlyConnection {vcenterId : Nat}
    (h : vcenterId ∈ activeConnections order db) :
    activeConnections order (onlyConnection db vcenterId) = [vcenterId] := by
  have hnodup := nodup_activeConnections order (onlyConnection db vcenterId)
  have hmem : ∀ id, id ∈ activeConnections order (onlyConnection db vcenterId) ↔
      id = vcenterId := by
    intro id
    rw [mem_activeConnections]
    refine ⟨?_, ?_⟩
    · intro hid
      obtain ⟨conn, hconn, _, rfl⟩ := hid
      exact of_decide_eq_true (List.mem_filter.mp hconn).2
    · intro hid
      subst hid
      obtain ⟨conn, hconn, hactive, hid⟩ := mem_activeConnections.mp h
      exact ⟨conn, List.mem_filter.mpr ⟨hconn, decide_eq_true hid⟩, hactive, hid⟩
  apply List.perm_singleton.mp
  rw [List.perm_ext_iff_of_nodup hnodup (List.nodup_singleton _)]
  intro id
  rw [hmem, List.mem_singleton]

theorem scheduledReport_onlyConnection (vcenterId : Nat) :
    scheduledReport cfg access (onlyConnection db vcenterId) vcenterId =
      scheduledReport cfg access db vcenterId := by
  unfold scheduledReport
  rw [connection_onlyConnection]
  rfl

end Connections

/-! ## Where the loop stops -/

section Reached

variable {cfg : Config} {access : Access} {db : Db}

theorem reached_eq_self {ids : List Nat} (h : ∀ id ∈ ids, ¬ Rejected cfg access db id) :
    reached cfg access db ids = ids := by
  induction ids with
  | nil => rfl
  | cons id rest ih =>
    have hstatus : (scheduledReport cfg access db id).status ≠ .running := by
      rw [Ne, status_scheduledReport_eq_running_iff]
      exact h id List.mem_cons_self
    rw [reached, if_neg hstatus, ih fun id' hid' => h id' (List.mem_cons_of_mem id hid')]

/-- The loop comes to a rejected connection if there is one. -/
theorem exists_rejected_mem_reached {ids : List Nat} {id : Nat} (hid : id ∈ ids)
    (h : Rejected cfg access db id) :
    ∃ id' ∈ reached cfg access db ids, Rejected cfg access db id' := by
  induction ids with
  | nil => cases hid
  | cons id' rest ih =>
    rw [reached]
    by_cases hhead : Rejected cfg access db id'
    · exact ⟨id', List.mem_cons_self, hhead⟩
    · rw [if_neg fun hstatus => hhead (status_scheduledReport_eq_running_iff.mp hstatus)]
      rcases List.mem_cons.mp hid with rfl | hid
      · exact absurd h hhead
      · obtain ⟨id'', hmem, hrejected⟩ := ih hid
        exact ⟨id'', List.mem_cons_of_mem _ hmem, hrejected⟩

/-- The new runs and what they leave. -/
theorem newRuns_spec (cfg : Config) (access : Access) (db : Db) (ids : List Nat) :
    (scheduledLoop cfg access db ids).1.runs.rows =
        db.runs.rows ++ newRuns db (scheduledLoop cfg access db ids).1 ∧
      (newRuns db (scheduledLoop cfg access db ids).1).map
          (fun run => (run.vcenterId, reportOf (scheduledLoop cfg access db ids).1 run)) =
        (reached cfg access db ids).map fun id =>
          (some id, scheduledReport cfg access db id) := by
  obtain ⟨new, hrows, hnew, hreports⟩ := (scheduledLoop_spec cfg access db ids).runs
  have hold : db.runs.rows.filter (fun run => decide (db.runs.next ≤ run.id)) = [] := by
    rw [List.filter_eq_nil_iff]
    intro run hrun hle
    have hlt := db.runs.key_lt run hrun
    have hle' := of_decide_eq_true hle
    omega
  have hall : new.filter (fun run => decide (db.runs.next ≤ run.id)) = new := by
    rw [List.filter_eq_self]
    exact fun run hrun => decide_eq_true (hnew run hrun)
  have heq : newRuns db (scheduledLoop cfg access db ids).1 = new := by
    rw [newRuns, hrows, List.filter_append, hold, hall, List.nil_append]
  rw [heq]
  exact ⟨hrows, hreports⟩

end Reached

/-! ## Isolation -/

section Isolation

variable {cfg : Config} {order : RowOrder VCenterConnection} {access : Access} {db : Db}

theorem exists_id_of_mem_newRuns {after : Db} {ids : List Nat} {report : Nat → RunReport}
    (h : (newRuns db after).map (fun run => (run.vcenterId, reportOf after run)) =
      ids.map fun id => (some id, report id)) {run : AnalysisRun}
    (hrun : run ∈ newRuns db after) :
    ∃ id ∈ ids, run.vcenterId = some id ∧ reportOf after run = report id := by
  have hpair : (run.vcenterId, reportOf after run) ∈
      (newRuns db after).map fun run => (run.vcenterId, reportOf after run) :=
    List.mem_map_of_mem hrun
  rw [h] at hpair
  obtain ⟨id, hid, heq⟩ := List.mem_map.mp hpair
  obtain ⟨hvcenter, hreport⟩ := Prod.mk.inj heq
  exact ⟨id, hid, hvcenter.symm, hreport.symm⟩

theorem exists_run_of_mem {after : Db} {ids : List Nat} {report : Nat → RunReport}
    (h : (newRuns db after).map (fun run => (run.vcenterId, reportOf after run)) =
      ids.map fun id => (some id, report id)) {id : Nat} (hid : id ∈ ids) :
    ∃ run ∈ newRuns db after, run.vcenterId = some id ∧ reportOf after run = report id := by
  have hpair : (some id, report id) ∈ ids.map fun id => (some id, report id) :=
    List.mem_map_of_mem hid
  rw [← h] at hpair
  obtain ⟨run, hrun, heq⟩ := List.mem_map.mp hpair
  obtain ⟨hvcenter, hreport⟩ := Prod.mk.inj heq
  exact ⟨run, hrun, hvcenter, hreport⟩

/-- The outcomes of one connection among runs that are one for each id of the list. -/
theorem outcomes_eq {db after : Db} {ids : List Nat} {report : Nat → RunReport}
    (h : (newRuns db after).map (fun run => (run.vcenterId, reportOf after run)) =
      ids.map fun id => (some id, report id)) (hnodup : ids.Nodup) {id : Nat} (hid : id ∈ ids) :
    outcomes db after id = [report id] := by
  have hsplit : outcomes db after id = (((newRuns db after).map
      fun run => (run.vcenterId, reportOf after run)).filter fun p => p.1 = some id).map
        Prod.snd := by
    rw [List.filter_map, List.map_map]
    rfl
  have honly : ids.filter (fun id' => decide (some id' = some id)) = [id] := by
    simp only [Option.some.injEq]
    rw [List.filter_eq, List.count_eq_one_of_mem hnodup hid]
    rfl
  rw [hsplit, h, List.filter_map, List.map_map]
  show (ids.filter fun id' => decide (some id' = some id)).map report = _
  rw [honly, List.map_singleton]

theorem outcomes_onlyConnection {vcenterId : Nat}
    (h : vcenterId ∈ activeConnections order db) :
    outcomes (onlyConnection db vcenterId)
        (runScheduledAnalysis cfg order access (onlyConnection db vcenterId)).1 vcenterId =
      [scheduledReport cfg access db vcenterId] := by
  have hspec := (newRuns_spec cfg access (onlyConnection db vcenterId) [vcenterId]).2
  have hreached : reached cfg access (onlyConnection db vcenterId) [vcenterId] =
      [vcenterId] := by
    rw [reached, reached, ite_self]
  rw [hreached] at hspec
  rw [runScheduledAnalysis, activeConnections_onlyConnection h,
    outcomes_eq hspec (List.nodup_singleton _) (List.mem_singleton_self _),
    scheduledReport_onlyConnection]

theorem failureIsolated_of_not_rejected
    (h : ∀ id ∈ activeConnections order db, ¬ Rejected cfg access db id) :
    FailureIsolated cfg order access db (runScheduledAnalysis cfg order access db).1 := by
  have hspec := newRuns_spec cfg access db (activeConnections order db)
  rw [reached_eq_self h] at hspec
  obtain ⟨hrows, hreports⟩ := hspec
  refine ⟨hrows, ?_, ?_, ?_⟩
  · have hfst := congrArg (List.map Prod.fst) hreports
    rw [List.map_map, List.map_map] at hfst
    exact hfst
  · intro run hrun
    obtain ⟨id, hid, _, hreport⟩ := exists_id_of_mem_newRuns hreports hrun
    have hstatus := status_scheduledReport (h id hid)
    rw [← hreport] at hstatus
    exact hstatus
  · intro id hid
    rw [outcomes_onlyConnection hid]
    exact outcomes_eq hreports (nodup_activeConnections order db) hid

/-- **A scheduled analysis isolates failures** exactly when the findings of every connection
whose steps succeed fit into their columns. -/
theorem failure_isolated_iff (cfg : Config) (order : RowOrder VCenterConnection)
    (access : Access) (db : Db) :
    FailureIsolated cfg order access db (runScheduledAnalysis cfg order access db).1 ↔
      ∀ vcenterId ∈ activeConnections order db, ∀ inventory,
        Fetched access db vcenterId inventory →
          RowsFit cfg.search .full (patternList cfg db) inventory := by
  refine ⟨?_, ?_⟩
  · intro hisolated id hid inventory hfetch
    by_contra hfit
    obtain ⟨id', hmem, hrejected⟩ := exists_rejected_mem_reached hid ⟨inventory, hfetch, hfit⟩
    obtain ⟨_, hreports⟩ := newRuns_spec cfg access db (activeConnections order db)
    -- the run of the rejected connection is left `running`
    obtain ⟨run, hrun, _, hreport⟩ := exists_run_of_mem hreports hmem
    have hstatus : run.status = .running := by
      rw [← status_scheduledReport_eq_running_iff, ← hreport] at hrejected
      exact hrejected
    rcases hisolated.terminal run hrun with hterm | hterm
    · rw [hstatus] at hterm
      cases hterm
    · rw [hstatus] at hterm
      cases hterm
  · intro hall
    apply failureIsolated_of_not_rejected
    intro id hid hrejected
    obtain ⟨inventory, hfetch, hfit⟩ := hrejected
    exact hfit (hall id hid inventory hfetch)

end Isolation

/-! ## A connection that stops the loop -/

def remoteConnection : VCenterConnection :=
  ⟨2, "Remote", "vcenter.remote", 443, "admin", "secret", false, true, none⟩

/-- The seeded store with a second active connection. -/
def twoConnections : Db :=
  { seededDb with
    connections := seededDb.connections.insertRows (fun id conn => { conn with id })
      (fun _ _ => rfl) [remoteConnection] }

/-- The first connection returns the long names, the second an empty inventory. -/
def twoAccess : Access where
  decryptValue := fun s => .ok s
  connect := fun _ _ => .ok ()
  getFullInventory := fun conn => .ok (if conn.id = 1 then longInventory else ⟨[], [], []⟩)

/-- The run of the first connection stays `running`, and the second connection gets none. -/
theorem longInventory_stops_loop :
    activeConnections (RowOrder.asInserted _) twoConnections = [1, 2] ∧
      (runScheduledAnalysis webNamesConfig (RowOrder.asInserted _) twoAccess
          twoConnections).1.runs.rows = [Db.newScheduledRun 1 1] ∧
      (runScheduledAnalysis webNamesConfig (RowOrder.asInserted _) twoAccess
          twoConnections).2 = .raised ∧
      ¬ FailureIsolated webNamesConfig (RowOrder.asInserted _) twoAccess twoConnections
        (runScheduledAnalysis webNamesConfig (RowOrder.asInserted _) twoAccess
          twoConnections).1 := by
  have hfit : ¬ RowsFit webNamesConfig.search .full (patternList webNamesConfig twoConnections)
      longInventory := by
    intro hrows
    exact not_fits_longInventory
      ((fits_findingsFor_iff webNamesConfig triggeredDb 1 longInventory).mpr hrows)
  have hstep : scheduledStep webNamesConfig twoAccess twoConnections 1 =
      (twoConnections.insertScheduledRun 1, .raised) := scheduledStep_rejected rfl hfit
  have hrun : runScheduledAnalysis webNamesConfig (RowOrder.asInserted _) twoAccess
      twoConnections = (twoConnections.insertScheduledRun 1, .raised) := by
    have hended : (scheduledStep webNamesConfig twoAccess twoConnections 1).2 = .raised := by
      rw [hstep]
    rw [← hstep]
    exact scheduledLoop_cons_raised [2] hended
  rw [hrun]
  refine ⟨rfl, rfl, rfl, ?_⟩
  intro hisolated
  rcases hisolated.terminal (Db.newScheduledRun 1 1) (List.mem_singleton_self _) with h | h
  · cases h
  · cases h

end VsphereCompliance.Analysis
