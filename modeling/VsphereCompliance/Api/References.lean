import VsphereCompliance.Api.System

/-!
# The foreign keys

`References` is what the foreign keys of the tables demand, besides the one of the findings,
which `Db` carries. `Adds` says of the rows that a happening adds that their references are in
order; old rows keep theirs, since the rows they refer to stay. So no happening ever runs into a
foreign key, and the references are in order in every state (`references_run`).
-/

namespace VsphereCompliance.Api

open Engine Store VCenter Accounts Settings
open Analysis (Access Config doAnalysis applyDrs approveStorageMove)

variable {c : Cipher}

/-! ## References -/

def HasRun (s : State c) (runId : Nat) : Prop := ∃ run ∈ s.db.runs.rows, run.id = runId

def HasUser (s : State c) (userId : Nat) : Prop := ∃ u ∈ s.accounts.users.rows, u.id = userId

def HasConnection (s : State c) (vcenterId : Nat) : Prop :=
  ∃ conn ∈ s.db.connections.rows, conn.id = vcenterId

structure References (s : State c) : Prop where
  vcenterId : ∀ run ∈ s.db.runs.rows, ∀ id, run.vcenterId = some id → HasConnection s id
  triggeredBy : ∀ run ∈ s.db.runs.rows, ∀ id, run.triggeredBy = some id → HasUser s id
  drsHistory : ∀ row ∈ s.db.drsHistory, HasRun s row.analysisRunId
  storageHistory : ∀ row ∈ s.db.storageHistory,
    HasRun s row.analysisRunId ∧ HasUser s row.approvedBy
  auditLogs : ∀ row ∈ s.accounts.auditLogs, HasUser s row.userId

section Evolves

variable {s s' : State c} {id : Nat}

theorem HasRun.evolves (h : HasRun s id) (hevolves : Evolves s s') : HasRun s' id := by
  obtain ⟨run, hrun, rfl⟩ := h
  obtain ⟨run', hrun', hlater⟩ := hevolves.db.runs.exists_mem hrun
  exact ⟨run', hrun', hlater.id⟩

theorem HasUser.evolves (h : HasUser s id) (hevolves : Evolves s s') : HasUser s' id := by
  obtain ⟨u, hu, rfl⟩ := h
  obtain ⟨u', hu', hsame⟩ := hevolves.users.exists_mem hu
  exact ⟨u', hu', hsame.id⟩

end Evolves

/-! ## What a happening adds -/

/-- Each row is an old one or refers to rows that are there. -/
structure Adds (s s' : State c) : Prop where
  runs : ∀ run' ∈ s'.db.runs.rows, (∃ run ∈ s.db.runs.rows, LaterRun run run') ∨
    (∀ id, run'.vcenterId = some id → HasConnection s id) ∧
      ∀ id, run'.triggeredBy = some id → HasUser s id
  /-- A connection is there, or no run refers to it. -/
  connections : ∀ id, HasConnection s id → HasConnection s' id ∨
    ∀ run' ∈ s'.db.runs.rows, run'.vcenterId ≠ some id
  drsHistory : ∀ row ∈ s'.db.drsHistory, row ∈ s.db.drsHistory ∨ HasRun s row.analysisRunId
  storageHistory : ∀ row ∈ s'.db.storageHistory, row ∈ s.db.storageHistory ∨
    HasRun s row.analysisRunId ∧ HasUser s row.approvedBy
  auditLogs : ∀ row ∈ s'.accounts.auditLogs, row ∈ s.accounts.auditLogs ∨ HasUser s' row.userId

theorem References.adds {s s' : State c} (hs : References s) (hevolves : Evolves s s')
    (hadds : Adds s s') : References s' := by
  -- the connection of a run of the new state was there in the old one
  have hconnected : ∀ run' ∈ s'.db.runs.rows, ∀ id, run'.vcenterId = some id →
      HasConnection s id := by
    intro run' hrun' id hid
    rcases hadds.runs run' hrun' with ⟨run, hrun, hlater⟩ | ⟨hnew, _⟩
    · rcases hlater.vcenterId with hsame | hnone
      · exact hs.vcenterId run hrun id (hsame.symm.trans hid)
      · rw [hnone] at hid
        cases hid
    · exact hnew id hid
  refine ⟨?_, ?_, ?_, ?_, ?_⟩
  · intro run' hrun' id hid
    rcases hadds.connections id (hconnected run' hrun' id hid) with hkept | hcleared
    · exact hkept
    · exact absurd hid (hcleared run' hrun')
  · intro run' hrun' id hid
    rcases hadds.runs run' hrun' with ⟨run, hrun, hlater⟩ | ⟨_, hnew⟩
    · exact (hs.triggeredBy run hrun id (hlater.triggeredBy.symm.trans hid)).evolves hevolves
    · exact (hnew id hid).evolves hevolves
  · intro row hrow
    rcases hadds.drsHistory row hrow with hold | hrun
    · exact (hs.drsHistory row hold).evolves hevolves
    · exact hrun.evolves hevolves
  · intro row hrow
    rcases hadds.storageHistory row hrow with hold | ⟨hrun, huser⟩
    · exact ⟨(hs.storageHistory row hold).1.evolves hevolves,
        (hs.storageHistory row hold).2.evolves hevolves⟩
    · exact ⟨hrun.evolves hevolves, huser.evolves hevolves⟩
  · intro row hrow
    rcases hadds.auditLogs row hrow with hold | huser
    · exact (hs.auditLogs row hold).evolves hevolves
    · exact huser

section Adds

variable {s s' : State c} {db : Db}

/-- The old version of a run, if no id was drawn. -/
theorem exists_laterRun {db db' : Db} (h : Later db db') (hnext : db'.runs.next = db.runs.next)
    {run' : AnalysisRun} (hrun' : run' ∈ db'.runs.rows) :
    ∃ run ∈ db.runs.rows, LaterRun run run' := by
  rcases h.runs.exists_of_mem hrun' with hold | hnew
  · exact hold
  · have hlt := db'.runs.key_lt run' hrun'
    omega

/-- Nothing new but versions of the old runs. -/
theorem Adds.of_runs (hlater : Later s.db s'.db) (hnext : s'.db.runs.next = s.db.runs.next)
    (hconnections : ∀ id, HasConnection s id → HasConnection s' id)
    (hdrs : s'.db.drsHistory = s.db.drsHistory)
    (hstorage : s'.db.storageHistory = s.db.storageHistory)
    (haudit : s'.accounts.auditLogs = s.accounts.auditLogs) : Adds s s' :=
  ⟨fun _ hrun' => Or.inl (exists_laterRun hlater hnext hrun'),
    fun id h => Or.inl (hconnections id h), fun _ hrow => Or.inl (hdrs ▸ hrow),
    fun _ hrow => Or.inl (hstorage ▸ hrow), fun _ hrow => Or.inl (haudit ▸ hrow)⟩

theorem Adds.refl (s : State c) : Adds s s :=
  .of_runs (.refl _) rfl (fun _ h => h) rfl rfl rfl

theorem adds_deleteConnection (s : State c) (id : Nat) :
    Adds s { s with db := deleteConnection s.db id } := by
  refine ⟨fun _ hrun' => Or.inl (exists_laterRun (later_deleteConnection s.db id) rfl hrun'), ?_,
    fun _ hrow => Or.inl hrow, fun _ hrow => Or.inl hrow, fun _ hrow => Or.inl hrow⟩
  rintro _ ⟨conn, hconn, rfl⟩
  by_cases hid : conn.id = id
  · refine Or.inr ?_
    intro run' hrun' href
    obtain ⟨run, _, rfl⟩ := List.mem_map.mp hrun'
    dsimp only at href
    split at href
    · cases href
    · rename_i hother
      exact hother (decide_eq_true (hid ▸ href))
  · exact Or.inl ⟨conn, List.mem_filter.mpr ⟨hconn, decide_eq_true hid⟩, rfl⟩

theorem adds_applyDrs (s : State c) (access : Access) (order : RowOrder AnalysisFinding)
    (drs : Analysis.Request) (commits : Bool) :
    Adds s { s with db := (applyDrs access order s.db drs commits).db } := by
  by_cases hreach : Analysis.Reaches access s.db drs.runId
  · rw [Analysis.applyDrs_of_reaches order commits hreach]
    cases commits with
    | false => exact .refl s
    | true =>
      obtain ⟨run, _, hfind, _⟩ := hreach
      obtain ⟨hrun, hid⟩ := Table.find?_eq_some_iff.mp hfind
      refine ⟨fun run hrun => Or.inl ⟨run, hrun, versions_laterRun.refl run⟩,
        fun _ h => Or.inl h, ?_, fun _ hrow => Or.inl hrow, fun _ hrow => Or.inl hrow⟩
      intro row hrow
      rcases List.mem_append.mp hrow with hold | hnew
      · exact Or.inl hold
      · refine Or.inr ⟨run, hrun, ?_⟩
        have hnew' : row ∈ (Analysis.pendingFindings order s.db drs.runId).filterMap
            (Analysis.rowFor drs) := by
          simpa [Analysis.session, Analysis.ApplyState.advance, Analysis.ApplyState.empty]
            using hnew
        obtain ⟨f, _, hf⟩ := List.mem_filterMap.mp hnew'
        rw [hid]
        unfold Analysis.rowFor at hf
        split at hf
        · obtain ⟨_, _, rfl⟩ := Option.map_eq_some_iff.mp hf
          rfl
        · cases hf
  · rw [(Analysis.applyDrs_of_not_reaches order commits hreach).1]
    exact .refl s

theorem adds_approveStorageMove (s : State c) {user : User}
    (huser : user ∈ s.accounts.users.rows) (runId findingId : Nat) (commits : Bool) :
    Adds s { s with db := (approveStorageMove s.db runId findingId user.id commits).1 } := by
  rcases Analysis.approveStorageMove_cases s.db runId findingId user.id commits with
    heq | ⟨f, hf, _, hrun, _, heq⟩
  · rw [heq]
    exact .refl s
  · rw [heq]
    refine ⟨fun run hrun => Or.inl ⟨run, hrun, versions_laterRun.refl run⟩,
      fun _ h => Or.inl h, fun _ hrow => Or.inl hrow, ?_, fun _ hrow => Or.inl hrow⟩
    intro row hrow
    rcases List.mem_append.mp hrow with hold | hnew
    · exact Or.inl hold
    · obtain rfl := List.mem_singleton.mp hnew
      obtain ⟨run, hmem, hid⟩ := s.db.hasRun f hf
      exact Or.inr ⟨⟨run, hmem, hid.trans hrun⟩, user, huser, rfl⟩

/-- **Each effect** of a request adds rows in order. -/
theorem adds_of_effect {now : Nat} {user : User} (huser : user ∈ s.accounts.users.rows)
    (h : Effect now s user s') : Adds s s' := by
  cases h with
  | nothing => exact .refl s
  | users _ => exact .of_runs (.refl _) rfl (fun _ h => h) rfl rfl rfl
  | settings _ => exact .of_runs (.refl _) rfl (fun _ h => h) rfl rfl rfl
  | targets h =>
    refine .of_runs (.of_eq h.runs h.findings h.drsHistory h.storageHistory) ?_ ?_ h.drsHistory
      h.storageHistory rfl
    · exact congrArg Table.next h.runs
    · rintro _ ⟨conn, hconn, rfl⟩
      exact h.connections.exists_mem hconn
  | deleted id => exact adds_deleteConnection s id
  | @triggered conn type hconn =>
    refine ⟨?_, fun _ h => Or.inl h, fun _ hrow => Or.inl hrow, fun _ hrow => Or.inl hrow,
      fun _ hrow => Or.inl hrow⟩
    intro run' hrun'
    rcases List.mem_append.mp hrun' with hold | hnew
    · exact Or.inl ⟨run', hold, versions_laterRun.refl run'⟩
    · obtain rfl := List.mem_singleton.mp hnew
      refine Or.inr ⟨?_, ?_⟩
      · rintro _ ⟨rfl⟩
        exact ⟨conn, hconn, rfl⟩
      · rintro _ ⟨rfl⟩
        exact ⟨user, huser, rfl⟩
  | applied access order drs commits => exact adds_applyDrs s access order drs commits
  | approved runId findingId commits => exact adds_approveStorageMove s huser _ _ _

/-! ## Analyses and logins -/

/-- An analysis draws no id for a run and touches no other table. -/
theorem doAnalysis_frame (cfg : Config) (access : Access) (db : Db) (runId vcenterId : Nat)
    (type : AnalysisType) :
    (doAnalysis cfg access db runId vcenterId type).1.runs.next = db.runs.next ∧
    (doAnalysis cfg access db runId vcenterId type).1.connections = db.connections ∧
    (doAnalysis cfg access db runId vcenterId type).1.drsHistory = db.drsHistory ∧
    (doAnalysis cfg access db runId vcenterId type).1.storageHistory = db.storageHistory := by
  unfold doAnalysis
  split
  · exact ⟨rfl, rfl, rfl, rfl⟩
  split
  · exact ⟨rfl, rfl, rfl, rfl⟩
  dsimp only
  split
  · exact ⟨rfl, rfl, rfl, rfl⟩
  · exact ⟨rfl, rfl, rfl, rfl⟩

/-- What a scheduled analysis of connections that are there adds. -/
structure ScheduledAdds (db db' : Db) : Prop where
  runs : ∀ run' ∈ db'.runs.rows, (∃ run ∈ db.runs.rows, LaterRun run run') ∨
    run'.triggeredBy = none ∧
      ∀ id, run'.vcenterId = some id → ∃ conn ∈ db.connections.rows, conn.id = id
  connections : db'.connections = db.connections
  drsHistory : db'.drsHistory = db.drsHistory
  storageHistory : db'.storageHistory = db.storageHistory

theorem scheduledAdds_step (cfg : Config) (access : Access) (db : Db) {vcenterId : Nat}
    (hconn : ∃ conn ∈ db.connections.rows, conn.id = vcenterId) :
    ScheduledAdds db (Analysis.scheduledStep cfg access db vcenterId).1 := by
  have hrunning := running_insertScheduledRun db vcenterId
  -- from the insertion of the run on, no id is drawn
  have hinserted : ∀ db', Later (db.insertScheduledRun vcenterId) db' →
      db'.runs.next = (db.insertScheduledRun vcenterId).runs.next →
      db'.connections = db.connections → db'.drsHistory = db.drsHistory →
      db'.storageHistory = db.storageHistory → ScheduledAdds db db' := by
    intro db' hlater hnext hconnections hdrs hstorage
    refine ⟨?_, hconnections, hdrs, hstorage⟩
    intro run' hrun'
    obtain ⟨run, hrun, hversion⟩ := exists_laterRun hlater hnext hrun'
    rcases List.mem_append.mp hrun with hold | hnew
    · exact Or.inl ⟨run, hold, hversion⟩
    · obtain rfl := List.mem_singleton.mp hnew
      refine Or.inr ⟨hversion.triggeredBy, ?_⟩
      intro id hid
      rcases hversion.vcenterId with hsame | hnone
      · obtain rfl := Option.some.inj (hsame.symm.trans hid)
        exact hconn
      · rw [hnone] at hid
        cases hid
  unfold Analysis.scheduledStep
  dsimp only
  split
  · exact hinserted _ (later_finishRun hrunning _) rfl rfl rfl rfl
  split
  · refine hinserted _ ((later_insertFindings hrunning _ ?_).trans (later_finishRun ?_ _)) rfl rfl
      rfl rfl
    · exact fun f hf => analysisRunId_of_mem_generateFindings hf
    · exact hrunning
  · exact hinserted _ (.refl _) rfl rfl rfl rfl

theorem ScheduledAdds.trans {db db' db'' : Db} (h : ScheduledAdds db db')
    (h' : ScheduledAdds db' db'') : ScheduledAdds db db'' := by
  refine ⟨?_, h'.connections.trans h.connections, h'.drsHistory.trans h.drsHistory,
    h'.storageHistory.trans h.storageHistory⟩
  intro run'' hrun''
  rcases h'.runs run'' hrun'' with ⟨run', hrun', hversion'⟩ | ⟨hnone, hconn⟩
  · rcases h.runs run' hrun' with ⟨run, hrun, hversion⟩ | ⟨hnone, hconn⟩
    · exact Or.inl ⟨run, hrun, versions_laterRun.trans _ _ _ hversion hversion'⟩
    · refine Or.inr ⟨hversion'.triggeredBy.trans hnone, ?_⟩
      intro id hid
      rcases hversion'.vcenterId with hsame | hcleared
      · exact hconn id (hsame.symm.trans hid)
      · rw [hcleared] at hid
        cases hid
  · exact Or.inr ⟨hnone, h.connections ▸ hconn⟩

theorem scheduledAdds_loop (cfg : Config) (access : Access) (db : Db) (connections : List Nat)
    (hconn : ∀ id ∈ connections, ∃ conn ∈ db.connections.rows, conn.id = id) :
    ScheduledAdds db (Analysis.scheduledLoop cfg access db connections).1 := by
  induction connections generalizing db with
  | nil => exact ⟨fun run hrun => Or.inl ⟨run, hrun, versions_laterRun.refl run⟩, rfl, rfl, rfl⟩
  | cons vcenterId rest ih =>
    have hstep := scheduledAdds_step cfg access db (hconn vcenterId List.mem_cons_self)
    unfold Analysis.scheduledLoop
    split
    · rename_i db' hreturned
      rw [hreturned] at hstep
      refine hstep.trans (ih db' ?_)
      rw [hstep.connections]
      exact fun id hid => hconn id (List.mem_cons_of_mem _ hid)
    · rename_i db' hraised
      rw [hraised] at hstep
      exact hstep

theorem adds_runScheduledAnalysis (s : State c) (cfg : Config)
    (order : RowOrder VCenterConnection) (access : Access) :
    Adds s { s with db := (Analysis.runScheduledAnalysis cfg order access s.db).1 } := by
  have hloop := scheduledAdds_loop cfg access s.db (Analysis.activeConnections order s.db) (by
    intro id hid
    obtain ⟨conn, hconn, rfl⟩ := List.mem_map.mp hid
    exact ⟨conn, List.mem_of_mem_filter ((order.perm _).subset hconn), rfl⟩)
  refine ⟨?_, ?_, fun _ hrow => Or.inl (hloop.drsHistory ▸ hrow),
    fun _ hrow => Or.inl (hloop.storageHistory ▸ hrow), fun _ hrow => Or.inl hrow⟩
  · intro run' hrun'
    rcases hloop.runs run' hrun' with hold | ⟨hnone, hconn⟩
    · exact Or.inl hold
    · refine Or.inr ⟨hconn, ?_⟩
      intro id hid
      rw [hnone] at hid
      cases hid
  · rintro _ ⟨conn, hconn, rfl⟩
    exact Or.inl ⟨conn, hloop.connections.symm ▸ hconn, rfl⟩

theorem adds_occur (htasks : TasksWait s) (services : Services) (o : Occurrence) :
    Adds s (occur services s o) := by
  cases o with
  | event e =>
    cases e with
    | request now token req =>
      show Adds s (handle services s (.request now token req))
      rcases effect_handle services s now token req with hsame | ⟨user, huser, _, heffect⟩
      · rw [hsame]
        exact .refl s
      · exact adds_of_effect (mem_of_getCurrentUser huser).1 heffect
    | background i cfg access =>
      show Adds s (handle services s (.background i cfg access))
      unfold handle
      dsimp only
      split
      · exact .refl s
      · rename_i task htask
        have hlater := later_doAnalysis
          (htasks.waits task (List.mem_of_getElem? htask)).running cfg access task.vcenterId
          task.type
        obtain ⟨hnext, hconnections, hdrs, hstorage⟩ :=
          doAnalysis_frame cfg access s.db task.runId task.vcenterId task.type
        refine .of_runs hlater hnext ?_ hdrs hstorage rfl
        rintro _ ⟨conn, hconn, rfl⟩
        exact ⟨conn, hconnections.symm ▸ hconn, rfl⟩
  | scheduled cfg order access => exact adds_runScheduledAnalysis s cfg order access

theorem adds_happen (htasks : TasksWait s) (p : Platform) (h : Happening) :
    Adds s (happen p s h) := by
  cases h with
  | login now server req =>
    unfold happen
    dsimp only
    split
    · exact .refl s
    · rename_i accounts answer hlogin
      obtain ⟨user, huser, _, _, hlogs⟩ := auditLogs_of_login hlogin
      refine ⟨fun run hrun => Or.inl ⟨run, hrun, versions_laterRun.refl run⟩,
        fun _ h => Or.inl h, fun _ hrow => Or.inl hrow, fun _ hrow => Or.inl hrow, ?_⟩
      intro row hrow
      rw [show (s.setAccounts now accounts).accounts.auditLogs = _ from hlogs] at hrow
      rcases List.mem_append.mp hrow with hold | hnew
      · exact Or.inl hold
      · obtain rfl := List.mem_singleton.mp hnew
        exact Or.inr ⟨user, huser, rfl⟩
  | occurrence o => exact adds_occur htasks _ o

end Adds

/-- **Every history** of a process leaves the references in order. -/
theorem references_run (p : Platform) {s : State c} (hstart : s.tasks = [])
    (hs : References s) (history : List Happening) :
    References (history.foldl (happen p) s) := by
  have hrun : ∀ history : List Happening, ∀ s : State c, TasksWait s → References s →
      References (history.foldl (happen p) s) := by
    intro history
    induction history with
    | nil => exact fun _ _ hs => hs
    | cons h history ih =>
      intro s htasks hs
      exact ih _ (htasks.happen p h) (hs.adds (evolves_happen htasks p h) (adds_happen htasks p h))
  exact hrun history s (tasksWait_of_nil hstart) hs

/-- A run that an admin has asked for. -/
def oneRun : State labelledCipher :=
  { operatorState with
    accounts := adminAccounts
    db := operatorState.db.insertRun ⟨1, 1, .full⟩ }

theorem references_oneRun : References oneRun := by
  have hvcenter : ∀ run ∈ oneRun.db.runs.rows, run.vcenterId = some 1 := by decide
  have htriggered : ∀ run ∈ oneRun.db.runs.rows, run.triggeredBy = some 1 := by decide
  refine ⟨?_, ?_, ?_, ?_, ?_⟩
  · intro run hrun id hid
    obtain rfl := Option.some.inj ((hvcenter run hrun).symm.trans hid)
    exact ⟨_, List.mem_singleton_self _, rfl⟩
  · intro run hrun id hid
    obtain rfl := Option.some.inj ((htriggered run hrun).symm.trans hid)
    exact ⟨_, List.mem_singleton_self _, rfl⟩
  all_goals exact fun _ hrow => absurd hrow List.not_mem_nil

def deletion : List Happening :=
  [.occurrence (.event (.request 5 "token" (.deleteVcenter 1)))]

/-- The connection of the run is deleted. -/
theorem references_run_deletion :
    (deletion.foldl (happen operatorPlatform) oneRun).db.connections.rows = [] ∧
      (deletion.foldl (happen operatorPlatform) oneRun).db.runs.rows.length = 1 ∧
      References (deletion.foldl (happen operatorPlatform) oneRun) :=
  ⟨rfl, rfl, references_run operatorPlatform rfl references_oneRun deletion⟩

end VsphereCompliance.Api
