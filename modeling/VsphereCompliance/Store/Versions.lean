import VsphereCompliance.Library.Growth
import VsphereCompliance.Store.Tables

/-!
# Later versions of the store

`Later db db'` is what every operation on the runs and their records leaves of the store:
runs and findings stay, a run that is not `running` keeps its outcome and gets no more findings
(`Final`), a finding changes by its `action_taken` only, and the two histories go on. It is a
preorder, and each update is a step of it; finishing a run and inserting findings are if the run
is `running`.
-/

namespace VsphereCompliance.Store

/-- What may become of a run. -/
structure LaterRun (run run' : AnalysisRun) : Prop where
  id : run'.id = run.id
  triggeredBy : run'.triggeredBy = run.triggeredBy
  analysisType : run'.analysisType = run.analysisType
  vcenterId : run'.vcenterId = run.vcenterId ∨ run'.vcenterId = none
  begun : run.status ≠ .pending → run'.status ≠ .pending
  outcome : run.status ≠ .running → run'.status = run.status ∧ run'.summary = run.summary ∧
    run'.errorMessage = run.errorMessage

/-- What may become of a finding. -/
structure LaterFinding (f f' : AnalysisFinding) : Prop where
  id : f'.id = f.id
  content : f'.toNewFinding = f.toNewFinding
  actionTaken : f.actionTaken = true → f'.actionTaken = true

theorem versions_laterRun : Table.Versions AnalysisRun.id LaterRun where
  refl _ := ⟨rfl, rfl, rfl, Or.inl rfl, id, fun _ => ⟨rfl, rfl, rfl⟩⟩
  trans r s u h h' := by
    refine ⟨h'.id.trans h.id, h'.triggeredBy.trans h.triggeredBy,
      h'.analysisType.trans h.analysisType, ?_, h'.begun ∘ h.begun, ?_⟩
    · rcases h'.vcenterId with hv | hv
      · rw [hv]
        exact h.vcenterId
      · exact Or.inr hv
    · intro hstatus
      obtain ⟨hs, hsummary, herror⟩ := h.outcome hstatus
      obtain ⟨hs', hsummary', herror'⟩ := h'.outcome (hs ▸ hstatus)
      exact ⟨hs'.trans hs, hsummary'.trans hsummary, herror'.trans herror⟩
  key_eq _ _ h := h.id

theorem versions_laterFinding : Table.Versions AnalysisFinding.id LaterFinding where
  refl _ := ⟨rfl, rfl, id⟩
  trans _ _ _ h h' :=
    ⟨h'.id.trans h.id, h'.content.trans h.content, h'.actionTaken ∘ h.actionTaken⟩
  key_eq _ _ h := h.id

/-- Only its connection may be gone from a run that has ended. -/
theorem LaterRun.eq_of_ended {run run' : AnalysisRun} (h : LaterRun run run')
    (hended : run.status ≠ .running) : run' = { run with vcenterId := run'.vcenterId } := by
  obtain ⟨hstatus, hsummary, herror⟩ := h.outcome hended
  obtain ⟨hid, htriggered, htype, _, _, _⟩ := h
  cases run'
  cases run
  simp only at *
  subst_vars
  rfl

theorem LaterFinding.eq {f f' : AnalysisFinding} (h : LaterFinding f f') :
    f' = { f with actionTaken := f'.actionTaken } := by
  obtain ⟨hid, hcontent, _⟩ := h
  cases f'
  cases f
  simp only at *
  subst_vars
  rfl

/-- The findings of the run are the same ones, each in a later version. -/
def Final (db db' : Db) (runId : Nat) : Prop :=
  ∃ f : AnalysisFinding → AnalysisFinding, db'.findingsOf runId = (db.findingsOf runId).map f ∧
    ∀ g ∈ db.findingsOf runId, LaterFinding g (f g)

structure Later (db db' : Db) : Prop where
  runs : Table.Grows LaterRun db.runs db'.runs
  findings : Table.Grows LaterFinding db.findings db'.findings
  final : ∀ run ∈ db.runs.rows, run.status ≠ .running → Final db db' run.id
  drsHistory : db.drsHistory <+: db'.drsHistory
  storageHistory : db.storageHistory <+: db'.storageHistory

/-- The run is `running`. -/
def Running (db : Db) (runId : Nat) : Prop :=
  ∃ run ∈ db.runs.rows, run.id = runId ∧ run.status = .running

section Later

variable {db db' db'' : Db} {runId : Nat}

theorem Running.status_eq (h : Running db runId) {run : AnalysisRun} (hrun : run ∈ db.runs.rows)
    (hid : run.id = runId) : run.status = .running := by
  obtain ⟨run', hrun', hid', hstatus⟩ := h
  rw [Table.eq_of_key hrun hrun' (hid.trans hid'.symm)]
  exact hstatus

theorem Final.of_eq (h : db'.findingsOf runId = db.findingsOf runId) : Final db db' runId :=
  ⟨id, by rw [h, List.map_id], fun g _ => versions_laterFinding.refl g⟩

theorem Later.refl (db : Db) : Later db db :=
  ⟨.refl versions_laterRun _, .refl versions_laterFinding _, fun _ _ _ => .of_eq rfl,
    List.prefix_refl _, List.prefix_refl _⟩

theorem Later.trans (h : Later db db') (h' : Later db' db'') : Later db db'' := by
  refine ⟨h.runs.trans versions_laterRun h'.runs,
    h.findings.trans versions_laterFinding h'.findings, ?_, h.drsHistory.trans h'.drsHistory,
    h.storageHistory.trans h'.storageHistory⟩
  intro run hrun hstatus
  obtain ⟨run', hrun', hlater⟩ := h.runs.exists_mem hrun
  have hstatus' : run'.status ≠ .running := (hlater.outcome hstatus).1 ▸ hstatus
  obtain ⟨f, hrows, hf⟩ := h.final run hrun hstatus
  obtain ⟨g, hrows', hg⟩ := h'.final run' hrun' hstatus'
  rw [hlater.id, hrows] at hrows' hg
  refine ⟨g ∘ f, by rw [hrows', List.map_map], fun x hx => ?_⟩
  exact versions_laterFinding.trans _ _ _ (hf x hx) (hg (f x) (List.mem_map_of_mem hx))

/-- Connections and patterns do not matter. -/
theorem Later.of_eq (hruns : db'.runs = db.runs) (hfindings : db'.findings = db.findings)
    (hdrs : db'.drsHistory = db.drsHistory) (hstorage : db'.storageHistory = db.storageHistory) :
    Later db db' := by
  refine ⟨.of_eq versions_laterRun hruns, .of_eq versions_laterFinding hfindings, ?_,
    hdrs ▸ List.prefix_refl _, hstorage ▸ List.prefix_refl _⟩
  intro run _ _
  apply Final.of_eq
  unfold Db.findingsOf
  rw [hfindings]

/-! ## The updates -/

theorem later_insertRun (db : Db) (req : RunRequest) : Later db (db.insertRun req) :=
  ⟨Table.grows_insertRows versions_laterRun _ (fun _ _ => rfl) _, .refl versions_laterFinding _,
    fun _ _ _ => .of_eq rfl, List.prefix_refl _, List.prefix_refl _⟩

theorem laterRun_write {run : AnalysisRun} (hstatus : run.status = .running) (o : RunOutcome) :
    LaterRun run (o.write run) := by
  have houtcome : run.status ≠ .running → (o.write run).status = run.status ∧
      (o.write run).summary = run.summary ∧ (o.write run).errorMessage = run.errorMessage :=
    fun hne => absurd hstatus hne
  cases o with
  | completed summary =>
    exact ⟨rfl, rfl, rfl, Or.inl rfl, fun _ => AnalysisStatus.noConfusion, houtcome⟩
  | failed error =>
    exact ⟨rfl, rfl, rfl, Or.inl rfl, fun _ => AnalysisStatus.noConfusion, houtcome⟩

theorem later_finishRun (h : Running db runId) (o : RunOutcome) :
    Later db (db.finishRun runId o) := by
  refine ⟨?_, .refl versions_laterFinding _, fun _ _ _ => .of_eq rfl, List.prefix_refl _,
    List.prefix_refl _⟩
  refine Table.grows_update versions_laterRun _ (fun run => o.id_write run) ?_
  intro run hrun hid
  exact laterRun_write (h.status_eq hrun (of_decide_eq_true hid)) o

theorem later_insertFindings (hrunning : Running db runId) {fs : List Engine.NewFinding}
    (h : ∀ f ∈ fs, f.Coherent ∧ ∃ r ∈ db.runs.rows, r.id = f.analysisRunId)
    (hrun : ∀ f ∈ fs, f.analysisRunId = runId) : Later db (db.insertFindings fs h) := by
  refine ⟨.refl versions_laterRun _,
    Table.grows_insertRows versions_laterFinding _ (fun _ _ => rfl) _, ?_, List.prefix_refl _,
    List.prefix_refl _⟩
  intro run hmem hstatus
  apply Final.of_eq
  apply Db.findingsOf_insertFindings_of_ne
  intro f hf hid
  exact hstatus (hrunning.status_eq hmem (hid.symm.trans (hrun f hf)))

theorem laterFinding_markTaken (f : AnalysisFinding) : LaterFinding f (Db.markTaken f) :=
  ⟨rfl, rfl, fun _ => rfl⟩

theorem findingsOf_takeAction (db : Db) (ids : List Nat) (runId : Nat) :
    (db.takeAction ids).findingsOf runId =
      (db.findingsOf runId).map fun f => if f.id ∈ ids then Db.markTaken f else f := by
  unfold Db.findingsOf Db.takeAction Table.update
  dsimp only
  rw [List.filter_map]
  simp only [decide_eq_true_eq]
  congr 1
  apply List.filter_congr
  intro f _
  dsimp only [Function.comp_apply]
  split
  · rfl
  · rfl

theorem later_takeAction (db : Db) (ids : List Nat) : Later db (db.takeAction ids) := by
  refine ⟨.refl versions_laterRun _, ?_, ?_, List.prefix_refl _, List.prefix_refl _⟩
  · exact Table.grows_update versions_laterFinding _ (fun f => (laterFinding_markTaken f).id)
      fun f _ _ => laterFinding_markTaken f
  · intro run _ _
    refine ⟨_, findingsOf_takeAction db ids run.id, fun f _ => ?_⟩
    split
    · exact laterFinding_markTaken f
    · exact versions_laterFinding.refl f

theorem later_logRules (db : Db) (rows : List DrsRuleHistory) : Later db (db.logRules rows) :=
  ⟨.refl versions_laterRun _, .refl versions_laterFinding _, fun _ _ _ => .of_eq rfl,
    List.prefix_append _ _, List.prefix_refl _⟩

theorem later_logMove (db : Db) (row : StorageMoveHistory) : Later db (db.logMove row) :=
  ⟨.refl versions_laterRun _, .refl versions_laterFinding _, fun _ _ _ => .of_eq rfl,
    List.prefix_refl _, List.prefix_append _ _⟩

end Later

end VsphereCompliance.Store
