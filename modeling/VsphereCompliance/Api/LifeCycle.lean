import VsphereCompliance.Api.System

/-!
# The life of a run

A run that has ended stays as it is: requests, logins, other tasks and scheduled analyses may
come in any order, and all that can happen to its row is that its connection is deleted. It
gets no more findings and loses none, and of a finding only `action_taken` may change, from
false to true, and the time of the action, which the tables leave out (`ended_run_stays`).
-/

namespace VsphereCompliance.Api

open Engine Store VCenter Accounts Settings

variable {c : Cipher}

/-- **A run that has ended stays** with its findings, whatever happens. -/
theorem ended_run_stays (p : Platform) {s : State c} (hstart : s.tasks = [])
    (before after : List Happening) {run : AnalysisRun}
    (hrun : run ∈ (before.foldl (happen p) s).db.runs.rows) (hended : run.status ≠ .running) :
    (∃ run' ∈ ((before ++ after).foldl (happen p) s).db.runs.rows,
      run' = { run with vcenterId := run'.vcenterId } ∧
        (run'.vcenterId = run.vcenterId ∨ run'.vcenterId = none)) ∧
    ∃ f : AnalysisFinding → AnalysisFinding,
      ((before ++ after).foldl (happen p) s).db.findingsOf run.id =
        ((before.foldl (happen p) s).db.findingsOf run.id).map f ∧
      ∀ g ∈ (before.foldl (happen p) s).db.findingsOf run.id,
        f g = { g with actionTaken := (f g).actionTaken } ∧
          (g.actionTaken = true → (f g).actionTaken = true) := by
  have htasks := (evolves_run (tasksWait_of_nil hstart) p before).1
  have hlater := (evolves_run htasks p after).2.db
  rw [← List.foldl_append] at hlater
  obtain ⟨run', hrun', hversion⟩ := hlater.runs.exists_mem hrun
  obtain ⟨f, hfindings, hf⟩ := hlater.final run hrun hended
  refine ⟨⟨run', hrun', hversion.eq_of_ended hended, hversion.vcenterId⟩, f, hfindings, ?_⟩
  exact fun g hg => ⟨(hf g hg).eq, (hf g hg).actionTaken⟩

/-! ## An approval after the end -/

/-- The operator approves the move of the first finding. -/
def approval : List Happening :=
  [.occurrence (.event (.request 6 "token" (.approveStorageMove 1 1 true)))]

theorem analysed_run : ∃ run, (requestAndRun.foldl (happen operatorPlatform)
    operatorState).db.runs.find? 1 = some run ∧ run.status = .completed := by
  have hstatus : (((requestAndRun.foldl (happen operatorPlatform) operatorState).db.runs.find?
      1).map AnalysisRun.status) = some .completed := by
    decide
  exact Option.map_eq_some_iff.mp hstatus

theorem ended_run_stays_analysed : ∃ run : AnalysisRun, run.status = .completed ∧
    ∃ run' ∈ ((requestAndRun ++ approval).foldl (happen operatorPlatform)
        operatorState).db.runs.rows,
      run' = { run with vcenterId := run'.vcenterId } := by
  obtain ⟨run, hrun, hcompleted⟩ := analysed_run
  have hended : run.status ≠ .running := by
    rw [hcompleted]
    decide
  obtain ⟨⟨run', hrun', heq, _⟩, _⟩ := ended_run_stays operatorPlatform rfl requestAndRun approval
    (Table.find?_eq_some_iff.mp hrun).1 hended
  exact ⟨run, hcompleted, run', hrun', heq⟩

end VsphereCompliance.Api
