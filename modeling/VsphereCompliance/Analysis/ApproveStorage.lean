import VsphereCompliance.Analysis.Run

/-!
# Approving a storage move

`approveStorageMove` is `approve_storage_move`: it logs a move for the finding with the id and
marks the finding, whatever its type and whether or not it is marked already.
-/

namespace VsphereCompliance.Analysis

open Engine Store

/-- `details.get("recommendation", "")`; only the details of a scattered VM have the key. -/
def recommendedTarget : Details → String
  | .skip _ => ""
  | .rule _ => ""
  | .violation _ => ""
  | .scattered vm => vm.recommendation.text

def moveRow (runId user : Nat) (f : AnalysisFinding) : StorageMoveHistory where
  analysisRunId := runId
  vmName := f.vmName
  sourceDatastore := f.datastoreName
  targetDatastore := recommendedTarget f.details
  status := "approved"
  approvedBy := user
  finding := f.id

/-- The answer to the request: 404, 500 or the message. -/
inductive ApproveAnswer
  | notFound
  | error
  | approved
  deriving DecidableEq, Repr

/-- What the commit of an approval writes. -/
def commitMove (db : Db) (runId user : Nat) (f : AnalysisFinding) : Db :=
  (db.logMove (moveRow runId user f)).takeAction [f.id]

/-- `approve_storage_move`; `commits` says whether the commit goes through. -/
def approveStorageMove (db : Db) (runId findingId user : Nat) (commits : Bool) :
    Db × ApproveAnswer :=
  match db.findings.rows.find? fun f => f.id = findingId ∧ f.analysisRunId = runId with
  | none => (db, .notFound)
  | some f => if commits then (commitMove db runId user f, .approved) else (db, .error)

theorem createdFor_commitMove (db : Db) (runId user : Nat) (f : AnalysisFinding) (id : Nat) :
    (commitMove db runId user f).createdFor id = db.createdFor id := by
  rw [commitMove, Db.createdFor_takeAction, Db.createdFor_logMove]

theorem movesFor_commitMove (db : Db) (runId user : Nat) (f : AnalysisFinding) (id : Nat) :
    (commitMove db runId user f).movesFor id =
      db.movesFor id ++ if f.id = id then [moveRow runId user f] else [] := by
  rw [commitMove, Db.movesFor_takeAction, Db.movesFor_logMove]
  rfl

/-- An approval changes nothing, or it logs and marks the finding with the id. -/
theorem approveStorageMove_cases (db : Db) (runId findingId user : Nat) (commits : Bool) :
    (approveStorageMove db runId findingId user commits).1 = db ∨
      ∃ f ∈ db.findings.rows, f.id = findingId ∧ f.analysisRunId = runId ∧ commits = true ∧
        (approveStorageMove db runId findingId user commits).1 = commitMove db runId user f := by
  unfold approveStorageMove
  cases hfind : db.findings.rows.find? fun f => f.id = findingId ∧ f.analysisRunId = runId with
  | none => exact Or.inl rfl
  | some f =>
    cases commits with
    | false => exact Or.inl rfl
    | true =>
      have hf := List.find?_some hfind
      rw [decide_eq_true_eq] at hf
      exact Or.inr ⟨f, List.mem_of_find?_eq_some hfind, hf.1, hf.2, rfl, rfl⟩

end VsphereCompliance.Analysis
