import VsphereCompliance.Analysis.ApproveStorage
import VsphereCompliance.Analysis.Terminal

/-!
# The target of an approved move

`approve_storage_move` takes the target of a move from the `details` document of the finding, and
the recommendation is also a column of the finding. The document of a scattered VM has it under
the key that is read, that of a violation does not. So the logged target is the recommendation
exactly for the scattered VMs whose recommendation fits the column (`approved_move_iff`).
-/

namespace VsphereCompliance.Analysis

open Engine Store

/-! ## The row -/

/-- PostgreSQL accepts the row. -/
structure MoveFits (row : StorageMoveHistory) : Prop where
  vmName : FitsColumn 500 (some row.vmName)
  sourceDatastore : FitsColumn 500 row.sourceDatastore
  targetDatastore : FitsColumn 500 (some row.targetDatastore)
  status : FitsColumn 50 (some row.status)

instance (row : StorageMoveHistory) : Decidable (MoveFits row) :=
  decidable_of_iff (FitsColumn 500 (some row.vmName) ∧ FitsColumn 500 row.sourceDatastore ∧
      FitsColumn 500 (some row.targetDatastore) ∧ FitsColumn 50 (some row.status))
    ⟨fun ⟨h1, h2, h3, h4⟩ => ⟨h1, h2, h3, h4⟩, fun ⟨h1, h2, h3, h4⟩ => ⟨h1, h2, h3, h4⟩⟩

/-- The store after the approval of a finding; the commit fails if the row does not fit. -/
def afterApproval (db : Db) (f : AnalysisFinding) (user : Nat) : Db :=
  (approveStorageMove db f.analysisRunId f.id user
    (decide (MoveFits (moveRow f.analysisRunId user f)))).1

/-- The approval has logged a move to what the finding recommends. -/
def RecordsRecommendation (db : Db) (f : AnalysisFinding) (user : Nat) : Prop :=
  f.recommendation ≠ "" ∧ ∃ row, (afterApproval db f user).storageHistory =
    db.storageHistory ++ [row] ∧ row.finding = f.id ∧ row.targetDatastore = f.recommendation

/-! ## The two kinds of storage findings -/

theorem ne_empty_of_append {s t : String} (hs : s ≠ "") : s ++ t ≠ "" := by
  intro h
  have hlength := congrArg String.length h
  rw [String.length_append] at hlength
  have hempty : s.length = 0 := by
    rw [String.length_empty] at hlength
    omega
  exact hs (String.length_eq_zero_iff.mp hempty)

/-- The engine never recommends nothing. -/
theorem recommendation_text_ne_empty (r : Recommendation) : r.text ≠ "" := by
  cases r with
  | alreadySingle => decide
  | consolidate ds =>
    exact ne_empty_of_append (ne_empty_of_append (ne_empty_of_append (ne_empty_of_append
      (by decide))))
  | manualReview n => exact ne_empty_of_append (ne_empty_of_append (by decide))

section Approval

variable {db : Db} {f : AnalysisFinding} (user : Nat)

/-- **Where the target is the recommendation**: only the details of a scattered VM have it. -/
theorem recommendedTarget_eq_iff {drs : Option DrsResults} {storage : Option StorageResults}
    {runId : Nat} (hgen : f.toNewFinding ∈ generateFindings drs storage runId)
    (hstorage : f.findingType = .storageShared ∨ f.findingType = .storageScattered) :
    f.recommendation ≠ "" ∧ (recommendedTarget f.details = f.recommendation ↔
      f.findingType = .storageScattered) := by
  obtain ⟨_, _, heq⟩ | ⟨_, _, heq⟩ | ⟨v, heq⟩ | ⟨vm, heq⟩ := kind_of_mem_generateFindings hgen
  · simp [heq, skipFinding] at hstorage
  · simp [heq, ruleFinding] at hstorage
  · have hne : (violationFinding runId v).recommendation ≠ "" :=
      ne_empty_of_append (ne_empty_of_append (by decide))
    rw [heq]
    refine ⟨hne, fun htarget => absurd htarget.symm hne, fun htype => ?_⟩
    cases htype
  · rw [heq]
    refine ⟨recommendation_text_ne_empty vm.recommendation, ?_⟩
    simp [scatteredFinding, recommendedTarget]

/-- An approved finding is found, and its row is logged if it fits. -/
theorem storageHistory_afterApproval (hf : f ∈ db.findings.rows) :
    (afterApproval db f user).storageHistory =
      if MoveFits (moveRow f.analysisRunId user f) then
        db.storageHistory ++ [moveRow f.analysisRunId user f]
      else db.storageHistory := by
  have hfind : db.findings.rows.find? (fun g => g.id = f.id ∧ g.analysisRunId = f.analysisRunId) =
      some f := by
    have hsome : (db.findings.rows.find?
        fun g => g.id = f.id ∧ g.analysisRunId = f.analysisRunId).isSome := by
      rw [List.find?_isSome]
      exact ⟨f, hf, by simp⟩
    obtain ⟨g, hg⟩ := Option.isSome_iff_exists.mp hsome
    have hid := List.find?_some hg
    rw [decide_eq_true_eq] at hid
    rw [hg, db.findings.eq_of_key (List.mem_of_find?_eq_some hg) hf hid.1]
  unfold afterApproval approveStorageMove
  rw [hfind]
  by_cases hfits : MoveFits (moveRow f.analysisRunId user f)
  · simp only [hfits, decide_true, if_true]
    rfl
  · simp [hfits]

/-- The names in the row are those of the stored finding. -/
theorem moveFits_iff (hfits : FitsColumns f.toNewFinding) (runId : Nat) :
    MoveFits (moveRow runId user f) ↔ (recommendedTarget f.details).length ≤ 500 := by
  constructor
  · intro h
    exact fitsColumn_some.mp h.targetDatastore
  · intro h
    have hstatus : "approved".length ≤ 50 := by decide
    exact ⟨hfits.vmName, hfits.datastoreName, fitsColumn_some.mpr h, fitsColumn_some.mpr hstatus⟩

/-- **An approval records what was recommended** exactly for a scattered VM whose
recommendation fits the column of the target. -/
theorem approved_move_iff (cfg : Config) (type : AnalysisType) (inventory : Inventory)
    (patterns : List Pattern) (hf : f ∈ db.findings.rows) (hfits : FitsColumns f.toNewFinding)
    (hgen : f.toNewFinding ∈ generateFindings (analyze cfg type inventory patterns).drs
      (analyze cfg type inventory patterns).storage f.analysisRunId)
    (hstorage : f.findingType = .storageShared ∨ f.findingType = .storageScattered) :
    RecordsRecommendation db f user ↔
      f.findingType = .storageScattered ∧ f.recommendation.length ≤ 500 := by
  obtain ⟨hne, htarget⟩ := recommendedTarget_eq_iff hgen hstorage
  have hmove := moveFits_iff user hfits f.analysisRunId
  have hhistory := storageHistory_afterApproval user hf
  constructor
  · rintro ⟨_, row, hrow, _, hrecommended⟩
    rw [hhistory] at hrow
    by_cases hrowFits : MoveFits (moveRow f.analysisRunId user f)
    · rw [if_pos hrowFits] at hrow
      obtain rfl := List.singleton_inj.mp (List.append_cancel_left hrow)
      exact ⟨htarget.mp hrecommended, hrecommended ▸ hmove.mp hrowFits⟩
    · rw [if_neg hrowFits] at hrow
      simp at hrow
  · rintro ⟨htype, hlength⟩
    have heq := htarget.mpr htype
    rw [← heq] at hlength
    rw [if_pos (hmove.mpr hlength)] at hhistory
    exact ⟨hne, _, hhistory, rfl, heq⟩

end Approval

/-! ## A scattered VM and a violation -/

/-- A database server on two datastores. -/
def scatteredInventory : Inventory where
  clusters := [⟨"Cluster-A", 4,
    [⟨"DB-01", [⟨some "DS-01", none, false⟩, ⟨some "DS-02", none, false⟩]⟩], []⟩]
  datastores := [⟨"DS-01", 500⟩, ⟨"DS-02", 400⟩]
  datastoreClusters := []

/-- The store after the storage analysis of an inventory. -/
def analysedDb (inventory : Inventory) : Db :=
  (doAnalysis webConfig (accessTo inventory) triggeredDb 1 1 .storage).1

/-- The finding about the database server. -/
def scatteredRow : AnalysisFinding :=
  Db.findingRow 1 (scatteredFinding 1 ⟨"DB-01", "Cluster-A", ["DS-01", "DS-02"], [], 2,
    .consolidate ⟨"DS-01", 500⟩⟩)

theorem roundHalfEven_500 : roundHalfEven 500 = 500 := by
  simp [roundHalfEven]

theorem findings_scatteredInventory :
    (analysedDb scatteredInventory).findings.rows = [scatteredRow] := rfl

theorem approved_move_iff_scattered :
    scatteredRow ∈ (analysedDb scatteredInventory).findings.rows ∧
      RecordsRecommendation (analysedDb scatteredInventory) scatteredRow 1 := by
  have hrow : scatteredRow ∈ (analysedDb scatteredInventory).findings.rows := by
    rw [findings_scatteredInventory]
    exact List.mem_singleton_self _
  have hlength : scatteredRow.recommendation.length ≤ 500 := by
    show ("Consolidate all disks to 'DS-01' (most free space: " ++
      toString (roundHalfEven 500) ++ " GB)").length ≤ 500
    rw [roundHalfEven_500]
    decide
  refine ⟨hrow, (approved_move_iff 1 webConfig .storage scatteredInventory [webPattern] hrow
    (by decide) (List.mem_singleton_self scatteredRow.toNewFinding) (Or.inr rfl)).mpr
      ⟨rfl, hlength⟩⟩

/-- The finding about the two web servers. -/
def sharedRow : AnalysisFinding :=
  Db.findingRow 1 (violationFinding 1 ⟨some "WEB", "WEB-01", "WEB-02", ["DS-01"], ["DSC-01"],
    .critical⟩)

/-- The approved move of a violation has an empty target. -/
theorem shared_move_without_target :
    sharedRow ∈ (analysedDb sharedInventory).findings.rows ∧
      sharedRow.findingType = .storageShared ∧
      (afterApproval (analysedDb sharedInventory) sharedRow 1).storageHistory.map
        StorageMoveHistory.targetDatastore = [""] ∧
      ¬ RecordsRecommendation (analysedDb sharedInventory) sharedRow 1 := by
  have htargets : (afterApproval (analysedDb sharedInventory) sharedRow 1).storageHistory.map
      StorageMoveHistory.targetDatastore = [""] := by
    decide
  refine ⟨by decide, rfl, htargets, ?_⟩
  rintro ⟨hne, row, hrow, _, htarget⟩
  rw [hrow] at htargets
  exact hne (htarget ▸ List.singleton_inj.mp htargets)

end VsphereCompliance.Analysis
