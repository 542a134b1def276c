import VsphereCompliance.Store.Tables

/-!
# Running an analysis

`triggerAnalysis` is `trigger_analysis` and `doAnalysis` the background task `_do_analysis`.
The steps inside the run (decryption, connection, inventory) may raise; an exception there
fails the run. The commit at the end inserts the findings and updates the run in one
transaction, and PostgreSQL rejects it when a string exceeds the length of its column; that
exception leaves `_do_analysis` and the run as it was.
-/

namespace VsphereCompliance.Analysis

open Engine Store

/-! ## The columns of a finding -/

/-- The string is absent or fits into `String(n)`. -/
def FitsColumn (n : Nat) (s : Option String) : Prop := s.all (fun s => s.length ≤ n) = true

instance (n : Nat) (s : Option String) : Decidable (FitsColumn n s) :=
  inferInstanceAs (Decidable (_ = true))

/-- PostgreSQL accepts the row; `details` and `recommendation` have no length. -/
structure FitsColumns (f : NewFinding) : Prop where
  findingType : FitsColumn 100 (some f.findingType.text)
  severity : FitsColumn 20 (some f.severity.text)
  clusterName : FitsColumn 500 f.clusterName
  vmName : FitsColumn 500 (some f.vmName)
  datastoreName : FitsColumn 500 f.datastoreName

instance (f : NewFinding) : Decidable (FitsColumns f) :=
  decidable_of_iff (FitsColumn 100 (some f.findingType.text) ∧
      FitsColumn 20 (some f.severity.text) ∧ FitsColumn 500 f.clusterName ∧
      FitsColumn 500 (some f.vmName) ∧ FitsColumn 500 f.datastoreName)
    ⟨fun ⟨h1, h2, h3, h4, h5⟩ => ⟨h1, h2, h3, h4, h5⟩,
      fun ⟨h1, h2, h3, h4, h5⟩ => ⟨h1, h2, h3, h4, h5⟩⟩

/-- PostgreSQL accepts the new finding: its texts fit and its run exists. -/
def Accepts (db : Db) (f : NewFinding) : Prop :=
  FitsColumns f ∧ ∃ r ∈ db.runs.rows, r.id = f.analysisRunId

instance (db : Db) (f : NewFinding) : Decidable (Accepts db f) :=
  inferInstanceAs (Decidable (_ ∧ _))

/-! ## The steps inside the run -/

/-- `decrypt_value` and `VCenterService`, each step with the exception that it may raise. -/
structure Access where
  decryptValue : String → Except String String
  connect : VCenterConnection → String → Except String Unit
  getFullInventory : VCenterConnection → Except String Inventory

/-- `analysis_type in (AnalysisType.drs, AnalysisType.full)`. -/
def includesDrs : AnalysisType → Bool
  | .drs => true
  | .storage => false
  | .full => true

/-- `analysis_type in (AnalysisType.storage, AnalysisType.full)`. -/
def includesStorage : AnalysisType → Bool
  | .drs => false
  | .storage => true
  | .full => true

/-- The results of the two analyses; `none` for the `{}` of one that was not asked for. -/
structure Results where
  drs : Option DrsResults
  storage : Option StorageResults

/-- What all analyses share: the regular expressions, the order in which a `set` is listed
and the order in which the patterns are read. -/
structure Config where
  search : Search
  setOrder : SetOrder String
  patternOrder : RowOrder PatternConfig

/-- `pattern_list`. -/
def patternList (cfg : Config) (db : Db) : List Pattern :=
  (db.activePatterns cfg.patternOrder).map fun p => ⟨p.patternType, p.regexPattern⟩

def analyze (cfg : Config) (type : AnalysisType) (inventory : Inventory)
    (patterns : List Pattern) : Results where
  drs := if includesDrs type then
    some (analyzeDrsCompliance cfg.search inventory patterns) else none
  storage := if includesStorage type then
    some (analyzeStorageCompliance cfg.search cfg.setOrder inventory patterns) else none

/-- Decrypt the password of the connection and connect. -/
def openVCenter (access : Access) (conn : Option VCenterConnection) :
    Except String VCenterConnection :=
  match conn with
  | none => .error "'NoneType' object has no attribute 'encrypted_password'"
  | some conn => do
    let password ← access.decryptValue conn.encryptedPassword
    access.connect conn password
    return conn

/-- Decrypt, connect and read the inventory. -/
def fetchInventory (access : Access) (conn : Option VCenterConnection) :
    Except String Inventory := do
  let conn ← openVCenter access conn
  access.getFullInventory conn

def summaryOf (r : Results) : RunSummary where
  drs := some {
    clusters := r.drs.elim 0 fun drs => drs.clusters.length
    rulesToCreate := r.drs.elim 0 DrsResults.totalRulesToCreate
    rulesToDelete := r.drs.elim 0 DrsResults.totalRulesToDelete }
  storage := r.storage.map StorageResults.summary

/-- How `_do_analysis` ends. -/
inductive Ended
  | returned
  | raised
  deriving DecidableEq, Repr

/-- `_do_analysis`. -/
def doAnalysis (cfg : Config) (access : Access) (db : Db) (runId vcenterId : Nat)
    (type : AnalysisType) : Db × Ended :=
  match db.runs.find? runId with
  | none => (db, .raised)
  | some _ =>
    match fetchInventory access (db.connection vcenterId) with
    | .error e => (db.finishRun runId (.failed e), .returned)
    | .ok inventory =>
      let r := analyze cfg type inventory (patternList cfg db)
      let findings := generateFindings r.drs r.storage runId
      if h : ∀ f ∈ findings, Accepts db f then
        ((db.insertFindings findings fun f hf =>
          ⟨coherent_of_mem_generateFindings hf, (h f hf).2⟩).finishRun runId
            (.completed (summaryOf r)), .returned)
      else (db, .raised)

/-- `trigger_analysis`: the new store and the id of the run, or none for the answer 404. -/
def triggerAnalysis (db : Db) (req : RunRequest) : Option (Db × Nat) :=
  match db.connection req.vcenterId with
  | some conn => if conn.isActive then some (db.insertRun req, db.runs.next) else none
  | none => none

theorem triggerAnalysis_eq_some_iff {db db' : Db} {req : RunRequest} {runId : Nat} :
    triggerAnalysis db req = some (db', runId) ↔
      (∃ conn, db.connection req.vcenterId = some conn ∧ conn.isActive = true) ∧
        db' = db.insertRun req ∧ runId = db.runs.next := by
  unfold triggerAnalysis
  cases db.connection req.vcenterId with
  | none => simp
  | some conn =>
    dsimp only
    by_cases hactive : conn.isActive = true
    · rw [if_pos hactive, Option.some.injEq, Prod.mk.injEq]
      refine ⟨?_, ?_⟩
      · intro h'
        obtain ⟨hdb, hid⟩ := h'
        exact ⟨⟨conn, rfl, hactive⟩, hdb.symm, hid.symm⟩
      · intro h'
        obtain ⟨_, hdb, hid⟩ := h'
        exact ⟨hdb.symm, hid.symm⟩
    · rw [if_neg hactive]
      refine ⟨?_, ?_⟩
      · intro h
        cases h
      · intro h'
        obtain ⟨⟨conn', hconn, hactive'⟩, _⟩ := h'
        cases hconn
        exact absurd hactive' hactive

/-! ## What a run leaves in the store -/

section Effects

variable {cfg : Config} {access : Access} {db : Db} {runId vcenterId : Nat}
  {type : AnalysisType} {run : AnalysisRun}

theorem doAnalysis_error {e : String} (hrun : db.runs.find? runId = some run)
    (h : fetchInventory access (db.connection vcenterId) = .error e) :
    doAnalysis cfg access db runId vcenterId type =
      (db.finishRun runId (.failed e), .returned) := by
  unfold doAnalysis
  rw [hrun, h]

/-- The findings that the run makes of an inventory. -/
def findingsFor (cfg : Config) (db : Db) (runId : Nat) (type : AnalysisType)
    (inventory : Inventory) : List NewFinding :=
  generateFindings (analyze cfg type inventory (patternList cfg db)).drs
    (analyze cfg type inventory (patternList cfg db)).storage runId

theorem accepts_findingsFor_iff (hrun : db.runs.find? runId = some run) (inventory : Inventory) :
    (∀ f ∈ findingsFor cfg db runId type inventory, Accepts db f) ↔
      ∀ f ∈ findingsFor cfg db runId type inventory, FitsColumns f := by
  obtain ⟨hmem, hid⟩ := Table.find?_eq_some_iff.mp hrun
  refine ⟨?_, ?_⟩
  · intro h f hf
    exact (h f hf).1
  · intro h f hf
    exact ⟨h f hf, run, hmem, hid.trans (analysisRunId_of_mem_generateFindings hf).symm⟩

/-- A run whose findings are rejected raises, and nothing is stored. -/
theorem doAnalysis_rejected {inventory : Inventory} (hrun : db.runs.find? runId = some run)
    (h : fetchInventory access (db.connection vcenterId) = .ok inventory)
    (hfit : ¬ ∀ f ∈ findingsFor cfg db runId type inventory, FitsColumns f) :
    doAnalysis cfg access db runId vcenterId type = (db, .raised) := by
  rw [← accepts_findingsFor_iff hrun] at hfit
  unfold doAnalysis
  rw [hrun, h]
  exact dif_neg hfit

theorem doAnalysis_completed {inventory : Inventory} (hrun : db.runs.find? runId = some run)
    (h : fetchInventory access (db.connection vcenterId) = .ok inventory)
    (hfit : ∀ f ∈ findingsFor cfg db runId type inventory, FitsColumns f) :
    ∃ hacc, doAnalysis cfg access db runId vcenterId type =
      ((db.insertFindings (findingsFor cfg db runId type inventory) hacc).finishRun runId
        (.completed (summaryOf (analyze cfg type inventory (patternList cfg db)))),
        .returned) := by
  rw [← accepts_findingsFor_iff hrun] at hfit
  refine ⟨fun f hf => ⟨coherent_of_mem_generateFindings hf, (hfit f hf).2⟩, ?_⟩
  unfold doAnalysis
  rw [hrun, h]
  exact dif_pos hfit

end Effects

end VsphereCompliance.Analysis
