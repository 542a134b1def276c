import VsphereCompliance.Library.Table
import VsphereCompliance.Engine.Findings

/-!
# The store

The tables that the analysis endpoints read and write. `Db` carries what the operations keep:
runs and findings have distinct ids, every finding belongs to a run (the foreign key), and the
`details` of a finding go with its type, since all finding rows come from
`generate_findings`. Timestamps are left out, also the `action_taken_at` of a finding, which every
action writes. A history row names, besides its columns, the finding on whose behalf it was
inserted (`finding`).
-/

namespace VsphereCompliance.Store

open Engine

inductive AnalysisType
  | drs
  | storage
  | full
  deriving DecidableEq, Repr

inductive AnalysisStatus
  | pending
  | running
  | completed
  | failed
  deriving DecidableEq, Repr

/-- The entry `drs` of a summary. -/
structure DrsSummary where
  clusters : Nat
  rulesToCreate : Nat
  rulesToDelete : Nat
  deriving DecidableEq, Repr

/-- The `summary` document of a run; `none` stands for an entry `{}`. -/
structure RunSummary where
  drs : Option DrsSummary
  storage : Option StorageSummary
  deriving DecidableEq, Repr

structure AnalysisRun where
  id : Nat
  vcenterId : Option Nat
  triggeredBy : Option Nat
  analysisType : AnalysisType
  status : AnalysisStatus
  summary : Option RunSummary
  errorMessage : Option String
  deriving DecidableEq, Repr

/-- What `trigger_analysis` writes into a new run. -/
structure RunRequest where
  vcenterId : Nat
  user : Nat
  analysisType : AnalysisType
  deriving DecidableEq, Repr

/-- What a finished analysis writes into its run. -/
inductive RunOutcome
  | completed (summary : RunSummary)
  | failed (error : String)
  deriving DecidableEq, Repr

def RunOutcome.write (o : RunOutcome) (run : AnalysisRun) : AnalysisRun :=
  match o with
  | .completed summary => { run with status := .completed, summary := some summary }
  | .failed error => { run with status := .failed, errorMessage := some error }

theorem RunOutcome.id_write (o : RunOutcome) (run : AnalysisRun) : (o.write run).id = run.id := by
  cases o with
  | completed summary => rfl
  | failed error => rfl

structure AnalysisFinding extends NewFinding where
  id : Nat
  actionTaken : Bool
  deriving DecidableEq

structure DrsRuleHistory where
  analysisRunId : Nat
  clusterName : Option String
  ruleName : String
  action : String
  vmsInRule : List String
  reason : String
  finding : Nat
  deriving DecidableEq, Repr

structure StorageMoveHistory where
  analysisRunId : Nat
  vmName : String
  sourceDatastore : Option String
  targetDatastore : String
  status : String
  approvedBy : Nat
  finding : Nat
  deriving DecidableEq, Repr

structure VCenterConnection where
  id : Nat
  name : String
  host : String
  port : Int
  username : String
  encryptedPassword : String
  verifySsl : Bool
  isActive : Bool
  version : Option String
  deriving DecidableEq, Repr

structure PatternConfig where
  id : Nat
  name : String
  patternType : PatternType
  regexPattern : String
  description : Option String
  isActive : Bool
  deriving DecidableEq, Repr

structure Db where
  connections : Table VCenterConnection VCenterConnection.id
  patterns : Table PatternConfig PatternConfig.id
  runs : Table AnalysisRun AnalysisRun.id
  findings : Table AnalysisFinding AnalysisFinding.id
  drsHistory : List DrsRuleHistory
  storageHistory : List StorageMoveHistory
  /-- The foreign key `analysis_run_id`. -/
  hasRun : ∀ f ∈ findings.rows, ∃ r ∈ runs.rows, r.id = f.analysisRunId
  coherent : ∀ f ∈ findings.rows, f.toNewFinding.Coherent

/-- PostgreSQL stores no NUL in a text. -/
def IsText (s : String) : Prop := '\x00' ∉ s.toList

instance (s : String) : Decidable (IsText s) := inferInstanceAs (Decidable (¬ _))

/-- A text for a column of this length. -/
def Storable (n : Nat) (s : String) : Prop := s.length ≤ n ∧ IsText s

instance (n : Nat) (s : String) : Decidable (Storable n s) := inferInstanceAs (Decidable (_ ∧ _))

/-- The order in which a query without `ORDER BY` returns its rows. -/
structure RowOrder (α : Type) where
  arrange : List α → List α
  perm : ∀ rows, (arrange rows).Perm rows

/-- The rows as they were inserted. -/
def RowOrder.asInserted (α : Type) : RowOrder α := ⟨id, fun _ => List.Perm.refl _⟩

namespace Db

/-! ## Queries -/

def connection (db : Db) (id : Nat) : Option VCenterConnection :=
  db.connections.find? id

/-- The active patterns. -/
def activePatterns (db : Db) (order : RowOrder PatternConfig) : List PatternConfig :=
  order.arrange (db.patterns.rows.filter PatternConfig.isActive)

/-- The findings of a run, in the order of their ids. -/
def findingsOf (db : Db) (run : Nat) : List AnalysisFinding :=
  db.findings.rows.filter fun f => f.analysisRunId = run

/-- The `DRSRuleHistory` rows with action `created` inserted on behalf of a finding. -/
def createdFor (db : Db) (finding : Nat) : List DrsRuleHistory :=
  db.drsHistory.filter fun row => row.finding = finding ∧ row.action = "created"

/-- The `StorageMoveHistory` rows inserted on behalf of a finding. -/
def movesFor (db : Db) (finding : Nat) : List StorageMoveHistory :=
  db.storageHistory.filter fun row => row.finding = finding

/-! ## Updates -/

def newRun (id : Nat) (req : RunRequest) : AnalysisRun where
  id := id
  vcenterId := some req.vcenterId
  triggeredBy := some req.user
  analysisType := req.analysisType
  status := .running
  summary := none
  errorMessage := none

/-- Insert a run; its id is `db.runs.next`. -/
def insertRun (db : Db) (req : RunRequest) : Db :=
  { db with
    runs := db.runs.insertRows newRun (fun _ _ => rfl) [req]
    hasRun := by
      intro f hf
      obtain ⟨r, hr, hid⟩ := db.hasRun f hf
      exact ⟨r, List.mem_append_left _ hr, hid⟩ }

def finishRun (db : Db) (run : Nat) (o : RunOutcome) : Db :=
  { db with
    runs := db.runs.update (fun r => r.id = run) o.write fun r => o.id_write r
    hasRun := by
      intro f hf
      obtain ⟨r, hr, hid⟩ := db.hasRun f hf
      refine ⟨_, List.mem_map_of_mem hr, ?_⟩
      split
      · rw [o.id_write, hid]
      · exact hid }

def findingRow (id : Nat) (f : NewFinding) : AnalysisFinding := { f with id, actionTaken := false }

def insertFindings (db : Db) (fs : List NewFinding)
    (h : ∀ f ∈ fs, f.Coherent ∧ ∃ r ∈ db.runs.rows, r.id = f.analysisRunId) : Db :=
  { db with
    findings := db.findings.insertRows findingRow (fun _ _ => rfl) fs
    hasRun := by
      intro f hf
      rcases List.mem_append.mp hf with hf | hf
      · exact db.hasRun f hf
      · obtain ⟨_, x, hx, _, rfl⟩ := Table.mem_newRows hf
        exact (h x hx).2
    coherent := by
      intro f hf
      rcases List.mem_append.mp hf with hf | hf
      · exact db.coherent f hf
      · obtain ⟨_, x, hx, _, rfl⟩ := Table.mem_newRows hf
        exact (h x hx).1 }

/-- The action is taken, or taken once more; its time is left out. -/
def markTaken (f : AnalysisFinding) : AnalysisFinding := { f with actionTaken := true }

/-- Set `action_taken` on the findings with the ids of the list. -/
def takeAction (db : Db) (ids : List Nat) : Db :=
  { db with
    findings := db.findings.update (fun f => f.id ∈ ids) markTaken (fun _ => rfl)
    hasRun := by
      intro f hf
      obtain ⟨g, hg, rfl⟩ := List.mem_map.mp hf
      dsimp only
      split
      · exact db.hasRun g hg
      · exact db.hasRun g hg
    coherent := by
      intro f hf
      obtain ⟨g, hg, rfl⟩ := List.mem_map.mp hf
      dsimp only
      split
      · exact db.coherent g hg
      · exact db.coherent g hg }

def logRules (db : Db) (rows : List DrsRuleHistory) : Db :=
  { db with drsHistory := db.drsHistory ++ rows }

def logMove (db : Db) (row : StorageMoveHistory) : Db :=
  { db with storageHistory := db.storageHistory ++ [row] }

/-! ## What the updates leave alone -/

/-- A new run has no findings. -/
theorem findingsOf_next (db : Db) : db.findingsOf db.runs.next = [] := by
  rw [findingsOf, List.filter_eq_nil_iff]
  intro f hf
  obtain ⟨r, hr, hid⟩ := db.hasRun f hf
  have hlt := db.runs.key_lt r hr
  simp only [decide_eq_true_eq]
  omega

theorem find?_insertRun (db : Db) (req : RunRequest) :
    (db.insertRun req).runs.find? db.runs.next = some (newRun db.runs.next req) :=
  Table.find?_eq_some_iff.mpr ⟨List.mem_append_right _ (List.mem_singleton_self _), rfl⟩

theorem find?_finishRun {db : Db} {run : Nat} {r : AnalysisRun} (o : RunOutcome)
    (h : db.runs.find? run = some r) : (db.finishRun run o).runs.find? run = some (o.write r) := by
  have hid : r.id = run := (Table.find?_eq_some_iff.mp h).2
  rw [finishRun, Table.find?_update h, decide_eq_true hid, if_pos rfl]

@[simp] theorem findingsOf_finishRun (db : Db) (run id : Nat) (o : RunOutcome) :
    (db.finishRun run o).findingsOf id = db.findingsOf id := rfl

theorem createdFor_takeAction (db : Db) (ids : List Nat) (id : Nat) :
    (db.takeAction ids).createdFor id = db.createdFor id := rfl

theorem movesFor_takeAction (db : Db) (ids : List Nat) (id : Nat) :
    (db.takeAction ids).movesFor id = db.movesFor id := rfl

theorem createdFor_logMove (db : Db) (row : StorageMoveHistory) (id : Nat) :
    (db.logMove row).createdFor id = db.createdFor id := rfl

theorem movesFor_logMove (db : Db) (row : StorageMoveHistory) (id : Nat) :
    (db.logMove row).movesFor id = db.movesFor id ++ if row.finding = id then [row] else [] := by
  unfold movesFor logMove
  rw [List.filter_append, List.filter_singleton]
  by_cases h : row.finding = id
  · rw [if_pos h, decide_eq_true h]
    rfl
  · rw [if_neg h, decide_eq_false h]
    rfl

/-- A finding after some were marked was there before. -/
theorem exists_of_mem_takeAction {db : Db} {ids : List Nat} {g : AnalysisFinding}
    (hg : g ∈ (db.takeAction ids).findings.rows) :
    ∃ f ∈ db.findings.rows, (f.id ∈ ids ∧ g = markTaken f) ∨ (f.id ∉ ids ∧ g = f) := by
  obtain ⟨f, hf, rfl⟩ := List.mem_map.mp hg
  refine ⟨f, hf, ?_⟩
  by_cases hid : f.id ∈ ids
  · exact Or.inl ⟨hid, if_pos (decide_eq_true hid)⟩
  · exact Or.inr ⟨hid, if_neg fun htrue => hid (of_decide_eq_true htrue)⟩

/-- Marking findings changes no other field. -/
theorem exists_takeAction {db : Db} {f : AnalysisFinding} (ids : List Nat)
    (hf : f ∈ db.findings.rows) : ∃ g ∈ (db.takeAction ids).findings.rows,
      g.id = f.id ∧ g.toNewFinding = f.toNewFinding := by
  refine ⟨_, List.mem_map_of_mem hf, ?_⟩
  split
  · exact ⟨rfl, rfl⟩
  · exact ⟨rfl, rfl⟩

/-- The findings of a run after its findings were inserted. -/
theorem findingsOf_insertFindings {db : Db} {fs : List NewFinding} {run : Nat}
    (h : ∀ f ∈ fs, f.Coherent ∧ ∃ r ∈ db.runs.rows, r.id = f.analysisRunId)
    (hrun : ∀ f ∈ fs, f.analysisRunId = run) :
    (db.insertFindings fs h).findingsOf run =
      db.findingsOf run ++ Table.newRows findingRow db.findings.next fs := by
  unfold findingsOf
  show List.filter _ (db.findings.rows ++ Table.newRows findingRow db.findings.next fs) = _
  rw [List.filter_append]
  congr 1
  rw [List.filter_eq_self]
  intro f hf
  obtain ⟨_, x, hx, _, rfl⟩ := Table.mem_newRows hf
  exact decide_eq_true (hrun x hx)

/-- Inserted findings do not show up under another run. -/
theorem findingsOf_insertFindings_of_ne {db : Db} {fs : List NewFinding} {id : Nat}
    (h : ∀ f ∈ fs, f.Coherent ∧ ∃ r ∈ db.runs.rows, r.id = f.analysisRunId)
    (hne : ∀ f ∈ fs, f.analysisRunId ≠ id) :
    (db.insertFindings fs h).findingsOf id = db.findingsOf id := by
  unfold findingsOf
  show List.filter _ (db.findings.rows ++ Table.newRows findingRow db.findings.next fs) = _
  rw [List.filter_append, List.append_right_eq_self, List.filter_eq_nil_iff]
  intro f hf hid
  obtain ⟨_, x, hx, _, rfl⟩ := Table.mem_newRows hf
  exact hne x hx (of_decide_eq_true hid)

theorem map_findingRow (n : Nat) (fs : List NewFinding) :
    (Table.newRows findingRow n fs).map AnalysisFinding.toNewFinding = fs := by
  have hrow : ∀ n x, (findingRow n x).toNewFinding = id x := fun _ _ => rfl
  rw [Table.map_newRows hrow, List.map_id]

end Db

end VsphereCompliance.Store
