import VsphereCompliance.Analysis.RowLengths

/-!
# Does a triggered analysis reach a terminal state?

The run of a triggered analysis ends as `completed` with all findings or as `failed` with
none, provided the findings of the inventory it fetched fit into their columns. Otherwise the
commit is rejected, and the run stays `running` for good (`doAnalysis_terminal_iff`).
-/

namespace VsphereCompliance.Analysis

open Engine Store

/-- The steps before the analysis succeed with this inventory. -/
def Fetched (access : Access) (db : Db) (vcenterId : Nat) (inventory : Inventory) : Prop :=
  ∃ conn password, db.connection vcenterId = some conn ∧
    access.decryptValue conn.encryptedPassword = .ok password ∧
    access.connect conn password = .ok () ∧ access.getFullInventory conn = .ok inventory

theorem fetchInventory_eq_ok_iff {access : Access} {db : Db} {vcenterId : Nat}
    {inventory : Inventory} :
    fetchInventory access (db.connection vcenterId) = .ok inventory ↔
      Fetched access db vcenterId inventory := by
  unfold fetchInventory openVCenter Fetched
  cases db.connection vcenterId with
  | none => simp [bind, Except.bind]
  | some conn =>
    cases hdec : access.decryptValue conn.encryptedPassword with
    | error e => simp [hdec, bind, Except.bind]
    | ok password =>
      cases hconn : access.connect conn password with
      | error e => simp [hdec, hconn, bind, Except.bind]
      | ok u => simp [hdec, hconn, bind, Except.bind, pure, Except.pure]

/-- The run ended, with all the findings of an inventory it fetched or with none. -/
structure EndsTerminal (cfg : Config) (access : Access) (db : Db) (runId vcenterId : Nat)
    (type : AnalysisType) (after : Db) : Prop where
  terminal : ∃ run, after.runs.find? runId = some run ∧
    (run.status = .completed ∨ run.status = .failed)
  completed : ∀ run, after.runs.find? runId = some run → run.status = .completed →
    ∃ inventory, Fetched access db vcenterId inventory ∧
      (after.findingsOf runId).map AnalysisFinding.toNewFinding =
        findingsFor cfg db runId type inventory
  failed : ∀ run, after.runs.find? runId = some run → run.status = .failed →
    after.findingsOf runId = []

section Terminal

variable {cfg : Config} {access : Access} {db : Db} {runId vcenterId : Nat}
  {type : AnalysisType} {run : AnalysisRun}

theorem endsTerminal_of_error {e : String} (hrun : db.runs.find? runId = some run)
    (hnone : db.findingsOf runId = [])
    (h : fetchInventory access (db.connection vcenterId) = .error e) :
    EndsTerminal cfg access db runId vcenterId type
      (doAnalysis cfg access db runId vcenterId type).1 := by
  rw [doAnalysis_error hrun h]
  have hafter := Db.find?_finishRun (.failed e) hrun
  refine ⟨⟨_, hafter, Or.inr rfl⟩, ?_, fun _ _ _ => hnone⟩
  intro run' hrun' hstatus
  rw [hafter] at hrun'
  cases hrun'
  cases hstatus

theorem endsTerminal_of_fits {inventory : Inventory} (hrun : db.runs.find? runId = some run)
    (hnone : db.findingsOf runId = [])
    (h : fetchInventory access (db.connection vcenterId) = .ok inventory)
    (hfit : ∀ f ∈ findingsFor cfg db runId type inventory, FitsColumns f) :
    EndsTerminal cfg access db runId vcenterId type
      (doAnalysis cfg access db runId vcenterId type).1 := by
  obtain ⟨hacc, heq⟩ := doAnalysis_completed hrun h hfit
  rw [heq]
  have hinsert : (db.insertFindings (findingsFor cfg db runId type inventory)
      hacc).runs.find? runId = some run := hrun
  have hafter := Db.find?_finishRun
    (.completed (summaryOf (analyze cfg type inventory (patternList cfg db)))) hinsert
  refine ⟨⟨_, hafter, Or.inl rfl⟩, ?_, ?_⟩
  · intro _ _ _
    refine ⟨inventory, fetchInventory_eq_ok_iff.mp h, ?_⟩
    show ((db.insertFindings _ hacc).findingsOf runId).map _ = _
    rw [Db.findingsOf_insertFindings hacc fun f hf => analysisRunId_of_mem_generateFindings hf,
      hnone, List.nil_append, Db.map_findingRow]
  · intro run' hrun' hstatus
    rw [hafter] at hrun'
    cases hrun'
    cases hstatus

/-- A rejected run stays as it was. -/
theorem not_endsTerminal_of_rejected {inventory : Inventory}
    (hrun : db.runs.find? runId = some run) (hstatus : run.status = .running)
    (h : fetchInventory access (db.connection vcenterId) = .ok inventory)
    (hfit : ¬ ∀ f ∈ findingsFor cfg db runId type inventory, FitsColumns f) :
    ¬ EndsTerminal cfg access db runId vcenterId type
      (doAnalysis cfg access db runId vcenterId type).1 := by
  rw [doAnalysis_rejected hrun h hfit]
  intro hends
  obtain ⟨run', hrun', hterm⟩ := hends.terminal
  rw [hrun] at hrun'
  cases hrun'
  rw [hstatus] at hterm
  rcases hterm with hterm | hterm
  · cases hterm
  · cases hterm

/-- **A running analysis without findings ends in a terminal state**, with all of its findings
or none, exactly when the texts of the inventory it fetches fit. -/
theorem doAnalysis_terminal_iff (hrun : db.runs.find? runId = some run)
    (hstatus : run.status = .running) (hnone : db.findingsOf runId = []) :
    EndsTerminal cfg access db runId vcenterId type
        (doAnalysis cfg access db runId vcenterId type).1 ↔
      ∀ inventory, Fetched access db vcenterId inventory →
        RowsFit cfg.search type (patternList cfg db) inventory := by
  cases h : fetchInventory access (db.connection vcenterId) with
  | error e =>
    refine ⟨fun _ inventory hfetch => ?_, fun _ => endsTerminal_of_error hrun hnone h⟩
    rw [fetchInventory_eq_ok_iff.mpr hfetch] at h
    cases h
  | ok inventory =>
    have hfit := fits_generateFindings_iff cfg type runId (patternList cfg db) inventory
    refine ⟨?_, ?_⟩
    · intro hends inventory' hfetch
      rw [fetchInventory_eq_ok_iff.mpr hfetch] at h
      cases h
      by_contra hbad
      exact not_endsTerminal_of_rejected hrun hstatus (fetchInventory_eq_ok_iff.mpr hfetch)
        (fun hall => hbad (hfit.mp hall)) hends
    · intro hall
      exact endsTerminal_of_fits hrun hnone h
        (hfit.mpr (hall inventory (fetchInventory_eq_ok_iff.mp h)))

end Terminal

/-! ## A run that never ends -/

def localConnection : VCenterConnection :=
  ⟨1, "Local", "vcenter.local", 443, "admin", "secret", false, true, none⟩

def webPatternConfig : PatternConfig := ⟨1, "Web Servers", .vmName, "^(WEB)-", none, true⟩

/-- A store with one vCenter connection and the pattern for web servers. -/
def seededDb : Db where
  connections := Table.singleton localConnection
  patterns := Table.singleton webPatternConfig
  runs := Table.empty
  findings := Table.empty
  drsHistory := []
  storageHistory := []
  hasRun := fun _ hf => absurd hf List.not_mem_nil
  coherent := fun _ hf => absurd hf List.not_mem_nil

def webConfig : Config where
  search := webSearch
  setOrder := SetOrder.sorted String
  patternOrder := RowOrder.asInserted PatternConfig

/-- Every step succeeds, and the vCenter has this inventory. -/
def accessTo (inventory : Inventory) : Access where
  decryptValue := fun s => .ok s
  connect := fun _ _ => .ok ()
  getFullInventory := fun _ => .ok inventory

/-- What the names of the web servers end in. -/
def longSuffix : String :=
  "-frontend-of-the-customer-portal-in-the-primary-datacenter-behind-balancer"

theorem length_longSuffix : longSuffix.length = 74 := by decide

def webNames (suffix : String) : List String :=
  ["1", "2", "3", "4", "5", "6", "7"].map fun n => "WEB-" ++ n ++ suffix

theorem length_intercalate_webNames (suffix : String) :
    (", ".intercalate (webNames suffix)).length = 47 + 7 * suffix.length := by
  have hsep : ", ".length = 2 := rfl
  have hlen : ∀ n ∈ ["1", "2", "3", "4", "5", "6", "7"],
      ("WEB-" ++ n ++ suffix).length = 5 + suffix.length := by
    intro n hn
    have hn' : ("WEB-" ++ n).length = 5 := by
      revert n
      decide
    rw [String.length_append, hn']
  have hmap : (webNames suffix).map String.length = List.replicate 7 (5 + suffix.length) := by
    rw [webNames, List.map_map]
    exact List.map_congr_left hlen
  have hcount : (webNames suffix).length = 7 := rfl
  rw [length_intercalate, hmap, hsep, hcount, List.sum_replicate_nat]
  omega

/-- Seven names of 79 characters; vCenter admits 80. -/
def longNames : List String := webNames longSuffix

/-- The seven web servers on a cluster of one host: a skipped group. -/
def longCluster : Cluster := ⟨"Cluster-A", 1, longNames.map fun name => ⟨name, []⟩, []⟩

def longInventory : Inventory := ⟨[longCluster], [], []⟩

/-- `re.search` for the seeded pattern `^(WEB)-` on names that all start with `WEB-`. -/
def webNamesConfig : Config :=
  { webConfig with search := fun _ _ => .found webMatch }

/-- The store after a full analysis was triggered; the run is number 1. -/
def triggeredDb : Db := seededDb.insertRun ⟨1, 1, .full⟩

example : triggerAnalysis seededDb ⟨1, 1, .full⟩ = some (triggeredDb, 1) := rfl

theorem doAnalysis_terminal_iff_shared :
    triggeredDb.runs.find? 1 = some (Db.newRun 1 ⟨1, 1, .full⟩) ∧
      (Db.newRun 1 ⟨1, 1, .full⟩).status = .running ∧ triggeredDb.findingsOf 1 = [] ∧
      (EndsTerminal webConfig (accessTo sharedInventory) triggeredDb 1 1 .full
          (doAnalysis webConfig (accessTo sharedInventory) triggeredDb 1 1 .full).1 ↔
        ∀ inventory, Fetched (accessTo sharedInventory) triggeredDb 1 inventory →
          RowsFit webSearch .full (patternList webConfig triggeredDb) inventory) := by
  have hrun : triggeredDb.runs.find? 1 = some (Db.newRun 1 ⟨1, 1, .full⟩) := rfl
  exact ⟨hrun, rfl, rfl, doAnalysis_terminal_iff hrun rfl rfl⟩

theorem members_longCluster :
    members webNamesConfig.search (patternList webNamesConfig triggeredDb) longCluster
      (some "WEB") = longNames := by
  have hkey : ∀ name, drsGroupKey webNamesConfig.search (patternList webNamesConfig triggeredDb)
      name = some (some "WEB") := fun _ => rfl
  unfold members longCluster
  rw [List.filter_eq_self.mpr fun vm _ => decide_eq_true (hkey vm.name), List.map_map]
  exact List.map_id _

theorem not_fits_longInventory :
    ¬ ∀ f ∈ findingsFor webNamesConfig triggeredDb 1 .full longInventory, FitsColumns f := by
  intro hall
  have hrows := ((fits_generateFindings_iff webNamesConfig .full 1
    (patternList webNamesConfig triggeredDb) longInventory).mp hall).1 rfl
  have hgroup := hrows longCluster (List.mem_singleton_self _) (some "WEB")
  have hskip : SkippedWhole longCluster longNames := Or.inr (by decide)
  rw [members_longCluster, groupLists, if_pos hskip] at hgroup
  have hlen := (hgroup (List.cons_ne_nil _ _) longNames (List.mem_singleton_self _)).2
  rw [longNames, length_intercalate_webNames, length_longSuffix] at hlen
  omega

/-- The names of the seven web servers together exceed the column, and the run stays
`running`. -/
theorem longInventory_never_ends :
    triggerAnalysis seededDb ⟨1, 1, .full⟩ = some (triggeredDb, 1) ∧
      ((doAnalysis webNamesConfig (accessTo longInventory) triggeredDb 1 1
        .full).1.runs.find? 1).map AnalysisRun.status = some .running ∧
      ¬ EndsTerminal webNamesConfig (accessTo longInventory) triggeredDb 1 1 .full
        (doAnalysis webNamesConfig (accessTo longInventory) triggeredDb 1 1 .full).1 := by
  have hfit := not_fits_longInventory
  have hrun : triggeredDb.runs.find? 1 = some (Db.newRun 1 ⟨1, 1, .full⟩) := rfl
  refine ⟨rfl, ?_, not_endsTerminal_of_rejected hrun rfl rfl hfit⟩
  rw [doAnalysis_rejected hrun rfl hfit, hrun]
  rfl

end VsphereCompliance.Analysis
