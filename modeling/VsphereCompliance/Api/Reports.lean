import VsphereCompliance.Api.LifeCycle
import VsphereCompliance.Library.Csv
import VsphereCompliance.Library.Json

/-!
# Reports and their exports

`exportReport` is `export_report`: the findings of a run as a JSON document or as
comma-separated values. A `Report` is what the JSON document says and `Report.records` what the
rows say; both are read back from the texts, whatever the names and the recommendations contain
(`export_reads_back`). After a run has ended its exports stay the same up to the order of the
findings (`export_of_ended_run`).
-/

namespace VsphereCompliance.Api

open Engine Store VCenter Accounts Settings

/-! ## The endpoint -/

/-- A `Response` with its header `Content-Disposition`. -/
structure Download where
  content : String
  mediaType : String
  contentDisposition : String
  deriving DecidableEq, Repr

/-- `None` becomes `null`. -/
def jsonOr (f : α → Json.Value) (x : Option α) : Json.Value := x.elim .null f

def jsonDrs (drs : DrsSummary) : Json.Value :=
  Json.object [("clusters", .int drs.clusters), ("rules_to_create", .int drs.rulesToCreate),
    ("rules_to_delete", .int drs.rulesToDelete)]

def jsonStorage (storage : StorageSummary) : Json.Value :=
  Json.object [("total_violations", .int storage.totalViolations),
    ("total_scattered_vms", .int storage.totalScatteredVms),
    ("total_proposals", .int storage.totalProposals),
    ("critical_violations", .int storage.criticalViolations)]

/-- A missing entry of a summary is `{}`. -/
def jsonSummary (summary : RunSummary) : Json.Value :=
  Json.object [("drs", summary.drs.elim (.obj []) jsonDrs),
    ("storage", summary.storage.elim (.obj []) jsonStorage)]

def jsonFinding (f : AnalysisFinding) : Json.Value :=
  Json.object [("type", Json.text f.findingType.text), ("severity", Json.text f.severity.text),
    ("vm", Json.text f.vmName), ("cluster", jsonOr Json.text f.clusterName),
    ("datastore", jsonOr Json.text f.datastoreName),
    ("recommendation", Json.text f.recommendation)]

def jsonData (startedAt : String) (run : AnalysisRun) (findings : List AnalysisFinding) :
    Json.Value :=
  Json.object [("report_id", .int run.id), ("started_at", Json.text startedAt),
    ("summary", jsonOr jsonSummary run.summary), ("findings", .arr (findings.map jsonFinding))]

def csvFieldnames : List String :=
  ["finding_type", "severity", "cluster_name", "vm_name", "datastore_name", "recommendation"]

/-- `DictWriter` takes the values in the order of the field names; `None` is an empty field. -/
def csvRow (f : AnalysisFinding) : List String :=
  [f.findingType.text, f.severity.text, f.clusterName.getD "", f.vmName,
    f.datastoreName.getD "", f.recommendation]

/-- The text of these records. -/
def csvText (records : List (List String)) : String :=
  String.ofList (Csv.write Csv.excel (records.map fun record => record.map String.toList))

def jsonDownload (startedAt : String) (run : AnalysisRun) (findings : List AnalysisFinding) :
    Download where
  content := String.ofList (Json.dumps (some 2) (jsonData startedAt run findings))
  mediaType := "application/json"
  contentDisposition := s!"attachment; filename=report_{run.id}.json"

def csvDownload (run : AnalysisRun) (findings : List AnalysisFinding) : Download where
  content := csvText (csvFieldnames :: findings.map csvRow)
  mediaType := "text/csv"
  contentDisposition := s!"attachment; filename=report_{run.id}.csv"

/-- `export_report`; `startedAt` is `str(run.started_at)`. -/
def exportReport (startedAt : String) (order : RowOrder AnalysisFinding) (db : Db)
    (reportId : Nat) (format : Option String) : Except HttpError Download :=
  match db.runs.find? reportId with
  | none => .error ⟨404, "Report not found"⟩
  | some run =>
    let findings := order.arrange (db.findingsOf reportId)
    if format.getD "json" = "json" then .ok (jsonDownload startedAt run findings)
    else if format.getD "json" = "csv" then .ok (csvDownload run findings)
    else .error ⟨400, "Supported formats: json, csv"⟩

/-! ## What an export says -/

structure ReportLine where
  type : String
  severity : String
  vm : String
  cluster : Option String
  datastore : Option String
  recommendation : String
  deriving DecidableEq, Repr

structure Report where
  reportId : Nat
  startedAt : String
  summary : Option RunSummary
  findings : List ReportLine
  deriving DecidableEq, Repr

def reportLine (f : NewFinding) : ReportLine where
  type := f.findingType.text
  severity := f.severity.text
  vm := f.vmName
  cluster := f.clusterName
  datastore := f.datastoreName
  recommendation := f.recommendation

def reportOf (startedAt : String) (run : AnalysisRun) (findings : List AnalysisFinding) :
    Report where
  reportId := run.id
  startedAt := startedAt
  summary := run.summary
  findings := findings.map fun f => reportLine f.toNewFinding

/-- The record of a finding: where the report has no name, the field is empty. -/
def ReportLine.record (line : ReportLine) : List String :=
  [line.type, line.severity, line.cluster.getD "", line.vm, line.datastore.getD "",
    line.recommendation]

/-! ## Reading an export -/

def asList (f : Json.Value → Option α) : Json.Value → Option (List α)
  | .arr items => items.mapM f
  | _ => none

/-- `null` is none. -/
def asOption (f : Json.Value → Option α) : Json.Value → Option (Option α)
  | .null => some none
  | value => (f value).map some

/-- `{}` is none. -/
def asEntry (f : Json.Value → Option α) : Json.Value → Option (Option α)
  | .obj [] => some none
  | value => (f value).map some

def readDrs (value : Json.Value) : Option DrsSummary := do
  return {
    clusters := ← Json.asNat (← Json.member "clusters" value)
    rulesToCreate := ← Json.asNat (← Json.member "rules_to_create" value)
    rulesToDelete := ← Json.asNat (← Json.member "rules_to_delete" value) }

def readStorage (value : Json.Value) : Option StorageSummary := do
  return {
    totalViolations := ← Json.asNat (← Json.member "total_violations" value)
    totalScatteredVms := ← Json.asNat (← Json.member "total_scattered_vms" value)
    totalProposals := ← Json.asNat (← Json.member "total_proposals" value)
    criticalViolations := ← Json.asNat (← Json.member "critical_violations" value) }

def readSummary (value : Json.Value) : Option RunSummary := do
  return {
    drs := ← asEntry readDrs (← Json.member "drs" value)
    storage := ← asEntry readStorage (← Json.member "storage" value) }

def readLine (value : Json.Value) : Option ReportLine := do
  return {
    type := ← Json.asText (← Json.member "type" value)
    severity := ← Json.asText (← Json.member "severity" value)
    vm := ← Json.asText (← Json.member "vm" value)
    cluster := ← asOption Json.asText (← Json.member "cluster" value)
    datastore := ← asOption Json.asText (← Json.member "datastore" value)
    recommendation := ← Json.asText (← Json.member "recommendation" value) }

/-- The report in a JSON text. -/
def readReport (text : String) : Option Report := do
  let value ← Json.loads text.toList
  return {
    reportId := ← Json.asNat (← Json.member "report_id" value)
    startedAt := ← Json.asText (← Json.member "started_at" value)
    summary := ← asOption readSummary (← Json.member "summary" value)
    findings := ← asList readLine (← Json.member "findings" value) }

/-- The records in a text of comma-separated values. -/
def readRecords (text : String) : List (List String) :=
  (Csv.read Csv.excel text.toList).map fun record => record.map String.ofList

/-! ## Round trips -/

theorem readRecords_csvText (records : List (List String)) :
    readRecords (csvText records) = records := by
  unfold readRecords csvText
  rw [String.toList_ofList, Csv.read_write, List.map_map]
  simp

theorem asOption_jsonOr {f : Json.Value → Option α} {g : α → Json.Value} (x : Option α)
    (hnull : ∀ a, g a ≠ .null) (h : ∀ a, f (g a) = some a) :
    asOption f (jsonOr g x) = some x := by
  cases x with
  | none => rfl
  | some a =>
    show asOption f (g a) = some (some a)
    unfold asOption
    split
    · rename_i hg
      exact absurd hg (hnull a)
    · rw [h]
      rfl

theorem asEntry_elim {f : Json.Value → Option α} {g : α → Json.Value} (x : Option α)
    (hempty : ∀ a, g a ≠ .obj []) (h : ∀ a, f (g a) = some a) :
    asEntry f (x.elim (.obj []) g) = some x := by
  cases x with
  | none => rfl
  | some a =>
    show asEntry f (g a) = some (some a)
    unfold asEntry
    split
    · rename_i hg
      exact absurd hg (hempty a)
    · rw [h]
      rfl

theorem readDrs_jsonDrs (drs : DrsSummary) : readDrs (jsonDrs drs) = some drs := by
  simp [readDrs, jsonDrs, Json.member_object, Json.asNat]

theorem readStorage_jsonStorage (storage : StorageSummary) :
    readStorage (jsonStorage storage) = some storage := by
  simp [readStorage, jsonStorage, Json.member_object, Json.asNat]

theorem readSummary_jsonSummary (summary : RunSummary) :
    readSummary (jsonSummary summary) = some summary := by
  have hdrs := asEntry_elim summary.drs (g := jsonDrs) (by simp [jsonDrs, Json.object])
    readDrs_jsonDrs
  have hstorage := asEntry_elim summary.storage (g := jsonStorage)
    (by simp [jsonStorage, Json.object]) readStorage_jsonStorage
  simp [readSummary, jsonSummary, Json.member_object, hdrs, hstorage]

theorem readLine_jsonFinding (f : AnalysisFinding) :
    readLine (jsonFinding f) = some (reportLine f.toNewFinding) := by
  have htext (x : Option String) : asOption Json.asText (jsonOr Json.text x) = some x :=
    asOption_jsonOr x (by simp [Json.text]) Json.asText_text
  simp [readLine, jsonFinding, Json.member_object, Json.asText_text, htext, reportLine]

theorem asList_jsonFinding (findings : List AnalysisFinding) :
    asList readLine (.arr (findings.map jsonFinding)) =
      some (findings.map fun f => reportLine f.toNewFinding) := by
  show (findings.map jsonFinding).mapM readLine = _
  induction findings with
  | nil => rfl
  | cons f findings ih => simp [readLine_jsonFinding, ih]

theorem readReport_dumps (startedAt : String) (run : AnalysisRun)
    (findings : List AnalysisFinding) :
    readReport (String.ofList (Json.dumps (some 2) (jsonData startedAt run findings))) =
      some (reportOf startedAt run findings) := by
  have hsummary := asOption_jsonOr run.summary (g := jsonSummary)
    (by simp [jsonSummary, Json.object]) readSummary_jsonSummary
  unfold readReport
  rw [String.toList_ofList, Json.loads_dumps]
  simp [jsonData, Json.member_object, Json.asNat, Json.asText_text, hsummary,
    asList_jsonFinding, reportOf]

/-! ## Every export -/

/-- A JSON document reads as the report; comma-separated values read as the field names and one
record for each finding of it. -/
inductive Download.Says (d : Download) (report : Report) (format : Option String) : Prop
  | json (hformat : format.getD "json" = "json") (h : readReport d.content = some report)
  | csv (hformat : format.getD "json" = "csv")
      (h : readRecords d.content = csvFieldnames :: report.findings.map ReportLine.record)

theorem says_jsonDownload {format : Option String} (hformat : format.getD "json" = "json")
    (startedAt : String) (run : AnalysisRun) (findings : List AnalysisFinding) :
    (jsonDownload startedAt run findings).Says (reportOf startedAt run findings) format :=
  .json hformat (readReport_dumps startedAt run findings)

theorem says_csvDownload {format : Option String} (hformat : format.getD "json" = "csv")
    (startedAt : String) (run : AnalysisRun) (findings : List AnalysisFinding) :
    (csvDownload run findings).Says (reportOf startedAt run findings) format := by
  refine .csv hformat ?_
  show readRecords (csvText _) = _
  rw [readRecords_csvText, reportOf, List.map_map]
  rfl

/-- The texts show nothing of a finding but its line. -/
theorem map_eq_of_lines {g : AnalysisFinding → α}
    (hg : ∀ f f', reportLine f.toNewFinding = reportLine f'.toNewFinding → g f = g f')
    {findings findings' : List AnalysisFinding}
    (h : findings'.map (fun f => reportLine f.toNewFinding) =
      findings.map fun f => reportLine f.toNewFinding) :
    findings'.map g = findings.map g := by
  induction findings generalizing findings' with
  | nil =>
    rw [List.map_nil, List.map_eq_nil_iff] at h
    rw [h]
  | cons f findings ih =>
    cases findings' with
    | nil => cases h
    | cons f' findings' =>
      obtain ⟨hhead, htail⟩ := List.cons.inj h
      rw [List.map_cons, List.map_cons, hg f' f hhead, ih htail]

theorem jsonFinding_eq {f f' : AnalysisFinding}
    (h : reportLine f.toNewFinding = reportLine f'.toNewFinding) :
    jsonFinding f = jsonFinding f' := by
  simp only [reportLine, ReportLine.mk.injEq] at h
  obtain ⟨htype, hseverity, hvm, hcluster, hdatastore, hrecommendation⟩ := h
  simp only [jsonFinding, htype, hseverity, hvm, hcluster, hdatastore, hrecommendation]

section Export

variable {startedAt : String} {order : RowOrder AnalysisFinding} {db : Db} {reportId : Nat}
  {format : Option String} {run : AnalysisRun} {d : Download}

theorem exportReport_json (hrun : db.runs.find? reportId = some run)
    (hformat : format.getD "json" = "json") :
    exportReport startedAt order db reportId format =
      .ok (jsonDownload startedAt run (order.arrange (db.findingsOf reportId))) := by
  unfold exportReport
  rw [hrun]
  exact if_pos hformat

theorem exportReport_csv (hrun : db.runs.find? reportId = some run)
    (hformat : format.getD "json" = "csv") :
    exportReport startedAt order db reportId format =
      .ok (csvDownload run (order.arrange (db.findingsOf reportId))) := by
  unfold exportReport
  rw [hrun]
  dsimp only
  rw [if_neg (by rw [hformat]; decide), if_pos hformat]

/-- A download has one of the two formats. -/
theorem exportReport_cases (h : exportReport startedAt order db reportId format = .ok d) :
    ∃ run, db.runs.find? reportId = some run ∧
      ((format.getD "json" = "json" ∧
          d = jsonDownload startedAt run (order.arrange (db.findingsOf reportId))) ∨
        (format.getD "json" = "csv" ∧
          d = csvDownload run (order.arrange (db.findingsOf reportId)))) := by
  cases hrun : db.runs.find? reportId with
  | none =>
    rw [exportReport, hrun] at h
    cases h
  | some run =>
    refine ⟨run, rfl, ?_⟩
    by_cases hjson : format.getD "json" = "json"
    · exact Or.inl ⟨hjson, Except.ok.inj (h.symm.trans (exportReport_json hrun hjson))⟩
    by_cases hcsv : format.getD "json" = "csv"
    · exact Or.inr ⟨hcsv, Except.ok.inj (h.symm.trans (exportReport_csv hrun hcsv))⟩
    · rw [exportReport, hrun] at h
      dsimp only at h
      rw [if_neg hjson, if_neg hcsv] at h
      cases h

theorem says_of_exportReport (h : exportReport startedAt order db reportId format = .ok d) :
    ∃ run, db.runs.find? reportId = some run ∧
      d.Says (reportOf startedAt run (order.arrange (db.findingsOf reportId))) format := by
  obtain ⟨run, hrun, ⟨hformat, rfl⟩ | ⟨hformat, rfl⟩⟩ := exportReport_cases h
  · exact ⟨run, hrun, says_jsonDownload hformat _ _ _⟩
  · exact ⟨run, hrun, says_csvDownload hformat _ _ _⟩

end Export

/-- **Every export reads back**, a JSON document as the report of its run and comma-separated
values as the records of its findings, and there is one for every run in both formats. -/
theorem export_reads_back (startedAt : String) (order : RowOrder AnalysisFinding) (db : Db)
    (reportId : Nat) (format : Option String) :
    ((∃ d, exportReport startedAt order db reportId format = .ok d) ↔
      (∃ run ∈ db.runs.rows, run.id = reportId) ∧
        (format = none ∨ format = some "json" ∨ format = some "csv")) ∧
    ∀ d, exportReport startedAt order db reportId format = .ok d →
      ∃ run ∈ db.runs.rows, run.id = reportId ∧
        d.Says (reportOf startedAt run (order.arrange (db.findingsOf reportId))) format := by
  have hformats : (format.getD "json" = "json" ∨ format.getD "json" = "csv") ↔
      (format = none ∨ format = some "json" ∨ format = some "csv") := by
    cases format with
    | none => simp
    | some f => simp
  refine ⟨⟨?_, ?_⟩, ?_⟩
  · rintro ⟨d, h⟩
    obtain ⟨run, hrun, hformat⟩ := exportReport_cases h
    exact ⟨⟨run, Table.find?_eq_some_iff.mp hrun⟩,
      hformats.mp (hformat.imp And.left And.left)⟩
  · rintro ⟨⟨run, hrun⟩, hformat⟩
    have hfind := Table.find?_eq_some_iff.mpr hrun
    rcases hformats.mpr hformat with hformat | hformat
    · exact ⟨_, exportReport_json hfind hformat⟩
    · exact ⟨_, exportReport_csv hfind hformat⟩
  · intro d h
    obtain ⟨run, hrun, hsays⟩ := says_of_exportReport h
    obtain ⟨hmem, hid⟩ := Table.find?_eq_some_iff.mp hrun
    exact ⟨run, hmem, hid, hsays⟩

/-! ## The exports of a run that has ended -/

variable {c : Cipher}

/-- Later versions of the findings have the same lines, in any order of the rows. -/
theorem lines_perm {db db' : Db} {runId : Nat} (h : Final db db' runId)
    (order order' : RowOrder AnalysisFinding) (startedAt : String) (run run' : AnalysisRun) :
    (reportOf startedAt run' (order'.arrange (db'.findingsOf runId))).findings.Perm
      (reportOf startedAt run (order.arrange (db.findingsOf runId))).findings := by
  obtain ⟨f, hfindings, hf⟩ := h
  have hlines : ((db.findingsOf runId).map f).map (fun g => reportLine g.toNewFinding) =
      (db.findingsOf runId).map fun g => reportLine g.toNewFinding := by
    rw [List.map_map]
    apply List.map_congr_left
    intro g hg
    rw [Function.comp_apply, (hf g hg).content]
  refine ((order'.perm _).map _).trans ?_
  rw [hfindings, hlines]
  exact ((order.perm _).map _).symm

/-- Two files in the format say the same up to the order of the findings, and they are one file if
they have them in one order. -/
inductive SameContent (format : Option String) (d d' : Download) : Prop
  | json {report report' : Report} (hformat : format.getD "json" = "json")
      (h : readReport d.content = some report) (h' : readReport d'.content = some report')
      (hrest : report' = { report with findings := report'.findings })
      (hperm : report'.findings.Perm report.findings)
      (hfile : report'.findings = report.findings → d' = d)
  | csv {records records' : List (List String)} (hformat : format.getD "json" = "csv")
      (h : readRecords d.content = csvFieldnames :: records)
      (h' : readRecords d'.content = csvFieldnames :: records')
      (hperm : records'.Perm records) (hfile : records' = records → d' = d)

theorem sameContent_jsonDownload {format : Option String} (hformat : format.getD "json" = "json")
    (startedAt : String) (run : AnalysisRun) {findings findings' : List AnalysisFinding}
    (hperm : (reportOf startedAt run findings').findings.Perm
      (reportOf startedAt run findings).findings) :
    SameContent format (jsonDownload startedAt run findings)
      (jsonDownload startedAt run findings') := by
  refine .json hformat (readReport_dumps startedAt run findings)
    (readReport_dumps startedAt run findings') rfl hperm ?_
  intro hlines
  have hfindings := map_eq_of_lines (fun _ _ => jsonFinding_eq) hlines
  simp only [jsonDownload, jsonData, hfindings]

theorem sameContent_csvDownload {format : Option String} (hformat : format.getD "json" = "csv")
    (startedAt : String) (run : AnalysisRun) {findings findings' : List AnalysisFinding}
    (hperm : (reportOf startedAt run findings').findings.Perm
      (reportOf startedAt run findings).findings) :
    SameContent format (csvDownload run findings) (csvDownload run findings') := by
  have hrecords := hperm.map ReportLine.record
  rw [reportOf, reportOf, List.map_map, List.map_map] at hrecords
  refine .csv hformat (readRecords_csvText _) (readRecords_csvText _) hrecords ?_
  intro hrows
  have hrows' : findings'.map csvRow = findings.map csvRow := hrows
  simp only [csvDownload, hrows']

/-- **The exports of a run that has ended say the same for ever**: the same summary and the same
findings, whatever happens meanwhile. If the database also returns the rows in the same order,
the file is the same. -/
theorem export_of_ended_run (p : Platform) {s : State c} (hstart : s.tasks = [])
    (before after : List Happening) {run : AnalysisRun}
    (hrun : run ∈ (before.foldl (happen p) s).db.runs.rows) (hended : run.status ≠ .running)
    (startedAt : String) (order order' : RowOrder AnalysisFinding) (format : Option String)
    {d : Download}
    (hexport : exportReport startedAt order (before.foldl (happen p) s).db run.id format = .ok d) :
    ∃ d', exportReport startedAt order' ((before ++ after).foldl (happen p) s).db run.id format =
        .ok d' ∧
      d'.mediaType = d.mediaType ∧ d'.contentDisposition = d.contentDisposition ∧
      SameContent format d d' := by
  have htasks := (evolves_run (tasksWait_of_nil hstart) p before).1
  have hlater := (evolves_run htasks p after).2.db
  rw [← List.foldl_append] at hlater
  obtain ⟨run', hrun', hversion⟩ := hlater.runs.exists_mem hrun
  have hfind := Table.find?_eq_some_iff.mpr ⟨hrun', hversion.id⟩
  have hperm := lines_perm (hlater.final run hrun hended) order order' startedAt run run'
  rw [hversion.eq_of_ended hended] at hfind hperm
  obtain ⟨_, hsome, hcases⟩ := exportReport_cases hexport
  obtain rfl := Option.some.inj ((Table.find?_eq_some_iff.mpr ⟨hrun, rfl⟩).symm.trans hsome)
  rcases hcases with ⟨hformat, rfl⟩ | ⟨hformat, rfl⟩
  · exact ⟨_, exportReport_json hfind hformat, rfl, rfl,
      sameContent_jsonDownload hformat startedAt run hperm⟩
  · exact ⟨_, exportReport_csv hfind hformat, rfl, rfl,
      sameContent_csvDownload hformat startedAt run hperm⟩

/-- The findings of the operator's run, before and after the approval. -/
theorem export_of_ended_run_analysed : ∃ d d' : Download,
    exportReport "2024-05-01" (.asInserted _) (requestAndRun.foldl (happen operatorPlatform)
        operatorState).db 1 (some "csv") = .ok d ∧
      exportReport "2024-05-01" (.asInserted _) ((requestAndRun ++ approval).foldl
        (happen operatorPlatform) operatorState).db 1 (some "csv") = .ok d' ∧
      d'.contentDisposition = d.contentDisposition ∧ SameContent (some "csv") d d' := by
  obtain ⟨run, hrun, hcompleted⟩ := analysed_run
  have hended : run.status ≠ .running := by
    rw [hcompleted]
    decide
  obtain ⟨hmem, hid⟩ := Table.find?_eq_some_iff.mp hrun
  obtain ⟨d, hexport⟩ : ∃ d, exportReport "2024-05-01" (.asInserted _)
      (requestAndRun.foldl (happen operatorPlatform) operatorState).db 1 (some "csv") = .ok d :=
    ⟨_, exportReport_csv hrun rfl⟩
  obtain ⟨d', hexport', _, hdisposition, hcontent⟩ := export_of_ended_run operatorPlatform rfl
    requestAndRun approval hmem hended "2024-05-01" (.asInserted _) (.asInserted _) (some "csv")
    (hid ▸ hexport)
  exact ⟨d, d', hexport, hid ▸ hexport', hdisposition, hcontent⟩

end VsphereCompliance.Api
