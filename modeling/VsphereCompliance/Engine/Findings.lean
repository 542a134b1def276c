import VsphereCompliance.Engine.Drs
import VsphereCompliance.Engine.Storage

/-!
# The findings of a run

`generateFindings` is `AnalysisEngine.generate_findings`: one finding for each skipped group,
planned rule, violation and scattered VM, in this order within their loops. An analysis that
was not asked for has the result `{}`, here `none`.
-/

namespace VsphereCompliance.Engine

inductive FindingType
  | drsSkip
  | drsRuleNeeded
  | storageShared
  | storageScattered
  deriving DecidableEq, Repr

def FindingType.text : FindingType → String
  | .drsSkip => "drs_skip"
  | .drsRuleNeeded => "drs_rule_needed"
  | .storageShared => "storage_shared"
  | .storageScattered => "storage_scattered"

def Severity.text : Severity → String
  | .info => "info"
  | .warning => "warning"
  | .critical => "critical"

/-- The `details` document: the engine's record that the finding is about. -/
inductive Details
  | skip (s : SkippedGroup)
  | rule (r : RuleToCreate)
  | violation (v : Violation)
  | scattered (s : ScatteredVm)
  deriving DecidableEq

/-- One dictionary of the list that `generate_findings` returns. -/
structure NewFinding where
  analysisRunId : Nat
  findingType : FindingType
  severity : Severity
  clusterName : Option String
  vmName : String
  datastoreName : Option String
  details : Details
  recommendation : String
  isActionable : Bool
  deriving DecidableEq

def skipFinding (runId : Nat) (cluster : ClusterResult) (skip : SkippedGroup) : NewFinding where
  analysisRunId := runId
  findingType := .drsSkip
  severity := .info
  clusterName := some cluster.clusterName
  vmName := ", ".intercalate skip.vms
  datastoreName := none
  details := .skip skip
  recommendation := skip.reason
  isActionable := false

def ruleFinding (runId : Nat) (cluster : ClusterResult) (rule : RuleToCreate) : NewFinding where
  analysisRunId := runId
  findingType := .drsRuleNeeded
  severity := .warning
  clusterName := some cluster.clusterName
  vmName := ", ".intercalate rule.vms
  datastoreName := none
  details := .rule rule
  recommendation := s!"Create anti-affinity rule '{rule.ruleName}' for {rule.vmCount} VMs"
  isActionable := true

def violationFinding (runId : Nat) (v : Violation) : NewFinding where
  analysisRunId := runId
  findingType := .storageShared
  severity := v.severity
  clusterName := none
  vmName := s!"{v.vmA} + {v.vmB}"
  datastoreName := some (", ".intercalate (v.sharedDatastores ++ v.sharedDatastoreClusters))
  details := .violation v
  recommendation := s!"Separate VMs in group '{keyText v.group}' across different storage"
  isActionable := true

def scatteredFinding (runId : Nat) (vm : ScatteredVm) : NewFinding where
  analysisRunId := runId
  findingType := .storageScattered
  severity := .warning
  clusterName := some vm.cluster
  vmName := vm.vmName
  datastoreName := some (", ".intercalate vm.datastores)
  details := .scattered vm
  recommendation := vm.recommendation.text
  isActionable := true

/-- The findings of one cluster result. -/
def clusterFindings (runId : Nat) (cluster : ClusterResult) : List NewFinding :=
  cluster.skippedGroups.map (skipFinding runId cluster) ++
    cluster.rulesToCreate.map (ruleFinding runId cluster)

def drsFindings (runId : Nat) (drs : DrsResults) : List NewFinding :=
  drs.clusters.flatMap (clusterFindings runId)

def storageFindings (runId : Nat) (storage : StorageResults) : List NewFinding :=
  storage.violations.map (violationFinding runId) ++
    storage.scatteredVms.map (scatteredFinding runId)

/-- `AnalysisEngine.generate_findings`. -/
def generateFindings (drs : Option DrsResults) (storage : Option StorageResults)
    (runId : Nat) : List NewFinding :=
  (drs.elim [] (drsFindings runId)) ++ (storage.elim [] (storageFindings runId))

/-! ## What every generated finding satisfies -/

/-- A generated finding is one of four kinds. -/
theorem kind_of_mem_generateFindings {drs : Option DrsResults} {storage : Option StorageResults}
    {runId : Nat} {f : NewFinding} (hf : f ∈ generateFindings drs storage runId) :
    (∃ cluster skip, f = skipFinding runId cluster skip) ∨
      (∃ cluster rule, f = ruleFinding runId cluster rule) ∨
      (∃ v, f = violationFinding runId v) ∨ (∃ vm, f = scatteredFinding runId vm) := by
  rcases List.mem_append.mp hf with hf | hf
  · cases drs with
    | none => cases hf
    | some drs =>
      obtain ⟨cluster, _, hf⟩ := List.mem_flatMap.mp hf
      rcases List.mem_append.mp hf with hf | hf
      · obtain ⟨skip, _, rfl⟩ := List.mem_map.mp hf
        exact Or.inl ⟨cluster, skip, rfl⟩
      · obtain ⟨rule, _, rfl⟩ := List.mem_map.mp hf
        exact Or.inr (Or.inl ⟨cluster, rule, rfl⟩)
  · cases storage with
    | none => cases hf
    | some storage =>
      rcases List.mem_append.mp hf with hf | hf
      · obtain ⟨v, _, rfl⟩ := List.mem_map.mp hf
        exact Or.inr (Or.inr (Or.inl ⟨v, rfl⟩))
      · obtain ⟨vm, _, rfl⟩ := List.mem_map.mp hf
        exact Or.inr (Or.inr (Or.inr ⟨vm, rfl⟩))

theorem analysisRunId_of_mem_generateFindings {drs : Option DrsResults}
    {storage : Option StorageResults} {runId : Nat} {f : NewFinding}
    (hf : f ∈ generateFindings drs storage runId) : f.analysisRunId = runId := by
  obtain ⟨_, _, rfl⟩ | ⟨_, _, rfl⟩ | ⟨_, rfl⟩ | ⟨_, rfl⟩ := kind_of_mem_generateFindings hf
  · rfl
  · rfl
  · rfl
  · rfl

/-- The type of a finding, its `details` and the actionable flag go together. -/
def NewFinding.Coherent (f : NewFinding) : Prop :=
  match f.details with
  | .skip _ => f.findingType = .drsSkip ∧ f.isActionable = false
  | .rule _ => f.findingType = .drsRuleNeeded ∧ f.isActionable = true
  | .violation _ => f.findingType = .storageShared ∧ f.isActionable = true
  | .scattered _ => f.findingType = .storageScattered ∧ f.isActionable = true

/-- Only the skipped groups are not actionable. -/
theorem NewFinding.Coherent.drsSkip_of_idle {f : NewFinding} (h : f.Coherent)
    (hidle : f.isActionable = false) : f.findingType = .drsSkip := by
  have htrue : f.isActionable ≠ true := by
    rw [hidle]
    exact Bool.false_ne_true
  unfold NewFinding.Coherent at h
  cases hd : f.details with
  | skip s =>
    rw [hd] at h
    exact h.1
  | rule r =>
    rw [hd] at h
    exact absurd h.2 htrue
  | violation v =>
    rw [hd] at h
    exact absurd h.2 htrue
  | scattered s =>
    rw [hd] at h
    exact absurd h.2 htrue

theorem coherent_of_mem_generateFindings {drs : Option DrsResults}
    {storage : Option StorageResults} {runId : Nat} {f : NewFinding}
    (hf : f ∈ generateFindings drs storage runId) : f.Coherent := by
  obtain ⟨_, _, rfl⟩ | ⟨_, _, rfl⟩ | ⟨_, rfl⟩ | ⟨_, rfl⟩ := kind_of_mem_generateFindings hf
  · exact ⟨rfl, rfl⟩
  · exact ⟨rfl, rfl⟩
  · exact ⟨rfl, rfl⟩
  · exact ⟨rfl, rfl⟩

/-! ## The findings about rules -/

theorem filter_clusterFindings (runId : Nat) (cluster : ClusterResult) :
    (clusterFindings runId cluster).filter (fun f => f.findingType = .drsRuleNeeded) =
      cluster.rulesToCreate.map (ruleFinding runId cluster) := by
  have hskips : (cluster.skippedGroups.map (skipFinding runId cluster)).filter
      (fun f => f.findingType = .drsRuleNeeded) = [] := by
    rw [List.filter_eq_nil_iff]
    intro f hf
    obtain ⟨skip, _, rfl⟩ := List.mem_map.mp hf
    exact Bool.false_ne_true
  have hrules : (cluster.rulesToCreate.map (ruleFinding runId cluster)).filter
      (fun f => f.findingType = .drsRuleNeeded) =
        cluster.rulesToCreate.map (ruleFinding runId cluster) := by
    rw [List.filter_eq_self]
    intro f hf
    obtain ⟨rule, _, rfl⟩ := List.mem_map.mp hf
    rfl
  rw [clusterFindings, List.filter_append, hskips, hrules, List.nil_append]

/-- **The findings that need a rule** are one for each planned rule. -/
theorem filter_generateFindings (drs : Option DrsResults) (storage : Option StorageResults)
    (runId : Nat) :
    (generateFindings drs storage runId).filter (fun f => f.findingType = .drsRuleNeeded) =
      drs.elim [] fun drs => drs.clusters.flatMap fun cluster =>
        cluster.rulesToCreate.map (ruleFinding runId cluster) := by
  have hstorage : (storage.elim [] (storageFindings runId)).filter
      (fun f => f.findingType = .drsRuleNeeded) = [] := by
    cases storage with
    | none => rfl
    | some storage =>
      rw [List.filter_eq_nil_iff]
      intro f hf
      rcases List.mem_append.mp hf with hf | hf
      · obtain ⟨v, _, rfl⟩ := List.mem_map.mp hf
        exact Bool.false_ne_true
      · obtain ⟨vm, _, rfl⟩ := List.mem_map.mp hf
        exact Bool.false_ne_true
  rw [generateFindings, List.filter_append, hstorage, List.append_nil]
  cases drs with
  | none => rfl
  | some drs =>
    show (drsFindings runId drs).filter _ = _
    rw [drsFindings, List.filter_flatMap]
    simp only [filter_clusterFindings]
    rfl

end VsphereCompliance.Engine
