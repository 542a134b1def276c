import VsphereCompliance.Analysis.Agreement
import VsphereCompliance.Analysis.ApproveStorage
import VsphereCompliance.Library.Runs

/-!
# What the flag of a finding means

Two endpoints set `action_taken`: `apply_drs` with a history row for a rule, and
`approve_storage_move` with a history row for a move, which looks neither at the type of the
finding nor at its flag. The flag says how many rows there are (`action_taken_meaning`) as long
as only open storage findings are approved, or rule findings whose rule was created.
-/

namespace VsphereCompliance.Analysis

open Engine Store VCenter Runs

/-! ## Operations on the store -/

/-- The operations, each with what it meets outside the store. -/
inductive Operation
  | trigger (req : RunRequest)
  | analysis (cfg : Config) (access : Access) (runId vcenterId : Nat) (type : AnalysisType)
  | apply (access : Access) (order : RowOrder AnalysisFinding) (req : Request) (commits : Bool)
  | approve (runId findingId user : Nat) (commits : Bool)

/-- The store after an operation. -/
def Operation.handle (db : Db) : Operation → Db
  | .trigger req => (triggerAnalysis db req).elim db Prod.fst
  | .analysis cfg access runId vcenterId type => (doAnalysis cfg access db runId vcenterId type).1
  | .apply access order req commits => (applyDrs access order db req commits).db
  | .approve runId findingId user commits =>
    (approveStorageMove db runId findingId user commits).1

/-- The operations as a step relation. -/
def Handles (db : Db) (op : Operation) (db' : Db) : Prop := op.handle db = db'

/-- No runs, no findings and no history. -/
structure EmptyStore (db : Db) : Prop where
  runs : db.runs.rows = []
  findings : db.findings.rows = []
  drsHistory : db.drsHistory = []
  storageHistory : db.storageHistory = []

/-! ## What the flag should mean -/

def IsStorage (type : FindingType) : Prop := type = .storageShared ∨ type = .storageScattered

instance (type : FindingType) : Decidable (IsStorage type) := inferInstanceAs (Decidable (_ ∨ _))

theorem ne_of_isStorage {type : FindingType} (h : IsStorage type) :
    type ≠ .drsRuleNeeded ∧ type ≠ .drsSkip := by
  revert h
  cases type <;> decide

/-- The flag of every finding says whether there is exactly one row for it. -/
structure FlagMeaning (db : Db) : Prop where
  rules : ∀ f ∈ db.findings.rows, f.findingType = .drsRuleNeeded →
    (f.actionTaken = true ↔ (db.createdFor f.id).length = 1)
  moves : ∀ f ∈ db.findings.rows, IsStorage f.findingType →
    (f.actionTaken = true ↔ (db.movesFor f.id).length = 1)
  idle : ∀ f ∈ db.findings.rows, f.isActionable = false → f.actionTaken ≠ true

/-- A storage finding that is not marked, or a rule finding that is. -/
def Approvable (f : AnalysisFinding) : Prop :=
  (IsStorage f.findingType ∧ f.actionTaken = false) ∨
    (f.findingType = .drsRuleNeeded ∧ f.actionTaken = true)

instance (f : AnalysisFinding) : Decidable (Approvable f) := inferInstanceAs (Decidable (_ ∨ _))

/-- An approval that is committed finds no finding, or one that can be approved. -/
def ApprovesOpen (db : Db) : Operation → Prop
  | .trigger _ => True
  | .analysis _ _ _ _ _ => True
  | .apply _ _ _ _ => True
  | .approve runId findingId _ commits =>
    commits = true → ∀ f ∈ db.findings.rows, f.id = findingId → f.analysisRunId = runId →
      Approvable f

/-! ## The invariant -/

/-- The rows for a finding are as many as its flag says. -/
structure Tally (db : Db) (f : AnalysisFinding) : Prop where
  rule : f.findingType = .drsRuleNeeded → (db.createdFor f.id).length = f.actionTaken.toNat
  move : IsStorage f.findingType → (db.movesFor f.id).length = f.actionTaken.toNat
  idle : f.isActionable = false → f.actionTaken = false

/-- All findings are tallied, and no row is about a finding still to come. -/
structure Tallied (db : Db) : Prop where
  tally : ∀ f ∈ db.findings.rows, Tally db f
  ruleRows : ∀ row ∈ db.drsHistory, row.finding < db.findings.next
  moveRows : ∀ row ∈ db.storageHistory, row.finding < db.findings.next

theorem tallied_of_emptyStore {db : Db} (h : EmptyStore db) : Tallied db := by
  refine ⟨?_, ?_, ?_⟩
  · rw [h.findings]
    exact fun _ hf => absurd hf List.not_mem_nil
  · rw [h.drsHistory]
    exact fun _ hrow => absurd hrow List.not_mem_nil
  · rw [h.storageHistory]
    exact fun _ hrow => absurd hrow List.not_mem_nil

theorem Tallied.flagMeaning {db : Db} (h : Tallied db) : FlagMeaning db := by
  have hone : ∀ b : Bool, b = true ↔ b.toNat = 1 := by decide
  refine ⟨?_, ?_, ?_⟩
  · intro f hf htype
    rw [(h.tally f hf).rule htype]
    exact hone f.actionTaken
  · intro f hf htype
    rw [(h.tally f hf).move htype]
    exact hone f.actionTaken
  · intro f hf hidle
    rw [(h.tally f hf).idle hidle]
    exact Bool.false_ne_true

/-! ## What each operation keeps -/

section Operations

variable {db : Db}

theorem Tallied.insertRun (h : Tallied db) (req : RunRequest) : Tallied (db.insertRun req) :=
  ⟨fun f hf => ⟨(h.tally f hf).rule, (h.tally f hf).move, (h.tally f hf).idle⟩, h.ruleRows,
    h.moveRows⟩

theorem Tallied.finishRun (h : Tallied db) (run : Nat) (o : RunOutcome) :
    Tallied (db.finishRun run o) :=
  ⟨fun f hf => ⟨(h.tally f hf).rule, (h.tally f hf).move, (h.tally f hf).idle⟩, h.ruleRows,
    h.moveRows⟩

/-- There are no rows for a finding still to come. -/
theorem Tallied.rows_of_next_le (h : Tallied db) {id : Nat} (hid : db.findings.next ≤ id) :
    db.createdFor id = [] ∧ db.movesFor id = [] := by
  constructor
  · refine List.filter_eq_nil_iff.mpr fun row hrow hfinding => ?_
    have hlt := h.ruleRows row hrow
    rw [decide_eq_true_eq] at hfinding
    omega
  · refine List.filter_eq_nil_iff.mpr fun row hrow hfinding => ?_
    have hlt := h.moveRows row hrow
    rw [decide_eq_true_eq] at hfinding
    omega

theorem Tallied.insertFindings (h : Tallied db) {fs : List NewFinding}
    (hfs : ∀ f ∈ fs, f.Coherent ∧ ∃ r ∈ db.runs.rows, r.id = f.analysisRunId) :
    Tallied (db.insertFindings fs hfs) := by
  have hnext : db.findings.next ≤ (db.insertFindings fs hfs).findings.next := Nat.le_add_right _ _
  refine ⟨?_, fun row hrow => lt_of_lt_of_le (h.ruleRows row hrow) hnext,
    fun row hrow => lt_of_lt_of_le (h.moveRows row hrow) hnext⟩
  intro f hf
  rcases List.mem_append.mp hf with hf | hf
  · exact ⟨(h.tally f hf).rule, (h.tally f hf).move, (h.tally f hf).idle⟩
  · -- a new finding is not marked and has no rows
    obtain ⟨i, x, _, _, rfl⟩ := Table.mem_newRows hf
    obtain ⟨hrules, hmoves⟩ := h.rows_of_next_le (Nat.le_add_right db.findings.next i)
    exact ⟨fun _ => congrArg List.length hrules, fun _ => congrArg List.length hmoves,
      fun _ => rfl⟩

theorem Tallied.doAnalysis (h : Tallied db) (cfg : Config) (access : Access)
    (runId vcenterId : Nat) (type : AnalysisType) :
    Tallied (doAnalysis cfg access db runId vcenterId type).1 := by
  unfold Analysis.doAnalysis
  split
  · exact h
  · split
    · exact h.finishRun _ _
    · dsimp only
      split
      · exact (h.insertFindings _).finishRun _ _
      · exact h

/-- The commit of `apply_drs` marks a finding and logs one row for it, or does neither. -/
theorem Tallied.commitApply (h : Tallied db) (order : RowOrder AnalysisFinding)
    (req : Request) : Tallied (commitApply db (session order db req)) := by
  refine ⟨?_, ?_, h.moveRows⟩
  · intro g hg
    obtain ⟨f, hf, ⟨hid, rfl⟩ | ⟨hid, rfl⟩⟩ := Db.exists_of_mem_takeAction hg
    · obtain ⟨hpend, htask⟩ := (mem_taken_session hf).mp hid
      have hmem : f ∈ pendingFindings order db req.runId := mem_pendingFindings.mpr ⟨hf, hpend⟩
      have hrow : (rowFor req f).isSome := by
        rw [isSome_rowFor (rule_of_mem_pendingFindings hmem)]
        exact htask
      obtain ⟨row, hrow⟩ := Option.isSome_iff_exists.mp hrow
      refine ⟨?_, ?_, ?_⟩
      · intro htype
        show ((Analysis.commitApply db (session order db req)).createdFor f.id).length = 1
        rw [createdFor_commitApply hmem, hrow, List.length_append, (h.tally f hf).rule htype,
          hpend.2.2]
        rfl
      · intro hstorage
        exact absurd hpend.2.1 (ne_of_isStorage hstorage).1
      · intro hidle
        have hskip := (db.coherent f hf).drsSkip_of_idle hidle
        exact absurd (hskip.symm.trans hpend.2.1) (by decide)
    · refine ⟨?_, (h.tally g hf).move, (h.tally g hf).idle⟩
      intro htype
      rw [← (h.tally g hf).rule htype]
      congr 1
      by_cases hmem : g ∈ pendingFindings order db req.runId
      · have hnone : rowFor req g = none := by
          rw [← Option.not_isSome_iff_eq_none, isSome_rowFor (rule_of_mem_pendingFindings hmem)]
          intro htask
          exact hid ((mem_taken_session hf).mpr ⟨(mem_pendingFindings.mp hmem).2, htask⟩)
        rw [createdFor_commitApply hmem, hnone]
        exact List.append_nil _
      · apply createdFor_commitApply_of_notMem
        intro f hfmem heq
        rw [db.findings.eq_of_key (mem_pendingFindings.mp hfmem).1 hf heq] at hfmem
        exact hmem hfmem
  · intro row hrow
    rcases List.mem_append.mp hrow with hrow | hrow
    · exact h.ruleRows row hrow
    · obtain ⟨f, hf, hfrow⟩ := List.mem_filterMap.mp hrow
      rw [(finding_of_rowFor hfrow).1]
      exact db.findings.key_lt f (mem_pendingFindings.mp hf).1

/-- Approving a finding that can be approved. -/
theorem Tallied.commitMove (h : Tallied db) {f : AnalysisFinding} (hf : f ∈ db.findings.rows)
    (happ : Approvable f) (runId user : Nat) : Tallied (commitMove db runId user f) := by
  refine ⟨?_, h.ruleRows, ?_⟩
  · intro g hg
    obtain ⟨f', hf', ⟨hid, rfl⟩ | ⟨hid, rfl⟩⟩ := Db.exists_of_mem_takeAction hg
    · obtain rfl : f' = f := db.findings.eq_of_key hf' hf (List.mem_singleton.mp hid)
      refine ⟨?_, ?_, ?_⟩
      · intro htype
        rw [createdFor_commitMove]
        show (db.createdFor f'.id).length = 1
        rw [(h.tally f' hf).rule htype]
        rcases happ with ⟨hstorage, _⟩ | ⟨_, htaken⟩
        · exact absurd htype (ne_of_isStorage hstorage).1
        · rw [htaken]
          rfl
      · intro hstorage
        rw [movesFor_commitMove]
        show (db.movesFor f'.id ++ if f'.id = f'.id then _ else _).length = 1
        rw [if_pos rfl, List.length_append, (h.tally f' hf).move hstorage]
        rcases happ with ⟨_, htaken⟩ | ⟨htype, _⟩
        · rw [htaken]
          rfl
        · exact absurd htype (ne_of_isStorage hstorage).1
      · intro hidle
        have hskip := (db.coherent f' hf).drsSkip_of_idle hidle
        rcases happ with ⟨hstorage, _⟩ | ⟨htype, _⟩
        · exact absurd hskip (ne_of_isStorage hstorage).2
        · exact absurd (hskip.symm.trans htype) (by decide)
    · refine ⟨(h.tally g hf').rule, ?_, (h.tally g hf').idle⟩
      intro hstorage
      have hne : f.id ≠ g.id := fun heq => hid (List.mem_singleton.mpr heq.symm)
      rw [movesFor_commitMove, if_neg hne, List.append_nil]
      exact (h.tally g hf').move hstorage
  · intro row hrow
    rcases List.mem_append.mp hrow with hrow | hrow
    · exact h.moveRows row hrow
    · obtain rfl := List.mem_singleton.mp hrow
      exact db.findings.key_lt f hf

/-- **One operation** keeps the tally if an approval is for a finding that can be approved. -/
theorem Tallied.handle (h : Tallied db) (op : Operation) (hok : ApprovesOpen db op) :
    Tallied (op.handle db) := by
  cases op with
  | trigger req =>
    show Tallied ((triggerAnalysis db req).elim db Prod.fst)
    unfold triggerAnalysis
    split
    · split
      · exact h.insertRun req
      · exact h
    · exact h
  | analysis cfg access runId vcenterId type => exact h.doAnalysis cfg access runId vcenterId type
  | apply access order req commits =>
    show Tallied (applyDrs access order db req commits).db
    by_cases hreach : Reaches access db req.runId
    · rw [applyDrs_of_reaches order commits hreach]
      cases commits with
      | false => exact h
      | true => exact h.commitApply order req
    · rw [(applyDrs_of_not_reaches order commits hreach).1]
      exact h
  | approve runId findingId user commits =>
    show Tallied (approveStorageMove db runId findingId user commits).1
    rcases approveStorageMove_cases db runId findingId user commits with
      heq | ⟨f, hf, hid, hrun, hcommits, heq⟩
    · rw [heq]
      exact h
    · rw [heq]
      exact h.commitMove hf (hok hcommits f hf hid hrun) runId user

end Operations

/-! ## Runs from an empty store -/

/-- **The flag says how many rows there are**, in every state that operations reach from an
empty store if every committed approval is for a finding that can be approved. -/
theorem action_taken_meaning {db db' : Db} {ops : List Operation} (h : EmptyStore db)
    (hrun : Run (Guarded ApprovesOpen Handles) db ops db') : FlagMeaning db' := by
  have htallied : Tallied db' := by
    refine hrun.invariant ?_ (tallied_of_emptyStore h)
    rintro s op t hs ⟨hok, rfl⟩
    exact hs.handle op hok
  exact htallied.flagMeaning

/-- An analysis of two web servers that share a datastore, and the approval of a move. -/
def sharedOps : List Operation :=
  [.trigger ⟨1, 1, .full⟩, .analysis webConfig (accessTo sharedInventory) 1 1 .full,
    .approve 1 2 1 true]

theorem emptyStore_seededDb : EmptyStore seededDb := ⟨rfl, rfl, rfl, rfl⟩

theorem action_taken_meaning_shared :
    ∃ db, Run (Guarded ApprovesOpen Handles) seededDb sharedOps db ∧
      (db.movesFor 2).length = 1 ∧ FlagMeaning db := by
  have hok : ApprovesOpen (doAnalysis webConfig (accessTo sharedInventory) triggeredDb 1 1 .full).1
      (.approve 1 2 1 true) := by
    intro _
    decide
  have hrun : Run (Guarded ApprovesOpen Handles) seededDb sharedOps _ :=
    Run.cons ⟨trivial, rfl⟩ (Run.cons ⟨trivial, rfl⟩ (Run.cons ⟨hok, rfl⟩ (Run.nil _)))
  exact ⟨_, hrun, by decide, action_taken_meaning emptyStore_seededDb hrun⟩

/-- The approval of a finding about a rule: it is marked, and no rule was created for it. -/
theorem approved_rule_is_marked :
    ∃ db, Run Handles seededDb [.trigger ⟨1, 1, .full⟩,
        .analysis webConfig (accessTo (getFullInventory webTree)) 1 1 .full,
        .approve 1 1 1 true] db ∧ ¬ FlagMeaning db := by
  refine ⟨_, Run.cons rfl (Run.cons rfl (Run.cons rfl (Run.nil _))), ?_⟩
  intro hmeaning
  have hmarked : ∃ f ∈ (approveStorageMove completedDb 1 1 1 true).1.findings.rows,
      f.findingType = .drsRuleNeeded ∧ f.actionTaken = true ∧
        (approveStorageMove completedDb 1 1 1 true).1.createdFor f.id = [] := by
    decide
  obtain ⟨f, hf, htype, htaken, hnone⟩ := hmarked
  have hone := (hmeaning.rules f hf htype).mp htaken
  have hzero := congrArg List.length hnone
  exact absurd (hone.symm.trans hzero) (by decide)

end VsphereCompliance.Analysis
