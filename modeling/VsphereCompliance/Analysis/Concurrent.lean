import VsphereCompliance.Analysis.Agreement
import VsphereCompliance.Library.Runs
import Mathlib.Logic.Function.Basic

/-!
# Several requests to apply the rules of one run

Each request reads the pending findings, goes through the loop and commits, and the steps of
different requests interleave. Between the read and the commit of a request nothing marks the
findings as in hand, so a second request that reads in between creates every rule again
(`overlapping_requests`). A request by itself is `applyDrs` (`run_alone`). If no request reads
while another is between its read and its commit, every finding causes at most one rule and
one history row (`serial_requests_once`).
-/

namespace VsphereCompliance.Analysis

open Engine Store VCenter Runs

/-! ## The steps -/

/-- Where a request is: before its read, in the loop with the findings still to do and its
session, or after its commit. -/
inductive Phase
  | idle
  | applying (todo : List AnalysisFinding) (s : ApplyState)
  | ended

/-- The committed store, the tasks started on the vCenter and the requests. -/
structure System where
  db : Db
  tasks : List (Nat × RuleTask)
  requests : Nat → Phase

inductive Label
  | read (i : Nat)
  | create (i : Nat)
  | commit (i : Nat)

/-- One step of one request. Under read committed, a query sees what is committed when it
runs, and the updates of a commit apply to the rows as they are then. A request that raises
or hangs takes no further step. -/
inductive Step (access : Access) (reqs : Nat → Request) : System → Label → System → Prop
  | read {σ : System} {i : Nat} (order : RowOrder AnalysisFinding) :
      σ.requests i = .idle → Reaches access σ.db (reqs i).runId →
      Step access reqs σ (.read i) { σ with
        requests := Function.update σ.requests i
          (.applying (pendingFindings order σ.db (reqs i).runId) .empty) }
  | create {σ : System} {i : Nat} {f : AnalysisFinding} {todo : List AnalysisFinding}
      {s s' : ApplyState} :
      σ.requests i = .applying (f :: todo) s →
      applyStep (reqs i) { s with tasks := σ.tasks } f = some s' →
      Step access reqs σ (.create i) { σ with
        tasks := s'.tasks
        requests := Function.update σ.requests i (.applying todo s') }
  | commit {σ : System} {i : Nat} {s : ApplyState} :
      σ.requests i = .applying [] s →
      Step access reqs σ (.commit i) { σ with
        db := commitApply σ.db s
        requests := Function.update σ.requests i .ended }

/-- All requests are still to come. -/
def System.start (db : Db) : System := ⟨db, [], fun _ => .idle⟩

/-- The request is between its read and its commit. -/
def InFlight (σ : System) (i : Nat) : Prop := ∃ todo s, σ.requests i = .applying todo s

/-- A read with no other request in flight; all other steps. -/
def ReadsAlone (σ : System) : Label → Prop
  | .read _ => ∀ j, ¬ InFlight σ j
  | .create _ => True
  | .commit _ => True

/-! ## What should hold -/

/-- The rules created on the vCenter on behalf of a finding. -/
def createdRules (tasks : List (Nat × RuleTask)) (id : Nat) : List (Nat × RuleTask) :=
  tasks.filter fun p => p.1 = id ∧ p.2.result.isSome

/-- Every finding of the run has caused at most one rule and one `created` row. -/
def AtMostOnce (runId : Nat) (σ : System) : Prop :=
  ∀ f ∈ σ.db.findings.rows, f.analysisRunId = runId → f.findingType = .drsRuleNeeded →
    (createdRules σ.tasks f.id).length ≤ 1 ∧ (σ.db.createdFor f.id).length ≤ 1

/-! ## Counting -/

def taskCount (tasks : List (Nat × RuleTask)) (id : Nat) : Nat := tasks.countP fun p => p.1 = id

def rowCount (rows : List DrsRuleHistory) (id : Nat) : Nat :=
  rows.countP fun row => row.finding = id ∧ row.action = "created"

@[simp] theorem taskCount_append (xs ys : List (Nat × RuleTask)) (id : Nat) :
    taskCount (xs ++ ys) id = taskCount xs id + taskCount ys id := List.countP_append

@[simp] theorem rowCount_append (xs ys : List DrsRuleHistory) (id : Nat) :
    rowCount (xs ++ ys) id = rowCount xs id + rowCount ys id := List.countP_append

theorem taskCount_singleton (id id' : Nat) (task : RuleTask) :
    taskCount [(id, task)] id' = if id = id' then 1 else 0 := by
  simp [taskCount, List.countP_singleton]

theorem rowCount_singleton {row : DrsRuleHistory} (h : row.action = "created") (id : Nat) :
    rowCount [row] id = if row.finding = id then 1 else 0 := by
  simp [rowCount, List.countP_singleton, h]

theorem length_createdRules_le (tasks : List (Nat × RuleTask)) (id : Nat) :
    (createdRules tasks id).length ≤ taskCount tasks id := by
  rw [createdRules, ← List.countP_eq_length_filter]
  apply List.countP_mono_left
  intro p _ hp
  simp only [decide_eq_true_eq] at hp ⊢
  exact hp.1

theorem length_createdFor (db : Db) (id : Nat) :
    (db.createdFor id).length = rowCount db.drsHistory id :=
  List.countP_eq_length_filter.symm

/-! ## The loop body -/

section Body

variable {req : Request} {s : ApplyState} {f : AnalysisFinding}

/-- A finding without a task leaves tasks and session alone. -/
theorem advance_of_none (h : taskFor req f = none) :
    (s.advance req [f]).tasks = s.tasks ∧ (s.advance req [f]).taken = s.taken ∧
      (s.advance req [f]).history = s.history := by
  have hrow : rowFor req f = none := by
    unfold rowFor
    split
    · rw [h]
      rfl
    · rfl
  simp [ApplyState.advance, h, hrow]

/-- A finding with a task adds the task, its mark and its row. -/
theorem advance_of_some {task : RuleTask} (hrule : ∃ rule, f.details = .rule rule)
    (h : taskFor req f = some task) :
    (s.advance req [f]).tasks = s.tasks ++ [(f.id, task)] ∧
      (s.advance req [f]).taken = s.taken ++ [f.id] ∧
      ∃ row : DrsRuleHistory, row.finding = f.id ∧ row.action = "created" ∧
        (s.advance req [f]).history = s.history ++ [row] := by
  have hsome : (rowFor req f).isSome := by
    rw [isSome_rowFor hrule, h]
    rfl
  obtain ⟨row, hrow⟩ := Option.isSome_iff_exists.mp hsome
  obtain ⟨hfinding, haction⟩ := finding_of_rowFor hrow
  refine ⟨?_, ?_, row, hfinding, haction, ?_⟩
  · simp [ApplyState.advance, h]
  · simp [ApplyState.advance, h]
  · simp [ApplyState.advance, hrow]

end Body

/-! ## The invariant -/

/-- The account of the one request in flight, with the findings `todo` before it and its
session: no finding of the run has two tasks or two rows, counting those that wait in the
session, and a pending finding without a mark in the session has none. -/
structure Accounted (runId : Nat) (db : Db) (tasks : List (Nat × RuleTask))
    (todo : List AnalysisFinding) (s : ApplyState) : Prop where
  nodup : (todo.map AnalysisFinding.id).Nodup
  rules : ∀ f ∈ todo, ∃ rule, f.details = .rule rule
  untouched : ∀ f ∈ todo, taskCount tasks f.id = 0 ∧ rowCount (db.drsHistory ++ s.history) f.id = 0
  once : ∀ f ∈ db.findings.rows, f.analysisRunId = runId →
    taskCount tasks f.id ≤ 1 ∧ rowCount (db.drsHistory ++ s.history) f.id ≤ 1
  pending : ∀ f ∈ db.findings.rows, Pending runId f → f.id ∈ todo.map AnalysisFinding.id ∨
    f.id ∈ s.taken ∨
      (taskCount tasks f.id = 0 ∧ rowCount (db.drsHistory ++ s.history) f.id = 0)

section Accounts

variable {runId : Nat} {db : Db} {tasks : List (Nat × RuleTask)} {todo : List AnalysisFinding}
  {s : ApplyState}

/-- Reading the pending findings, with no request in flight. -/
theorem Accounted.read (h : Accounted runId db tasks [] .empty)
    (order : RowOrder AnalysisFinding) :
    Accounted runId db tasks (pendingFindings order db runId) .empty where
  nodup := nodup_pendingFindings order db runId
  rules := fun _ hf => rule_of_mem_pendingFindings hf
  untouched := by
    intro f hf
    obtain ⟨hrow, hpend⟩ := mem_pendingFindings.mp hf
    rcases h.pending f hrow hpend with hmem | hmem | hzero
    · cases hmem
    · cases hmem
    · exact hzero
  once := h.once
  pending := by
    intro f hrow hpend
    exact Or.inl (List.mem_map_of_mem (mem_pendingFindings.mpr ⟨hrow, hpend⟩))

/-- The loop body for the next finding. -/
theorem Accounted.create {req : Request} {f : AnalysisFinding}
    (h : Accounted runId db tasks (f :: todo) s) :
    Accounted runId db (({ s with tasks := tasks } : ApplyState).advance req [f]).tasks todo
      (({ s with tasks := tasks } : ApplyState).advance req [f]) := by
  obtain ⟨hnotMem, hnodup⟩ := List.nodup_cons.mp h.nodup
  have hrules : ∀ g ∈ todo, ∃ rule, g.details = .rule rule := fun g hg =>
    h.rules g (List.mem_cons_of_mem f hg)
  have huntouched := h.untouched f List.mem_cons_self
  cases htask : taskFor req f with
  | none =>
    obtain ⟨htasks, htaken, hhistory⟩ :=
      advance_of_none (s := { s with tasks := tasks }) htask
    refine ⟨hnodup, hrules, ?_, ?_, ?_⟩
    · rw [htasks, hhistory]
      exact fun g hg => h.untouched g (List.mem_cons_of_mem f hg)
    · rw [htasks, hhistory]
      exact h.once
    · rw [htasks, htaken, hhistory]
      intro g hrow hpend
      rcases h.pending g hrow hpend with hmem | hmem | hzero
      · rw [List.map_cons] at hmem
        rcases List.mem_cons.mp hmem with hid | hmem
        · exact Or.inr (Or.inr (hid ▸ huntouched))
        · exact Or.inl hmem
      · exact Or.inr (Or.inl hmem)
      · exact Or.inr (Or.inr hzero)
  | some task =>
    obtain ⟨htasks, htaken, row, hfinding, haction, hhistory⟩ :=
      advance_of_some (s := { s with tasks := tasks }) (h.rules f List.mem_cons_self) htask
    have hcountTask : ∀ id, taskCount (tasks ++ [(f.id, task)]) id =
        taskCount tasks id + if f.id = id then 1 else 0 := fun id => by
      rw [taskCount_append, taskCount_singleton]
    have hcountRow : ∀ id, rowCount (db.drsHistory ++ (s.history ++ [row])) id =
        rowCount (db.drsHistory ++ s.history) id + if f.id = id then 1 else 0 := fun id => by
      rw [← List.append_assoc, rowCount_append _ [row], rowCount_singleton haction, hfinding]
    refine ⟨hnodup, hrules, ?_, ?_, ?_⟩
    · rw [htasks, hhistory]
      intro g hg
      have hne : f.id ≠ g.id := fun hid => hnotMem (hid ▸ List.mem_map_of_mem hg)
      rw [hcountTask, hcountRow, if_neg hne]
      exact h.untouched g (List.mem_cons_of_mem f hg)
    · rw [htasks, hhistory]
      intro g hrow hrun
      have hold := h.once g hrow hrun
      rw [hcountTask, hcountRow]
      by_cases hid : f.id = g.id
      · rw [if_pos hid, ← hid]
        omega
      · rw [if_neg hid]
        exact hold
    · rw [htasks, htaken, hhistory]
      intro g hrow hpend
      by_cases hid : f.id = g.id
      · exact Or.inr (Or.inl (List.mem_append_right _ (hid ▸ List.mem_singleton_self _)))
      · rw [hcountTask, hcountRow, if_neg hid]
        rcases h.pending g hrow hpend with hmem | hmem | hzero
        · rw [List.map_cons] at hmem
          rcases List.mem_cons.mp hmem with heq | hmem
          · exact absurd heq.symm hid
          · exact Or.inl hmem
        · exact Or.inr (Or.inl (List.mem_append_left _ hmem))
        · exact Or.inr (Or.inr hzero)

/-- The commit after the last finding. -/
theorem Accounted.commit (h : Accounted runId db tasks [] s) :
    Accounted runId (commitApply db s) tasks [] .empty := by
  have hrows : (commitApply db s).drsHistory ++ ApplyState.empty.history =
      db.drsHistory ++ s.history := List.append_nil _
  refine ⟨List.nodup_nil, fun _ hf => absurd hf List.not_mem_nil,
    fun _ hf => absurd hf List.not_mem_nil, ?_, ?_⟩
  · rw [hrows]
    intro g hg hrun
    obtain ⟨f, hf, ⟨_, rfl⟩ | ⟨_, rfl⟩⟩ := Db.exists_of_mem_takeAction hg
    · exact h.once f hf hrun
    · exact h.once g hf hrun
  · rw [hrows]
    intro g hg hpend
    obtain ⟨f, hf, ⟨_, rfl⟩ | ⟨htaken, rfl⟩⟩ := Db.exists_of_mem_takeAction hg
    · -- the commit has marked the finding
      cases hpend.2.2
    · rcases h.pending g hf hpend with hnil | hmem | hzero
      · cases hnil
      · exact absurd hmem htaken
      · exact Or.inr (Or.inr hzero)

end Accounts

/-! ## One request by itself -/

section Alone

variable {access : Access} {reqs : Nat → Request} {i : Nat}

/-- The steps of the loop, one for each finding. -/
theorem run_creates (access : Access) (σ : System) {todo : List AnalysisFinding}
    {s : ApplyState} (hi : σ.requests i = .applying todo s) (htasks : σ.tasks = s.tasks)
    (hrules : ∀ f ∈ todo, ∃ rule, f.details = .rule rule) :
    ∃ τ, Run (Guarded ReadsAlone (Step access reqs)) σ
        (List.replicate todo.length (Label.create i)) τ ∧
      τ.db = σ.db ∧ τ.tasks = (s.advance (reqs i) todo).tasks ∧
      τ.requests i = .applying [] (s.advance (reqs i) todo) := by
  induction todo generalizing σ s with
  | nil =>
    rw [ApplyState.advance_nil]
    exact ⟨σ, Run.nil σ, rfl, htasks, hi⟩
  | cons f todo ih =>
    have hbody : applyStep (reqs i) { s with tasks := σ.tasks } f =
        some (s.advance (reqs i) [f]) := by
      rw [htasks]
      exact applyStep_eq (reqs i) s (hrules f List.mem_cons_self)
    obtain ⟨τ, hrun, hdb, hτtasks, hτ⟩ :=
      ih { σ with
          tasks := (s.advance (reqs i) [f]).tasks
          requests := Function.update σ.requests i (.applying todo (s.advance (reqs i) [f])) }
        (Function.update_self ..) rfl fun g hg => hrules g (List.mem_cons_of_mem f hg)
    rw [ApplyState.advance_advance, List.singleton_append] at hτtasks hτ
    exact ⟨τ, Run.cons ⟨trivial, Step.create hi hbody⟩ hrun, hdb, hτtasks, hτ⟩

/-- **A request by itself** does what `apply_drs` does when its commit goes through. -/
theorem run_alone {db : Db} (reqs : Nat → Request) (i : Nat) (order : RowOrder AnalysisFinding)
    (h : Reaches access db (reqs i).runId) :
    ∃ τ, Run (Guarded ReadsAlone (Step access reqs)) (System.start db)
        (.read i :: (List.replicate (pendingFindings order db (reqs i).runId).length
          (Label.create i) ++ [.commit i])) τ ∧
      τ.db = (applyDrs access order db (reqs i) true).db ∧
      τ.tasks = (applyDrs access order db (reqs i) true).tasks := by
  have halone : ReadsAlone (System.start db) (.read i) := by
    rintro j ⟨todo, s, hj⟩
    cases hj
  have hread : Step access reqs (System.start db) (.read i) _ := Step.read order rfl h
  obtain ⟨τ, hrun, hdb, htasks, hτ⟩ := run_creates access { System.start db with
      requests := Function.update (System.start db).requests i
        (.applying (pendingFindings order db (reqs i).runId) .empty) }
    (Function.update_self ..) rfl fun f hf => rule_of_mem_pendingFindings hf
  rw [applyDrs_of_reaches order true h]
  refine ⟨_, Run.cons ⟨halone, hread⟩
    (hrun.append (Run.single ⟨trivial, Step.commit hτ⟩)), ?_, htasks⟩
  rw [hdb]
  rfl

end Alone

/-! ## Runs in which no read overlaps another request -/

/-- At most one request is in flight, and its account is in order. -/
inductive Orderly (runId : Nat) (σ : System) : Prop
  | quiet : (∀ i, ¬ InFlight σ i) → Accounted runId σ.db σ.tasks [] .empty → Orderly runId σ
  | busy (i : Nat) (todo : List AnalysisFinding) (s : ApplyState) :
      σ.requests i = .applying todo s → (∀ j, InFlight σ j → j = i) →
      Accounted runId σ.db σ.tasks todo s → Orderly runId σ

section Serial

variable {access : Access} {reqs : Nat → Request} {runId : Nat} {σ τ : System} {i : Nat}

/-- In flight means in flight before, except for the request that made the step. -/
theorem inFlight_update {phase : Phase} {db : Db} {tasks : List (Nat × RuleTask)} {j : Nat}
    (h : InFlight ⟨db, tasks, Function.update σ.requests i phase⟩ j) :
    j = i ∨ InFlight σ j := by
  obtain ⟨todo, s, hj⟩ := h
  dsimp only at hj
  by_cases hji : j = i
  · exact Or.inl hji
  · rw [Function.update_of_ne hji] at hj
    exact Or.inr ⟨todo, s, hj⟩

/-- The request in flight is the one of the account. -/
theorem Orderly.account {todo : List AnalysisFinding} {s : ApplyState} (h : Orderly runId σ)
    (hi : σ.requests i = .applying todo s) :
    (∀ j, InFlight σ j → j = i) ∧ Accounted runId σ.db σ.tasks todo s := by
  cases h with
  | quiet hquiet _ => exact absurd ⟨todo, s, hi⟩ (hquiet i)
  | busy k todo' s' hk hunique hacc =>
    obtain rfl : i = k := hunique i ⟨todo, s, hi⟩
    rw [hi] at hk
    cases hk
    exact ⟨hunique, hacc⟩

/-- **One step** keeps the account in order. -/
theorem Orderly.step (hreqs : ∀ i, (reqs i).runId = runId) (l : Label) (h : Orderly runId σ)
    (hstep : Guarded ReadsAlone (Step access reqs) σ l τ) : Orderly runId τ := by
  obtain ⟨halone, hstep⟩ := hstep
  cases hstep with
  | @read i order hidle hreach =>
    have hacc : Accounted runId σ.db σ.tasks [] .empty := by
      cases h with
      | quiet _ hacc => exact hacc
      | busy k todo s hk _ _ => exact absurd ⟨todo, s, hk⟩ (halone k)
    have hread := hacc.read order
    rw [← hreqs i] at hread
    refine Orderly.busy i _ .empty (Function.update_self ..) ?_ (hreqs i ▸ hread)
    intro j hj
    rcases inFlight_update hj with hji | hj
    · exact hji
    · exact absurd hj (halone j)
  | @create i f todo s s' hi hbody =>
    obtain ⟨hunique, hacc⟩ := h.account hi
    have heq := applyStep_eq (reqs i) { s with tasks := σ.tasks } (hacc.rules f List.mem_cons_self)
    rw [hbody] at heq
    cases heq
    refine Orderly.busy i todo _ (Function.update_self ..) ?_ hacc.create
    intro j hj
    rcases inFlight_update hj with hji | hj
    · exact hji
    · exact hunique j hj
  | @commit i s hi =>
    obtain ⟨hunique, hacc⟩ := h.account hi
    refine Orderly.quiet ?_ hacc.commit
    intro j hj
    have hji : j = i := (inFlight_update hj).elim id (hunique j)
    obtain ⟨todo, s', hj⟩ := hj
    rw [hji] at hj
    dsimp only at hj
    rw [Function.update_self] at hj
    cases hj

/-- A store in which nothing has been done for the findings of the run. -/
theorem orderly_start {db : Db}
    (hnone : ∀ f ∈ db.findings.rows, f.analysisRunId = runId → db.createdFor f.id = []) :
    Orderly runId (System.start db) := by
  have hzero : ∀ f ∈ db.findings.rows, f.analysisRunId = runId →
      rowCount (db.drsHistory ++ ApplyState.empty.history) f.id = 0 := by
    intro f hf hrun
    show rowCount (db.drsHistory ++ []) f.id = 0
    rw [List.append_nil, ← length_createdFor, hnone f hf hrun]
    rfl
  apply Orderly.quiet
  · rintro i ⟨todo, s, h⟩
    cases h
  · refine ⟨List.nodup_nil, fun _ hf => absurd hf List.not_mem_nil,
      fun _ hf => absurd hf List.not_mem_nil, ?_, ?_⟩
    · intro f hf hrun
      exact ⟨Nat.zero_le 1, le_of_eq_of_le (hzero f hf hrun) (Nat.zero_le 1)⟩
    · intro f hf hpend
      exact Or.inr (Or.inr ⟨rfl, hzero f hf hpend.1⟩)

/-- What an account in order means for the findings. -/
theorem Orderly.atMostOnce (h : Orderly runId σ) : AtMostOnce runId σ := by
  obtain ⟨todo, s, hacc⟩ : ∃ todo s, Accounted runId σ.db σ.tasks todo s := by
    cases h with
    | quiet _ hacc => exact ⟨_, _, hacc⟩
    | busy _ todo s _ _ hacc => exact ⟨todo, s, hacc⟩
  intro f hf hrun _
  obtain ⟨htasks, hrows⟩ := hacc.once f hf hrun
  rw [rowCount_append] at hrows
  refine ⟨le_trans (length_createdRules_le σ.tasks f.id) htasks, ?_⟩
  rw [length_createdFor]
  exact le_trans (Nat.le_add_right _ _) hrows

/-- **Every finding causes at most one rule and one row**, in every state that requests for
one run reach if none of them reads while another is in flight. -/
theorem serial_requests_once {db : Db} {ls : List Label}
    (hreqs : ∀ i, (reqs i).runId = runId)
    (hnone : ∀ f ∈ db.findings.rows, f.analysisRunId = runId → db.createdFor f.id = [])
    (h : Run (Guarded ReadsAlone (Step access reqs)) (System.start db) ls σ) :
    AtMostOnce runId σ := by
  have horderly : Orderly runId σ :=
    h.invariant (fun _ l _ hs hstep => hs.step hreqs l hstep) (orderly_start hnone)
  exact horderly.atMostOnce

end Serial

/-- Requests to apply the rule of the web servers; their tasks succeed. -/
def webRequests (i : Nat) : Request := ⟨webTree, 1, "admin", fun _ => .task (some (100 + i))⟩

theorem serial_requests_once_alone :
    ∃ ls τ, Run (Guarded ReadsAlone (Step (accessTo (getFullInventory webTree)) webRequests))
        (System.start completedDb) ls τ ∧ τ.tasks.length = 1 ∧ AtMostOnce 1 τ := by
  obtain ⟨τ, hrun, _, htasks⟩ :=
    run_alone webRequests 0 (RowOrder.asInserted _) reaches_completedDb
  refine ⟨_, τ, hrun, ?_, serial_requests_once (fun _ => rfl) (by decide) hrun⟩
  rw [htasks]
  decide

/-! ## Two overlapping requests -/

/-- Two requests that both read before the first commits create the rule twice. -/
theorem overlapping_requests :
    ∃ τ, Run (Step (accessTo (getFullInventory webTree)) webRequests) (System.start completedDb)
        [.read 0, .read 1, .create 0, .create 1, .commit 0, .commit 1] τ ∧
      ¬ AtMostOnce 1 τ := by
  have hids : (pendingFindings (RowOrder.asInserted _) completedDb 1).map AnalysisFinding.id =
      [1] := by
    decide
  have htasks : (pendingFindings (RowOrder.asInserted _) completedDb 1).map (fun f =>
      ((taskFor (webRequests 0) f).map RuleTask.result,
        (taskFor (webRequests 1) f).map RuleTask.result)) =
      [(some (some 100), some (some 101))] := by
    decide
  obtain ⟨f, hpending, hid⟩ := List.map_eq_singleton_iff.mp hids
  have hf : f ∈ pendingFindings (RowOrder.asInserted _) completedDb 1 :=
    hpending ▸ List.mem_singleton_self f
  obtain ⟨hrow, hpend⟩ := mem_pendingFindings.mp hf
  have hbody := fun i s => applyStep_eq (webRequests i) s (rule_of_mem_pendingFindings hf)
  have happlying : ∀ s, Phase.applying (pendingFindings (RowOrder.asInserted _) completedDb 1) s =
      .applying [f] s := fun s => congrArg (Phase.applying · s) hpending
  refine ⟨_, Run.cons (Step.read (RowOrder.asInserted _) rfl reaches_completedDb) <|
    Run.cons (Step.read (RowOrder.asInserted _) rfl reaches_completedDb) <|
    Run.cons (Step.create (happlying _) (hbody 0 _)) <|
    Run.cons (Step.create (happlying _) (hbody 1 _)) <|
    Run.cons (Step.commit rfl) <| Run.cons (Step.commit rfl) <| Run.nil _, ?_⟩
  rw [hpending, List.map_singleton, List.singleton_inj, Prod.mk.injEq] at htasks
  obtain ⟨task, htask, hresult⟩ := Option.map_eq_some_iff.mp htasks.1
  obtain ⟨task', htask', hresult'⟩ := Option.map_eq_some_iff.mp htasks.2
  -- the row of the finding after the two commits
  obtain ⟨g, hg, hgid, hgfields⟩ := Db.exists_takeAction _ hrow
  obtain ⟨g', hg', hgid', hgfields'⟩ := Db.exists_takeAction _ hg
  intro honce
  have hgid'' : g'.id = f.id := hgid'.trans hgid
  have hfields : g'.toNewFinding = f.toNewFinding := hgfields'.trans hgfields
  have htwo := (honce g' hg' ?_ ?_).1
  · rw [hgid''] at htwo
    simp [ApplyState.advance, createdRules, htask, htask', hresult, hresult'] at htwo
  · rw [hfields]
    exact hpend.1
  · rw [hfields]
    exact hpend.2.1

end VsphereCompliance.Analysis
