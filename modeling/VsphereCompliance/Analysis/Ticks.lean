import VsphereCompliance.Analysis.Isolation
import VsphereCompliance.Library.Runs
import Mathlib.Algebra.BigOperators.Ring.Finset
import Mathlib.Data.Fintype.BigOperators

/-!
# Schedulers in several processes

Every process that calls `start_scheduler` has a scheduler of its own, with the job in memory:
at a tick each of them calls `run_scheduled_analysis`. The calls share the store and nothing
else; their queries and commits interleave in any order, and calls of different ticks may
overlap. A call reads the active connections once and then inserts a run for each of them
(`ledger_advance`), whatever the other calls do. So a tick adds as many runs for an active
connection as there are schedulers (`runs_per_tick`), and two with two processes
(`two_processes_two_runs`).
-/

namespace VsphereCompliance.Analysis

open Engine Store Runs

/-! ## One call, step by step -/

/-- The part of the loop body behind the commit of the new run. -/
def endScheduledRun (cfg : Config) (access : Access) (db : Db) (runId vcenterId : Nat) :
    Db × Ended :=
  match fetchInventory access (db.connection vcenterId) with
  | .error e => (db.finishRun runId (.failed e), .returned)
  | .ok inventory =>
    let patterns := patternList cfg db
    let drs := analyzeDrsCompliance cfg.search inventory patterns
    let storage := analyzeStorageCompliance cfg.search cfg.setOrder inventory patterns
    let findings := generateFindings (some drs) (some storage) runId
    if h : ∀ f ∈ findings, Accepts db f then
      ((db.insertFindings findings fun f hf =>
        ⟨coherent_of_mem_generateFindings hf, (h f hf).2⟩).finishRun runId
          (.completed (scheduledSummary storage)), .returned)
    else (db, .raised)

theorem scheduledStep_eq_endScheduledRun (cfg : Config) (access : Access) (db : Db)
    (vcenterId : Nat) : scheduledStep cfg access db vcenterId =
      endScheduledRun cfg access (db.insertScheduledRun vcenterId) db.runs.next vcenterId := rfl

/-- Where a call is: before its query, at the head of the loop with the connections to do,
between the two commits of a connection, or at its end. -/
inductive CallPhase
  | due
  | looping (todo : List Nat)
  | analysing (runId vcenterId : Nat) (todo : List Nat)
  | ended (how : Ended)
  deriving DecidableEq

/-- The store and the calls. `author` is the call that inserted a run; the table has no such
column. -/
structure Ticking (κ : Type*) where
  db : Db
  author : Nat → Option κ
  calls : κ → CallPhase

section Calls

variable {κ : Type*} [DecidableEq κ] (cfg : Config) (access : κ → Access)
  (orders : κ → RowOrder VCenterConnection)

/-- The next step of the call `k`, up to its next query or commit. -/
def Ticking.advance (σ : Ticking κ) (k : κ) : Ticking κ :=
  match σ.calls k with
  | .due =>
    { σ with calls := Function.update σ.calls k (.looping (activeConnections (orders k) σ.db)) }
  | .looping [] => { σ with calls := Function.update σ.calls k (.ended .returned) }
  | .looping (vcenterId :: todo) =>
    { db := σ.db.insertScheduledRun vcenterId
      author := Function.update σ.author σ.db.runs.next (some k)
      calls := Function.update σ.calls k (.analysing σ.db.runs.next vcenterId todo) }
  | .analysing runId vcenterId todo =>
    match endScheduledRun cfg (access k) σ.db runId vcenterId with
    | (db, .returned) => { σ with db, calls := Function.update σ.calls k (.looping todo) }
    | (db, .raised) => { σ with db, calls := Function.update σ.calls k (.ended .raised) }
  | .ended _ => σ

/-- All calls are due. -/
def Ticking.start (db : Db) : Ticking κ := ⟨db, fun _ => none, fun _ => .due⟩

/-- The state after the calls have taken the steps of a schedule. -/
def Ticking.after (db : Db) (schedule : List κ) : Ticking κ :=
  schedule.foldl (Ticking.advance cfg access orders) (Ticking.start db)

/-- The full runs that a call has inserted for a connection. -/
def Ticking.runsOf (σ : Ticking κ) (k : κ) (vcenterId : Nat) : Nat :=
  σ.db.runs.rows.countP fun r =>
    σ.author r.id = some k ∧ r.vcenterId = some vcenterId ∧ r.analysisType = .full

/-! ## One call by itself -/

variable {cfg access orders}

theorem Ticking.advance_inserting {k : κ} {σ : Ticking κ} {vcenterId : Nat} {todo : List Nat}
    (hphase : σ.calls k = .looping (vcenterId :: todo)) : σ.advance cfg access orders k =
      ⟨σ.db.insertScheduledRun vcenterId, Function.update σ.author σ.db.runs.next (some k),
        Function.update σ.calls k (.analysing σ.db.runs.next vcenterId todo)⟩ := by
  unfold advance
  rw [hphase]

theorem Ticking.advance_returned {k : κ} {σ : Ticking κ} {runId vcenterId : Nat} {todo : List Nat}
    {db : Db} (hphase : σ.calls k = .analysing runId vcenterId todo)
    (hout : endScheduledRun cfg (access k) σ.db runId vcenterId = (db, .returned)) :
    σ.advance cfg access orders k =
      ⟨db, σ.author, Function.update σ.calls k (.looping todo)⟩ := by
  unfold advance
  rw [hphase]
  dsimp only
  rw [hout]

theorem Ticking.advance_raised {k : κ} {σ : Ticking κ} {runId vcenterId : Nat} {todo : List Nat}
    {db : Db} (hphase : σ.calls k = .analysing runId vcenterId todo)
    (hout : endScheduledRun cfg (access k) σ.db runId vcenterId = (db, .raised)) :
    σ.advance cfg access orders k =
      ⟨db, σ.author, Function.update σ.calls k (.ended .raised)⟩ := by
  unfold advance
  rw [hphase]
  dsimp only
  rw [hout]

/-- A call in its loop does what `scheduledLoop` does. -/
theorem Ticking.runs_looping (k : κ) (σ : Ticking κ) (todo : List Nat)
    (hphase : σ.calls k = .looping todo) :
    ∃ τ, Repeats (advance cfg access orders) k σ τ ∧
      τ.db = (scheduledLoop cfg (access k) σ.db todo).1 ∧
      τ.calls k = .ended (scheduledLoop cfg (access k) σ.db todo).2 := by
  induction todo generalizing σ with
  | nil =>
    refine ⟨σ.advance cfg access orders k, ⟨1, rfl⟩, ?_⟩
    unfold advance
    rw [hphase]
    exact ⟨rfl, Function.update_self _ _ _⟩
  | cons vcenterId todo ih =>
    rw [scheduledLoop, scheduledStep_eq_endScheduledRun]
    have hanalysing := Function.update_self k
      (CallPhase.analysing σ.db.runs.next vcenterId todo) σ.calls
    cases hout : endScheduledRun cfg (access k) (σ.db.insertScheduledRun vcenterId)
      σ.db.runs.next vcenterId with
    | mk db how =>
      cases how with
      | returned =>
        have hnext := ih ⟨db, Function.update σ.author σ.db.runs.next (some k),
          Function.update (Function.update σ.calls k (.analysing σ.db.runs.next vcenterId todo)) k
            (.looping todo)⟩ (Function.update_self _ _ _)
        obtain ⟨τ, hruns, hdb, hcalls⟩ := hnext
        exact ⟨τ, (hruns.of_step (advance_returned hanalysing hout)).of_step
          (advance_inserting hphase), hdb, hcalls⟩
      | raised =>
        have hended := Repeats.refl (advance cfg access orders) k
        exact ⟨_, ((hended _).of_step (advance_raised hanalysing hout)).of_step
          (advance_inserting hphase), rfl, Function.update_self _ _ _⟩

/-- **A call by itself** does what `runScheduledAnalysis` does. -/
theorem Ticking.run_alone (k : κ) (db : Db) :
    ∃ τ, Repeats (advance cfg access orders) k (start db) τ ∧
      τ.db = (runScheduledAnalysis cfg (orders k) (access k) db).1 ∧
      τ.calls k = .ended (runScheduledAnalysis cfg (orders k) (access k) db).2 := by
  have hphase : ((start db).advance cfg access orders k).calls k =
      .looping (activeConnections (orders k) db) := Function.update_self _ _ _
  obtain ⟨τ, hruns, hdb, hcalls⟩ := runs_looping k _ _ hphase
  exact ⟨τ, hruns.of_step rfl, hdb, hcalls⟩

end Calls

/-! ## What a step does to the runs -/

/-- The columns of a run that no update changes. -/
def runKey (r : AnalysisRun) : Nat × Option Nat × AnalysisType :=
  (r.id, r.vcenterId, r.analysisType)

theorem map_runKey_finishRun (db : Db) (runId : Nat) (o : RunOutcome) :
    (db.finishRun runId o).runs.rows.map runKey = db.runs.rows.map runKey := by
  show (db.runs.rows.map _).map runKey = _
  rw [List.map_map]
  apply List.map_congr_left
  intro r _
  rw [Function.comp_apply]
  split
  · cases o <;> rfl
  · rfl

/-- The second commit of a connection inserts no run and leaves the connections alone. -/
theorem endScheduledRun_frame (cfg : Config) (access : Access) (db : Db) (runId vcenterId : Nat) :
    (endScheduledRun cfg access db runId vcenterId).1.runs.rows.map runKey =
        db.runs.rows.map runKey ∧
      (endScheduledRun cfg access db runId vcenterId).1.runs.next = db.runs.next ∧
      (endScheduledRun cfg access db runId vcenterId).1.connections = db.connections := by
  unfold endScheduledRun
  split
  · exact ⟨map_runKey_finishRun db runId _, rfl, rfl⟩
  · dsimp only
    split
    · exact ⟨map_runKey_finishRun _ runId _, rfl, rfl⟩
    · exact ⟨rfl, rfl, rfl⟩

section Ledger

variable {κ : Type*} [DecidableEq κ]

/-- The count of a call's runs looks at these columns only. -/
theorem Ticking.runsOf_congr {σ τ : Ticking κ} (hauthor : τ.author = σ.author)
    (hruns : τ.db.runs.rows.map runKey = σ.db.runs.rows.map runKey) (k : κ) (vcenterId : Nat) :
    τ.runsOf k vcenterId = σ.runsOf k vcenterId := by
  have hkey : ∀ σ : Ticking κ, σ.runsOf k vcenterId = (σ.db.runs.rows.map runKey).countP fun r =>
      σ.author r.1 = some k ∧ r.2.1 = some vcenterId ∧ r.2.2 = .full := by
    intro σ
    rw [List.countP_map]
    rfl
  rw [hkey, hkey, hauthor, hruns]

/-- The connections that a call in this phase has still to insert a run for. -/
def Left (ids : List Nat) (rest : List Nat) : CallPhase → Prop
  | .due => rest = ids
  | .looping todo => rest = todo
  | .analysing _ _ todo => rest = todo
  | .ended .returned => rest = []
  | .ended .raised => True

/-- The books of all calls: the runs of a call are one for each connection that it has come
to, and a number above the sequence has no author. -/
structure Ledger (db : Db) (orders : κ → RowOrder VCenterConnection) (σ : Ticking κ) : Prop where
  connections : σ.db.connections = db.connections
  fresh : ∀ id, σ.db.runs.next ≤ id → σ.author id = none
  entries : ∀ k, ∃ done rest, activeConnections (orders k) db = done ++ rest ∧
    Left (activeConnections (orders k) db) rest (σ.calls k) ∧
    ∀ vcenterId, σ.runsOf k vcenterId = done.count vcenterId

variable {cfg : Config} {access : κ → Access} {orders : κ → RowOrder VCenterConnection} {db : Db}
  {σ : Ticking κ}

theorem ledger_start (db : Db) (orders : κ → RowOrder VCenterConnection) :
    Ledger db orders (Ticking.start db) where
  connections := rfl
  fresh := fun _ _ => rfl
  entries := by
    intro k
    refine ⟨[], activeConnections (orders k) db, rfl, rfl, ?_⟩
    intro vcenterId
    show List.countP _ _ = 0
    rw [List.countP_eq_zero]
    intro r _
    simp [Ticking.start]

/-- A step that inserts no run and moves one call within the same books. -/
theorem Ledger.move (h : Ledger db orders σ) {k : κ} {db' : Db} {phase : CallPhase}
    (hruns : db'.runs.rows.map runKey = σ.db.runs.rows.map runKey)
    (hnext : db'.runs.next = σ.db.runs.next) (hconnections : db'.connections = σ.db.connections)
    (hphase : ∀ rest, Left (activeConnections (orders k) db) rest (σ.calls k) →
      Left (activeConnections (orders k) db) rest phase) :
    Ledger db orders ⟨db', σ.author, Function.update σ.calls k phase⟩ where
  connections := hconnections.trans h.connections
  fresh := fun id hid => h.fresh id (hnext ▸ hid)
  entries := by
    intro j
    obtain ⟨done, rest, hids, hleft, hcount⟩ := h.entries j
    refine ⟨done, rest, hids, ?_, ?_⟩
    · show Left _ rest (Function.update σ.calls k phase j)
      by_cases hj : j = k
      · subst hj
        rw [Function.update_self]
        exact hphase rest hleft
      · rw [Function.update_of_ne hj]
        exact hleft
    · intro vcenterId
      rw [← hcount vcenterId]
      exact Ticking.runsOf_congr (σ := σ)
        (τ := ⟨db', σ.author, Function.update σ.calls k phase⟩) rfl hruns j vcenterId

theorem Ticking.runsOf_insert (σ : Ticking κ) (k j : κ) (vcenterId id : Nat)
    (calls : κ → CallPhase) :
    (⟨σ.db.insertScheduledRun vcenterId, Function.update σ.author σ.db.runs.next (some k),
        calls⟩ : Ticking κ).runsOf j id =
      σ.runsOf j id + if k = j ∧ vcenterId = id then 1 else 0 := by
  show List.countP _ (σ.db.runs.rows ++ [Db.newScheduledRun σ.db.runs.next vcenterId]) = _
  rw [List.countP_append, List.countP_singleton]
  congr 1
  · apply List.countP_congr
    intro r hr
    have hlt : r.id < σ.db.runs.next := σ.db.runs.key_lt r hr
    have hauthor : Function.update σ.author σ.db.runs.next (some k) r.id = σ.author r.id :=
      Function.update_of_ne (ne_of_lt hlt) _ _
    simp only [hauthor]
  · simp [Db.newScheduledRun]

/-- The step that inserts a run. -/
theorem Ledger.insert (h : Ledger db orders σ) {k : κ} {vcenterId : Nat} {todo : List Nat}
    (hk : σ.calls k = .looping (vcenterId :: todo)) :
    Ledger db orders ⟨σ.db.insertScheduledRun vcenterId,
      Function.update σ.author σ.db.runs.next (some k),
      Function.update σ.calls k (.analysing σ.db.runs.next vcenterId todo)⟩ where
  connections := h.connections
  fresh := by
    intro id hid
    have hid' : σ.db.runs.next + 1 ≤ id := hid
    show Function.update σ.author σ.db.runs.next (some k) id = none
    rw [Function.update_of_ne (by omega)]
    exact h.fresh id (by omega)
  entries := by
    intro j
    obtain ⟨done, rest, hids, hleft, hcount⟩ := h.entries j
    by_cases hj : j = k
    · subst hj
      rw [hk] at hleft
      obtain rfl : rest = vcenterId :: todo := hleft
      refine ⟨done ++ [vcenterId], todo, by rw [hids]; simp, ?_, ?_⟩
      · show Left _ todo (Function.update σ.calls j _ j)
        rw [Function.update_self]
        rfl
      · intro id
        rw [Ticking.runsOf_insert, hcount, List.count_append, List.count_singleton]
        simp
    · refine ⟨done, rest, hids, ?_, ?_⟩
      · show Left _ rest (Function.update σ.calls k _ j)
        rw [Function.update_of_ne hj]
        exact hleft
      · intro id
        rw [Ticking.runsOf_insert, hcount, if_neg fun hjk => hj hjk.1.symm, Nat.add_zero]

/-- **Every step of a call keeps the books of all calls.** -/
theorem ledger_advance (h : Ledger db orders σ) (k : κ) :
    Ledger db orders (σ.advance cfg access orders k) := by
  unfold Ticking.advance
  cases hk : σ.calls k with
  | due =>
    refine h.move rfl rfl rfl ?_
    intro rest hrest
    rw [hk] at hrest
    have hids : activeConnections (orders k) σ.db = activeConnections (orders k) db := by
      unfold activeConnections
      rw [h.connections]
    show rest = activeConnections (orders k) σ.db
    rw [hids]
    exact hrest
  | looping todo =>
    cases todo with
    | nil =>
      refine h.move rfl rfl rfl ?_
      intro rest hrest
      rw [hk] at hrest
      exact hrest
    | cons vcenterId todo => exact h.insert hk
  | analysing runId vcenterId todo =>
    obtain ⟨hruns, hnext, hconnections⟩ :=
      endScheduledRun_frame cfg (access k) σ.db runId vcenterId
    dsimp only
    cases hout : endScheduledRun cfg (access k) σ.db runId vcenterId with
    | mk db' ended =>
      rw [hout] at hruns hnext hconnections
      cases ended with
      | returned =>
        refine h.move hruns hnext hconnections ?_
        intro rest hrest
        rw [hk] at hrest
        exact hrest
      | raised => exact h.move hruns hnext hconnections fun _ _ => trivial
  | ended how => exact h

theorem ledger_after (cfg : Config) (access : κ → Access)
    (orders : κ → RowOrder VCenterConnection) (db : Db) (schedule : List κ) :
    Ledger db orders (Ticking.after cfg access orders db schedule) := by
  unfold Ticking.after
  induction schedule using List.reverseRecOn with
  | nil => exact ledger_start db orders
  | append_singleton schedule k ih =>
    rw [List.foldl_append]
    exact ledger_advance ih k

end Ledger

/-! ## What a tick adds -/

section Ticks

variable {ι : Type*} [DecidableEq ι]

/-- A call is made by a process at a tick. These are the full runs that the calls of a tick
have inserted for a connection. -/
def Ticking.tickRuns (σ : Ticking (ι × Nat)) (tick vcenterId : Nat) : List AnalysisRun :=
  σ.db.runs.rows.filter fun r =>
    (σ.author r.id).map Prod.snd = some tick ∧ r.vcenterId = some vcenterId ∧
      r.analysisType = .full

/-- The rows of a tick, process by process. -/
theorem countP_eq_sum_countP {α : Type*} (l : List α) (author : α → Option (ι × Nat))
    (p : α → Bool) (tick : Nat) (fired : Finset ι)
    (h : ∀ a ∈ l, p a = true → ∀ i, author a = some (i, tick) → i ∈ fired) :
    l.countP (fun a => (author a).map Prod.snd = some tick ∧ p a = true) =
      ∑ i ∈ fired, l.countP fun a => author a = some (i, tick) ∧ p a = true := by
  induction l with
  | nil => simp
  | cons a l ih =>
    have hhead : (if (author a).map Prod.snd = some tick ∧ p a = true then 1 else 0) =
        ∑ i ∈ fired, if author a = some (i, tick) ∧ p a = true then 1 else 0 := by
      have hone := h a List.mem_cons_self
      cases hp : p a with
      | false => simp
      | true =>
        cases ha : author a with
        | none => simp
        | some k =>
          obtain ⟨i, t⟩ := k
          by_cases ht : t = tick
          · subst ht
            have hi : i ∈ fired := hone hp i ha
            simp [hi]
          · simp [ht]
    have htail := ih fun b hb => h b (List.mem_cons_of_mem a hb)
    simp only [List.countP_cons, Finset.sum_add_distrib, htail, ← hhead, decide_eq_true_eq]

theorem Ticking.length_tickRuns {σ : Ticking (ι × Nat)} {tick vcenterId : Nat} {fired : Finset ι}
    (hidle : ∀ i, i ∉ fired → σ.runsOf (i, tick) vcenterId = 0) :
    (σ.tickRuns tick vcenterId).length = ∑ i ∈ fired, σ.runsOf (i, tick) vcenterId := by
  have hrows := countP_eq_sum_countP σ.db.runs.rows (fun r => σ.author r.id)
    (fun r => r.vcenterId = some vcenterId ∧ r.analysisType = .full) tick fired
  simp only [decide_eq_true_eq] at hrows
  unfold Ticking.tickRuns
  rw [← List.countP_eq_length_filter]
  apply hrows
  intro r hr hfull i hauthor
  by_contra hi
  exact List.countP_eq_zero.mp (hidle i hi) r hr (decide_eq_true ⟨hauthor, hfull⟩)

variable {orders : ι × Nat → RowOrder VCenterConnection} {db : Db} {σ : Ticking (ι × Nat)}

/-- The connections for which a scheduled analysis makes a run. -/
def IsActive (db : Db) (vcenterId : Nat) : Prop :=
  ∃ conn ∈ db.connections.rows, conn.isActive = true ∧ conn.id = vcenterId

instance (db : Db) (vcenterId : Nat) : Decidable (IsActive db vcenterId) :=
  inferInstanceAs (Decidable (∃ conn ∈ db.connections.rows,
    conn.isActive = true ∧ conn.id = vcenterId))

theorem Ledger.runsOf_returned (h : Ledger db orders σ) {k : ι × Nat}
    (hk : σ.calls k = .ended .returned) (vcenterId : Nat) :
    σ.runsOf k vcenterId = if IsActive db vcenterId then 1 else 0 := by
  obtain ⟨done, rest, hids, hleft, hcount⟩ := h.entries k
  rw [hk] at hleft
  obtain rfl : rest = [] := hleft
  rw [List.append_nil] at hids
  rw [hcount, ← hids, (nodup_activeConnections (orders k) db).count]
  exact if_congr mem_activeConnections rfl rfl

theorem Ledger.runsOf_due (h : Ledger db orders σ) {k : ι × Nat} (hk : σ.calls k = .due)
    (vcenterId : Nat) : σ.runsOf k vcenterId = 0 := by
  obtain ⟨done, rest, hids, hleft, hcount⟩ := h.entries k
  rw [hk] at hleft
  obtain rfl : rest = activeConnections (orders k) db := hleft
  obtain rfl : done = [] := List.self_eq_append_left.mp hids
  rw [hcount]
  rfl

/-- **A tick adds one run for each scheduler that fires.** Once the calls of a tick have returned,
in any interleaving with each other and with the calls of other ticks, there are as many full
runs of an active connection as there are processes whose scheduler has fired, and none of
another connection. -/
theorem runs_per_tick (cfg : Config) (access : ι × Nat → Access)
    (orders : ι × Nat → RowOrder VCenterConnection) (db : Db) (schedule : List (ι × Nat))
    (tick : Nat) (fired : Finset ι)
    (hfired : ∀ i ∈ fired,
      (Ticking.after cfg access orders db schedule).calls (i, tick) = .ended .returned)
    (hidle : ∀ i, i ∉ fired →
      (Ticking.after cfg access orders db schedule).calls (i, tick) = .due) (vcenterId : Nat) :
    (∀ i ∈ fired, (Ticking.after cfg access orders db schedule).runsOf (i, tick) vcenterId =
        if IsActive db vcenterId then 1 else 0) ∧
      ((Ticking.after cfg access orders db schedule).tickRuns tick vcenterId).length =
        if IsActive db vcenterId then fired.card else 0 := by
  have hledger := ledger_after cfg access orders db schedule
  have hone : ∀ i ∈ fired, (Ticking.after cfg access orders db schedule).runsOf (i, tick)
      vcenterId = if IsActive db vcenterId then 1 else 0 :=
    fun i hi => hledger.runsOf_returned (hfired i hi) vcenterId
  refine ⟨hone, ?_⟩
  rw [Ticking.length_tickRuns fun i hi => hledger.runsOf_due (hidle i hi) vcenterId,
    Finset.sum_const_nat hone]
  split
  · exact Nat.mul_one _
  · exact Nat.mul_zero _

/-- No vCenter answers. -/
def offline : Access := { accessTo ⟨[], [], []⟩ with connect := fun _ _ => .error "unreachable" }

/-- Two processes at tick 0, one step each in turn. -/
def inTurn : List (Bool × Nat) :=
  [(false, 0), (true, 0), (false, 0), (true, 0), (false, 0), (true, 0), (false, 0), (true, 0)]

theorem calls_inTurn : ∀ i, (Ticking.after webConfig (fun _ : Bool × Nat => offline)
    (fun _ => RowOrder.asInserted _) seededDb inTurn).calls (i, 0) = .ended .returned := by
  decide

theorem runs_per_tick_inTurn :
    ((Ticking.after webConfig (fun _ : Bool × Nat => offline) (fun _ => RowOrder.asInserted _)
      seededDb inTurn).tickRuns 0 1).length = 2 :=
  (runs_per_tick webConfig (fun _ : Bool × Nat => offline) (fun _ => RowOrder.asInserted _)
    seededDb inTurn 0 Finset.univ (fun i _ => calls_inTurn i)
    (fun i hi => absurd (Finset.mem_univ i) hi) 1).2

/-- Two processes make two runs of one connection. -/
theorem two_processes_two_runs :
    ¬ ∀ (ι : Type) [Fintype ι] [DecidableEq ι] (cfg : Config) (access : ι × Nat → Access)
      (orders : ι × Nat → RowOrder VCenterConnection) (db : Db) (schedule : List (ι × Nat))
      (tick vcenterId : Nat), IsActive db vcenterId →
      (∀ i, (Ticking.after cfg access orders db schedule).calls (i, tick) = .ended .returned) →
      ((Ticking.after cfg access orders db schedule).tickRuns tick vcenterId).length = 1 := by
  intro hall
  have hone := hall Bool webConfig (fun _ => offline) (fun _ => RowOrder.asInserted _) seededDb
    inTurn 0 1 (by decide) calls_inTurn
  exact absurd hone (by decide)

end Ticks

end VsphereCompliance.Analysis
