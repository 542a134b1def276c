import VsphereCompliance.Api.Listings
import Mathlib.Algebra.BigOperators.Group.List.Lemmas

/-!
# The dashboard

`getSummary` counts the findings on which no action was taken: the actionable ones, the critical
ones, and all of them by type. The counts of the types add up to the open findings and the
skipped groups (`dashboard_adds_up`). In every history the open findings keep a balance: those
at the end and those handled meanwhile are those at the start and the actionable ones that the
analyses have found meanwhile (`dashboard_balance`).
-/

namespace VsphereCompliance.Api

open Engine Store VCenter Accounts Settings
open Paging (Arrangement)

/-! ## The endpoints -/

/-- No action was taken on the finding, and one can be. -/
def isOpen (f : AnalysisFinding) : Bool := !f.actionTaken && f.isActionable

structure LastRun where
  id : Nat
  status : AnalysisStatus
  startedAt : Int
  deriving DecidableEq, Repr

structure Summary where
  totalVcenters : Nat
  totalAnalysisRuns : Nat
  openFindings : Nat
  criticalFindings : Nat
  lastRun : Option LastRun
  findingsByType : List (FindingType × Nat)

/-- The findings with no action taken. -/
def untaken (db : Db) : List AnalysisFinding :=
  db.findings.rows.filter fun f => !f.actionTaken

/-- `GROUP BY finding_type`. -/
def byType (db : Db) : List (FindingType × Nat) :=
  let types := (untaken db).map fun f => f.findingType
  types.dedup.map fun type => (type, types.count type)

/-- `get_summary`. -/
def getSummary (startedAt : Nat → Int) (runOrder : NewestFirst startedAt)
    (groupOrder : RowOrder (FindingType × Nat)) (db : Db) : Summary where
  totalVcenters := db.connections.rows.countP VCenterConnection.isActive
  totalAnalysisRuns := db.runs.rows.length
  openFindings := db.findings.rows.countP isOpen
  criticalFindings := db.findings.rows.countP fun f => f.severity = .critical && !f.actionTaken
  lastRun := (runOrder.arrange db.runs.rows).head?.map fun run =>
    ⟨run.id, run.status, startedAt run.id⟩
  findingsByType := groupOrder.arrange (byType db)

/-- `recent_findings`, where `createdAt` is the time of the finding. -/
def recentFindings {createdAt : Nat → Int}
    (order : Arrangement fun f : AnalysisFinding => OrderDual.toDual (createdAt f.id)) (db : Db) :
    List AnalysisFinding :=
  (order.arrange (untaken db)).take 10

/-! ## The counts -/

theorem isActionable_iff {f : NewFinding} (h : f.Coherent) :
    f.isActionable = true ↔ f.findingType ≠ .drsSkip := by
  unfold NewFinding.Coherent at h
  cases hd : f.details with
  | skip s =>
    rw [hd] at h
    simp [h.1, h.2]
  | rule r =>
    rw [hd] at h
    simp [h.1, h.2]
  | violation v =>
    rw [hd] at h
    simp [h.1, h.2]
  | scattered s =>
    rw [hd] at h
    simp [h.1, h.2]

theorem sum_byType (db : Db) (p : FindingType → Bool) :
    (((byType db).filter fun x => p x.1).map Prod.snd).sum =
      (untaken db).countP fun f => p f.findingType := by
  have hcount := List.sum_map_count_dedup_filter_eq_countP p
    ((untaken db).map fun f => f.findingType)
  rw [List.countP_map] at hcount
  unfold byType
  dsimp only
  rw [List.filter_map, List.map_map]
  exact hcount

/-- **The dashboard adds up**: the findings by type, without the skipped groups, are the open
findings; and there are recent findings as long as there are findings of any type. -/
theorem dashboard_adds_up (startedAt : Nat → Int) (runOrder : NewestFirst startedAt)
    (groupOrder : RowOrder (FindingType × Nat)) {createdAt : Nat → Int}
    (order : Arrangement fun f : AnalysisFinding => OrderDual.toDual (createdAt f.id)) (db : Db) :
    ((((getSummary startedAt runOrder groupOrder db).findingsByType.filter
        fun x => x.1 ≠ .drsSkip).map Prod.snd).sum =
      (getSummary startedAt runOrder groupOrder db).openFindings) ∧
    (recentFindings order db).length =
      min 10 ((getSummary startedAt runOrder groupOrder db).findingsByType.map Prod.snd).sum := by
  have hperm := groupOrder.perm (byType db)
  refine ⟨?_, ?_⟩
  · show (((groupOrder.arrange (byType db)).filter _).map _).sum = _
    rw [((hperm.filter _).map _).sum_eq, sum_byType db fun type => type ≠ .drsSkip, untaken,
      List.countP_filter]
    refine List.countP_congr fun f hf => ?_
    have hiff := isActionable_iff (db.coherent f hf)
    simp only [isOpen, Bool.and_eq_true, decide_eq_true_eq, hiff]
    exact and_comm
  · show ((order.arrange (untaken db)).take 10).length = min 10 ((groupOrder.arrange _).map _).sum
    have hall := sum_byType db fun _ => true
    rw [List.filter_true, List.countP_true] at hall
    rw [(hperm.map _).sum_eq, hall, List.length_take, (order.perm _).length_eq]

/-! ## The balance -/

/-- The actionable findings on which an action was taken meanwhile. -/
def handledMeanwhile (db db' : Db) : Nat :=
  db'.findings.rows.countP fun f =>
    f.isActionable && f.actionTaken && (db.findings.find? f.id).all fun g => !g.actionTaken

/-- The actionable findings that were found meanwhile. -/
def foundMeanwhile (db db' : Db) : Nat :=
  db'.findings.rows.countP fun f => f.isActionable && (db.findings.find? f.id).isNone

theorem countP_add_eq {α : Type} {l : List α} {p q u v : α → Bool}
    (h : ∀ a ∈ l, (p a).toNat + (q a).toNat = (u a).toNat + (v a).toNat) :
    l.countP p + l.countP q = l.countP u + l.countP v := by
  induction l with
  | nil => rfl
  | cons a l ih =>
    have ha := h a List.mem_cons_self
    have hl := ih fun b hb => h b (List.mem_cons_of_mem a hb)
    simp only [Bool.toNat, Bool.cond_eq_ite] at ha
    simp only [List.countP_cons]
    omega

section Balance

variable {db db' : Db}

/-- The findings that were open are still there. -/
theorem countP_wasOpen (h : Later db db') :
    (db'.findings.rows.countP fun f => (db.findings.find? f.id).any isOpen) =
      db.findings.rows.countP isOpen := by
  obtain ⟨⟨f, new, hrows, hf, hnew⟩, _⟩ := h.findings
  have hzero : (new.countP fun f => (db.findings.find? f.id).any isOpen) = 0 := by
    rw [List.countP_eq_zero]
    intro g hg
    have hnone : db.findings.find? g.id = none := by
      rw [Table.find?_eq_none_iff]
      intro g' hg'
      exact Nat.ne_of_lt ((db.findings.key_lt g' hg').trans_le (hnew g hg))
    rw [hnone]
    exact Bool.false_ne_true
  rw [hrows, List.countP_append, List.countP_map, hzero, Nat.add_zero]
  refine List.countP_congr fun g hg => ?_
  have hsome : db.findings.find? (f g).id = some g :=
    Table.find?_eq_some_iff.mpr ⟨hg, (hf g hg).id.symm⟩
  show (db.findings.find? (f g).id).any isOpen = true ↔ _
  rw [hsome]
  rfl

theorem balance_of_later (h : Later db db') :
    db'.findings.rows.countP isOpen + handledMeanwhile db db' =
      db.findings.rows.countP isOpen + foundMeanwhile db db' := by
  rw [← countP_wasOpen h]
  refine countP_add_eq fun f hf => ?_
  cases hfind : db.findings.find? f.id with
  | none =>
    cases hactionable : f.isActionable <;> cases htaken : f.actionTaken <;>
      simp [isOpen, hactionable, htaken]
  | some g =>
    obtain ⟨f', hf', hlater⟩ := h.findings.find?_eq_some versions_laterFinding hfind
    obtain ⟨hmem, hid⟩ := Table.find?_eq_some_iff.mp hf'
    obtain rfl := Table.eq_of_key hmem hf hid
    have hactionable : f'.isActionable = g.isActionable :=
      congrArg NewFinding.isActionable hlater.content
    have hkept := hlater.actionTaken
    cases hg : g.actionTaken with
    | true => simp [isOpen, hg, hkept hg]
    | false =>
      cases htaken : f'.actionTaken <;> cases hact : g.isActionable <;>
        simp [isOpen, hg, htaken, hactionable, hact]

end Balance

variable {c : Cipher}

/-- **The open findings keep a balance** in every history, and the number of runs does not go
down. -/
theorem dashboard_balance (p : Platform) {s : State c} (hstart : s.tasks = [])
    (before after : List Happening) (startedAt : Nat → Int) (runOrder : NewestFirst startedAt)
    (groupOrder : RowOrder (FindingType × Nat)) :
    let db := (before.foldl (happen p) s).db
    let db' := ((before ++ after).foldl (happen p) s).db
    (getSummary startedAt runOrder groupOrder db').openFindings + handledMeanwhile db db' =
        (getSummary startedAt runOrder groupOrder db).openFindings + foundMeanwhile db db' ∧
      (getSummary startedAt runOrder groupOrder db).totalAnalysisRuns ≤
        (getSummary startedAt runOrder groupOrder db').totalAnalysisRuns := by
  have htasks := (evolves_run (tasksWait_of_nil hstart) p before).1
  have hlater := (evolves_run htasks p after).2.db
  rw [← List.foldl_append] at hlater
  refine ⟨balance_of_later hlater, ?_⟩
  obtain ⟨⟨f, new, hrows, _, _⟩, _⟩ := hlater.runs
  have hlength := congrArg List.length hrows
  rw [List.length_append, List.length_map] at hlength
  show List.length _ ≤ List.length _
  omega

/-- The analysis finds one shared datastore, and the operator approves its move. -/
theorem dashboard_balance_approved :
    let db := (requestAndRun.foldl (happen operatorPlatform) operatorState).db
    let db' := ((requestAndRun ++ approval).foldl (happen operatorPlatform) operatorState).db
    db'.findings.rows.countP isOpen + handledMeanwhile db db' =
      db.findings.rows.countP isOpen + foundMeanwhile db db' :=
  (dashboard_balance operatorPlatform (s := operatorState) rfl requestAndRun approval
    (fun n => n) newestFirst (.asInserted _)).1

end VsphereCompliance.Api
