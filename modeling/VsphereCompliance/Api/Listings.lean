import VsphereCompliance.Api.LifeCycle
import VsphereCompliance.Api.Signins
import VsphereCompliance.Library.PagingGrowth
import Mathlib.Order.OrderDual

/-!
# The lists of runs and reports and the audit log

`listRuns`, `listReports` and `auditLog` cut their rows into pages, the newest first. Whoever
reads a list page by page, up to an empty page, misses no entry that was there at the start,
whatever happens between the pages: runs come in at the front (`paging_misses_no_run`), a run
that took longer than others becomes a report in the middle (`paging_misses_no_report`), logins
are recorded (`paging_misses_no_login`), and nothing is deleted. The times of the rows, which
differ, are given from outside.
-/

namespace VsphereCompliance.Api

open Engine Store VCenter Accounts Settings
open Paging (Arrangement)

variable {α β γ κ : Type} [LinearOrder κ]

/-! ## Pages -/

/-- `data` and `meta`. -/
structure ListPage (β : Type) where
  data : List β
  page : Int
  perPage : Int
  total : Nat

/-- A sorted query with `OFFSET` and `LIMIT`; none where the database refuses a negative one. -/
def listPage {key : α → κ} (order : Arrangement key) (item : α → β) (q : List α)
    (page perPage : Int) : Option (ListPage β) :=
  let offset := (page - 1) * perPage
  if offset < 0 ∨ perPage < 0 then none
  else some {
    data := (((order.arrange q).drop offset.toNat).take perPage.toNat).map item
    page := page
    perPage := perPage
    total := q.length }

theorem listPage_eq {key : α → κ} (order : Arrangement key) (item : α → β) (q : List α)
    {perPage : Int} (h : 1 ≤ perPage) (n : Nat) :
    listPage order item q (n + 1) perPage =
      some ⟨(Paging.page perPage.toNat n (order.arrange q)).map item, n + 1, perPage,
        q.length⟩ := by
  have hoffset : ((n : Int) + 1 - 1) * perPage = ((n * perPage.toNat : Nat) : Int) := by
    rw [Int.add_sub_cancel, Int.natCast_mul, Int.toNat_of_nonneg (by omega)]
  unfold listPage
  dsimp only
  rw [hoffset, if_neg (by omega), Int.toNat_natCast]
  rfl

/-- What a reader of a growing list gets who goes on to an empty page. -/
theorem exists_item_of_growing {key : α → κ} {item : α → β} (id : β → γ) (rows : Nat → List α)
    (orders : Nat → Arrangement key) {perPage : Int} (hper : 1 ≤ perPage)
    (hid : ∀ n, ∀ r ∈ rows n, ∀ r' ∈ rows 0, key r = key r' → id (item r) = id (item r'))
    (hnodup : ∀ n, ((rows n).map key).Nodup)
    (hgrow : ∀ n, (rows n).map key ⊆ (rows (n + 1)).map key) {N : Nat} {last : ListPage β}
    (hlast : listPage (orders N) item (rows N) (N + 1) perPage = some last)
    (hempty : last.data = []) {r : α} (hr : r ∈ rows 0) :
    ∃ n < N, ∃ page, listPage (orders n) item (rows n) (n + 1) perPage = some page ∧
      ∃ x ∈ page.data, id x = id (item r) := by
  rw [listPage_eq _ _ _ hper] at hlast
  obtain rfl := Option.some.inj hlast
  obtain ⟨n, hn, r', hr', hkey⟩ := Paging.mem_page_of_growing (by omega) orders hnodup hgrow
    (List.map_eq_nil_iff.mp hempty) hr
  refine ⟨n, hn, _, listPage_eq _ _ _ hper n, item r', List.mem_map_of_mem hr', ?_⟩
  have hmem : r' ∈ rows n :=
    ((orders n).perm _).mem_iff.mp (List.mem_of_mem_drop (List.mem_of_mem_take hr'))
  exact hid n r' hmem r hr hkey

/-! ## Queries with time between them -/

variable {c : Cipher}

/-- The states in which the queries of a reader are answered. -/
def statesWhile (p : Platform) (s : State c) (meanwhile : Nat → List Happening) : Nat → State c
  | 0 => s
  | n + 1 => (meanwhile n).foldl (happen p) (statesWhile p s meanwhile n)

theorem tasksWait_statesWhile {s : State c} (h : TasksWait s) (p : Platform)
    (meanwhile : Nat → List Happening) (n : Nat) : TasksWait (statesWhile p s meanwhile n) := by
  induction n with
  | zero => exact h
  | succ n ih => exact (evolves_run ih p (meanwhile n)).1

theorem evolves_statesWhile {s : State c} (h : TasksWait s) (p : Platform)
    (meanwhile : Nat → List Happening) (n : Nat) :
    Evolves (statesWhile p s meanwhile n) (statesWhile p s meanwhile (n + 1)) :=
  (evolves_run (tasksWait_statesWhile h p meanwhile n) p (meanwhile n)).2

theorem evolves_statesWhile_zero {s : State c} (h : TasksWait s) (p : Platform)
    (meanwhile : Nat → List Happening) (n : Nat) : Evolves s (statesWhile p s meanwhile n) := by
  induction n with
  | zero => exact .refl s
  | succ n ih => exact ih.trans (evolves_statesWhile h p meanwhile n)

/-! ## Runs and reports -/

section Runs

variable (startedAt : Nat → Int)

/-- What `ORDER BY started_at DESC` may return, where `startedAt` is the time of the run. -/
abbrev NewestFirst := Arrangement fun run : AnalysisRun => OrderDual.toDual (startedAt run.id)

structure RunItem where
  id : Nat
  vcenterId : Option Nat
  analysisType : AnalysisType
  status : AnalysisStatus
  startedAt : Int
  summary : Option RunSummary

def runItem (run : AnalysisRun) : RunItem :=
  ⟨run.id, run.vcenterId, run.analysisType, run.status, startedAt run.id, run.summary⟩

/-- `if vcenter_id: q = q.filter(...)`. -/
def filterVcenter (vcenterId : Option Int) (q : List AnalysisRun) : List AnalysisRun :=
  match vcenterId with
  | none => q
  | some id => if id = 0 then q else q.filter fun run => run.vcenterId.map Int.ofNat = some id

/-- `list_runs`. -/
def listRuns (order : NewestFirst startedAt) (db : Db) (page perPage : Int)
    (vcenterId : Option Int) : Option (ListPage RunItem) :=
  listPage order (runItem startedAt) (filterVcenter vcenterId db.runs.rows) page perPage

structure ReportItem where
  id : Nat
  vcenterId : Option Nat
  analysisType : AnalysisType
  startedAt : Int
  summary : Option RunSummary

def reportItem (run : AnalysisRun) : ReportItem :=
  ⟨run.id, run.vcenterId, run.analysisType, startedAt run.id, run.summary⟩

/-- The runs that are reports. -/
def completedRuns (db : Db) : List AnalysisRun :=
  db.runs.rows.filter fun run => run.status = .completed

/-- `list_reports`. -/
def listReports (order : NewestFirst startedAt) (db : Db) (page perPage : Int) :
    Option (ListPage ReportItem) :=
  listPage order (reportItem startedAt) (completedRuns db) page perPage

variable {startedAt}

theorem nodup_startedAt (hinj : Function.Injective startedAt) {q : List AnalysisRun}
    (hids : (q.map AnalysisRun.id).Nodup) :
    (q.map fun run => OrderDual.toDual (startedAt run.id)).Nodup := by
  have hmap := hids.map (OrderDual.toDual.injective.comp hinj)
  rwa [List.map_map] at hmap

theorem startedAt_subset_of_later {q q' : List AnalysisRun}
    (h : ∀ run ∈ q, ∃ run' ∈ q', run'.id = run.id) :
    (q.map fun run => OrderDual.toDual (startedAt run.id)) ⊆
      q'.map fun run => OrderDual.toDual (startedAt run.id) := by
  intro k hk
  obtain ⟨run, hrun, rfl⟩ := List.mem_map.mp hk
  obtain ⟨run', hrun', hid⟩ := h run hrun
  exact List.mem_map.mpr ⟨run', hrun', by rw [hid]⟩

/-- **Paging through the runs misses none**, whatever happens between the pages. -/
theorem paging_misses_no_run (p : Platform) {s : State c} (hstart : s.tasks = [])
    (before : List Happening) (hinj : Function.Injective startedAt)
    (meanwhile : Nat → List Happening) (orders : Nat → NewestFirst startedAt) {perPage : Int}
    (hper : 1 ≤ perPage) {N : Nat} {last : ListPage RunItem}
    (hlast : listRuns startedAt (orders N)
      (statesWhile p (before.foldl (happen p) s) meanwhile N).db (N + 1) perPage none = some last)
    (hempty : last.data = []) {run : AnalysisRun}
    (hrun : run ∈ (before.foldl (happen p) s).db.runs.rows) :
    ∃ n < N, ∃ page, listRuns startedAt (orders n)
        (statesWhile p (before.foldl (happen p) s) meanwhile n).db (n + 1) perPage none =
          some page ∧
      ∃ x ∈ page.data, x.id = run.id := by
  have htasks := (evolves_run (tasksWait_of_nil hstart) p before).1
  generalize before.foldl (happen p) s = s' at htasks hlast hrun ⊢
  refine exists_item_of_growing RunItem.id (fun n => (statesWhile p s' meanwhile n).db.runs.rows)
    orders hper ?_ (fun n => nodup_startedAt hinj (statesWhile p s' meanwhile n).db.runs.nodup)
    (fun n => startedAt_subset_of_later fun r hr => ?_) hlast hempty hrun
  · exact fun n r _ r' _ hkey => hinj (OrderDual.toDual.injective hkey)
  · obtain ⟨r', hr', hlater⟩ := (evolves_statesWhile htasks p meanwhile n).db.runs.exists_mem hr
    exact ⟨r', hr', hlater.id⟩

/-- **Paging through the reports misses none**, though runs become reports in the middle. -/
theorem paging_misses_no_report (p : Platform) {s : State c} (hstart : s.tasks = [])
    (before : List Happening) (hinj : Function.Injective startedAt)
    (meanwhile : Nat → List Happening) (orders : Nat → NewestFirst startedAt) {perPage : Int}
    (hper : 1 ≤ perPage) {N : Nat} {last : ListPage ReportItem}
    (hlast : listReports startedAt (orders N)
      (statesWhile p (before.foldl (happen p) s) meanwhile N).db (N + 1) perPage = some last)
    (hempty : last.data = []) {run : AnalysisRun}
    (hrun : run ∈ (before.foldl (happen p) s).db.runs.rows) (hcompleted : run.status = .completed) :
    ∃ n < N, ∃ page, listReports startedAt (orders n)
        (statesWhile p (before.foldl (happen p) s) meanwhile n).db (n + 1) perPage = some page ∧
      ∃ x ∈ page.data, x.id = run.id := by
  have htasks := (evolves_run (tasksWait_of_nil hstart) p before).1
  generalize before.foldl (happen p) s = s' at htasks hlast hrun ⊢
  refine exists_item_of_growing ReportItem.id
    (fun n => completedRuns (statesWhile p s' meanwhile n).db) orders hper ?_
    (fun n => nodup_startedAt hinj ?_)
    (fun n => startedAt_subset_of_later fun r hr => ?_) hlast hempty
    (List.mem_filter.mpr ⟨hrun, decide_eq_true hcompleted⟩)
  · exact fun n r _ r' _ hkey => hinj (OrderDual.toDual.injective hkey)
  · exact (List.filter_sublist.map _).nodup (statesWhile p s' meanwhile n).db.runs.nodup
  · obtain ⟨hmem, hstatus⟩ := List.mem_filter.mp hr
    have hstatus := of_decide_eq_true hstatus
    obtain ⟨r', hr', hlater⟩ := (evolves_statesWhile htasks p meanwhile n).db.runs.exists_mem hmem
    have hended : r.status ≠ .running := by
      rw [hstatus]
      exact nofun
    exact ⟨r', List.mem_filter.mpr ⟨hr', decide_eq_true ((hlater.outcome hended).1.trans hstatus)⟩,
      hlater.id⟩

end Runs

/-! ## The audit log -/

section AuditLog

variable (createdAt : Nat → Int)

/-- What `ORDER BY created_at DESC` may return; a row comes with its number. -/
abbrev LatestFirst := Arrangement fun row : AuditLog × Nat => OrderDual.toDual (createdAt row.2)

structure AuditItem where
  id : Nat
  userId : Nat
  action : String
  ipAddress : String
  createdAt : Int

def auditItem (row : AuditLog × Nat) : AuditItem :=
  ⟨row.2, row.1.userId, row.1.action, row.1.ipAddress, createdAt row.2⟩

/-- `audit_log`. -/
def auditLog (order : LatestFirst createdAt) (acc : AccountDb) (page perPage : Int) :
    Option (ListPage AuditItem) :=
  listPage order (auditItem createdAt) acc.auditLogs.zipIdx page perPage

variable {createdAt}

theorem createdAt_zipIdx (rows : List AuditLog) :
    (rows.zipIdx.map fun row => OrderDual.toDual (createdAt row.2)) =
      (List.range rows.length).map fun n => OrderDual.toDual (createdAt n) := by
  have hmap := congrArg (List.map fun n => OrderDual.toDual (createdAt n))
    (List.zipIdx_map_snd 0 rows)
  rwa [List.map_map, ← List.range_eq_range'] at hmap

/-- **Paging through the audit log misses no row.** -/
theorem exists_auditItem (p : Platform) {s : State c} (htasks : TasksWait s)
    (hinj : Function.Injective createdAt) (meanwhile : Nat → List Happening)
    (orders : Nat → LatestFirst createdAt) {perPage : Int} (hper : 1 ≤ perPage) {N : Nat}
    {last : ListPage AuditItem} (hlast : auditLog createdAt (orders N)
      (statesWhile p s meanwhile N).accounts (N + 1) perPage = some last)
    (hempty : last.data = []) {row : AuditLog} {i : Nat}
    (hi : s.accounts.auditLogs[i]? = some row) :
    ∃ n < N, ∃ page, auditLog createdAt (orders n) (statesWhile p s meanwhile n).accounts (n + 1)
        perPage = some page ∧ auditItem createdAt (row, i) ∈ page.data := by
  have hzip : (row, i) ∈ s.accounts.auditLogs.zipIdx := List.mem_zipIdx_iff_getElem?.mpr hi
  -- a row keeps its number
  have hsame : ∀ n, ∀ r ∈ (statesWhile p s meanwhile n).accounts.auditLogs.zipIdx,
      ∀ r' ∈ s.accounts.auditLogs.zipIdx,
        OrderDual.toDual (createdAt r.2) = OrderDual.toDual (createdAt r'.2) → r = r' := by
    rintro n ⟨a, j⟩ ha ⟨a', j'⟩ ha' hkey
    obtain rfl : j = j' := hinj (OrderDual.toDual.injective hkey)
    obtain ⟨rows, hrows⟩ := (evolves_statesWhile_zero htasks p meanwhile n).auditLogs
    have hget := List.mem_zipIdx_iff_getElem?.mp ha
    have hget' := List.mem_zipIdx_iff_getElem?.mp ha'
    rw [← hrows, List.getElem?_append_left (List.getElem?_eq_some_iff.mp hget').1, hget'] at hget
    exact Prod.ext (Option.some.inj hget).symm rfl
  have hnodup : ∀ n, ((statesWhile p s meanwhile n).accounts.auditLogs.zipIdx.map
      fun row => OrderDual.toDual (createdAt row.2)).Nodup := by
    intro n
    rw [createdAt_zipIdx]
    exact List.nodup_range.map (OrderDual.toDual.injective.comp hinj)
  obtain ⟨n, hn, page, hpage, item, hitem, rfl⟩ := exists_item_of_growing (fun item => item) _
    orders hper (fun n r hr r' hr' hkey => by rw [hsame n r hr r' hr' hkey]) hnodup
    (fun n => by
      rw [createdAt_zipIdx, createdAt_zipIdx]
      exact List.map_subset _ (List.range_subset.mpr
        (evolves_statesWhile htasks p meanwhile n).auditLogs.length_le))
    hlast hempty hzip
  exact ⟨n, hn, page, hpage, hitem⟩

/-- **Paging through the audit log misses no login**: the row of each login of the history, which
is known by its number, is on a page. -/
theorem paging_misses_no_login (p : Platform) {s : State c} (hstart : s.tasks = [])
    (before : List Happening) (hinj : Function.Injective createdAt)
    (meanwhile : Nat → List Happening) (orders : Nat → LatestFirst createdAt) {perPage : Int}
    (hper : 1 ≤ perPage) {N : Nat} {last : ListPage AuditItem}
    (hlast : auditLog createdAt (orders N)
      (statesWhile p (before.foldl (happen p) s) meanwhile N).accounts (N + 1) perPage = some last)
    (hempty : last.data = []) {k : Nat} {x : Signin} (hx : (signins p s before)[k]? = some x) :
    ∃ n < N, ∃ page, auditLog createdAt (orders n)
        (statesWhile p (before.foldl (happen p) s) meanwhile n).accounts (n + 1) perPage =
          some page ∧
      ∃ item ∈ page.data, item.id = s.accounts.auditLogs.length + k ∧
        item.userId.repr = x.claims.sub ∧ item.action = "login" ∧ item.ipAddress = x.ip := by
  have hwait := tasksWait_of_nil hstart
  obtain ⟨row, hrow, haudits⟩ := audited_of_getElem? hwait hx
  obtain ⟨n, hn, page, hpage, hitem⟩ := exists_auditItem p (evolves_run hwait p before).1 hinj
    meanwhile orders hper hlast hempty hrow
  exact ⟨n, hn, page, hpage, _, hitem, rfl, haudits.userId, haudits.action, haudits.ipAddress⟩

end AuditLog

/-! ## A reader of short pages -/

/-- The operator asks for an analysis after the first page. -/
def requestMeanwhile (n : Nat) : List Happening := if n = 0 then requestAndRun else []

def requestedTwice (n : Nat) : State labelledCipher :=
  statesWhile operatorPlatform (requestAndRun.foldl (happen operatorPlatform) operatorState)
    requestMeanwhile n

/-- The newest first, by the time that is the number of the row. -/
def newestFirst : NewestFirst fun n => n := .stable _

/-- The page behind the last row. -/
theorem exists_last_page {key : α → κ} (order : Arrangement key) (item : α → β) {q : List α}
    {N : Nat} (hlength : q.length = N) :
    ∃ last, listPage order item q ((N : Nat) + 1) 1 = some last ∧ last.data = [] := by
  refine ⟨_, listPage_eq order item q (le_refl 1) N, ?_⟩
  have hpage : Paging.page 1 N (order.arrange q) = [] := by
    rw [Paging.page, List.drop_eq_nil_of_le, List.take_nil]
    rw [(order.perm q).length_eq, hlength, Nat.mul_one]
  exact congrArg (List.map item) hpage

/-- With one run on a page, the first run is on the second page or on the first one. -/
theorem paging_misses_no_run_requested : ∃ n < 2, ∃ page,
    listRuns (fun n => n) newestFirst (requestedTwice n).db (n + 1) 1 none = some page ∧
      ∃ x ∈ page.data, x.id = 1 := by
  obtain ⟨run, hrun, _⟩ := analysed_run
  obtain ⟨hmem, hid⟩ := Table.find?_eq_some_iff.mp hrun
  obtain ⟨last, hlast, hempty⟩ := exists_last_page newestFirst (runItem fun n => n)
    (show (filterVcenter none (requestedTwice 2).db.runs.rows).length = 2 by decide)
  have hfound := paging_misses_no_run operatorPlatform rfl requestAndRun Nat.cast_injective
    requestMeanwhile (fun _ => newestFirst) (le_refl 1) hlast hempty hmem
  rw [hid] at hfound
  exact hfound

theorem paging_misses_no_report_requested : ∃ n < 2, ∃ page,
    listReports (fun n => n) newestFirst (requestedTwice n).db (n + 1) 1 = some page ∧
      ∃ x ∈ page.data, x.id = 1 := by
  obtain ⟨run, hrun, hcompleted⟩ := analysed_run
  obtain ⟨hmem, hid⟩ := Table.find?_eq_some_iff.mp hrun
  obtain ⟨last, hlast, hempty⟩ := exists_last_page newestFirst (reportItem fun n => n)
    (show (completedRuns (requestedTwice 2).db).length = 2 by decide)
  have hfound := paging_misses_no_report operatorPlatform rfl requestAndRun Nat.cast_injective
    requestMeanwhile (fun _ => newestFirst) (le_refl 1) hlast hempty hmem hcompleted
  rw [hid] at hfound
  exact hfound

/-- She logs in twice from one address. -/
def veraTwice : List Happening :=
  [.login 5 localServer veraLogin, .login 6 localServer veraLogin]

/-- With one row on a page, her first login is on the second page or on the first one. -/
theorem paging_misses_no_login_vera : ∃ n < 2, ∃ page,
    auditLog (fun n => n) (.stable _) (statesWhile operatorPlatform
        (veraTwice.foldl (happen operatorPlatform) operatorState) (fun _ => []) n).accounts
          (n + 1) 1 = some page ∧
      ∃ item ∈ page.data, item.id = operatorState.accounts.auditLogs.length + 0 ∧
        item.userId.repr = "1" ∧ item.action = "login" ∧ item.ipAddress = "10.0.0.1" := by
  obtain ⟨last, hlast, hempty⟩ := exists_last_page
    (.stable fun row : AuditLog × Nat => OrderDual.toDual (row.2 : Int)) (auditItem fun n => n)
    (show (veraTwice.foldl (happen operatorPlatform) operatorState).accounts.auditLogs.zipIdx.length
      = 2 by rfl)
  exact paging_misses_no_login operatorPlatform (s := operatorState) rfl veraTwice
    Nat.cast_injective (fun _ => []) (fun _ => .stable _) (le_refl 1) (N := 2) hlast hempty
    (x := ⟨5, ⟨"1", .operator⟩, "10.0.0.1"⟩) rfl

end VsphereCompliance.Api
