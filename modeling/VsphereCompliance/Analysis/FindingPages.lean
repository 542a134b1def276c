import VsphereCompliance.Analysis.Terminal
import VsphereCompliance.Library.Paging
import Mathlib.Data.String.Basic

/-!
# The pages of the findings

`getFindings` is `get_findings`: the findings of a run, filtered by severity and type, sorted
by the text of the severity and cut by `OFFSET` and `LIMIT`. The severity is the only sort key,
so rows of one severity come in any order, another one for each query. The pages of a run
together hold every matching finding once, whatever these orders are, exactly when no page
ends between two findings of one severity (`finding_pages_iff`).
-/

namespace VsphereCompliance.Analysis

open Engine Store Paging

/-- One entry of `data`. -/
structure FindingItem where
  id : Nat
  findingType : FindingType
  severity : Severity
  clusterName : Option String
  vmName : String
  datastoreName : Option String
  details : Details
  recommendation : String
  isActionable : Bool
  actionTaken : Bool
  deriving DecidableEq

structure FindingsPage where
  data : List FindingItem
  page : Int
  perPage : Int
  total : Nat
  deriving DecidableEq

def itemOf (f : AnalysisFinding) : FindingItem :=
  ⟨f.id, f.findingType, f.severity, f.clusterName, f.vmName, f.datastoreName, f.details,
    f.recommendation, f.isActionable, f.actionTaken⟩

/-- `if value: q = q.filter(column == value)`. -/
def filterBy (column : AnalysisFinding → String) (value : Option String)
    (q : List AnalysisFinding) : List AnalysisFinding :=
  match truthy value with
  | none => q
  | some s => q.filter fun f => column f = s

/-- The query before it is sorted. -/
def matchingFindings (db : Db) (runId : Nat) (severity findingType : Option String) :
    List AnalysisFinding :=
  filterBy (fun f => f.findingType.text) findingType
    (filterBy (fun f => f.severity.text) severity (db.findingsOf runId))

/-- What `ORDER BY severity` may return. -/
abbrev SeverityOrder := Arrangement fun f : AnalysisFinding => f.severity.text

/-- `get_findings`; none where the database refuses a negative offset or limit. -/
def getFindings (order : SeverityOrder) (db : Db) (runId : Nat)
    (severity findingType : Option String) (page perPage : Int) : Option FindingsPage :=
  let q := matchingFindings db runId severity findingType
  let offset := (page - 1) * perPage
  if offset < 0 ∨ perPage < 0 then none
  else some {
    data := (((order.arrange q).drop offset.toNat).take perPage.toNat).map itemOf
    page := page
    perPage := perPage
    total := q.length }

/-- The pages 1 to `ceil(total / per_page)`, each from a query of its own. -/
def allPages (orders : Int → SeverityOrder) (db : Db) (runId : Nat)
    (severity findingType : Option String) (perPage : Int) : List FindingItem :=
  (List.range (pageCount perPage.toNat
    (matchingFindings db runId severity findingType).length)).flatMap fun n : Nat =>
      (getFindings (orders (n + 1)) db runId severity findingType (n + 1) perPage).elim []
        FindingsPage.data

section Pages

variable {db : Db} {runId : Nat} {severity findingType : Option String} {perPage : Int}

theorem filterBy_sublist (column : AnalysisFinding → String) (value : Option String)
    (q : List AnalysisFinding) : (filterBy column value q).Sublist q := by
  unfold filterBy
  split
  · exact List.Sublist.refl _
  · exact List.filter_sublist

theorem nodup_items :
    ((matchingFindings db runId severity findingType).map itemOf).Nodup := by
  have hsub : (matchingFindings db runId severity findingType).Sublist db.findings.rows :=
    ((filterBy_sublist _ _ _).trans (filterBy_sublist _ _ _)).trans List.filter_sublist
  have hids := (hsub.map AnalysisFinding.id).nodup db.findings.nodup
  apply List.Nodup.of_map FindingItem.id
  rw [List.map_map]
  exact hids

/-- A request for page `n + 1` with a positive `per_page` is answered with page `n`. -/
theorem data_getFindings (h : 1 ≤ perPage) (order : SeverityOrder) (n : Nat) :
    (getFindings order db runId severity findingType (n + 1) perPage).elim []
        FindingsPage.data =
      (page perPage.toNat n
        (order.arrange (matchingFindings db runId severity findingType))).map itemOf := by
  have hoffset : ((n : Int) + 1 - 1) * perPage = ((n * perPage.toNat : Nat) : Int) := by
    rw [Int.add_sub_cancel, Int.natCast_mul, Int.toNat_of_nonneg (by omega)]
  unfold getFindings
  dsimp only
  rw [hoffset, if_neg (by omega), Int.toNat_natCast]
  rfl

theorem allPages_eq (h : 1 ≤ perPage) (orders : Int → SeverityOrder) :
    allPages orders db runId severity findingType perPage =
      (pages (fun n => orders (n + 1)) perPage.toNat
        (matchingFindings db runId severity findingType)).map itemOf := by
  unfold allPages pages
  rw [List.map_flatMap]
  apply List.flatMap_congr
  intro n _
  exact data_getFindings h (orders (n + 1)) n

end Pages

/-- **The pages of the findings** hold every matching finding exactly once, whatever the order
among equal severities in each query, exactly when every page but the last ends where the
findings up to some severity end. -/
theorem finding_pages_iff (db : Db) (runId : Nat) (severity findingType : Option String)
    (perPage : Int) (h : 1 ≤ perPage) :
    (∀ orders : Int → SeverityOrder,
      (allPages orders db runId severity findingType perPage).Perm
        ((matchingFindings db runId severity findingType).map itemOf)) ↔
      CleanBreaks (fun f => f.severity.text) perPage.toNat
        (matchingFindings db runId severity findingType) := by
  rw [← map_pages_perm_iff (by omega) nodup_items]
  constructor
  · intro hall orders
    have horders := hall fun page => orders (page - 1).toNat
    rw [allPages_eq h] at horders
    simpa using horders
  · intro hall orders
    rw [allPages_eq h]
    exact hall _

/-- One web server in each of two clusters: neither needs a rule. -/
def lonelyInventory : Inventory where
  clusters := [⟨"Cluster-A", 4, [⟨"WEB-01", []⟩], []⟩, ⟨"Cluster-B", 4, [⟨"WEB-02", []⟩], []⟩]
  datastores := []
  datastoreClusters := []

/-- The store after the analysis of these clusters: run 1 has two findings `info`. -/
def lonelyDb : Db :=
  (doAnalysis webConfig (accessTo lonelyInventory) (seededDb.insertRun ⟨1, 1, .drs⟩) 1 1 .drs).1

theorem finding_pages_iff_lonely :
    (∀ orders : Int → SeverityOrder, (allPages orders lonelyDb 1 none none 2).Perm
      ((matchingFindings lonelyDb 1 none none).map itemOf)) ↔
      CleanBreaks (fun f => f.severity.text) 2 (matchingFindings lonelyDb 1 none none) :=
  finding_pages_iff lonelyDb 1 none none 2 (by decide)

/-- With one finding per page the second query may return the first query's finding again. -/
theorem finding_on_two_pages :
    ¬ ∀ (db : Db) (runId : Nat) (severity findingType : Option String) (perPage : Int),
      1 ≤ perPage → ∀ orders : Int → SeverityOrder,
        (allPages orders db runId severity findingType perPage).Perm
          ((matchingFindings db runId severity findingType).map itemOf) := by
  intro hall
  have hpages : ∀ orders : Nat → SeverityOrder,
      ((pages orders 1 (matchingFindings lonelyDb 1 none none)).map itemOf).Perm
        ((matchingFindings lonelyDb 1 none none).map itemOf) := by
    intro orders
    have h := hall lonelyDb 1 none none 1 (by decide) fun page => orders (page - 1).toNat
    rw [allPages_eq (by decide)] at h
    simpa using h
  have hclean := (map_pages_perm_iff Nat.one_pos nodup_items).mp hpages 1 (by decide) (by decide)
  exact absurd hclean (by decide)

end VsphereCompliance.Analysis
