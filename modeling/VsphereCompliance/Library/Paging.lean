import VsphereCompliance.Library.Batches
import Mathlib.Data.List.Sort

/-!
# Paging through an ordered query

A query that sorts by a key may return rows of equal keys in any order, and another one each
time it is asked. The pages of several such queries together are the rows, each once, for all
these orders exactly when no page ends between two rows of equal keys (`pages_perm_iff`).

* `take_perm_take`: up to a clean break, two sorted arrangements have the same rows.
* `exists_swapped`: at any other break two arrangements differ.
-/

namespace Paging

open Batches

variable {α κ : Type*} [LinearOrder κ]

/-- The rows sorted by the key; rows of equal keys in an arbitrary order. -/
structure Arrangement (key : α → κ) where
  arrange : List α → List α
  perm : ∀ rows, (arrange rows).Perm rows
  sorted : ∀ rows, (arrange rows).Pairwise fun a b => key a ≤ key b

/-- `OFFSET n * size LIMIT size`; the first page is page 0. -/
def page (size n : Nat) (rows : List α) : List α := (rows.drop (n * size)).take size

/-- The number of pages: the quotient, rounded up. -/
def pageCount (size total : Nat) : Nat := (total + size - 1) / size

/-- All pages, one query for each. -/
def pages {key : α → κ} (orders : Nat → Arrangement key) (size : Nat) (rows : List α) : List α :=
  (List.range (pageCount size rows.length)).flatMap fun n =>
    page size n ((orders n).arrange rows)

/-- Every page but the last ends where the rows up to some key end. -/
def CleanBreaks (key : α → κ) (size : Nat) (rows : List α) : Prop :=
  ∀ n, 0 < n * size → n * size < rows.length →
    ∃ r ∈ rows, n * size = rows.countP fun a => key a ≤ key r

/-! ## A clean break -/

/-- The rows up to a key are the first ones of a sorted list. -/
theorem take_countP_of_sorted {key : α → κ} {l : List α}
    (h : l.Pairwise fun a b => key a ≤ key b) (s : κ) :
    l.take (l.countP fun a => key a ≤ s) = l.filter fun a => key a ≤ s := by
  induction l with
  | nil => rfl
  | cons a l ih =>
    obtain ⟨hle, hl⟩ := List.pairwise_cons.mp h
    by_cases ha : key a ≤ s
    · rw [List.countP_cons_of_pos (by simpa using ha), List.take_succ_cons, ih hl,
        List.filter_cons_of_pos (by simpa using ha)]
    · have hnone : ∀ b ∈ l, ¬ key b ≤ s := fun b hb hbs => ha ((hle b hb).trans hbs)
      have hcount : l.countP (fun b => key b ≤ s) = 0 := by
        rw [List.countP_eq_zero]
        intro b hb
        simpa using hnone b hb
      rw [List.countP_cons_of_neg (by simpa using ha), hcount, List.take_zero,
        List.filter_cons_of_neg (by simpa using ha)]
      symm
      rw [List.filter_eq_nil_iff]
      intro b hb
      simpa using hnone b hb

section Sorted

variable {key : α → κ} {rows l l' : List α} (hl : l.Pairwise fun a b => key a ≤ key b)
  (hl' : l'.Pairwise fun a b => key a ≤ key b) (hperm : l.Perm rows) (hperm' : l'.Perm rows)
include hl hl' hperm hperm'

/-- Up to a break behind all rows up to a key, two arrangements have the same rows. -/
theorem take_perm_take {n : Nat}
    (hn : n = 0 ∨ rows.length ≤ n ∨ ∃ r ∈ rows, n = rows.countP fun a => key a ≤ key r) :
    (l.take n).Perm (l'.take n) := by
  rcases hn with rfl | hn | ⟨r, _, rfl⟩
  · rw [List.take_zero, List.take_zero]
  · rw [List.take_of_length_le (hperm.length_eq ▸ hn),
      List.take_of_length_le (hperm'.length_eq ▸ hn)]
    exact hperm.trans hperm'.symm
  · have htake := take_countP_of_sorted hl (key r)
    have htake' := take_countP_of_sorted hl' (key r)
    rw [hperm.countP_eq] at htake
    rw [hperm'.countP_eq] at htake'
    rw [htake, htake']
    exact (hperm.trans hperm'.symm).filter _

end Sorted

/-- The first pages are the first rows of any one arrangement. -/
theorem flatMap_page_perm {key : α → κ} {size : Nat} {rows : List α}
    (hclean : CleanBreaks key size rows) (orders : Nat → Arrangement key)
    (order : Arrangement key) (n : Nat) :
    ((List.range n).flatMap fun k => page size k ((orders k).arrange rows)).Perm
      ((order.arrange rows).take (n * size)) := by
  have hbreak : ∀ n, n * size = 0 ∨ rows.length ≤ n * size ∨
      ∃ r ∈ rows, n * size = rows.countP fun a => key a ≤ key r := by
    intro n
    rcases Nat.eq_zero_or_pos (n * size) with hzero | hpos
    · exact Or.inl hzero
    · rcases Nat.lt_or_ge (n * size) rows.length with hlt | hge
      · exact Or.inr (Or.inr (hclean n hpos hlt))
      · exact Or.inr (Or.inl hge)
  have hsame : ∀ n k, ((order.arrange rows).take (n * size)).Perm
      (((orders k).arrange rows).take (n * size)) := fun n k =>
    take_perm_take (order.sorted rows) ((orders k).sorted rows) (order.perm rows)
      ((orders k).perm rows) (hbreak n)
  induction n with
  | zero =>
    rw [Nat.zero_mul, List.take_zero]
    exact List.Perm.refl _
  | succ n ih =>
    rw [List.range_succ, List.flatMap_append, List.flatMap_singleton]
    refine ((ih.trans (hsame n n)).append_right _).trans ?_
    rw [page, ← List.take_add, ← Nat.succ_mul]
    exact (hsame (n + 1) n).symm

/-! ## Any other break -/

/-- Between two rows of different keys the break is clean. -/
theorem countP_of_lt {key : α → κ} {u v : List α} {x y : α}
    (h : (u ++ x :: y :: v).Pairwise fun a b => key a ≤ key b) (hxy : key x < key y) :
    (u ++ x :: y :: v).countP (fun a => key a ≤ key x) = u.length + 1 := by
  obtain ⟨_, hxyv, hux⟩ := List.pairwise_append.mp h
  obtain ⟨_, hyv⟩ := List.pairwise_cons.mp hxyv
  have hu : u.countP (fun a => key a ≤ key x) = u.length := by
    rw [List.countP_eq_length]
    intro a ha
    simpa using hux a ha x List.mem_cons_self
  have hv : v.countP (fun a => key a ≤ key x) = 0 := by
    rw [List.countP_eq_zero]
    intro a ha
    have hle := (List.pairwise_cons.mp hyv).1 a ha
    simpa using hxy.trans_le hle
  rw [List.countP_append, hu, List.countP_cons_of_pos (by simp),
    List.countP_cons_of_neg (by simpa using hxy), hv]

theorem sorted_swap {key : α → κ} {u v : List α} {x y : α}
    (h : (u ++ x :: y :: v).Pairwise fun a b => key a ≤ key b) (hxy : key x = key y) :
    (u ++ y :: x :: v).Pairwise fun a b => key a ≤ key b := by
  rw [List.pairwise_append] at h ⊢
  obtain ⟨hu, hxyv, hux⟩ := h
  obtain ⟨hx, hyv⟩ := List.pairwise_cons.mp hxyv
  obtain ⟨hy, hv⟩ := List.pairwise_cons.mp hyv
  refine ⟨hu, List.pairwise_cons.mpr ⟨?_, List.pairwise_cons.mpr ⟨?_, hv⟩⟩, ?_⟩
  · intro a ha
    rcases List.mem_cons.mp ha with rfl | ha
    · exact hxy.ge
    · exact hy a ha
  · intro a ha
    exact hx a (List.mem_cons_of_mem _ ha)
  · intro a ha b hb
    exact hux a ha b ((List.Perm.swap x y v).mem_iff.mp hb)

/-- Sort by the key, and keep the order of the list among equal keys. -/
def Arrangement.stable (key : α → κ) : Arrangement key where
  arrange := List.insertionSort fun a b => key a ≤ key b
  perm := List.perm_insertionSort _
  sorted := by
    have htotal : Std.Total fun a b : α => key a ≤ key b := ⟨fun a b => le_total (key a) (key b)⟩
    have htrans : IsTrans α fun a b => key a ≤ key b := ⟨fun _ _ _ => le_trans⟩
    exact List.pairwise_insertionSort _

/-- Answer one list of rows with a given arrangement of it. -/
def Arrangement.answering [DecidableEq α] {key : α → κ} {rows l : List α} (hperm : l.Perm rows)
    (hl : l.Pairwise fun a b => key a ≤ key b) : Arrangement key where
  arrange := fun rows' => if rows' = rows then l else (stable key).arrange rows'
  perm := by
    intro rows'
    split
    · rename_i heq
      exact heq ▸ hperm
    · exact (stable key).perm rows'
  sorted := by
    intro rows'
    split
    · exact hl
    · exact (stable key).sorted rows'

theorem Arrangement.arrange_answering [DecidableEq α] {key : α → κ} {rows l : List α}
    (hperm : l.Perm rows) (hl : l.Pairwise fun a b => key a ≤ key b) :
    (answering hperm hl).arrange rows = l := if_pos rfl

/-- The last row of a page, where the next page starts with `y`. -/
theorem mem_page_of_append {size n : Nat} {u v : List α} {x y : α} (hsize : 0 < size)
    (hn : (n + 1) * size = u.length + 1) :
    x ∈ page size n (u ++ x :: y :: v) ∧ y ∈ page size (n + 1) (u ++ x :: y :: v) := by
  have hmul : (n + 1) * size = n * size + size := Nat.succ_mul n size
  unfold page
  constructor
  · apply List.mem_iff_getElem?.mpr
    refine ⟨u.length - n * size, ?_⟩
    rw [List.getElem?_take_of_lt (by omega), List.getElem?_drop,
      List.getElem?_append_right (by omega)]
    rw [show n * size + (u.length - n * size) - u.length = 0 by omega]
    rfl
  · apply List.mem_iff_getElem?.mpr
    refine ⟨0, ?_⟩
    rw [List.getElem?_take_of_lt hsize, List.getElem?_drop,
      List.getElem?_append_right (by omega)]
    rw [show (n + 1) * size + 0 - u.length = 1 by omega]
    rfl

/-- At a break inside equal keys a row can be on both pages. -/
theorem exists_swapped [DecidableEq α] {key : α → κ} {size n : Nat} {rows : List α}
    (hsize : 0 < size) (hn : (n + 1) * size < rows.length)
    (hbreak : ¬ ∃ r ∈ rows, (n + 1) * size = rows.countP fun a => key a ≤ key r) :
    ∃ (order order' : Arrangement key) (x : α),
      x ∈ page size n (order.arrange rows) ∧ x ∈ page size (n + 1) (order'.arrange rows) := by
  have hperm := (Arrangement.stable key).perm rows
  have hsorted := (Arrangement.stable key).sorted rows
  have hlen := hperm.length_eq
  generalize (Arrangement.stable key).arrange rows = l at hperm hsorted hlen
  have hpos : 0 < (n + 1) * size := Nat.mul_pos n.succ_pos hsize
  obtain ⟨u, x, y, v, hu, rfl⟩ : ∃ u x y v, (n + 1) * size = u.length + 1 ∧
      l = u ++ x :: y :: v := by
    have hsplit := List.take_append_drop ((n + 1) * size - 1) l
    have hdrop : ((l.drop ((n + 1) * size - 1)).length) = l.length - ((n + 1) * size - 1) :=
      List.length_drop
    rcases htail : l.drop ((n + 1) * size - 1) with _ | ⟨x, _ | ⟨y, v⟩⟩
    · rw [htail, List.length_nil] at hdrop
      omega
    · rw [htail, List.length_singleton] at hdrop
      omega
    · rw [htail] at hsplit
      exact ⟨_, x, y, v, by rw [List.length_take]; omega, hsplit.symm⟩
  have hxy : key x = key y := by
    have hle := (List.pairwise_cons.mp (List.pairwise_append.mp hsorted).2.1).1 y
      List.mem_cons_self
    refine hle.eq_of_not_lt ?_
    intro hlt
    apply hbreak
    refine ⟨x, hperm.mem_iff.mp (List.mem_append_right _ List.mem_cons_self), ?_⟩
    rw [← hperm.countP_eq, countP_of_lt hsorted hlt, hu]
  have hswap : (u ++ y :: x :: v).Perm rows :=
    ((List.Perm.swap x y v).append_left u).trans hperm
  refine ⟨Arrangement.answering hperm hsorted,
    Arrangement.answering hswap (sorted_swap hsorted hxy), x, ?_, ?_⟩
  · rw [Arrangement.arrange_answering]
    exact (mem_page_of_append hsize hu).1
  · rw [Arrangement.arrange_answering]
    exact (mem_page_of_append hsize hu).2

/-- **Paging is exact** for all answers to the queries exactly when all breaks are clean. -/
theorem pages_perm_iff [DecidableEq α] {key : α → κ} {size : Nat} {rows : List α}
    (hsize : 0 < size) (hnodup : rows.Nodup) :
    (∀ orders : Nat → Arrangement key, (pages orders size rows).Perm rows) ↔
      CleanBreaks key size rows := by
  constructor
  · intro hexact k hpos hlt
    obtain ⟨n, rfl⟩ : ∃ n, k = n + 1 := by
      refine ⟨k - 1, ?_⟩
      have hk : k ≠ 0 := by
        rintro rfl
        omega
      omega
    by_contra hbreak
    obtain ⟨order, order', x, hx, hx'⟩ := exists_swapped hsize hlt hbreak
    have hpages := (hexact fun k => if k ≤ n then order else order').nodup_iff.mpr hnodup
    rw [pages, List.nodup_flatMap] at hpages
    have hcount : n + 1 < pageCount size rows.length := (lt_count_iff hsize).mpr hlt
    have hdisjoint := List.pairwise_iff_getElem.mp hpages.2 n (n + 1)
      (by rw [List.length_range]; omega) (by rw [List.length_range]; omega) (by omega)
    rw [List.getElem_range, List.getElem_range] at hdisjoint
    simp only [Function.onFun, le_refl, if_true, Nat.not_succ_le_self, if_false] at hdisjoint
    exact hdisjoint hx hx'
  · intro hclean orders
    refine (flatMap_page_perm hclean orders (orders 0) _).trans ?_
    have hall : rows.length ≤ pageCount size rows.length * size := by
      by_contra hlt
      exact Nat.lt_irrefl _ ((lt_count_iff hsize).mpr (Nat.lt_of_not_le hlt))
    rw [List.take_of_length_le (((orders 0).perm rows).length_eq ▸ hall)]
    exact (orders 0).perm rows

theorem mem_of_mem_pages {key : α → κ} {orders : Nat → Arrangement key} {size : Nat}
    {rows : List α} {a : α} (h : a ∈ pages orders size rows) : a ∈ rows := by
  obtain ⟨n, _, ha⟩ := List.mem_flatMap.mp h
  exact ((orders n).perm rows).mem_iff.mp (List.mem_of_mem_drop (List.mem_of_mem_take ha))

/-- Paging is exact for the values that are shown of the rows, if they tell the rows apart. -/
theorem map_pages_perm_iff {β : Type*} [DecidableEq α] {key : α → κ} {size : Nat}
    {rows : List α} {f : α → β} (hsize : 0 < size) (hnodup : (rows.map f).Nodup) :
    (∀ orders : Nat → Arrangement key, ((pages orders size rows).map f).Perm (rows.map f)) ↔
      CleanBreaks key size rows := by
  rw [← pages_perm_iff hsize hnodup.of_map]
  refine forall_congr' fun orders => ⟨?_, fun h => h.map f⟩
  intro h
  have hpages : (pages orders size rows).Nodup := (h.nodup_iff.mpr hnodup).of_map
  have hlen := h.length_eq
  rw [List.length_map, List.length_map] at hlen
  exact (List.subperm_of_subset hpages fun a => mem_of_mem_pages).perm_of_length_le hlen.ge

end Paging
