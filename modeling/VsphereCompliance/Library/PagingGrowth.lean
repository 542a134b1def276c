import VsphereCompliance.Library.Paging

/-!
# Paging while rows come in

A reader asks for page after page until one is empty, and between two queries rows come in, in
front of the page or behind it. Where no two rows have the same key and none is deleted, the
reader misses no row that was there at the start (`mem_page_of_growing`): each query moves such a
row further back or leaves it where it is (`before_le`), so the pages, which go on by one at a
time, cannot pass it.
-/

namespace Paging

variable {α κ : Type*} [LinearOrder κ]

/-- How many rows come before the key. -/
def before (keys : List κ) (k : κ) : Nat := keys.countP (· < k)

theorem before_le {keys keys' : List κ} (hnodup : keys.Nodup) (hsub : keys ⊆ keys') (k : κ) :
    before keys k ≤ before keys' k :=
  (List.subperm_of_subset hnodup hsub).countP_le _

/-- In a sorted list a key is where the keys before it end. -/
theorem getElem?_before {keys : List κ} (h : keys.Pairwise (· < ·)) {k : κ} (hk : k ∈ keys) :
    keys[before keys k]? = some k := by
  induction keys with
  | nil => cases hk
  | cons a keys ih =>
    obtain ⟨hlt, hkeys⟩ := List.pairwise_cons.mp h
    rcases List.mem_cons.mp hk with rfl | hk
    · have hzero : before (k :: keys) k = 0 := by
        rw [before, List.countP_eq_zero]
        intro b hb
        rcases List.mem_cons.mp hb with rfl | hb
        · simp
        · simpa using (hlt b hb).le
      rw [hzero]
      rfl
    · have hsucc : before (a :: keys) k = before keys k + 1 :=
        List.countP_cons_of_pos (decide_eq_true (hlt k hk))
      rw [hsucc, List.getElem?_cons_succ]
      exact ih hkeys hk

/-- Positions that go forward less than the pages do are on one of the pages. -/
theorem exists_page_of_le (pos : Nat → Nat) (hmono : ∀ n, pos n ≤ pos (n + 1)) {size N : Nat}
    (hend : pos N < N * size) : ∃ n < N, n * size ≤ pos n ∧ pos n < (n + 1) * size := by
  induction N with
  | zero =>
    rw [Nat.zero_mul] at hend
    exact absurd hend (Nat.not_lt_zero _)
  | succ N ih =>
    by_cases hlt : pos N < N * size
    · obtain ⟨n, hn, hpage⟩ := ih hlt
      exact ⟨n, Nat.lt_succ_of_lt hn, hpage⟩
    · exact ⟨N, Nat.lt_succ_self N, Nat.le_of_not_lt hlt, (hmono N).trans_lt hend⟩

section Arrangement

variable {key : α → κ}

theorem Arrangement.pairwise_lt (order : Arrangement key) {rows : List α}
    (hnodup : (rows.map key).Nodup) : ((order.arrange rows).map key).Pairwise (· < ·) := by
  have hle := List.pairwise_map.mpr (order.sorted rows)
  have hne : ((order.arrange rows).map key).Nodup :=
    ((order.perm rows).map key).nodup_iff.mpr hnodup
  exact hle.imp₂ (fun a b h hne => lt_of_le_of_ne h hne) hne

/-- The row with the key, and its place. -/
theorem Arrangement.getElem?_arrange (order : Arrangement key) {rows : List α}
    (hnodup : (rows.map key).Nodup) {r : α} (hr : r ∈ rows) :
    ∃ r' ∈ rows, key r' = key r ∧
      (order.arrange rows)[before (rows.map key) (key r)]? = some r' := by
  have hperm := (order.perm rows).map key
  have hget := getElem?_before (order.pairwise_lt hnodup)
    (hperm.mem_iff.mpr (List.mem_map_of_mem hr))
  rw [before, hperm.countP_eq, ← before, List.getElem?_map] at hget
  obtain ⟨r', hr', hkey⟩ := Option.map_eq_some_iff.mp hget
  exact ⟨r', (order.perm rows).mem_iff.mp (List.mem_of_getElem? hr'), hkey, hr'⟩

theorem mem_page {size n i : Nat} {rows : List α} {r : α} (hr : rows[i]? = some r)
    (hlow : n * size ≤ i) (hhigh : i < (n + 1) * size) : r ∈ page size n rows := by
  rw [Nat.succ_mul] at hhigh
  refine List.mem_of_getElem? (i := i - n * size) ?_
  rw [page, List.getElem?_take_of_lt (by omega), List.getElem?_drop,
    Nat.add_sub_cancel' hlow, hr]

/-- **Paging misses no row** that was there at the start, if it goes on to an empty page. -/
theorem mem_page_of_growing {size : Nat} (hsize : 0 < size) {rows : Nat → List α}
    (orders : Nat → Arrangement key) (hnodup : ∀ n, ((rows n).map key).Nodup)
    (hgrow : ∀ n, (rows n).map key ⊆ (rows (n + 1)).map key) {N : Nat}
    (hend : page size N ((orders N).arrange (rows N)) = []) {r : α} (hr : r ∈ rows 0) :
    ∃ n < N, ∃ r' ∈ page size n ((orders n).arrange (rows n)), key r' = key r := by
  have hthere : ∀ n, ∃ r' ∈ rows n, key r' = key r ∧
      ((orders n).arrange (rows n))[before ((rows n).map key) (key r)]? = some r' := by
    intro n
    have hkey : key r ∈ (rows n).map key := by
      induction n with
      | zero => exact List.mem_map_of_mem hr
      | succ n ih => exact hgrow n ih
    obtain ⟨r', hr', heq⟩ := List.mem_map.mp hkey
    obtain ⟨r'', hr'', heq', hget⟩ := (orders n).getElem?_arrange (hnodup n) hr'
    exact ⟨r'', hr'', heq'.trans heq, heq ▸ hget⟩
  have hbehind : before ((rows N).map key) (key r) < N * size := by
    obtain ⟨r', _, _, hget⟩ := hthere N
    by_contra hle
    obtain ⟨hlt, _⟩ := List.getElem?_eq_some_iff.mp hget
    have hlength := congrArg List.length hend
    rw [page, List.length_take, List.length_drop, List.length_nil] at hlength
    omega
  obtain ⟨n, hn, hlow, hhigh⟩ := exists_page_of_le
    (fun n => before ((rows n).map key) (key r)) (fun n => before_le (hnodup n) (hgrow n) _)
    hbehind
  obtain ⟨r', _, hkey, hget⟩ := hthere n
  exact ⟨n, hn, r', mem_page hget hlow hhigh, hkey⟩

end Arrangement

end Paging
