import Mathlib.Data.List.Nodup
import Mathlib.Data.List.Range

/-!
# Tables with a generated key

`Table α key` is a list of rows with distinct keys, all of which were drawn from a sequence
that stands at `next`. Inserting rows draws their keys (`insertRows`), deleting rows frees no
key (`filter`), and updating rows keeps the keys (`update`). A key finds at most one row
(`find?_eq_some_iff`).
-/

/-- Rows whose keys are distinct and below the next number of the sequence. -/
structure Table (α : Type*) (key : α → Nat) where
  rows : List α
  next : Nat
  key_lt : ∀ r ∈ rows, key r < next
  nodup : (rows.map key).Nodup

namespace Table

variable {α β γ : Type*} {key : α → Nat}

/-- The empty table; a sequence starts at 1. -/
def empty : Table α key where
  rows := []
  next := 1
  key_lt := fun _ hr => absurd hr List.not_mem_nil
  nodup := List.nodup_nil

/-- The table with one row. -/
def singleton (r : α) : Table α key where
  rows := [r]
  next := key r + 1
  key_lt := fun _ hs => List.mem_singleton.mp hs ▸ Nat.lt_succ_self _
  nodup := List.nodup_singleton _

def find? (t : Table α key) (k : Nat) : Option α := t.rows.find? fun r => key r = k

theorem eq_of_key {t : Table α key} {r s : α} (hr : r ∈ t.rows) (hs : s ∈ t.rows)
    (h : key r = key s) : r = s := List.inj_on_of_nodup_map t.nodup hr hs h

theorem find?_eq_some_iff {t : Table α key} {k : Nat} {r : α} :
    t.find? k = some r ↔ r ∈ t.rows ∧ key r = k := by
  constructor
  · intro h
    exact ⟨List.mem_of_find?_eq_some h, by simpa using List.find?_some h⟩
  · rintro ⟨hr, rfl⟩
    have hsome : (t.find? (key r)).isSome := by
      rw [find?, List.find?_isSome]
      exact ⟨r, hr, by simp⟩
    obtain ⟨s, hs⟩ := Option.isSome_iff_exists.mp hsome
    have hkey : key s = key r := by simpa using List.find?_some hs
    rw [hs, eq_of_key (List.mem_of_find?_eq_some hs) hr hkey]

/-! ## Inserting -/

/-- The rows made of `xs` with the keys from `n` on. -/
def newRows (mk : Nat → β → α) (n : Nat) (xs : List β) : List α :=
  xs.mapIdx fun i x => mk (n + i) x

theorem newRows_cons (mk : Nat → β → α) (n : Nat) (x : β) (xs : List β) :
    newRows mk n (x :: xs) = mk n x :: newRows mk (n + 1) xs := by
  unfold newRows
  rw [List.mapIdx_cons, Nat.add_zero]
  simp only [Nat.add_assoc, Nat.add_comm 1]

/-- A value of the new rows that does not depend on the key. -/
theorem map_newRows {mk : Nat → β → α} {f : α → γ} {g : β → γ}
    (h : ∀ n x, f (mk n x) = g x) (n : Nat) (xs : List β) :
    (newRows mk n xs).map f = xs.map g := by
  induction xs generalizing n with
  | nil => rfl
  | cons x xs ih => rw [newRows_cons, List.map_cons, List.map_cons, h, ih]

theorem mem_newRows {mk : Nat → β → α} {n : Nat} {xs : List β} {r : α}
    (h : r ∈ newRows mk n xs) : ∃ i x, x ∈ xs ∧ i < xs.length ∧ r = mk (n + i) x := by
  obtain ⟨i, hi, rfl⟩ := List.mem_mapIdx.mp h
  exact ⟨i, xs[i], List.getElem_mem hi, hi, rfl⟩

theorem map_key_newRows {mk : Nat → β → α} (hmk : ∀ n x, key (mk n x) = n) (n : Nat)
    (xs : List β) : (newRows mk n xs).map key = List.range' n xs.length := by
  induction xs generalizing n with
  | nil => rfl
  | cons x xs ih =>
    rw [newRows_cons, List.map_cons, hmk, ih, List.length_cons, List.range'_succ]

/-- Insert one row for each `x`, with the next keys in this order. -/
def insertRows (t : Table α key) (mk : Nat → β → α) (hmk : ∀ n x, key (mk n x) = n)
    (xs : List β) : Table α key where
  rows := t.rows ++ newRows mk t.next xs
  next := t.next + xs.length
  key_lt := by
    intro r hr
    rcases List.mem_append.mp hr with hr | hr
    · exact Nat.lt_add_right _ (t.key_lt r hr)
    · obtain ⟨i, x, _, hi, rfl⟩ := mem_newRows hr
      rw [hmk]
      omega
  nodup := by
    rw [List.map_append, map_key_newRows hmk]
    refine List.Nodup.append t.nodup List.nodup_range' ?_
    intro k hk hk'
    obtain ⟨r, hr, rfl⟩ := List.mem_map.mp hk
    have hlt := t.key_lt r hr
    rw [List.mem_range'_1] at hk'
    omega

/-! ## Deleting -/

/-- The rows with `p`; the sequence does not go back. -/
def filter (t : Table α key) (p : α → Bool) : Table α key where
  rows := t.rows.filter p
  next := t.next
  key_lt := fun r hr => t.key_lt r (List.mem_of_mem_filter hr)
  nodup := (List.filter_sublist.map key).nodup t.nodup

/-! ## Updating -/

/-- Apply `f` to the rows with `p`. -/
def update (t : Table α key) (p : α → Bool) (f : α → α) (hf : ∀ r, key (f r) = key r) :
    Table α key where
  rows := t.rows.map fun r => if p r then f r else r
  next := t.next
  key_lt := by
    intro r hr
    obtain ⟨s, hs, rfl⟩ := List.mem_map.mp hr
    split
    · rw [hf]
      exact t.key_lt s hs
    · exact t.key_lt s hs
  nodup := by
    have hkey : key ∘ (fun r => if p r then f r else r) = key := by
      funext r
      dsimp only [Function.comp_apply]
      split
      · exact hf r
      · rfl
    rw [List.map_map, hkey]
    exact t.nodup

theorem find?_update {t : Table α key} {p : α → Bool} {f : α → α}
    {hf : ∀ r, key (f r) = key r} {k : Nat} {r : α} (h : t.find? k = some r) :
    (t.update p f hf).find? k = some (if p r then f r else r) := by
  obtain ⟨hr, hk⟩ := find?_eq_some_iff.mp h
  refine find?_eq_some_iff.mpr ⟨List.mem_map_of_mem hr, ?_⟩
  split
  · rw [hf, hk]
  · exact hk

/-- Updating the new rows leaves the others alone. -/
theorem rows_update_insertRows {t : Table α key} {mk : Nat → β → α}
    (hmk : ∀ n x, key (mk n x) = n) {xs : List β} {p : α → Bool} {f : α → α}
    (hf : ∀ r, key (f r) = key r) (hold : ∀ r ∈ t.rows, p r = false)
    (hnew : ∀ r ∈ newRows mk t.next xs, p r = true) :
    ((t.insertRows mk hmk xs).update p f hf).rows = t.rows ++ (newRows mk t.next xs).map f := by
  show (t.rows ++ newRows mk t.next xs).map (fun r => if p r then f r else r) = _
  rw [List.map_append]
  congr 1
  · conv_rhs => rw [← List.map_id t.rows]
    apply List.map_congr_left
    intro r hr
    rw [hold r hr]
    rfl
  · apply List.map_congr_left
    intro r hr
    rw [hnew r hr]
    rfl

/-! ## What a key finds -/

theorem find?_eq_none_iff {t : Table α key} {k : Nat} :
    t.find? k = none ↔ ∀ r ∈ t.rows, key r ≠ k := by
  unfold find?
  rw [List.find?_eq_none]
  simp only [decide_eq_true_eq, ne_eq]

theorem find?_updateKey (t : Table α key) (n : Nat) (f : α → α) (hf : ∀ r, key (f r) = key r)
    (k : Nat) : (t.update (fun r => key r = n) f hf).find? k =
      if k = n then (t.find? k).map f else t.find? k := by
  cases hk : t.find? k with
  | none =>
    rw [Option.map_none, ite_self, find?_eq_none_iff]
    intro r hr
    obtain ⟨s, hs, rfl⟩ := List.mem_map.mp hr
    have hne := find?_eq_none_iff.mp hk s hs
    split
    · rw [hf]
      exact hne
    · exact hne
  | some r =>
    obtain ⟨_, rfl⟩ := find?_eq_some_iff.mp hk
    rw [find?_update hk, Option.map_some]
    simp only [decide_eq_true_eq]
    split
    · rfl
    · rfl

theorem find?_insertRow (t : Table α key) (mk : Nat → β → α) (hmk : ∀ n x, key (mk n x) = n)
    (x : β) (k : Nat) : (t.insertRows mk hmk [x]).find? k =
      if k = t.next then some (mk t.next x) else t.find? k := by
  have hnew : newRows mk t.next [x] = [mk t.next x] := rfl
  unfold find? insertRows
  dsimp only
  rw [hnew, List.find?_append]
  by_cases hk : k = t.next
  · subst hk
    have hnone : t.find? t.next = none :=
      find?_eq_none_iff.mpr fun r hr => Nat.ne_of_lt (t.key_lt r hr)
    rw [if_pos rfl, show t.rows.find? _ = none from hnone]
    simp [hmk]
  · rw [if_neg hk, List.find?_singleton, hmk, if_neg (by simpa using Ne.symm hk), Option.or_none]

theorem find?_filter_ne (t : Table α key) (n k : Nat) :
    (t.filter fun r => key r ≠ n).find? k = if k = n then none else t.find? k := by
  unfold find? filter
  dsimp only
  rw [List.find?_filter]
  by_cases hk : k = n
  · subst hk
    rw [if_pos rfl, List.find?_eq_none]
    simp
  · rw [if_neg hk]
    congr 1
    funext r
    by_cases hr : key r = k
    · subst hr
      simp [hk]
    · simp [hr]

end Table
