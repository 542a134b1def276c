import Mathlib.Data.List.Basic
import Mathlib.Data.List.Range
import Mathlib.Data.List.Nodup
import Mathlib.Tactic.Common

/-!
# Cutting a list into batches

`batches m xs` is the list of the slices `xs[i:i+m]` at the multiples `i` of `m` below the
length of `xs`. For `0 < m` the batches concatenate to `xs` (`flatten_batches`), batch `i`
starts at position `i * m` (`getElem?_batches`, `getElem?_getElem_batches`), and for
`2 ≤ m` the only batch of fewer than two elements is the last one of a list whose length is
`1` modulo `m` (`batch_short_iff`, `batches_of_mod_eq_one`).
-/

namespace Batches

variable {α : Type*}

/-- `[xs[i:i+m] for i in range(0, len(xs), m)]`. -/
def batches (m : Nat) (xs : List α) : List (List α) :=
  (List.range' 0 ((xs.length + m - 1) / m) m).map fun i => (xs.drop i).take m

theorem lt_count_iff {m n i : Nat} (hm : 0 < m) : i < (n + m - 1) / m ↔ i * m < n := by
  rw [Nat.lt_iff_add_one_le, Nat.le_div_iff_mul_le hm, Nat.add_mul]
  omega

/-- Batch `i` is the slice of `m` elements at position `i * m`. -/
theorem getElem?_batches {m : Nat} (hm : 0 < m) (xs : List α) (i : Nat) :
    (batches m xs)[i]? =
      if i * m < xs.length then some ((xs.drop (i * m)).take m) else none := by
  unfold batches
  rw [List.getElem?_map]
  by_cases h : i * m < xs.length
  · have hi : i < (xs.length + m - 1) / m := (lt_count_iff hm).mpr h
    rw [if_pos h, List.getElem?_range' hi, Option.map_some, Nat.zero_add, Nat.mul_comm m]
  · have hi : ¬ i < (xs.length + m - 1) / m := fun hi => h ((lt_count_iff hm).mp hi)
    simp [h, hi]

theorem batches_nil (m : Nat) : batches m ([] : List α) = [] := by
  cases m with
  | zero => simp [batches]
  | succ m => simp [batches]

theorem batches_of_ne_nil {m : Nat} (hm : 0 < m) {xs : List α} (hxs : xs ≠ []) :
    batches m xs = xs.take m :: batches m (xs.drop m) := by
  have hpos : 0 < xs.length := List.length_pos_iff.mpr hxs
  apply List.ext_getElem?
  intro i
  cases i with
  | zero => simp [getElem?_batches hm, hpos]
  | succ i =>
    rw [List.getElem?_cons_succ, getElem?_batches hm, getElem?_batches hm, List.length_drop,
      List.drop_drop, Nat.add_mul, Nat.one_mul, Nat.add_comm m]
    by_cases h : i * m + m < xs.length
    · rw [if_pos h, if_pos (by omega)]
    · rw [if_neg h, if_neg (by omega)]

theorem flatten_batches {m : Nat} (hm : 0 < m) (xs : List α) : (batches m xs).flatten = xs := by
  induction h : xs.length using Nat.strong_induction_on generalizing xs with
  | _ n ih =>
    by_cases hxs : xs = []
    · simp [hxs, batches_nil]
    · have hpos : 0 < xs.length := List.length_pos_iff.mpr hxs
      rw [batches_of_ne_nil hm hxs, List.flatten_cons,
        ih (xs.drop m).length (by rw [List.length_drop]; omega) _ rfl, List.take_append_drop]

/-- Element `j` of batch `i` is element `i * m + j` of the list. -/
theorem getElem?_getElem_batches {m : Nat} (hm : 0 < m) {xs : List α} {i : Nat} {b : List α}
    (hb : (batches m xs)[i]? = some b) {j : Nat} (hj : j < m) : b[j]? = xs[i * m + j]? := by
  rw [getElem?_batches hm] at hb
  split at hb
  · cases hb
    simp [hj]
  · cases hb

theorem length_of_getElem?_batches {m : Nat} (hm : 0 < m) {xs : List α} {i : Nat} {b : List α}
    (hb : (batches m xs)[i]? = some b) :
    i * m < xs.length ∧ b.length = min m (xs.length - i * m) := by
  rw [getElem?_batches hm] at hb
  split at hb
  · cases hb
    exact ⟨by assumption, by simp⟩
  · cases hb

theorem batches_map {β : Type*} (f : α → β) (m : Nat) (xs : List α) :
    batches m (xs.map f) = (batches m xs).map (List.map f) := by
  unfold batches
  rw [List.map_map, List.length_map]
  apply List.map_congr_left
  intro i _
  rw [Function.comp_apply, List.map_take, List.map_drop]

theorem length_batches {m : Nat} (xs : List α) :
    (batches m xs).length = (xs.length + m - 1) / m := by
  simp [batches]

/-- For batches of at least two, batch `i` has a single element exactly when it starts at
the last element of the list. -/
theorem batch_short_iff {m : Nat} (hm : 2 ≤ m) {xs : List α} {i : Nat} {b : List α}
    (hb : (batches m xs)[i]? = some b) : b.length < 2 ↔ i * m + 1 = xs.length := by
  have := length_of_getElem?_batches (by omega) hb
  omega

theorem mod_eq_one_of_batch_short {m : Nat} (hm : 2 ≤ m) {xs : List α} {i : Nat} {b : List α}
    (hb : (batches m xs)[i]? = some b) (h : b.length < 2) : xs.length % m = 1 := by
  rw [← (batch_short_iff hm hb).mp h, Nat.mul_comm, Nat.mul_add_mod, Nat.mod_eq_of_lt hm]

/-- Outside the case "length `1` modulo `m`" every batch has at least two elements. -/
theorem two_le_of_mem_batches {m : Nat} (hm : 2 ≤ m) {xs b : List α} (h : xs.length % m ≠ 1)
    (hb : b ∈ batches m xs) : 2 ≤ b.length := by
  obtain ⟨i, hi⟩ := List.mem_iff_getElem?.mp hb
  by_contra hlt
  exact h (mod_eq_one_of_batch_short hm hi (by omega))

/-- In the case "length `1` modulo `m`" the last element alone is the last batch, and the
batches before it are those of the list without it. -/
theorem batches_of_mod_eq_one {m : Nat} (hm : 2 ≤ m) {xs : List α} (h : xs.length % m = 1) :
    batches m xs = batches m (xs.take (xs.length - 1)) ++ [xs.drop (xs.length - 1)] := by
  have hdiv := Nat.div_add_mod xs.length m
  have hmul : xs.length / m * m = xs.length - 1 := by rw [Nat.mul_comm]; omega
  have hlen : (batches m (xs.take (xs.length - 1))).length = xs.length / m := by
    rw [length_batches, List.length_take, Nat.min_eq_left (by omega), ← hmul]
    rw [show xs.length / m * m + m - 1 = (m - 1) + xs.length / m * m by omega,
      Nat.add_mul_div_right _ _ (by omega), Nat.div_eq_of_lt (by omega), Nat.zero_add]
  apply List.ext_getElem?
  intro i
  rcases Nat.lt_trichotomy i (xs.length / m) with hi | rfl | hi
  · have hle : (i + 1) * m ≤ xs.length / m * m := Nat.mul_le_mul_right m hi
    rw [Nat.add_mul, Nat.one_mul] at hle
    rw [List.getElem?_append_left (by omega), getElem?_batches (by omega),
      getElem?_batches (by omega), List.length_take, if_pos (by omega), if_pos (by omega),
      List.drop_take, List.take_take, Nat.min_eq_left (by omega)]
  · rw [List.getElem?_append_right (by omega), hlen, getElem?_batches (by omega),
      if_pos (by omega), Nat.sub_self, hmul]
    simp only [List.getElem?_cons_zero, Option.some.injEq]
    exact List.take_of_length_le (by rw [List.length_drop]; omega)
  · have hle : (xs.length / m + 1) * m ≤ i * m := Nat.mul_le_mul_right m hi
    rw [Nat.add_mul, Nat.one_mul] at hle
    rw [List.getElem?_append_right (by omega), hlen, getElem?_batches (by omega),
      if_neg (by omega), List.getElem?_eq_none (by simp; omega)]

end Batches
