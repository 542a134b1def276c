import Mathlib.Data.List.Nodup
import Mathlib.Data.List.Perm.Basic
import Mathlib.Tactic.Common

/-!
# The pairs of a double index loop

`pairs xs` lists `(xs[i], xs[j])` for all positions `i < j`, in the order of the loop
`for i in range(n): for j in range(i + 1, n)`. A pair is listed exactly when its components
occur in this order (`mem_pairs_iff`), so over a list without repetitions every two elements
give one pair, in one of the two orders (`pairs_total`, `pairs_asymm`, `pairs_nodup`).
-/

namespace OrderedPairs

variable {α β : Type*}

/-- `[(xs[i], xs[j]) for i in range(n) for j in range(i + 1, n)]`. -/
def pairs : List α → List (α × α)
  | [] => []
  | x :: xs => xs.map (fun y => (x, y)) ++ pairs xs

theorem mem_pairs_iff {xs : List α} {a b : α} : (a, b) ∈ pairs xs ↔ [a, b].Sublist xs := by
  induction xs with
  | nil => simp [pairs]
  | cons x xs ih =>
    rw [pairs, List.mem_append, ih, List.mem_map]
    constructor
    · rintro (⟨y, hy, heq⟩ | h)
      · cases heq
        exact (List.singleton_sublist.mpr hy).cons_cons _
      · exact h.cons _
    · intro h
      cases h with
      | cons _ h => exact Or.inr h
      | cons_cons _ h => exact Or.inl ⟨b, List.singleton_sublist.mp h, rfl⟩

theorem mem_of_mem_pairs {xs : List α} {a b : α} (h : (a, b) ∈ pairs xs) : a ∈ xs ∧ b ∈ xs := by
  have hs := (mem_pairs_iff.mp h).subset
  exact ⟨hs (by simp), hs (by simp)⟩

theorem pairs_map (f : α → β) (xs : List α) :
    pairs (xs.map f) = (pairs xs).map fun p => (f p.1, f p.2) := by
  induction xs with
  | nil => rfl
  | cons x xs ih => simp [pairs, ih]

theorem pairs_of_length_lt_two {xs : List α} (h : xs.length < 2) : pairs xs = [] := by
  match xs, h with
  | [], _ => rfl
  | [_], _ => rfl

/-- Any two distinct elements are paired in one of the two orders. -/
theorem pairs_total {xs : List α} {a b : α} (ha : a ∈ xs) (hb : b ∈ xs) (hne : a ≠ b) :
    (a, b) ∈ pairs xs ∨ (b, a) ∈ pairs xs := by
  induction xs with
  | nil => cases ha
  | cons x xs ih =>
    simp only [pairs, List.mem_append, List.mem_map, Prod.mk.injEq]
    rcases List.mem_cons.mp ha with hax | ha'
    · rcases List.mem_cons.mp hb with hbx | hb'
      · exact absurd (hax.trans hbx.symm) hne
      · exact Or.inl (Or.inl ⟨b, hb', hax.symm, rfl⟩)
    · rcases List.mem_cons.mp hb with hbx | hb'
      · exact Or.inr (Or.inl ⟨a, ha', hbx.symm, rfl⟩)
      · exact (ih ha' hb').imp Or.inr Or.inr

section Nodup

variable {xs : List α} (h : xs.Nodup)
include h

theorem ne_of_mem_pairs {a b : α} (hp : (a, b) ∈ pairs xs) : a ≠ b := by
  rintro rfl
  have := (mem_pairs_iff.mp hp).nodup h
  simp at this

theorem pairs_asymm {a b : α} (hp : (a, b) ∈ pairs xs) : (b, a) ∉ pairs xs := by
  induction xs with
  | nil => simp [pairs] at hp
  | cons x xs ih =>
    obtain ⟨hx, hnd⟩ := List.nodup_cons.mp h
    simp only [pairs, List.mem_append, List.mem_map, Prod.mk.injEq] at hp ⊢
    rintro (⟨y, hy, rfl, rfl⟩ | hq)
    · rcases hp with ⟨z, hz, rfl, rfl⟩ | hp
      · exact hx hz
      · exact hx (mem_of_mem_pairs hp).2
    · rcases hp with ⟨z, hz, rfl, rfl⟩ | hp
      · exact hx (mem_of_mem_pairs hq).2
      · exact ih hnd hp hq

theorem pairs_nodup : (pairs xs).Nodup := by
  induction xs with
  | nil => exact List.nodup_nil
  | cons x xs ih =>
    obtain ⟨hx, hnd⟩ := List.nodup_cons.mp h
    refine List.nodup_append.mpr ⟨hnd.map (fun _ _ he => (Prod.mk.inj he).2), ih hnd, ?_⟩
    rintro p hp q hq rfl
    obtain ⟨y, _, rfl⟩ := List.mem_map.mp hp
    exact hx (mem_of_mem_pairs hq).1

theorem filter_pairs_eq [DecidableEq α] {a b : α} (hp : (a, b) ∈ pairs xs) :
    (pairs xs).filter (fun p => p = (a, b)) = [(a, b)] := by
  rw [List.filter_eq, List.count_eq_one_of_mem (pairs_nodup h) hp]
  rfl

/-- A symmetric relation holds of all pairs exactly when it holds of any two elements. -/
theorem forall_pairs_iff {Q : α → α → Prop} (hsymm : ∀ a b, Q a b → Q b a) :
    (∀ p ∈ pairs xs, Q p.1 p.2) ↔ ∀ a ∈ xs, ∀ b ∈ xs, a ≠ b → Q a b := by
  constructor
  · intro hall a ha b hb hne
    rcases pairs_total ha hb hne with hp | hp
    · exact hall _ hp
    · exact hsymm _ _ (hall _ hp)
  · intro hall p hp
    have hmem := mem_of_mem_pairs hp
    exact hall _ hmem.1 _ hmem.2 (ne_of_mem_pairs h hp)

end Nodup

end OrderedPairs
