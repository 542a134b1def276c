import Mathlib.Data.Finset.Card
import Mathlib.Data.List.Sort
import Mathlib.Data.String.Basic
import Mathlib.Algebra.BigOperators.Group.Finset.Basic
import Mathlib.Algebra.Ring.Nat
import Mathlib.Tactic.Common

/-!
# Listing a finite set in an unspecified order

A program that turns a set into a list gets every element once, in an order that the
language does not fix. `SetOrder` is one such choice; a statement proved for every
`SetOrder` does not depend on it. The length of a joined listing is an example
(`length_intercalate_toList`): it is `joinedLength` of the set, in whatever order the
elements come.
-/

/-- A way of listing finite sets: every element once. -/
structure SetOrder (α : Type*) [DecidableEq α] where
  toList : Finset α → List α
  nodup : ∀ s, (toList s).Nodup
  mem_toList : ∀ s x, x ∈ toList s ↔ x ∈ s

namespace SetOrder

variable {α : Type*} [DecidableEq α] (order : SetOrder α)

theorem toFinset_toList (s : Finset α) : (order.toList s).toFinset = s := by
  ext x
  rw [List.mem_toFinset, order.mem_toList]

theorem length_toList (s : Finset α) : (order.toList s).length = s.card := by
  rw [← List.toFinset_card_of_nodup (order.nodup s), toFinset_toList]

theorem sum_map_toList (s : Finset α) (f : α → Nat) :
    ((order.toList s).map f).sum = ∑ x ∈ s, f x := by
  rw [← List.sum_toFinset f (order.nodup s), toFinset_toList]

/-- The listing in increasing order. -/
def sorted (α : Type*) [LinearOrder α] : SetOrder α where
  toList s := Quot.liftOn s.val (List.insertionSort (· ≤ ·)) fun l l' h =>
    List.Perm.eq_of_pairwise (fun _ _ _ _ => le_antisymm)
      (List.pairwise_insertionSort _ _) (List.pairwise_insertionSort _ _)
      ((List.perm_insertionSort _ l).trans (h.trans (List.perm_insertionSort _ l').symm))
  nodup s := by
    obtain ⟨⟨l⟩, hl⟩ := s
    exact (List.perm_insertionSort _ l).nodup_iff.mpr hl
  mem_toList s x := by
    obtain ⟨⟨l⟩, hl⟩ := s
    exact (List.perm_insertionSort _ l).mem_iff

end SetOrder

/-! ## Joined strings -/

theorem length_intercalate (sep : String) (xs : List String) :
    (sep.intercalate xs).length = (xs.map String.length).sum + sep.length * (xs.length - 1) := by
  match xs with
  | [] => simp
  | [x] => simp
  | x :: y :: xs =>
    rw [String.intercalate_cons_cons, String.length_append, String.length_append,
      length_intercalate sep (y :: xs)]
    simp only [List.map_cons, List.sum_cons, List.length_cons, Nat.add_sub_cancel]
    rw [Nat.mul_add]
    omega

/-- The length of the elements of `s` joined with a separator of `n` characters. -/
def joinedLength (n : Nat) (s : Finset String) : Nat := ∑ x ∈ s, x.length + n * (s.card - 1)

theorem length_intercalate_toList (order : SetOrder String) (sep : String) (s : Finset String) :
    (sep.intercalate (order.toList s)).length = joinedLength sep.length s := by
  rw [length_intercalate, order.sum_map_toList, order.length_toList, joinedLength]

/-- The same for two listings put one after the other. -/
def joinedLength₂ (n : Nat) (s t : Finset String) : Nat :=
  ∑ x ∈ s, x.length + ∑ x ∈ t, x.length + n * (s.card + t.card - 1)

theorem length_intercalate_toList_append (order : SetOrder String) (sep : String)
    (s t : Finset String) :
    (sep.intercalate (order.toList s ++ order.toList t)).length =
      joinedLength₂ sep.length s t := by
  rw [length_intercalate, List.map_append, List.sum_append, List.length_append,
    order.sum_map_toList, order.sum_map_toList, order.length_toList, order.length_toList,
    joinedLength₂]
