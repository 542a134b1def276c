import Mathlib.Logic.Function.Basic
import Mathlib.Data.List.Infix
import Mathlib.Tactic.Common

/-!
# Objects that transactions create

Transactions create named objects; `held i` is what the transaction `i` has created and not
committed, and `there` what is committed. An object is created by a transaction only if it is
not there and no other transaction holds it, so the holdings are `Exclusive`: creating keeps
that (`Exclusive.update`), and so does committing (`Exclusive.commit`). Where all transactions
create the objects of one list in its order, only one of them can have begun
(`Exclusive.eq_of_prefix`).
-/

namespace Holdings

variable {ι κ : Type*}

/-- No object is created twice. -/
structure Exclusive (held : ι → List κ) (there : List κ) : Prop where
  one : ∀ i j, ∀ k ∈ held i, k ∈ held j → i = j
  new : ∀ i, ∀ k ∈ held i, k ∉ there

variable {held : ι → List κ} {there : List κ}

theorem exclusive_of_nil (h : ∀ i, held i = []) : Exclusive held there := by
  refine ⟨fun i j k hk => ?_, fun i k hk => ?_⟩
  · rw [h i] at hk
    cases hk
  · rw [h i] at hk
    cases hk

/-- If everything is there, nobody holds anything. -/
theorem Exclusive.eq_nil_of_there (h : Exclusive held there) (hall : ∀ k, k ∈ there) (i : ι) :
    held i = [] :=
  List.eq_nil_iff_forall_not_mem.mpr fun k hk => h.new i k hk (hall k)

/-- Of the transactions that go through one list only one has begun. -/
theorem Exclusive.eq_of_prefix (h : Exclusive held there) {l : List κ} {i j : ι}
    (hi : held i <+: l) (hj : held j <+: l) (hine : held i ≠ []) (hjne : held j ≠ []) :
    i = j := by
  obtain ⟨k, hk⟩ := List.exists_mem_of_ne_nil _ hine
  cases l with
  | nil => exact absurd (List.prefix_nil.mp hi) hine
  | cons x l =>
    have hhead : ∀ i, held i <+: x :: l → held i ≠ [] → x ∈ held i := by
      intro i hi hne
      cases hheld : held i with
      | nil => exact absurd hheld hne
      | cons y ys =>
        rw [hheld, List.cons_prefix_cons] at hi
        rw [hi.1]
        exact List.mem_cons_self
    exact h.one i j x (hhead i hi hine) (hhead j hj hjne)

section Update

variable [DecidableEq ι] {i : ι}

theorem Exclusive.update (h : Exclusive held there) {new : List κ}
    (hnew : ∀ k ∈ new, k ∈ held i ∨ (¬ ∃ j, j ≠ i ∧ k ∈ held j) ∧ k ∉ there) :
    Exclusive (Function.update held i new) there := by
  have halone : ∀ j, j ≠ i → ∀ k ∈ new, k ∉ held j := by
    intro j hj k hk hkj
    rcases hnew k hk with hheld | ⟨hfree, _⟩
    · exact hj (h.one j i k hkj hheld)
    · exact hfree ⟨j, hj, hkj⟩
  refine ⟨?_, ?_⟩
  · intro j j' k hk hk'
    by_cases hj : j = i
    · by_cases hj' : j' = i
      · rw [hj, hj']
      · rw [hj, Function.update_self] at hk
        rw [Function.update_of_ne hj'] at hk'
        exact absurd hk' (halone j' hj' k hk)
    · rw [Function.update_of_ne hj] at hk
      by_cases hj' : j' = i
      · rw [hj', Function.update_self] at hk'
        exact absurd hk (halone j hj k hk')
      · rw [Function.update_of_ne hj'] at hk'
        exact h.one j j' k hk hk'
  · intro j k hk
    by_cases hj : j = i
    · rw [hj, Function.update_self] at hk
      rcases hnew k hk with hheld | ⟨_, hnot⟩
      · exact h.new i k hheld
      · exact hnot
    · rw [Function.update_of_ne hj] at hk
      exact h.new j k hk

/-- The transaction ends, and holds nothing any more. -/
theorem Exclusive.release (h : Exclusive held there) :
    Exclusive (Function.update held i []) there :=
  h.update fun _ hk => absurd hk List.not_mem_nil

theorem Exclusive.commit (h : Exclusive held there) :
    Exclusive (Function.update held i []) (there ++ held i) := by
  refine ⟨h.release.one, ?_⟩
  intro j k hk hmem
  by_cases hj : j = i
  · rw [hj, Function.update_self] at hk
    cases hk
  · rw [Function.update_of_ne hj] at hk
    rcases List.mem_append.mp hmem with hthere | hheld
    · exact h.new j k hk hthere
    · exact hj (h.one j i k hk hheld)

end Update

end Holdings
