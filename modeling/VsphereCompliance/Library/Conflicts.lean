import Mathlib.Data.Set.Basic
import Mathlib.Data.Option.Basic
import Mathlib.Logic.Function.Basic

/-!
# Conflicts of items over shared resources

Items are placed in groups and occupy sets of resources. Two different items of one group
are in conflict when their resources meet. Replacing the resources of one item `x` by `S`
changes no conflict between other items (`conflict_update_of_ne`) and leaves `x` in conflict
exactly with the members of its group that occupy a resource of `S`
(`conflict_update_self`).
-/

namespace Conflicts

variable {ι ρ κ : Type*}

/-- `a` and `b` are different items of one group and occupy a common resource. -/
def Conflict (group : ι → Option κ) (uses : ι → Set ρ) (a b : ι) : Prop :=
  a ≠ b ∧ (∃ k, group a = some k ∧ group b = some k) ∧ (uses a ∩ uses b).Nonempty

theorem Conflict.symm {group : ι → Option κ} {uses : ι → Set ρ} {a b : ι}
    (h : Conflict group uses a b) : Conflict group uses b a := by
  obtain ⟨hne, ⟨k, ha, hb⟩, r, hra, hrb⟩ := h
  exact ⟨hne.symm, ⟨k, hb, ha⟩, r, hrb, hra⟩

variable [DecidableEq ι] {group : ι → Option κ} {uses : ι → Set ρ} {x : ι} {S : Set ρ}

theorem conflict_update_of_ne {a b : ι} (ha : a ≠ x) (hb : b ≠ x) :
    Conflict group (Function.update uses x S) a b ↔ Conflict group uses a b := by
  unfold Conflict
  rw [Function.update_of_ne ha, Function.update_of_ne hb]

theorem conflict_update_self {a : ι} (ha : a ≠ x) :
    Conflict group (Function.update uses x S) a x ↔
      (∃ k, group a = some k ∧ group x = some k) ∧ (uses a ∩ S).Nonempty := by
  unfold Conflict
  rw [Function.update_of_ne ha, Function.update_self]
  exact ⟨fun h => h.2, fun h => ⟨ha, h⟩⟩

/-- A conflict that the replacement creates is one of `x` with a member of its group that
occupies a resource of `S`. -/
theorem conflict_of_update {a b : ι} (h : Conflict group (Function.update uses x S) a b)
    (hold : ¬ Conflict group uses a b) :
    (a = x ∧ b ≠ x ∧ (uses b ∩ S).Nonempty) ∨ (b = x ∧ a ≠ x ∧ (uses a ∩ S).Nonempty) := by
  by_cases ha : a = x
  · subst ha
    have hb : b ≠ a := h.1.symm
    exact Or.inl ⟨rfl, hb, ((conflict_update_self hb).mp h.symm).2⟩
  · by_cases hb : b = x
    · subst hb
      exact Or.inr ⟨rfl, ha, ((conflict_update_self ha).mp h).2⟩
    · exact absurd ((conflict_update_of_ne ha hb).mp h) hold

end Conflicts
