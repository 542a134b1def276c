import Mathlib.Data.List.Basic
import Mathlib.Data.List.Nodup
import Mathlib.Tactic.Common

/-!
# Colouring disjoint lists

Lists that together repeat nothing can be coloured at once, so that no list has two elements
of one colour, with as many colours as the longest list is long (`exists_colouring`): the
elements of a list take the first colours in turn.
-/

namespace Colouring

variable {α β : Type*} [DecidableEq α]

/-- The element of `g` at position `i` takes the colour number `i`. -/
def inTurn (g : List α) (colours : List β) (other : α → β) (a : α) : β :=
  if a ∈ g then (colours[g.idxOf a]?).getD (other a) else other a

theorem inTurn_of_notMem {g : List α} {colours : List β} {other : α → β} {a : α} (h : a ∉ g) :
    inTurn g colours other a = other a := if_neg h

theorem inTurn_mem {g : List α} {colours : List β} {other : α → β} {a : α}
    (h : other a ∈ colours) : inTurn g colours other a ∈ colours := by
  unfold inTurn
  split
  · cases hget : colours[g.idxOf a]? with
    | none => exact h
    | some b => exact List.mem_of_getElem? hget
  · exact h

/-- A list without repetitions shows the first colours. -/
theorem map_inTurn {g : List α} {colours : List β} (other : α → β) (hg : g.Nodup)
    (hlen : g.length ≤ colours.length) :
    g.map (inTurn g colours other) = colours.take g.length := by
  apply List.ext_getElem
  · rw [List.length_map, List.length_take]
    omega
  · intro i hi hi'
    rw [List.length_map] at hi
    have hget : colours[i]? = some colours[i] := List.getElem?_eq_getElem (by omega)
    rw [List.getElem_map, List.getElem_take, inTurn, if_pos (List.getElem_mem hi),
      hg.idxOf_getElem i hi, hget, Option.getD_some]

/-- **Disjoint lists can be coloured** with as many colours as each of them is long. -/
theorem exists_colouring {colours : List β} (hne : colours ≠ []) (hcolours : colours.Nodup)
    {groups : List (List α)} (hdis : groups.flatten.Nodup)
    (hlen : ∀ g ∈ groups, g.length ≤ colours.length) :
    ∃ colour : α → β, (∀ a, colour a ∈ colours) ∧ ∀ g ∈ groups, (g.map colour).Nodup := by
  induction groups with
  | nil =>
    obtain ⟨b, hb⟩ := List.exists_mem_of_ne_nil colours hne
    exact ⟨fun _ => b, fun _ => hb, fun g hg => absurd hg List.not_mem_nil⟩
  | cons g groups ih =>
    rw [List.flatten_cons, List.nodup_append] at hdis
    obtain ⟨hg, hrest, hapart⟩ := hdis
    obtain ⟨other, hmem, hother⟩ := ih hrest fun g' hg' => hlen g' (List.mem_cons_of_mem _ hg')
    refine ⟨inTurn g colours other, fun a => inTurn_mem (hmem a), ?_⟩
    intro g' hg'
    rcases List.mem_cons.mp hg' with rfl | hg'
    · rw [map_inTurn other hg (hlen _ List.mem_cons_self)]
      exact hcolours.sublist (List.take_sublist _ _)
    · -- the other lists keep their colours
      have hkeep : g'.map (inTurn g colours other) = g'.map other := by
        apply List.map_congr_left
        intro a ha
        apply inTurn_of_notMem
        intro hag
        exact hapart a hag a (List.mem_flatten.mpr ⟨g', hg', ha⟩) rfl
      rw [hkeep]
      exact hother g' hg'

end Colouring
