import Mathlib.Data.List.Infix
import Mathlib.Tactic.Common

/-!
# Splitting at a separator

`split` is Python's `str.split` with a non-empty separator: it goes through the text from left
to right and does not look into a separator that it has found. In front of a separator whose
first character does not occur there is one piece (`split_append`).
-/

namespace TextSplit

variable (sep : List Char)

/-- A character in front of the first piece. -/
def consPiece (c : Char) : List (List Char) → List (List Char)
  | [] => [[c]]
  | piece :: pieces => (c :: piece) :: pieces

/-- Split behind `k` characters of a separator that was found already. -/
def splitFrom : Nat → List Char → List (List Char)
  | _, [] => [[]]
  | k + 1, _ :: cs => splitFrom k cs
  | 0, c :: cs =>
    if sep.isPrefixOf (c :: cs) then [] :: splitFrom (sep.length - 1) cs
    else consPiece c (splitFrom 0 cs)

def split (s : List Char) : List (List Char) := splitFrom sep 0 s

variable {sep} {c : Char} {rest : List Char}

theorem splitFrom_ne_nil (k : Nat) (s : List Char) : splitFrom sep k s ≠ [] := by
  induction s generalizing k with
  | nil => cases k <;> simp [splitFrom]
  | cons c s ih =>
    cases k with
    | zero =>
      rw [splitFrom]
      split
      · exact List.cons_ne_nil _ _
      · cases h : splitFrom sep 0 s with
        | nil => exact absurd h (ih 0)
        | cons piece pieces => exact List.cons_ne_nil _ _
    | succ k => exact ih k

theorem split_ne_nil (s : List Char) : split sep s ≠ [] := splitFrom_ne_nil 0 s

theorem splitFrom_length (xs ys : List Char) :
    splitFrom sep xs.length (xs ++ ys) = splitFrom sep 0 ys := by
  induction xs with
  | nil => rfl
  | cons x xs ih => exact ih

theorem isPrefixOf_cons_of_ne {x : Char} (hx : x ≠ c) (xs : List Char) :
    (c :: rest).isPrefixOf (x :: xs) = false := by
  have hne : (c == x) = false := beq_false_of_ne (Ne.symm hx)
  rw [List.isPrefixOf_cons_cons, hne, Bool.false_and]

/-- A text without the first character of the separator is one piece. -/
theorem split_of_notMem {s : List Char} (h : c ∉ s) : split (c :: rest) s = [s] := by
  induction s with
  | nil => rfl
  | cons x s ih =>
    have hx : x ≠ c := fun heq => h (heq ▸ List.mem_cons_self)
    have hs := ih fun hc => h (List.mem_cons_of_mem x hc)
    unfold split at hs ⊢
    rw [splitFrom, isPrefixOf_cons_of_ne hx, if_neg Bool.false_ne_true, hs]
    rfl

/-- **The piece in front of a separator.** -/
theorem split_append {s : List Char} (h : c ∉ s) (t : List Char) :
    split (c :: rest) (s ++ (c :: rest) ++ t) = s :: split (c :: rest) t := by
  induction s with
  | nil =>
    have hstart : (c :: rest).isPrefixOf (c :: (rest ++ t)) = true :=
      List.isPrefixOf_iff_prefix.mpr (List.prefix_append _ _)
    show splitFrom (c :: rest) 0 (c :: (rest ++ t)) = _
    rw [splitFrom, if_pos hstart]
    exact congrArg (List.cons []) (splitFrom_length rest t)
  | cons x s ih =>
    have hx : x ≠ c := fun heq => h (heq ▸ List.mem_cons_self)
    have hs := ih fun hc => h (List.mem_cons_of_mem x hc)
    unfold split at hs ⊢
    rw [List.cons_append, List.cons_append, splitFrom, isPrefixOf_cons_of_ne hx,
      if_neg Bool.false_ne_true, hs]
    rfl

end TextSplit
