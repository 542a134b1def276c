import Mathlib.Data.List.Infix
import Mathlib.Tactic.Common

/-!
# Replacing a substring

`replace` is Python's `str.replace` for a non-empty `old`: it goes through the text from left
to right and does not look into what it has replaced. A character that does not occur in `old`
separates what stands before it from what stands behind it (`replace_append_cons`).
-/

namespace TextReplace

variable (old new : List Char)

/-- Replace behind `k` characters of an occurrence that was replaced already. -/
def replaceFrom : Nat → List Char → List Char
  | _, [] => []
  | k + 1, _ :: cs => replaceFrom k cs
  | 0, c :: cs =>
    if old.isPrefixOf (c :: cs) then new ++ replaceFrom (old.length - 1) cs
    else c :: replaceFrom 0 cs

def replace (s : List Char) : List Char := replaceFrom old new 0 s

variable {old new}

theorem isPrefixOf_append_cons {c : Char} (hc : c ∉ old) (xs ys : List Char) :
    old.isPrefixOf (xs ++ c :: ys) = old.isPrefixOf xs := by
  rw [Bool.eq_iff_iff, List.isPrefixOf_iff_prefix, List.isPrefixOf_iff_prefix]
  refine ⟨?_, fun h => h.trans (List.prefix_append _ _)⟩
  intro h
  rcases Nat.lt_or_ge xs.length old.length with hlt | hle
  · obtain ⟨t, ht⟩ := h
    have hmem : c ∈ old := by
      have hget := congrArg (fun l => l[xs.length]?) ht
      simp only [List.getElem?_append_left hlt, List.getElem?_append_right (Nat.le_refl _),
        Nat.sub_self, List.getElem?_cons_zero] at hget
      exact List.mem_of_getElem? hget
    exact absurd hmem hc
  · exact List.prefix_of_prefix_length_le h (List.prefix_append _ _) hle

theorem replaceFrom_append_cons {c : Char} (hc : c ∉ old) {k : Nat} {xs : List Char}
    (ys : List Char) (hne : old ≠ []) (hk : k ≤ xs.length) :
    replaceFrom old new k (xs ++ c :: ys) =
      replaceFrom old new k xs ++ c :: replaceFrom old new 0 ys := by
  induction xs generalizing k with
  | nil =>
    obtain rfl := Nat.le_zero.mp hk
    have hstart := isPrefixOf_append_cons hc [] ys
    have hnil : old.isPrefixOf [] = false := by
      cases old with
      | nil => exact absurd rfl hne
      | cons o os => rfl
    rw [hnil] at hstart
    show replaceFrom old new 0 (c :: ys) = c :: replaceFrom old new 0 ys
    rw [replaceFrom, if_neg (by rw [show old.isPrefixOf (c :: ys) = false from hstart]; decide)]
  | cons x xs ih =>
    cases k with
    | succ k => exact ih (Nat.le_of_succ_le_succ hk)
    | zero =>
      have hstart := isPrefixOf_append_cons hc (x :: xs) ys
      rw [List.cons_append] at hstart ⊢
      rw [replaceFrom, replaceFrom, hstart]
      by_cases h : old.isPrefixOf (x :: xs) = true
      · have hlength := (List.isPrefixOf_iff_prefix.mp h).length_le
        rw [List.length_cons] at hlength
        rw [if_pos h, if_pos h, ih (by omega), List.append_assoc]
      · rw [if_neg h, if_neg h, ih (Nat.zero_le _), List.cons_append]

/-- **A character outside of `old` separates the text.** -/
theorem replace_append_cons {c : Char} (hc : c ∉ old) (hne : old ≠ []) (xs ys : List Char) :
    replace old new (xs ++ c :: ys) = replace old new xs ++ c :: replace old new ys :=
  replaceFrom_append_cons hc ys hne (Nat.zero_le _)

theorem replace_cons {c : Char} (hc : c ∉ old) (hne : old ≠ []) (ys : List Char) :
    replace old new (c :: ys) = c :: replace old new ys := replace_append_cons hc hne [] ys

/-- A text without `old` stays. -/
theorem replace_of_not_infix {s : List Char} (h : ¬ old <:+: s) : replace old new s = s := by
  induction s with
  | nil => rfl
  | cons c s ih =>
    have hstart : ¬ old.isPrefixOf (c :: s) = true := by
      rw [List.isPrefixOf_iff_prefix]
      exact fun hpre => h hpre.isInfix
    have hrest := ih fun hocc => h (hocc.trans (List.suffix_cons c s).isInfix)
    rw [replace, replaceFrom, if_neg hstart]
    exact congrArg (List.cons c) hrest

theorem replaceFrom_length (s : List Char) : replaceFrom old new s.length s = [] := by
  induction s with
  | nil => rfl
  | cons c s ih => exact ih

theorem replace_self (hne : old ≠ []) : replace old new old = new := by
  have hstart : ∀ s : List Char, s.isPrefixOf s = true := fun s =>
    List.isPrefixOf_iff_prefix.mpr (List.prefix_refl s)
  cases old with
  | nil => exact absurd rfl hne
  | cons c s =>
    rw [replace, replaceFrom, if_pos (hstart _), List.length_cons, Nat.add_sub_cancel,
      replaceFrom_length, List.append_nil]

theorem replaceFrom_append (xs ys : List Char) :
    replaceFrom old new xs.length (xs ++ ys) = replaceFrom old new 0 ys := by
  induction xs with
  | nil => rfl
  | cons x xs ih => exact ih

/-- An occurrence at the beginning is replaced. -/
theorem replace_append_of_start (hne : old ≠ []) (s : List Char) :
    replace old new (old ++ s) = new ++ replace old new s := by
  cases old with
  | nil => exact absurd rfl hne
  | cons c cs =>
    have hstart : (c :: cs).isPrefixOf (c :: (cs ++ s)) = true :=
      List.isPrefixOf_iff_prefix.mpr (List.prefix_append _ _)
    rw [replace, List.cons_append, replaceFrom, if_pos hstart]
    exact congrArg (new ++ ·) (replaceFrom_append cs s)

/-- A text in which no occurrence can begin stays in front. -/
theorem replace_append_of_notMem {c : Char} {rest s : List Char} (hs : c ∉ s) (t : List Char) :
    replace (c :: rest) new (s ++ t) = s ++ replace (c :: rest) new t := by
  induction s with
  | nil => rfl
  | cons x s ih =>
    have hx : c ≠ x := fun heq => hs (heq ▸ List.mem_cons_self)
    have hstart : ¬ (c :: rest).isPrefixOf (x :: (s ++ t)) = true := by
      rw [List.isPrefixOf_iff_prefix, List.cons_prefix_cons]
      exact fun h => hx h.1
    have hrest := ih fun hc => hs (List.mem_cons_of_mem x hc)
    rw [List.cons_append, replace, replaceFrom, if_neg hstart]
    exact congrArg (List.cons x) hrest

/-- A text that lacks a character of `old` stays. -/
theorem replace_of_notMem {c : Char} {s : List Char} (hc : c ∈ old) (hs : c ∉ s) :
    replace old new s = s :=
  replace_of_not_infix fun h => hs (h.subset hc)

end TextReplace
