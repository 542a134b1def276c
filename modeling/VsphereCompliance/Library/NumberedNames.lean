import Mathlib.Tactic.Common

/-!
# Names with a number

`numbered s i` is the text `s` followed by a hyphen and the decimal number `i`. The number has
no hyphen, so the text and the number can be read back (`numbered_inj`), whatever hyphens the
text has.
-/

namespace NumberedNames

/-- Two texts that are split by the last `sep` are split alike. -/
theorem append_cons_inj {α : Type*} {sep : α} {u v x y : List α} (hx : sep ∉ x) (hy : sep ∉ y)
    (h : u ++ sep :: x = v ++ sep :: y) : u = v ∧ x = y := by
  induction u generalizing v with
  | nil =>
    cases v with
    | nil => exact ⟨rfl, (List.cons.inj h).2⟩
    | cons b v =>
      obtain ⟨_, htail⟩ := List.cons.inj h
      exact absurd (htail ▸ List.mem_append_right v List.mem_cons_self) hx
  | cons a u ih =>
    cases v with
    | nil =>
      obtain ⟨_, htail⟩ := List.cons.inj h
      exact absurd (htail ▸ List.mem_append_right u List.mem_cons_self) hy
    | cons b v =>
      obtain ⟨rfl, htail⟩ := List.cons.inj h
      obtain ⟨rfl, hxy⟩ := ih htail
      exact ⟨rfl, hxy⟩

theorem hyphen_notMem_toDigits (i : Nat) : '-' ∉ Nat.toDigits 10 i := by
  intro h
  have hdigit := Nat.isDigit_of_mem_toDigits (by decide) (by decide) h
  exact absurd hdigit (by decide)

theorem toDigits_inj {i j : Nat} (h : Nat.toDigits 10 i = Nat.toDigits 10 j) : i = j := by
  rw [← Nat.ofDigitChars_ten_toDigits (n := i), h, Nat.ofDigitChars_ten_toDigits]

/-- `f"{s}-{i}"`. -/
def numbered (s : String) (i : Nat) : String := s ++ "-" ++ toString i

theorem toList_numbered (s : String) (i : Nat) :
    (numbered s i).toList = s.toList ++ '-' :: Nat.toDigits 10 i := by
  simp [numbered]

theorem numbered_inj {s t : String} {i j : Nat} :
    numbered s i = numbered t j ↔ s = t ∧ i = j := by
  constructor
  · intro h
    have hlist := congrArg String.toList h
    rw [toList_numbered, toList_numbered] at hlist
    obtain ⟨hst, hij⟩ :=
      append_cons_inj (hyphen_notMem_toDigits i) (hyphen_notMem_toDigits j) hlist
    exact ⟨String.toList_inj.mp hst, toDigits_inj hij⟩
  · rintro ⟨rfl, rfl⟩
    rfl

end NumberedNames
