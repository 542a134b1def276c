import Mathlib.Logic.Function.Basic
import Mathlib.Tactic.Common

/-!
# Base64 with the URL-safe alphabet

`encode` writes three bytes as four digits of the alphabet `A-Z a-z 0-9 - _` and pads the last
group with `=`; bytes and digits are both octets. `decode` reads what `encode` writes
(`decode_encode`), so no two byte strings have the same encoding (`encode_injective`).
-/

namespace Base64

/-- The octet of `=`. -/
def pad : UInt8 := 61

/-- The digit for a number below 64. -/
def digit (n : Nat) : UInt8 :=
  if n < 26 then UInt8.ofNat (65 + n)
  else if n < 52 then UInt8.ofNat (97 + (n - 26))
  else if n < 62 then UInt8.ofNat (48 + (n - 52))
  else if n = 62 then 45
  else 95

/-- The number of a digit. -/
def value (d : UInt8) : Nat :=
  if d = 45 then 62
  else if d = 95 then 63
  else if d < 65 then d.toNat - 48 + 52
  else if d < 97 then d.toNat - 65
  else d.toNat - 97 + 26

def encode : List UInt8 → List UInt8
  | [] => []
  | [a] => [digit (a.toNat / 4), digit (a.toNat % 4 * 16), pad, pad]
  | [a, b] => [digit (a.toNat / 4), digit (a.toNat % 4 * 16 + b.toNat / 16),
      digit (b.toNat % 16 * 4), pad]
  | a :: b :: c :: rest => digit (a.toNat / 4) :: digit (a.toNat % 4 * 16 + b.toNat / 16) ::
      digit (b.toNat % 16 * 4 + c.toNat / 64) :: digit (c.toNat % 64) :: encode rest

/-- The octets of four digits. -/
def octets (w x y z : Nat) : List UInt8 :=
  [UInt8.ofNat (w * 4 + x / 16), UInt8.ofNat (x % 16 * 16 + y / 4), UInt8.ofNat (y % 4 * 64 + z)]

def decode : List UInt8 → List UInt8
  | w :: x :: y :: z :: rest =>
    if y = pad then (octets (value w) (value x) 0 0).take 1
    else if z = pad then (octets (value w) (value x) (value y) 0).take 2
    else octets (value w) (value x) (value y) (value z) ++ decode rest
  | _ => []

theorem value_digit {n : Nat} (h : n < 64) : value (digit n) = n := by
  have hall : ∀ i : Fin 64, value (digit i) = i := by decide
  exact hall ⟨n, h⟩

theorem digit_ne_pad {n : Nat} (h : n < 64) : digit n ≠ pad := by
  have hall : ∀ i : Fin 64, digit i ≠ pad := by decide
  exact hall ⟨n, h⟩

theorem ofNat_eq {a : UInt8} {n : Nat} (h : n = a.toNat) : UInt8.ofNat n = a := by
  rw [h, UInt8.ofNat_toNat]

/-- The octets of three bytes. -/
theorem octets_eq (a b c : UInt8) :
    octets (a.toNat / 4) (a.toNat % 4 * 16 + b.toNat / 16) (b.toNat % 16 * 4 + c.toNat / 64)
      (c.toNat % 64) = [a, b, c] := by
  have ha := a.toNat_lt
  have hb := b.toNat_lt
  have hc := c.toNat_lt
  unfold octets
  rw [ofNat_eq (a := a) (by omega), ofNat_eq (a := b) (by omega), ofNat_eq (a := c) (by omega)]

/-- Reading back what was written. -/
theorem decode_encode (bytes : List UInt8) : decode (encode bytes) = bytes := by
  induction bytes using encode.induct with
  | case1 => rfl
  | case2 a =>
    have ha := a.toNat_lt
    have hoctets := octets_eq a 0 0
    rw [encode, decode, if_pos rfl, value_digit (by omega), value_digit (by omega)]
    exact congrArg (List.take 1) hoctets
  | case3 a b =>
    have ha := a.toNat_lt
    have hb := b.toNat_lt
    have hoctets := octets_eq a b 0
    rw [encode, decode, if_neg (digit_ne_pad (by omega)), if_pos rfl, value_digit (by omega),
      value_digit (by omega), value_digit (by omega)]
    exact congrArg (List.take 2) hoctets
  | case4 a b c rest ih =>
    have ha := a.toNat_lt
    have hb := b.toNat_lt
    have hc := c.toNat_lt
    rw [encode, decode, if_neg (digit_ne_pad (by omega)), if_neg (digit_ne_pad (by omega)),
      value_digit (by omega), value_digit (by omega), value_digit (by omega),
      value_digit (by omega), octets_eq, ih]
    rfl

theorem encode_injective : Function.Injective encode :=
  Function.LeftInverse.injective decode_encode

end Base64
