import Mathlib.Data.List.DropRight
import Mathlib.Tactic.Common

/-!
# Python strings and their UTF-8 encoding

A Python string is a sequence of code points, lone surrogates among them: the environment and
file names are decoded with surrogates for the bytes that are no UTF-8. `encode` is the method
without arguments, which raises at a surrogate, and `decode` reads back what it wrote
(`decode_encode`). `words` is `split()` on a text without surrogates, and `rsplit` the split at
the last separator.
-/

namespace Python

/-- A Unicode scalar value, or a lone surrogate U+D800 + `n`. -/
inductive CodePoint
  | scalar (c : Char)
  | surrogate (n : Fin 2048)
  deriving DecidableEq, Repr

abbrev Str := List CodePoint

/-- The string without surrogates. -/
def Str.ofString (s : String) : Str := s.toList.map .scalar

/-- `s.encode()`; none where it raises. -/
def encode : Str → Option (List UInt8)
  | [] => some []
  | .scalar c :: s => (encode s).map (String.utf8EncodeChar c ++ ·)
  | .surrogate _ :: _ => none

/-- `b.decode()`; none where it raises. -/
def decode (bytes : List UInt8) : Option Str :=
  bytes.toByteArray.utf8Decode?.map fun cs => cs.toList.map .scalar

/-- A string that can be encoded has no surrogates. -/
theorem encode_eq_some_iff {s : Str} {bytes : List UInt8} :
    encode s = some bytes ↔
      ∃ cs : List Char, s = cs.map .scalar ∧ bytes = cs.flatMap String.utf8EncodeChar := by
  induction s generalizing bytes with
  | nil =>
    refine ⟨?_, ?_⟩
    · intro h
      exact ⟨[], rfl, (Option.some.inj h).symm⟩
    · intro h
      obtain ⟨cs, hs, rfl⟩ := h
      rw [List.map_eq_nil_iff.mp hs.symm]
      rfl
  | cons p s ih =>
    cases p with
    | surrogate n =>
      refine ⟨?_, ?_⟩
      · intro h
        cases h
      · intro h
        obtain ⟨cs, hs, _⟩ := h
        cases cs with
        | nil => cases hs
        | cons c cs => cases hs
    | scalar c =>
      rw [encode, Option.map_eq_some_iff]
      refine ⟨?_, ?_⟩
      · intro h
        obtain ⟨rest, hrest, rfl⟩ := h
        obtain ⟨cs, rfl, rfl⟩ := ih.mp hrest
        exact ⟨c :: cs, rfl, List.flatMap_cons.symm⟩
      · intro h
        obtain ⟨cs, hs, rfl⟩ := h
        cases cs with
        | nil => cases hs
        | cons c' cs =>
          obtain ⟨hc, hrest⟩ := List.cons.inj hs
          obtain rfl := CodePoint.scalar.inj hc
          exact ⟨_, ih.mpr ⟨cs, hrest, rfl⟩, List.flatMap_cons.symm⟩

theorem decode_encode {s : Str} {bytes : List UInt8} (h : encode s = some bytes) :
    decode bytes = some s := by
  obtain ⟨cs, rfl, rfl⟩ := encode_eq_some_iff.mp h
  have hdecode : (cs.flatMap String.utf8EncodeChar).toByteArray.utf8Decode? = some cs.toArray :=
    List.utf8Decode?_utf8Encode
  rw [decode, hdecode]
  rfl

/-! ## Splitting -/

/-- The white space of `str.isspace`. -/
def isSpace (c : Char) : Bool :=
  let n := c.toNat
  (9 ≤ n && n ≤ 13) || (28 ≤ n && n ≤ 32) || n == 0x85 || n == 0xA0 || n == 0x1680 ||
    (0x2000 ≤ n && n ≤ 0x200A) || n == 0x2028 || n == 0x2029 || n == 0x202F || n == 0x205F ||
    n == 0x3000

/-- `s.split()`: the parts between white space that are not empty. -/
def words (cs : List Char) : List (List Char) :=
  (cs.splitOnP isSpace).filter fun w => w ≠ []

/-- `s.rsplit(sep, 1)`: what stands before the last `sep`, if there is one, and after it. -/
def rsplit (sep : CodePoint) (s : Str) : List Str :=
  if sep ∈ s then [(s.rdropWhile (· ≠ sep)).dropLast, s.rtakeWhile (· ≠ sep)] else [s]

theorem rsplit_ne_nil (sep : CodePoint) (s : Str) : rsplit sep s ≠ [] := by
  unfold rsplit
  split <;> simp

/-- What stands after the last separator has none. -/
theorem notMem_getLast_rsplit (sep : CodePoint) (s : Str) :
    sep ∉ (rsplit sep s).getLast (rsplit_ne_nil sep s) := by
  unfold rsplit
  by_cases hsep : sep ∈ s
  · simp only [if_pos hsep, List.getLast_cons_cons, List.getLast_singleton]
    intro hmem
    simpa using List.mem_rtakeWhile_imp hmem
  · simpa only [if_neg hsep, List.getLast_singleton] using hsep

end Python
