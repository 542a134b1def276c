import Mathlib.Data.List.Infix
import Mathlib.Tactic.Common

/-!
# LDAP search filters as strings (RFC 4515)

`Filter` is a search filter and `parse` reads its string representation. Assertion values are
octet strings: a character stands for its UTF-8 octets, `\hh` for one octet. The characters
`( ) * \` and NUL cannot stand for themselves (`Plain`).

`Filter.eval` evaluates a filter, in three-valued logic, from the values of its assertions.

`readFilters` reads the filters that a string starts with; `readFilters_paren` is its
equation, and `readFilters_append` says that what follows the filters does not change them.
-/

namespace SearchFilter

inductive Comparison
  | equal
  | approx
  | greater
  | less
  deriving DecidableEq, Repr

/-- The assertions that a filter is made of. -/
inductive Item
  | compare (attr : List Char) (comparison : Comparison) (value : List UInt8)
  | present (attr : List Char)
  | substrings (attr : List Char) (first : List UInt8) (any : List (List UInt8))
      (final : List UInt8)
  | extensible (attr : List Char) (dn : Bool) (rule : Option (List Char)) (value : List UInt8)
  deriving DecidableEq, Repr

inductive Filter
  | item (i : Item)
  | and (fs : List Filter)
  | or (fs : List Filter)
  | not (f : Filter)

/-! ## Values -/

/-- The octets of a text. -/
def utf8 (cs : List Char) : List UInt8 := cs.flatMap String.utf8EncodeChar

/-- The characters that a value cannot hold as themselves. -/
def Special (c : Char) : Prop := c = '(' ∨ c = ')' ∨ c = '*' ∨ c = '\\' ∨ c = '\x00'

instance (c : Char) : Decidable (Special c) := inferInstanceAs (Decidable (_ ∨ _))

/-- The text holds no special character. -/
def Plain (cs : List Char) : Prop := ∀ c ∈ cs, ¬ Special c

instance (cs : List Char) : Decidable (Plain cs) := List.decidableBAll _ cs

def hexValue (c : Char) : Option Nat :=
  if '0' ≤ c ∧ c ≤ '9' then some (c.toNat - 48)
  else if 'A' ≤ c ∧ c ≤ 'F' then some (c.toNat - 55)
  else if 'a' ≤ c ∧ c ≤ 'f' then some (c.toNat - 87)
  else none

/-- Put octets before the first piece. -/
def push (octets : List UInt8) : List (List UInt8) → List (List UInt8)
  | [] => [octets]
  | p :: ps => (octets ++ p) :: ps

/-- Read a value up to a parenthesis, NUL or the end: the pieces between the stars, and the
rest. -/
def scan : List Char → Option (List (List UInt8) × List Char)
  | [] => some ([[]], [])
  | c :: cs =>
    if c = '\\' then
      match cs with
      | h :: l :: cs =>
        (hexValue h).bind fun a => (hexValue l).bind fun b =>
          (scan cs).map fun r => (push [UInt8.ofNat (a * 16 + b)] r.1, r.2)
      | _ => none
    else if c = '*' then (scan cs).map fun r => ([] :: r.1, r.2)
    else if Special c then some ([[]], c :: cs)
    else (scan cs).map fun r => (push (String.utf8EncodeChar c) r.1, r.2)

/-! ## Items -/

/-- `keychar`. -/
def isKeyChar (c : Char) : Bool := c.isAlphanum || c == '-'

/-- `descr`: a letter and then key characters. -/
def isDescr : List Char → Bool
  | [] => false
  | c :: cs => c.isAlpha && cs.all isKeyChar

/-- `number`: no leading zero. -/
def isNumber : List Char → Bool
  | [] => false
  | [c] => c.isDigit
  | c :: cs => c.isDigit && c != '0' && cs.all Char.isDigit

/-- `oid`: a name, or numbers separated by dots. -/
def isOid (cs : List Char) : Bool :=
  isDescr cs || (1 < (cs.splitOn '.').length && (cs.splitOn '.').all isNumber)

def isAttrChar (c : Char) : Bool := isKeyChar c || c == '.' || c == ';'

/-- `attributedescription`: a type and its options. -/
def isAttr (cs : List Char) : Bool :=
  cs.all isAttrChar &&
    match cs.splitOn ';' with
    | [] => false
    | oid :: options => isOid oid && options.all fun o => !o.isEmpty && o.all isKeyChar

/-- The characters before the `=` of an item: an attribute, and the colons of an extensible
match. -/
def isHeaderChar (c : Char) : Bool := isAttrChar c || c == ':'

/-- `dnattrs` and `matchingrule` of an extensible match, from what stands between colons. -/
def matchingRule : List (List Char) → Option (Bool × Option (List Char))
  | [[]] => some (false, none)
  | [dn, []] =>
    if dn.map Char.toLower = ['d', 'n'] then some (true, none)
    else if isOid dn then some (false, some dn) else none
  | [dn, rule, []] =>
    if dn.map Char.toLower = ['d', 'n'] ∧ isOid rule = true then some (true, some rule) else none
  | _ => none

/-- An item with the sign `=`, from what stands before the sign and the pieces behind it. -/
def equality (header : List (List Char)) (pieces : List (List UInt8)) : Option Item :=
  match header, pieces with
  | [attr], [value] => if isAttr attr then some (.compare attr .equal value) else none
  | [attr], [[], []] => if isAttr attr then some (.present attr) else none
  | [attr], p :: ps =>
    if isAttr attr then some (.substrings attr p ps.dropLast (ps.getLastD [])) else none
  | attr :: more, [value] =>
    match matchingRule more with
    | some (dn, rule) =>
      if isAttr attr ∨ (attr = [] ∧ rule ≠ none) then some (.extensible attr dn rule value)
      else none
    | none => none
  | _, _ => none

/-- An item with one of the signs `~=`, `>=` and `<=`. -/
def ordering (comparison : Comparison) (header : List (List Char))
    (pieces : List (List UInt8)) : Option Item :=
  match header, pieces with
  | [attr], [value] => if isAttr attr then some (.compare attr comparison value) else none
  | _, _ => none

/-- The rest behind a closing parenthesis. -/
def closing : List Char → Option (List Char)
  | ')' :: rest => some rest
  | _ => none

/-- Make something of what was read, and read the closing parenthesis behind it. -/
def finish {α β : Type} (make : α → Option β) (r : Option (α × List Char)) :
    Option (β × List Char) :=
  r.bind fun r => (make r.1).bind fun b => (closing r.2).map fun rest => (b, rest)

/-- Read the value of an item. -/
def readValue (make : List (List UInt8) → Option Item) (cs : List Char) :
    Option (Filter × List Char) :=
  finish (fun pieces => (make pieces).map .item) (scan cs)

/-- The sign of an item, as what it makes of the header and the pieces. -/
def readSign : List Char →
    Option ((List (List Char) → List (List UInt8) → Option Item) × List Char)
  | '=' :: cs => some (equality, cs)
  | '~' :: '=' :: cs => some (ordering .approx, cs)
  | '>' :: '=' :: cs => some (ordering .greater, cs)
  | '<' :: '=' :: cs => some (ordering .less, cs)
  | _ => none

def readItem (cs : List Char) : Option (Filter × List Char) :=
  (readSign (cs.dropWhile isHeaderChar)).bind fun r =>
    readValue (r.1 ((cs.takeWhile isHeaderChar).splitOn ':')) r.2

/-! ## Filters -/

/-- One or more filters. -/
def nonempty (make : List Filter → Filter) : List Filter → Option Filter
  | [] => none
  | f :: fs => some (make (f :: fs))

/-- Exactly one filter. -/
def single : List Filter → Option Filter
  | [f] => some (.not f)
  | _ => none

/-- What stands behind an opening parenthesis; `list` reads the filters inside. -/
def readComp (list : List Char → Option (List Filter × List Char)) :
    List Char → Option (Filter × List Char)
  | '&' :: cs => finish (nonempty .and) (list cs)
  | '|' :: cs => finish (nonempty .or) (list cs)
  | '!' :: cs => finish single (list cs)
  | cs => readItem cs

/-- The filters that the string starts with, up to a depth. -/
def readUpTo : Nat → List Char → Option (List Filter × List Char)
  | 0, _ => none
  | n + 1, '(' :: cs =>
    (readComp (readUpTo n) cs).bind fun r =>
      (readUpTo n r.2).map fun q => (r.1 :: q.1, q.2)
  | _ + 1, cs => some ([], cs)

/-- The filters that the string starts with, and the rest. -/
def readFilters (cs : List Char) : Option (List Filter × List Char) := readUpTo (cs.length + 1) cs

/-- The filter with this string representation. -/
def parse (cs : List Char) : Option Filter :=
  match readFilters cs with
  | some ([f], []) => some f
  | _ => none

/-! ## Evaluation -/

/-- The conjunction of truth values, `none` standing for Undefined. -/
def conj : Option Bool → Option Bool → Option Bool
  | some true, b => b
  | some false, _ => some false
  | none, some false => some false
  | none, _ => none

def disj : Option Bool → Option Bool → Option Bool
  | some false, b => b
  | some true, _ => some true
  | none, some true => some true
  | none, _ => none

mutual

/-- The value of a filter, from the values of its assertions. -/
def Filter.eval (m : Item → Option Bool) : Filter → Option Bool
  | .item i => m i
  | .and fs => evalAll m fs
  | .or fs => evalAny m fs
  | .not f => (f.eval m).map not

def evalAll (m : Item → Option Bool) : List Filter → Option Bool
  | [] => some true
  | f :: fs => conj (f.eval m) (evalAll m fs)

def evalAny (m : Item → Option Bool) : List Filter → Option Bool
  | [] => some false
  | f :: fs => disj (f.eval m) (evalAny m fs)

end

theorem conj_eq_true_iff {a b : Option Bool} :
    conj a b = some true ↔ a = some true ∧ b = some true := by
  cases a with
  | none =>
    cases b with
    | none => decide
    | some b =>
      cases b with
      | false => decide
      | true => decide
  | some a =>
    cases a with
    | false =>
      refine ⟨?_, ?_⟩
      · intro h
        cases h
      · intro h
        cases h.1
    | true => exact ⟨fun h => ⟨rfl, h⟩, fun h => h.2⟩

/-- A true conjunction has only true members. -/
theorem evalAll_eq_true_iff {m : Item → Option Bool} {fs : List Filter} :
    evalAll m fs = some true ↔ ∀ f ∈ fs, f.eval m = some true := by
  induction fs with
  | nil => exact ⟨fun _ _ hf => absurd hf List.not_mem_nil, fun _ => rfl⟩
  | cons f fs ih => rw [evalAll, conj_eq_true_iff, ih, List.forall_mem_cons]

/-! ## What a value reads -/

/-- The text encodes the pieces between its stars. -/
inductive Encodes : List Char → List (List UInt8) → Prop
  | nil : Encodes [] [[]]
  | escape {h l : Char} {a b : Nat} {cs : List Char} {ps : List (List UInt8)} :
      hexValue h = some a → hexValue l = some b → Encodes cs ps →
      Encodes ('\\' :: h :: l :: cs) (push [UInt8.ofNat (a * 16 + b)] ps)
  | star {cs : List Char} {ps : List (List UInt8)} : Encodes cs ps → Encodes ('*' :: cs) ([] :: ps)
  | char {c : Char} {cs : List Char} {ps : List (List UInt8)} :
      ¬ Special c → Encodes cs ps → Encodes (c :: cs) (push (String.utf8EncodeChar c) ps)

/-- A value ends before these characters. -/
def Stop (c : Char) : Prop := c = '(' ∨ c = ')' ∨ c = '\x00'

theorem Stop.special {c : Char} (h : Stop c) : Special c ∧ c ≠ '*' ∧ c ≠ '\\' := by
  rcases h with rfl | rfl | rfl
  · decide
  · decide
  · decide

theorem stop_of_special {c : Char} (h : Special c) (hstar : c ≠ '*') (hesc : c ≠ '\\') :
    Stop c := by
  rcases h with h | h | h | h | h
  · exact Or.inl h
  · exact Or.inr (Or.inl h)
  · exact absurd h hstar
  · exact absurd h hesc
  · exact Or.inr (Or.inr h)

theorem scan_escape (h l : Char) (cs : List Char) : scan ('\\' :: h :: l :: cs) =
    (hexValue h).bind fun a => (hexValue l).bind fun b =>
      (scan cs).map fun r => (push [UInt8.ofNat (a * 16 + b)] r.1, r.2) := by
  rw [scan, if_pos rfl]

theorem scan_star (cs : List Char) :
    scan ('*' :: cs) = (scan cs).map fun r => ([] :: r.1, r.2) := by
  have hesc : '*' ≠ '\\' := by decide
  rw [scan.eq_def]
  dsimp only
  rw [if_neg hesc, if_pos rfl]

theorem scan_stop {c : Char} (cs : List Char) (h : Stop c) :
    scan (c :: cs) = some ([[]], c :: cs) := by
  obtain ⟨hspecial, hstar, hesc⟩ := h.special
  rw [scan.eq_def]
  dsimp only
  rw [if_neg hesc, if_neg hstar, if_pos hspecial]

theorem scan_char {c : Char} (cs : List Char) (h : ¬ Special c) :
    scan (c :: cs) = (scan cs).map fun r => (push (String.utf8EncodeChar c) r.1, r.2) := by
  have hstar : c ≠ '*' := fun heq => h (Or.inr (Or.inr (Or.inl heq)))
  have hesc : c ≠ '\\' := fun heq => h (Or.inr (Or.inr (Or.inr (Or.inl heq))))
  rw [scan.eq_def]
  dsimp only
  rw [if_neg hesc, if_neg hstar, if_neg h]

theorem scan_of_encodes {used rest : List Char} {ps : List (List UInt8)} (h : Encodes used ps)
    (hrest : ∀ c ∈ rest.head?, Stop c) : scan (used ++ rest) = some (ps, rest) := by
  induction h with
  | nil =>
    cases rest with
    | nil => rfl
    | cons c cs => exact scan_stop cs (hrest c rfl)
  | escape hh hl _ ih =>
    show scan ('\\' :: _ :: _ :: (_ ++ rest)) = _
    rw [scan_escape, hh, hl, ih]
    rfl
  | star _ ih =>
    show scan ('*' :: (_ ++ rest)) = _
    rw [scan_star, ih]
    rfl
  | char hc _ ih =>
    show scan (_ :: (_ ++ rest)) = _
    rw [scan_char _ hc, ih]
    rfl

theorem encodes_of_scan {cs rest : List Char} {ps : List (List UInt8)}
    (h : scan cs = some (ps, rest)) :
    ∃ used, cs = used ++ rest ∧ Encodes used ps ∧ ∀ c ∈ rest.head?, Stop c := by
  induction cs using scan.induct generalizing ps rest with
  | case1 =>
    cases h
    exact ⟨[], rfl, Encodes.nil, fun _ hc => by cases hc⟩
  | case2 x y cs ih =>
    rw [scan_escape] at h
    obtain ⟨a, hx, h⟩ := Option.bind_eq_some_iff.mp h
    obtain ⟨b, hy, h⟩ := Option.bind_eq_some_iff.mp h
    obtain ⟨q, hq, heq⟩ := Option.map_eq_some_iff.mp h
    obtain ⟨rfl, rfl⟩ := Prod.mk.inj heq
    obtain ⟨used, hused, henc, hstop⟩ := ih hq
    exact ⟨'\\' :: x :: y :: used, by rw [hused]; rfl, Encodes.escape hx hy henc, hstop⟩
  | case3 cs hcs =>
    rw [scan.eq_def] at h
    dsimp only at h
    rw [if_pos rfl] at h
    split at h
    · exact absurd rfl (hcs _ _ _)
    · cases h
  | case4 cs _ ih =>
    rw [scan_star] at h
    obtain ⟨q, hq, heq⟩ := Option.map_eq_some_iff.mp h
    obtain ⟨rfl, rfl⟩ := Prod.mk.inj heq
    obtain ⟨used, hused, henc, hstop⟩ := ih hq
    exact ⟨'*' :: used, by rw [hused]; rfl, Encodes.star henc, hstop⟩
  | case5 c cs hesc hstar hspecial =>
    have hc := stop_of_special hspecial hstar hesc
    rw [scan_stop cs hc] at h
    cases h
    exact ⟨[], rfl, Encodes.nil, fun c' hc' => Option.some.inj hc' ▸ hc⟩
  | case6 c cs _ _ hspecial ih =>
    rw [scan_char cs hspecial] at h
    obtain ⟨q, hq, heq⟩ := Option.map_eq_some_iff.mp h
    obtain ⟨rfl, rfl⟩ := Prod.mk.inj heq
    obtain ⟨used, hused, henc, hstop⟩ := ih hq
    exact ⟨c :: used, by rw [hused]; rfl, Encodes.char hspecial henc, hstop⟩

theorem utf8_cons (c : Char) (cs : List Char) :
    utf8 (c :: cs) = String.utf8EncodeChar c ++ utf8 cs := List.flatMap_cons

theorem utf8_append (cs cs' : List Char) : utf8 (cs ++ cs') = utf8 cs ++ utf8 cs' :=
  List.flatMap_append

theorem length_utf8_lt_cons (c : Char) (cs : List Char) :
    (utf8 cs).length < (utf8 (c :: cs)).length := by
  have hpos : 0 < (String.utf8EncodeChar c).length :=
    List.length_pos_of_ne_nil String.utf8EncodeChar_ne_nil
  rw [utf8_cons, List.length_append]
  omega

/-- A plain text encodes itself. -/
theorem encodes_of_plain {cs : List Char} (h : Plain cs) : Encodes cs [utf8 cs] := by
  induction cs with
  | nil => exact Encodes.nil
  | cons c cs ih =>
    have hrest := ih fun c' hc' => h c' (List.mem_cons_of_mem c hc')
    rw [utf8_cons]
    exact Encodes.char (h c List.mem_cons_self) hrest

theorem not_special_of_hexValue {c : Char} {n : Nat} (h : hexValue c = some n) : ¬ Special c := by
  intro hspecial
  rcases hspecial with rfl | rfl | rfl | rfl | rfl
  · cases h
  · cases h
  · cases h
  · cases h
  · cases h

def octetCount (ps : List (List UInt8)) : Nat := ps.foldr (fun p n => p.length + n) 0

theorem octetCount_push (octets : List UInt8) (ps : List (List UInt8)) :
    octetCount (push octets ps) = octets.length + octetCount ps := by
  cases ps with
  | nil => rfl
  | cons p ps =>
    show (octets ++ p).length + octetCount ps = octets.length + (p.length + octetCount ps)
    rw [List.length_append, Nat.add_assoc]

theorem length_push {octets : List UInt8} {ps : List (List UInt8)} (h : 0 < ps.length) :
    (push octets ps).length = ps.length := by
  cases ps with
  | nil => exact absurd h (Nat.lt_irrefl 0)
  | cons p ps => rfl

/-- **What the pieces take up**: an escape is longer than its octet, a star opens a piece, and
no character of the text ends a value. -/
theorem Encodes.size {cs : List Char} {ps : List (List UInt8)} (h : Encodes cs ps) :
    octetCount ps + 2 * cs.count '\\' ≤ (utf8 cs).length ∧ ps.length = cs.count '*' + 1 ∧
      ∀ c ∈ cs, ¬ Stop c := by
  induction h with
  | nil => exact ⟨Nat.le_refl 0, rfl, fun _ hc => absurd hc List.not_mem_nil⟩
  | @escape x y a b cs ps hx hy _ ih =>
    obtain ⟨hsize, hpieces, hstop⟩ := ih
    have hx' := not_special_of_hexValue hx
    have hy' := not_special_of_hexValue hy
    have hesc : ∀ {c}, ¬ Special c → c ≠ '\\' :=
      fun hc heq => hc (Or.inr (Or.inr (Or.inr (Or.inl heq))))
    have hstar : ∀ {c}, ¬ Special c → c ≠ '*' := fun hc heq => hc (Or.inr (Or.inr (Or.inl heq)))
    have h1 := length_utf8_lt_cons '\\' (x :: y :: cs)
    have h2 := length_utf8_lt_cons x (y :: cs)
    have h3 := length_utf8_lt_cons y cs
    refine ⟨?_, ?_, ?_⟩
    · rw [octetCount_push, List.count_cons_self, List.count_cons_of_ne (hesc hx'),
        List.count_cons_of_ne (hesc hy'), List.length_singleton]
      omega
    · rw [length_push (by omega), List.count_cons_of_ne (by decide),
        List.count_cons_of_ne (hstar hx'), List.count_cons_of_ne (hstar hy'), hpieces]
    · intro c hc
      rcases List.mem_cons.mp hc with rfl | hc
      · exact fun h => h.special.2.2 rfl
      rcases List.mem_cons.mp hc with rfl | hc
      · exact fun h => hx' h.special.1
      rcases List.mem_cons.mp hc with rfl | hc
      · exact fun h => hy' h.special.1
      · exact hstop c hc
  | @star cs ps _ ih =>
    obtain ⟨hsize, hpieces, hstop⟩ := ih
    have h1 := length_utf8_lt_cons '*' cs
    refine ⟨?_, ?_, ?_⟩
    · show 0 + octetCount ps + _ ≤ _
      rw [List.count_cons_of_ne (by decide)]
      omega
    · rw [List.length_cons, List.count_cons_self, hpieces]
    · intro c hc
      rcases List.mem_cons.mp hc with rfl | hc
      · exact fun h => h.special.2.1 rfl
      · exact hstop c hc
  | @char c cs ps hc _ ih =>
    obtain ⟨hsize, hpieces, hstop⟩ := ih
    have hesc : c ≠ '\\' := fun heq => hc (Or.inr (Or.inr (Or.inr (Or.inl heq))))
    have hstar : c ≠ '*' := fun heq => hc (Or.inr (Or.inr (Or.inl heq)))
    refine ⟨?_, ?_, ?_⟩
    · rw [octetCount_push, List.count_cons_of_ne hesc, utf8_cons, List.length_append]
      omega
    · rw [length_push (by omega), List.count_cons_of_ne hstar, hpieces]
    · intro c' hc'
      rcases List.mem_cons.mp hc' with rfl | hc'
      · exact fun h => hc h.special.1
      · exact hstop c' hc'

/-- A text that encodes its own octets is plain. -/
theorem plain_of_encodes {cs : List Char} (h : Encodes cs [utf8 cs]) : Plain cs := by
  obtain ⟨hsize, hpieces, hstop⟩ := h.size
  have hcount : octetCount [utf8 cs] = (utf8 cs).length := Nat.add_zero _
  rw [List.length_singleton] at hpieces
  have hesc : '\\' ∉ cs := List.count_eq_zero.mp (by omega)
  have hstar : '*' ∉ cs := List.count_eq_zero.mp (by omega)
  intro c hc hspecial
  refine hstop c hc (stop_of_special hspecial ?_ ?_)
  · rintro rfl
    exact hstar hc
  · rintro rfl
    exact hesc hc

/-- A plain text is read as its octets. -/
theorem scan_plain {u : List Char} (rest : List Char) (h : Plain u) :
    scan (u ++ ')' :: rest) = some ([utf8 u], ')' :: rest) := by
  refine scan_of_encodes (encodes_of_plain h) ?_
  intro c hc
  exact Option.some.inj hc ▸ Or.inr (Or.inl rfl)

/-- Before the next parenthesis only a plain text is read as its octets. -/
theorem plain_of_scan {u rest rest' : List Char}
    (h : scan (u ++ ')' :: rest) = some ([utf8 u], ')' :: rest')) : Plain u := by
  have hclose : Stop ')' := Or.inr (Or.inl rfl)
  obtain ⟨used, hused, henc, _⟩ := encodes_of_scan h
  obtain ⟨hsize, _, hstop⟩ := henc.size
  have hcount : octetCount [utf8 u] = (utf8 u).length := Nat.add_zero _
  rcases List.append_eq_append_iff.mp hused with ⟨t, ht, ht'⟩ | ⟨t, ht, ht'⟩
  · cases t with
    | nil =>
      rw [ht, List.append_nil] at henc
      exact plain_of_encodes henc
    | cons c t =>
      -- the parenthesis would be part of the value
      obtain ⟨rfl, _⟩ := List.cons.inj ht'
      have hmem : ')' ∈ used := by
        rw [ht]
        exact List.mem_append_right _ List.mem_cons_self
      exact absurd hclose (hstop ')' hmem)
  · cases t with
    | nil =>
      rw [List.append_nil] at ht
      subst ht
      exact plain_of_encodes henc
    | cons c t =>
      -- the value would be shorter than its octets
      have hlt := length_utf8_lt_cons c t
      rw [ht, utf8_append, List.length_append] at hcount
      rw [ht, utf8_append] at hsize
      omega

/-! ## Reading filters -/

theorem suffix_of_scan {cs rest : List Char} {ps : List (List UInt8)}
    (h : scan cs = some (ps, rest)) : rest <:+ cs := by
  obtain ⟨used, rfl, _⟩ := encodes_of_scan h
  exact List.suffix_append _ _

theorem scan_append {cs rest : List Char} {ps : List (List UInt8)} (post : List Char)
    (h : scan cs = some (ps, rest)) (hrest : rest ≠ []) :
    scan (cs ++ post) = some (ps, rest ++ post) := by
  obtain ⟨used, rfl, henc, hstop⟩ := encodes_of_scan h
  rw [List.append_assoc]
  refine scan_of_encodes henc ?_
  rw [List.head?_append_of_ne_nil _ hrest]
  exact hstop

theorem finish_eq_some_iff {α β : Type} {make : α → Option β} {r : Option (α × List Char)}
    {b : β} {rest : List Char} :
    finish make r = some (b, rest) ↔ ∃ a, r = some (a, ')' :: rest) ∧ make a = some b := by
  unfold finish
  refine ⟨?_, ?_⟩
  · intro h
    obtain ⟨⟨a, cs⟩, hr, h⟩ := Option.bind_eq_some_iff.mp h
    obtain ⟨b', hb, h⟩ := Option.bind_eq_some_iff.mp h
    obtain ⟨rest', hclose, heq⟩ := Option.map_eq_some_iff.mp h
    obtain ⟨rfl, rfl⟩ := Prod.mk.inj heq
    dsimp only at hclose hb
    unfold closing at hclose
    split at hclose
    · obtain rfl := Option.some.inj hclose
      exact ⟨a, hr, hb⟩
    · cases hclose
  · intro h
    obtain ⟨a, rfl, hb⟩ := h
    rw [Option.bind_some, hb, Option.bind_some]
    rfl

/-- What follows the closing parenthesis is left. -/
theorem finish_append {α β : Type} {make : α → Option β} {r r' : Option (α × List Char)}
    {b : β} {rest : List Char} (post : List Char)
    (hr : ∀ a, r = some (a, ')' :: rest) → r' = some (a, ')' :: rest ++ post))
    (h : finish make r = some (b, rest)) : finish make r' = some (b, rest ++ post) := by
  obtain ⟨a, ha, hb⟩ := finish_eq_some_iff.mp h
  exact finish_eq_some_iff.mpr ⟨a, hr a ha, hb⟩

theorem readValue_append {make : List (List UInt8) → Option Item} {cs rest : List Char}
    {f : Filter} (post : List Char) (h : readValue make cs = some (f, rest)) :
    readValue make (cs ++ post) = some (f, rest ++ post) :=
  finish_append post (fun _ hscan => scan_append post hscan (List.cons_ne_nil _ _)) h

theorem suffix_of_readValue {make : List (List UInt8) → Option Item} {cs rest : List Char}
    {f : Filter} (h : readValue make cs = some (f, rest)) : rest <:+ cs := by
  obtain ⟨pieces, hscan, _⟩ := finish_eq_some_iff.mp h
  exact (List.suffix_cons _ _).trans (suffix_of_scan hscan)

theorem readSign_append {cs rest : List Char}
    {make : List (List Char) → List (List UInt8) → Option Item} (post : List Char)
    (h : readSign cs = some (make, rest)) :
    readSign (cs ++ post) = some (make, rest ++ post) ∧ cs ≠ [] ∧ rest <:+ cs := by
  unfold readSign at h
  split at h
  · cases h
    exact ⟨rfl, List.cons_ne_nil _ _, List.suffix_cons _ _⟩
  · cases h
    exact ⟨rfl, List.cons_ne_nil _ _, (List.suffix_cons _ _).trans (List.suffix_cons _ _)⟩
  · cases h
    exact ⟨rfl, List.cons_ne_nil _ _, (List.suffix_cons _ _).trans (List.suffix_cons _ _)⟩
  · cases h
    exact ⟨rfl, List.cons_ne_nil _ _, (List.suffix_cons _ _).trans (List.suffix_cons _ _)⟩
  · cases h

theorem readItem_append {cs rest : List Char} {f : Filter} (post : List Char)
    (h : readItem cs = some (f, rest)) : readItem (cs ++ post) = some (f, rest ++ post) := by
  obtain ⟨⟨make, value⟩, hsign, hvalue⟩ := Option.bind_eq_some_iff.mp h
  obtain ⟨hsign', hne, _⟩ := readSign_append post hsign
  have hempty : (cs.dropWhile isHeaderChar).isEmpty = false := by
    rw [List.isEmpty_eq_false_iff]
    exact hne
  have hdrop : (cs ++ post).dropWhile isHeaderChar = cs.dropWhile isHeaderChar ++ post := by
    rw [List.dropWhile_append, if_neg (by rw [hempty]; exact Bool.false_ne_true)]
  have htake : (cs ++ post).takeWhile isHeaderChar = cs.takeWhile isHeaderChar := by
    rw [List.takeWhile_append, if_neg ?_]
    intro hlength
    have hsplit := congrArg List.length
      (List.takeWhile_append_dropWhile (p := isHeaderChar) (l := cs))
    rw [List.length_append] at hsplit
    exact hne (List.length_eq_zero_iff.mp (by omega))
  unfold readItem
  rw [hdrop, htake, hsign']
  exact readValue_append post hvalue

theorem suffix_of_readItem {cs rest : List Char} {f : Filter}
    (h : readItem cs = some (f, rest)) : rest <:+ cs := by
  obtain ⟨⟨make, value⟩, hsign, hvalue⟩ := Option.bind_eq_some_iff.mp h
  obtain ⟨_, _, hsuffix⟩ := readSign_append [] hsign
  exact (suffix_of_readValue hvalue).trans (hsuffix.trans (List.dropWhile_suffix _))

/-! ## Depth does not matter -/

/-- What is left behind a filter is a suffix, if that holds of the filters inside. -/
theorem suffix_of_readComp {list : List Char → Option (List Filter × List Char)}
    {cs rest : List Char} {f : Filter}
    (hlist : ∀ cs fs rest, list cs = some (fs, rest) → rest <:+ cs)
    (h : readComp list cs = some (f, rest)) : rest <:+ cs := by
  have hinner : ∀ {make : List Filter → Option Filter} {c : Char} {cs : List Char},
      finish make (list cs) = some (f, rest) → rest <:+ c :: cs := by
    intro make c cs hfinish
    obtain ⟨fs, hfs, _⟩ := finish_eq_some_iff.mp hfinish
    exact (List.suffix_cons _ _).trans ((hlist _ _ _ hfs).trans (List.suffix_cons _ _))
  unfold readComp at h
  split at h
  · exact hinner h
  · exact hinner h
  · exact hinner h
  · exact suffix_of_readItem h

/-- Only shorter strings are read inside. -/
theorem readComp_congr {list list' : List Char → Option (List Filter × List Char)}
    {cs : List Char} (h : ∀ cs', cs'.length < cs.length → list cs' = list' cs') :
    readComp list cs = readComp list' cs := by
  unfold readComp
  split
  · rw [h _ (Nat.lt_succ_self _)]
  · rw [h _ (Nat.lt_succ_self _)]
  · rw [h _ (Nat.lt_succ_self _)]
  · rfl

theorem readUpTo_paren (n : Nat) (cs : List Char) : readUpTo (n + 1) ('(' :: cs) =
    (readComp (readUpTo n) cs).bind fun r =>
      (readUpTo n r.2).map fun q => (r.1 :: q.1, q.2) := rfl

theorem readUpTo_other {n : Nat} {cs : List Char} (h : ∀ cs', cs ≠ '(' :: cs') :
    readUpTo (n + 1) cs = some ([], cs) := by
  rw [readUpTo]
  exact h

theorem suffix_of_readUpTo {n : Nat} {cs : List Char} {fs : List Filter} {rest : List Char}
    (h : readUpTo n cs = some (fs, rest)) : rest <:+ cs := by
  induction n generalizing cs fs rest with
  | zero => cases h
  | succ n ih =>
    by_cases hparen : ∃ cs', cs = '(' :: cs'
    · obtain ⟨cs', rfl⟩ := hparen
      rw [readUpTo_paren] at h
      obtain ⟨⟨f, rest'⟩, hcomp, h⟩ := Option.bind_eq_some_iff.mp h
      obtain ⟨⟨gs, rest''⟩, hlist, heq⟩ := Option.map_eq_some_iff.mp h
      obtain ⟨_, rfl⟩ := Prod.mk.inj heq
      have hrest := suffix_of_readComp (fun _ _ _ => ih) hcomp
      exact (ih hlist).trans (hrest.trans (List.suffix_cons _ _))
    · rw [readUpTo_other fun cs' heq => hparen ⟨cs', heq⟩] at h
      cases h
      exact List.suffix_refl _

/-- Every depth beyond the length of the string gives the same. -/
theorem readUpTo_stable {n m : Nat} {cs : List Char} (hn : cs.length < n) (hm : cs.length < m) :
    readUpTo n cs = readUpTo m cs := by
  induction n generalizing m cs with
  | zero => omega
  | succ n ih =>
    obtain ⟨m, rfl⟩ : ∃ k, m = k + 1 := ⟨m - 1, by omega⟩
    by_cases hparen : ∃ cs', cs = '(' :: cs'
    · obtain ⟨cs', rfl⟩ := hparen
      rw [List.length_cons] at hn hm
      have hcomp : readComp (readUpTo n) cs' = readComp (readUpTo m) cs' := by
        apply readComp_congr
        intro cs'' hlt
        exact ih (by omega) (by omega)
      rw [readUpTo_paren, readUpTo_paren, hcomp]
      apply Option.bind_congr
      intro r hr
      have hlength := (suffix_of_readComp (fun _ _ _ => suffix_of_readUpTo) hr).length_le
      rw [ih (m := m) (by omega) (by omega)]
    · rw [readUpTo_other fun cs' heq => hparen ⟨cs', heq⟩,
        readUpTo_other fun cs' heq => hparen ⟨cs', heq⟩]

/-- **The equation of `readFilters`.** -/
theorem readFilters_paren (cs : List Char) : readFilters ('(' :: cs) =
    (readComp readFilters cs).bind fun r =>
      (readFilters r.2).map fun q => (r.1 :: q.1, q.2) := by
  have hcomp : readComp (readUpTo (cs.length + 1)) cs = readComp readFilters cs := by
    apply readComp_congr
    intro cs' hlt
    exact readUpTo_stable (by omega) (Nat.lt_succ_self _)
  rw [readFilters, List.length_cons, readUpTo_paren, hcomp]
  apply Option.bind_congr
  intro r hr
  rw [← hcomp] at hr
  have hlength := (suffix_of_readComp (fun _ _ _ => suffix_of_readUpTo) hr).length_le
  rw [readFilters, readUpTo_stable (by omega) (Nat.lt_succ_self _)]

theorem readFilters_other {cs : List Char} (h : ∀ cs', cs ≠ '(' :: cs') :
    readFilters cs = some ([], cs) := readUpTo_other h

theorem suffix_of_readFilters {cs : List Char} {fs : List Filter} {rest : List Char}
    (h : readFilters cs = some (fs, rest)) : rest <:+ cs := suffix_of_readUpTo h

/-! ## What follows the filters -/

theorem readComp_item {c : Char} (list : List Char → Option (List Filter × List Char))
    (cs : List Char) (h : c ≠ '&' ∧ c ≠ '|' ∧ c ≠ '!') :
    readComp list (c :: cs) = readItem (c :: cs) := by
  obtain ⟨hand, hor, hnot⟩ := h
  rw [readComp]
  · intro _ heq
    exact hand (List.cons.inj heq).1
  · intro _ heq
    exact hor (List.cons.inj heq).1
  · intro _ heq
    exact hnot (List.cons.inj heq).1

theorem readComp_append {cs rest : List Char} {f : Filter} (post : List Char)
    (hlist : ∀ cs', cs'.length < cs.length → ∀ fs rest, rest ≠ [] →
      readFilters cs' = some (fs, rest) → readFilters (cs' ++ post) = some (fs, rest ++ post))
    (h : readComp readFilters cs = some (f, rest)) :
    readComp readFilters (cs ++ post) = some (f, rest ++ post) := by
  have hinner : ∀ {make : List Filter → Option Filter} {cs' : List Char},
      cs'.length < cs.length → finish make (readFilters cs') = some (f, rest) →
        finish make (readFilters (cs' ++ post)) = some (f, rest ++ post) := by
    intro make cs' hlt hfinish
    exact finish_append post (fun fs hfs => hlist cs' hlt fs _ (List.cons_ne_nil _ _) hfs) hfinish
  unfold readComp at h
  split at h
  · exact hinner (Nat.lt_succ_self _) h
  · exact hinner (Nat.lt_succ_self _) h
  · exact hinner (Nat.lt_succ_self _) h
  · rename_i hand hor hnot
    cases cs with
    | nil => cases h
    | cons c cs =>
      have hc : c ≠ '&' ∧ c ≠ '|' ∧ c ≠ '!' := by
        refine ⟨?_, ?_, ?_⟩
        · rintro rfl
          exact hand cs rfl
        · rintro rfl
          exact hor cs rfl
        · rintro rfl
          exact hnot cs rfl
      have hitem := readItem_append post h
      rw [List.cons_append] at hitem ⊢
      rw [readComp_item _ _ hc, hitem]

/-- What reading a filter and the ones after it comes from. -/
theorem readFilters_paren_eq_some {cs rest : List Char} {fs : List Filter}
    (h : readFilters ('(' :: cs) = some (fs, rest)) :
    ∃ f gs rest', readComp readFilters cs = some (f, rest') ∧
      readFilters rest' = some (gs, rest) ∧ fs = f :: gs ∧ rest'.length ≤ cs.length := by
  rw [readFilters_paren] at h
  obtain ⟨⟨f, rest'⟩, hcomp, h⟩ := Option.bind_eq_some_iff.mp h
  obtain ⟨⟨gs, rest''⟩, hlist, heq⟩ := Option.map_eq_some_iff.mp h
  obtain ⟨rfl, rfl⟩ := Prod.mk.inj heq
  exact ⟨f, gs, rest', hcomp, hlist, rfl,
    (suffix_of_readComp (fun _ _ _ => suffix_of_readFilters) hcomp).length_le⟩

/-- Filters in front of something that is no filter are left alone by what follows. -/
theorem readFilters_append {cs rest : List Char} {fs : List Filter} (post : List Char)
    (h : readFilters cs = some (fs, rest)) (hrest : rest ≠ []) :
    readFilters (cs ++ post) = some (fs, rest ++ post) := by
  induction hlength : cs.length using Nat.strong_induction_on generalizing cs fs rest with
  | _ n ih =>
    subst hlength
    by_cases hparen : ∃ cs', cs = '(' :: cs'
    · obtain ⟨cs', rfl⟩ := hparen
      obtain ⟨f, gs, rest', hcomp, hlist, rfl, hle⟩ := readFilters_paren_eq_some h
      have hcomp' : readComp readFilters (cs' ++ post) = some (f, rest' ++ post) := by
        refine readComp_append post ?_ hcomp
        intro cs'' hlt fs rest hne hread
        rw [List.length_cons] at ih
        exact ih cs''.length (by omega) hread hne rfl
      rw [List.cons_append, readFilters_paren, hcomp', Option.bind_some]
      dsimp only
      rw [ih rest'.length (by rw [List.length_cons]; omega) hlist hrest rfl]
      rfl
    · rw [readFilters_other fun cs' heq => hparen ⟨cs', heq⟩] at h
      cases h
      obtain ⟨c, cs', rfl⟩ := List.exists_cons_of_ne_nil hrest
      apply readFilters_other
      intro cs'' heq
      exact hparen ⟨cs', by rw [(List.cons.inj heq).1]⟩

/-- Filters that make up a string go before what follows. -/
theorem readFilters_append_nil {cs : List Char} {fs : List Filter} (post : List Char)
    (h : readFilters cs = some (fs, [])) :
    readFilters (cs ++ post) = (readFilters post).map fun r => (fs ++ r.1, r.2) := by
  induction hlength : cs.length using Nat.strong_induction_on generalizing cs fs with
  | _ n ih =>
    subst hlength
    by_cases hparen : ∃ cs', cs = '(' :: cs'
    · obtain ⟨cs', rfl⟩ := hparen
      obtain ⟨f, gs, rest', hcomp, hlist, rfl, hle⟩ := readFilters_paren_eq_some h
      have hcomp' : readComp readFilters (cs' ++ post) = some (f, rest' ++ post) :=
        readComp_append post (fun _ _ _ _ hne hread => readFilters_append post hread hne) hcomp
      rw [List.cons_append, readFilters_paren, hcomp', Option.bind_some]
      dsimp only
      rw [ih rest'.length (by rw [List.length_cons]; omega) hlist rfl, Option.map_map]
      rfl
    · rw [readFilters_other fun cs' heq => hparen ⟨cs', heq⟩] at h
      cases h
      show readFilters post = _
      cases readFilters post with
      | none => rfl
      | some r => rfl

end SearchFilter
