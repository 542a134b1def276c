import Mathlib.Data.List.Basic
import Mathlib.Tactic.Common

/-!
# JSON texts

`dumps` is `json.dumps` with the default `ensure_ascii`: every character outside the printable
ASCII ones is written as an escape, above U+FFFF as a surrogate pair. With an indentation the
lines of a list or a dictionary are indented by its depth, without one the text is a single line
of printable characters (`printable_dumps`). `loads` is `json.loads` for texts whose numbers are
integers. What was written is read back (`loads_dumps`), so a text determines its value.
-/

namespace Json

/-- The values that have a JSON text; a dictionary is in the order of its keys. -/
inductive Value
  | null
  | bool (b : Bool)
  | int (n : Int)
  | str (s : List Char)
  | arr (items : List Value)
  | obj (members : List (List Char × Value))

/-! ## Strings -/

/-- `'\\u{0:04x}'.format(n)`. -/
def unicodeEscape (n : Nat) : List Char :=
  ['\\', 'u', (n / 4096 % 16).digitChar, (n / 256 % 16).digitChar, (n / 16 % 16).digitChar,
    (n % 16).digitChar]

/-- The characters that have an escape of one letter. -/
def shortEscapes : List (Char × Char) :=
  [('\\', '\\'), ('"', '"'), (Char.ofNat 8, 'b'), (Char.ofNat 12, 'f'), ('\n', 'n'), ('\r', 'r'),
    ('\t', 't')]

def escapeChar (c : Char) : List Char :=
  match shortEscapes.lookup c with
  | some e => ['\\', e]
  | none =>
    if 32 ≤ c.toNat ∧ c.toNat ≤ 126 then [c]
    else if c.toNat < 65536 then unicodeEscape c.toNat
    else
      unicodeEscape (55296 + (c.toNat - 65536) / 1024) ++
        unicodeEscape (56320 + (c.toNat - 65536) % 1024)

def quote (s : List Char) : List Char := '"' :: (s.flatMap escapeChar ++ ['"'])

def hexValue (c : Char) : Option Nat :=
  if 48 ≤ c.toNat ∧ c.toNat ≤ 57 then some (c.toNat - 48)
  else if 97 ≤ c.toNat ∧ c.toNat ≤ 102 then some (c.toNat - 87)
  else if 65 ≤ c.toNat ∧ c.toNat ≤ 70 then some (c.toNat - 55)
  else none

def hex4 (a b c d : Char) : Option Nat :=
  match hexValue a, hexValue b, hexValue c, hexValue d with
  | some a, some b, some c, some d => some (a * 4096 + b * 256 + c * 16 + d)
  | _, _, _, _ => none

/-- The character of an escape of one letter. -/
def simpleEscape (e : Char) : Option Char :=
  (('/', '/') :: shortEscapes).map Prod.swap |>.lookup e

/-- What an escape behind `\u` gives, and the rest of the text. A lone surrogate is no
character. -/
def unicodeChar (n : Nat) (rest : List Char) : Option (Char × List Char) :=
  if 55296 ≤ n ∧ n < 56320 then
    match rest with
    | '\\' :: 'u' :: a :: b :: c :: d :: rest' =>
      (hex4 a b c d).bind fun low =>
        if 56320 ≤ low ∧ low < 57344 then
          some (Char.ofNat (65536 + (n - 55296) * 1024 + (low - 56320)), rest')
        else none
    | _ => none
  else if 56320 ≤ n ∧ n < 57344 then none
  else some (Char.ofNat n, rest)

/-- The character at the head of the inside of a string. -/
def nextChar : List Char → Option (Char × List Char)
  | [] => none
  | c :: rest =>
    if c = '\\' then
      match rest with
      | [] => none
      | 'u' :: a :: b :: c :: d :: rest' => (hex4 a b c d).bind fun n => unicodeChar n rest'
      | e :: rest' => (simpleEscape e).map fun c => (c, rest')
    else if c.toNat < 32 then none
    else some (c, rest)

/-- The string behind its first quote. The fuel bounds its length. -/
def scanString : Nat → List Char → Option (List Char × List Char)
  | 0, _ => none
  | fuel + 1, text =>
    match text with
    | '"' :: rest => some ([], rest)
    | text =>
      (nextChar text).bind fun (c, rest) =>
        (scanString fuel rest).map fun (s, rest) => (c :: s, rest)

theorem hexValue_digitChar (n : Nat) (hn : n < 16) : hexValue n.digitChar = some n := by
  revert n
  decide

theorem hex4_unicodeEscape (n : Nat) (hn : n < 65536) :
    hex4 (n / 4096 % 16).digitChar (n / 256 % 16).digitChar (n / 16 % 16).digitChar
      (n % 16).digitChar = some n := by
  have h := fun k => hexValue_digitChar (k % 16) (Nat.mod_lt k (by decide))
  simp only [hex4, h]
  congr 1
  omega

/-- A character is no surrogate. -/
theorem not_surrogate (c : Char) : c.toNat < 55296 ∨ 57343 < c.toNat ∧ c.toNat < 1114112 := by
  rcases c.valid with h | h
  · exact Or.inl h
  · exact Or.inr h

theorem nextChar_unicodeEscape (n : Nat) (hn : n < 65536) (rest : List Char) :
    nextChar (unicodeEscape n ++ rest) = unicodeChar n rest := by
  have h := hex4_unicodeEscape n hn
  show nextChar ('\\' :: 'u' :: _ :: _ :: _ :: _ :: rest) = _
  simp only [nextChar, if_true, h, Option.bind_some]

theorem simpleEscape_of_mem {c e : Char} (h : (c, e) ∈ shortEscapes) :
    simpleEscape e = some c ∧ e ≠ 'u' := by
  have hall : ∀ p ∈ shortEscapes, simpleEscape p.2 = some p.1 ∧ p.2 ≠ 'u' := by decide
  exact hall (c, e) h

theorem nextChar_shortEscape {c e : Char} (h : (c, e) ∈ shortEscapes) (rest : List Char) :
    nextChar ('\\' :: e :: rest) = some (c, rest) := by
  obtain ⟨hsimple, hne⟩ := simpleEscape_of_mem h
  simp [nextChar, hsimple, hne]

theorem nextChar_surrogates {n : Nat} (hn : n < 1048576) (rest : List Char) :
    nextChar (unicodeEscape (55296 + n / 1024) ++ (unicodeEscape (56320 + n % 1024) ++ rest)) =
      some (Char.ofNat (65536 + n), rest) := by
  have hlow := hex4_unicodeEscape (56320 + n % 1024) (by omega)
  have hhigh : 55296 ≤ 55296 + n / 1024 ∧ 55296 + n / 1024 < 56320 := by omega
  have hrange : 56320 ≤ 56320 + n % 1024 ∧ 56320 + n % 1024 < 57344 := by omega
  have hvalue : 65536 + (55296 + n / 1024 - 55296) * 1024 + (56320 + n % 1024 - 56320) =
      65536 + n := by
    omega
  rw [nextChar_unicodeEscape _ (by omega)]
  unfold unicodeChar
  rw [if_pos hhigh]
  show ((hex4 _ _ _ _).bind _ : Option (Char × List Char)) = _
  rw [hlow, Option.bind_some, if_pos hrange, hvalue]
  rfl

/-- **One character** is read back. -/
theorem nextChar_escapeChar (c : Char) (rest : List Char) :
    nextChar (escapeChar c ++ rest) = some (c, rest) := by
  have hvalid := not_surrogate c
  unfold escapeChar
  split
  · rename_i e hlookup
    obtain ⟨before, after, hlist, _⟩ := List.lookup_eq_some_iff.mp hlookup
    exact nextChar_shortEscape (hlist ▸ List.mem_append_right _ List.mem_cons_self) rest
  rename_i hlookup
  split
  · rename_i hprint
    have hbackslash : c ≠ '\\' := by
      rintro rfl
      cases hlookup
    have hlow : ¬ c.toNat < 32 := by omega
    simp only [List.singleton_append, nextChar, if_neg hbackslash, if_neg hlow]
  split
  · rename_i hlt
    have hhigh : ¬ (55296 ≤ c.toNat ∧ c.toNat < 56320) := by omega
    have hlow : ¬ (56320 ≤ c.toNat ∧ c.toNat < 57344) := by omega
    rw [nextChar_unicodeEscape _ hlt]
    unfold unicodeChar
    rw [if_neg hhigh, if_neg hlow, Char.ofNat_toNat]
  · have hc : 65536 + (c.toNat - 65536) = c.toNat := by omega
    rw [List.append_assoc, nextChar_surrogates (by omega), hc, Char.ofNat_toNat]

theorem escapeChar_head (c : Char) (rest : List Char) :
    ∃ c' rest', escapeChar c ++ rest = c' :: rest' ∧ c' ≠ '"' := by
  unfold escapeChar
  split
  · exact ⟨'\\', _, rfl, by decide⟩
  rename_i hlookup
  split
  · refine ⟨c, _, rfl, ?_⟩
    rintro rfl
    cases hlookup
  split
  · exact ⟨'\\', _, rfl, by decide⟩
  · exact ⟨'\\', _, rfl, by decide⟩

/-- **A string** is read back. -/
theorem scanString_quote (s : List Char) {fuel : Nat} (hfuel : s.length < fuel)
    (rest : List Char) :
    scanString fuel (s.flatMap escapeChar ++ '"' :: rest) = some (s, rest) := by
  induction s generalizing fuel with
  | nil =>
    cases fuel with
    | zero => exact absurd hfuel (Nat.not_lt_zero _)
    | succ fuel => rfl
  | cons c s ih =>
    cases fuel with
    | zero => exact absurd hfuel (Nat.not_lt_zero _)
    | succ fuel =>
      obtain ⟨c', rest', hhead, hne⟩ :=
        escapeChar_head c (s.flatMap escapeChar ++ '"' :: rest)
      have hnext := nextChar_escapeChar c (s.flatMap escapeChar ++ '"' :: rest)
      rw [List.flatMap_cons, List.append_assoc]
      rw [hhead] at hnext ⊢
      rw [scanString.eq_3 _ _ (fun _ h => hne (List.cons.inj h).1), hnext, Option.bind_some]
      dsimp only
      rw [ih (Nat.lt_of_succ_lt_succ hfuel)]
      rfl

/-! ## Numbers -/

def renderInt : Int → List Char
  | .ofNat n => Nat.toDigits 10 n
  | .negSucc n => '-' :: Nat.toDigits 10 (n + 1)

/-- The digits at the head; a number does not begin with a zero unless it is one. -/
def scanNat (text : List Char) : Option (Nat × List Char) :=
  match text.takeWhile Char.isDigit with
  | [] => none
  | '0' :: _ :: _ => none
  | digits => some (Nat.ofDigitChars 10 digits 0, text.dropWhile Char.isDigit)

def scanInt : List Char → Option (Int × List Char)
  | '-' :: rest => (scanNat rest).map fun (n, rest) => (-(n : Int), rest)
  | text => (scanNat text).map fun (n, rest) => ((n : Int), rest)

/-- The text does not go on with a digit. -/
def NoDigit (text : List Char) : Prop := ∀ c ∈ text.head?, c.isDigit = false

theorem takeWhile_digits {digits rest : List Char} (hdigits : ∀ c ∈ digits, c.isDigit = true)
    (hrest : NoDigit rest) : (digits ++ rest).takeWhile Char.isDigit = digits ∧
      (digits ++ rest).dropWhile Char.isDigit = rest := by
  rw [List.takeWhile_append_of_pos hdigits, List.dropWhile_append_of_pos hdigits]
  cases rest with
  | nil => simp
  | cons c rest =>
    have hc : c.isDigit = false := hrest c rfl
    simp [hc]

/-- Only zero begins with the digit zero. -/
theorem toDigits_ne_zero_cons (n : Nat) (c : Char) (rest : List Char) :
    Nat.toDigits 10 n ≠ '0' :: c :: rest := by
  have hhead : ∀ n, 0 < n → (Nat.toDigits 10 n).head? ≠ some '0' := by
    intro n
    induction n using Nat.strongRecOn with
    | ind n ih =>
      intro hpos
      rcases Nat.lt_or_ge n 10 with hlt | hge
      · rw [Nat.toDigits_of_lt_base hlt]
        have hall : ∀ k, k < 10 → 0 < k → some k.digitChar ≠ some '0' := by decide
        exact hall n hlt hpos
      · have hdiv : n / 10 < n := by omega
        rw [Nat.toDigits_of_base_le (by decide) hge,
          List.head?_append_of_ne_nil _ Nat.toDigits_ne_nil]
        exact ih (n / 10) hdiv (by omega)
  intro h
  rcases Nat.eq_zero_or_pos n with rfl | hpos
  · cases h
  · exact hhead n hpos (by rw [h]; rfl)

theorem scanNat_toDigits (n : Nat) {rest : List Char} (hrest : NoDigit rest) :
    scanNat (Nat.toDigits 10 n ++ rest) = some (n, rest) := by
  have hdigits : ∀ c ∈ Nat.toDigits 10 n, c.isDigit = true :=
    fun c hc => Nat.isDigit_of_mem_toDigits (by decide) (by decide) hc
  obtain ⟨htake, hdrop⟩ := takeWhile_digits hdigits hrest
  unfold scanNat
  rw [htake, hdrop]
  split
  · rename_i hnil
    exact absurd hnil Nat.toDigits_ne_nil
  · rename_i hzero
    exact absurd hzero (toDigits_ne_zero_cons n _ _)
  · rw [Nat.ofDigitChars_ten_toDigits]

/-- **A number** is read back. -/
theorem scanInt_renderInt (n : Int) {rest : List Char} (hrest : NoDigit rest) :
    scanInt (renderInt n ++ rest) = some (n, rest) := by
  cases n with
  | ofNat n =>
    have hne : ∀ rest', Nat.toDigits 10 n ++ rest ≠ '-' :: rest' := by
      intro rest' h
      have hdigits : ∀ c ∈ Nat.toDigits 10 n, c.isDigit = true :=
        fun c hc => Nat.isDigit_of_mem_toDigits (by decide) (by decide) hc
      obtain ⟨d, ds, hd⟩ := List.exists_cons_of_ne_nil (Nat.toDigits_ne_nil (n := n) (b := 10))
      rw [hd] at h hdigits
      have hdash := hdigits d List.mem_cons_self
      rw [(List.cons.inj h).1] at hdash
      cases hdash
    unfold renderInt
    rw [scanInt.eq_2 _ hne, scanNat_toDigits n hrest]
    rfl
  | negSucc n =>
    show (scanNat (Nat.toDigits 10 (n + 1) ++ rest)).map _ = _
    rw [scanNat_toDigits (n + 1) hrest]
    rfl

/-! ## Values -/

/-- A line feed and the indentation of the level, if there is one. -/
def newline : Option Nat → Nat → List Char
  | none, _ => []
  | some indent, level => '\n' :: List.replicate (indent * level) ' '

/-- What is between a comma and the next item. -/
def gap : Option Nat → Nat → List Char
  | none, _ => [' ']
  | some indent, level => newline (some indent) level

mutual

/-- A value whose lines are indented by the level. -/
def render (indent : Option Nat) (level : Nat) : Value → List Char
  | .null => ['n', 'u', 'l', 'l']
  | .bool true => ['t', 'r', 'u', 'e']
  | .bool false => ['f', 'a', 'l', 's', 'e']
  | .int n => renderInt n
  | .str s => quote s
  | .arr [] => ['[', ']']
  | .arr (item :: items) =>
    '[' :: (newline indent (level + 1) ++ (render indent (level + 1) item ++
      (renderItems indent (level + 1) items ++ (newline indent level ++ [']']))))
  | .obj [] => ['{', '}']
  | .obj ((key, value) :: members) =>
    '{' :: (newline indent (level + 1) ++ (quote key ++ (':' :: ' ' ::
      (render indent (level + 1) value ++
        (renderMembers indent (level + 1) members ++ (newline indent level ++ ['}']))))))

/-- The items behind the first one. -/
def renderItems (indent : Option Nat) (level : Nat) : List Value → List Char
  | [] => []
  | item :: items =>
    ',' :: (gap indent level ++ (render indent level item ++ renderItems indent level items))

/-- The members behind the first one. -/
def renderMembers (indent : Option Nat) (level : Nat) : List (List Char × Value) → List Char
  | [] => []
  | (key, value) :: members =>
    ',' :: (gap indent level ++ (quote key ++ (':' :: ' ' ::
      (render indent level value ++ renderMembers indent level members))))

end

/-- `json.dumps` with the indentation, or without one. -/
def dumps (indent : Option Nat) (value : Value) : List Char := render indent 0 value

def isSpace (c : Char) : Bool := c = ' ' || c = '\t' || c = '\n' || c = '\r'

def skipSpace (text : List Char) : List Char := text.dropWhile isSpace

/-- A key and the colon behind it, and the spaces behind that. -/
def scanKey (text : List Char) : Option (List Char × List Char) :=
  match text with
  | '"' :: rest =>
    (scanString text.length rest).bind fun (key, rest) =>
      match skipSpace rest with
      | ':' :: rest => some (key, skipSpace rest)
      | _ => none
  | _ => none

mutual

/-- The value at the head; the fuel bounds the length of its text. -/
def scanValue : Nat → List Char → Option (Value × List Char)
  | 0, _ => none
  | fuel + 1, text =>
    match text with
    | 'n' :: 'u' :: 'l' :: 'l' :: rest => some (.null, rest)
    | 't' :: 'r' :: 'u' :: 'e' :: rest => some (.bool true, rest)
    | 'f' :: 'a' :: 'l' :: 's' :: 'e' :: rest => some (.bool false, rest)
    | '"' :: rest => (scanString text.length rest).map fun (s, rest) => (.str s, rest)
    | '[' :: rest =>
      match skipSpace rest with
      | ']' :: rest => some (.arr [], rest)
      | rest =>
        (scanValue fuel rest).bind fun (item, rest) =>
          (scanItems fuel (skipSpace rest)).map fun (items, rest) => (.arr (item :: items), rest)
    | '{' :: rest =>
      match skipSpace rest with
      | '}' :: rest => some (.obj [], rest)
      | rest =>
        (scanKey rest).bind fun (key, rest) =>
          (scanValue fuel rest).bind fun (value, rest) =>
            (scanMembers fuel (skipSpace rest)).map fun (members, rest) =>
              (.obj ((key, value) :: members), rest)
    | text => (scanInt text).map fun (n, rest) => (.int n, rest)

/-- The items behind one, and the end of the list. -/
def scanItems : Nat → List Char → Option (List Value × List Char)
  | 0, _ => none
  | fuel + 1, text =>
    match text with
    | ']' :: rest => some ([], rest)
    | ',' :: rest =>
      (scanValue fuel (skipSpace rest)).bind fun (item, rest) =>
        (scanItems fuel (skipSpace rest)).map fun (items, rest) => (item :: items, rest)
    | _ => none

/-- The members behind one, and the end of the dictionary. -/
def scanMembers : Nat → List Char → Option (List (List Char × Value) × List Char)
  | 0, _ => none
  | fuel + 1, text =>
    match text with
    | '}' :: rest => some ([], rest)
    | ',' :: rest =>
      (scanKey (skipSpace rest)).bind fun (key, rest) =>
        (scanValue fuel rest).bind fun (value, rest) =>
          (scanMembers fuel (skipSpace rest)).map fun (members, rest) =>
            ((key, value) :: members, rest)
    | _ => none

end

/-- `json.loads`; none where it raises. -/
def loads (text : List Char) : Option Value :=
  match scanValue (text.length + 1) (skipSpace text) with
  | some (value, rest) => if skipSpace rest = [] then some value else none
  | none => none

/-! ## Reading back -/

/-- The text does not begin with a space. -/
def NoSpace (text : List Char) : Prop := ∀ c ∈ text.head?, isSpace c = false

theorem noSpace_cons {c : Char} (hc : isSpace c = false) (rest : List Char) :
    NoSpace (c :: rest) := by
  intro c' hc'
  cases hc'
  exact hc

theorem noSpace_quote (s rest : List Char) : NoSpace (quote s ++ rest) := noSpace_cons rfl _

theorem skipSpace_of_noSpace {text : List Char} (h : NoSpace text) : skipSpace text = text := by
  cases text with
  | nil => rfl
  | cons c text => exact List.dropWhile_cons_of_neg (by rw [h c rfl]; decide)

/-- The spaces of an indentation are skipped. -/
theorem skipSpace_newline (indent : Option Nat) (level : Nat) {text : List Char}
    (h : NoSpace text) : skipSpace (newline indent level ++ text) = text := by
  have hspaces : ∀ c ∈ newline indent level, isSpace c = true := by
    intro c hc
    cases indent with
    | none => cases hc
    | some indent =>
      rcases List.mem_cons.mp hc with rfl | hc
      · rfl
      · rw [List.eq_of_mem_replicate hc]
        rfl
  unfold skipSpace
  rw [List.dropWhile_append_of_pos hspaces]
  exact skipSpace_of_noSpace h

theorem skipSpace_gap (indent : Option Nat) (level : Nat) {text : List Char}
    (h : NoSpace text) : skipSpace (gap indent level ++ text) = text := by
  cases indent with
  | none => exact skipSpace_of_noSpace h
  | some indent => exact skipSpace_newline (some indent) level h

theorem noDigit_newline (indent : Option Nat) (level : Nat) {c : Char} (hc : c.isDigit = false)
    (text : List Char) : NoDigit (newline indent level ++ c :: text) := by
  intro c' hc'
  cases indent with
  | none =>
    cases hc'
    exact hc
  | some indent =>
    cases hc'
    rfl

/-- A number begins with a digit or the sign. -/
theorem renderInt_cons (n : Int) :
    ∃ c rest, renderInt n = c :: rest ∧ (c.isDigit = true ∨ c = '-') := by
  cases n with
  | ofNat n =>
    obtain ⟨c, rest, h⟩ := List.exists_cons_of_ne_nil (Nat.toDigits_ne_nil (n := n) (b := 10))
    refine ⟨c, rest, h, Or.inl (Nat.isDigit_of_mem_toDigits (by decide) (by decide)
      (h ▸ List.mem_cons_self : c ∈ Nat.toDigits 10 n))⟩
  | negSucc n => exact ⟨'-', _, rfl, Or.inr rfl⟩

/-- A value does not begin with a space or a closing bracket. -/
theorem render_cons (indent : Option Nat) (level : Nat) (value : Value) : ∃ c rest,
    render indent level value = c :: rest ∧ isSpace c = false ∧ c ≠ ']' := by
  cases value with
  | null => exact ⟨'n', _, by rw [render], rfl, by decide⟩
  | bool b =>
    cases b with
    | true => exact ⟨'t', _, by rw [render], rfl, by decide⟩
    | false => exact ⟨'f', _, by rw [render], rfl, by decide⟩
  | int n =>
    obtain ⟨c, rest, h, hc⟩ := renderInt_cons n
    refine ⟨c, rest, by rw [render, h], ?_, ?_⟩
    · rcases hc with hc | rfl
      · unfold isSpace
        by_contra hspace
        rw [Bool.not_eq_false] at hspace
        rcases (by simpa using hspace) with (((rfl | rfl) | rfl) | rfl)
        all_goals cases hc
      · rfl
    · rintro rfl
      rcases hc with hc | hc
      · cases hc
      · cases hc
  | str s => exact ⟨'"', _, by rw [render]; rfl, rfl, by decide⟩
  | arr items =>
    cases items with
    | nil => exact ⟨'[', _, by rw [render], rfl, by decide⟩
    | cons item items => exact ⟨'[', _, by rw [render], rfl, by decide⟩
  | obj members =>
    cases members with
    | nil => exact ⟨'{', _, by rw [render], rfl, by decide⟩
    | cons member members =>
      obtain ⟨key, value⟩ := member
      exact ⟨'{', _, by rw [render], rfl, by decide⟩

theorem length_le_flatMap_escapeChar (s : List Char) :
    s.length ≤ (s.flatMap escapeChar).length := by
  induction s with
  | nil => exact Nat.zero_le _
  | cons c s ih =>
    obtain ⟨c', rest, h, _⟩ := escapeChar_head c []
    rw [List.append_nil] at h
    rw [List.flatMap_cons, h, List.cons_append, List.length_cons, List.length_cons,
      List.length_append]
    omega

/-- A key, its colon and the space. -/
theorem scanKey_quote (key : List Char) {rest : List Char} (hrest : NoSpace rest) :
    scanKey (quote key ++ (':' :: ' ' :: rest)) = some (key, rest) := by
  have hlength := length_le_flatMap_escapeChar key
  unfold quote
  rw [List.cons_append, List.append_assoc, scanKey, List.singleton_append, scanString_quote]
  · have hspace : skipSpace (' ' :: rest) = skipSpace rest := rfl
    show some (key, skipSpace (' ' :: rest)) = _
    rw [hspace, skipSpace_of_noSpace hrest]
  · rw [List.length_cons, List.length_append]
    omega

theorem scanValue_int (n : Int) (fuel : Nat) {rest : List Char} (hrest : NoDigit rest) :
    scanValue (fuel + 1) (renderInt n ++ rest) = some (.int n, rest) := by
  obtain ⟨c, tail, hhead, hc⟩ := renderInt_cons n
  have hne : ∀ c', c'.isDigit = false → c' ≠ '-' → ∀ tail', renderInt n ++ rest ≠ c' :: tail' := by
    intro c' hdigit hdash tail' h
    rw [hhead] at h
    obtain rfl := (List.cons.inj h).1
    rcases hc with hc | hc
    · rw [hc] at hdigit
      cases hdigit
    · exact hdash hc
  rw [scanValue.eq_8, scanInt_renderInt n hrest]
  · rfl
  · exact fun _ => hne 'n' rfl (by decide) _
  · exact fun _ => hne 't' rfl (by decide) _
  · exact fun _ => hne 'f' rfl (by decide) _
  · exact fun _ => hne '"' rfl (by decide) _
  · exact fun _ => hne '[' rfl (by decide) _
  · exact fun _ => hne '{' rfl (by decide) _

theorem noSpace_render (indent : Option Nat) (level : Nat) (value : Value) (rest : List Char) :
    NoSpace (render indent level value ++ rest) := by
  obtain ⟨c, tail, h, hc, _⟩ := render_cons indent level value
  rw [h]
  exact noSpace_cons hc (tail ++ rest)

theorem noDigit_renderItems (indent : Option Nat) (level : Nat) (items : List Value)
    {rest : List Char} (hrest : NoDigit rest) :
    NoDigit (renderItems indent level items ++ rest) := by
  cases items with
  | nil => exact hrest
  | cons item items =>
    intro c hc
    rw [renderItems] at hc
    cases hc
    rfl

theorem noDigit_renderMembers (indent : Option Nat) (level : Nat)
    (members : List (List Char × Value)) {rest : List Char} (hrest : NoDigit rest) :
    NoDigit (renderMembers indent level members ++ rest) := by
  cases members with
  | nil => exact hrest
  | cons member members =>
    intro c hc
    rw [renderMembers] at hc
    cases hc
    rfl

mutual

/-- **A value** is read back. -/
theorem scanValue_render (indent : Option Nat) (level fuel : Nat) (value : Value) (rest : List Char)
    (hfuel : (render indent level value).length ≤ fuel) (hrest : NoDigit rest) :
    scanValue fuel (render indent level value ++ rest) = some (value, rest) := by
  obtain ⟨c, tail, hhead, _⟩ := render_cons indent level value
  obtain ⟨fuel, rfl⟩ : ∃ k, fuel = k + 1 := by
    rw [hhead, List.length_cons] at hfuel
    exact ⟨fuel - 1, by omega⟩
  clear hhead
  match value with
  | .null => rw [render]; rfl
  | .bool true => rw [render]; rfl
  | .bool false => rw [render]; rfl
  | .int n =>
    rw [render]
    exact scanValue_int n fuel hrest
  | .str s =>
    have hlength := length_le_flatMap_escapeChar s
    rw [render, quote, List.cons_append, List.append_assoc, List.singleton_append, scanValue,
      scanString_quote]
    · rfl
    · rw [List.length_cons, List.length_append]
      omega
  | .arr [] => rw [render]; rfl
  | .arr (item :: items) =>
    obtain ⟨c, tail, hitem, _, hbracket⟩ := render_cons indent (level + 1) item
    have hitems := noDigit_renderItems indent (level + 1) items
      (noDigit_newline indent level (c := ']') rfl rest)
    rw [render] at hfuel ⊢
    simp only [List.length_cons, List.length_append] at hfuel
    simp only [List.cons_append, List.append_assoc, List.nil_append]
    rw [scanValue.eq_6, skipSpace_newline _ _ (noSpace_render indent (level + 1) item _)]
    split
    · rename_i hclose
      rw [hitem] at hclose
      exact absurd (List.cons.inj hclose).1 hbracket
    · rw [scanValue_render indent (level + 1) fuel item _ (by omega) hitems, Option.bind_some]
      dsimp only
      rw [scanItems_renderItems indent level fuel items rest (by simp; omega)]
      rfl
  | .obj [] => rw [render]; rfl
  | .obj ((key, value) :: members) =>
    have hmembers := noDigit_renderMembers indent (level + 1) members
      (noDigit_newline indent level (c := '}') rfl rest)
    rw [render] at hfuel ⊢
    simp only [List.length_cons, List.length_append] at hfuel
    simp only [List.cons_append, List.append_assoc, List.nil_append]
    rw [scanValue.eq_7, skipSpace_newline _ _ (noSpace_quote key _)]
    split
    · rename_i hclose
      exact absurd (List.cons.inj hclose).1 (by decide)
    · rw [scanKey_quote key (noSpace_render indent (level + 1) value _), Option.bind_some]
      dsimp only
      rw [scanValue_render indent (level + 1) fuel value _ (by omega) hmembers, Option.bind_some]
      dsimp only
      rw [scanMembers_renderMembers indent level fuel members rest (by simp; omega)]
      rfl

theorem scanItems_renderItems (indent : Option Nat) (level fuel : Nat) (items : List Value)
    (rest : List Char) (hfuel : (renderItems indent (level + 1) items ++
      (newline indent level ++ [']'])).length ≤ fuel) :
    scanItems fuel (skipSpace (renderItems indent (level + 1) items ++
      (newline indent level ++ ']' :: rest))) = some (items, rest) := by
  obtain ⟨fuel, rfl⟩ : ∃ k, fuel = k + 1 := by
    simp only [List.length_append, List.length_singleton] at hfuel
    exact ⟨fuel - 1, by omega⟩
  match items with
  | [] =>
    rw [renderItems, List.nil_append, skipSpace_newline _ _ (noSpace_cons rfl _)]
    rfl
  | item :: items =>
    have hitems := noDigit_renderItems indent (level + 1) items
      (noDigit_newline indent level (c := ']') rfl rest)
    rw [renderItems] at hfuel ⊢
    simp only [List.length_cons, List.length_append] at hfuel
    simp only [List.cons_append, List.append_assoc]
    rw [skipSpace_of_noSpace (noSpace_cons rfl _), scanItems.eq_3,
      skipSpace_gap _ _ (noSpace_render indent (level + 1) item _),
      scanValue_render indent (level + 1) fuel item _ (by omega) hitems, Option.bind_some]
    dsimp only
    rw [scanItems_renderItems indent level fuel items rest (by simp; omega)]
    rfl

theorem scanMembers_renderMembers (indent : Option Nat) (level fuel : Nat)
    (members : List (List Char × Value)) (rest : List Char)
    (hfuel : (renderMembers indent (level + 1) members ++
      (newline indent level ++ ['}'])).length ≤ fuel) :
    scanMembers fuel (skipSpace (renderMembers indent (level + 1) members ++
      (newline indent level ++ '}' :: rest))) = some (members, rest) := by
  obtain ⟨fuel, rfl⟩ : ∃ k, fuel = k + 1 := by
    simp only [List.length_append, List.length_singleton] at hfuel
    exact ⟨fuel - 1, by omega⟩
  match members with
  | [] =>
    rw [renderMembers, List.nil_append, skipSpace_newline _ _ (noSpace_cons rfl _)]
    rfl
  | (key, value) :: members =>
    have hmembers := noDigit_renderMembers indent (level + 1) members
      (noDigit_newline indent level (c := '}') rfl rest)
    rw [renderMembers] at hfuel ⊢
    simp only [List.length_cons, List.length_append] at hfuel
    simp only [List.cons_append, List.append_assoc]
    rw [skipSpace_of_noSpace (noSpace_cons rfl _), scanMembers.eq_3,
      skipSpace_gap _ _ (noSpace_quote key _),
      scanKey_quote key (noSpace_render indent (level + 1) value _), Option.bind_some]
    dsimp only
    rw [scanValue_render indent (level + 1) fuel value _ (by omega) hmembers, Option.bind_some]
    dsimp only
    rw [scanMembers_renderMembers indent level fuel members rest (by simp; omega)]
    rfl

end

/-- **What was written is read back.** -/
theorem loads_dumps (indent : Option Nat) (value : Value) :
    loads (dumps indent value) = some value := by
  have hspace := noSpace_render indent 0 value []
  have hscan := scanValue_render indent 0 ((dumps indent value).length + 1) value []
    (Nat.le_succ _) fun c hc => by cases hc
  rw [List.append_nil] at hspace hscan
  unfold loads
  rw [show skipSpace (dumps indent value) = _ from skipSpace_of_noSpace hspace,
    show scanValue _ (dumps indent value) = _ from hscan]
  rfl

/-! ## One line -/

/-- The text has printable ASCII characters only; in particular it is one line. -/
def Printable (text : List Char) : Prop := ∀ c ∈ text, 32 ≤ c.toNat ∧ c.toNat ≤ 126

theorem printable_nil : Printable [] := fun _ hc => absurd hc List.not_mem_nil

theorem printable_cons {c : Char} {text : List Char} :
    Printable (c :: text) ↔ (32 ≤ c.toNat ∧ c.toNat ≤ 126) ∧ Printable text :=
  List.forall_mem_cons

theorem printable_append {text text' : List Char} :
    Printable (text ++ text') ↔ Printable text ∧ Printable text' :=
  List.forall_mem_append

theorem printable_of_all {text : List Char}
    (h : (text.all fun c => 32 ≤ c.toNat && c.toNat ≤ 126) = true) : Printable text := by
  simpa only [Printable, List.all_eq_true, Bool.and_eq_true, decide_eq_true_iff] using h

theorem printable_digitChar (n : Nat) (hn : n < 16) :
    32 ≤ n.digitChar.toNat ∧ n.digitChar.toNat ≤ 126 := by
  revert n
  decide

theorem printable_unicodeEscape (n : Nat) : Printable (unicodeEscape n) := by
  simp only [unicodeEscape, printable_cons]
  exact ⟨by decide, by decide, printable_digitChar _ (by omega), printable_digitChar _ (by omega),
    printable_digitChar _ (by omega), printable_digitChar _ (by omega), printable_nil⟩

theorem printable_shortEscapes : ∀ x ∈ shortEscapes, 32 ≤ x.2.toNat ∧ x.2.toNat ≤ 126 := by
  decide

theorem printable_escapeChar (c : Char) : Printable (escapeChar c) := by
  unfold escapeChar
  split
  · rename_i e hlookup
    obtain ⟨before, after, hlist, _⟩ := List.lookup_eq_some_iff.mp hlookup
    have he := printable_shortEscapes (c, e)
      (hlist ▸ List.mem_append_right _ List.mem_cons_self)
    exact printable_cons.mpr ⟨by decide, printable_cons.mpr ⟨he, printable_nil⟩⟩
  · split
    · rename_i hc
      exact printable_cons.mpr ⟨hc, printable_nil⟩
    split
    · exact printable_unicodeEscape _
    · exact printable_append.mpr ⟨printable_unicodeEscape _, printable_unicodeEscape _⟩

theorem printable_quote (s : List Char) : Printable (quote s) := by
  rw [quote, printable_cons, printable_append, printable_cons]
  refine ⟨by decide, fun c hc => ?_, by decide, printable_nil⟩
  obtain ⟨a, _, ha⟩ := List.mem_flatMap.mp hc
  exact printable_escapeChar a c ha

theorem printable_toDigits (n : Nat) : Printable (Nat.toDigits 10 n) := by
  intro c hc
  have hdigit := Nat.isDigit_of_mem_toDigits (by decide) (by decide) hc
  rw [Char.isDigit, Bool.and_eq_true, decide_eq_true_iff, decide_eq_true_iff] at hdigit
  obtain ⟨hlow, hhigh⟩ := hdigit
  have hlow' : 48 ≤ c.toNat := hlow
  have hhigh' : c.toNat ≤ 57 := hhigh
  omega

theorem printable_renderInt (n : Int) : Printable (renderInt n) := by
  cases n with
  | ofNat n => exact printable_toDigits n
  | negSucc n => exact printable_cons.mpr ⟨by decide, printable_toDigits (n + 1)⟩

mutual

theorem printable_render (level : Nat) (value : Value) : Printable (render none level value) := by
  match value with
  | .null => rw [render]; exact printable_of_all rfl
  | .bool true => rw [render]; exact printable_of_all rfl
  | .bool false => rw [render]; exact printable_of_all rfl
  | .int n => rw [render]; exact printable_renderInt n
  | .str s => rw [render]; exact printable_quote s
  | .arr [] => rw [render]; exact printable_of_all rfl
  | .arr (item :: items) =>
    rw [render]
    simp only [newline, List.nil_append, printable_cons, printable_append]
    exact ⟨by decide, printable_render (level + 1) item, printable_renderItems (level + 1) items,
      by decide, printable_nil⟩
  | .obj [] => rw [render]; exact printable_of_all rfl
  | .obj ((key, value) :: members) =>
    rw [render]
    simp only [newline, List.nil_append, printable_cons, printable_append]
    exact ⟨by decide, printable_quote key, by decide, by decide, printable_render (level + 1) value,
      printable_renderMembers (level + 1) members, by decide, printable_nil⟩

theorem printable_renderItems (level : Nat) (items : List Value) :
    Printable (renderItems none level items) := by
  match items with
  | [] => rw [renderItems]; exact printable_nil
  | item :: items =>
    rw [renderItems]
    simp only [gap, printable_cons, printable_append]
    exact ⟨by decide, ⟨by decide, printable_nil⟩, printable_render level item,
      printable_renderItems level items⟩

theorem printable_renderMembers (level : Nat) (members : List (List Char × Value)) :
    Printable (renderMembers none level members) := by
  match members with
  | [] => rw [renderMembers]; exact printable_nil
  | (key, value) :: members =>
    rw [renderMembers]
    simp only [gap, printable_cons, printable_append]
    exact ⟨by decide, ⟨by decide, printable_nil⟩, printable_quote key, by decide, by decide,
      printable_render level value, printable_renderMembers level members⟩

end

/-- **Without an indentation** a value is one line of printable characters. -/
theorem printable_dumps (value : Value) : Printable (dumps none value) := printable_render 0 value

/-! ## Documents -/

def text (s : String) : Value := .str s.toList

def object (members : List (String × Value)) : Value :=
  .obj (members.map fun m => (m.1.toList, m.2))

def asText : Value → Option String
  | .str s => some (String.ofList s)
  | _ => none

def asNat : Value → Option Nat
  | .int n => some n.toNat
  | _ => none

def member (key : String) : Value → Option Value
  | .obj members => (members.find? fun m => m.1 = key.toList).map Prod.snd
  | _ => none

theorem asText_text (s : String) : asText (text s) = some s := by
  simp [asText, text]

/-- A member of a document is the first one with its key. -/
theorem member_object (key : String) (members : List (String × Value)) :
    member key (object members) = (members.find? fun m => m.1 = key).map Prod.snd := by
  show Option.map _ (List.find? _ (members.map _)) = _
  rw [List.find?_map, Option.map_map]
  simp only [Function.comp_def, String.toList_inj]

end Json
