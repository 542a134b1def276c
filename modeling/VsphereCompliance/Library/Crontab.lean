import VsphereCompliance.Library.Calendar

/-!
# The expressions of a crontab

An expression has five fields. A field is a list of items: a star, a number or a range, a star
and a range possibly with a step; a month or a weekday may be a name instead. `Expression.parse`
reads the five texts, and an expression that it reads has only numbers in range.

`Expression.Matches` are the rules of the crontab: the weekdays 0 and 7 are Sunday, and where
neither the day of the month nor the weekday has a star, one of the two suffices.
-/

namespace Crontab

open Calendar

/-! ## Fields -/

/-- An item of a field whose numbers go from `lo` to `hi`. -/
inductive Item (lo hi : Nat)
  | every (step : Nat) (step_pos : 0 < step)
  | range (first last step : Nat) (lo_le : lo ≤ first) (first_le : first ≤ last) (le_hi : last ≤ hi)
      (step_pos : 0 < step)
  deriving DecidableEq, Repr

variable {lo hi : Nat}

def Item.first : Item lo hi → Nat
  | every _ _ => lo
  | range first _ _ _ _ _ _ => first

def Item.last : Item lo hi → Nat
  | every _ _ => hi
  | range _ last _ _ _ _ _ => last

def Item.step : Item lo hi → Nat
  | every step _ => step
  | range _ _ step _ _ _ _ => step

def Item.isStar : Item lo hi → Bool
  | every _ _ => true
  | range _ _ _ _ _ _ _ => false

/-- The item stands for the number. -/
def Item.Lists (item : Item lo hi) (n : Nat) : Prop :=
  item.first ≤ n ∧ n ≤ item.last ∧ (n - item.first) % item.step = 0

instance (item : Item lo hi) (n : Nat) : Decidable (item.Lists n) :=
  inferInstanceAs (Decidable (_ ∧ _ ∧ _))

theorem Item.lo_le_first (item : Item lo hi) : lo ≤ item.first := by
  cases item with
  | every step step_pos => simp [first]
  | range first last step lo_le first_le le_hi step_pos => exact lo_le

theorem Item.last_le_hi (item : Item lo hi) : item.last ≤ hi := by
  cases item with
  | every step step_pos => simp [last]
  | range first last step lo_le first_le le_hi step_pos => exact le_hi

theorem Item.lists_first (h : lo ≤ hi) (item : Item lo hi) : item.Lists item.first := by
  cases item with
  | every step step_pos => simp [Lists, first, last, h]
  | range first last step lo_le first_le le_hi step_pos =>
    simp [Lists, Item.first, Item.last, first_le]

structure Field (lo hi : Nat) where
  items : List (Item lo hi)
  nonempty : items ≠ []
  deriving DecidableEq, Repr

def Field.Lists (field : Field lo hi) (n : Nat) : Prop := ∃ item ∈ field.items, item.Lists n

instance (field : Field lo hi) (n : Nat) : Decidable (field.Lists n) :=
  inferInstanceAs (Decidable (∃ item ∈ field.items, _))

def Field.hasStar (field : Field lo hi) : Bool := field.items.any Item.isStar

theorem Field.mem_range {field : Field lo hi} {n : Nat} (h : field.Lists n) : lo ≤ n ∧ n ≤ hi := by
  obtain ⟨item, _, hfirst, hlast, _⟩ := h
  have hlo := item.lo_le_first
  have hhi := item.last_le_hi
  omega

theorem Field.exists_lists (h : lo ≤ hi) (field : Field lo hi) : ∃ n, field.Lists n := by
  obtain ⟨item, hitem⟩ := List.exists_mem_of_ne_nil _ field.nonempty
  exact ⟨item.first, item, hitem, item.lists_first h⟩

/-- The field of the weekday; a name is the number of its day from Monday. -/
inductive Weekdays
  | name (day : Nat) (day_lt : day < 7)
  | numbers (field : Field 0 7)
  deriving DecidableEq, Repr

/-- The weekday `w`, counted from Monday, is one of them: by number, Monday is 1 and Sunday is 0
or 7. -/
def Weekdays.Has : Weekdays → Nat → Prop
  | name day _, w => w = day
  | numbers field, w => field.Lists ((w + 1) % 7) ∨ w = 6 ∧ field.Lists 7

instance (weekdays : Weekdays) (w : Nat) : Decidable (weekdays.Has w) :=
  match weekdays with
  | .name day _ => inferInstanceAs (Decidable (w = day))
  | .numbers _ => inferInstanceAs (Decidable (_ ∨ _ ∧ _))

def Weekdays.hasStar : Weekdays → Bool
  | name _ _ => false
  | numbers field => field.hasStar

theorem Weekdays.exists_has (weekdays : Weekdays) : ∃ w < 7, weekdays.Has w := by
  cases weekdays with
  | name day day_lt => exact ⟨day, day_lt, rfl⟩
  | numbers field =>
    obtain ⟨n, hn⟩ := field.exists_lists (by omega)
    obtain ⟨_, hle⟩ := Field.mem_range hn
    by_cases h7 : n = 7
    · subst h7
      exact ⟨6, by omega, Or.inr ⟨rfl, hn⟩⟩
    · refine ⟨(n + 6) % 7, Nat.mod_lt _ (by omega), Or.inl ?_⟩
      rwa [show ((n + 6) % 7 + 1) % 7 = n by omega]

/-! ## Expressions -/

structure Expression where
  minute : Field 0 59
  hour : Field 0 23
  day : Field 1 31
  month : Field 1 12
  weekdays : Weekdays
  deriving DecidableEq, Repr

/-- A minute of a day. -/
structure Minute where
  date : Date
  hour : Nat
  minute : Nat
  hour_le : hour ≤ 23
  minute_le : minute ≤ 59
  deriving DecidableEq, Repr

/-- One of the two fields for the day has a star. -/
def Expression.hasStar (e : Expression) : Bool := e.day.hasStar || e.weekdays.hasStar

/-- The rule for the day, given as month, day of the month and weekday from Monday. -/
def Expression.MatchesDay (e : Expression) (month day w : Nat) : Prop :=
  e.month.Lists month ∧
    if e.hasStar then e.day.Lists day ∧ e.weekdays.Has w else e.day.Lists day ∨ e.weekdays.Has w

def Expression.Matches (e : Expression) (t : Minute) : Prop :=
  e.minute.Lists t.minute ∧ e.hour.Lists t.hour ∧
    e.MatchesDay t.date.month t.date.day t.date.weekday

instance (e : Expression) (month day w : Nat) : Decidable (e.MatchesDay month day w) :=
  inferInstanceAs (Decidable (e.month.Lists month ∧ if e.hasStar then
    e.day.Lists day ∧ e.weekdays.Has w else e.day.Lists day ∨ e.weekdays.Has w))

instance (e : Expression) (t : Minute) : Decidable (e.Matches t) :=
  inferInstanceAs (Decidable (_ ∧ _ ∧ _))

/-! ## Reading -/

def parseNumber (cs : List Char) : Option Nat :=
  if cs ≠ [] ∧ cs.all Char.isDigit then some (Nat.ofDigitChars 10 cs 0) else none

/-- A star or a range, with the step after it. -/
def parseStepped (lo hi : Nat) (cs : List Char) (step : Nat) : Option (Item lo hi) :=
  if hstep : 0 < step then
    match cs.splitOn '-' with
    | [['*']] => some (.every step hstep)
    | [first, last] => do
      let a ← parseNumber first
      let b ← parseNumber last
      if h : lo ≤ a ∧ a ≤ b ∧ b ≤ hi then some (.range a b step h.1 h.2.1 h.2.2 hstep) else none
    | _ => none
  else none

/-- A single number. -/
def Item.single (n : Nat) (h : lo ≤ n ∧ n ≤ hi) : Item lo hi :=
  .range n n 1 h.1 (Nat.le_refl n) h.2 (by omega)

def Item.parse (lo hi : Nat) (cs : List Char) : Option (Item lo hi) :=
  match cs.splitOn '/' with
  | [base] =>
    match parseNumber base with
    | some n => if h : lo ≤ n ∧ n ≤ hi then some (.single n h) else none
    | none => parseStepped lo hi base 1
  | [base, step] => parseNumber step >>= parseStepped lo hi base
  | _ => none

def Field.parse (lo hi : Nat) (cs : List Char) : Option (Field lo hi) := do
  let items ← (cs.splitOn ',').mapM (Item.parse lo hi)
  if h : items ≠ [] then some ⟨items, h⟩ else none

def monthNames : List String :=
  ["jan", "feb", "mar", "apr", "may", "jun", "jul", "aug", "sep", "oct", "nov", "dec"]

def dayNames : List String := ["mon", "tue", "wed", "thu", "fri", "sat", "sun"]

/-- The position of the name in any case; none where it is no name. -/
def nameIndex (names : List String) (cs : List Char) : Nat :=
  names.idxOf (String.ofList (cs.map Char.toLower))

def parseMonth (cs : List Char) : Option (Field 1 12) :=
  if h : nameIndex monthNames cs < 12 then
    some ⟨[.single (nameIndex monthNames cs + 1) (by omega)], by simp⟩
  else Field.parse 1 12 cs

def Weekdays.parse (cs : List Char) : Option Weekdays :=
  if h : nameIndex dayNames cs < 7 then some (.name (nameIndex dayNames cs) h)
  else (Field.parse 0 7 cs).map .numbers

def Expression.parse (minute hour day month weekday : String) : Option Expression := do
  let minute ← Field.parse 0 59 minute.toList
  let hour ← Field.parse 0 23 hour.toList
  let day ← Field.parse 1 31 day.toList
  let month ← parseMonth month.toList
  let weekdays ← Weekdays.parse weekday.toList
  some ⟨minute, hour, day, month, weekdays⟩

end Crontab
