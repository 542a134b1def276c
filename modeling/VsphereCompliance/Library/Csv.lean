import Mathlib.Tactic.Common

/-!
# Comma-separated values

`write` is `csv.writer` with minimal quoting: a field is quoted when one of its characters is
the delimiter, the quote or a part of the line end, quotes are doubled inside, and a record of
one empty field is quoted so that it is not an empty line. `read` is `csv.reader` over the whole
text, a machine that takes one character at a time. What was written is read back, whatever the
fields contain (`read_write`).
-/

namespace Csv

/-- The characters of a dialect; the line end is a return and a line feed. -/
structure Dialect where
  delimiter : Char
  quotechar : Char
  delimiter_ne_quotechar : delimiter ≠ quotechar
  delimiter_ne_lineEnd : delimiter ≠ '\r' ∧ delimiter ≠ '\n'
  quotechar_ne_lineEnd : quotechar ≠ '\r' ∧ quotechar ≠ '\n'

/-- The dialect `excel`. -/
def excel : Dialect := ⟨',', '"', by decide, by decide, by decide⟩

variable (d : Dialect)

/-! ## Writing -/

/-- A field with this character is quoted. -/
def Dialect.needsQuotes (c : Char) : Prop :=
  c = d.delimiter ∨ c = d.quotechar ∨ c = '\r' ∨ c = '\n'

instance (c : Char) : Decidable (d.needsQuotes c) := inferInstanceAs (Decidable (_ ∨ _ ∨ _ ∨ _))

def doubled (field : List Char) : List Char :=
  field.flatMap fun c => if c = d.quotechar then [c, c] else [c]

def quoted (field : List Char) : List Char :=
  d.quotechar :: (doubled d field ++ [d.quotechar])

def writeField (field : List Char) : List Char :=
  if field.any fun c => d.needsQuotes c then quoted d field else field

/-- The fields behind the first one. -/
def writeRest (fields : List (List Char)) : List Char :=
  fields.flatMap fun field => d.delimiter :: writeField d field

def writeRecord : List (List Char) → List Char
  | [] => ['\r', '\n']
  | [[]] => quoted d [] ++ ['\r', '\n']
  | field :: fields => writeField d field ++ writeRest d fields ++ ['\r', '\n']

def write (records : List (List (List Char))) : List Char := records.flatMap (writeRecord d)

/-! ## Reading -/

inductive Mode
  | startRecord
  | startField
  | inField
  | inQuotedField
  | quoteInQuotedField
  | afterReturn
  deriving DecidableEq, Repr

/-- The field, the fields and the records read so far. -/
structure Reader where
  mode : Mode
  field : List Char
  fields : List (List Char)
  records : List (List (List Char))
  deriving DecidableEq, Repr

def Reader.start : Reader := ⟨.startRecord, [], [], []⟩

def Reader.addChar (r : Reader) (c : Char) (mode : Mode) : Reader :=
  { r with mode, field := r.field ++ [c] }

def Reader.saveField (r : Reader) : Reader :=
  { r with mode := .startField, field := [], fields := r.fields ++ [r.field] }

def Reader.saveRecord (r : Reader) (record : List (List Char)) (mode : Mode) : Reader :=
  ⟨mode, [], [], r.records ++ [record]⟩

/-- A line feed behind a return belongs to the line end. -/
def afterLineEnd (c : Char) : Mode := if c = '\r' then .afterReturn else .startRecord

def stepField (r : Reader) (c : Char) : Reader :=
  if c = '\r' ∨ c = '\n' then r.saveRecord (r.fields ++ [r.field]) (afterLineEnd c)
  else if c = d.delimiter then r.saveField
  else r.addChar c .inField

def stepStartField (r : Reader) (c : Char) : Reader :=
  if c = d.quotechar then { r with mode := .inQuotedField } else stepField d r c

def stepStartRecord (r : Reader) (c : Char) : Reader :=
  if c = '\r' ∨ c = '\n' then r.saveRecord [] (afterLineEnd c) else stepStartField d r c

/-- One character. -/
def step (r : Reader) (c : Char) : Reader :=
  match r.mode with
  | .startRecord => stepStartRecord d r c
  | .startField => stepStartField d r c
  | .inField => stepField d r c
  | .inQuotedField =>
    if c = d.quotechar then { r with mode := .quoteInQuotedField }
    else r.addChar c .inQuotedField
  | .quoteInQuotedField =>
    if c = d.quotechar then r.addChar c .inQuotedField else stepField d r c
  | .afterReturn =>
    if c = '\n' then { r with mode := .startRecord } else stepStartRecord d r c

/-- The records at the end of the text; the last line may lack its end. -/
def Reader.finish (r : Reader) : List (List (List Char)) :=
  match r.mode with
  | .startRecord => r.records
  | .afterReturn => r.records
  | _ => r.records ++ [r.fields ++ [r.field]]

def read (text : List Char) : List (List (List Char)) :=
  (text.foldl (step d) .start).finish

/-! ## One field -/

section Field

variable {d} {r : Reader}

/-- The modes in which a field may begin. -/
def Mode.Begins (m : Mode) : Prop := m = .startRecord ∨ m = .startField

/-- The modes in which a field is complete if the next character ends it. -/
def Mode.Ends (m : Mode) : Prop := m = .startField ∨ m = .inField ∨ m = .quoteInQuotedField

/-- Doubled quotes give back the field. -/
theorem foldl_step_doubled (field : List Char) (hmode : r.mode = .inQuotedField) :
    (doubled d field).foldl (step d) r = { r with field := r.field ++ field } := by
  induction field generalizing r with
  | nil =>
    show r = { r with field := r.field ++ [] }
    rw [List.append_nil]
  | cons c field ih =>
    have happend : r.field ++ c :: field = (r.field ++ [c]) ++ field := by simp
    unfold doubled
    rw [List.flatMap_cons, List.foldl_append, happend]
    by_cases hc : c = d.quotechar
    · have hquote : [c, c].foldl (step d) r = r.addChar c .inQuotedField := by
        simp [step, hmode, hc, Reader.addChar]
      rw [if_pos hc, hquote]
      exact (ih rfl).trans (by simp [Reader.addChar, hmode])
    · have hplain : [c].foldl (step d) r = r.addChar c .inQuotedField := by
        simp [step, hmode, hc]
      rw [if_neg hc, hplain]
      exact (ih rfl).trans (by simp [Reader.addChar, hmode])

theorem foldl_step_quoted (field : List Char) (hmode : r.mode.Begins) (hfield : r.field = []) :
    (quoted d field).foldl (step d) r = { r with mode := .quoteInQuotedField, field } := by
  have hopen : step d r d.quotechar = { r with mode := .inQuotedField } := by
    have hnot : ¬ (d.quotechar = '\r' ∨ d.quotechar = '\n') :=
      not_or.mpr d.quotechar_ne_lineEnd
    rcases hmode with hmode | hmode
    · simp only [step, hmode, stepStartRecord, stepStartField, if_neg hnot, if_true]
    · simp only [step, hmode, stepStartField, if_true]
  unfold quoted
  rw [List.foldl_cons, hopen, List.foldl_append, foldl_step_doubled field rfl, hfield]
  simp [step]

/-- A character that needs no quotes is taken as it is. -/
theorem step_plain {c : Char} (hc : ¬ d.needsQuotes c) (hmode : r.mode.Begins ∨
    r.mode = .inField) : step d r c = r.addChar c .inField := by
  obtain ⟨hdelimiter, hquote, hreturn, hfeed⟩ : c ≠ d.delimiter ∧ c ≠ d.quotechar ∧
      c ≠ '\r' ∧ c ≠ '\n' := by
    simpa only [Dialect.needsQuotes, not_or] using hc
  rcases hmode with (hmode | hmode) | hmode
  · simp [step, hmode, stepStartRecord, stepStartField, stepField, hdelimiter, hquote, hreturn,
      hfeed]
  · simp [step, hmode, stepStartField, stepField, hdelimiter, hquote, hreturn, hfeed]
  · simp [step, hmode, stepField, hdelimiter, hreturn, hfeed]

theorem foldl_step_plain (field : List Char) (hplain : ∀ c ∈ field, ¬ d.needsQuotes c)
    (hmode : r.mode = .inField) :
    field.foldl (step d) r = { r with field := r.field ++ field } := by
  induction field generalizing r with
  | nil =>
    show r = { r with field := r.field ++ [] }
    rw [List.append_nil]
  | cons c field ih =>
    rw [List.foldl_cons, step_plain (hplain c List.mem_cons_self) (Or.inr hmode),
      ih (fun c' hc' => hplain c' (List.mem_cons_of_mem _ hc')) rfl]
    simp [Reader.addChar, hmode]

/-- A written field is read into `field`; only an empty one leaves the mode as it was. -/
theorem foldl_step_writeField (field : List Char) (hmode : r.mode.Begins)
    (hfield : r.field = []) : ∃ mode, (mode.Ends ∨ field = [] ∧ mode = r.mode) ∧
      (writeField d field).foldl (step d) r = { r with mode, field } := by
  unfold writeField
  split
  · exact ⟨.quoteInQuotedField, Or.inl (Or.inr (Or.inr rfl)),
      foldl_step_quoted field hmode hfield⟩
  · rename_i hneeds
    cases field with
    | nil =>
      refine ⟨r.mode, Or.inr ⟨rfl, rfl⟩, ?_⟩
      obtain ⟨mode, field, fields, records⟩ := r
      obtain rfl : field = [] := hfield
      rfl
    | cons c field =>
      have hplain : ∀ c' ∈ c :: field, ¬ d.needsQuotes c' := fun c' hc' h =>
        hneeds (List.any_eq_true.mpr ⟨c', hc', decide_eq_true h⟩)
      refine ⟨.inField, Or.inl (Or.inr (Or.inl rfl)), ?_⟩
      rw [List.foldl_cons, step_plain (hplain c List.mem_cons_self) (Or.inl hmode),
        foldl_step_plain field (fun c' hc' => hplain c' (List.mem_cons_of_mem _ hc')) rfl]
      simp [Reader.addChar, hfield]

theorem step_delimiter (hmode : r.mode.Ends ∨ r.mode.Begins) :
    step d r d.delimiter = r.saveField := by
  have hquote := d.delimiter_ne_quotechar
  obtain ⟨hreturn, hfeed⟩ := d.delimiter_ne_lineEnd
  rcases hmode with (hmode | hmode | hmode) | (hmode | hmode)
  all_goals
    simp [step, hmode, stepStartRecord, stepStartField, stepField, hquote, hreturn, hfeed]

/-- The line end behind a field. -/
theorem foldl_step_lineEnd (hmode : r.mode.Ends) : ['\r', '\n'].foldl (step d) r =
    r.saveRecord (r.fields ++ [r.field]) .startRecord := by
  have hquote : '\r' ≠ d.quotechar := d.quotechar_ne_lineEnd.1.symm
  have hreturn : step d r '\r' = r.saveRecord (r.fields ++ [r.field]) .afterReturn := by
    rcases hmode with hmode | hmode | hmode
    all_goals simp [step, hmode, stepStartField, stepField, hquote, afterLineEnd]
  rw [List.foldl_cons, hreturn]
  rfl

end Field

/-! ## Records -/

variable {d}

/-- The fields behind the first one, and the line end; the first one may be empty if there are
others. -/
theorem foldl_step_writeRest (fields : List (List Char)) {r : Reader}
    (hmode : r.mode.Ends ∨ r.mode.Begins ∧ fields ≠ []) :
    (writeRest d fields ++ ['\r', '\n']).foldl (step d) r =
      r.saveRecord (r.fields ++ r.field :: fields) .startRecord := by
  induction fields generalizing r with
  | nil =>
    rcases hmode with hmode | hmode
    · exact foldl_step_lineEnd hmode
    · exact absurd rfl hmode.2
  | cons field fields ih =>
    obtain ⟨mode, hends, hread⟩ := foldl_step_writeField (d := d) (r := r.saveField) field
      (Or.inr rfl) rfl
    have hmode' : mode.Ends := by
      rcases hends with hends | ⟨_, rfl⟩
      · exact hends
      · exact Or.inl rfl
    unfold writeRest
    rw [List.flatMap_cons, List.cons_append, List.cons_append, List.foldl_cons,
      step_delimiter (hmode.imp_right And.left), List.append_assoc, List.foldl_append, hread]
    refine (ih (Or.inl hmode')).trans ?_
    simp [Reader.saveRecord, Reader.saveField]

/-- **One record** is read back. -/
theorem foldl_step_writeRecord (record : List (List Char))
    (records : List (List (List Char))) :
    (writeRecord d record).foldl (step d) ⟨.startRecord, [], [], records⟩ =
      ⟨.startRecord, [], [], records ++ [record]⟩ := by
  unfold writeRecord
  split
  · rfl
  · rw [List.foldl_append, foldl_step_quoted [] (Or.inl rfl) rfl,
      foldl_step_lineEnd (Or.inr (Or.inr rfl))]
    rfl
  · rename_i field fields hne
    obtain ⟨mode, hends, hread⟩ := foldl_step_writeField (d := d)
      (r := ⟨.startRecord, [], [], records⟩) field (Or.inl rfl) rfl
    rw [List.append_assoc, List.foldl_append, hread]
    rcases hends with hends | ⟨rfl, rfl⟩
    · exact foldl_step_writeRest fields (Or.inl hends)
    · -- a first field that is empty has others behind it
      exact foldl_step_writeRest fields (Or.inr ⟨Or.inl rfl, fun hnil => hne rfl hnil⟩)

/-- **What was written is read back.** -/
theorem read_write (d : Dialect) (records : List (List (List Char))) :
    read d (write d records) = records := by
  have hrun : ∀ done, (write d records).foldl (step d) ⟨.startRecord, [], [], done⟩ =
      ⟨.startRecord, [], [], done ++ records⟩ := by
    induction records with
    | nil => simp [write]
    | cons record records ih =>
      intro done
      unfold write
      rw [List.flatMap_cons, List.foldl_append, foldl_step_writeRecord]
      exact (ih _).trans (by simp)
  unfold read Reader.start
  rw [hrun]
  rfl

end Csv
