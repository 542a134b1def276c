import VsphereCompliance.Library.SearchFilter
import VsphereCompliance.Library.TextReplace

/-!
# Search filters with a hole

A `Template` is a search filter in which the value of one equality assertion is left open. Its
text with a value put in reads as its filter with the octets of the value exactly when the
value is plain (`parse_text_iff`): a value with a special character is read as something else,
whatever surrounds it. `replace_text` says that a template written with a placeholder gets its
value by replacing the placeholder.
-/

namespace SearchFilter

/-- A text that is one filter. -/
structure FilterText where
  text : List Char
  filter : Filter
  reads : readFilters text = some ([filter], [])

inductive Operator
  | and
  | or
  deriving DecidableEq, Repr

def Operator.char : Operator → Char
  | .and => '&'
  | .or => '|'

def Operator.make : Operator → List Filter → Filter
  | .and => .and
  | .or => .or

/-- A filter around the assertion whose value is open. -/
inductive Template
  | hole
  | list (op : Operator) (before : List FilterText) (t : Template) (after : List FilterText)
  | not (t : Template)

/-- One text behind the other. -/
def texts (fs : List FilterText) : List Char := fs.flatMap FilterText.text

/-- The text with the value put in. -/
def Template.text (attr value : List Char) : Template → List Char
  | .hole => '(' :: (attr ++ '=' :: (value ++ [')']))
  | .list op before t after =>
    '(' :: op.char :: (texts before ++ (t.text attr value ++ (texts after ++ [')'])))
  | .not t => '(' :: '!' :: (t.text attr value ++ [')'])

/-- The filter with the octets of the value put in. -/
def Template.fill (attr : List Char) (octets : List UInt8) : Template → Filter
  | .hole => .item (.compare attr .equal octets)
  | .list op before t after => op.make
    (before.map FilterText.filter ++ t.fill attr octets :: after.map FilterText.filter)
  | .not t => .not (t.fill attr octets)

/-! ## Reading the pieces -/

theorem readFilters_text (f : FilterText) (post : List Char) :
    readFilters (f.text ++ post) = (readFilters post).map fun r => (f.filter :: r.1, r.2) :=
  readFilters_append_nil post f.reads

theorem readFilters_texts (fs : List FilterText) (post : List Char) :
    readFilters (texts fs ++ post) =
      (readFilters post).map fun r => (fs.map FilterText.filter ++ r.1, r.2) := by
  induction fs with
  | nil =>
    show readFilters post = _
    cases readFilters post with
    | none => rfl
    | some r => rfl
  | cons f fs ih =>
    show readFilters (f.text ++ texts fs ++ post) = _
    rw [List.append_assoc, readFilters_text, ih, Option.map_map]
    rfl

theorem readFilters_close (post : List Char) :
    readFilters (')' :: post) = some ([], ')' :: post) := by
  apply readFilters_other
  intro cs heq
  cases (List.cons.inj heq).1

/-- What stands before the sign of an assertion. -/
theorem readComp_equal {attr : List Char} (hattr : isAttr attr = true)
    (list : List Char → Option (List Filter × List Char)) (cs : List Char) :
    readComp list (attr ++ '=' :: cs) = readValue (equality [attr]) cs := by
  have hall : ∀ c ∈ attr, isAttrChar c = true := by
    unfold isAttr at hattr
    rw [Bool.and_eq_true] at hattr
    exact List.all_eq_true.mp hattr.1
  have hheader : ∀ c ∈ attr, isHeaderChar c = true := by
    intro c hc
    rw [isHeaderChar, hall c hc, Bool.true_or]
  have hcolon : ':' ∉ attr := by
    intro hmem
    cases hall ':' hmem
  have hsign : isHeaderChar '=' = false := rfl
  have hdrop : (attr ++ '=' :: cs).dropWhile isHeaderChar = '=' :: cs := by
    rw [List.dropWhile_append_of_pos hheader, List.dropWhile_cons_of_neg (by rw [hsign]; decide)]
  have htake : (attr ++ '=' :: cs).takeWhile isHeaderChar = attr := by
    rw [List.takeWhile_append_of_pos hheader, List.takeWhile_cons_of_neg (by rw [hsign]; decide),
      List.append_nil]
  have hitem : readItem (attr ++ '=' :: cs) = readValue (equality [attr]) cs := by
    unfold readItem
    rw [hdrop, htake, List.splitOn_eq_singleton hcolon]
    rfl
  cases attr with
  | nil => cases hattr
  | cons c attr =>
    have hc := hall c List.mem_cons_self
    rw [← hitem, List.cons_append, readComp_item]
    refine ⟨?_, ?_, ?_⟩
    · rintro rfl
      cases hc
    · rintro rfl
      cases hc
    · rintro rfl
      cases hc

theorem equality_value {attr : List Char} (hattr : isAttr attr = true) (octets : List UInt8) :
    equality [attr] [octets] = some (.compare attr .equal octets) := if_pos hattr

theorem readComp_operator (op : Operator) (list : List Char → Option (List Filter × List Char))
    (cs : List Char) :
    readComp list (op.char :: cs) = finish (nonempty op.make) (list cs) := by
  cases op with
  | and => rfl
  | or => rfl

theorem nonempty_append (make : List Filter → Filter) (fs gs : List Filter) (f : Filter) :
    nonempty make (fs ++ f :: gs) = some (make (fs ++ f :: gs)) := by
  cases fs with
  | nil => rfl
  | cons g fs => rfl

theorem Operator.make_injective (op : Operator) : Function.Injective op.make := by
  intro fs gs h
  cases op with
  | and => exact Filter.and.inj h
  | or => exact Filter.or.inj h

theorem eq_of_nonempty {make : List Filter → Filter} {fs : List Filter} {f : Filter}
    (h : nonempty make fs = some f) : f = make fs := by
  cases fs with
  | nil => cases h
  | cons g fs => exact (Option.some.inj h).symm

/-- What is behind an opening parenthesis comes first. -/
theorem readFilters_of_readComp {cs rest : List Char} {f : Filter}
    (h : readComp readFilters cs = some (f, rest)) :
    readFilters ('(' :: cs) = (readFilters rest).map fun r => (f :: r.1, r.2) := by
  rw [readFilters_paren, h, Option.bind_some]

/-- The first filter is what is behind the opening parenthesis. -/
theorem readComp_of_readFilters {cs rest : List Char} {f : Filter} {gs : List Filter}
    (h : readFilters ('(' :: cs) = some (f :: gs, rest)) :
    ∃ rest', readComp readFilters cs = some (f, rest') := by
  rw [readFilters_paren] at h
  obtain ⟨⟨f', rest'⟩, hcomp, h⟩ := Option.bind_eq_some_iff.mp h
  obtain ⟨r, _, heq⟩ := Option.map_eq_some_iff.mp h
  obtain ⟨hfs, _⟩ := Prod.mk.inj heq
  obtain ⟨rfl, _⟩ := List.cons.inj hfs
  exact ⟨rest', hcomp⟩

theorem eq_of_single {fs : List Filter} {f : Filter} (h : single fs = some (.not f)) :
    fs = [f] := by
  unfold single at h
  split at h
  · cases h
    rfl
  · cases h

/-! ## The text of a template -/

theorem text_hole_append (attr value post : List Char) :
    Template.hole.text attr value ++ post = '(' :: (attr ++ '=' :: (value ++ ')' :: post)) := by
  simp [Template.text]

theorem text_list_append (attr value post : List Char) (op : Operator)
    (before : List FilterText) (t : Template) (after : List FilterText) :
    (Template.list op before t after).text attr value ++ post =
      '(' :: op.char :: (texts before ++ (t.text attr value ++ (texts after ++ ')' :: post))) := by
  simp [Template.text]

theorem text_not_append (attr value post : List Char) (t : Template) :
    t.not.text attr value ++ post = '(' :: '!' :: (t.text attr value ++ ')' :: post) := by
  simp [Template.text]

section Text

variable {attr : List Char} (hattr : isAttr attr = true)

include hattr

/-- The text with a plain value is the filter with its octets. -/
theorem readFilters_text_of_plain (t : Template) {value : List Char} (h : Plain value)
    (post : List Char) : readFilters (t.text attr value ++ post) =
      (readFilters post).map fun r => (t.fill attr (utf8 value) :: r.1, r.2) := by
  induction t generalizing post with
  | hole =>
    rw [text_hole_append]
    apply readFilters_of_readComp
    rw [readComp_equal hattr]
    refine finish_eq_some_iff.mpr ⟨[utf8 value], scan_plain post h, ?_⟩
    rw [equality_value hattr]
    rfl
  | list op before t after ih =>
    rw [text_list_append]
    apply readFilters_of_readComp
    rw [readComp_operator, readFilters_texts, ih, readFilters_texts, readFilters_close]
    refine finish_eq_some_iff.mpr ⟨_, rfl, ?_⟩
    show nonempty op.make (before.map FilterText.filter ++
      t.fill attr (utf8 value) :: (after.map FilterText.filter ++ [])) = _
    rw [List.append_nil]
    exact nonempty_append _ _ _ _
  | not t ih =>
    rw [text_not_append]
    apply readFilters_of_readComp
    show finish single (readFilters (t.text attr value ++ ')' :: post)) = _
    rw [ih, readFilters_close]
    exact finish_eq_some_iff.mpr ⟨_, rfl, rfl⟩

theorem pieces_of_equality {pieces : List (List UInt8)} {octets : List UInt8}
    (h : equality [attr] pieces = some (.compare attr .equal octets)) : pieces = [octets] := by
  rcases pieces with _ | ⟨p, _ | ⟨q, ps⟩⟩
  · cases h
  · rw [equality_value hattr] at h
    cases h
    rfl
  · -- two pieces make a presence or a substring assertion
    unfold equality at h
    split at h
    · rename_i heq
      cases heq
    · split at h
      · cases h
      · cases h
    · split at h
      · cases h
      · cases h
    · rename_i heq
      cases heq
    · cases h

/-- Only a plain value reads as its octets. -/
theorem plain_of_readFilters_text (t : Template) {value post rest : List Char}
    {gs : List Filter}
    (h : readFilters (t.text attr value ++ post) = some (t.fill attr (utf8 value) :: gs, rest)) :
    Plain value := by
  induction t generalizing post rest gs with
  | hole =>
    rw [text_hole_append] at h
    obtain ⟨rest', hcomp⟩ := readComp_of_readFilters h
    rw [readComp_equal hattr] at hcomp
    obtain ⟨pieces, hscan, hmake⟩ := finish_eq_some_iff.mp hcomp
    obtain ⟨i, hequality, hi⟩ := Option.map_eq_some_iff.mp hmake
    obtain rfl := Filter.item.inj hi
    rw [pieces_of_equality hattr hequality] at hscan
    exact plain_of_scan hscan
  | list op before t after ih =>
    rw [text_list_append] at h
    obtain ⟨rest', hcomp⟩ := readComp_of_readFilters h
    rw [readComp_operator] at hcomp
    obtain ⟨fs, hread, hmake⟩ := finish_eq_some_iff.mp hcomp
    have hfs := op.make_injective (eq_of_nonempty hmake)
    rw [readFilters_texts] at hread
    obtain ⟨⟨gs', rest''⟩, hinner, heq⟩ := Option.map_eq_some_iff.mp hread
    obtain ⟨hgs, _⟩ := Prod.mk.inj heq
    rw [← hfs] at hgs
    obtain rfl := List.append_cancel_left hgs
    exact ih hinner
  | not t ih =>
    rw [text_not_append] at h
    obtain ⟨rest', hcomp⟩ := readComp_of_readFilters h
    obtain ⟨fs, hread, hmake⟩ := finish_eq_some_iff.mp hcomp
    obtain rfl := eq_of_single hmake
    exact ih hread

end Text

/-- **The text with a value put in parses to the filter with its octets** exactly when the
value is plain. -/
theorem parse_text_iff {attr : List Char} (hattr : isAttr attr = true) (t : Template)
    (value : List Char) :
    parse (t.text attr value) = some (t.fill attr (utf8 value)) ↔ Plain value := by
  have hread : parse (t.text attr value) = some (t.fill attr (utf8 value)) ↔
      readFilters (t.text attr value ++ []) = some ([t.fill attr (utf8 value)], []) := by
    rw [List.append_nil]
    unfold parse
    split
    · rename_i f h
      rw [h]
      simp
    · rename_i hne
      refine ⟨?_, fun h => absurd h (hne _)⟩
      intro h
      cases h
  rw [hread]
  refine ⟨fun h => plain_of_readFilters_text hattr t h, ?_⟩
  intro h
  rw [readFilters_text_of_plain hattr t h]
  rfl

/-- With a star for the value the assertion is one of presence. -/
theorem parse_hole_star {attr : List Char} (hattr : isAttr attr = true) :
    parse (Template.hole.text attr ['*']) = some (.item (.present attr)) := by
  have hread : readFilters (Template.hole.text attr ['*'] ++ []) =
      some ([.item (.present attr)], []) := by
    rw [text_hole_append]
    have hcomp : readComp readFilters (attr ++ '=' :: (['*'] ++ ')' :: [])) =
        some (.item (.present attr), []) := by
      rw [readComp_equal hattr]
      refine finish_eq_some_iff.mpr ⟨[[], []], rfl, ?_⟩
      show (if isAttr attr then some (Item.present attr) else none).map Filter.item = _
      rw [if_pos hattr]
      rfl
    rw [readFilters_of_readComp hcomp]
    rfl
  rw [List.append_nil] at hread
  unfold parse
  rw [hread]

/-! ## Templates with a placeholder -/

open TextReplace

/-- The texts around the hole do not contain the placeholder. -/
def Template.Single (old : List Char) : Template → Prop
  | .hole => True
  | .list _ before t after =>
    (∀ f ∈ before, ¬ old <:+: f.text) ∧ t.Single old ∧ ∀ f ∈ after, ¬ old <:+: f.text
  | .not t => t.Single old

/-- The characters that structure a filter do not occur in the placeholder. -/
def Unstructured (old : List Char) : Prop :=
  old ≠ [] ∧ '(' ∉ old ∧ ')' ∉ old ∧ '&' ∉ old ∧ '|' ∉ old ∧ '!' ∉ old ∧ '=' ∉ old

theorem FilterText.exists_text_eq (f : FilterText) : ∃ cs, f.text = '(' :: cs := by
  by_contra hne
  have hread := f.reads
  rw [readFilters_other fun cs heq => hne ⟨cs, heq⟩] at hread
  cases hread

theorem Template.exists_text_append_eq (t : Template) (attr value post : List Char) :
    ∃ cs, t.text attr value ++ post = '(' :: cs := by
  cases t with
  | hole => exact ⟨_, text_hole_append _ _ _⟩
  | list op before t after => exact ⟨_, text_list_append _ _ _ _ _ _ _⟩
  | not t => exact ⟨_, text_not_append _ _ _ _⟩

/-- Texts, and what follows them, start with a parenthesis if that does. -/
theorem exists_head_texts_append {old : List Char} (hopen : '(' ∉ old) (fs : List FilterText)
    {c : Char} (post : List Char) (hc : c ∉ old) :
    ∃ d rest, texts fs ++ c :: post = d :: rest ∧ d ∉ old := by
  cases fs with
  | nil => exact ⟨c, post, rfl, hc⟩
  | cons f fs =>
    obtain ⟨cs, hcs⟩ := f.exists_text_eq
    refine ⟨'(', cs ++ texts fs ++ c :: post, ?_, hopen⟩
    show (f.text ++ texts fs) ++ c :: post = _
    rw [hcs]
    rfl

section Placeholder

variable {old : List Char} (hold : Unstructured old) (new : List Char)

include hold

theorem replace_texts_append {fs : List FilterText} (h : ∀ f ∈ fs, ¬ old <:+: f.text) (c : Char)
    (post : List Char) (hc : c ∉ old) :
    replace old new (texts fs ++ c :: post) = texts fs ++ replace old new (c :: post) := by
  have hold' := hold
  obtain ⟨hne, hopen, _⟩ := hold'
  induction fs with
  | nil => rfl
  | cons f fs ih =>
    obtain ⟨hf, hfs⟩ := List.forall_mem_cons.mp h
    obtain ⟨d, rest, hrest, hd⟩ := exists_head_texts_append hopen fs post hc
    show replace old new (f.text ++ texts fs ++ c :: post) = f.text ++ texts fs ++ _
    rw [List.append_assoc, hrest, replace_append_cons hd hne, replace_of_not_infix hf,
      ← replace_cons hd hne, ← hrest, ih hfs, List.append_assoc]

theorem replace_text_append {attr : List Char} (hattr : ¬ old <:+: attr) {t : Template}
    (h : t.Single old) (c : Char) (post : List Char) (hc : c ∉ old) :
    replace old new (t.text attr old ++ c :: post) =
      t.text attr new ++ replace old new (c :: post) := by
  have hold' := hold
  obtain ⟨hne, hopen, hclose, hand, hor, hnot, hequal⟩ := hold'
  induction t generalizing c post with
  | hole =>
    rw [text_hole_append, text_hole_append, replace_cons hopen hne,
      replace_append_cons hequal hne, replace_of_not_infix hattr, replace_append_cons hclose hne,
      replace_self hne]
  | list op before t after ih =>
    obtain ⟨hbefore, ht, hafter⟩ := h
    have hop : op.char ∉ old := by
      cases op with
      | and => exact hand
      | or => exact hor
    obtain ⟨cs, hcs⟩ := t.exists_text_append_eq attr old (texts after ++ ')' :: c :: post)
    obtain ⟨d, rest, hrest, hd⟩ := exists_head_texts_append hopen after (c :: post) hclose
    rw [text_list_append, text_list_append, replace_cons hopen hne, replace_cons hop hne, hcs,
      replace_texts_append hold new hbefore '(' cs hopen, ← hcs, hrest, ih ht d rest hd, ← hrest,
      replace_texts_append hold new hafter ')' (c :: post) hclose, replace_cons hclose hne]
  | not t ih =>
    rw [text_not_append, text_not_append, replace_cons hopen hne, replace_cons hnot hne,
      ih h ')' (c :: post) hclose, replace_cons hclose hne]

/-- **Replacing the placeholder puts the value in.** -/
theorem replace_text {attr : List Char} (hattr : ¬ old <:+: attr) {t : Template}
    (h : t.Single old) : replace old new (t.text attr old) = t.text attr new := by
  have hne := hold.1
  have hclose := hold.2.2.1
  have happend := replace_text_append hold new hattr h ')' [] hclose
  rw [replace_append_cons hclose hne, replace_cons hclose hne] at happend
  exact List.append_cancel_right happend

end Placeholder

/-! ## The assertion decides -/

/-- Only conjunctions surround the assertion. -/
def Template.Conjunctive : Template → Prop
  | .hole => True
  | .list op _ t _ => op = .and ∧ t.Conjunctive
  | .not _ => False

/-- What a conjunctive template selects satisfies its assertion. -/
theorem Template.Conjunctive.eval_item {t : Template} (h : t.Conjunctive) {attr : List Char}
    {octets : List UInt8} {m : Item → Option Bool}
    (heval : (t.fill attr octets).eval m = some true) :
    m (.compare attr .equal octets) = some true := by
  induction t with
  | hole => exact heval
  | list op before t after ih =>
    obtain ⟨rfl, ht⟩ := h
    exact ih ht (evalAll_eq_true_iff.mp heval _ (List.mem_append_right _ List.mem_cons_self))
  | not t ih => exact absurd h id

end SearchFilter
