import VsphereCompliance.Engine.Inventory
import VsphereCompliance.Library.OrderedDict

/-!
# Grouping VMs by the first matching pattern

Both analyses run the same inner loop over the patterns: the first pattern that matches the
VM's name decides the group, a pattern that raises `re.error` is passed over. `re.search`
with `IGNORECASE` is an arbitrary function of the pattern and the name.
-/

namespace VsphereCompliance.Engine

/-- A match object: `group(0)`, `lastindex`, and `group(1)` (`None` when group 1 took no
part). `lastindex` counts from 1. -/
structure Match where
  group0 : String
  lastindex : Option Nat
  group1 : Option String
  lastindex_ne_zero : lastindex ≠ some 0

inductive SearchResult
  | error
  | noMatch
  | found (m : Match)

def SearchResult.isFound : SearchResult → Bool
  | .found _ => true
  | .noMatch => false
  | .error => false

/-- `re.search(pattern, name, re.IGNORECASE)`. -/
abbrev Search := String → String → SearchResult

/-- The key of a group; `None` when the pattern has a group 1 that took no part. -/
abbrev GroupKey := Option String

/-- The pattern loop: the key of the first pattern that matches. -/
def firstMatch (search : Search) (key : Match → GroupKey) :
    List Pattern → String → Option GroupKey
  | [], _ => none
  | p :: ps, name =>
    match search p.regexPattern name with
    | .found m => some (key m)
    | .noMatch => firstMatch search key ps name
    | .error => firstMatch search key ps name

/-- `match.group(0) if match.lastindex is None else match.group(1)`. -/
def drsKey (m : Match) : GroupKey :=
  match m.lastindex with
  | none => some m.group0
  | some _ => m.group1

/-- `match.group(1) if match.lastindex else match.group(0)`. -/
def storageKey (m : Match) : GroupKey :=
  match m.lastindex with
  | none => some m.group0
  | some 0 => some m.group0
  | some (_ + 1) => m.group1

/-- The two spellings of the group key agree: `lastindex` is never `0`. -/
theorem storageKey_eq_drsKey (m : Match) : storageKey m = drsKey m := by
  unfold storageKey drsKey
  cases h : m.lastindex with
  | none => rfl
  | some i =>
    cases i with
    | zero => exact absurd h m.lastindex_ne_zero
    | succ i => rfl

/-- A name belongs to a group exactly when one of the patterns matches it. -/
theorem isSome_firstMatch (search : Search) (key : Match → GroupKey) (ps : List Pattern)
    (name : String) :
    (firstMatch search key ps name).isSome =
      ps.any fun p => (search p.regexPattern name).isFound := by
  induction ps with
  | nil => rfl
  | cons p ps ih =>
    unfold firstMatch
    cases h : search p.regexPattern name with
    | found m => simp [h, SearchResult.isFound]
    | noMatch => simp [h, ih, SearchResult.isFound]
    | error => simp [h, ih, SearchResult.isFound]

/-- `m` is the match of the first pattern of the list that matches the name. -/
def FirstMatching (search : Search) (ps : List Pattern) (name : String) (m : Match) : Prop :=
  ∃ before p after, ps = before ++ p :: after ∧
    (∀ q ∈ before, ∀ m', search q.regexPattern name ≠ .found m') ∧
    search p.regexPattern name = .found m

theorem firstMatching_cons_iff {search : Search} {p : Pattern} {ps : List Pattern}
    {name : String} {m : Match} :
    FirstMatching search (p :: ps) name m ↔
      search p.regexPattern name = .found m ∨
        ((∀ m', search p.regexPattern name ≠ .found m') ∧ FirstMatching search ps name m) := by
  constructor
  · rintro ⟨before, q, after, heq, hbefore, hq⟩
    cases before with
    | nil =>
      obtain ⟨rfl, rfl⟩ := List.cons.inj heq
      exact Or.inl hq
    | cons r before =>
      obtain ⟨rfl, rfl⟩ := List.cons.inj heq
      refine Or.inr ⟨hbefore _ List.mem_cons_self, before, q, after, rfl, ?_, hq⟩
      intro r hr
      exact hbefore r (List.mem_cons_of_mem _ hr)
  · rintro (hp | ⟨hp, before, q, after, rfl, hbefore, hq⟩)
    · exact ⟨[], p, ps, rfl, by simp, hp⟩
    · refine ⟨p :: before, q, after, rfl, ?_, hq⟩
      intro r hr
      rcases List.mem_cons.mp hr with rfl | hr
      · exact hp
      · exact hbefore r hr

/-- The key is that of the first pattern that matches. -/
theorem firstMatch_eq_some_iff (search : Search) (key : Match → GroupKey) (ps : List Pattern)
    (name : String) (k : GroupKey) :
    firstMatch search key ps name = some k ↔ ∃ m, FirstMatching search ps name m ∧ key m = k := by
  induction ps with
  | nil => simp [firstMatch, FirstMatching]
  | cons p ps ih =>
    simp only [firstMatching_cons_iff]
    unfold firstMatch
    cases h : search p.regexPattern name with
    | found m => simp
    | noMatch => simp [ih]
    | error => simp [ih]

/-- The match of the seeded pattern `^(WEB)-` on a name that starts with `WEB-`. -/
def webMatch : Match := ⟨"WEB-", some 1, some "WEB", by decide⟩

/-- `re.search` for the seeded pattern `^(WEB)-`, on names in capitals. -/
def webSearch : Search := fun pattern name =>
  if pattern = "^(WEB)-" ∧ "WEB-".toList.isPrefixOf name.toList = true then .found webMatch
  else .noMatch

/-- The seeded pattern "Web Servers". -/
def webPattern : Pattern := ⟨.vmName, "^(WEB)-"⟩

/-- The text `P` of a pattern `^(P)-`. -/
def prefixText (pattern : String) : List Char :=
  (pattern.toList.drop 2).take (pattern.length - 4)

/-- `re.search` with `IGNORECASE` for patterns `^(P)-` whose text is letters, digits and
hyphens. -/
def prefixSearch : Search := fun pattern name =>
  let p := prefixText pattern
  if (p ++ ['-']).map Char.toLower <+: name.toList.map Char.toLower then
    .found ⟨String.ofList (name.toList.take (p.length + 1)), some 1,
      some (String.ofList (name.toList.take p.length)), by decide⟩
  else .noMatch

/-- `vm_groups[key].append(value)` over the VMs that have a key, in inventory order. -/
abbrev groupVms {β γ : Type*} (key : β → Option GroupKey) (val : β → γ) (vms : List β) :
    OrderedDict GroupKey (List γ) := OrderedDict.group key val vms

end VsphereCompliance.Engine
