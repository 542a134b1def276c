import VsphereCompliance.Engine.PatternTypes

/-!
# Names that differ in letter case

`re.IGNORECASE` matches two spellings of a name at the same spans, but the key of a group is
the text that was captured, as it is spelled in the name. Here a match is given by its spans.
Two spellings of a name are put in the same groups exactly when they have the same characters
where the first matching pattern captures, and a respelling that keeps these characters
changes no group (`letter_case_iff`).
-/

namespace VsphereCompliance.Engine

/-! ## Matches as spans -/

/-- `match.span(i)`. -/
structure Span where
  start : Nat
  stop : Nat
  deriving DecidableEq, Repr

/-- `name[start:stop]`. -/
def Span.text (s : Span) (name : String) : String :=
  String.ofList ((name.toList.drop s.start).take (s.stop - s.start))

/-- A match object by its spans. -/
structure SpanMatch where
  span0 : Span
  lastindex : Option Nat
  span1 : Option Span
  lastindex_ne_zero : lastindex ≠ some 0

inductive SpanResult
  | error
  | noMatch
  | found (m : SpanMatch)

abbrev SpanSearch := String → String → SpanResult

def SpanMatch.toMatch (m : SpanMatch) (name : String) : Match where
  group0 := m.span0.text name
  lastindex := m.lastindex
  group1 := m.span1.map (Span.text · name)
  lastindex_ne_zero := m.lastindex_ne_zero

/-- The texts of a search that is given by its spans. -/
def textSearch (spans : SpanSearch) : Search := fun pattern name =>
  match spans pattern name with
  | .error => .error
  | .noMatch => .noMatch
  | .found m => .found (m.toMatch name)

/-- The two names differ only in letter case, where `fold` takes a character to its case-free
form. -/
def SameLetters (fold : Char → Char) (a b : String) : Prop :=
  a.toList.map fold = b.toList.map fold

/-- A search with `IGNORECASE`: two spellings of a name match at the same spans. -/
def IgnoresCase (fold : Char → Char) (spans : SpanSearch) : Prop :=
  ∀ pattern a b, SameLetters fold a b → spans pattern a = spans pattern b

/-! ## The captured text -/

/-- The span whose text is the key. -/
def SpanMatch.keySpan (m : SpanMatch) : Option Span :=
  match m.lastindex with
  | none => some m.span0
  | some _ => m.span1

theorem drsKey_toMatch (m : SpanMatch) (name : String) :
    drsKey (m.toMatch name) = m.keySpan.map (Span.text · name) := by
  obtain ⟨span0, lastindex, span1, hne⟩ := m
  cases lastindex <;> rfl

/-- The match of the first pattern that matches. -/
def firstSpans (spans : SpanSearch) : List Pattern → String → Option SpanMatch
  | [], _ => none
  | p :: ps, name =>
    match spans p.regexPattern name with
    | .found m => some m
    | .noMatch => firstSpans spans ps name
    | .error => firstSpans spans ps name

/-- The two names have the same characters where the first pattern that matches `a`
captures. -/
def CapturedAlike (spans : SpanSearch) (ps : List Pattern) (a b : String) : Prop :=
  ∀ m s, firstSpans spans ps a = some m → m.keySpan = some s → s.text a = s.text b

section Keys

variable {fold : Char → Char} {spans : SpanSearch} {patterns : List Pattern} {a b : String}

theorem firstMatch_textSearch (ps : List Pattern) (name : String) :
    firstMatch (textSearch spans) drsKey ps name =
      (firstSpans spans ps name).map fun m => m.keySpan.map (Span.text · name) := by
  induction ps with
  | nil => rfl
  | cons p ps ih =>
    unfold firstMatch firstSpans textSearch
    cases hs : spans p.regexPattern name with
    | found m => exact congrArg some (drsKey_toMatch m name)
    | noMatch => exact ih
    | error => exact ih

theorem firstSpans_congr (h : IgnoresCase fold spans) (hab : SameLetters fold a b)
    (ps : List Pattern) : firstSpans spans ps a = firstSpans spans ps b := by
  induction ps with
  | nil => rfl
  | cons p ps ih =>
    unfold firstSpans
    rw [h p.regexPattern a b hab, ih]

/-- Two spellings get the same key exactly when the captured characters agree. -/
theorem firstMatch_eq_iff (h : IgnoresCase fold spans) (hab : SameLetters fold a b)
    (ps : List Pattern) :
    firstMatch (textSearch spans) drsKey ps a = firstMatch (textSearch spans) drsKey ps b ↔
      CapturedAlike spans ps a b := by
  rw [firstMatch_textSearch, firstMatch_textSearch, ← firstSpans_congr h hab]
  unfold CapturedAlike
  cases firstSpans spans ps a with
  | none => simp
  | some m =>
    constructor
    · intro heq m' s hm hs
      obtain rfl := Option.some.inj hm
      have htext : m.keySpan.map (Span.text · a) = m.keySpan.map (Span.text · b) :=
        Option.some.inj heq
      rw [hs] at htext
      exact Option.some.inj htext
    · intro halike
      have htext : m.keySpan.map (Span.text · a) = m.keySpan.map (Span.text · b) := by
        cases hs : m.keySpan with
        | none => rfl
        | some s => exact congrArg some (halike m s rfl hs)
      exact congrArg some htext

theorem drsGroupKey_eq_iff (h : IgnoresCase fold spans) (hab : SameLetters fold a b) :
    drsGroupKey (textSearch spans) patterns a = drsGroupKey (textSearch spans) patterns b ↔
      CapturedAlike spans (vmPatterns patterns) a b :=
  firstMatch_eq_iff h hab _

theorem storageGroupKey_eq_iff' (h : IgnoresCase fold spans) (hab : SameLetters fold a b) :
    storageGroupKey (textSearch spans) patterns a =
        storageGroupKey (textSearch spans) patterns b ↔
      CapturedAlike spans (dsPatterns patterns) a b := by
  have hkey : storageKey = drsKey := funext storageKey_eq_drsKey
  rw [storageGroupKey, storageGroupKey, hkey]
  exact firstMatch_eq_iff h hab _

end Keys

/-! ## Groups -/

/-- Both analyses put the two VMs of the cluster in the same group, or in none. -/
structure SameGroups (search : Search) (patterns : List Pattern) (inv : Inventory) (c : Cluster)
    (a b : Vm) : Prop where
  drs : ∀ k, InDrsGroup search patterns c a k ↔ InDrsGroup search patterns c b k
  storage : ∀ k, InStorageGroup search patterns inv c a k ↔ InStorageGroup search patterns inv c b k

/-- The DRS analysis puts the two VMs of the cluster in one group. -/
def DrsCompanions (search : Search) (patterns : List Pattern) (c : Cluster) (a b : Vm) : Prop :=
  ∃ k, InDrsGroup search patterns c a k ∧ InDrsGroup search patterns c b k

/-- The storage analysis puts the two VMs of the cluster in one group. -/
def StorageCompanions (search : Search) (patterns : List Pattern) (inv : Inventory) (c : Cluster)
    (a b : Vm) : Prop :=
  ∃ k, InStorageGroup search patterns inv c a k ∧ InStorageGroup search patterns inv c b k

/-- `b` is a respelling of `a` that keeps the characters that the patterns capture. -/
structure Respelled (fold : Char → Char) (spans : SpanSearch) (patterns : List Pattern)
    (a b : String) : Prop where
  letters : SameLetters fold a b
  drs : CapturedAlike spans (vmPatterns patterns) a b
  storage : CapturedAlike spans (dsPatterns patterns) a b

section Groups

variable {fold : Char → Char} {spans : SpanSearch} {patterns : List Pattern}

theorem sameGroups_iff (h : IgnoresCase fold spans) {inv : Inventory} {c : Cluster}
    (hc : c ∈ inv.clusters) {a b : Vm} (ha : a ∈ c.vms) (hb : b ∈ c.vms)
    (hab : SameLetters fold a.name b.name) :
    SameGroups (textSearch spans) patterns inv c a b ↔
      CapturedAlike spans (vmPatterns patterns) a.name b.name ∧
        CapturedAlike spans (dsPatterns patterns) a.name b.name := by
  rw [← drsGroupKey_eq_iff h hab, ← storageGroupKey_eq_iff' h hab, Option.ext_iff,
    Option.ext_iff]
  simp only [← inDrsGroup_iff ha, ← inDrsGroup_iff hb, ← inStorageGroup_iff hc ha,
    ← inStorageGroup_iff hc hb]
  exact ⟨fun h => ⟨h.drs, h.storage⟩, fun h => ⟨h.1, h.2⟩⟩

theorem drsCompanions_respelled (h : IgnoresCase fold spans) {c c' : Cluster} {a b a' b' : Vm}
    (ha : a ∈ c.vms) (hb : b ∈ c.vms) (ha' : a' ∈ c'.vms) (hb' : b' ∈ c'.vms)
    (haa : Respelled fold spans patterns a.name a'.name)
    (hbb : Respelled fold spans patterns b.name b'.name) :
    DrsCompanions (textSearch spans) patterns c a b ↔
      DrsCompanions (textSearch spans) patterns c' a' b' := by
  unfold DrsCompanions
  simp only [inDrsGroup_iff ha, inDrsGroup_iff hb, inDrsGroup_iff ha', inDrsGroup_iff hb',
    (drsGroupKey_eq_iff h haa.letters).mpr haa.drs, (drsGroupKey_eq_iff h hbb.letters).mpr hbb.drs]

theorem storageCompanions_respelled (h : IgnoresCase fold spans) {inv inv' : Inventory}
    {c c' : Cluster} (hc : c ∈ inv.clusters) (hc' : c' ∈ inv'.clusters) {a b a' b' : Vm}
    (ha : a ∈ c.vms) (hb : b ∈ c.vms) (ha' : a' ∈ c'.vms) (hb' : b' ∈ c'.vms)
    (haa : Respelled fold spans patterns a.name a'.name)
    (hbb : Respelled fold spans patterns b.name b'.name) :
    StorageCompanions (textSearch spans) patterns inv c a b ↔
      StorageCompanions (textSearch spans) patterns inv' c' a' b' := by
  unfold StorageCompanions
  simp only [inStorageGroup_iff hc ha, inStorageGroup_iff hc hb, inStorageGroup_iff hc' ha',
    inStorageGroup_iff hc' hb', (storageGroupKey_eq_iff' h haa.letters).mpr haa.storage,
    (storageGroupKey_eq_iff' h hbb.letters).mpr hbb.storage]

end Groups

/-- **Letter case**: two spellings of a name in one cluster are grouped alike exactly when
they have the same characters where the patterns capture; and respelling the names of an
inventory outside of these characters keeps every two VMs together or apart. -/
theorem letter_case_iff (fold : Char → Char) (spans : SpanSearch) (inv : Inventory)
    (patterns : List Pattern) (h : IgnoresCase fold spans) :
    (∀ c ∈ inv.clusters, ∀ a ∈ c.vms, ∀ b ∈ c.vms, SameLetters fold a.name b.name →
      (SameGroups (textSearch spans) patterns inv c a b ↔
        CapturedAlike spans (vmPatterns patterns) a.name b.name ∧
          CapturedAlike spans (dsPatterns patterns) a.name b.name)) ∧
    ∀ inv' : Inventory, ∀ c ∈ inv.clusters, ∀ c' ∈ inv'.clusters, ∀ a ∈ c.vms, ∀ b ∈ c.vms,
      ∀ a' ∈ c'.vms, ∀ b' ∈ c'.vms, Respelled fold spans patterns a.name a'.name →
        Respelled fold spans patterns b.name b'.name →
          (DrsCompanions (textSearch spans) patterns c a b ↔
            DrsCompanions (textSearch spans) patterns c' a' b') ∧
          (StorageCompanions (textSearch spans) patterns inv c a b ↔
            StorageCompanions (textSearch spans) patterns inv' c' a' b') := by
  refine ⟨?_, ?_⟩
  · intro c hc a ha b hb hab
    exact sameGroups_iff h hc ha hb hab
  · intro inv' c hc c' hc' a ha b hb a' ha' b' hb' haa hbb
    exact ⟨drsCompanions_respelled h ha hb ha' hb' haa hbb,
      storageCompanions_respelled h hc hc' ha hb ha' hb' haa hbb⟩

theorem lastindex_prefixSpans : (some 1 : Option Nat) ≠ some 0 := by decide

/-- The spans of `prefixSearch`. -/
def prefixSpans : SpanSearch := fun pattern name =>
  let p := prefixText pattern
  if (p ++ ['-']).map Char.toLower <+: name.toList.map Char.toLower then
    .found ⟨⟨0, p.length + 1⟩, some 1, some ⟨0, p.length⟩, lastindex_prefixSpans⟩
  else .noMatch

theorem ignoresCase_prefixSpans : IgnoresCase Char.toLower prefixSpans := by
  intro pattern a b hab
  unfold prefixSpans
  rw [show a.toList.map Char.toLower = b.toList.map Char.toLower from hab]

/-- Three spellings of two names; the third differs from the first after the captured text. -/
def spelledCluster : Cluster :=
  ⟨"Cluster-A", 4, [⟨"WEB-a1", []⟩, ⟨"web-a1", []⟩, ⟨"WEB-A1", []⟩], []⟩

theorem letter_case_iff_web :
    SameLetters Char.toLower "WEB-a1" "WEB-A1" ∧
      (SameGroups (textSearch prefixSpans) [webPattern] ⟨[spelledCluster], [], []⟩ spelledCluster
          ⟨"WEB-a1", []⟩ ⟨"WEB-A1", []⟩ ↔
        CapturedAlike prefixSpans (vmPatterns [webPattern]) "WEB-a1" "WEB-A1" ∧
          CapturedAlike prefixSpans (dsPatterns [webPattern]) "WEB-a1" "WEB-A1") := by
  have hletters : SameLetters Char.toLower "WEB-a1" "WEB-A1" := by
    unfold SameLetters
    decide
  exact ⟨hletters, (letter_case_iff Char.toLower prefixSpans ⟨[spelledCluster], [], []⟩
    [webPattern] ignoresCase_prefixSpans).1 spelledCluster (by decide) ⟨"WEB-a1", []⟩ (by decide)
      ⟨"WEB-A1", []⟩ (by decide) hletters⟩

/-- `WEB-a1` is in the group `WEB`, its other spelling `web-a1` in the group `web`. -/
theorem spelling_splits_group :
    ¬ ∀ (fold : Char → Char) (spans : SpanSearch) (inv : Inventory) (patterns : List Pattern),
      IgnoresCase fold spans → ∀ c ∈ inv.clusters, ∀ a ∈ c.vms, ∀ b ∈ c.vms,
        SameLetters fold a.name b.name → SameGroups (textSearch spans) patterns inv c a b := by
  intro hall
  have hletters : SameLetters Char.toLower "WEB-a1" "web-a1" := by
    unfold SameLetters
    decide
  have hsame := hall Char.toLower prefixSpans ⟨[spelledCluster], [], []⟩ [webPattern]
    ignoresCase_prefixSpans spelledCluster (by decide) ⟨"WEB-a1", []⟩ (by decide)
    ⟨"web-a1", []⟩ (by decide) hletters
  have hkey := (inDrsGroup_iff (by decide)).mp
    ((hsame.drs (some "WEB")).mp ((inDrsGroup_iff (by decide)).mpr (by decide)))
  exact absurd hkey (by decide)

end VsphereCompliance.Engine
