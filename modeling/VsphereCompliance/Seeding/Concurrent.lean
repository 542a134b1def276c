import VsphereCompliance.Seeding.OneAdmin

/-!
# Concurrent seeding

Names of patterns are not unique. A process that has found patterns missing, and makes its
first query for a setting when another one has committed, has no setting to fail at: it commits
its patterns a second time (`late_settings_seed_twice`). If no process is in this place at the
commit that adds the patterns, every row is there once when all have ended, and else some
pattern is there twice (`seeded_once_iff`).

Up to that commit nothing is seeded and every process finds everything missing (`Unseeded`).
Behind it the rows are there once (`Seeded`), or a process is left that adds some again
(`Spoiled`).
-/

namespace VsphereCompliance.Seeding

open Engine Store Accounts Settings Runs

variable {c : Cipher} {ι : Type*}

/-! ## What should hold -/

/-- One admin, one row for each default pattern, and one for each default setting. -/
structure SeededOnce (d : Deployment ι) (store : SeedStore c) : Prop where
  admin : ∃ i u, store.users.rows = [u] ∧ u.toNewUser = d.admin i
  patterns : ∀ p ∈ defaultPatterns, (store.patterns.rows.map PatternConfig.name).count p.name = 1
  settings : ∀ s ∈ defaults, store.settings.rows.keys.count s.1 = 1

/-- The process has found patterns missing and has made no query for a setting. -/
def SeedPhase.Exposed : SeedPhase → Prop
  | .checkingPatterns _ added => added ≠ []
  | .checkingSettings patterns todo _ => patterns ≠ [] ∧ todo = defaults
  | _ => False

/-- The next step of the process is a commit with patterns. -/
def SeedPhase.CommitsPatterns : SeedPhase → Prop
  | .flushing patterns [] _ => patterns ≠ []
  | _ => False

theorem SeedPhase.CommitsPatterns.exists_eq {phase : SeedPhase} (h : phase.CommitsPatterns) :
    ∃ patterns inserted, phase = .flushing patterns [] inserted ∧ patterns ≠ [] := by
  unfold SeedPhase.CommitsPatterns at h
  split at h
  · exact ⟨_, _, rfl, h⟩
  · exact h.elim

/-- At a commit with patterns, no other process is exposed. -/
def CommitsAlone (σ : Startups c ι) (i : ι) : Prop :=
  (σ.phases i).CommitsPatterns → ∀ j, j ≠ i → ¬ (σ.phases j).Exposed

/-! ## Before the commit of the patterns -/

/-- The process is between its step for the admin and its end. -/
def SeedPhase.Working : SeedPhase → Prop
  | .checkingAdmin => False
  | .insertingAdmin => False
  | .committingAdmin => False
  | .checkingPatterns _ _ => True
  | .checkingSettings _ _ _ => True
  | .flushing _ _ _ => True
  | .ended => False

/-- All that the process has looked for was missing. -/
def SeedPhase.Early : SeedPhase → Prop
  | .checkingAdmin => True
  | .insertingAdmin => True
  | .committingAdmin => True
  | .checkingPatterns todo added => added ++ todo = defaultPatterns
  | .checkingSettings patterns todo added => patterns = defaultPatterns ∧ added ++ todo = defaults
  | .flushing patterns todo inserted => patterns = defaultPatterns ∧ inserted ++ todo = defaults
  | .ended => True

/-- Neither patterns nor settings are there. No two transactions hold one key, and once there is
an admin some process is on its way to the last commit. -/
structure Unseeded (store : SeedStore c) (phases : ι → SeedPhase) : Prop where
  patterns : store.patterns.rows = []
  settings : store.settings.rows.keys = []
  early : ∀ i, (phases i).Early
  locks : ∀ i j, i ≠ j → ∀ key ∈ (phases i).held, key ∉ (phases j).held
  leader : store.users.rows ≠ [] → ∃ i, (phases i).Working

/-- What the process is still to commit fails at a key of a setting. -/
def SeedPhase.Late : SeedPhase → Prop
  | .checkingAdmin => True
  | .insertingAdmin => True
  | .committingAdmin => True
  | .checkingPatterns todo added => todo ⊆ defaultPatterns ∧ added = []
  | .checkingSettings patterns todo added =>
    todo ⊆ defaults ∧ added ⊆ defaults ∧ (patterns = [] ∨ added ≠ [])
  | .flushing patterns todo inserted =>
    inserted = [] ∧ todo ⊆ defaults ∧ (patterns = [] ∨ todo ≠ [])
  | .ended => True

/-- The patterns are there once, and so are the settings. -/
structure Seeded (store : SeedStore c) (phases : ι → SeedPhase) : Prop where
  patterns : store.patterns.rows.map PatternConfig.name = defaultPatterns.map DefaultPattern.name
  settings : ∀ s ∈ defaults, store.hasSetting s = true
  late : ∀ i, (phases i).Late

section Invariants

variable {d : Deployment ι} {store : SeedStore c} {phases : ι → SeedPhase} {σ : Startups c ι}
  {i : ι} {phase : SeedPhase}

theorem unseeded_start : Unseeded (Startups.start c ι).store (Startups.start c ι).phases where
  patterns := rfl
  settings := rfl
  early := fun _ => trivial
  locks := fun _ _ _ _ hkey => absurd hkey List.not_mem_nil
  leader := fun hne => absurd rfl hne

theorem Unseeded.hasPattern_eq_false (h : Unseeded store phases) (p : DefaultPattern) :
    store.hasPattern p = false := by
  unfold SeedStore.hasPattern
  rw [h.patterns]
  rfl

theorem Unseeded.hasSetting_eq_false (h : Unseeded store phases) (s : String × String) :
    store.hasSetting s = false := by
  have hnone : store.settings.get? s.1 = none := by
    refine OrderedDict.get?_eq_none_iff.mpr ?_
    rw [h.settings]
    exact List.not_mem_nil
  unfold SeedStore.hasSetting
  rw [hnone]
  rfl

theorem Unseeded.missingSettings_eq (h : Unseeded store phases) :
    store.missingSettings = defaults := by
  refine List.filter_eq_self.mpr ?_
  intro s _
  rw [h.hasSetting_eq_false s]
  rfl

theorem hasPattern_of_mem {p : DefaultPattern}
    (h : p.name ∈ store.patterns.rows.map PatternConfig.name) : store.hasPattern p = true := by
  obtain ⟨r, hr, hname⟩ := List.mem_map.mp h
  exact List.any_eq_true.mpr ⟨r, hr, decide_eq_true hname⟩

theorem Seeded.hasPattern_eq_true (h : Seeded store phases) {p : DefaultPattern}
    (hp : p ∈ defaultPatterns) : store.hasPattern p = true := by
  refine hasPattern_of_mem ?_
  rw [h.patterns]
  exact List.mem_map_of_mem hp

theorem addSettings_nil (store : SeedStore c) : store.addSettings [] = some store.settings := by
  have haccepted : Session.Accepted (⟨store.settings.rows, []⟩ : Session c) := by
    refine ⟨?_, store.settings.fits⟩
    rw [List.map_nil, List.append_nil]
    exact store.settings.rows.nodup
  exact dif_pos haccepted

/-- A process that is not exposed and holds no key is late after the commit of another. -/
theorem SeedPhase.late_of_early (hearly : phase.Early) (hexposed : ¬ phase.Exposed)
    (hheld : ∀ s ∈ defaults, s.1 ∉ phase.held) : phase.Late := by
  cases phase with
  | checkingAdmin => trivial
  | insertingAdmin => trivial
  | committingAdmin => trivial
  | checkingPatterns todo added =>
    have hsplit : added ++ todo = defaultPatterns := hearly
    refine ⟨?_, not_not.mp hexposed⟩
    rw [← hsplit]
    exact List.subset_append_right _ _
  | checkingSettings patterns todo added =>
    obtain ⟨rfl, hsplit⟩ := hearly
    refine ⟨?_, ?_, Or.inr ?_⟩
    · rw [← hsplit]
      exact List.subset_append_right _ _
    · rw [← hsplit]
      exact List.subset_append_left _ _
    · rintro rfl
      exact hexposed ⟨List.cons_ne_nil _ _, hsplit⟩
  | flushing patterns todo inserted =>
    obtain ⟨rfl, hsplit⟩ := hearly
    have hnil : inserted = [] := by
      refine List.eq_nil_iff_forall_not_mem.mpr fun s hs => ?_
      have hmem : s ∈ defaults := hsplit ▸ List.mem_append_left _ hs
      exact hheld s hmem (List.mem_map_of_mem hs)
    subst hnil
    obtain rfl : todo = defaults := hsplit
    exact ⟨rfl, List.Subset.refl _, Or.inr (List.cons_ne_nil _ _)⟩
  | ended => trivial

/-- Nothing hinders the first commit. -/
theorem Unseeded.exists_addSettings (h : Unseeded store phases) {patterns : List DefaultPattern}
    {inserted : List (String × String)} (hphase : phases i = .flushing patterns [] inserted) :
    ∃ settings, store.addSettings inserted = some settings := by
  have hearly := h.early i
  rw [hphase] at hearly
  have hall : inserted = defaults := (List.append_nil _).symm.trans hearly.2
  rw [hall, ← h.missingSettings_eq]
  exact ⟨_, addSettings_missingSettings store⟩

/-- The commit of the patterns adds all rows. -/
theorem Unseeded.rows_of_commit (h : Unseeded store phases) {patterns : List DefaultPattern}
    {inserted : List (String × String)} {settings : AppSettings c}
    (hphase : phases i = .flushing patterns [] inserted)
    (hadd : store.addSettings inserted = some settings) :
    (store.addPatterns patterns).rows.map PatternConfig.name =
        defaultPatterns.map DefaultPattern.name ∧
      ∀ s ∈ defaults, (settings.get? s.1).isSome = true := by
  have hearly := h.early i
  rw [hphase] at hearly
  obtain ⟨rfl, hsplit⟩ := hearly
  rw [List.append_nil] at hsplit
  subst hsplit
  refine ⟨?_, ?_⟩
  · show (store.patterns.rows ++ Table.newRows patternRow _ defaultPatterns).map _ = _
    rw [h.patterns, List.nil_append]
    have hname : ∀ n p, (patternRow n p).name = p.name := fun _ _ => rfl
    exact Table.map_newRows hname _ _
  · intro s hs
    rw [← h.missingSettings_eq] at hs
    have hcommit := addSettings_missingSettings store
    rw [h.missingSettings_eq, hadd] at hcommit
    obtain rfl := Option.some.inj hcommit
    rw [get?_ensureSettings_of_missing hs]
    rfl

variable [DecidableEq ι]

/-- A process that commits neither patterns nor settings. -/
theorem Unseeded.update (h : Unseeded store phases) (users : Users) (hearly : phase.Early)
    (hlocks : ∀ key ∈ phase.held, ∀ j, j ≠ i → key ∉ (phases j).held)
    (hleader : users.rows ≠ [] → phase.Working ∨ store.users.rows ≠ [] ∧ ¬ (phases i).Working) :
    Unseeded { store with users } (Function.update phases i phase) where
  patterns := h.patterns
  settings := h.settings
  early := (Function.forall_update_iff phases fun _ new => new.Early).mpr
    ⟨hearly, fun j _ => h.early j⟩
  locks := by
    intro j k hjk key hkey
    by_cases hji : j = i
    · subst hji
      rw [Function.update_self] at hkey
      rw [Function.update_of_ne hjk.symm]
      exact hlocks key hkey k hjk.symm
    · rw [Function.update_of_ne hji] at hkey
      by_cases hki : k = i
      · subst hki
        rw [Function.update_self]
        exact fun hheld => hlocks key hheld j hji hkey
      · rw [Function.update_of_ne hki]
        exact h.locks j k hjk key hkey
  leader := by
    intro hne
    rcases hleader hne with hworking | ⟨hold, hidle⟩
    · exact ⟨i, by rwa [Function.update_self]⟩
    · obtain ⟨j, hj⟩ := h.leader hold
      have hji : j ≠ i := by
        rintro rfl
        exact hidle hj
      exact ⟨j, by rwa [Function.update_of_ne hji]⟩

theorem Seeded.update (h : Seeded store phases) (users : Users) (hlate : phase.Late) :
    Seeded { store with users } (Function.update phases i phase) where
  patterns := h.patterns
  settings := h.settings
  late := (Function.forall_update_iff phases fun _ new => new.Late).mpr
    ⟨hlate, fun j _ => h.late j⟩

/-- **The commit of the patterns**, with no other process exposed. -/
theorem Unseeded.commit (h : Unseeded store phases) {patterns : List DefaultPattern}
    {inserted : List (String × String)} {settings : AppSettings c}
    (hphase : phases i = .flushing patterns [] inserted)
    (hadd : store.addSettings inserted = some settings)
    (halone : ∀ j, j ≠ i → ¬ (phases j).Exposed) :
    Seeded { store with patterns := store.addPatterns patterns, settings }
      (Function.update phases i .ended) := by
  obtain ⟨hpatterns, hsettings⟩ := h.rows_of_commit hphase hadd
  have hearly := h.early i
  rw [hphase] at hearly
  refine ⟨hpatterns, hsettings, ?_⟩
  refine (Function.forall_update_iff phases fun _ new => new.Late).mpr ⟨trivial, ?_⟩
  intro j hji
  refine SeedPhase.late_of_early (h.early j) (halone j hji) fun s hs => ?_
  have hall : inserted = defaults := (List.append_nil _).symm.trans hearly.2
  refine h.locks i j (Ne.symm hji) s.1 ?_
  rw [hphase, hall]
  exact List.mem_map_of_mem hs

theorem Unseeded.leads (h : Unseeded σ.store σ.phases) (hguard : CommitsAlone σ i)
    {store' : SeedStore c} (hleads : σ.Leads d i store' phase) :
    Unseeded store' (Function.update σ.phases i phase) ∨
      Seeded store' (Function.update σ.phases i phase) := by
  have hearly := h.early i
  have hidle : ∀ {old : SeedPhase}, σ.phases i = old → ¬ old.Working →
      ¬ (σ.phases i).Working := fun hphase hold => hphase ▸ hold
  have hfree : ∀ key ∈ ([] : List String), ∀ j, j ≠ i → key ∉ (σ.phases j).held :=
    fun key hkey => absurd hkey List.not_mem_nil
  cases hleads with
  | adminFound hphase _ =>
    exact Or.inl (h.update σ.store.users rfl hfree fun _ => Or.inl trivial)
  | adminMissing hphase =>
    exact Or.inl (h.update σ.store.users trivial hfree fun hne => Or.inr ⟨hne, hidle hphase id⟩)
  | adminInserted hphase _ _ =>
    exact Or.inl (h.update σ.store.users trivial hfree fun hne => Or.inr ⟨hne, hidle hphase id⟩)
  | adminRejected hphase _ =>
    refine Or.inl (h.update σ.store.users trivial hfree fun hne => Or.inr ⟨hne, ?_⟩)
    exact hphase.elim (hidle · id) (hidle · id)
  | adminCommitted hphase _ =>
    exact Or.inl (h.update _ rfl hfree fun _ => Or.inl trivial)
  | patternsChecked hphase =>
    rw [hphase] at hearly
    refine Or.inl (h.update σ.store.users ⟨?_, rfl⟩ hfree fun _ => Or.inl trivial)
    exact (List.append_nil _).symm.trans hearly
  | @patternChecked p todo added hphase =>
    rw [hphase] at hearly
    refine Or.inl (h.update σ.store.users ?_ hfree fun _ => Or.inl trivial)
    rw [h.hasPattern_eq_false p, if_neg Bool.false_ne_true]
    exact (List.append_cons added p todo).symm.trans hearly
  | settingsChecked hphase =>
    rw [hphase] at hearly
    refine Or.inl (h.update σ.store.users ⟨hearly.1, ?_⟩ hfree fun _ => Or.inl trivial)
    exact (List.append_nil _).symm.trans hearly.2
  | @settingChecked patterns s todo added hphase =>
    rw [hphase] at hearly
    refine Or.inl (h.update σ.store.users ?_ hfree fun _ => Or.inl trivial)
    rw [h.hasSetting_eq_false s, if_neg Bool.false_ne_true]
    exact ⟨hearly.1, (List.append_cons added s todo).symm.trans hearly.2⟩
  | @settingRejected patterns s todo inserted hphase hhas =>
    rw [h.hasSetting_eq_false s] at hhas
    cases hhas
  | @settingInserted patterns s todo inserted hphase hheld _ =>
    have hlocks := h.locks i
    rw [hphase] at hearly hlocks
    refine Or.inl (h.update σ.store.users ?_ ?_ fun _ => Or.inl trivial)
    · exact ⟨hearly.1, (List.append_cons inserted s todo).symm.trans hearly.2⟩
    · intro key hkey j hji
      have hkey' : key ∈ (inserted ++ [s]).map Prod.fst := hkey
      rw [List.map_append, List.mem_append] at hkey'
      rcases hkey' with hold | hnew
      · exact hlocks j (Ne.symm hji) key hold
      · obtain rfl := List.mem_singleton.mp hnew
        exact fun hmem => hheld ⟨j, hji, hmem⟩
  | committed hphase hadd =>
    refine Or.inr (h.commit hphase hadd (hguard ?_))
    rw [hphase] at hearly ⊢
    show _ ≠ []
    rw [hearly.1]
    exact List.cons_ne_nil _ _
  | commitRejected hphase hadd =>
    obtain ⟨_, hsome⟩ := h.exists_addSettings hphase
    rw [hadd] at hsome
    cases hsome

theorem Seeded.leads (h : Seeded σ.store σ.phases) {store' : SeedStore c}
    (hleads : σ.Leads d i store' phase) : Seeded store' (Function.update σ.phases i phase) := by
  have hlate := h.late i
  cases hleads with
  | adminFound _ _ => exact h.update σ.store.users ⟨List.Subset.refl _, rfl⟩
  | adminMissing _ => exact h.update σ.store.users trivial
  | adminInserted _ _ _ => exact h.update σ.store.users trivial
  | adminRejected _ _ => exact h.update σ.store.users trivial
  | adminCommitted _ _ => exact h.update _ ⟨List.Subset.refl _, rfl⟩
  | patternsChecked hphase =>
    rw [hphase] at hlate
    exact h.update σ.store.users ⟨List.Subset.refl _, List.nil_subset _, Or.inl hlate.2⟩
  | @patternChecked p todo added hphase =>
    rw [hphase] at hlate
    obtain ⟨hsub, hnil⟩ := hlate
    rw [List.cons_subset] at hsub
    rw [h.hasPattern_eq_true hsub.1, if_pos rfl]
    exact h.update σ.store.users ⟨hsub.2, hnil⟩
  | settingsChecked hphase =>
    rw [hphase] at hlate
    exact h.update σ.store.users ⟨rfl, hlate.2⟩
  | @settingChecked patterns s todo added hphase =>
    rw [hphase] at hlate
    obtain ⟨hsub, hadded⟩ := hlate
    rw [List.cons_subset] at hsub
    rw [h.settings s hsub.1, if_pos rfl]
    exact h.update σ.store.users ⟨hsub.2, hadded⟩
  | settingRejected _ _ => exact h.update σ.store.users trivial
  | @settingInserted patterns s todo inserted hphase _ hmissing =>
    rw [hphase] at hlate
    obtain ⟨_, hsub, _⟩ := hlate
    rw [List.cons_subset] at hsub
    rw [h.settings s hsub.1] at hmissing
    cases hmissing
  | committed hphase hadd =>
    rw [hphase] at hlate
    obtain ⟨rfl, _, hpatterns⟩ := hlate
    obtain rfl := hpatterns.resolve_right fun hne => hne rfl
    rw [addSettings_nil] at hadd
    obtain rfl := Option.some.inj hadd
    have hended : Seeded σ.store (Function.update σ.phases i .ended) :=
      h.update σ.store.users trivial
    refine ⟨?_, h.settings, hended.late⟩
    show (σ.store.patterns.rows ++ []).map _ = _
    rw [List.append_nil]
    exact h.patterns
  | commitRejected _ _ => exact h.update σ.store.users trivial

end Invariants

/-! ## After a commit with another process exposed -/

/-- What the process is still to commit are patterns, and no setting. -/
def SeedPhase.Doomed : SeedPhase → Prop
  | .checkingAdmin => False
  | .insertingAdmin => False
  | .committingAdmin => False
  | .checkingPatterns todo added => todo ⊆ defaultPatterns ∧ added ⊆ defaultPatterns ∧ added ≠ []
  | .checkingSettings patterns todo added =>
    patterns ⊆ defaultPatterns ∧ patterns ≠ [] ∧ todo ⊆ defaults ∧ added = []
  | .flushing patterns todo inserted =>
    patterns ⊆ defaultPatterns ∧ patterns ≠ [] ∧ todo = [] ∧ inserted = []
  | .ended => False

/-- A default pattern has two rows, or will have. -/
structure Spoiled (store : SeedStore c) (phases : ι → SeedPhase) : Prop where
  patterns : ∀ p ∈ defaultPatterns, p.name ∈ store.patterns.rows.map PatternConfig.name
  settings : ∀ s ∈ defaults, store.hasSetting s = true
  twice : (∃ p ∈ defaultPatterns,
      2 ≤ (store.patterns.rows.map PatternConfig.name).count p.name) ∨
    ∃ j, (phases j).Doomed

section Spoiled

variable {d : Deployment ι} {store : SeedStore c} {phases : ι → SeedPhase} {σ : Startups c ι}
  {i : ι} {phase : SeedPhase}

/-- An exposed process that finds all settings will commit its patterns. -/
theorem SeedPhase.doomed_of_exposed (hearly : phase.Early) (hexposed : phase.Exposed) :
    phase.Doomed := by
  cases phase with
  | checkingAdmin => exact hexposed
  | insertingAdmin => exact hexposed
  | committingAdmin => exact hexposed
  | checkingPatterns todo added =>
    have hsplit : added ++ todo = defaultPatterns := hearly
    refine ⟨?_, ?_, hexposed⟩
    · rw [← hsplit]
      exact List.subset_append_right _ _
    · rw [← hsplit]
      exact List.subset_append_left _ _
  | checkingSettings patterns todo added =>
    obtain ⟨rfl, hsplit⟩ := hearly
    obtain ⟨hne, rfl⟩ := hexposed
    exact ⟨List.Subset.refl _, hne, List.Subset.refl _, List.append_left_eq_self.mp hsplit⟩
  | flushing patterns todo inserted => exact hexposed.elim
  | ended => exact hexposed

/-- A commit keeps the settings that are there. -/
theorem hasSetting_of_addSettings {ds : List (String × String)} {settings : AppSettings c}
    (hadd : store.addSettings ds = some settings) {s : String × String}
    (h : store.hasSetting s = true) : (settings.get? s.1).isSome = true := by
  unfold SeedStore.addSettings Session.commit at hadd
  split at hadd
  · rename_i haccepted
    obtain rfl := Option.some.inj hadd
    refine OrderedDict.get?_isSome_iff.mpr ?_
    have hkey : s.1 ∈ store.settings.rows.keys := OrderedDict.get?_isSome_iff.mp h
    show s.1 ∈ (Session.rows _).entries.map Prod.fst
    rw [Session.rows, OrderedDict.entries_foldl_set haccepted.1, List.map_append]
    exact List.mem_append_left _ hkey
  · cases hadd

/-- The names of the patterns after a commit. -/
theorem names_addPatterns (store : SeedStore c) (ps : List DefaultPattern) :
    (store.addPatterns ps).rows.map PatternConfig.name =
      store.patterns.rows.map PatternConfig.name ++ ps.map DefaultPattern.name := by
  have hname : ∀ n p, (patternRow n p).name = p.name := fun _ _ => rfl
  show (store.patterns.rows ++ Table.newRows patternRow _ ps).map _ = _
  rw [List.map_append, Table.map_newRows hname]

variable [DecidableEq ι]

/-- A process that commits nothing stays doomed, if it is the one. -/
theorem Spoiled.update (h : Spoiled store phases) (users : Users)
    (hdoomed : (phases i).Doomed → phase.Doomed) :
    Spoiled { store with users } (Function.update phases i phase) where
  patterns := h.patterns
  settings := h.settings
  twice := by
    rcases h.twice with htwice | ⟨j, hj⟩
    · exact Or.inl htwice
    · refine Or.inr ⟨j, ?_⟩
      by_cases hji : j = i
      · subst hji
        rw [Function.update_self]
        exact hdoomed hj
      · rwa [Function.update_of_ne hji]

/-- A commit keeps what is spoiled, and carries out what was doomed. -/
theorem Spoiled.commit (h : Spoiled store phases) {patterns : List DefaultPattern}
    {inserted : List (String × String)} {settings : AppSettings c}
    (hphase : phases i = .flushing patterns [] inserted)
    (hadd : store.addSettings inserted = some settings) :
    Spoiled { store with patterns := store.addPatterns patterns, settings }
      (Function.update phases i .ended) where
  patterns := by
    intro p hp
    show p.name ∈ (store.addPatterns patterns).rows.map _
    rw [names_addPatterns]
    exact List.mem_append_left _ (h.patterns p hp)
  settings := fun s hs => hasSetting_of_addSettings hadd (h.settings s hs)
  twice := by
    show (∃ p ∈ defaultPatterns, 2 ≤ ((store.addPatterns patterns).rows.map _).count p.name) ∨ _
    rw [names_addPatterns]
    rcases h.twice with ⟨p, hp, htwice⟩ | ⟨j, hj⟩
    · refine Or.inl ⟨p, hp, ?_⟩
      rw [List.count_append]
      exact Nat.le_add_right_of_le htwice
    · by_cases hji : j = i
      · subst hji
        rw [hphase] at hj
        obtain ⟨hsub, hne, _⟩ := hj
        obtain ⟨p, hp⟩ := List.exists_mem_of_ne_nil _ hne
        refine Or.inl ⟨p, hsub hp, ?_⟩
        have hold := List.one_le_count_iff.mpr (h.patterns p (hsub hp))
        have hnew := List.one_le_count_iff.mpr (List.mem_map_of_mem (f := DefaultPattern.name) hp)
        rw [List.count_append]
        omega
      · refine Or.inr ⟨j, ?_⟩
        rwa [Function.update_of_ne hji]

theorem Spoiled.leads (h : Spoiled σ.store σ.phases) {store' : SeedStore c}
    (hleads : σ.Leads d i store' phase) : Spoiled store' (Function.update σ.phases i phase) := by
  have hsettled : ∀ {old : SeedPhase}, σ.phases i = old → ¬ old.Doomed →
      (σ.phases i).Doomed → phase.Doomed :=
    fun hphase hold hdoomed => absurd (hphase ▸ hdoomed) hold
  cases hleads with
  | adminFound hphase _ => exact h.update σ.store.users (hsettled hphase id)
  | adminMissing hphase => exact h.update σ.store.users (hsettled hphase id)
  | adminInserted hphase _ _ => exact h.update σ.store.users (hsettled hphase id)
  | adminRejected hphase _ =>
    exact h.update σ.store.users (hphase.elim (hsettled · id) (hsettled · id))
  | adminCommitted hphase _ => exact h.update _ (hsettled hphase id)
  | patternsChecked hphase =>
    refine h.update σ.store.users ?_
    rw [hphase]
    exact fun hdoomed => ⟨hdoomed.2.1, hdoomed.2.2, List.Subset.refl _, rfl⟩
  | @patternChecked p todo added hphase =>
    refine h.update σ.store.users ?_
    rw [hphase]
    intro hdoomed
    obtain ⟨hsub, hadded⟩ := hdoomed
    rw [List.cons_subset] at hsub
    rw [hasPattern_of_mem (h.patterns p hsub.1), if_pos rfl]
    exact ⟨hsub.2, hadded⟩
  | settingsChecked hphase =>
    refine h.update σ.store.users ?_
    rw [hphase]
    exact fun hdoomed => ⟨hdoomed.1, hdoomed.2.1, hdoomed.2.2.2, rfl⟩
  | @settingChecked patterns s todo added hphase =>
    refine h.update σ.store.users ?_
    rw [hphase]
    intro hdoomed
    obtain ⟨hpatterns, hne, hsub, hadded⟩ := hdoomed
    rw [List.cons_subset] at hsub
    rw [h.settings s hsub.1, if_pos rfl]
    exact ⟨hpatterns, hne, hsub.2, hadded⟩
  | settingRejected hphase _ =>
    exact h.update σ.store.users (hsettled hphase fun hdoomed => by cases hdoomed.2.2.1)
  | settingInserted hphase _ _ =>
    exact h.update σ.store.users (hsettled hphase fun hdoomed => by cases hdoomed.2.2.1)
  | committed hphase hadd => exact h.commit hphase hadd
  | commitRejected hphase hadd =>
    refine h.update σ.store.users (hsettled hphase fun hdoomed => ?_)
    rw [hdoomed.2.2.2, addSettings_nil] at hadd
    cases hadd

end Spoiled

/-! ## Runs -/

section Ended

variable {d : Deployment ι} {σ : Startups c ι}

/-- What holds while every commit of patterns finds no other process exposed. -/
def SeedInv (d : Deployment ι) (σ : Startups c ι) : Prop :=
  OneAdmin d σ.store.users σ.phases ∧
    (Unseeded σ.store σ.phases ∨ Seeded σ.store σ.phases)

/-- When all processes have ended, the store is seeded. -/
theorem seededOnce_of_ended [Nonempty ι] (h : SeedInv d σ) (hended : ∀ i, σ.phases i = .ended) :
    SeededOnce d σ.store := by
  obtain ⟨hadmin, hstate⟩ := h
  have hrows : σ.store.users.rows ≠ [] := by
    obtain ⟨i⟩ := ‹Nonempty ι›
    refine hadmin.past i ?_
    rw [hended i]
    trivial
  rcases hstate with hunseeded | hseeded
  · -- the process on its way to the last commit has not ended
    obtain ⟨i, hworking⟩ := hunseeded.leader hrows
    rw [hended i] at hworking
    exact hworking.elim
  · refine ⟨hadmin.row.resolve_left hrows, ?_, ?_⟩
    · rw [hseeded.patterns]
      decide
    · intro s hs
      refine List.count_eq_one_of_mem σ.store.settings.rows.nodup ?_
      exact OrderedDict.get?_isSome_iff.mp (hseeded.settings s hs)

theorem not_seededOnce_of_ended (h : Spoiled σ.store σ.phases)
    (hended : ∀ i, σ.phases i = .ended) : ¬ SeededOnce d σ.store := by
  intro honce
  rcases h.twice with ⟨p, hp, htwice⟩ | ⟨j, hdoomed⟩
  · have hone := honce.patterns p hp
    omega
  · rw [hended j] at hdoomed
    exact hdoomed

end Ended

section Schedules

variable [Fintype ι] [DecidableEq ι] {d : Deployment ι} {σ : Startups c ι} {i : ι}

theorem seedInv_advance (hfits : ∀ i, TextsFit (d.admin i).texts) (h : SeedInv d σ)
    (hguard : CommitsAlone σ i) : SeedInv d (σ.advance d i) := by
  rcases σ.advance_cases d i with hwait | ⟨store, phase, hleads, hstep⟩
  · rw [hwait]
    exact h
  · rw [hstep]
    refine ⟨h.1.leads hfits hleads, ?_⟩
    rcases h.2 with hunseeded | hseeded
    · exact hunseeded.leads hguard hleads
    · exact Or.inr (hseeded.leads hleads)

theorem Spoiled.advance (h : Spoiled σ.store σ.phases) (i : ι) :
    Spoiled (σ.advance d i).store (σ.advance d i).phases := by
  rcases σ.advance_cases d i with hwait | ⟨store, phase, hleads, hstep⟩
  · rw [hwait]
    exact h
  · rw [hstep]
    exact h.leads hleads

theorem Spoiled.after (h : Spoiled σ.store σ.phases) (schedule : List ι) :
    Spoiled (schedule.foldl (Startups.advance d) σ).store
      (schedule.foldl (Startups.advance d) σ).phases := by
  induction schedule generalizing σ with
  | nil => exact h
  | cons i schedule ih => exact ih (h.advance i)

/-- A commit of patterns with another process exposed. -/
theorem spoiled_of_not_commitsAlone (h : SeedInv d σ) (hnot : ¬ CommitsAlone σ i) :
    Spoiled (σ.advance d i).store (σ.advance d i).phases := by
  obtain ⟨hcommits, hothers⟩ := Classical.not_imp.mp hnot
  obtain ⟨j, hj⟩ := not_forall.mp hothers
  obtain ⟨hji, hexposed⟩ := Classical.not_imp.mp hj
  obtain ⟨patterns, inserted, hphase, hne⟩ := hcommits.exists_eq
  rcases h.2 with hunseeded | hseeded
  · obtain ⟨settings, hadd⟩ := hunseeded.exists_addSettings hphase
    obtain ⟨hpatterns, hsettings⟩ := hunseeded.rows_of_commit hphase hadd
    rw [Startups.advance_of_commit d hphase hadd]
    refine ⟨?_, hsettings, Or.inr ⟨j, ?_⟩⟩
    · intro p hp
      rw [hpatterns]
      exact List.mem_map_of_mem hp
    · show (Function.update σ.phases i .ended j).Doomed
      rw [Function.update_of_ne hji]
      exact SeedPhase.doomed_of_exposed (hunseeded.early j) (not_not.mp hexposed)
  · have hlate := hseeded.late i
    rw [hphase] at hlate
    exact absurd (hlate.2.2.resolve_right fun hnil => hnil rfl) hne

theorem spoiled_of_not_throughout (hfits : ∀ i, TextsFit (d.admin i).texts) (h : SeedInv d σ)
    {schedule : List ι} (hnot : ¬ Throughout (Startups.advance d) CommitsAlone σ schedule) :
    Spoiled (schedule.foldl (Startups.advance d) σ).store
      (schedule.foldl (Startups.advance d) σ).phases := by
  induction schedule generalizing σ with
  | nil => exact absurd trivial hnot
  | cons i schedule ih =>
    by_cases hok : CommitsAlone σ i
    · exact ih (seedInv_advance hfits h hok) fun hrest => hnot ⟨hok, hrest⟩
    · exact (spoiled_of_not_commitsAlone h hok).after schedule

/-- **Concurrent seeding is idempotent** in exactly the runs in which no process is exposed at a
commit of patterns by another. -/
theorem seeded_once_iff [Nonempty ι] (c : Cipher) (d : Deployment ι)
    (hfits : ∀ i, TextsFit (d.admin i).texts) (schedule : List ι)
    (hended : ∀ i, (Startups.after c d schedule).phases i = .ended) :
    SeededOnce d (Startups.after c d schedule).store ↔
      Throughout (Startups.advance d) CommitsAlone (Startups.start c ι) schedule := by
  have hstart : SeedInv d (Startups.start c ι) := ⟨oneAdmin_start d, Or.inl unseeded_start⟩
  constructor
  · intro honce
    by_contra hnot
    exact not_seededOnce_of_ended (spoiled_of_not_throughout hfits hstart hnot) hended honce
  · intro hguard
    refine seededOnce_of_ended ?_ hended
    exact hguard.invariant (I := SeedInv d) (fun _ _ h hok => seedInv_advance hfits h hok) hstart

end Schedules

/-! ## Two servers -/

def twoServers : Deployment Bool :=
  ⟨"admin", "admin@example.com", fun second => if second then "hash-2" else "hash-1"⟩

theorem fits_twoServers : ∀ i, TextsFit (twoServers.admin i).texts := by decide

/-- One server after the other. -/
def oneByOne : List Bool := List.replicate 20 false ++ List.replicate 15 true

theorem ended_oneByOne : ∀ i, (Startups.after labelledCipher twoServers oneByOne).phases i =
    .ended := by
  decide +kernel

theorem seeded_once_iff_oneByOne :
    SeededOnce twoServers (Startups.after labelledCipher twoServers oneByOne).store ↔
      Throughout (Startups.advance twoServers) CommitsAlone (Startups.start labelledCipher Bool)
        oneByOne :=
  seeded_once_iff labelledCipher twoServers fits_twoServers oneByOne ended_oneByOne

/-- Both find all patterns missing, and the second looks for the settings when the first has
committed. -/
def lateSettings : List Bool :=
  List.replicate 12 false ++ List.replicate 10 true ++ List.replicate 8 false ++
    List.replicate 5 true

/-- The patterns are there twice. -/
theorem late_settings_seed_twice :
    ¬ ∀ (ι : Type) [Fintype ι] [DecidableEq ι] [Nonempty ι] (c : Cipher) (d : Deployment ι)
      (schedule : List ι), (∀ i, TextsFit (d.admin i).texts) →
      (∀ i, (Startups.after c d schedule).phases i = .ended) →
      SeededOnce d (Startups.after c d schedule).store := by
  intro hall
  have honce := hall Bool labelledCipher twoServers lateSettings fits_twoServers
    (by decide +kernel)
  have hcount := honce.patterns ⟨"Web Servers", .vmName, "^(WEB)-"⟩ (by decide)
  exact absurd hcount (by decide +kernel)

end VsphereCompliance.Seeding
