import VsphereCompliance.Settings.History

/-!
# Seeding the store at start-up

`seedInitialData` is `seed_initial_data`: one session for the admin, the patterns and the
settings. The admin is committed by its step; the rows of the other two wait in the session
for the commit at the end. A step that raises ends the call, and what is not committed by then
is rolled back. So the steps are independent only as far as no step fails in front of or beside
one that has rows to add (`steps_independent_iff`).
-/

namespace VsphereCompliance.Seeding

open Engine Store Accounts Settings

variable {c : Cipher}

/-! ## The rows -/

/-- The configured admin, with the hash of the password. -/
structure AdminConfig where
  username : String
  email : String
  passwordHash : String

def adminUser (cfg : AdminConfig) : NewUser where
  username := cfg.username
  email := some cfg.email
  hashedPassword := some cfg.passwordHash
  fullName := some "Administrator"
  role := .admin
  isActive := true
  isLdap := false

structure DefaultPattern where
  name : String
  patternType : PatternType
  regexPattern : String
  deriving DecidableEq, Repr

def defaultPatterns : List DefaultPattern :=
  [⟨"Web Servers", .vmName, "^(WEB)-"⟩, ⟨"App Servers", .vmName, "^(APP)-"⟩,
    ⟨"DB Servers", .vmName, "^(DB)-"⟩, ⟨"Cache Servers", .vmName, "^(CACHE)-"⟩,
    ⟨"Proxy Servers", .vmName, "^(PROXY)-"⟩, ⟨"Worker Servers", .vmName, "^(WORKER)-"⟩,
    ⟨"Prod DS", .datastore, "^(DS-PROD)-"⟩, ⟨"DR DS", .datastore, "^(DS-DR)-"⟩]

def patternRow (id : Nat) (p : DefaultPattern) : PatternConfig where
  id := id
  name := p.name
  patternType := p.patternType
  regexPattern := p.regexPattern
  description := none
  isActive := true

/-- The tables that the seeding reads and writes. -/
structure SeedStore (c : Cipher) where
  users : Users
  patterns : Table PatternConfig PatternConfig.id
  settings : AppSettings c

/-- Insert the patterns. -/
def SeedStore.addPatterns (store : SeedStore c) (ps : List DefaultPattern) :
    Table PatternConfig PatternConfig.id :=
  store.patterns.insertRows patternRow (fun _ _ => rfl) ps

/-- Insert the settings; the keys are unique. -/
def SeedStore.addSettings (store : SeedStore c) (ds : List (String × String)) :
    Option (AppSettings c) :=
  Session.commit ⟨store.settings.rows, ds.map fun d => (d.1, seeded d.2)⟩

/-! ## The three steps -/

/-- What raises in a call besides the constraints: a query, hashing the password, or a write. -/
structure Faults where
  adminQuery : Bool
  adminWrite : Bool
  patternQuery : String → Bool
  patternWrite : Bool
  settingQuery : String → Bool
  settingWrite : Bool

/-- The store after `_ensure_admin_user`, or none when it raises. -/
def ensureAdminUser (cfg : AdminConfig) (faults : Faults) (store : SeedStore c) :
    Option (SeedStore c) :=
  if faults.adminQuery then none
  else
    match store.users.named cfg.username with
    | some _ => some store
    | none =>
      if faults.adminWrite then none
      else (store.users.insert (adminUser cfg)).map fun users => { store with users }

/-- The loop of `_ensure_patterns` and `_ensure_settings`: a query for each default, and the
defaults to add; none when a query raises. -/
def ensureRows {α : Type} (raises present : α → Bool) : List α → Option (List α)
  | [] => some []
  | x :: xs =>
    if raises x then none
    else (ensureRows raises present xs).map fun added => if present x then added else x :: added

def SeedStore.hasPattern (store : SeedStore c) (p : DefaultPattern) : Bool :=
  store.patterns.rows.any fun r => r.name = p.name

def SeedStore.hasSetting (store : SeedStore c) (d : String × String) : Bool :=
  (store.settings.get? d.1).isSome

/-- `_ensure_patterns`. -/
def ensurePatterns (faults : Faults) (store : SeedStore c) : Option (List DefaultPattern) :=
  ensureRows (fun p => faults.patternQuery p.name) store.hasPattern defaultPatterns

/-- `_ensure_settings`. -/
def ensureSettings (faults : Faults) (store : SeedStore c) : Option (List (String × String)) :=
  ensureRows (fun d => faults.settingQuery d.1) store.hasSetting defaults

/-- The commit at the end; without rows there is nothing to write. -/
def commitSeeds (faults : Faults) (store : SeedStore c) (newPatterns : List DefaultPattern)
    (newSettings : List (String × String)) : Option (SeedStore c) :=
  if (faults.patternWrite ∧ newPatterns ≠ []) ∨ (faults.settingWrite ∧ newSettings ≠ []) then none
  else (store.addSettings newSettings).map fun settings =>
    { store with patterns := store.addPatterns newPatterns, settings }

/-- `seed_initial_data`. -/
def seedInitialData (cfg : AdminConfig) (faults : Faults) (store : SeedStore c) : SeedStore c :=
  match ensureAdminUser cfg faults store with
  | none => store
  | some store =>
    match ensurePatterns faults store with
    | none => store
    | some newPatterns =>
      match ensureSettings faults store with
      | none => store
      | some newSettings => (commitSeeds faults store newPatterns newSettings).getD store

/-! ## What a step has to add, and when it fails -/

def SeedStore.missingPatterns (store : SeedStore c) : List DefaultPattern :=
  defaultPatterns.filter fun p => !store.hasPattern p

def SeedStore.missingSettings (store : SeedStore c) : List (String × String) :=
  defaults.filter fun d => !store.hasSetting d

/-- The step of the admin fails: it raises, or the user table has no room for a missing admin. -/
def AdminFails (cfg : AdminConfig) (faults : Faults) (store : SeedStore c) : Prop :=
  faults.adminQuery = true ∨ store.users.named cfg.username = none ∧
    (faults.adminWrite = true ∨ ¬ store.users.Insertable (adminUser cfg))

def PatternsFail (faults : Faults) (store : SeedStore c) : Prop :=
  (∃ p ∈ defaultPatterns, faults.patternQuery p.name = true) ∨
    faults.patternWrite = true ∧ store.missingPatterns ≠ []

def SettingsFail (faults : Faults) (store : SeedStore c) : Prop :=
  (∃ d ∈ defaults, faults.settingQuery d.1 = true) ∨
    faults.settingWrite = true ∧ store.missingSettings ≠ []

/-- Each step that does not fail has its rows in the store. -/
structure StepsIndependent (cfg : AdminConfig) (faults : Faults) (store after : SeedStore c) :
    Prop where
  admin : ¬ AdminFails cfg faults store → store.users.named cfg.username = none →
    ∃ u ∈ after.users.rows, u.toNewUser = adminUser cfg
  patterns : ¬ PatternsFail faults store → ∀ p ∈ store.missingPatterns,
    ∃ r ∈ after.patterns.rows, r = patternRow r.id p
  settings : ¬ SettingsFail faults store → ∀ d ∈ store.missingSettings,
    after.settings.get? d.1 = some (seeded d.2)

/-- A step with rows for the last commit has no failure in front of it or beside it. -/
structure Undisturbed (cfg : AdminConfig) (faults : Faults) (store : SeedStore c) : Prop where
  patterns : ¬ PatternsFail faults store → store.missingPatterns ≠ [] →
    ¬ AdminFails cfg faults store ∧ ¬ SettingsFail faults store
  settings : ¬ SettingsFail faults store → store.missingSettings ≠ [] →
    ¬ AdminFails cfg faults store ∧ ¬ PatternsFail faults store

/-! ## One step -/

/-- The loop adds the defaults without a row, unless a query raises. -/
theorem ensureRows_eq {α : Type} (raises present : α → Bool) (xs : List α) :
    ensureRows raises present xs =
      if ∃ x ∈ xs, raises x = true then none else some (xs.filter fun x => !present x) := by
  induction xs with
  | nil => rfl
  | cons x xs ih =>
    rw [ensureRows, ih]
    cases hx : raises x with
    | true =>
      rw [if_pos rfl, if_pos ⟨x, List.mem_cons_self, hx⟩]
    | false =>
      have hcons : (∃ y ∈ x :: xs, raises y = true) ↔ ∃ y ∈ xs, raises y = true := by
        simp [hx]
      rw [if_neg Bool.false_ne_true, if_congr hcons rfl rfl]
      by_cases hany : ∃ y ∈ xs, raises y = true
      · rw [if_pos hany, if_pos hany]
        rfl
      · rw [if_neg hany, if_neg hany, Option.map_some, List.filter_cons]
        cases present x with
        | true => rfl
        | false => rfl

section Steps

variable {cfg : AdminConfig} {faults : Faults} {store : SeedStore c}

/-- The step of the admin fails, or changes at most the table of users. -/
theorem ensureAdminUser_cases (cfg : AdminConfig) (faults : Faults) (store : SeedStore c) :
    (AdminFails cfg faults store ∧ ensureAdminUser cfg faults store = none) ∨
      (¬ AdminFails cfg faults store ∧ ∃ users,
        ensureAdminUser cfg faults store = some { store with users } ∧
          (store.users.named cfg.username = none →
            ∃ u ∈ users.rows, u.toNewUser = adminUser cfg)) := by
  unfold ensureAdminUser AdminFails
  cases hquery : faults.adminQuery with
  | true => exact Or.inl ⟨Or.inl rfl, rfl⟩
  | false =>
    cases hnamed : store.users.named cfg.username with
    | some u =>
      right
      refine ⟨by simp, store.users, rfl, ?_⟩
      intro h
      cases h
    | none =>
      cases hwrite : faults.adminWrite with
      | true => exact Or.inl ⟨Or.inr ⟨rfl, Or.inl rfl⟩, rfl⟩
      | false =>
        cases hinsert : store.users.insert (adminUser cfg) with
        | none =>
          have hroom : ¬ store.users.Insertable (adminUser cfg) := by
            rw [← Users.insert_isSome_iff, hinsert]
            simp
          exact Or.inl ⟨Or.inr ⟨rfl, Or.inr hroom⟩, rfl⟩
        | some users =>
          have hroom : store.users.Insertable (adminUser cfg) :=
            Users.insert_isSome_iff.mp ⟨users, hinsert⟩
          refine Or.inr ⟨by simp [hroom], users, rfl, ?_⟩
          intro _
          refine ⟨Users.userRow store.users.table.next (adminUser cfg), ?_, rfl⟩
          rw [Users.rows_of_insert hinsert]
          exact List.mem_append_right _ (List.mem_singleton_self _)

theorem exists_row_of_addPatterns {ps : List DefaultPattern} {p : DefaultPattern} (hp : p ∈ ps) :
    ∃ r ∈ (store.addPatterns ps).rows, r = patternRow r.id p := by
  obtain ⟨i, hi, rfl⟩ := List.mem_iff_getElem.mp hp
  refine ⟨patternRow (store.patterns.next + i) ps[i], List.mem_append_right _ ?_, rfl⟩
  exact List.mem_mapIdx.mpr ⟨i, hi, rfl⟩

theorem filter_hasSetting (store : SeedStore c) (ds : List (String × String)) :
    (ds.filter fun d => !store.hasSetting d) =
      ds.filter fun d => (store.settings.get? d.1).isNone :=
  List.filter_congr fun _ _ => Option.not_isSome _

/-- Nothing hinders the insertion of the missing settings. -/
theorem addSettings_missingSettings (store : SeedStore c) :
    store.addSettings store.missingSettings = some (Settings.ensureSettings store.settings) := by
  have haccepted := accepted_seeding store.settings
  have hcommit : Settings.ensureSettings store.settings = ⟨_, haccepted.2⟩ :=
    congrArg (fun s => Option.getD s store.settings) (dif_pos haccepted)
  rw [hcommit, SeedStore.missingSettings, filter_hasSetting]
  exact dif_pos haccepted

theorem get?_ensureSettings_of_missing {d : String × String} (hd : d ∈ store.missingSettings) :
    (Settings.ensureSettings store.settings).get? d.1 = some (seeded d.2) := by
  have hlookup : ∀ d ∈ defaults, defaults.lookup d.1 = some d.2 := by decide
  obtain ⟨hmem, hnone⟩ := List.mem_filter.mp hd
  have hget : store.settings.get? d.1 = none := by
    simpa [SeedStore.hasSetting] using hnone
  rw [get?_ensureSettings, hget, hlookup d hmem]
  rfl

/-! ## The call -/

/-- Behind the admin, the last commit goes through exactly when neither step fails. -/
theorem seedInitialData_of_admin {users : Users}
    (h : ensureAdminUser cfg faults store = some { store with users }) :
    (PatternsFail faults store ∨ SettingsFail faults store) ∧
        seedInitialData cfg faults store = { store with users } ∨
      ¬ (PatternsFail faults store ∨ SettingsFail faults store) ∧
        seedInitialData cfg faults store =
          { users
            patterns := store.addPatterns store.missingPatterns
            settings := Settings.ensureSettings store.settings } := by
  have hpatterns : ensurePatterns faults { store with users } =
      if ∃ p ∈ defaultPatterns, faults.patternQuery p.name = true then none
      else some store.missingPatterns := ensureRows_eq _ _ _
  have hsettings : ensureSettings faults { store with users } =
      if ∃ d ∈ defaults, faults.settingQuery d.1 = true then none
      else some store.missingSettings := ensureRows_eq _ _ _
  unfold seedInitialData PatternsFail SettingsFail
  rw [h]
  dsimp only
  rw [hpatterns, hsettings]
  by_cases hpquery : ∃ p ∈ defaultPatterns, faults.patternQuery p.name = true
  · rw [if_pos hpquery]
    exact Or.inl ⟨Or.inl (Or.inl hpquery), rfl⟩
  by_cases hsquery : ∃ d ∈ defaults, faults.settingQuery d.1 = true
  · rw [if_neg hpquery, if_pos hsquery]
    exact Or.inl ⟨Or.inr (Or.inl hsquery), rfl⟩
  rw [if_neg hpquery, if_neg hsquery]
  dsimp only
  unfold commitSeeds
  by_cases hwrite : (faults.patternWrite = true ∧ store.missingPatterns ≠ []) ∨
      (faults.settingWrite = true ∧ store.missingSettings ≠ [])
  · rw [if_pos hwrite]
    exact Or.inl ⟨hwrite.imp Or.inr Or.inr, rfl⟩
  · rw [if_neg hwrite]
    refine Or.inr ⟨fun hfail => hwrite ?_, ?_⟩
    · exact hfail.imp (Or.resolve_left · hpquery) (Or.resolve_left · hsquery)
    · have hadd : SeedStore.addSettings { store with users } store.missingSettings =
          some (Settings.ensureSettings store.settings) := addSettings_missingSettings store
      rw [hadd]
      rfl

/-- A failed step keeps the patterns and the settings as they were. -/
theorem seedInitialData_of_fails
    (h : AdminFails cfg faults store ∨ PatternsFail faults store ∨ SettingsFail faults store) :
    (seedInitialData cfg faults store).patterns = store.patterns ∧
      (seedInitialData cfg faults store).settings = store.settings := by
  rcases ensureAdminUser_cases cfg faults store with ⟨_, hnone⟩ | ⟨hadmin, users, hsome, _⟩
  · unfold seedInitialData
    rw [hnone]
    exact ⟨rfl, rfl⟩
  · rcases seedInitialData_of_admin hsome with ⟨_, hseed⟩ | ⟨hfail, _⟩
    · rw [hseed]
      exact ⟨rfl, rfl⟩
    · exact absurd (h.resolve_left hadmin) hfail

/-- Without a failure the store has all its rows. -/
theorem seedInitialData_of_not_fails (hadmin : ¬ AdminFails cfg faults store)
    (hpatterns : ¬ PatternsFail faults store) (hsettings : ¬ SettingsFail faults store) :
    (seedInitialData cfg faults store).patterns = store.addPatterns store.missingPatterns ∧
      (seedInitialData cfg faults store).settings = Settings.ensureSettings store.settings := by
  rcases ensureAdminUser_cases cfg faults store with ⟨hfail, _⟩ | ⟨_, users, hsome, _⟩
  · exact absurd hfail hadmin
  · rcases seedInitialData_of_admin hsome with ⟨hfail, _⟩ | ⟨_, hseed⟩
    · exact absurd hfail (not_or.mpr ⟨hpatterns, hsettings⟩)
    · rw [hseed]
      exact ⟨rfl, rfl⟩

/-- The admin is committed whatever the other steps do. -/
theorem exists_admin (h : ¬ AdminFails cfg faults store)
    (hnamed : store.users.named cfg.username = none) :
    ∃ u ∈ (seedInitialData cfg faults store).users.rows, u.toNewUser = adminUser cfg := by
  rcases ensureAdminUser_cases cfg faults store with ⟨hfail, _⟩ | ⟨_, users, hsome, hrow⟩
  · exact absurd hfail h
  · rcases seedInitialData_of_admin hsome with ⟨_, hseed⟩ | ⟨_, hseed⟩
    · rw [hseed]
      exact hrow hnamed
    · rw [hseed]
      exact hrow hnamed

/-- **The seeding steps are independent** exactly when no step with rows for the last commit is
disturbed. -/
theorem steps_independent_iff (cfg : AdminConfig) (faults : Faults) (store : SeedStore c) :
    StepsIndependent cfg faults store (seedInitialData cfg faults store) ↔
      Undisturbed cfg faults store := by
  constructor
  · intro h
    refine ⟨?_, ?_⟩
    · intro hok hne
      by_contra hfail
      have hfails : AdminFails cfg faults store ∨ PatternsFail faults store ∨
          SettingsFail faults store := by tauto
      obtain ⟨p, hp⟩ := List.exists_mem_of_ne_nil _ hne
      obtain ⟨r, hr, hrow⟩ := h.patterns hok p hp
      rw [(seedInitialData_of_fails hfails).1] at hr
      have hnot : store.hasPattern p = false := by simpa using (List.mem_filter.mp hp).2
      have hhas : store.hasPattern p = true :=
        List.any_eq_true.mpr ⟨r, hr, decide_eq_true (by rw [hrow]; rfl)⟩
      rw [hnot] at hhas
      cases hhas
    · intro hok hne
      by_contra hfail
      have hfails : AdminFails cfg faults store ∨ PatternsFail faults store ∨
          SettingsFail faults store := by tauto
      obtain ⟨d, hd⟩ := List.exists_mem_of_ne_nil _ hne
      have hget := h.settings hok d hd
      rw [(seedInitialData_of_fails hfails).2] at hget
      have hnot : store.hasSetting d = false := by simpa using (List.mem_filter.mp hd).2
      rw [SeedStore.hasSetting, hget] at hnot
      cases hnot
  · intro h
    refine ⟨exists_admin, ?_, ?_⟩
    · intro hok p hp
      obtain ⟨hadmin, hsettings⟩ := h.patterns hok (List.ne_nil_of_mem hp)
      rw [(seedInitialData_of_not_fails hadmin hok hsettings).1]
      exact exists_row_of_addPatterns hp
    · intro hok d hd
      obtain ⟨hadmin, hpatterns⟩ := h.settings hok (List.ne_nil_of_mem hd)
      rw [(seedInitialData_of_not_fails hadmin hpatterns hok).2]
      exact get?_ensureSettings_of_missing hd

end Steps

/-! ## Without faults -/

/-- Nothing raises besides the constraints. -/
def noFaults : Faults := ⟨false, false, fun _ => false, false, fun _ => false, false⟩

theorem not_patternsFail_noFaults (store : SeedStore c) : ¬ PatternsFail noFaults store := by
  rintro (⟨_, _, hraise⟩ | ⟨hraise, _⟩)
  · cases hraise
  · cases hraise

theorem not_settingsFail_noFaults (store : SeedStore c) : ¬ SettingsFail noFaults store := by
  rintro (⟨_, _, hraise⟩ | ⟨hraise, _⟩)
  · cases hraise
  · cases hraise

theorem ensureAdminUser_noFaults (cfg : AdminConfig) (store : SeedStore c) :
    ensureAdminUser cfg noFaults store =
      match store.users.named cfg.username with
      | some _ => some store
      | none => (store.users.insert (adminUser cfg)).map fun users => { store with users } := rfl

/-- Behind the admin nothing fails. -/
theorem seedInitialData_noFaults {cfg : AdminConfig} {store : SeedStore c} {users : Users}
    (h : ensureAdminUser cfg noFaults store = some { store with users }) :
    seedInitialData cfg noFaults store =
      { users
        patterns := store.addPatterns store.missingPatterns
        settings := Settings.ensureSettings store.settings } := by
  rcases seedInitialData_of_admin h with ⟨hfail, _⟩ | ⟨_, hseed⟩
  · exact absurd hfail
      (not_or.mpr ⟨not_patternsFail_noFaults store, not_settingsFail_noFaults store⟩)
  · exact hseed

/-! ## A taken e-mail address -/

def defaultAdmin : AdminConfig := ⟨"admin", "admin@example.com", "hash"⟩

/-- Somebody else has the e-mail address of the admin. -/
def addressTaken : Users where
  table := Table.singleton ⟨⟨"jane", some "admin@example.com", none, none, .viewer, true, true⟩, 1⟩
  admissible := by decide

def takenStore : SeedStore labelledCipher := ⟨addressTaken, Table.empty, .empty⟩

theorem adminFails_takenStore : AdminFails defaultAdmin noFaults takenStore := by
  refine Or.inr ⟨by decide, Or.inr ?_⟩
  intro hroom
  exact hroom.2.1 _ rfl _ (List.mem_singleton_self _) rfl

/-- The admin cannot be inserted, and the patterns are not seeded. -/
theorem admin_failure_stops_patterns :
    ¬ ∀ (c : Cipher) (cfg : AdminConfig) (faults : Faults) (store : SeedStore c),
      StepsIndependent cfg faults store (seedInitialData cfg faults store) := by
  intro hall
  have hindep := hall labelledCipher defaultAdmin noFaults takenStore
  obtain ⟨r, hr, _⟩ := hindep.patterns (not_patternsFail_noFaults takenStore)
    ⟨"Web Servers", .vmName, "^(WEB)-"⟩ (by decide)
  rw [(seedInitialData_of_fails (Or.inl adminFails_takenStore)).1] at hr
  cases hr

end VsphereCompliance.Seeding
