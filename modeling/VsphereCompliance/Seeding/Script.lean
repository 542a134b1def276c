import VsphereCompliance.Seeding.Concurrent
import VsphereCompliance.Settings.Scheduler

/-!
# The seeding script

`seedScript` is `scripts/seed.py`. It makes the same rows as the seeding at start-up, but takes
the schedule of the analysis from the environment. Whichever of the two runs first decides:
every later run of either finds its rows and leaves the store as it is (`seeding_converges`).
So `ANALYSIS_SCHEDULE_CRON` has an effect on the scheduler only where the script ran before the
first start-up (`schedule_of_first_seeding`).
-/

namespace VsphereCompliance.Seeding

open Engine Store Accounts Settings

variable {c : Cipher}

def scriptSettings (scheduleCron : String) : List (String × String) :=
  [("analysis_cron", scheduleCron), ("drs_role_prefix", "VCM-AAR"),
    ("app_title", "vSphere Compliance Manager")]

/-- `seed.py`: the store that it leaves, with or without an exception. -/
def seedScript (cfg : AdminConfig) (scheduleCron : String) (store : SeedStore c) : SeedStore c :=
  match ensureAdminUser cfg noFaults store with
  | none => store
  | some store =>
    let newPatterns := defaultPatterns.filter fun p => !store.hasPattern p
    let newSettings := (scriptSettings scheduleCron).filter fun d => !store.hasSetting d
    match store.addSettings newSettings with
    | none => store
    | some settings => { store with patterns := store.addPatterns newPatterns, settings }

/-- A start-up of the backend, or a run of the script with a value of
`ANALYSIS_SCHEDULE_CRON`; a variable of the environment has no NUL. -/
inductive SeedSource
  | startup
  | script (scheduleCron : String) (isText : IsText scheduleCron)

def SeedSource.settings : SeedSource → List (String × String)
  | .startup => defaults
  | .script scheduleCron _ => scriptSettings scheduleCron

/-- The schedule that the run has for a store without one. -/
def SeedSource.schedule : SeedSource → String
  | .startup => "0 2 * * *"
  | .script scheduleCron _ => scheduleCron

/-- Each run draws a salt for the hash of the password; a hash fits its column. -/
structure SeedRun where
  source : SeedSource
  passwordHash : String
  hashFits : Storable 255 passwordHash

/-- The admin of the deployment as the run would insert it. -/
def SeedRun.admin (username email : String) (r : SeedRun) : AdminConfig :=
  ⟨username, email, r.passwordHash⟩

def seedRun (username email : String) (store : SeedStore c) (r : SeedRun) : SeedStore c :=
  match r.source with
  | .startup => seedInitialData (r.admin username email) noFaults store
  | .script scheduleCron _ => seedScript (r.admin username email) scheduleCron store

/-! ## One run -/

theorem keys_settings (r : SeedSource) :
    r.settings.map Prod.fst = ["analysis_cron", "drs_role_prefix", "app_title"] := by
  cases r with
  | startup => rfl
  | script scheduleCron isText => rfl

theorem lookup_schedule (r : SeedSource) :
    r.settings.lookup "analysis_cron" = some r.schedule := by
  cases r with
  | startup => rfl
  | script scheduleCron isText => rfl

theorem rowFits_settings (r : SeedSource) :
    ∀ d ∈ r.settings, RowFits d.1 (seeded d.2 : AppSetting c) := by
  cases r with
  | startup => exact rowFits_seeded
  | script scheduleCron isText =>
    have hrest : ∀ d ∈ (scriptSettings scheduleCron).tail,
        RowFits d.1 (seeded d.2 : AppSetting c) := fun d hd =>
      rowFits_seeded d (List.mem_of_mem_tail hd)
    intro d hd
    rcases List.mem_cons.mp hd with rfl | hd
    · have hkey : Storable 200 "analysis_cron" := by decide
      exact ⟨hkey, fun s hs => Option.some.inj hs ▸ isText, fun s hs => nomatch hs⟩
    · exact hrest d hd

/-- The settings of a run that have no row can be inserted. -/
theorem exists_addSettings (store : SeedStore c) (r : SeedSource) :
    ∃ settings, store.addSettings (r.settings.filter fun d => !store.hasSetting d) =
        some settings ∧
      ∀ key, settings.get? key =
        (store.settings.get? key).or ((r.settings.lookup key).map seeded) := by
  have hnodup : (r.settings.map Prod.fst).Nodup := by
    rw [keys_settings]
    decide
  have haccepted := accepted_seeded store.settings hnodup (rowFits_settings r)
  rw [filter_hasSetting]
  exact ⟨_, dif_pos haccepted, get?_seeded store.settings haccepted⟩

variable {username email : String}

/-- Whether the step of the admin fails does not depend on the hash. -/
theorem adminFails_of_run {store : SeedStore c} {r : SeedRun}
    (h : AdminFails (r.admin username email) noFaults store) (r' : SeedRun) :
    AdminFails (r'.admin username email) noFaults store := by
  rcases h with hquery | ⟨hnamed, hwrite | hroom⟩
  · exact Or.inl hquery
  · exact Or.inr ⟨hnamed, Or.inl hwrite⟩
  · refine Or.inr ⟨hnamed, Or.inr ?_⟩
    rintro ⟨hname, hemail, husername, haddress, _, hfullName⟩
    refine hroom ⟨hname, hemail, husername, haddress, ?_, hfullName⟩
    intro hash hhash
    obtain rfl := Option.some.inj hhash
    exact r.hashFits

/-- A run stops at the admin, or has all its rows. -/
theorem seedRun_cases (username email : String) (store : SeedStore c) (r : SeedRun) :
    (AdminFails (r.admin username email) noFaults store ∧
      seedRun username email store r = store) ∨
    (¬ AdminFails (r.admin username email) noFaults store ∧ ∃ users settings,
      ensureAdminUser (r.admin username email) noFaults store = some { store with users } ∧
      store.addSettings (r.source.settings.filter fun d => !store.hasSetting d) = some settings ∧
      seedRun username email store r =
        ⟨users, store.addPatterns store.missingPatterns, settings⟩) := by
  unfold seedRun
  rcases ensureAdminUser_cases (r.admin username email) noFaults store with
    ⟨hfails, hnone⟩ | ⟨hok, users, hsome, _⟩
  · refine Or.inl ⟨hfails, ?_⟩
    cases r.source with
    | startup =>
      dsimp only
      unfold seedInitialData
      rw [hnone]
    | script scheduleCron isText =>
      dsimp only
      unfold seedScript
      rw [hnone]
  · refine Or.inr ⟨hok, users, ?_⟩
    cases r.source with
    | startup =>
      exact ⟨_, hsome, addSettings_missingSettings store, seedInitialData_noFaults hsome⟩
    | script scheduleCron isText =>
      obtain ⟨settings, hadd, _⟩ := exists_addSettings store (.script scheduleCron isText)
      refine ⟨settings, hsome, hadd, ?_⟩
      have hadd' : SeedStore.addSettings { store with users }
          ((scriptSettings scheduleCron).filter fun d => !store.hasSetting d) = some settings :=
        hadd
      dsimp only
      unfold seedScript
      rw [hsome]
      dsimp only
      rw [show ((scriptSettings scheduleCron).filter fun d =>
        !SeedStore.hasSetting { store with users } d) = (scriptSettings scheduleCron).filter
          fun d => !store.hasSetting d from rfl, hadd']
      rfl

/-! ## The runs after it -/

/-- The store has a row for everything that a run may add. -/
structure Complete (username : String) (store : SeedStore c) : Prop where
  admin : ∃ u, store.users.named username = some u
  patterns : store.missingPatterns = []
  settings : ∀ key ∈ ["analysis_cron", "drs_role_prefix", "app_title"],
    (store.settings.get? key).isSome = true

theorem addPatterns_nil (store : SeedStore c) : store.addPatterns [] = store.patterns := by
  have hrows : store.patterns.rows ++ [] = store.patterns.rows := List.append_nil _
  unfold SeedStore.addPatterns Table.insertRows
  congr 1

/-- **A run leaves a complete store as it is.** -/
theorem seedRun_of_complete {store : SeedStore c} (h : Complete username store) (r : SeedRun) :
    seedRun username email store r = store := by
  obtain ⟨u, hu⟩ := h.admin
  have hadmin : ensureAdminUser (r.admin username email) noFaults store = some store := by
    have hu' : store.users.named (r.admin username email).username = some u := hu
    rw [ensureAdminUser_noFaults, hu']
  have hnone : r.source.settings.filter (fun d => !store.hasSetting d) = [] := by
    rw [List.filter_eq_nil_iff]
    intro d hd
    have hkey := List.mem_map_of_mem (f := Prod.fst) hd
    rw [keys_settings] at hkey
    simp [SeedStore.hasSetting, h.settings d.1 hkey]
  rcases seedRun_cases username email store r with
    ⟨_, hsame⟩ | ⟨_, users, settings, husers, hadd, hrun⟩
  · exact hsame
  · rw [hadmin] at husers
    obtain rfl : store.users = users := congrArg SeedStore.users (Option.some.inj husers)
    rw [hnone, addSettings_nil] at hadd
    obtain rfl := Option.some.inj hadd
    rw [hrun, h.patterns, addPatterns_nil]

theorem foldl_seedRun_of_complete {store : SeedStore c} (h : Complete username store)
    (runs : List SeedRun) : runs.foldl (seedRun username email) store = store := by
  induction runs with
  | nil => rfl
  | cons r runs ih => rw [List.foldl_cons, seedRun_of_complete h, ih]

theorem named_of_ensureAdminUser {cfg : AdminConfig} {store : SeedStore c} {users : Users}
    (h : ensureAdminUser cfg noFaults store = some { store with users }) :
    ∃ u, users.named cfg.username = some u := by
  rw [ensureAdminUser_noFaults] at h
  split at h
  · rename_i u hu
    obtain rfl : store.users = users := congrArg SeedStore.users (Option.some.inj h)
    exact ⟨u, hu⟩
  · obtain ⟨_, hinsert, heq⟩ := Option.map_eq_some_iff.mp h
    obtain rfl := congrArg SeedStore.users heq
    refine ⟨Users.userRow store.users.table.next (adminUser cfg),
      Users.named_eq_some_iff.mpr ⟨?_, rfl⟩⟩
    rw [Users.rows_of_insert hinsert]
    exact List.mem_append_right _ (List.mem_singleton_self _)

theorem missingPatterns_addPatterns (store : SeedStore c) (users : Users)
    (settings : AppSettings c) :
    SeedStore.missingPatterns ⟨users, store.addPatterns store.missingPatterns, settings⟩ = [] := by
  unfold SeedStore.missingPatterns
  rw [List.filter_eq_nil_iff]
  intro p hp
  have hname : p.name ∈ (store.addPatterns store.missingPatterns).rows.map PatternConfig.name := by
    rw [names_addPatterns]
    cases hhas : store.hasPattern p with
    | true =>
      obtain ⟨r, hr, hrow⟩ := List.any_eq_true.mp hhas
      exact List.mem_append_left _ (List.mem_map.mpr ⟨r, hr, of_decide_eq_true hrow⟩)
    | false =>
      refine List.mem_append_right _ (List.mem_map_of_mem (List.mem_filter.mpr ⟨hp, ?_⟩))
      rw [hhas]
      rfl
  rw [hasPattern_of_mem hname]
  exact Bool.false_ne_true

/-- A run that is not stopped completes the store. -/
theorem complete_seedRun {store : SeedStore c} {r : SeedRun}
    (h : ¬ AdminFails (r.admin username email) noFaults store) :
    Complete username (seedRun username email store r) ∧
      ∀ key, (seedRun username email store r).settings.get? key =
        (store.settings.get? key).or ((r.source.settings.lookup key).map seeded) := by
  rcases seedRun_cases username email store r with
    ⟨hfails, _⟩ | ⟨_, users, settings, husers, hadd, hrun⟩
  · exact absurd hfails h
  obtain ⟨_, hadd', hget⟩ := exists_addSettings store r.source
  rw [hadd] at hadd'
  obtain rfl := Option.some.inj hadd'
  rw [hrun]
  refine ⟨⟨named_of_ensureAdminUser husers, missingPatterns_addPatterns _ _ _, ?_⟩, hget⟩
  intro key hkey
  rw [← keys_settings r.source] at hkey
  obtain ⟨d, hd, rfl⟩ := List.mem_map.mp hkey
  rw [hget, Option.isSome_or, Option.isSome_map, Bool.or_eq_true]
  right
  rw [List.lookup_isSome_iff]
  exact ⟨d, hd, beq_self_eq_true _⟩

/-! ## Every sequence of runs -/

/-- **The first run decides**: whatever runs after it, the store stays as the first one left
it. -/
theorem seeding_converges (username email : String) (store : SeedStore c) (first : SeedRun)
    (runs : List SeedRun) :
    (first :: runs).foldl (seedRun username email) store =
      seedRun username email store first := by
  rw [List.foldl_cons]
  by_cases hfails : AdminFails (first.admin username email) noFaults store
  · have hstop (r : SeedRun) : seedRun username email store r = store :=
      (seedRun_cases username email store r).elim And.right
        fun h => absurd (adminFails_of_run hfails r) h.1
    rw [hstop first]
    induction runs with
    | nil => rfl
    | cons r runs ih => rw [List.foldl_cons, hstop r, ih]
  · exact foldl_seedRun_of_complete (complete_seedRun hfails).1 runs

/-- **The schedule is the one of the first run** that is not stopped at the admin, unless the
store had one before. -/
theorem schedule_of_first_seeding (username email : String) {store : SeedStore c}
    {first : SeedRun} (hadmin : ¬ AdminFails (first.admin username email) noFaults store)
    (runs : List SeedRun) (scheduleCron : String) :
    cronExpr scheduleCron ((first :: runs).foldl (seedRun username email) store).settings =
      match store.settings.get? "analysis_cron" with
      | some row => row.plainValue
      | none => some first.source.schedule := by
  obtain ⟨hcomplete, hget⟩ := complete_seedRun hadmin
  rw [List.foldl_cons, foldl_seedRun_of_complete hcomplete]
  unfold cronExpr
  rw [hget, lookup_schedule]
  cases store.settings.get? "analysis_cron" with
  | none => rfl
  | some row => rfl

/-! ## A schedule that comes too late -/

def emptyStore : SeedStore labelledCipher := ⟨Users.empty, Table.empty, .empty⟩

def startupRun : SeedRun := ⟨.startup, "first hash", by decide⟩

def scriptRun : SeedRun := ⟨.script "30 4 * * *" (by decide), "second hash", by decide⟩

/-- The backend has started once, so the schedule of the environment is not used. -/
theorem late_schedule_not_used :
    cronExpr "30 4 * * *" ([startupRun, scriptRun].foldl
      (seedRun "admin" "admin@example.com") emptyStore).settings = some "0 2 * * *" := by
  have hadmin : ¬ AdminFails (startupRun.admin "admin" "admin@example.com") noFaults
      emptyStore := by
    rintro (hquery | ⟨_, hwrite | hroom⟩)
    · cases hquery
    · cases hwrite
    · refine hroom ⟨?_, ?_, by decide⟩
      · exact fun _ hv => absurd hv List.not_mem_nil
      · exact fun _ _ _ hv => absurd hv List.not_mem_nil
  exact schedule_of_first_seeding "admin" "admin@example.com" hadmin [scriptRun] "30 4 * * *"

end VsphereCompliance.Seeding
