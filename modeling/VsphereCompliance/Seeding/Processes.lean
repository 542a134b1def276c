import VsphereCompliance.Seeding.Startup
import VsphereCompliance.Library.Runs
import Mathlib.Data.Fintype.Basic
import Mathlib.Logic.Function.Basic

/-!
# Processes that seed one store

Every server process calls `seed_initial_data` at its start, and the queries, inserts and
commits of the calls interleave (`Startups.advance`). A query sees what is committed when it
runs. Names of users and keys of settings are unique: of two inserts of one of them the second
waits for the transaction of the first and raises once that is committed. `Startups.Leads`
lists what a step can do, and a process by itself does what `seedInitialData` does
(`Startups.run_alone`).
-/

namespace VsphereCompliance.Seeding

open Engine Store Accounts Settings Runs

variable {c : Cipher} {ι : Type*}

/-! ## The steps -/

/-- Where a process is: `todo` are the defaults it has still to query or insert, `added` the
rows that wait in its session, `inserted` those in its transaction. -/
inductive SeedPhase
  | checkingAdmin
  | insertingAdmin
  | committingAdmin
  | checkingPatterns (todo added : List DefaultPattern)
  | checkingSettings (patterns : List DefaultPattern) (todo added : List (String × String))
  | flushing (patterns : List DefaultPattern) (todo inserted : List (String × String))
  | ended
  deriving DecidableEq

/-- The keys of settings that the transaction of the process has inserted. -/
def SeedPhase.held : SeedPhase → List String
  | .checkingAdmin => []
  | .insertingAdmin => []
  | .committingAdmin => []
  | .checkingPatterns _ _ => []
  | .checkingSettings _ _ _ => []
  | .flushing _ _ inserted => inserted.map Prod.fst
  | .ended => []

/-- One admin for all processes; the salt of the hash is drawn by each. -/
structure Deployment (ι : Type*) where
  username : String
  email : String
  passwordHash : ι → String

def Deployment.admin (d : Deployment ι) (i : ι) : NewUser :=
  adminUser ⟨d.username, d.email, d.passwordHash i⟩

/-- The committed store and the processes. -/
structure Startups (c : Cipher) (ι : Type*) where
  store : SeedStore c
  phases : ι → SeedPhase

section Steps

variable [Fintype ι] [DecidableEq ι]

def Startups.move (σ : Startups c ι) (i : ι) (phase : SeedPhase) : Startups c ι :=
  { σ with phases := Function.update σ.phases i phase }

/-- Another process is to commit the admin. -/
def Startups.AdminHeld (σ : Startups c ι) (i : ι) : Prop :=
  ∃ j, j ≠ i ∧ σ.phases j = .committingAdmin

instance (σ : Startups c ι) (i : ι) : Decidable (σ.AdminHeld i) :=
  inferInstanceAs (Decidable (∃ j, j ≠ i ∧ σ.phases j = .committingAdmin))

/-- Another transaction holds the key. -/
def Startups.KeyHeld (σ : Startups c ι) (i : ι) (key : String) : Prop :=
  ∃ j, j ≠ i ∧ key ∈ (σ.phases j).held

instance (σ : Startups c ι) (i : ι) (key : String) : Decidable (σ.KeyHeld i key) :=
  inferInstanceAs (Decidable (∃ j, j ≠ i ∧ key ∈ (σ.phases j).held))

/-- The next query, insert or commit of a process. An insert of a key that another transaction
holds waits, and one of a committed key raises, which ends the call. The inserts of patterns
wait for nobody and are seen by nobody before the commit, so they go with it. -/
def Startups.advance (d : Deployment ι) (σ : Startups c ι) (i : ι) : Startups c ι :=
  match σ.phases i with
  | .checkingAdmin =>
    match σ.store.users.named d.username with
    | some _ => σ.move i (.checkingPatterns defaultPatterns [])
    | none => σ.move i .insertingAdmin
  | .insertingAdmin =>
    if σ.AdminHeld i then σ
    else
      match σ.store.users.insert (d.admin i) with
      | some _ => σ.move i .committingAdmin
      | none => σ.move i .ended
  | .committingAdmin =>
    match σ.store.users.insert (d.admin i) with
    | some users =>
      { store := { σ.store with users }
        phases := Function.update σ.phases i (.checkingPatterns defaultPatterns []) }
    | none => σ.move i .ended
  | .checkingPatterns [] added => σ.move i (.checkingSettings added defaults [])
  | .checkingPatterns (p :: todo) added =>
    σ.move i (.checkingPatterns todo (if σ.store.hasPattern p then added else added ++ [p]))
  | .checkingSettings patterns [] added => σ.move i (.flushing patterns added [])
  | .checkingSettings patterns (s :: todo) added =>
    σ.move i (.checkingSettings patterns todo
      (if σ.store.hasSetting s then added else added ++ [s]))
  | .flushing patterns (s :: todo) inserted =>
    if σ.KeyHeld i s.1 then σ
    else if σ.store.hasSetting s then σ.move i .ended
    else σ.move i (.flushing patterns todo (inserted ++ [s]))
  | .flushing patterns [] inserted =>
    match σ.store.addSettings inserted with
    | some settings =>
      { store := { σ.store with patterns := σ.store.addPatterns patterns, settings }
        phases := Function.update σ.phases i .ended }
    | none => σ.move i .ended
  | .ended => σ

/-- An empty store, and all processes before their first query. -/
def Startups.start (c : Cipher) (ι : Type*) : Startups c ι :=
  ⟨⟨Users.empty, Table.empty, .empty⟩, fun _ => .checkingAdmin⟩

/-- The state after the processes have taken the steps of a schedule. -/
def Startups.after (c : Cipher) (d : Deployment ι) (schedule : List ι) : Startups c ι :=
  schedule.foldl (Startups.advance d) (Startups.start c ι)

/-- What a step that does not wait leaves: the store, and where the process is. -/
inductive Startups.Leads (d : Deployment ι) (σ : Startups c ι) (i : ι) :
    SeedStore c → SeedPhase → Prop
  | adminFound {u : User} :
      σ.phases i = .checkingAdmin → σ.store.users.named d.username = some u →
      Leads d σ i σ.store (.checkingPatterns defaultPatterns [])
  | adminMissing :
      σ.phases i = .checkingAdmin → Leads d σ i σ.store .insertingAdmin
  | adminInserted {users : Users} :
      σ.phases i = .insertingAdmin → ¬ σ.AdminHeld i →
      σ.store.users.insert (d.admin i) = some users → Leads d σ i σ.store .committingAdmin
  | adminRejected :
      σ.phases i = .insertingAdmin ∨ σ.phases i = .committingAdmin →
      σ.store.users.insert (d.admin i) = none → Leads d σ i σ.store .ended
  | adminCommitted {users : Users} :
      σ.phases i = .committingAdmin → σ.store.users.insert (d.admin i) = some users →
      Leads d σ i { σ.store with users } (.checkingPatterns defaultPatterns [])
  | patternsChecked {added : List DefaultPattern} :
      σ.phases i = .checkingPatterns [] added →
      Leads d σ i σ.store (.checkingSettings added defaults [])
  | patternChecked {p : DefaultPattern} {todo added : List DefaultPattern} :
      σ.phases i = .checkingPatterns (p :: todo) added →
      Leads d σ i σ.store
        (.checkingPatterns todo (if σ.store.hasPattern p then added else added ++ [p]))
  | settingsChecked {patterns : List DefaultPattern} {added : List (String × String)} :
      σ.phases i = .checkingSettings patterns [] added →
      Leads d σ i σ.store (.flushing patterns added [])
  | settingChecked {patterns : List DefaultPattern} {s : String × String}
      {todo added : List (String × String)} :
      σ.phases i = .checkingSettings patterns (s :: todo) added →
      Leads d σ i σ.store (.checkingSettings patterns todo
        (if σ.store.hasSetting s then added else added ++ [s]))
  | settingRejected {patterns : List DefaultPattern} {s : String × String}
      {todo inserted : List (String × String)} :
      σ.phases i = .flushing patterns (s :: todo) inserted → σ.store.hasSetting s = true →
      Leads d σ i σ.store .ended
  | settingInserted {patterns : List DefaultPattern} {s : String × String}
      {todo inserted : List (String × String)} :
      σ.phases i = .flushing patterns (s :: todo) inserted → ¬ σ.KeyHeld i s.1 →
      σ.store.hasSetting s = false →
      Leads d σ i σ.store (.flushing patterns todo (inserted ++ [s]))
  | committed {patterns : List DefaultPattern} {inserted : List (String × String)}
      {settings : AppSettings c} :
      σ.phases i = .flushing patterns [] inserted →
      σ.store.addSettings inserted = some settings →
      Leads d σ i { σ.store with patterns := σ.store.addPatterns patterns, settings } .ended
  | commitRejected {patterns : List DefaultPattern} {inserted : List (String × String)} :
      σ.phases i = .flushing patterns [] inserted → σ.store.addSettings inserted = none →
      Leads d σ i σ.store .ended

/-- **What a step can do.** It waits, or leads on. -/
theorem Startups.advance_cases (d : Deployment ι) (σ : Startups c ι) (i : ι) :
    σ.advance d i = σ ∨ ∃ store phase, σ.Leads d i store phase ∧
      σ.advance d i = ⟨store, Function.update σ.phases i phase⟩ := by
  unfold Startups.advance
  split
  · rename_i hphase
    cases hnamed : σ.store.users.named d.username with
    | some u => exact Or.inr ⟨_, _, .adminFound hphase hnamed, rfl⟩
    | none => exact Or.inr ⟨_, _, .adminMissing hphase, rfl⟩
  · rename_i hphase
    split
    · exact Or.inl rfl
    · rename_i hheld
      cases hinsert : σ.store.users.insert (d.admin i) with
      | some users => exact Or.inr ⟨_, _, .adminInserted hphase hheld hinsert, rfl⟩
      | none => exact Or.inr ⟨_, _, .adminRejected (Or.inl hphase) hinsert, rfl⟩
  · rename_i hphase
    cases hinsert : σ.store.users.insert (d.admin i) with
    | some users => exact Or.inr ⟨_, _, .adminCommitted hphase hinsert, rfl⟩
    | none => exact Or.inr ⟨_, _, .adminRejected (Or.inr hphase) hinsert, rfl⟩
  · rename_i hphase
    exact Or.inr ⟨_, _, .patternsChecked hphase, rfl⟩
  · rename_i hphase
    exact Or.inr ⟨_, _, .patternChecked hphase, rfl⟩
  · rename_i hphase
    exact Or.inr ⟨_, _, .settingsChecked hphase, rfl⟩
  · rename_i hphase
    exact Or.inr ⟨_, _, .settingChecked hphase, rfl⟩
  · rename_i hphase
    split
    · exact Or.inl rfl
    · rename_i hheld
      split
      · rename_i hhas
        exact Or.inr ⟨_, _, .settingRejected hphase hhas, rfl⟩
      · rename_i hhas
        exact Or.inr ⟨_, _, .settingInserted hphase hheld (Bool.eq_false_of_not_eq_true hhas), rfl⟩
  · rename_i hphase
    cases hadd : σ.store.addSettings _ with
    | some settings => exact Or.inr ⟨_, _, .committed hphase hadd, rfl⟩
    | none => exact Or.inr ⟨_, _, .commitRejected hphase hadd, rfl⟩
  · exact Or.inl rfl

theorem Startups.advance_of_commit (d : Deployment ι) {σ : Startups c ι} {i : ι}
    {patterns : List DefaultPattern} {inserted : List (String × String)} {settings : AppSettings c}
    (hphase : σ.phases i = .flushing patterns [] inserted)
    (hadd : σ.store.addSettings inserted = some settings) :
    σ.advance d i = ⟨{ σ.store with patterns := σ.store.addPatterns patterns, settings },
      Function.update σ.phases i .ended⟩ := by
  unfold Startups.advance
  rw [hphase]
  dsimp only
  rw [hadd]

end Steps

/-! ## A process by itself -/

section Alone

variable [DecidableEq ι] {d : Deployment ι} {i : ι} {store : SeedStore c} {τ : Startups c ι}

/-- All processes but one before their first query. -/
def Startups.alone (store : SeedStore c) (i : ι) (phase : SeedPhase) : Startups c ι :=
  ⟨store, Function.update (fun _ => .checkingAdmin) i phase⟩

theorem Startups.phases_alone (store : SeedStore c) (i : ι) (phase : SeedPhase) :
    (alone store i phase).phases i = phase := by
  simp [alone]

theorem Startups.move_alone (store : SeedStore c) (i : ι) (old new : SeedPhase) :
    (alone store i old).move i new = alone store i new := by
  unfold move alone
  rw [Function.update_idem]

theorem Startups.phases_alone_of_ne {j : ι} (hj : j ≠ i) (phase : SeedPhase) :
    (alone store i phase).phases j = .checkingAdmin := by
  simp [alone, hj]

theorem Startups.not_adminHeld_alone (phase : SeedPhase) : ¬ (alone store i phase).AdminHeld i := by
  intro h
  obtain ⟨j, hj, hcommit⟩ := h
  rw [phases_alone_of_ne hj] at hcommit
  cases hcommit

theorem Startups.not_keyHeld_alone (phase : SeedPhase) (key : String) :
    ¬ (alone store i phase).KeyHeld i key := by
  intro h
  obtain ⟨j, hj, hkey⟩ := h
  rw [phases_alone_of_ne hj] at hkey
  cases hkey

variable [Fintype ι]

/-- A loop over what is to do that keeps what is missing comes to its end. -/
theorem Startups.runs_loop {α : Type*} (phase : List α → List α → SeedPhase)
    (after : List α → SeedPhase) (has : α → Bool)
    (hnil : ∀ added, (alone store i (phase [] added)).advance d i = alone store i (after added))
    (hcons : ∀ a todo added, (alone store i (phase (a :: todo) added)).advance d i =
      alone store i (phase todo (if has a then added else added ++ [a])))
    (todo added : List α)
    (h : Repeats (advance d) i (alone store i (after (added ++ todo.filter fun a => !has a))) τ) :
    Repeats (advance d) i (alone store i (phase todo added)) τ := by
  induction todo generalizing added with
  | nil =>
    refine h.of_step ?_
    rw [hnil, List.filter_nil, List.append_nil]
  | cons a todo ih =>
    refine (ih _ ?_).of_step (hcons a todo added)
    cases ha : has a with
    | true => simpa [ha] using h
    | false => simpa [ha] using h

theorem Startups.runs_checkingPatterns (todo added : List DefaultPattern)
    (h : Repeats (advance d) i (alone store i (.checkingSettings
      (added ++ todo.filter fun p => !store.hasPattern p) defaults [])) τ) :
    Repeats (advance d) i (alone store i (.checkingPatterns todo added)) τ := by
  refine runs_loop .checkingPatterns (fun added => .checkingSettings added defaults [])
    store.hasPattern ?_ ?_ todo added h
  · intro added
    unfold advance
    rw [phases_alone]
    exact move_alone _ _ _ _
  · intro p todo added
    unfold advance
    rw [phases_alone]
    exact move_alone _ _ _ _

theorem Startups.runs_checkingSettings (patterns : List DefaultPattern)
    (todo added : List (String × String))
    (h : Repeats (advance d) i (alone store i (.flushing patterns
      (added ++ todo.filter fun s => !store.hasSetting s) [])) τ) :
    Repeats (advance d) i (alone store i (.checkingSettings patterns todo added)) τ := by
  refine runs_loop (.checkingSettings patterns) (fun added => .flushing patterns added [])
    store.hasSetting ?_ ?_ todo added h
  · intro added
    unfold advance
    rw [phases_alone]
    exact move_alone _ _ _ _
  · intro s todo added
    unfold advance
    rw [phases_alone]
    exact move_alone _ _ _ _

theorem Startups.runs_flushing (patterns : List DefaultPattern)
    (todo inserted : List (String × String)) (hmissing : ∀ s ∈ todo, store.hasSetting s = false)
    (h : Repeats (advance d) i (alone store i (.flushing patterns [] (inserted ++ todo))) τ) :
    Repeats (advance d) i (alone store i (.flushing patterns todo inserted)) τ := by
  induction todo generalizing inserted with
  | nil => rwa [List.append_nil] at h
  | cons s todo ih =>
    obtain ⟨hs, htodo⟩ := List.forall_mem_cons.mp hmissing
    have hstep : (alone store i (.flushing patterns (s :: todo) inserted)).advance d i =
        alone store i (.flushing patterns todo (inserted ++ [s])) := by
      unfold advance
      rw [phases_alone]
      dsimp only
      rw [if_neg (not_keyHeld_alone _ _)]
      show (if store.hasSetting s = true then _ else _) = _
      rw [hs]
      exact move_alone _ _ _ _
    refine (ih _ htodo ?_).of_step hstep
    rwa [List.append_assoc, List.singleton_append]

/-- The process looks for patterns and settings and commits what is missing. -/
theorem Startups.runs_to_end (store : SeedStore c) :
    Repeats (advance d) i (alone store i (.checkingPatterns defaultPatterns []))
      (alone
        { users := store.users
          patterns := store.addPatterns store.missingPatterns
          settings := Settings.ensureSettings store.settings } i .ended) := by
  apply runs_checkingPatterns
  apply runs_checkingSettings
  apply runs_flushing
  · intro s hs
    simpa using (List.mem_filter.mp hs).2
  · refine (Repeats.refl _ _ _).of_step ?_
    show (alone store i (.flushing store.missingPatterns [] store.missingSettings)).advance d i = _
    rw [advance_of_commit d (phases_alone store i _) (addSettings_missingSettings store)]
    unfold alone
    dsimp only
    rw [Function.update_idem]

/-- The query for the admin. -/
theorem Startups.advance_checkingAdmin (d : Deployment ι) (i : ι) (store : SeedStore c) :
    (alone store i .checkingAdmin).advance d i =
      alone store i (match store.users.named d.username with
        | some _ => .checkingPatterns defaultPatterns []
        | none => .insertingAdmin) := by
  unfold advance
  rw [phases_alone]
  show (match store.users.named d.username with
    | some _ => _
    | none => _) = _
  cases store.users.named d.username with
  | some u => exact move_alone _ _ _ _
  | none => exact move_alone _ _ _ _

/-- The insert of the admin, with nobody to wait for. -/
theorem Startups.advance_insertingAdmin (d : Deployment ι) (i : ι) (store : SeedStore c) :
    (alone store i .insertingAdmin).advance d i =
      alone store i (match store.users.insert (d.admin i) with
        | some _ => .committingAdmin
        | none => .ended) := by
  unfold advance
  rw [phases_alone]
  dsimp only
  rw [if_neg (not_adminHeld_alone _)]
  show (match store.users.insert (d.admin i) with
    | some _ => _
    | none => _) = _
  cases store.users.insert (d.admin i) with
  | some users => exact move_alone _ _ _ _
  | none => exact move_alone _ _ _ _

/-- The commit of the admin. -/
theorem Startups.advance_committingAdmin {users : Users}
    (hinsert : store.users.insert (d.admin i) = some users) :
    (alone store i .committingAdmin).advance d i =
      alone { store with users } i (.checkingPatterns defaultPatterns []) := by
  unfold advance
  rw [phases_alone]
  show (match store.users.insert (d.admin i) with
    | some _ => _
    | none => _) = _
  rw [hinsert]
  unfold alone
  dsimp only
  rw [Function.update_idem]

/-- **A process by itself** does what `seedInitialData` does. -/
theorem Startups.run_alone (d : Deployment ι) (i : ι) (store : SeedStore c) :
    Repeats (advance d) i (alone store i .checkingAdmin)
      (alone (seedInitialData ⟨d.username, d.email, d.passwordHash i⟩ noFaults store) i
        .ended) := by
  have hensure := ensureAdminUser_noFaults ⟨d.username, d.email, d.passwordHash i⟩ store
  refine Repeats.of_step ?_ (advance_checkingAdmin d i store)
  cases hnamed : store.users.named d.username with
  | some u =>
    rw [hnamed] at hensure
    rw [seedInitialData_noFaults hensure]
    exact runs_to_end store
  | none =>
    rw [hnamed] at hensure
    change _ = (store.users.insert (d.admin i)).map _ at hensure
    refine Repeats.of_step ?_ (advance_insertingAdmin d i store)
    cases hinsert : store.users.insert (d.admin i) with
    | none =>
      rw [hinsert] at hensure
      have hseed : seedInitialData ⟨d.username, d.email, d.passwordHash i⟩ noFaults store =
          store := by
        unfold seedInitialData
        rw [hensure]
        rfl
      rw [hseed]
      exact Repeats.refl _ _ _
    | some users =>
      rw [hinsert] at hensure
      rw [seedInitialData_noFaults hensure]
      exact (runs_to_end { store with users }).of_step (advance_committingAdmin hinsert)

end Alone

end VsphereCompliance.Seeding
