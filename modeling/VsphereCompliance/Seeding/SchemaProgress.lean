import VsphereCompliance.Library.Runs
import VsphereCompliance.Seeding.SchemaRuns

/-!
# All start-ups come to their end

A process that another one waits for does not wait itself, so there is no deadlock
(`no_deadlock`). A backend fails only on what others have committed since it looked, once for
the types and once for the tables (`backend_fails_at_most_twice`), whereas a script or a worker
fails as long as no backend has created the schema (`only_backends_create`). So `Startups.work`,
what a backend has still to do, goes down with each of its steps: without scripts the backends come
through, and the workers after them (`startups_end`).
-/

namespace VsphereCompliance.Seeding.Schema

open Runs (Throughout)

variable {ι : Type*} {programs : ι → Program} {σ : Startups ι} {i : ι}

/-! ## Waiting -/

theorem Sound.heldTypes_prefix (h : Sound programs σ) (i : ι) :
    (σ.phases i).heldTypes <+: enums := by
  have hi := h.phases i
  rcases h.types with hnil | hall
  · cases hphase : σ.phases i with
    | checkingTypes todo made =>
      rw [hphase] at hi
      exact ⟨todo, hi hnil⟩
    | creatingType type todo made =>
      rw [hphase] at hi
      exact ⟨type :: todo, hi hnil⟩
    | _ => exact List.nil_prefix
  · have hheld := h.heldTypes.eq_nil_of_there (hall ▸ mem_enums) i
    rw [Function.comp_apply] at hheld
    rw [hheld]
    exact List.nil_prefix

theorem Sound.heldTables_prefix (h : Sound programs σ) (i : ι) :
    (σ.phases i).heldTables <+: sortedTables := by
  have hi := h.phases i
  rcases h.tables with hnil | hcomplete
  · cases hphase : σ.phases i with
    | creatingTables todo made =>
      rw [hphase] at hi
      exact (List.prefix_append made todo).trans (hi.1 hnil ▸ creates_prefix _)
    | _ => exact List.nil_prefix
  · have hheld := h.heldTables.eq_nil_of_there (hcomplete.2 ▸ mem_sortedTables) i
    rw [Function.comp_apply] at hheld
    rw [hheld]
    exact List.nil_prefix

/-- The process that has begun to create the types waits for none. -/
theorem Sound.not_waits_of_types (h : Sound programs σ) {type : EnumType}
    (hi : type ∈ (σ.phases i).heldTypes) : ¬ σ.Waits i := by
  intro hwaits
  cases hwaits with
  | type hphase hheld =>
    obtain ⟨j, hj, hjtype⟩ := hheld
    exact hj (h.heldTypes.eq_of_prefix (h.heldTypes_prefix j) (h.heldTypes_prefix i)
      (List.ne_nil_of_mem hjtype) (List.ne_nil_of_mem hi))
  | table hphase hheld =>
    rw [hphase] at hi
    cases hi

theorem Sound.not_waits_of_tables (h : Sound programs σ) {table : TableName}
    (hi : table ∈ (σ.phases i).heldTables) : ¬ σ.Waits i := by
  intro hwaits
  cases hwaits with
  | type hphase hheld =>
    rw [hphase] at hi
    cases hi
  | table hphase hheld =>
    obtain ⟨j, hj, hjtable⟩ := hheld
    exact hj (h.heldTables.eq_of_prefix (h.heldTables_prefix j) (h.heldTables_prefix i)
      (List.ne_nil_of_mem hjtable) (List.ne_nil_of_mem hi))

/-- The process that it waits for. -/
theorem Sound.exists_holder (h : Sound programs σ) (hwaits : σ.Waits i) :
    ∃ j, σ.phases j ≠ .ended ∧ ¬ σ.Waits j ∧
      ((σ.phases j).heldTypes ≠ [] ∨ (σ.phases j).heldTables ≠ []) := by
  cases hwaits with
  | type hphase hheld =>
    obtain ⟨j, hj, htype⟩ := hheld
    refine ⟨j, fun hended => ?_, h.not_waits_of_types htype, Or.inl (List.ne_nil_of_mem htype)⟩
    rw [hended] at htype
    cases htype
  | table hphase hheld =>
    obtain ⟨j, hj, htable⟩ := hheld
    refine ⟨j, fun hended => ?_, h.not_waits_of_tables htable, Or.inr (List.ne_nil_of_mem htable)⟩
    rw [hended] at htable
    cases htable

section Deadlock

variable [Fintype ι] [DecidableEq ι]

theorem advance_ne (hended : σ.phases i ≠ .ended) (hwaits : ¬ σ.Waits i) :
    σ.advance programs i ≠ σ := by
  rcases σ.advance_cases programs i with ⟨h, _⟩ | ⟨h, _⟩ | ⟨catalog, phase, _, hne, heq⟩
  · exact absurd h hended
  · exact absurd h hwaits
  · intro hsame
    refine hne ?_
    have hphases := congrArg (fun τ => τ.phases i) (heq.symm.trans hsame)
    simpa only [Function.update_self] using hphases

theorem Sound.exists_advance_ne (h : Sound programs σ) (hi : σ.phases i ≠ .ended) :
    ∃ j, σ.advance programs j ≠ σ := by
  by_cases hwaits : σ.Waits i
  · obtain ⟨j, hj, hjwaits, _⟩ := h.exists_holder hwaits
    exact ⟨j, advance_ne hj hjwaits⟩
  · exact ⟨i, advance_ne hi hwaits⟩

/-- Whatever has happened so far, some process can go on unless all have come through. -/
theorem no_deadlock (programs : ι → Program) (actions : List (Action ι)) (i : ι)
    (hi : (Startups.after programs actions).phases i ≠ .ended) :
    ∃ j, (Startups.after programs actions).advance programs j ≠
      Startups.after programs actions :=
  (sound_after programs actions).exists_advance_ne hi

/-- The second backend waits for the first one. -/
theorem no_deadlock_waiting :
    ∃ j, (Startups.after (fun _ : Bool => Program.backend)
        [.advance true, .advance false, .advance true]).advance (fun _ => .backend) j ≠
      Startups.after (fun _ : Bool => Program.backend)
        [.advance true, .advance false, .advance true] :=
  no_deadlock _ _ false (by decide)

end Deadlock

/-! ## What the programs do -/

/-- Where a process of the program may be, with nothing said of the other processes. -/
def Follows (program : Program) (catalog : Catalog) : Phase → Prop
  | .checkingTypes _ _ => program = .backend
  | .creatingType _ _ _ => program = .backend
  | .checkingUsers => program = .backend
  | .checkingTables todo missing => (∀ table ∈ missing ++ todo, table ∈ program.tables) ∧
      (program = .backend → catalog.types = enums)
  | .creatingTables todo _ => (∀ table ∈ todo, table ∈ program.tables) ∧
      (program = .backend → catalog.types = enums)
  | .readingSchedule => program = .worker
  | .ended => True
  | .failed => True

theorem follows_start (program : Program) (catalog : Catalog) :
    Follows program catalog program.start := by
  cases program with
  | backend => exact rfl
  | script => exact ⟨fun table _ => mem_tables table, nofun⟩
  | worker => exact ⟨nofun, nofun⟩

theorem follows_next (program : Program) (catalog : Catalog) :
    Follows program catalog program.next := by
  cases program with
  | backend => trivial
  | script => trivial
  | worker => exact rfl

theorem Follows.extends {program : Program} {s s' : Catalog} (he : s.Extends s') {phase : Phase}
    (h : Follows program s phase) : Follows program s' phase := by
  have htypes : s.types = enums → s'.types = enums := by
    intro hall
    rcases he.types with heq | heq
    · exact heq.trans hall
    · exact heq
  cases phase with
  | checkingTables todo missing => exact ⟨h.1, fun hp => htypes (h.2 hp)⟩
  | creatingTables todo made => exact ⟨h.1, fun hp => htypes (h.2 hp)⟩
  | _ => exact h

theorem Startups.Leads.follows (h : Sound programs σ)
    (hi : Follows (programs i) σ.catalog (σ.phases i)) {catalog : Catalog} {phase : Phase}
    (hl : σ.Leads programs i catalog phase) : Follows (programs i) catalog phase := by
  refine Follows.extends (hl.extends h) ?_
  have hsound := h.phases i
  cases hl with
  | retried hphase => exact follows_start _ _
  | typesCommitted hphase =>
    rw [hphase] at hi
    exact hi
  | typeFound hphase hfound =>
    rw [hphase] at hi
    exact hi
  | typeMissing hphase hmissing =>
    rw [hphase] at hi
    exact hi
  | typeCreated hphase hheld hmissing =>
    rw [hphase] at hi
    exact hi
  | usersMissing hphase hmissing =>
    rw [hphase] at hsound
    exact ⟨fun table htable => htable, fun _ => hsound⟩
  | tablesChecked hphase =>
    rw [hphase, Follows, List.append_nil] at hi
    exact ⟨fun table htable => hi.1 table (of_decide_eq_true (List.mem_filter.mp htable).2), hi.2⟩
  | @tableChecked table todo missing hphase =>
    rw [hphase] at hi
    refine ⟨fun table' htable => hi.1 table' ?_, hi.2⟩
    split at htable
    · rcases List.mem_append.mp htable with hmissing | htodo
      · exact List.mem_append_left _ hmissing
      · exact List.mem_append_right _ (List.mem_cons_of_mem _ htodo)
    · rwa [List.append_assoc] at htable
  | tablesCommitted hphase => exact follows_next _ _
  | tableCreated hphase hheld hcreatable =>
    rw [hphase] at hi
    exact ⟨fun table htable => hi.1 table (List.mem_cons_of_mem _ htable), hi.2⟩
  | _ => trivial

/-- The invariant of the processes, with what each program does. -/
structure Following (programs : ι → Program) (σ : Startups ι) : Prop extends
    Sound programs σ where
  follows : ∀ i, Follows (programs i) σ.catalog (σ.phases i)

theorem following_start (programs : ι → Program) : Following programs (Startups.start programs) :=
  ⟨sound_start programs, fun i => follows_start (programs i) _⟩

section Following

variable [DecidableEq ι]

theorem Startups.Leads.following (h : Following programs σ) {catalog : Catalog} {phase : Phase}
    (hl : σ.Leads programs i catalog phase) :
    Following programs ⟨catalog, Function.update σ.phases i phase⟩ := by
  refine ⟨hl.sound h.toSound, fun j => ?_⟩
  by_cases hj : j = i
  · subst hj
    simpa only [Function.update_self] using hl.follows h.toSound (h.follows j)
  · simpa only [Function.update_of_ne hj] using (h.follows j).extends (hl.extends h.toSound)

theorem Following.restart (h : Following programs σ) :
    Following programs ⟨σ.catalog, Function.update σ.phases i (programs i).start⟩ := by
  refine ⟨h.toSound.restart, fun j => ?_⟩
  by_cases hj : j = i
  · subst hj
    simpa only [Function.update_self] using follows_start (programs j) _
  · simpa only [Function.update_of_ne hj] using h.follows j

variable [Fintype ι]

/-- Without a backend the scripts and the workers leave the database empty, and none of them comes
through. -/
theorem only_backends_create (programs : ι → Program) (hbackend : ∀ i, programs i ≠ .backend)
    (actions : List (Action ι)) : (Startups.after programs actions).catalog = ⟨[], []⟩ ∧
      ∀ i, (Startups.after programs actions).phases i ≠ .ended := by
  have htypes : Following programs (Startups.after programs actions) ∧
      (Startups.after programs actions).catalog.types = [] := by
    refine run_invariant programs (fun τ => Following programs τ ∧ τ.catalog.types = []) ?_ ?_
      ⟨following_start programs, rfl⟩ actions
    · intro τ i catalog phase ⟨h, hnil⟩ hl
      refine ⟨hl.following h, ?_⟩
      cases hl with
      | typesCommitted hphase =>
        have hi := h.follows i
        rw [hphase] at hi
        exact absurd hi (hbackend i)
      | _ => exact hnil
    · intro τ i ⟨h, hnil⟩
      exact ⟨h.restart, hnil⟩
  obtain ⟨h, hnil⟩ := htypes
  have hincomplete : ¬ (Startups.after programs actions).catalog.Complete := by
    intro hcomplete
    rw [hcomplete.1] at hnil
    cases hnil
  refine ⟨Catalog.ext hnil (h.tables.resolve_right hincomplete), fun i hended => ?_⟩
  exact hincomplete (h.toSound.complete_of_ended hended)

/-- A script that fails, is started again and fails again, beside a worker. -/
theorem only_backends_create_script :
    (Startups.after (cond · .script .worker)
        (.advance false :: List.replicate 24 (.advance true))).catalog = ⟨[], []⟩ ∧
      ∀ i, (Startups.after (cond · .script .worker)
        (.advance false :: List.replicate 24 (.advance true))).phases i ≠ .ended :=
  only_backends_create _ (by decide) _

end Following

/-! ## Failures -/

/-- How often the process can still fail on the types. -/
def Phase.typeFailures (s : Catalog) : Phase → Nat
  | .creatingType _ _ _ => 1
  | .checkingTypes _ _ => if s.types = [] then 1 else 0
  | .failed => if s.types = [] then 1 else 0
  | _ => 0

/-- How often the process can still fail on the tables. -/
def Phase.tableFailures (s : Catalog) : Phase → Nat
  | .checkingTables _ _ => 1
  | .creatingTables _ _ => 1
  | .ended => 0
  | _ => if s.tables = [] then 1 else 0

/-- How often a backend can still fail. -/
def Phase.failuresLeft (s : Catalog) (phase : Phase) : Nat :=
  phase.typeFailures s + phase.tableFailures s

theorem ite_nil_le {α β : Type*} {l : List α} {l' : List β} (h : l' = [] → l = []) :
    (if l' = [] then 1 else 0) ≤ if l = [] then 1 else 0 := by
  split
  · rename_i hnil
    rw [if_pos (h hnil)]
  · exact Nat.zero_le _

theorem typeFailures_extends {s s' : Catalog} (he : s.Extends s') (phase : Phase) :
    phase.typeFailures s' ≤ phase.typeFailures s := by
  cases phase with
  | checkingTypes todo made => exact ite_nil_le he.types_nil
  | failed => exact ite_nil_le he.types_nil
  | _ => exact Nat.le_refl _

theorem tableFailures_extends {s s' : Catalog} (he : s.Extends s') (phase : Phase) :
    phase.tableFailures s' ≤ phase.tableFailures s := by
  cases phase with
  | checkingTables todo missing => exact Nat.le_refl _
  | creatingTables todo made => exact Nat.le_refl _
  | ended => exact Nat.le_refl _
  | _ => exact ite_nil_le he.tables_nil

theorem failuresLeft_extends {s s' : Catalog} (he : s.Extends s') (phase : Phase) :
    phase.failuresLeft s' ≤ phase.failuresLeft s :=
  Nat.add_le_add (typeFailures_extends he phase) (tableFailures_extends he phase)

theorem failuresLeft_start (s : Catalog) : Program.backend.start.failuresLeft s ≤ 2 := by
  simp only [Program.start, Phase.failuresLeft, Phase.typeFailures, Phase.tableFailures]
  split <;> split <;> simp

theorem Startups.Leads.failures_kept (h : Following programs σ)
    (hbackend : programs i = .backend) {catalog : Catalog} {phase : Phase}
    (hl : σ.Leads programs i catalog phase) :
    phase.failuresLeft σ.catalog + (if phase = .failed then 1 else 0) ≤
      (σ.phases i).failuresLeft σ.catalog := by
  have hi := h.follows i
  unfold Phase.failuresLeft
  cases hl with
  | retried hphase =>
    rw [hphase, hbackend]
    simp [Program.start, Phase.typeFailures, Phase.tableFailures]
  | typesCommitted hphase =>
    rw [hphase]
    simp [Phase.typeFailures, Phase.tableFailures]
  | typeFound hphase hfound =>
    rw [hphase]
    simp [Phase.typeFailures, Phase.tableFailures]
  | typeMissing hphase hmissing =>
    have hnil := h.types.resolve_right fun hall => hmissing (hall ▸ mem_enums _)
    rw [hphase]
    simp [Phase.typeFailures, Phase.tableFailures, hnil]
  | typeCreated hphase hheld hmissing =>
    rw [hphase]
    simp only [Phase.typeFailures, Phase.tableFailures]
    split <;> simp
  | usersFound hphase hfound =>
    simp [Phase.typeFailures, Phase.tableFailures]
  | usersMissing hphase hmissing =>
    have hnil := h.tables.resolve_right fun hall => hmissing (hall.2 ▸ mem_sortedTables _)
    rw [hphase]
    simp [Phase.typeFailures, Phase.tableFailures, hnil]
  | tablesChecked hphase =>
    rw [hphase]
    simp [Phase.typeFailures, Phase.tableFailures]
  | tableChecked hphase =>
    rw [hphase]
    simp [Phase.typeFailures, Phase.tableFailures]
  | tablesCommitted hphase =>
    rw [hbackend]
    simp [Program.next, Phase.typeFailures, Phase.tableFailures]
  | scheduleRead hphase hthere => simp [Phase.typeFailures, Phase.tableFailures]
  | scheduleMissing hphase hmissing =>
    rw [hphase] at hi
    exact absurd (hi.symm.trans hbackend) Program.noConfusion
  | tableCreated hphase hheld hcreatable =>
    rw [hphase]
    simp [Phase.typeFailures, Phase.tableFailures]
  | typeRejected hphase hthere =>
    rw [hphase]
    have hne : σ.catalog.types ≠ [] := List.ne_nil_of_mem hthere
    simp [Phase.typeFailures, Phase.tableFailures, hne, Nat.add_comm]
  | @tableRejected table todo made hphase hnot =>
    rw [hphase] at hi
    have htypes := hi.2 hbackend
    have hne : σ.catalog.tables ≠ [] := by
      intro hnil
      refine hnot ⟨hnil ▸ List.not_mem_nil, fun type _ => ?_⟩
      rw [htypes]
      exact mem_enums type
    rw [hphase]
    simp [Phase.typeFailures, Phase.tableFailures, hne, htypes, enums]

/-- A step uses up a failure where it fails, and adds none. -/
theorem Startups.Leads.failures (h : Following programs σ) (hbackend : programs i = .backend)
    {catalog : Catalog} {phase : Phase} (hl : σ.Leads programs i catalog phase) :
    phase.failuresLeft catalog + (if phase = .failed then 1 else 0) ≤
      (σ.phases i).failuresLeft σ.catalog :=
  (Nat.add_le_add_right (failuresLeft_extends (hl.extends h.toSound) phase) _).trans
    (hl.failures_kept h hbackend)

/-- A kill adds no failure: the process looks again at what is there. -/
theorem Following.failures_restart (h : Following programs σ) (hbackend : programs i = .backend) :
    (programs i).start.failuresLeft σ.catalog ≤ (σ.phases i).failuresLeft σ.catalog := by
  have hi := h.follows i
  have hsound := h.phases i
  have hne : enums ≠ [] := List.cons_ne_nil _ _
  rw [hbackend] at hi hsound ⊢
  simp only [Program.start, Phase.failuresLeft]
  cases hphase : σ.phases i with
  | checkingTypes todo made => exact Nat.le_refl _
  | creatingType type todo made =>
    refine Nat.add_le_add ?_ (Nat.le_refl _)
    simp only [Phase.typeFailures]
    split <;> simp
  | checkingUsers =>
    rw [hphase] at hsound
    simp [Phase.typeFailures, Phase.tableFailures, show _ = enums from hsound, hne]
  | checkingTables todo missing =>
    rw [hphase] at hi
    simp only [Phase.typeFailures, Phase.tableFailures, hi.2 rfl, hne, if_false]
    split <;> simp
  | creatingTables todo made =>
    rw [hphase] at hi
    simp only [Phase.typeFailures, Phase.tableFailures, hi.2 rfl, hne, if_false]
    split <;> simp
  | readingSchedule =>
    rw [hphase] at hi
    cases hi
  | ended =>
    have hcomplete := h.toSound.complete_of_ended hphase
    simp [Phase.typeFailures, Phase.tableFailures, hcomplete.1, hcomplete.2, hne, sortedTables]
  | failed => exact Nat.le_refl _

section Failures

variable [Fintype ι] [DecidableEq ι]

/-- How often the process fails on the way. -/
def failures (programs : ι → Program) (i : ι) : Startups ι → List (Action ι) → Nat
  | _, [] => 0
  | σ, action :: actions =>
    (if σ.phases i ≠ .failed ∧ (σ.act programs action).phases i = .failed then 1 else 0) +
      failures programs i (σ.act programs action) actions

theorem failures_act (h : Following programs σ) (hbackend : programs i = .backend)
    (action : Action ι) :
    (if σ.phases i ≠ .failed ∧ (σ.act programs action).phases i = .failed then 1 else 0) +
        ((σ.act programs action).phases i).failuresLeft (σ.act programs action).catalog ≤
      (σ.phases i).failuresLeft σ.catalog := by
  rcases act_cases σ action with heq | ⟨j, ⟨catalog, phase, hl, heq⟩ | heq⟩
  · rw [heq, if_neg fun hfails => hfails.1 hfails.2, Nat.zero_add]
  · rw [heq]
    by_cases hj : i = j
    · subst hj
      have hstep := hl.failures h hbackend
      simp only [Function.update_self]
      split
      · rename_i hfails
        rw [if_pos hfails.2] at hstep
        omega
      · omega
    · simp only [Function.update_of_ne hj]
      rw [if_neg fun hfails => hfails.1 hfails.2, Nat.zero_add]
      exact failuresLeft_extends (hl.extends h.toSound) _
  · rw [heq]
    by_cases hj : i = j
    · subst hj
      have hne : (programs i).start ≠ .failed := by simp [hbackend, Program.start]
      simp only [Function.update_self, hne, and_false, if_false, Nat.zero_add]
      exact h.failures_restart hbackend
    · simp only [Function.update_of_ne hj]
      rw [if_neg fun hfails => hfails.1 hfails.2, Nat.zero_add]

theorem act_following (h : Following programs σ) (action : Action ι) :
    Following programs (σ.act programs action) :=
  run_invariant programs (Following programs) (fun h hl => hl.following h) (fun h => h.restart)
    h [action]

theorem failures_le (h : Following programs σ) (hbackend : programs i = .backend)
    (actions : List (Action ι)) :
    failures programs i σ actions ≤ (σ.phases i).failuresLeft σ.catalog := by
  induction actions generalizing σ with
  | nil => exact Nat.zero_le _
  | cons action actions ih =>
    have hstep := failures_act h hbackend action
    have hrest := ih (act_following h action)
    rw [failures]
    omega

/-- Whatever the other processes do, a backend fails at most twice on its way, however often it
is killed. -/
theorem backend_fails_at_most_twice (programs : ι → Program) (i : ι)
    (hbackend : programs i = .backend) (actions : List (Action ι)) :
    failures programs i (Startups.start programs) actions ≤ 2 := by
  refine (failures_le (following_start programs) hbackend actions).trans ?_
  show (programs i).start.failuresLeft _ ≤ 2
  rw [hbackend]
  exact failuresLeft_start _

/-- Two backends that start together: one is a step behind, and fails on the types and then on
the tables. -/
def togetherRun : List (Action Bool) :=
  .advance false :: (List.replicate 7 (.advance true) ++ List.replicate 17 (.advance false) ++
    List.replicate 21 (.advance true) ++ [.advance false])

theorem backend_fails_at_most_twice_together :
    failures (fun _ => .backend) false (Startups.start fun _ => .backend) togetherRun ≤ 2 :=
  backend_fails_at_most_twice _ false rfl togetherRun

example :
    failures (fun _ => .backend) false (Startups.start fun _ => .backend) togetherRun = 2 := by
  decide +kernel

end Failures

/-! ## Termination -/

/-- How many steps a backend has left until it comes through or fails. -/
def Phase.remaining : Phase → Nat
  | .failed => 29
  | .checkingTypes todo _ => 2 * todo.length + 22
  | .creatingType _ todo _ => 2 * todo.length + 23
  | .checkingUsers => 21
  | .checkingTables todo _ => todo.length + 11
  | .creatingTables todo _ => todo.length + 1
  | .readingSchedule => 0
  | .ended => 0

/-- What a backend has left to do; a failure costs it another start. -/
def Startups.work (i : ι) (σ : Startups ι) : Nat :=
  (σ.phases i).remaining + 30 * (σ.phases i).failuresLeft σ.catalog

/-- A step brings a backend nearer to its end, or to a failure. -/
theorem Startups.Leads.remaining (h : Following programs σ) (hbackend : programs i = .backend)
    {catalog : Catalog} {phase : Phase} (hl : σ.Leads programs i catalog phase) :
    phase.remaining + 1 ≤ (σ.phases i).remaining + if phase = .failed then 30 else 0 := by
  have hi := h.follows i
  cases hl with
  | retried hphase =>
    rw [hphase, hbackend]
    simp [Program.start, Phase.remaining, enums]
  | typeRejected hphase hthere => simp [Phase.remaining]
  | tableRejected hphase hnot => simp [Phase.remaining]
  | usersMissing hphase hmissing =>
    rw [hphase, hbackend]
    simp [Program.tables, Phase.remaining, tables]
  | @tablesChecked missing hphase =>
    rw [hphase]
    simp only [Phase.remaining, reduceCtorEq, if_false, List.length_nil]
    have hlength := List.length_filter_le (fun table => decide (table ∈ missing)) sortedTables
    have hsorted : sortedTables.length = 9 := rfl
    omega
  | typesCommitted hphase => simp [hphase, Phase.remaining]
  | typeFound hphase hfound =>
    simp only [hphase, Phase.remaining, reduceCtorEq, if_false, List.length_cons]
    omega
  | typeMissing hphase hmissing =>
    simp only [hphase, Phase.remaining, reduceCtorEq, if_false, List.length_cons]
    omega
  | typeCreated hphase hheld hmissing => simp [hphase, Phase.remaining]
  | usersFound hphase hfound => simp [hphase, Phase.remaining]
  | tableChecked hphase =>
    simp only [hphase, Phase.remaining, reduceCtorEq, if_false, List.length_cons]
    omega
  | tablesCommitted hphase => simp [hphase, hbackend, Program.next, Phase.remaining]
  | tableCreated hphase hheld hcreatable => simp [hphase, Phase.remaining]
  | scheduleRead hphase hthere =>
    rw [hphase] at hi
    exact absurd (hi.symm.trans hbackend) Program.noConfusion
  | scheduleMissing hphase hmissing =>
    rw [hphase] at hi
    exact absurd (hi.symm.trans hbackend) Program.noConfusion

theorem work_start_le (hbackend : programs i = .backend) :
    (Startups.start programs).work i ≤ 88 := by
  have hfailures := failuresLeft_start ⟨[], []⟩
  simp only [Startups.work, Startups.start, hbackend]
  have hremaining : Program.backend.start.remaining = 28 := rfl
  omega

/-- How many steps a worker has left when the schema is there. -/
def Startups.workerSteps (i : ι) (σ : Startups ι) : Nat :=
  match σ.phases i with
  | .failed => 4
  | .checkingTables _ _ => 3
  | .creatingTables _ _ => 2
  | .readingSchedule => 1
  | _ => 0

/-- Without scripts only the backends create something. -/
theorem Following.backend_of_held (h : Following programs σ) (hscript : programs i ≠ .script)
    (hheld : (σ.phases i).heldTypes ≠ [] ∨ (σ.phases i).heldTables ≠ []) :
    programs i = .backend := by
  cases hp : programs i with
  | backend => rfl
  | script => exact absurd hp hscript
  | worker =>
    have hi := h.follows i
    have hsound := h.phases i
    cases hphase : σ.phases i with
    | checkingTypes todo made =>
      rw [hphase] at hi
      exact absurd (hi.symm.trans hp) Program.noConfusion
    | creatingType type todo made =>
      rw [hphase] at hi
      exact absurd (hi.symm.trans hp) Program.noConfusion
    | creatingTables todo made =>
      rw [hphase, hp] at hsound
      have hmade : made = [] := by
        rcases h.tables with hnil | hcomplete
        · have hcreates := hsound.1 hnil
          rw [creates_worker] at hcreates
          exact (List.append_eq_nil_iff.mp hcreates).1
        · have hall := h.heldTables.eq_nil_of_there (hcomplete.2 ▸ mem_sortedTables) i
          rwa [Function.comp_apply, hphase] at hall
      simp [hphase, hmade, Phase.heldTypes, Phase.heldTables] at hheld
    | _ => simp [hphase, Phase.heldTypes, Phase.heldTables] at hheld

section Termination

variable [DecidableEq ι]

theorem Startups.Leads.work_lt (h : Following programs σ) (hbackend : programs i = .backend)
    {catalog : Catalog} {phase : Phase} (hl : σ.Leads programs i catalog phase) :
    Startups.work i ⟨catalog, Function.update σ.phases i phase⟩ < σ.work i := by
  have hfailures := hl.failures h hbackend
  have hremaining := hl.remaining h hbackend
  simp only [Startups.work, Function.update_self]
  split at hremaining
  · rename_i hfailed
    rw [if_pos hfailed] at hfailures
    omega
  · rename_i hfailed
    rw [if_neg hfailed] at hfailures
    omega

/-- The steps of another process leave no more to do. -/
theorem Startups.Leads.work_le (h : Following programs σ) {catalog : Catalog} {phase : Phase}
    (hl : σ.Leads programs i catalog phase) {j : ι} (hj : j ≠ i) :
    Startups.work j ⟨catalog, Function.update σ.phases i phase⟩ ≤ σ.work j := by
  have hfailures := failuresLeft_extends (hl.extends h.toSound) (σ.phases j)
  simp only [Startups.work, Function.update_of_ne hj]
  omega

/-- With the schema there a worker does not fail any more. -/
theorem Startups.Leads.workerSteps_lt (h : Following programs σ) (hworker : programs i = .worker)
    (hcomplete : σ.catalog.Complete) {catalog : Catalog} {phase : Phase}
    (hl : σ.Leads programs i catalog phase) :
    Startups.workerSteps i ⟨catalog, Function.update σ.phases i phase⟩ < σ.workerSteps i := by
  have hi := h.follows i
  simp only [Startups.workerSteps, Function.update_self]
  cases hl with
  | retried hphase => simp [hphase, hworker, Program.start]
  | tablesChecked hphase => simp [hphase]
  | @tableChecked table todo missing hphase =>
    rw [hphase, hworker] at hi
    exact absurd (hi.1 table (List.mem_append_right _ List.mem_cons_self)) List.not_mem_nil
  | tablesCommitted hphase => simp [hphase, hworker, Program.next]
  | @tableCreated table todo made hphase hheld hcreatable =>
    rw [hphase, hworker] at hi
    exact absurd (hi.1 table List.mem_cons_self) List.not_mem_nil
  | @tableRejected table todo made hphase hnot =>
    rw [hphase, hworker] at hi
    exact absurd (hi.1 table List.mem_cons_self) List.not_mem_nil
  | scheduleRead hphase hthere => simp [hphase]
  | scheduleMissing hphase hmissing =>
    exact absurd (hcomplete.2 ▸ mem_sortedTables .appSettings) hmissing
  | _ hphase =>
    rw [hphase, hworker] at hi
    cases hi

variable [Fintype ι]

/-- What a step that does something does to a rank, from what the steps that go on do. -/
theorem rank_advance {rank : Startups ι → Nat} {R : Nat → Nat → Prop}
    (hl : ∀ {catalog phase}, σ.Leads programs i catalog phase →
      R (rank ⟨catalog, Function.update σ.phases i phase⟩) (rank σ))
    (hne : σ.advance programs i ≠ σ) : R (rank (σ.advance programs i)) (rank σ) := by
  rcases σ.advance_cases programs i with ⟨_, heq⟩ | ⟨_, heq⟩ | ⟨catalog, phase, hleads, _, heq⟩
  · exact absurd heq hne
  · exact absurd heq hne
  · rw [heq]
    exact hl hleads

/-- Of the steps of a backend that do something there are at most 88. -/
theorem count_backend_le (hbackend : programs i = .backend) {steps : List ι}
    (hsteps : Throughout (Startups.advance programs) (fun σ i => σ.advance programs i ≠ σ)
      (Startups.start programs) steps) : steps.count i ≤ 88 := by
  have hcount := hsteps.count_add_le (I := Following programs) (l := i) (Startups.work i)
    (fun _ j h _ => act_following h (.advance j))
    (fun _ h hne => rank_advance (fun hl => hl.work_lt h hbackend) hne)
    (fun _ j hj h hne => rank_advance (fun hl => hl.work_le h (Ne.symm hj)) hne)
    (following_start programs)
  have hstart := work_start_le hbackend
  omega

/-- Once the schema is there at most 4 more steps of a worker do something. -/
theorem count_worker_le (h : Following programs σ) (hcomplete : σ.catalog.Complete)
    (hworker : programs i = .worker) {steps : List ι}
    (hsteps : Throughout (Startups.advance programs) (fun σ i => σ.advance programs i ≠ σ)
      σ steps) : steps.count i ≤ 4 := by
  have hcount := hsteps.count_add_le (l := i) (Startups.workerSteps i)
    (I := fun τ => Following programs τ ∧ τ.catalog.Complete) ?_ ?_ ?_ ⟨h, hcomplete⟩
  · have hle : σ.workerSteps i ≤ 4 := by
      unfold Startups.workerSteps
      split <;> simp
    omega
  · rintro τ j ⟨h, hcomplete⟩ hne
    refine ⟨act_following h (.advance j), ?_⟩
    rcases τ.advance_cases programs j with ⟨_, heq⟩ | ⟨_, heq⟩ | ⟨catalog, phase, hl, _, heq⟩
    · exact absurd heq hne
    · exact absurd heq hne
    · rw [heq]
      exact (hl.extends h.toSound).complete hcomplete
  · rintro τ ⟨h, hcomplete⟩ hne
    exact rank_advance (fun hl => hl.workerSteps_lt h hworker hcomplete) hne
  · rintro τ j hj _ hne
    refine rank_advance (R := (· ≤ ·)) (fun _ => Nat.le_of_eq ?_) hne
    simp only [Startups.workerSteps, Function.update_of_ne (Ne.symm hj)]

/-- As long as a backend has not come through, some backend can go on. -/
theorem Following.exists_backend (h : Following programs σ) (hscript : ∀ i, programs i ≠ .script)
    (hbackend : programs i = .backend) (hi : σ.phases i ≠ .ended) :
    ∃ j, programs j = .backend ∧ σ.advance programs j ≠ σ := by
  by_cases hwaits : σ.Waits i
  · obtain ⟨j, hj, hjwaits, hheld⟩ := h.exists_holder hwaits
    exact ⟨j, h.backend_of_held (hscript j) hheld, advance_ne hj hjwaits⟩
  · exact ⟨i, hbackend, advance_ne hi hwaits⟩

/-- Every step does something. -/
def Effective (programs : ι → Program) : Startups ι → List ι → Prop :=
  Throughout (Startups.advance programs) fun σ i => σ.advance programs i ≠ σ

/-- Without scripts and kills the backends come through, whatever the workers do: of the steps of
a backend that do something there are at most 88, and when none is left all backends have come
through. From the complete schema on at most 4 steps of a worker do something, and when no step
of any process is left all have come through. -/
theorem startups_end (programs : ι → Program) (hscript : ∀ i, programs i ≠ .script)
    (steps : List ι) (hsteps : Effective programs (Startups.start programs) steps)
    {σ : Startups ι} (hσ : steps.foldl (Startups.advance programs) (Startups.start programs) = σ) :
    (∀ i, programs i = .backend → steps.count i ≤ 88) ∧
      ((∀ i, programs i = .backend → σ.advance programs i = σ) →
        ∀ i, programs i = .backend → σ.phases i = .ended ∧ σ.catalog.Complete) ∧
      (σ.catalog.Complete → ∀ later, Effective programs σ later →
        ∀ i, programs i = .worker → later.count i ≤ 4) ∧
      ((∀ i, σ.advance programs i = σ) → ∀ i, σ.phases i = .ended) := by
  have h : Following programs σ := hσ ▸ hsteps.invariant (I := Following programs)
    (fun _ j h _ => act_following h (.advance j)) (following_start programs)
  refine ⟨fun i hbackend => count_backend_le hbackend hsteps, fun hstuck i hbackend => ?_,
    fun hcomplete later hlater i hworker => count_worker_le h hcomplete hworker hlater,
    fun hstuck i => ?_⟩
  · have hended : σ.phases i = .ended := by
      by_contra hended
      obtain ⟨j, hj, hne⟩ := h.exists_backend hscript hbackend hended
      exact hne (hstuck j hj)
    exact ⟨hended, h.toSound.complete_of_ended hended⟩
  · by_contra hended
    obtain ⟨j, hj⟩ := h.toSound.exists_advance_ne hended
    exact hj (hstuck j)

theorem advance_of_ended (hended : σ.phases i = .ended) : σ.advance programs i = σ := by
  rw [Startups.advance, hended]

/-- A step that moves its process does something. -/
theorem effective_of_moves {steps : List ι} (h : Throughout (Startups.advance programs)
    (fun τ i => (τ.advance programs i).phases i ≠ τ.phases i) σ steps) :
    Effective programs σ steps :=
  h.imp fun _ i hmoves heq => hmoves (congrArg (fun τ => Startups.phases τ i) heq)

/-- A worker that fails, is started again and waits, the whole start-up of a backend, and the rest
of that of the worker. -/
def backendAndWorker : List Bool :=
  List.replicate 4 false ++ List.replicate 28 true ++ List.replicate 3 false

theorem startups_end_backend_worker : ∃ σ : Startups Bool,
    backendAndWorker.foldl (Startups.advance (cond · .backend .worker))
        (Startups.start (cond · .backend .worker)) = σ ∧
      (∀ i, σ.phases i = .ended) ∧ σ.catalog.Complete ∧ backendAndWorker.count true ≤ 88 := by
  have hended : ∀ i, (backendAndWorker.foldl (Startups.advance (cond · .backend .worker))
      (Startups.start (cond · .backend .worker))).phases i = .ended := by
    decide +kernel
  obtain ⟨hcount, hbackends, _⟩ := startups_end (cond · .backend .worker) (by decide)
    backendAndWorker (effective_of_moves (by decide +kernel)) rfl
  exact ⟨_, rfl, hended, (hbackends (fun i _ => advance_of_ended (hended i)) true rfl).2,
    hcount true rfl⟩

end Termination

end VsphereCompliance.Seeding.Schema
