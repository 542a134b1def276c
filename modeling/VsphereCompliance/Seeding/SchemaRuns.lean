import VsphereCompliance.Library.Holdings
import VsphereCompliance.Seeding.Schema

/-!
# The schema is all or nothing

Every transaction creates the objects of one list in its order, and nobody can pass the one that
has created the first of them (`Holdings.Exclusive`). So while nothing of a list is committed,
what a process has created and what it has still to create make up the whole list
(`PhaseSound`), and a commit adds all of it (`Startups.Leads.sound`). Whatever the programs, the
interleaving and the kills: the tables are there all together or not at all, and a process that
has come through its start-up finds all of them (`schema_all_or_nothing`).
-/

namespace VsphereCompliance.Seeding.Schema

open Holdings (Exclusive)

variable {ι : Type*}

/-! ## The objects -/

theorem mem_enums (type : EnumType) : type ∈ enums := by
  cases type <;> simp [enums]

theorem mem_tables (table : TableName) : table ∈ tables := by
  cases table <;> simp [tables]

theorem mem_sortedTables (table : TableName) : table ∈ sortedTables := by
  cases table <;> simp [sortedTables]

/-- The tables that the program creates in an empty database, in this order. -/
def Program.creates (program : Program) : List TableName :=
  sortedTables.filter (· ∈ program.tables)

theorem creates_worker : Program.worker.creates = [] := by
  simp [Program.creates, Program.tables]

theorem creates_of_ne_worker {program : Program} (h : program ≠ .worker) :
    program.creates = sortedTables := by
  refine List.filter_eq_self.mpr fun table _ => decide_eq_true ?_
  cases program with
  | backend => exact mem_tables table
  | script => exact mem_tables table
  | worker => exact absurd rfl h

theorem creates_prefix (program : Program) : program.creates <+: sortedTables := by
  by_cases h : program = .worker
  · rw [h, creates_worker]
    exact List.nil_prefix
  · rw [creates_of_ne_worker h]

/-! ## The invariant -/

/-- Where a process of the program may be, for this catalog. -/
def PhaseSound (program : Program) (catalog : Catalog) : Phase → Prop
  | .checkingTypes todo made => catalog.types = [] → made ++ todo = enums
  | .creatingType type todo made => catalog.types = [] → made ++ type :: todo = enums
  | .checkingUsers => catalog.types = enums
  | .checkingTables todo missing => catalog.tables = [] → missing ++ todo = program.tables
  | .creatingTables todo made => (catalog.tables = [] → made ++ todo = program.creates) ∧
      ∀ table ∈ made, ∀ type ∈ table.types, type ∈ catalog.types
  | .readingSchedule => True
  | .ended => catalog.Complete
  | .failed => True

structure Sound (programs : ι → Program) (σ : Startups ι) : Prop where
  types : σ.catalog.types = [] ∨ σ.catalog.types = enums
  tables : σ.catalog.tables = [] ∨ σ.catalog.Complete
  phases : ∀ i, PhaseSound (programs i) σ.catalog (σ.phases i)
  heldTypes : Exclusive (Phase.heldTypes ∘ σ.phases) σ.catalog.types
  heldTables : Exclusive (Phase.heldTables ∘ σ.phases) σ.catalog.tables

/-- What a commit may do to the catalog. -/
structure Catalog.Extends (s s' : Catalog) : Prop where
  types : s'.types = s.types ∨ s'.types = enums
  tables : s'.tables = s.tables ∨ s'.Complete

theorem Catalog.Extends.refl (s : Catalog) : s.Extends s := ⟨Or.inl rfl, Or.inl rfl⟩

theorem Catalog.Extends.types_nil {s s' : Catalog} (he : s.Extends s') (hnil : s'.types = []) :
    s.types = [] := by
  rcases he.types with heq | heq
  · rw [← heq, hnil]
  · rw [heq] at hnil
    cases hnil

theorem Catalog.Extends.tables_nil {s s' : Catalog} (he : s.Extends s') (hnil : s'.tables = []) :
    s.tables = [] := by
  rcases he.tables with heq | heq
  · rw [← heq, hnil]
  · rw [heq.2] at hnil
    cases hnil

theorem Catalog.Extends.complete {s s' : Catalog} (he : s.Extends s') (h : s.Complete) :
    s'.Complete := by
  rcases he.tables with htables | hcomplete
  · refine ⟨?_, htables.trans h.2⟩
    rcases he.types with htypes | htypes
    · exact htypes.trans h.1
    · exact htypes
  · exact hcomplete

theorem PhaseSound.extends {program : Program} {s s' : Catalog} (he : s.Extends s')
    {phase : Phase} (h : PhaseSound program s phase) : PhaseSound program s' phase := by
  cases phase with
  | checkingTypes todo made => exact fun hnil => h (he.types_nil hnil)
  | creatingType type todo made => exact fun hnil => h (he.types_nil hnil)
  | checkingUsers =>
    rcases he.types with heq | heq
    · exact heq.trans h
    · exact heq
  | checkingTables todo missing => exact fun hnil => h (he.tables_nil hnil)
  | creatingTables todo made =>
    refine ⟨fun hnil => h.1 (he.tables_nil hnil), fun table htable type htype => ?_⟩
    rcases he.types with heq | heq
    · rw [heq]
      exact h.2 table htable type htype
    · rw [heq]
      exact mem_enums type
  | readingSchedule => trivial
  | ended => exact he.complete h
  | failed => trivial

theorem phaseSound_start (program : Program) (catalog : Catalog) :
    PhaseSound program catalog program.start := by
  cases program with
  | backend => exact fun _ => rfl
  | script => exact fun _ => rfl
  | worker => exact fun _ => rfl

theorem heldTypes_start (program : Program) : program.start.heldTypes = [] := by
  cases program <;> rfl

theorem heldTables_start (program : Program) : program.start.heldTables = [] := by
  cases program <;> rfl

theorem heldTypes_next (program : Program) : program.next.heldTypes = [] := by
  cases program <;> rfl

theorem heldTables_next (program : Program) : program.next.heldTables = [] := by
  cases program <;> rfl

theorem sound_start (programs : ι → Program) : Sound programs (Startups.start programs) where
  types := Or.inl rfl
  tables := Or.inl rfl
  phases i := phaseSound_start (programs i) _
  heldTypes := Holdings.exclusive_of_nil fun i => heldTypes_start (programs i)
  heldTables := Holdings.exclusive_of_nil fun i => heldTables_start (programs i)

/-! ## One step -/

variable {programs : ι → Program} {σ : Startups ι} {i : ι}

/-- The transaction of the types completes them, or has nothing to commit. -/
theorem Sound.types_of_made (h : Sound programs σ) {made : List EnumType}
    (hphase : σ.phases i = .checkingTypes [] made) : σ.catalog.types ++ made = enums := by
  have hi := h.phases i
  rw [hphase] at hi
  rcases h.types with hnil | hall
  · have hmade := hi hnil
    rw [List.append_nil] at hmade
    rw [hnil, List.nil_append, hmade]
  · have hheld := h.heldTypes.eq_nil_of_there (hall ▸ mem_enums) i
    rw [Function.comp_apply, hphase] at hheld
    rw [hall, show made = [] from hheld, List.append_nil]

/-- The transaction of the tables completes the schema, or has nothing to commit. -/
theorem Sound.tables_of_made (h : Sound programs σ) {made : List TableName}
    (hphase : σ.phases i = .creatingTables [] made) :
    made = [] ∧ (∀ table ∈ (programs i).tables, table ∈ σ.catalog.tables) ∨
      σ.catalog.types = enums ∧ σ.catalog.tables ++ made = sortedTables := by
  have hi := h.phases i
  rw [hphase] at hi
  rcases h.tables with hnil | hcomplete
  · have hmade := hi.1 hnil
    rw [List.append_nil] at hmade
    by_cases hworker : programs i = .worker
    · rw [hworker, creates_worker] at hmade
      rw [hworker]
      exact Or.inl ⟨hmade, fun table htable => absurd htable List.not_mem_nil⟩
    · rw [creates_of_ne_worker hworker] at hmade
      refine Or.inr ⟨?_, by rw [hnil, hmade, List.nil_append]⟩
      -- the type of `users` was there when the table was created
      have hrole := hi.2 .users (hmade ▸ mem_sortedTables .users) .userrole
        (List.mem_singleton.mpr rfl)
      rcases h.types with htypes | htypes
      · rw [htypes] at hrole
        cases hrole
      · exact htypes
  · have hheld := h.heldTables.eq_nil_of_there (hcomplete.2 ▸ mem_sortedTables) i
    rw [Function.comp_apply, hphase] at hheld
    exact Or.inl ⟨hheld, fun table _ => hcomplete.2 ▸ mem_sortedTables table⟩

/-- A table is there only with the whole schema. -/
theorem Sound.complete_of_mem (h : Sound programs σ) {table : TableName}
    (hthere : table ∈ σ.catalog.tables) : σ.catalog.Complete := by
  rcases h.tables with hnil | hcomplete
  · rw [hnil] at hthere
    cases hthere
  · exact hcomplete

/-- Behind `create_all` the worker has still to read its schedule, and all others have the whole
schema. -/
theorem Sound.next_of_made (h : Sound programs σ) {made : List TableName}
    (hphase : σ.phases i = .creatingTables [] made) :
    PhaseSound (programs i) { σ.catalog with tables := σ.catalog.tables ++ made }
      (programs i).next := by
  have hcomplete (hworker : programs i ≠ .worker) :
      Catalog.Complete { σ.catalog with tables := σ.catalog.tables ++ made } := by
    rcases h.tables_of_made hphase with ⟨rfl, hfound⟩ | hall
    · rw [List.append_nil]
      refine h.complete_of_mem (hfound .users ?_)
      cases hp : programs i with
      | backend => exact mem_tables _
      | script => exact mem_tables _
      | worker => exact absurd hp hworker
    · exact hall
  cases hp : programs i with
  | worker => trivial
  | backend => exact hcomplete (by simp [hp])
  | script => exact hcomplete (by simp [hp])

theorem Sound.complete_of_ended (h : Sound programs σ) (hended : σ.phases i = .ended) :
    σ.catalog.Complete := by
  have hi := h.phases i
  rw [hended] at hi
  exact hi

theorem Startups.Leads.extends (h : Sound programs σ) {catalog : Catalog} {phase : Phase}
    (hl : σ.Leads programs i catalog phase) : σ.catalog.Extends catalog := by
  cases hl with
  | typesCommitted hphase => exact ⟨Or.inr (h.types_of_made hphase), Or.inl rfl⟩
  | tablesCommitted hphase =>
    rcases h.tables_of_made hphase with ⟨hmade, _⟩ | hall
    · exact ⟨Or.inl rfl, Or.inl (by rw [hmade, List.append_nil])⟩
    · exact ⟨Or.inl rfl, Or.inr hall⟩
  | _ => exact .refl _

section Step

variable [DecidableEq ι]

/-- The invariant after a step, from what the step leaves of it. -/
theorem Sound.step (h : Sound programs σ) {catalog : Catalog} {phase : Phase}
    (he : σ.catalog.Extends catalog) (hphase : PhaseSound (programs i) catalog phase)
    (htypes : Exclusive (Function.update (Phase.heldTypes ∘ σ.phases) i phase.heldTypes)
      catalog.types)
    (htables : Exclusive (Function.update (Phase.heldTables ∘ σ.phases) i phase.heldTables)
      catalog.tables) :
    Sound programs ⟨catalog, Function.update σ.phases i phase⟩ where
  types := by
    rcases he.types with heq | heq
    · exact heq ▸ h.types
    · exact Or.inr heq
  tables := by
    rcases h.tables with hnil | hcomplete
    · exact he.tables.imp_left fun heq => heq.trans hnil
    · exact Or.inr (he.complete hcomplete)
  phases j := by
    by_cases hj : j = i
    · subst hj
      simpa only [Function.update_self] using hphase
    · simpa only [Function.update_of_ne hj] using (h.phases j).extends he
  heldTypes := by
    rw [Function.comp_update]
    exact htypes
  heldTables := by
    rw [Function.comp_update]
    exact htables

/-- A step that leaves the catalog: what the process has created, it had created before, or
nobody has. -/
theorem Sound.move (h : Sound programs σ) {phase : Phase}
    (hphase : PhaseSound (programs i) σ.catalog phase)
    (htypes : ∀ type ∈ phase.heldTypes, type ∈ (σ.phases i).heldTypes ∨
      ¬ (∃ j, j ≠ i ∧ type ∈ (σ.phases j).heldTypes) ∧ type ∉ σ.catalog.types)
    (htables : ∀ table ∈ phase.heldTables, table ∈ (σ.phases i).heldTables ∨
      ¬ (∃ j, j ≠ i ∧ table ∈ (σ.phases j).heldTables) ∧ table ∉ σ.catalog.tables) :
    Sound programs ⟨σ.catalog, Function.update σ.phases i phase⟩ :=
  h.step (.refl _) hphase (h.heldTypes.update htypes) (h.heldTables.update htables)

/-- A step after which the process has created nothing, or only what it had. -/
theorem Sound.keep (h : Sound programs σ) {phase : Phase}
    (hphase : PhaseSound (programs i) σ.catalog phase)
    (htypes : phase.heldTypes ⊆ (σ.phases i).heldTypes)
    (htables : phase.heldTables ⊆ (σ.phases i).heldTables) :
    Sound programs ⟨σ.catalog, Function.update σ.phases i phase⟩ :=
  h.move hphase (fun _ htype => Or.inl (htypes htype)) fun _ htable => Or.inl (htables htable)

theorem Sound.restart (h : Sound programs σ) :
    Sound programs ⟨σ.catalog, Function.update σ.phases i (programs i).start⟩ := by
  refine h.keep (phaseSound_start _ _) ?_ ?_
  · rw [heldTypes_start]
    exact List.nil_subset _
  · rw [heldTables_start]
    exact List.nil_subset _

theorem Startups.Leads.sound (h : Sound programs σ) {catalog : Catalog} {phase : Phase}
    (hl : σ.Leads programs i catalog phase) :
    Sound programs ⟨catalog, Function.update σ.phases i phase⟩ := by
  have hi := h.phases i
  have he := hl.extends h
  cases hl with
  | typesCommitted hphase =>
    refine h.step he (h.types_of_made hphase) ?_ h.heldTables.release
    have hcommit := h.heldTypes.commit (i := i)
    rwa [Function.comp_apply, hphase] at hcommit
  | typeFound hphase hfound =>
    refine h.keep (fun hnil => ?_) (hphase ▸ List.Subset.refl _) (List.nil_subset _)
    rw [hnil] at hfound
    cases hfound
  | typeMissing hphase hmissing =>
    rw [hphase] at hi
    exact h.keep hi (hphase ▸ List.Subset.refl _) (List.nil_subset _)
  | @typeCreated type todo made hphase hheld hmissing =>
    rw [hphase] at hi
    refine h.move (fun hnil => ?_) (fun type' htype => ?_) fun _ htable => nomatch htable
    · rw [List.append_assoc]
      exact hi hnil
    · rcases List.mem_append.mp htype with hmade | hnew
      · exact Or.inl (hphase ▸ hmade)
      · rw [List.mem_singleton.mp hnew]
        exact Or.inr ⟨hheld, hmissing⟩
  | usersFound hphase hfound =>
    exact h.keep (h.complete_of_mem hfound) (List.nil_subset _) (List.nil_subset _)
  | usersMissing hphase hmissing =>
    exact h.keep (fun _ => rfl) (List.nil_subset _) (List.nil_subset _)
  | tablesChecked hphase =>
    rw [hphase] at hi
    refine h.keep ⟨fun hnil => ?_, fun _ htable => nomatch htable⟩ (List.nil_subset _)
      (List.nil_subset _)
    have hmissing := hi hnil
    rw [List.append_nil] at hmissing
    rw [hmissing, List.nil_append]
    rfl
  | tableChecked hphase =>
    rw [hphase] at hi
    refine h.keep (fun hnil => ?_) (List.nil_subset _) (List.nil_subset _)
    rw [if_neg (hnil ▸ List.not_mem_nil), List.append_assoc]
    exact hi hnil
  | tablesCommitted hphase =>
    have hcommit := h.heldTables.commit (i := i)
    rw [Function.comp_apply, hphase] at hcommit
    refine h.step he (h.next_of_made hphase) ?_ ?_
    · rw [heldTypes_next]
      exact h.heldTypes.release
    · rw [heldTables_next]
      exact hcommit
  | @tableCreated table todo made hphase hheld hcreatable =>
    rw [hphase] at hi
    refine h.move ⟨fun hnil => ?_, fun table' htable => ?_⟩ (fun _ htype => nomatch htype)
      fun table' htable => ?_
    · rw [List.append_assoc]
      exact hi.1 hnil
    · rcases List.mem_append.mp htable with hmade | hnew
      · exact hi.2 table' hmade
      · rw [List.mem_singleton.mp hnew]
        exact hcreatable.2
    · rcases List.mem_append.mp htable with hmade | hnew
      · exact Or.inl (hphase ▸ hmade)
      · rw [List.mem_singleton.mp hnew]
        exact Or.inr ⟨hheld, hcreatable.1⟩
  | scheduleRead hphase hthere =>
    exact h.keep (h.complete_of_mem hthere) (List.nil_subset _) (List.nil_subset _)
  | scheduleMissing hphase hmissing =>
    exact h.keep trivial (List.nil_subset _) (List.nil_subset _)
  | typeRejected hphase hthere => exact h.keep trivial (List.nil_subset _) (List.nil_subset _)
  | tableRejected hphase hnot => exact h.keep trivial (List.nil_subset _) (List.nil_subset _)
  | retried hphase => exact h.restart

end Step

/-! ## Start-ups with the schema there -/

/-- Where a process is that has started with the schema there: it has missed nothing. -/
def Phase.Quiet : Phase → Prop
  | .creatingType _ _ _ => False
  | .checkingTables _ missing => missing = []
  | .creatingTables todo _ => todo = []
  | .failed => False
  | _ => True

theorem quiet_start (program : Program) : program.start.Quiet := by
  cases program with
  | backend => trivial
  | script => exact rfl
  | worker => exact rfl

theorem quiet_next (program : Program) : program.next.Quiet := by
  cases program <;> trivial

theorem Startups.Leads.catalog_eq (h : Sound programs σ) (hcomplete : σ.catalog.Complete)
    {catalog : Catalog} {phase : Phase} (hl : σ.Leads programs i catalog phase) :
    catalog = σ.catalog := by
  cases hl with
  | typesCommitted hphase =>
    exact Catalog.ext ((h.types_of_made hphase).trans hcomplete.1.symm) rfl
  | tablesCommitted hphase =>
    refine Catalog.ext rfl ?_
    rcases h.tables_of_made hphase with ⟨hmade, _⟩ | ⟨_, htables⟩
    · rw [hmade, List.append_nil]
    · exact htables.trans hcomplete.2.symm
  | _ => rfl

theorem Startups.Leads.quiet (hcomplete : σ.catalog.Complete) {catalog : Catalog} {phase : Phase}
    (hl : σ.Leads programs i catalog phase) (hi : (σ.phases i).Quiet) : phase.Quiet := by
  cases hl with
  | typesCommitted hphase => trivial
  | typeFound hphase hfound => trivial
  | @typeMissing type _ _ hphase hmissing =>
    exact absurd (hcomplete.1 ▸ mem_enums type) hmissing
  | typeCreated hphase hheld hmissing => trivial
  | usersFound hphase hfound => trivial
  | usersMissing hphase hmissing => exact rfl
  | tablesChecked hphase =>
    rw [hphase] at hi
    rw [show _ = [] from hi]
    simp [Phase.Quiet]
  | @tableChecked table todo missing hphase =>
    rw [hphase] at hi
    rw [if_pos (hcomplete.2 ▸ mem_sortedTables table)]
    exact hi
  | tablesCommitted hphase => exact quiet_next _
  | tableCreated hphase hheld hcreatable =>
    rw [hphase] at hi
    cases hi
  | scheduleRead hphase hthere => trivial
  | scheduleMissing hphase hmissing =>
    exact absurd (hcomplete.2 ▸ mem_sortedTables .appSettings) hmissing
  | typeRejected hphase hthere =>
    rw [hphase] at hi
    exact hi
  | tableRejected hphase hnot =>
    rw [hphase] at hi
    cases hi
  | retried hphase => exact quiet_start _

/-! ## Runs -/

section Runs

variable [Fintype ι] [DecidableEq ι]

theorem act_cases (σ : Startups ι) (action : Action ι) :
    σ.act programs action = σ ∨ ∃ i,
      (∃ catalog phase, σ.Leads programs i catalog phase ∧
        σ.act programs action = ⟨catalog, Function.update σ.phases i phase⟩) ∨
      σ.act programs action = ⟨σ.catalog, Function.update σ.phases i (programs i).start⟩ := by
  cases action with
  | advance i =>
    rcases σ.advance_cases programs i with ⟨_, heq⟩ | ⟨_, heq⟩ | ⟨catalog, phase, hl, _, heq⟩
    · exact Or.inl heq
    · exact Or.inl heq
    · exact Or.inr ⟨i, Or.inl ⟨catalog, phase, hl, heq⟩⟩
  | restart i => exact Or.inr ⟨i, Or.inr rfl⟩

/-- What the steps of the processes and the kills keep. -/
theorem run_invariant (programs : ι → Program) (I : Startups ι → Prop)
    (hleads : ∀ {σ i catalog phase}, I σ → σ.Leads programs i catalog phase →
      I ⟨catalog, Function.update σ.phases i phase⟩)
    (hrestart : ∀ {σ} {i}, I σ → I ⟨σ.catalog, Function.update σ.phases i (programs i).start⟩)
    (h : I σ) (actions : List (Action ι)) : I (actions.foldl (Startups.act programs) σ) := by
  induction actions generalizing σ with
  | nil => exact h
  | cons action actions ih =>
    refine ih ?_
    rcases act_cases σ action with heq | ⟨i, ⟨catalog, phase, hl, heq⟩ | heq⟩
    · rw [heq]
      exact h
    · rw [heq]
      exact hleads h hl
    · rw [heq]
      exact hrestart h

theorem sound_after (programs : ι → Program) (actions : List (Action ι)) :
    Sound programs (Startups.after programs actions) :=
  run_invariant programs (Sound programs) (fun h hl => hl.sound h) (fun h => h.restart)
    (sound_start programs) actions

/-- Whatever the programs, the interleaving and the kills: there is nothing, the types, or the
whole schema, and a process comes through its start-up only with the whole. -/
theorem schema_all_or_nothing (programs : ι → Program) (actions : List (Action ι)) :
    ((Startups.after programs actions).catalog = ⟨[], []⟩ ∨
        (Startups.after programs actions).catalog = ⟨enums, []⟩ ∨
        (Startups.after programs actions).catalog.Complete) ∧
      ∀ i, (Startups.after programs actions).phases i = .ended →
        (Startups.after programs actions).catalog.Complete := by
  have h := sound_after programs actions
  generalize Startups.after programs actions = σ at h ⊢
  refine ⟨?_, fun i hended => h.complete_of_ended hended⟩
  rcases h.tables with hnil | hcomplete
  · rcases h.types with htypes | htypes
    · exact Or.inl (Catalog.ext htypes hnil)
    · exact Or.inr (Or.inl (Catalog.ext htypes hnil))
  · exact Or.inr (Or.inr hcomplete)

/-- Once the schema is complete nothing changes it any more, and a process that starts then never
fails. -/
theorem complete_schema_is_safe (programs : ι → Program) (actions later : List (Action ι)) (i : ι)
    (hcomplete : (Startups.after programs actions).catalog.Complete)
    (hstart : (Startups.after programs actions).phases i = (programs i).start) :
    (Startups.after programs (actions ++ later)).catalog =
        (Startups.after programs actions).catalog ∧
      (Startups.after programs (actions ++ later)).phases i ≠ .failed := by
  have h := sound_after programs actions
  rw [Startups.after, List.foldl_append, ← Startups.after]
  generalize Startups.after programs actions = σ at h hcomplete hstart ⊢
  have hlater := run_invariant programs
    (fun τ => Sound programs τ ∧ τ.catalog = σ.catalog ∧ (τ.phases i).Quiet)
    ?_ ?_ ⟨h, rfl, hstart ▸ quiet_start _⟩ later
  · refine ⟨hlater.2.1, fun hfailed => ?_⟩
    have hquiet := hlater.2.2
    rw [hfailed] at hquiet
    exact hquiet
  · intro τ j catalog phase ⟨hsound, hcatalog, hquiet⟩ hl
    have hc : τ.catalog.Complete := hcatalog ▸ hcomplete
    refine ⟨hl.sound hsound, (hl.catalog_eq hsound hc).trans hcatalog, ?_⟩
    by_cases hj : i = j
    · subst hj
      simpa only [Function.update_self] using hl.quiet hc hquiet
    · simpa only [Function.update_of_ne hj] using hquiet
  · intro τ j ⟨hsound, hcatalog, hquiet⟩
    refine ⟨hsound.restart, hcatalog, ?_⟩
    by_cases hj : i = j
    · subst hj
      simpa only [Function.update_self] using quiet_start (programs i)
    · simpa only [Function.update_of_ne hj] using hquiet

/-- A script that starts when a backend has created the schema. -/
theorem complete_schema_is_safe_script :
    (Startups.after (cond · .backend .script)
        (List.replicate 28 (.advance true) ++ List.replicate 11 (.advance false))).catalog =
      (Startups.after (cond · .backend .script) (List.replicate 28 (.advance true))).catalog ∧
    (Startups.after (cond · .backend .script)
        (List.replicate 28 (.advance true) ++ List.replicate 11 (.advance false))).phases false ≠
      .failed :=
  complete_schema_is_safe _ _ _ false (by decide +kernel) (by decide +kernel)

end Runs

end VsphereCompliance.Seeding.Schema
