import Mathlib.Data.Fintype.Basic
import Mathlib.Logic.Function.Basic
import Mathlib.Tactic.Common

/-!
# Processes that create one schema

`init_db` creates the enumeration types in one transaction (`create_enums`) and, if there is no
table `users` yet, all tables in another (`create_all`). The backends call it at start-up; the
two scripts call `create_all` alone, and so does the worker, which has not imported the models
by then, and reads its schedule from `app_settings` afterwards (`start_scheduler`). The queries and
the statements of all of them interleave (`Startups.advance`), and a process may be killed at any
time. A query sees what is committed when it runs. A statement that creates an object which
another transaction has created waits for that transaction, and it fails if the object is there by
then, or if a type of one of its columns is not. `Startups.Leads` lists what a step can do.
-/

namespace VsphereCompliance.Seeding.Schema

variable {ι : Type*}

/-! ## The objects -/

inductive EnumType
  | userrole
  | analysistype
  | analysisstatus
  deriving DecidableEq, Repr

/-- The list `enums`. -/
def enums : List EnumType := [.userrole, .analysistype, .analysisstatus]

inductive TableName
  | users
  | vcenterConnections
  | appSettings
  | patternConfigs
  | analysisRuns
  | analysisFindings
  | drsRuleHistory
  | storageMoveHistory
  | auditLogs
  deriving DecidableEq, Repr

/-- The tables, as the models define them. -/
def tables : List TableName :=
  [.users, .vcenterConnections, .appSettings, .patternConfigs, .analysisRuns, .analysisFindings,
    .drsRuleHistory, .storageMoveHistory, .auditLogs]

/-- The tables, those that others refer to first. -/
def sortedTables : List TableName :=
  [.users, .vcenterConnections, .appSettings, .patternConfigs, .analysisRuns, .auditLogs,
    .analysisFindings, .drsRuleHistory, .storageMoveHistory]

/-- The enumeration types of the columns; `create_all` does not create them. -/
def TableName.types : TableName → List EnumType
  | .users => [.userrole]
  | .analysisRuns => [.analysistype, .analysisstatus]
  | _ => []

/-- What is committed of the schema. -/
@[ext]
structure Catalog where
  types : List EnumType
  tables : List TableName
  deriving DecidableEq, Repr

def Catalog.Complete (s : Catalog) : Prop := s.types = enums ∧ s.tables = sortedTables

instance (s : Catalog) : Decidable s.Complete :=
  inferInstanceAs (Decidable (s.types = enums ∧ s.tables = sortedTables))

/-! ## The steps -/

/-- Where a process is: `todo` are the objects that it has still to query or create, `missing`
the tables that its queries did not find, `made` the objects that its transaction has created. -/
inductive Phase
  | checkingTypes (todo made : List EnumType)
  | creatingType (type : EnumType) (todo made : List EnumType)
  | checkingUsers
  | checkingTables (todo missing : List TableName)
  | creatingTables (todo made : List TableName)
  | readingSchedule
  | ended
  | failed
  deriving DecidableEq, Repr

/-- The types that the transaction of the process has created. -/
def Phase.heldTypes : Phase → List EnumType
  | .checkingTypes _ made => made
  | .creatingType _ _ made => made
  | _ => []

/-- The tables that the transaction of the process has created. -/
def Phase.heldTables : Phase → List TableName
  | .creatingTables _ made => made
  | _ => []

inductive Program
  | backend
  | script
  | worker
  deriving DecidableEq, Repr

/-- The tables that `Base.metadata` knows when `create_all` runs. The worker does not import the
models before `start_scheduler`. -/
def Program.tables : Program → List TableName
  | .worker => []
  | _ => Schema.tables

def Program.start : Program → Phase
  | .backend => .checkingTypes enums []
  | program => .checkingTables program.tables []

/-- Where the process goes on behind `create_all`. -/
def Program.next : Program → Phase
  | .worker => .readingSchedule
  | _ => .ended

/-- The catalog and the processes. -/
structure Startups (ι : Type*) where
  catalog : Catalog
  phases : ι → Phase

/-- An empty database, and all processes at their start. -/
def Startups.start (programs : ι → Program) : Startups ι :=
  ⟨⟨[], []⟩, fun i => (programs i).start⟩

section Steps

variable [Fintype ι] [DecidableEq ι]

def Startups.move (σ : Startups ι) (i : ι) (phase : Phase) : Startups ι :=
  { σ with phases := Function.update σ.phases i phase }

/-- Another transaction has created the type. -/
def Startups.TypeHeld (σ : Startups ι) (i : ι) (type : EnumType) : Prop :=
  ∃ j, j ≠ i ∧ type ∈ (σ.phases j).heldTypes

instance (σ : Startups ι) (i : ι) (type : EnumType) : Decidable (σ.TypeHeld i type) :=
  inferInstanceAs (Decidable (∃ j, j ≠ i ∧ type ∈ (σ.phases j).heldTypes))

/-- Another transaction has created the table. -/
def Startups.TableHeld (σ : Startups ι) (i : ι) (table : TableName) : Prop :=
  ∃ j, j ≠ i ∧ table ∈ (σ.phases j).heldTables

instance (σ : Startups ι) (i : ι) (table : TableName) : Decidable (σ.TableHeld i table) :=
  inferInstanceAs (Decidable (∃ j, j ≠ i ∧ table ∈ (σ.phases j).heldTables))

/-- PostgreSQL takes the `CREATE TABLE`. -/
def Catalog.Creatable (s : Catalog) (table : TableName) : Prop :=
  table ∉ s.tables ∧ ∀ type ∈ table.types, type ∈ s.types

instance (s : Catalog) (table : TableName) : Decidable (s.Creatable table) :=
  inferInstanceAs (Decidable (_ ∧ _))

/-- The next query, statement or commit of a process. One that has failed is started again. -/
def Startups.advance (programs : ι → Program) (σ : Startups ι) (i : ι) : Startups ι :=
  match σ.phases i with
  | .checkingTypes [] made =>
    { catalog := { σ.catalog with types := σ.catalog.types ++ made }
      phases := Function.update σ.phases i .checkingUsers }
  | .checkingTypes (type :: todo) made =>
    if type ∈ σ.catalog.types then σ.move i (.checkingTypes todo made)
    else σ.move i (.creatingType type todo made)
  | .creatingType type todo made =>
    if σ.TypeHeld i type then σ
    else if type ∈ σ.catalog.types then σ.move i .failed
    else σ.move i (.checkingTypes todo (made ++ [type]))
  | .checkingUsers =>
    if TableName.users ∈ σ.catalog.tables then σ.move i .ended
    else σ.move i (.checkingTables (programs i).tables [])
  | .checkingTables [] missing =>
    σ.move i (.creatingTables (sortedTables.filter (· ∈ missing)) [])
  | .checkingTables (table :: todo) missing =>
    σ.move i (.checkingTables todo
      (if table ∈ σ.catalog.tables then missing else missing ++ [table]))
  | .creatingTables [] made =>
    { catalog := { σ.catalog with tables := σ.catalog.tables ++ made }
      phases := Function.update σ.phases i (programs i).next }
  | .creatingTables (table :: todo) made =>
    if σ.TableHeld i table then σ
    else if σ.catalog.Creatable table then σ.move i (.creatingTables todo (made ++ [table]))
    else σ.move i .failed
  | .readingSchedule =>
    if TableName.appSettings ∈ σ.catalog.tables then σ.move i .ended else σ.move i .failed
  | .ended => σ
  | .failed => σ.move i (programs i).start

/-- A process takes a step, or is killed and started again; its transaction is rolled back. -/
inductive Action (ι : Type*)
  | advance (i : ι)
  | restart (i : ι)

def Startups.act (programs : ι → Program) (σ : Startups ι) : Action ι → Startups ι
  | .advance i => σ.advance programs i
  | .restart i => σ.move i (programs i).start

def Startups.after (programs : ι → Program) (actions : List (Action ι)) : Startups ι :=
  actions.foldl (Startups.act programs) (Startups.start programs)

/-- What a step of a process that goes on leaves: the catalog, and where the process is. -/
inductive Startups.Leads (programs : ι → Program) (σ : Startups ι) (i : ι) :
    Catalog → Phase → Prop
  | typesCommitted {made : List EnumType} : σ.phases i = .checkingTypes [] made →
      Leads programs σ i { σ.catalog with types := σ.catalog.types ++ made } .checkingUsers
  | typeFound {type : EnumType} {todo made : List EnumType} :
      σ.phases i = .checkingTypes (type :: todo) made → type ∈ σ.catalog.types →
      Leads programs σ i σ.catalog (.checkingTypes todo made)
  | typeMissing {type : EnumType} {todo made : List EnumType} :
      σ.phases i = .checkingTypes (type :: todo) made → type ∉ σ.catalog.types →
      Leads programs σ i σ.catalog (.creatingType type todo made)
  | typeCreated {type : EnumType} {todo made : List EnumType} :
      σ.phases i = .creatingType type todo made → ¬ σ.TypeHeld i type →
      type ∉ σ.catalog.types → Leads programs σ i σ.catalog (.checkingTypes todo (made ++ [type]))
  | usersFound : σ.phases i = .checkingUsers → TableName.users ∈ σ.catalog.tables →
      Leads programs σ i σ.catalog .ended
  | usersMissing : σ.phases i = .checkingUsers → TableName.users ∉ σ.catalog.tables →
      Leads programs σ i σ.catalog (.checkingTables (programs i).tables [])
  | tablesChecked {missing : List TableName} : σ.phases i = .checkingTables [] missing →
      Leads programs σ i σ.catalog (.creatingTables (sortedTables.filter (· ∈ missing)) [])
  | tableChecked {table : TableName} {todo missing : List TableName} :
      σ.phases i = .checkingTables (table :: todo) missing →
      Leads programs σ i σ.catalog (.checkingTables todo
        (if table ∈ σ.catalog.tables then missing else missing ++ [table]))
  | tablesCommitted {made : List TableName} : σ.phases i = .creatingTables [] made →
      Leads programs σ i { σ.catalog with tables := σ.catalog.tables ++ made } (programs i).next
  | tableCreated {table : TableName} {todo made : List TableName} :
      σ.phases i = .creatingTables (table :: todo) made → ¬ σ.TableHeld i table →
      σ.catalog.Creatable table →
      Leads programs σ i σ.catalog (.creatingTables todo (made ++ [table]))
  | scheduleRead : σ.phases i = .readingSchedule → TableName.appSettings ∈ σ.catalog.tables →
      Leads programs σ i σ.catalog .ended
  | scheduleMissing : σ.phases i = .readingSchedule → TableName.appSettings ∉ σ.catalog.tables →
      Leads programs σ i σ.catalog .failed
  | typeRejected {type : EnumType} {todo made : List EnumType} :
      σ.phases i = .creatingType type todo made → type ∈ σ.catalog.types →
      Leads programs σ i σ.catalog .failed
  | tableRejected {table : TableName} {todo made : List TableName} :
      σ.phases i = .creatingTables (table :: todo) made → ¬ σ.catalog.Creatable table →
      Leads programs σ i σ.catalog .failed
  | retried : σ.phases i = .failed → Leads programs σ i σ.catalog (programs i).start

/-- The process waits for another transaction. -/
inductive Startups.Waits (σ : Startups ι) (i : ι) : Prop
  | type {type : EnumType} {todo made : List EnumType} :
      σ.phases i = .creatingType type todo made → σ.TypeHeld i type → Waits σ i
  | table {table : TableName} {todo made : List TableName} :
      σ.phases i = .creatingTables (table :: todo) made → σ.TableHeld i table → Waits σ i

/-- **What a step can do.** The process is done, waits, or goes on. -/
theorem Startups.advance_cases (programs : ι → Program) (σ : Startups ι) (i : ι) :
    (σ.phases i = .ended ∧ σ.advance programs i = σ) ∨
      (σ.Waits i ∧ σ.advance programs i = σ) ∨
      ∃ catalog phase, σ.Leads programs i catalog phase ∧ phase ≠ σ.phases i ∧
        σ.advance programs i = ⟨catalog, Function.update σ.phases i phase⟩ := by
  unfold Startups.advance
  split
  · rename_i hphase
    exact Or.inr (Or.inr ⟨_, _, .typesCommitted hphase, by simp [hphase], rfl⟩)
  · rename_i hphase
    split
    · rename_i hfound
      exact Or.inr (Or.inr ⟨_, _, .typeFound hphase hfound, by simp [hphase], rfl⟩)
    · rename_i hmissing
      exact Or.inr (Or.inr ⟨_, _, .typeMissing hphase hmissing, by simp [hphase], rfl⟩)
  · rename_i hphase
    split
    · rename_i hheld
      exact Or.inr (Or.inl ⟨.type hphase hheld, rfl⟩)
    · rename_i hheld
      split
      · rename_i hthere
        exact Or.inr (Or.inr ⟨_, _, .typeRejected hphase hthere, by simp [hphase], rfl⟩)
      · rename_i hmissing
        exact Or.inr (Or.inr ⟨_, _, .typeCreated hphase hheld hmissing, by simp [hphase], rfl⟩)
  · rename_i hphase
    split
    · rename_i hfound
      exact Or.inr (Or.inr ⟨_, _, .usersFound hphase hfound, by simp [hphase], rfl⟩)
    · rename_i hmissing
      exact Or.inr (Or.inr ⟨_, _, .usersMissing hphase hmissing, by simp [hphase], rfl⟩)
  · rename_i hphase
    exact Or.inr (Or.inr ⟨_, _, .tablesChecked hphase, by simp [hphase], rfl⟩)
  · rename_i hphase
    exact Or.inr (Or.inr ⟨_, _, .tableChecked hphase, by simp [hphase], rfl⟩)
  · rename_i hphase
    refine Or.inr (Or.inr ⟨_, _, .tablesCommitted hphase, ?_, rfl⟩)
    rw [hphase]
    cases programs i <;> simp [Program.next]
  · rename_i hphase
    split
    · rename_i hheld
      exact Or.inr (Or.inl ⟨.table hphase hheld, rfl⟩)
    · rename_i hheld
      split
      · rename_i hcreatable
        exact Or.inr (Or.inr ⟨_, _, .tableCreated hphase hheld hcreatable, by simp [hphase], rfl⟩)
      · rename_i hcreatable
        exact Or.inr (Or.inr ⟨_, _, .tableRejected hphase hcreatable, by simp [hphase], rfl⟩)
  · rename_i hphase
    split
    · rename_i hthere
      exact Or.inr (Or.inr ⟨_, _, .scheduleRead hphase hthere, by simp [hphase], rfl⟩)
    · rename_i hmissing
      exact Or.inr (Or.inr ⟨_, _, .scheduleMissing hphase hmissing, by simp [hphase], rfl⟩)
  · rename_i hphase
    exact Or.inl ⟨hphase, rfl⟩
  · rename_i hphase
    refine Or.inr (Or.inr ⟨_, _, .retried hphase, ?_, rfl⟩)
    rw [hphase]
    cases programs i <;> simp [Program.start]

end Steps

end VsphereCompliance.Seeding.Schema
