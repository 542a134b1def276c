import VsphereCompliance.Seeding.Processes

/-!
# The admin of concurrent processes

However the processes interleave, the table of users has at most one row, an admin that one of
them has inserted. The others find it, or wait at their own insert and end with its error. The
row is there as soon as a process is past its step for the admin (`OneAdmin.leads`).
-/

namespace VsphereCompliance.Seeding

open Store Accounts Settings

variable {c : Cipher} {ι : Type*}

/-- The process has got past its step for the admin, or has ended. -/
def SeedPhase.PastAdmin : SeedPhase → Prop
  | .checkingAdmin => False
  | .insertingAdmin => False
  | .committingAdmin => False
  | .checkingPatterns _ _ => True
  | .checkingSettings _ _ _ => True
  | .flushing _ _ _ => True
  | .ended => True

/-- There is at most one admin, and it is there as soon as a process is past its step. -/
structure OneAdmin (d : Deployment ι) (users : Users) (phases : ι → SeedPhase) : Prop where
  row : users.rows = [] ∨ ∃ i u, users.rows = [u] ∧ u.toNewUser = d.admin i
  alone : ∀ i, phases i = .committingAdmin →
    users.rows = [] ∧ ∀ j, phases j = .committingAdmin → j = i
  past : ∀ i, (phases i).PastAdmin → users.rows ≠ []

section Admin

variable {d : Deployment ι} {users : Users} {phases : ι → SeedPhase}

theorem oneAdmin_start (d : Deployment ι) :
    OneAdmin d (Startups.start c ι).store.users (Startups.start c ι).phases where
  row := Or.inl rfl
  alone := by
    intro i h
    cases h
  past := fun _ h => h.elim

/-- An empty table takes the admin. -/
theorem exists_insert_admin (hfits : ∀ i, TextsFit (d.admin i).texts) (h : users.rows = [])
    (i : ι) : ∃ users', users.insert (d.admin i) = some users' := by
  rw [Users.insert_isSome_iff]
  refine ⟨?_, ?_, hfits i⟩
  · intro v hv
    rw [h] at hv
    cases hv
  · intro _ _ v hv
    rw [h] at hv
    cases hv

/-- It takes one only. -/
theorem OneAdmin.rows_of_insert (h : OneAdmin d users phases) {i : ι} {users' : Users}
    (hinsert : users.insert (d.admin i) = some users') : users.rows = [] := by
  obtain hnil | ⟨j, u, hrows, hu⟩ := h.row
  · exact hnil
  · have hroom := (Users.insert_isSome_iff.mp ⟨users', hinsert⟩).1 u
      (by rw [hrows]; exact List.mem_singleton_self u)
    have hname : u.username = (d.admin j).username := congrArg NewUser.username hu
    exact absurd hname hroom

variable [DecidableEq ι]

/-- A process that takes a step other than an insert. -/
theorem OneAdmin.update (h : OneAdmin d users phases) (i : ι) {phase : SeedPhase}
    (hne : phase ≠ .committingAdmin) (hpast : phase.PastAdmin → users.rows ≠ []) :
    OneAdmin d users (Function.update phases i phase) where
  row := h.row
  alone := by
    have hold : ∀ j, Function.update phases i phase j = .committingAdmin →
        phases j = .committingAdmin :=
      (Function.forall_update_iff phases fun j new =>
        new = .committingAdmin → phases j = .committingAdmin).mpr
          ⟨fun hcommit => absurd hcommit hne, fun _ _ => id⟩
    intro j hj
    obtain ⟨hrows, hall⟩ := h.alone j (hold j hj)
    exact ⟨hrows, fun k hk => hall k (hold k hk)⟩
  past := (Function.forall_update_iff phases fun _ new => new.PastAdmin → users.rows ≠ []).mpr
    ⟨hpast, fun j _ => h.past j⟩

/-- A process that inserts the admin, when nobody else has. -/
theorem OneAdmin.insert (h : OneAdmin d users phases) {i : ι} (hnil : users.rows = [])
    (halone : ∀ j, j ≠ i → phases j ≠ .committingAdmin) :
    OneAdmin d users (Function.update phases i .committingAdmin) where
  row := Or.inl hnil
  alone := by
    have honly : ∀ j, Function.update phases i .committingAdmin j = .committingAdmin → j = i := by
      intro j hj
      by_contra hji
      rw [Function.update_of_ne hji] at hj
      exact halone j hji hj
    intro j hj
    exact ⟨hnil, fun k hk => (honly k hk).trans (honly j hj).symm⟩
  past := (Function.forall_update_iff phases fun _ new => new.PastAdmin → users.rows ≠ []).mpr
    ⟨False.elim, fun j _ => h.past j⟩

/-- A process that commits the admin. -/
theorem OneAdmin.commit (h : OneAdmin d users phases) {i : ι} {users' : Users}
    (hphase : phases i = .committingAdmin) (hinsert : users.insert (d.admin i) = some users') :
    OneAdmin d users' (Function.update phases i (.checkingPatterns defaultPatterns [])) := by
  obtain ⟨hnil, hall⟩ := h.alone i hphase
  have hrows := Users.rows_of_insert hinsert
  rw [hnil, List.nil_append] at hrows
  refine ⟨Or.inr ⟨i, _, hrows, rfl⟩, ?_, ?_⟩
  · intro j hj
    by_cases hji : j = i
    · subst hji
      rw [Function.update_self] at hj
      cases hj
    · rw [Function.update_of_ne hji] at hj
      exact absurd (hall j hj) hji
  · intro _ _
    rw [hrows]
    exact List.cons_ne_nil _ _

variable {σ : Startups c ι}

theorem OneAdmin.leads (hfits : ∀ i, TextsFit (d.admin i).texts)
    (h : OneAdmin d σ.store.users σ.phases) {i : ι} {store : SeedStore c} {phase : SeedPhase}
    (hleads : σ.Leads d i store phase) :
    OneAdmin d store.users (Function.update σ.phases i phase) := by
  have hbehind : ∀ {old new : SeedPhase}, σ.phases i = old → old.PastAdmin →
      new ≠ .committingAdmin → OneAdmin d σ.store.users (Function.update σ.phases i new) :=
    fun hphase hold hne => h.update i hne fun _ => h.past i (hphase ▸ hold)
  cases hleads with
  | adminFound hphase hnamed =>
    refine h.update i (by simp) fun _ => ?_
    exact List.ne_nil_of_mem (Users.named_eq_some_iff.mp hnamed).1
  | adminMissing hphase => exact h.update i (by simp) fun hp => hp.elim
  | adminInserted hphase hheld hinsert =>
    exact h.insert (h.rows_of_insert hinsert) fun j hj hcommit => hheld ⟨j, hj, hcommit⟩
  | adminRejected hphase hnone =>
    refine h.update i (by simp) fun _ hnil => ?_
    obtain ⟨_, hinsert⟩ := exists_insert_admin hfits hnil i
    rw [hnone] at hinsert
    cases hinsert
  | adminCommitted hphase hinsert => exact h.commit hphase hinsert
  | patternsChecked hphase => exact hbehind hphase trivial (by simp)
  | patternChecked hphase => exact hbehind hphase trivial (by simp)
  | settingsChecked hphase => exact hbehind hphase trivial (by simp)
  | settingChecked hphase => exact hbehind hphase trivial (by simp)
  | settingRejected hphase _ => exact hbehind hphase trivial (by simp)
  | settingInserted hphase _ _ => exact hbehind hphase trivial (by simp)
  | committed hphase _ => exact hbehind hphase trivial (by simp)
  | commitRejected hphase _ => exact hbehind hphase trivial (by simp)

end Admin

end VsphereCompliance.Seeding
