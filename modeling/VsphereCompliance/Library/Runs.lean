import Mathlib.Tactic.Common

/-!
# Runs of a labelled step relation

`Run step s ls t`: the steps labelled `ls`, in this order, lead from `s` to `t`. An
invariant that every step keeps holds at the end of every run (`Run.invariant`).
`Guarded ok step` is the step relation restricted to the steps whose label and state before
the step satisfy `ok`: its runs are the runs of `step` all of whose steps do, so
`Run.invariant` for it is the rule for invariants that only such runs keep.

`Throughout handle P s ls` is for steps that a function takes: every step of the run from `s`
has the property `P`. A rank bounds how often a label occurs (`Throughout.count_add_le`).
`Repeats handle l s t`: steps labelled `l` alone lead from `s` to `t`.
-/

namespace Runs

variable {σ ℓ : Type*}

/-- The steps with the labels of the list, one after the other. -/
inductive Run (step : σ → ℓ → σ → Prop) : σ → List ℓ → σ → Prop
  | nil (s : σ) : Run step s [] s
  | cons {s t u : σ} {l : ℓ} {ls : List ℓ} :
      step s l t → Run step t ls u → Run step s (l :: ls) u

variable {step : σ → ℓ → σ → Prop}

theorem Run.invariant {I : σ → Prop} (hstep : ∀ s l t, I s → step s l t → I t)
    {s t : σ} {ls : List ℓ} (h : Run step s ls t) (hs : I s) : I t := by
  induction h with
  | nil => exact hs
  | cons hst _ ih => exact ih (hstep _ _ _ hs hst)

theorem Run.append {s t u : σ} {ls ls' : List ℓ} (h : Run step s ls t) (h' : Run step t ls' u) :
    Run step s (ls ++ ls') u := by
  induction h with
  | nil => exact h'
  | cons hst _ ih => exact Run.cons hst (ih h')

theorem Run.single {s t : σ} {l : ℓ} (h : step s l t) : Run step s [l] t := Run.cons h (Run.nil t)

/-- The steps that start in a state where `ok` admits their label. -/
def Guarded (ok : σ → ℓ → Prop) (step : σ → ℓ → σ → Prop) (s : σ) (l : ℓ) (t : σ) : Prop :=
  ok s l ∧ step s l t

/-! ## Steps taken by a function -/

section Function

variable (handle : σ → ℓ → σ)

/-- Each step has the property, in the state it is taken in. -/
def Throughout (P : σ → ℓ → Prop) : σ → List ℓ → Prop
  | _, [] => True
  | s, l :: ls => P s l ∧ Throughout P (handle s l) ls

variable {handle} {P Q : σ → ℓ → Prop}

instance Throughout.decidable [∀ s l, Decidable (P s l)] :
    ∀ s ls, Decidable (Throughout handle P s ls)
  | _, [] => inferInstanceAs (Decidable True)
  | s, l :: ls =>
    have := Throughout.decidable (handle s l) ls
    inferInstanceAs (Decidable (P s l ∧ Throughout handle P (handle s l) ls))

theorem Throughout.imp (h : ∀ s l, P s l → Q s l) {s : σ} {ls : List ℓ}
    (hls : Throughout handle P s ls) : Throughout handle Q s ls := by
  induction ls generalizing s with
  | nil => trivial
  | cons l ls ih => exact ⟨h s l hls.1, ih hls.2⟩

theorem throughout_append {s : σ} (ls ls' : List ℓ) : Throughout handle P s (ls ++ ls') ↔
    Throughout handle P s ls ∧ Throughout handle P (ls.foldl handle s) ls' := by
  induction ls generalizing s with
  | nil => exact (iff_of_eq (true_and _)).symm
  | cons l ls ih => exact (and_congr_right fun _ => ih).trans and_assoc.symm

/-- What the steps with the property keep holds at the end. -/
theorem Throughout.invariant {I : σ → Prop} (hstep : ∀ s l, I s → P s l → I (handle s l)) {s : σ}
    {ls : List ℓ} (hs : I s) (h : Throughout handle P s ls) : I (ls.foldl handle s) := by
  induction ls generalizing s with
  | nil => exact hs
  | cons l ls ih => exact ih (hstep s l hs h.1) h.2

/-- A rank that its own steps lower and no other step raises bounds the steps with one label. -/
theorem Throughout.count_add_le [DecidableEq ℓ] {I : σ → Prop} {l : ℓ} (rank : σ → Nat)
    (hstep : ∀ s l', I s → P s l' → I (handle s l'))
    (hown : ∀ s, I s → P s l → rank (handle s l) < rank s)
    (hother : ∀ s l', l' ≠ l → I s → P s l' → rank (handle s l') ≤ rank s) {s : σ} {ls : List ℓ}
    (hs : I s) (h : Throughout handle P s ls) :
    ls.count l + rank (ls.foldl handle s) ≤ rank s := by
  induction ls generalizing s with
  | nil => simp
  | cons l' ls ih =>
    have hrest := ih (hstep s l' hs h.1) h.2
    rw [List.foldl_cons]
    by_cases hl : l' = l
    · subst hl
      have hlt := hown s hs h.1
      rw [List.count_cons_self]
      omega
    · have hle := hother s l' hl hs h.1
      rw [List.count_cons_of_ne hl]
      omega

/-- Under an invariant, properties that are equivalent for a step are so for a run. -/
theorem Throughout.congr {I : σ → Prop} (hstep : ∀ s l, I s → I (handle s l))
    (h : ∀ s l, I s → (P s l ↔ Q s l)) {s : σ} (hs : I s) (ls : List ℓ) :
    Throughout handle P s ls ↔ Throughout handle Q s ls := by
  induction ls generalizing s with
  | nil => exact Iff.rfl
  | cons l ls ih => exact and_congr (h s l hs) (ih (hstep s l hs))

/-- A number of steps with the one label. -/
def Repeats (handle : σ → ℓ → σ) (l : ℓ) (s t : σ) : Prop :=
  ∃ n, (List.replicate n l).foldl handle s = t

theorem Repeats.refl (handle : σ → ℓ → σ) (l : ℓ) (s : σ) : Repeats handle l s s := ⟨0, rfl⟩

theorem Repeats.of_step {l : ℓ} {s t u : σ} (h : Repeats handle l t u) (hstep : handle s l = t) :
    Repeats handle l s u := by
  obtain ⟨n, hn⟩ := h
  exact ⟨n + 1, by rw [List.replicate_succ, List.foldl_cons, hstep, hn]⟩

end Function

end Runs
