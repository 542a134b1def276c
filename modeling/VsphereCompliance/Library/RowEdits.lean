import Mathlib.Data.List.Basic
import VsphereCompliance.Library.Runs

/-!
# Edits of rows by overlapping sessions

A session loads a row, assigns some of its columns and commits. What it commits are the columns
whose assigned value is not the one it loaded (`merge`), so other sessions may have changed the
rest in between. `Step` interleaves the loads and commits of any number of sessions with what
else happens to the table, which neither changes a row nor gives a key to another one.

However they interleave, a column holds what it held at first, if no committed edit gives it a
value, and otherwise a value that one of them gives it (`Column.held_of_run`).
-/

namespace RowEdits

/-! ## One column -/

/-- A column after the commit of a session that loaded and assigned these values. -/
def merge {β : Type*} [DecidableEq β] (loaded assigned current : β) : β :=
  if assigned = loaded then current else assigned

section Merge

variable {β : Type*} [DecidableEq β] {loaded assigned current : β}

@[simp] theorem merge_loaded : merge loaded loaded current = current := if_pos rfl

/-- With no commit in between the column takes the assigned value. -/
@[simp] theorem merge_current : merge current assigned current = assigned := by
  unfold merge
  split
  · symm
    assumption
  · rfl

/-- Only an assignment of the loaded value has no effect. -/
theorem merge_cases (loaded assigned current : β) :
    assigned = loaded ∧ merge loaded assigned current = current ∨
      merge loaded assigned current = assigned := by
  unfold merge
  split
  · exact Or.inl ⟨‹_›, rfl⟩
  · exact Or.inr rfl

end Merge

/-! ## The sessions -/

/-- A table with rows `ρ` in the store `σ`, and the edits `ε` of a row. -/
structure Editing (σ ρ ε : Type*) where
  find? : σ → Nat → Option ρ
  /-- The next key of the table. -/
  next : σ → Nat
  /-- The commit of a session that loaded and assigned these rows; none if it raises. -/
  write : σ → Nat → ρ → ρ → Option σ
  /-- What a session assigns to the row that it has loaded. -/
  assign : ε → ρ → ρ
  /-- The row after a commit, from the loaded row, the assigned one and the current one. -/
  mergeRow : ρ → ρ → ρ → ρ
  /-- What else happens to the table. -/
  other : σ → σ → Prop
  lt_next : ∀ {s k r}, find? s k = some r → k < next s
  find?_write : ∀ {s s' n l a}, write s n l a = some s' →
    ∀ k, find? s' k = if k = n then (find? s k).map (mergeRow l a) else find? s k
  next_write : ∀ {s s' n l a}, write s n l a = some s' → next s' = next s
  find?_other : ∀ {s s'}, other s s' →
    ∀ {k r}, k < next s → find? s' k = some r → find? s k = some r
  next_other : ∀ {s s'}, other s s' → next s ≤ next s'

variable {σ ρ ε : Type*}

/-- A session between its query and its commit. -/
structure Session (ρ ε : Type*) where
  key : Nat
  edit : ε
  loaded : ρ

/-- The store, the sessions under way and the edits that were committed. -/
structure State (σ ρ ε : Type*) where
  store : σ
  sessions : List (Session ρ ε)
  committed : List (Nat × ε)

inductive Event (σ ε : Type*)
  | load (key : Nat) (edit : ε)
  | commit (i : Nat)
  /-- The commit of the session raises, or the session ends without one. -/
  | abandon (i : Nat)
  | other (store : σ)

inductive Step (T : Editing σ ρ ε) : State σ ρ ε → Event σ ε → State σ ρ ε → Prop
  | load {s : State σ ρ ε} {key : Nat} {edit : ε} {r : ρ} (hr : T.find? s.store key = some r) :
      Step T s (.load key edit) { s with sessions := s.sessions ++ [⟨key, edit, r⟩] }
  | commit {s : State σ ρ ε} {i : Nat} {x : Session ρ ε} {store : σ}
      (hx : s.sessions[i]? = some x)
      (hwrite : T.write s.store x.key x.loaded (T.assign x.edit x.loaded) = some store) :
      Step T s (.commit i) ⟨store, s.sessions.eraseIdx i, (x.key, x.edit) :: s.committed⟩
  | abandon {s : State σ ρ ε} {i : Nat} (hi : i < s.sessions.length) :
      Step T s (.abandon i) { s with sessions := s.sessions.eraseIdx i }
  | other {s : State σ ρ ε} {store : σ} (hother : T.other s.store store) :
      Step T s (.other store) { s with store }

def State.start (store : σ) : State σ ρ ε := ⟨store, [], []⟩

/-- A column of the rows, and the value that an edit gives it, if any. -/
structure Column (T : Editing σ ρ ε) (β : Type*) [DecidableEq β] where
  get : ρ → β
  given : ε → Option β
  get_assign : ∀ e r, get (T.assign e r) = (given e).getD (get r)
  get_merge : ∀ loaded assigned current, get (T.mergeRow loaded assigned current) =
    merge (get loaded) (get assigned) (get current)

/-- The column of the row `r`, which was `r₀`, is explained by the committed edits of the key. -/
def Held {β : Type*} (get : ρ → β) (given : ε → Option β) (committed : List (Nat × ε))
    (key : Nat) (r₀ r : ρ) : Prop :=
  ((∀ e, (key, e) ∈ committed → given e = none) ∧ get r = get r₀) ∨
    ∃ e, (key, e) ∈ committed ∧ given e = some (get r)

/-! ## What a column holds -/

section Column

variable {T : Editing σ ρ ε} {β : Type*} [DecidableEq β] {C : Column T β} {s t : State σ ρ ε}
  {key : Nat} {r₀ : ρ}

/-- The value that a session leaves in the column. -/
theorem Column.get_mergeRow (C : Column T β) (e : ε) (loaded current : ρ) :
    C.get (T.mergeRow loaded (T.assign e loaded) current) =
      merge (C.get loaded) ((C.given e).getD (C.get loaded)) (C.get current) := by
  rw [C.get_merge, C.get_assign]

/-- The row is explained, and as long as no edit gave the column a value, every session has
loaded the first one. -/
structure Explained (C : Column T β) (key : Nat) (r₀ : ρ) (s : State σ ρ ε) : Prop where
  drawn : key < T.next s.store
  held : ∀ r, T.find? s.store key = some r → Held C.get C.given s.committed key r₀ r
  loaded : (∀ e, (key, e) ∈ s.committed → C.given e = none) →
    ∀ x ∈ s.sessions, x.key = key → C.get x.loaded = C.get r₀

theorem Explained.load {k : Nat} {e : ε} {r : ρ} (h : Explained C key r₀ s)
    (hr : T.find? s.store k = some r) :
    Explained C key r₀ { s with sessions := s.sessions ++ [⟨k, e, r⟩] } := by
  refine ⟨h.drawn, h.held, ?_⟩
  intro hnone x hx hkey
  rcases List.mem_append.mp hx with hx | hx
  · exact h.loaded hnone x hx hkey
  · obtain rfl := List.mem_singleton.mp hx
    obtain rfl : k = key := hkey
    rcases h.held r hr with ⟨_, hget⟩ | ⟨e', hmem, hgiven⟩
    · exact hget
    · rw [hnone e' hmem] at hgiven
      cases hgiven

/-- A commit of an edit of the row. -/
theorem Held.commit {e : ε} {loaded current : ρ} {committed : List (Nat × ε)}
    (h : Held C.get C.given committed key r₀ current)
    (hloaded : (∀ e, (key, e) ∈ committed → C.given e = none) → C.get loaded = C.get r₀) :
    Held C.get C.given ((key, e) :: committed) key r₀
      (T.mergeRow loaded (T.assign e loaded) current) := by
  unfold Held
  rw [C.get_mergeRow]
  cases hgiven : C.given e with
  | none =>
    rw [Option.getD_none, merge_loaded]
    rcases h with ⟨hnone, hget⟩ | ⟨e', hmem, hgiven'⟩
    · refine Or.inl ⟨?_, hget⟩
      intro e' hmem
      rcases List.mem_cons.mp hmem with heq | hmem
      · cases heq
        exact hgiven
      · exact hnone e' hmem
    · exact Or.inr ⟨e', List.mem_cons_of_mem _ hmem, hgiven'⟩
  | some v =>
    rw [Option.getD_some]
    right
    rcases merge_cases (C.get loaded) v (C.get current) with ⟨heq, hmerge⟩ | hmerge
    · rw [hmerge]
      -- the session assigned what it loaded, and the column keeps its value
      rcases h with ⟨hnone, hget⟩ | ⟨e', hmem, hgiven'⟩
      · refine ⟨e, List.mem_cons_self, ?_⟩
        rw [hgiven, heq, hloaded hnone, hget]
      · exact ⟨e', List.mem_cons_of_mem _ hmem, hgiven'⟩
    · rw [hmerge]
      exact ⟨e, List.mem_cons_self, hgiven⟩

/-- A commit of an edit of another row. -/
theorem Held.of_ne {e : ε} {k : Nat} {r : ρ} {committed : List (Nat × ε)} (hk : key ≠ k)
    (h : Held C.get C.given committed key r₀ r) :
    Held C.get C.given ((k, e) :: committed) key r₀ r := by
  have hmem : ∀ e', (key, e') ∈ (k, e) :: committed ↔ (key, e') ∈ committed := by
    intro e'
    rw [List.mem_cons, Prod.mk.injEq]
    simp [hk]
  unfold Held at h ⊢
  simpa only [hmem] using h

theorem Explained.commit {x : Session ρ ε} {i : Nat} {store : σ} (h : Explained C key r₀ s)
    (hx : s.sessions[i]? = some x)
    (hwrite : T.write s.store x.key x.loaded (T.assign x.edit x.loaded) = some store) :
    Explained C key r₀ ⟨store, s.sessions.eraseIdx i, (x.key, x.edit) :: s.committed⟩ := by
  have hmem : x ∈ s.sessions := List.mem_of_getElem? hx
  refine ⟨?_, ?_, ?_⟩
  · show key < T.next store
    rw [T.next_write hwrite]
    exact h.drawn
  · intro r hr
    rw [T.find?_write hwrite key] at hr
    split at hr
    · rename_i hkey
      obtain ⟨current, hcurrent, rfl⟩ := Option.map_eq_some_iff.mp hr
      rw [← hkey]
      exact (h.held current hcurrent).commit fun hnone => h.loaded hnone x hmem hkey.symm
    · rename_i hkey
      exact (h.held r hr).of_ne hkey
  · intro hnone y hy hkey
    exact h.loaded (fun e he => hnone e (List.mem_cons_of_mem _ he)) y
      (List.mem_of_mem_eraseIdx hy) hkey

theorem Explained.step {event : Event σ ε} (h : Explained C key r₀ s) (hstep : Step T s event t) :
    Explained C key r₀ t := by
  cases hstep with
  | load hr => exact h.load hr
  | commit hx hwrite => exact h.commit hx hwrite
  | abandon hi =>
    refine ⟨h.drawn, h.held, ?_⟩
    intro hnone x hx hkey
    exact h.loaded hnone x (List.mem_of_mem_eraseIdx hx) hkey
  | other hother =>
    refine ⟨Nat.lt_of_lt_of_le h.drawn (T.next_other hother), ?_, h.loaded⟩
    intro r hr
    exact h.held r (T.find?_other hother h.drawn hr)

/-- **A column holds what the committed edits explain**, in whatever order the sessions load and
commit. -/
theorem Column.held_of_run (C : Column T β) {store : σ} {r : ρ} {events : List (Event σ ε)}
    (h : Runs.Run (Step T) (State.start store) events t) (hr₀ : T.find? store key = some r₀)
    (hr : T.find? t.store key = some r) : Held C.get C.given t.committed key r₀ r := by
  have hstart : Explained C key r₀ (State.start store) := by
    refine ⟨T.lt_next hr₀, ?_, fun _ x hx => absurd hx List.not_mem_nil⟩
    intro r' hr'
    rw [State.start, hr₀] at hr'
    cases hr'
    exact Or.inl ⟨fun e he => absurd he List.not_mem_nil, rfl⟩
  exact (h.invariant (fun _ _ _ hinv hstep => hinv.step hstep) hstart).held r hr

/-- A row that nothing else deletes stays. -/
theorem find?_isSome_of_run
    (hother : ∀ store store' k, T.other store store' → (T.find? store k).isSome →
      (T.find? store' k).isSome)
    {events : List (Event σ ε)} (h : Runs.Run (Step T) s events t) {k : Nat}
    (hsome : (T.find? s.store k).isSome) : (T.find? t.store k).isSome := by
  refine h.invariant (I := fun s => (T.find? s.store k).isSome) ?_ hsome
  intro s event u hs hstep
  cases hstep with
  | load _ => exact hs
  | commit _ hwrite =>
    show (T.find? _ k).isSome
    rw [T.find?_write hwrite k]
    split
    · rw [Option.isSome_map]
      exact hs
    · exact hs
  | abandon _ => exact hs
  | other hstep => exact hother _ _ k hstep hs

end Column

/-- A column that no edit gives a value. -/
theorem Held.get_eq_first {β : Type*} {get : ρ → β} {given : ε → Option β}
    {committed : List (Nat × ε)} {key : Nat} {r₀ r : ρ}
    (h : Held get given committed key r₀ r) (hnone : ∀ e, given e = none) : get r = get r₀ := by
  rcases h with ⟨_, hget⟩ | ⟨e, _, hgiven⟩
  · exact hget
  · rw [hnone e] at hgiven
    cases hgiven

/-- An edit that no other one contradicts is in the row. -/
theorem Held.get_eq {β : Type*} {get : ρ → β} {given : ε → Option β}
    {committed : List (Nat × ε)} {key : Nat} {r₀ r : ρ}
    (h : Held get given committed key r₀ r) {e : ε} (he : (key, e) ∈ committed) {v : β}
    (hv : given e = some v)
    (hothers : ∀ e', (key, e') ∈ committed → ∀ w ∈ given e', w = v) : get r = v := by
  rcases h with ⟨hnone, _⟩ | ⟨e', hmem, hgiven⟩
  · rw [hnone e he] at hv
    cases hv
  · exact hothers e' hmem _ hgiven

/-! ## One session alone -/

/-- The session loads and commits with nothing in between. -/
theorem run_alone {T : Editing σ ρ ε} {s : State σ ρ ε} (hidle : s.sessions = []) {key : Nat}
    {edit : ε} {r : ρ} {store : σ} (hr : T.find? s.store key = some r)
    (hwrite : T.write s.store key r (T.assign edit r) = some store) :
    Runs.Run (Step T) s [.load key edit, .commit 0]
      ⟨store, [], (key, edit) :: s.committed⟩ := by
  refine .cons (.load hr) (.single ?_)
  have hsessions : s.sessions ++ [⟨key, edit, r⟩] = [⟨key, edit, r⟩] := by rw [hidle]; rfl
  rw [hsessions]
  exact .commit (x := ⟨key, edit, r⟩) rfl hwrite

end RowEdits
