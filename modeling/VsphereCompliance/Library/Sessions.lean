import Mathlib.Tactic.Common

/-!
# Programs that open and close sessions

A program that may raise, over the sessions it has opened and closed; they are numbered in the
order in which they are opened. `ClosesAll x s` says that at the end of `x`, however it ends,
every session that it opened is closed. Programs that leave older sessions alone (`Orderly`)
compose: a sequence closes all of its sessions if each of its parts that runs does
(`closesAll_bind_iff`), and a loop if each pass that it comes to does (`closesAll_forM_iff`).
Opening a session, using it and closing it, with nothing that catches an exception in between,
closes it exactly when the uses return (`closesAll_openUseClose_iff`).
-/

namespace Sessions

/-- The sessions in the order in which they were opened, each with whether it is closed. -/
abbrev State : Type := List Bool

abbrev Tracked (ε α : Type) : Type := ExceptT ε (StateM State) α

variable {ε α β : Type}

/-- How the program ends, and the sessions after it. -/
def exec (x : Tracked ε α) (s : State) : Except ε α × State := x.run s

/-! ## The programs -/

/-- A step that opens and closes nothing. -/
def step (r : Except ε α) : Tracked ε α := ExceptT.mk (pure r)

def openSession : Tracked ε Nat := do
  let s ← get
  set (s ++ [false])
  return s.length

def closeSession (id : Nat) : Tracked ε Unit := modify fun s => s.set id true

/-- Connect, use the connection and disconnect. -/
def openUseClose (connect : Except ε β) (use : β → Except ε α) : Tracked ε α := do
  let conn ← step connect
  let session ← openSession
  let a ← step (use conn)
  closeSession session
  return a

@[simp] theorem exec_pure (a : α) (s : State) : exec (pure a : Tracked ε α) s = (.ok a, s) := rfl

@[simp] theorem exec_step (r : Except ε α) (s : State) : exec (step r) s = (r, s) := rfl

@[simp] theorem exec_openSession (s : State) :
    exec (openSession : Tracked ε Nat) s = (.ok s.length, s ++ [false]) := rfl

@[simp] theorem exec_closeSession (id : Nat) (s : State) :
    exec (closeSession id : Tracked ε Unit) s = (.ok (), s.set id true) := rfl

theorem exec_bind (x : Tracked ε α) (f : α → Tracked ε β) (s : State) :
    exec (x >>= f) s = match exec x s with
      | (.ok a, t) => exec (f a) t
      | (.error e, t) => (.error e, t) := by
  show (match x.run s with | (r, t) => ExceptT.bindCont f r t) = _
  unfold exec
  rcases x.run s with ⟨r, t⟩
  cases r with
  | ok a => rfl
  | error e => rfl

theorem exec_tryCatch (x : Tracked ε α) (handler : ε → Tracked ε α) (s : State) :
    exec (tryCatch x handler) s = match exec x s with
      | (.ok a, t) => (.ok a, t)
      | (.error e, t) => exec (handler e) t := by
  show (match x.run s with
    | (r, t) => (match r with
      | .ok a => pure (.ok a)
      | .error e => handler e : StateM State (Except ε α)) t) = _
  unfold exec
  rcases x.run s with ⟨r, t⟩
  cases r with
  | ok a => rfl
  | error e => rfl

/-- The session stays open if a use raises. -/
theorem exec_openUseClose (connect : Except ε β) (use : β → Except ε α) (s : State) :
    exec (openUseClose connect use) s = match connect with
      | .error e => (.error e, s)
      | .ok conn => match use conn with
        | .error e => (.error e, s ++ [false])
        | .ok a => (.ok a, s ++ [true]) := by
  unfold openUseClose
  cases connect with
  | error e => rfl
  | ok conn =>
    have hset : (s ++ [false]).set s.length true = s ++ [true] := by simp
    cases h : use conn with
    | error e => simp [exec_bind, h]
    | ok a =>
      simp only [exec_bind, exec_step, exec_openSession, h, ← hset]
      rfl

/-! ## Sessions that are closed -/

/-- Every session opened since is closed. -/
def AllClosed (s t : State) : Prop := ∀ closed ∈ t.drop s.length, closed = true

instance (s t : State) : Decidable (AllClosed s t) :=
  inferInstanceAs (Decidable (∀ closed ∈ t.drop s.length, closed = true))

theorem allClosed_append_iff {s l : State} :
    AllClosed s (s ++ l) ↔ ∀ closed ∈ l, closed = true := by
  rw [AllClosed, List.drop_left]

theorem allClosed_refl (s : State) : AllClosed s s := by simp [AllClosed]

/-- **What happens later does not close a session that was left open**, if older sessions are
left alone. -/
theorem allClosed_trans_iff {s t u : State} (h : s <+: t) (h' : t <+: u) :
    AllClosed s u ↔ AllClosed s t ∧ AllClosed t u := by
  obtain ⟨l, rfl⟩ := h
  obtain ⟨l', rfl⟩ := h'
  rw [allClosed_append_iff, allClosed_append_iff, List.append_assoc, allClosed_append_iff,
    List.forall_mem_append]

/-- The program leaves older sessions alone. -/
def Orderly (x : Tracked ε α) : Prop := ∀ s, s <+: (exec x s).2

/-- The program closes every session that it opens. -/
def ClosesAll (x : Tracked ε α) (s : State) : Prop := AllClosed s (exec x s).2

section Composition

variable {x : Tracked ε α} {f : α → Tracked ε β} {handler : ε → Tracked ε α}

theorem orderly_pure (a : α) : Orderly (pure a : Tracked ε α) := fun s => List.prefix_refl s

theorem orderly_step (r : Except ε α) : Orderly (step r) := fun s => List.prefix_refl s

theorem closesAll_pure (a : α) (s : State) : ClosesAll (pure a : Tracked ε α) s :=
  allClosed_refl s

theorem closesAll_step (r : Except ε α) (s : State) : ClosesAll (step r) s := allClosed_refl s

theorem Orderly.bind (hx : Orderly x) (hf : ∀ a, Orderly (f a)) : Orderly (x >>= f) := by
  intro s
  have hxs := hx s
  rw [exec_bind]
  rcases h : exec x s with ⟨r, t⟩
  rw [h] at hxs
  cases r with
  | ok a => exact hxs.trans (hf a t)
  | error e => exact hxs

theorem Orderly.tryCatch (hx : Orderly x) (hhandler : ∀ e, Orderly (handler e)) :
    Orderly (tryCatch x handler) := by
  intro s
  have hxs := hx s
  rw [exec_tryCatch]
  rcases h : exec x s with ⟨r, t⟩
  rw [h] at hxs
  cases r with
  | ok a => exact hxs
  | error e => exact hxs.trans (hhandler e t)

/-- **A sequence closes all** if its parts that run do. -/
theorem closesAll_bind_iff (hx : Orderly x) (hf : ∀ a, Orderly (f a)) (s : State) :
    ClosesAll (x >>= f) s ↔
      ClosesAll x s ∧ ∀ a, (exec x s).1 = .ok a → ClosesAll (f a) (exec x s).2 := by
  have hxs := hx s
  unfold ClosesAll
  rw [exec_bind]
  rcases h : exec x s with ⟨r, t⟩
  rw [h] at hxs
  cases r with
  | ok a => simp [allClosed_trans_iff hxs (hf a t)]
  | error e => simp

/-- So does a program with a handler that closes what it opens. -/
theorem closesAll_tryCatch_iff (hx : Orderly x) (hhandler : ∀ e, Orderly (handler e))
    (hcloses : ∀ e s, ClosesAll (handler e) s) (s : State) :
    ClosesAll (tryCatch x handler) s ↔ ClosesAll x s := by
  have hxs := hx s
  unfold ClosesAll
  rw [exec_tryCatch]
  rcases h : exec x s with ⟨r, t⟩
  rw [h] at hxs
  cases r with
  | ok a => rfl
  | error e =>
    dsimp only
    rw [allClosed_trans_iff hxs (hhandler e t)]
    exact and_iff_left (hcloses e t)

theorem closesAll_step_bind_iff (r : Except ε α) (hf : ∀ a, Orderly (f a)) (s : State) :
    ClosesAll (step r >>= f) s ↔ ∀ a, r = .ok a → ClosesAll (f a) s := by
  rw [closesAll_bind_iff (orderly_step r) hf, exec_step]
  exact and_iff_right (closesAll_step r s)

theorem closesAll_bind_step_iff (hx : Orderly x) (r : α → Except ε β) (s : State) :
    ClosesAll (x >>= fun a => step (r a)) s ↔ ClosesAll x s := by
  rw [closesAll_bind_iff hx fun a => orderly_step (r a)]
  exact and_iff_left fun a _ => closesAll_step (r a) _

end Composition

/-! ## How programs end -/

/-- The program ends like this, whatever the sessions. -/
def Yields (x : Tracked ε α) (r : Except ε α) : Prop := ∀ s, (exec x s).1 = r

section Yields

variable {x : Tracked ε α} {f : α → Tracked ε β} {handler : ε → Tracked ε α} {r : Except ε α}

theorem yields_step (r : Except ε α) : Yields (step r) r := fun _ => rfl

theorem Yields.bind (hx : Yields x r) {g : α → Except ε β} (hf : ∀ a, Yields (f a) (g a)) :
    Yields (x >>= f) (r >>= g) := by
  intro s
  have hxs := hx s
  rw [exec_bind]
  rcases h : exec x s with ⟨r', t⟩
  rw [h] at hxs
  subst hxs
  cases r' with
  | ok a => exact hf a t
  | error e => rfl

theorem Yields.tryCatch (hx : Yields x r) {g : ε → Except ε α}
    (hhandler : ∀ e, Yields (handler e) (g e)) : Yields (tryCatch x handler) (tryCatch r g) := by
  intro s
  have hxs := hx s
  rw [exec_tryCatch]
  rcases h : exec x s with ⟨r', t⟩
  rw [h] at hxs
  subst hxs
  cases r' with
  | ok a => rfl
  | error e => exact hhandler e t

end Yields

/-! ## One session -/

theorem orderly_openUseClose (connect : Except ε β) (use : β → Except ε α) :
    Orderly (openUseClose connect use) := by
  intro s
  rw [exec_openUseClose]
  cases connect with
  | error e => exact List.prefix_refl s
  | ok conn =>
    dsimp only
    cases use conn with
    | error e => exact List.prefix_append s _
    | ok a => exact List.prefix_append s _

theorem yields_openUseClose (connect : Except ε β) (use : β → Except ε α) :
    Yields (openUseClose connect use) (connect >>= use) := by
  intro s
  rw [exec_openUseClose]
  cases connect with
  | error e => rfl
  | ok conn =>
    show _ = use conn
    dsimp only
    cases use conn with
    | error e => rfl
    | ok a => rfl

/-- **The session is closed** exactly when the uses return. -/
theorem closesAll_openUseClose_iff (connect : Except ε β) (use : β → Except ε α) (s : State) :
    ClosesAll (openUseClose connect use) s ↔
      ∀ conn, connect = .ok conn → ∃ a, use conn = .ok a := by
  unfold ClosesAll
  rw [exec_openUseClose]
  cases connect with
  | error e => simp [AllClosed]
  | ok conn =>
    dsimp only
    cases h : use conn with
    | error e => simp [allClosed_append_iff, h]
    | ok a => simp [allClosed_append_iff, h]

/-! ## Loops -/

/-- The elements that a loop comes to: it stops behind the first that raises. -/
def reached (r : α → Except ε Unit) : List α → List α
  | [] => []
  | a :: rest => a :: match r a with
    | .ok _ => reached r rest
    | .error _ => []

section Loop

variable {f : α → Tracked ε Unit}

theorem orderly_forM (hf : ∀ a, Orderly (f a)) (xs : List α) : Orderly (forM xs f) := by
  induction xs with
  | nil => exact orderly_pure ()
  | cons a rest ih =>
    rw [List.forM_cons]
    exact (hf a).bind fun _ => ih

/-- **A loop closes all** if every pass that it comes to does. -/
theorem closesAll_forM_iff (hf : ∀ a, Orderly (f a)) {r : α → Except ε Unit}
    (hr : ∀ a, Yields (f a) (r a)) {P : α → Prop} (hP : ∀ a s, ClosesAll (f a) s ↔ P a)
    (xs : List α) (s : State) : ClosesAll (forM xs f) s ↔ ∀ a ∈ reached r xs, P a := by
  induction xs generalizing s with
  | nil => simpa [reached] using closesAll_pure () s
  | cons a rest ih =>
    rw [List.forM_cons, closesAll_bind_iff (hf a) fun _ => orderly_forM hf rest, hP, hr a s,
      reached]
    cases h : r a with
    | ok u => simp [ih]
    | error e => simp

end Loop

end Sessions
