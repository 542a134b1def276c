import VsphereCompliance.Store.Tables

/-!
# The table of users

`Users` is the table `users` with what its constraints keep: user names and e-mail addresses
are unique, and every text fits into its column. A commit goes through exactly for tables with
these properties (`commit`); changes of the role and of the activity always do (`alter`).
-/

namespace VsphereCompliance.Accounts

open Store

inductive UserRole
  | admin
  | operator
  | viewer
  deriving DecidableEq, Repr

/-- The columns of a user without the key and the timestamps. -/
structure NewUser where
  username : String
  email : Option String
  hashedPassword : Option String
  fullName : Option String
  role : UserRole
  isActive : Bool
  isLdap : Bool
  deriving DecidableEq, Repr

structure User extends NewUser where
  id : Nat
  deriving DecidableEq, Repr

/-- The texts of a row: username, email, hashed_password and full_name. -/
def NewUser.texts (u : NewUser) : String × Option String × Option String × Option String :=
  (u.username, u.email, u.hashedPassword, u.fullName)

/-- The texts fit into their columns. -/
def TextsFit (texts : String × Option String × Option String × Option String) : Prop :=
  Storable 100 texts.1 ∧ (∀ s ∈ texts.2.1, Storable 200 s) ∧
    (∀ s ∈ texts.2.2.1, Storable 255 s) ∧ ∀ s ∈ texts.2.2.2, Storable 200 s

instance (texts : String × Option String × Option String × Option String) :
    Decidable (TextsFit texts) := inferInstanceAs (Decidable (_ ∧ _ ∧ _ ∧ _))

/-- The constraints of the table. -/
def Admissible (rows : List User) : Prop :=
  (rows.map fun u => u.username).Nodup ∧ (rows.filterMap fun u => u.email).Nodup ∧
    ∀ u ∈ rows, TextsFit u.texts

instance (rows : List User) : Decidable (Admissible rows) :=
  inferInstanceAs (Decidable (_ ∧ _ ∧ _))

structure Users where
  table : Table User User.id
  admissible : Admissible table.rows

namespace Users

def rows (users : Users) : List User := users.table.rows

/-- No users. -/
def empty : Users := ⟨Table.empty, by decide⟩

/-! ## Queries -/

/-- The user with the id. -/
def find? (users : Users) (id : Nat) : Option User := users.table.find? id

/-- The user with the name. -/
def named (users : Users) (username : String) : Option User :=
  users.rows.find? fun u => u.username = username

/-- The active user with the name. -/
def active (users : Users) (username : String) : Option User :=
  users.rows.find? fun u => u.username = username ∧ u.isActive

theorem find?_eq_some_iff {users : Users} {id : Nat} {u : User} :
    users.find? id = some u ↔ u ∈ users.rows ∧ u.id = id := Table.find?_eq_some_iff

/-- Two rows with one name are one row. -/
theorem eq_of_username {users : Users} {u v : User} (hu : u ∈ users.rows) (hv : v ∈ users.rows)
    (h : u.username = v.username) : u = v :=
  List.inj_on_of_nodup_map users.admissible.1 hu hv h

theorem eq_of_id {users : Users} {u v : User} (hu : u ∈ users.rows) (hv : v ∈ users.rows)
    (h : u.id = v.id) : u = v := Table.eq_of_key hu hv h

theorem named_eq_some_iff {users : Users} {username : String} {u : User} :
    users.named username = some u ↔ u ∈ users.rows ∧ u.username = username := by
  refine ⟨?_, ?_⟩
  · intro h
    exact ⟨List.mem_of_find?_eq_some h, by simpa using List.find?_some h⟩
  · rintro ⟨hu, rfl⟩
    cases hv : users.named u.username with
    | none => exact absurd (decide_eq_true rfl) (List.find?_eq_none.mp hv u hu)
    | some v =>
      have hname : v.username = u.username := by simpa using List.find?_some hv
      rw [eq_of_username (List.mem_of_find?_eq_some hv) hu hname]

theorem named_eq_none_iff {users : Users} {username : String} :
    users.named username = none ↔ ∀ u ∈ users.rows, u.username ≠ username := by
  unfold named
  simp

/-- The activity filter on top of the name. -/
theorem active_eq (users : Users) (username : String) :
    users.active username = (users.named username).filter fun u => u.isActive := by
  cases hnamed : users.named username with
  | none =>
    unfold active
    rw [Option.filter_none, List.find?_eq_none]
    intro u hu h
    exact named_eq_none_iff.mp hnamed u hu (of_decide_eq_true h).1
  | some u =>
    obtain ⟨hu, rfl⟩ := named_eq_some_iff.mp hnamed
    rw [Option.filter_some]
    cases hv : users.active u.username with
    | none =>
      have hnot := List.find?_eq_none.mp hv u hu
      rw [if_neg]
      exact fun h => hnot (decide_eq_true ⟨rfl, h⟩)
    | some v =>
      have hname : v.username = u.username ∧ v.isActive = true := by
        simpa using List.find?_some hv
      obtain rfl := eq_of_username (List.mem_of_find?_eq_some hv) hu hname.1
      rw [if_pos hname.2]

/-! ## Updates -/

/-- Commit a session that leaves this table. -/
def commit (table : Table User User.id) : Option Users :=
  if h : Admissible table.rows then some ⟨table, h⟩ else none

theorem commit_eq_some_iff {table : Table User User.id} {users : Users} :
    commit table = some users ↔ users.table = table := by
  unfold commit
  refine ⟨?_, ?_⟩
  · intro h
    split at h
    · cases h
      rfl
    · cases h
  · rintro rfl
    exact dif_pos users.admissible

def userRow (id : Nat) (u : NewUser) : User := { u with id }

/-- The table with one more row. -/
def inserted (users : Users) (u : NewUser) : Table User User.id :=
  users.table.insertRows userRow (fun _ _ => rfl) [u]

def insert (users : Users) (u : NewUser) : Option Users := commit (users.inserted u)

/-- Overwrite columns of the user with the id. -/
def set (users : Users) (id : Nat) (f : User → User) (hf : ∀ u, (f u).id = u.id) :
    Option Users := commit (users.table.update (fun u => u.id = id) f hf)

theorem admissible_map {rows : List User} (h : Admissible rows) {f : User → User}
    (hf : ∀ u, (f u).texts = u.texts) : Admissible (rows.map f) := by
  have hname : ∀ u, (f u).username = u.username := fun u => congrArg Prod.fst (hf u)
  have hemail : ∀ u, (f u).email = u.email := fun u => congrArg (fun t => t.2.1) (hf u)
  obtain ⟨hnames, hemails, hfit⟩ := h
  refine ⟨?_, ?_, ?_⟩
  · rw [List.map_map]
    convert hnames using 2
    funext u
    exact hname u
  · rw [List.filterMap_map]
    convert hemails using 2
    exact hemail _
  · intro u hu
    obtain ⟨v, hv, rfl⟩ := List.mem_map.mp hu
    rw [hf]
    exact hfit v hv

/-- Overwrite columns other than the texts of the user with the id. -/
def alter (users : Users) (id : Nat) (f : User → User) (hid : ∀ u, (f u).id = u.id)
    (hf : ∀ u, (f u).texts = u.texts) : Users where
  table := users.table.update (fun u => u.id = id) f hid
  admissible := by
    refine admissible_map users.admissible ?_
    intro u
    dsimp only
    split
    · exact hf u
    · rfl

theorem rows_of_insert {users users' : Users} {u : NewUser} (h : users.insert u = some users') :
    users'.rows = users.rows ++ [userRow users.table.next u] := by
  rw [rows, commit_eq_some_iff.mp h]
  rfl

/-- The table has room for the row: its name and its address are new, and its texts fit. -/
def Insertable (users : Users) (u : NewUser) : Prop :=
  (∀ v ∈ users.rows, v.username ≠ u.username) ∧
    (∀ email, u.email = some email → ∀ v ∈ users.rows, v.email ≠ some email) ∧ TextsFit u.texts

theorem admissible_inserted_iff {users : Users} {u : NewUser} :
    Admissible (users.inserted u).rows ↔ users.Insertable u := by
  show Admissible (users.rows ++ [userRow users.table.next u]) ↔ _
  have hold := users.admissible
  obtain ⟨hnames, hemails, hfit⟩ := hold
  have hname : ((users.rows ++ [userRow users.table.next u]).map fun v => v.username).Nodup ↔
      ∀ v ∈ users.rows, v.username ≠ u.username := by
    rw [List.map_append, List.nodup_append]
    refine ⟨?_, ?_⟩
    · intro h v hv
      exact h.2.2 _ (List.mem_map_of_mem hv) _ (List.mem_singleton_self _)
    · intro h
      refine ⟨hnames, List.nodup_singleton _, ?_⟩
      intro x hx y hy
      obtain ⟨v, hv, rfl⟩ := List.mem_map.mp hx
      obtain rfl := List.mem_singleton.mp hy
      exact h v hv
  have hemail : ((users.rows ++ [userRow users.table.next u]).filterMap fun v => v.email).Nodup ↔
      ∀ email, u.email = some email → ∀ v ∈ users.rows, v.email ≠ some email := by
    rw [List.filterMap_append, List.nodup_append]
    refine ⟨?_, ?_⟩
    · intro h email hu v hv hvemail
      have hnew : email ∈ [userRow users.table.next u].filterMap fun v => v.email :=
        List.mem_filterMap.mpr ⟨_, List.mem_singleton_self _, hu⟩
      exact h.2.2 email (List.mem_filterMap.mpr ⟨v, hv, hvemail⟩) email hnew rfl
    · intro h
      refine ⟨hemails, ?_, ?_⟩
      · cases hu : u.email with
        | none => simp [userRow, hu]
        | some email => simp [userRow, hu]
      · rintro x hx y hy rfl
        obtain ⟨v, hv, hvemail⟩ := List.mem_filterMap.mp hx
        obtain ⟨w, hw, hwemail⟩ := List.mem_filterMap.mp hy
        obtain rfl := List.mem_singleton.mp hw
        exact h x hwemail v hv hvemail
  have htexts : (∀ v ∈ users.rows ++ [userRow users.table.next u], TextsFit v.texts) ↔
      TextsFit u.texts := by
    refine ⟨fun h => h _ (List.mem_append_right _ (List.mem_singleton_self _)), ?_⟩
    intro h v hv
    rcases List.mem_append.mp hv with hv | hv
    · exact hfit v hv
    · obtain rfl := List.mem_singleton.mp hv
      exact h
  exact and_congr hname (and_congr hemail htexts)

/-- An insertion succeeds exactly when there is room. -/
theorem insert_isSome_iff {users : Users} {u : NewUser} :
    (∃ users', users.insert u = some users') ↔ users.Insertable u := by
  rw [← admissible_inserted_iff]
  refine ⟨?_, fun h => ⟨_, dif_pos h⟩⟩
  rintro ⟨users', h⟩
  rw [← commit_eq_some_iff.mp h]
  exact users'.admissible

theorem rows_of_set {users users' : Users} {id : Nat} {f : User → User}
    {hf : ∀ u, (f u).id = u.id} (h : users.set id f hf = some users') :
    users'.rows = users.rows.map fun u => if u.id = id then f u else u := by
  rw [rows, commit_eq_some_iff.mp h]
  unfold Table.update
  simp only [decide_eq_true_eq]
  rfl

theorem rows_alter (users : Users) (id : Nat) (f : User → User) (hid : ∀ u, (f u).id = u.id)
    (hf : ∀ u, (f u).texts = u.texts) :
    (users.alter id f hid hf).rows = users.rows.map fun u => if u.id = id then f u else u := by
  unfold alter rows Table.update
  simp only [decide_eq_true_eq]

end Users

end VsphereCompliance.Accounts
