import VsphereCompliance.Api.AdminReset
import VsphereCompliance.Library.RowEdits

/-!
# Edits of one account at the same time

The requests that change an account query it first and commit later, and between the two another
request may commit. The session then writes the columns whose value it changed, and no others.
`userEditing` is the table of the users with all that edits a row of it; alone, a session is the
request as it is modelled elsewhere (`write_userEditing`).

In every order of queries and commits no account is lost, and each of its columns holds what a
committed request gives it, or what it held at first if none does (`accounts_hold_edits`).
-/

namespace VsphereCompliance.Api

open Store Accounts Analysis RowEdits

/-! ## The sessions -/

/-- What changes a row of `users`: `update_user`, `deactivate_user`, `change_password` with the
hash of the new password, the role that `_do_ldap_login` found, and `reset_admin.py`. -/
inductive UserEdit
  | update (payload : UserUpdate)
  | deactivate
  | changePassword (hash : String)
  | ldapLogin (role : UserRole)
  | resetAdmin (hash : String)

def UserEdit.assign : UserEdit → User → User
  | .update payload => payload.write
  | .deactivate => Accounts.deactivate
  | .changePassword hash => setPassword hash
  | .ldapLogin role => assignRole role
  | .resetAdmin hash => resetRow hash

/-- The row after the commit of a session that loaded and assigned these rows. -/
def mergeUser (loaded assigned current : User) : User where
  id := current.id
  username := merge loaded.username assigned.username current.username
  email := merge loaded.email assigned.email current.email
  hashedPassword := merge loaded.hashedPassword assigned.hashedPassword current.hashedPassword
  fullName := merge loaded.fullName assigned.fullName current.fullName
  role := merge loaded.role assigned.role current.role
  isActive := merge loaded.isActive assigned.isActive current.isActive
  isLdap := merge loaded.isLdap assigned.isLdap current.isLdap

theorem find?_insertUser {users users' : Users} {u : NewUser} (h : users.insert u = some users')
    {k : Nat} (hk : k < users.table.next) : users'.find? k = users.find? k := by
  unfold Users.find?
  rw [Users.commit_eq_some_iff.mp h]
  exact (Table.find?_insertRow users.table Users.userRow (fun _ _ => rfl) u k).trans
    (if_neg (Nat.ne_of_lt hk))

theorem next_insertUser {users users' : Users} {u : NewUser} (h : users.insert u = some users') :
    users'.table.next = users.table.next + 1 := by
  rw [Users.commit_eq_some_iff.mp h]
  rfl

theorem find?_setUser {users users' : Users} {n : Nat} {f : User → User}
    {hf : ∀ u, (f u).id = u.id} (h : users.set n f hf = some users') (k : Nat) :
    users'.find? k = if k = n then (users.find? k).map f else users.find? k := by
  unfold Users.find?
  rw [Users.commit_eq_some_iff.mp h]
  exact Table.find?_updateKey _ _ _ _ _

def userEditing : Editing Users User UserEdit where
  find? := Users.find?
  next users := users.table.next
  write users id loaded assigned := users.set id (mergeUser loaded assigned) fun _ => rfl
  assign := UserEdit.assign
  mergeRow := mergeUser
  other users users' := ∃ u, users.insert u = some users'
  lt_next h := by
    obtain ⟨hmem, rfl⟩ := Table.find?_eq_some_iff.mp h
    exact Table.key_lt _ _ hmem
  find?_write h := find?_setUser h
  next_write h := by
    rw [Users.commit_eq_some_iff.mp h]
    rfl
  find?_other := by
    rintro users users' ⟨u, h⟩ k r hk hr
    rwa [find?_insertUser h hk] at hr
  next_other := by
    rintro users users' ⟨u, h⟩
    rw [next_insertUser h]
    exact Nat.le_succ _

/-- With nothing in between a session sets what it assigns. -/
theorem mergeUser_current {u assigned : User} (hid : assigned.id = u.id) :
    mergeUser u assigned u = assigned := by
  unfold mergeUser
  simp only [merge_current]
  rw [← hid]

/-- A session alone changes the row as the request does. -/
theorem write_userEditing {users : Users} {id : Nat} {u : User} (hu : users.find? id = some u)
    {f : User → User} (hf : ∀ u, (f u).id = u.id) :
    userEditing.write users id u (f u) = users.set id f hf := by
  show Users.commit _ = Users.commit _
  congr 1
  obtain ⟨hmem, rfl⟩ := Table.find?_eq_some_iff.mp hu
  unfold Table.update
  congr 1
  apply List.map_congr_left
  intro v hv
  split
  · rename_i hid
    obtain rfl : v = u := Table.eq_of_key hv hmem (of_decide_eq_true hid)
    exact mergeUser_current (hf v)
  · rfl

/-- `update_user` with no commit in between. -/
theorem write_updateUser {users : Users} {id : Nat} {u : User} (hu : users.find? id = some u)
    (payload : UserUpdate) :
    userEditing.write users id u ((UserEdit.update payload).assign u) =
      (updateUser users id payload).toOption.map Prod.fst := by
  rw [UserEdit.assign, write_userEditing hu (f := payload.write) fun _ => rfl]
  unfold updateUser
  rw [hu]
  dsimp only
  cases users.set id payload.write fun _ => rfl with
  | none => rfl
  | some users' => rfl

/-- The request is a run of one session. -/
theorem run_updateUser {users users' : Users} {id : Nat} {payload : UserUpdate}
    {answer : UpdatedUser} (h : updateUser users id payload = .ok (users', answer)) :
    Runs.Run (Step userEditing) (RowEdits.State.start users)
      [.load id (.update payload), .commit 0] ⟨users', [], [(id, .update payload)]⟩ := by
  cases hu : users.find? id with
  | none =>
    unfold updateUser at h
    rw [hu] at h
    cases h
  | some u =>
    have hwrite := write_updateUser hu payload
    rw [h] at hwrite
    exact run_alone rfl hu hwrite

/-- `deactivate_user` with no commit in between. -/
theorem write_deactivateUser {users : Users} {id : Nat} {u : User}
    (hu : users.find? id = some u) :
    userEditing.write users id u (UserEdit.deactivate.assign u) =
      (deactivateUser users id).toOption := by
  rw [UserEdit.assign, write_userEditing hu (f := Accounts.deactivate) fun _ => rfl]
  unfold deactivateUser
  rw [hu]
  exact Users.commit_eq_some_iff.mpr rfl

/-! ## The columns -/

def UserEdit.email : UserEdit → Option (Option String)
  | .update payload => payload.email.map some
  | _ => none

def UserEdit.fullName : UserEdit → Option (Option String)
  | .update payload => payload.fullName.map some
  | _ => none

def UserEdit.role : UserEdit → Option UserRole
  | .update payload => payload.role
  | .ldapLogin role => some role
  | _ => none

def UserEdit.isActive : UserEdit → Option Bool
  | .update payload => payload.isActive
  | .deactivate => some false
  | .resetAdmin _ => some true
  | _ => none

def UserEdit.hashedPassword : UserEdit → Option (Option String)
  | .changePassword hash => some (some hash)
  | .resetAdmin hash => some (some hash)
  | _ => none

def emailColumn : Column userEditing (Option String) where
  get u := u.email
  given := UserEdit.email
  get_assign e u := by
    cases e with
    | update payload =>
      cases h : payload.email <;>
        simp [userEditing, UserEdit.assign, UserUpdate.write, UserEdit.email, h]
    | _ => rfl
  get_merge _ _ _ := rfl

def fullNameColumn : Column userEditing (Option String) where
  get u := u.fullName
  given := UserEdit.fullName
  get_assign e u := by
    cases e with
    | update payload =>
      cases h : payload.fullName <;>
        simp [userEditing, UserEdit.assign, UserUpdate.write, UserEdit.fullName, h]
    | _ => rfl
  get_merge _ _ _ := rfl

def roleColumn : Column userEditing UserRole where
  get u := u.role
  given := UserEdit.role
  get_assign e u := by
    cases e with
    | _ => rfl
  get_merge _ _ _ := rfl

def isActiveColumn : Column userEditing Bool where
  get u := u.isActive
  given := UserEdit.isActive
  get_assign e u := by
    cases e with
    | _ => rfl
  get_merge _ _ _ := rfl

def hashedPasswordColumn : Column userEditing (Option String) where
  get u := u.hashedPassword
  given := UserEdit.hashedPassword
  get_assign e u := by
    cases e with
    | _ => rfl
  get_merge _ _ _ := rfl

def usernameColumn : Column userEditing String where
  get u := u.username
  given _ := none
  get_assign e u := by
    cases e with
    | _ => rfl
  get_merge _ _ _ := rfl

def isLdapColumn : Column userEditing Bool where
  get u := u.isLdap
  given _ := none
  get_assign e u := by
    cases e with
    | _ => rfl
  get_merge _ _ _ := rfl

/-- The account with the id has what the committed edits give it, and was `u₀` at first. -/
structure AccountHolds (committed : List (Nat × UserEdit)) (id : Nat) (u₀ u : User) : Prop where
  username : u.username = u₀.username
  isLdap : u.isLdap = u₀.isLdap
  email : Held (fun u : User => u.email) UserEdit.email committed id u₀ u
  fullName : Held (fun u : User => u.fullName) UserEdit.fullName committed id u₀ u
  role : Held (fun u : User => u.role) UserEdit.role committed id u₀ u
  isActive : Held (fun u : User => u.isActive) UserEdit.isActive committed id u₀ u
  hashedPassword : Held (fun u : User => u.hashedPassword) UserEdit.hashedPassword committed id u₀ u

section Accounts

variable {users : Users} {id : Nat} {u₀ : User} {events : List (RowEdits.Event Users UserEdit)}
  {t : RowEdits.State Users User UserEdit}

theorem exists_account_of_run
    (h : Runs.Run (Step userEditing) (RowEdits.State.start users) events t)
    (hu₀ : users.find? id = some u₀) : ∃ u, t.store.find? id = some u := by
  refine Option.isSome_iff_exists.mp (find?_isSome_of_run ?_ h (Option.isSome_of_eq_some hu₀))
  rintro users users' k ⟨u, hinsert⟩ hsome
  obtain ⟨v, hv⟩ := Option.isSome_iff_exists.mp hsome
  show (users'.find? k).isSome
  rw [find?_insertUser hinsert (userEditing.lt_next hv)]
  exact hsome

/-- A committed deactivation stands as long as nothing else sets the activity. -/
theorem deactivated_of_run
    (h : Runs.Run (Step userEditing) (RowEdits.State.start users) events t)
    (hu₀ : users.find? id = some u₀) (hcommitted : (id, UserEdit.deactivate) ∈ t.committed)
    (honly : ∀ e, (id, e) ∈ t.committed → e.isActive ≠ some true) :
    ∃ u, t.store.find? id = some u ∧ u.isActive = false := by
  obtain ⟨u, hu⟩ := exists_account_of_run h hu₀
  refine ⟨u, hu, (isActiveColumn.held_of_run h hu₀ hu).get_eq hcommitted rfl ?_⟩
  intro e he w hw
  cases w with
  | false => rfl
  | true => exact absurd hw (honly e he)

/-- **No change of an account is lost**: it stays, and each of its columns holds what a committed
request gives it, in whatever order the requests query and commit. -/
theorem accounts_hold_edits
    (h : Runs.Run (Step userEditing) (RowEdits.State.start users) events t)
    (hu₀ : users.find? id = some u₀) :
    ∃ u, t.store.find? id = some u ∧ AccountHolds t.committed id u₀ u := by
  obtain ⟨u, hu⟩ := exists_account_of_run h hu₀
  exact ⟨u, hu, {
    username := (usernameColumn.held_of_run h hu₀ hu).get_eq_first fun _ => rfl
    isLdap := (isLdapColumn.held_of_run h hu₀ hu).get_eq_first fun _ => rfl
    email := emailColumn.held_of_run h hu₀ hu
    fullName := fullNameColumn.held_of_run h hu₀ hu
    role := roleColumn.held_of_run h hu₀ hu
    isActive := isActiveColumn.held_of_run h hu₀ hu
    hashedPassword := hashedPasswordColumn.held_of_run h hu₀ hu }⟩

end Accounts

def nameVera : UserEdit := .update ⟨some "Vera", none, none, none⟩

/-- Her full name is set while she is deactivated. -/
def veraEdits : List (RowEdits.Event Users UserEdit) :=
  [.load 1 nameVera, .load 1 .deactivate, .commit 1, .commit 0]

theorem accounts_hold_edits_vera : ∃ t u,
    Runs.Run (Step userEditing) (RowEdits.State.start veraState.accounts.users) veraEdits t ∧
      t.store.find? 1 = some u ∧ u.fullName = some "Vera" ∧ u.isActive = false := by
  have hvera : veraState.accounts.users.find? 1 = some vera := rfl
  have hrun : Runs.Run (Step userEditing) (RowEdits.State.start veraState.accounts.users) veraEdits
      ⟨⟨Table.singleton { vera with fullName := some "Vera", isActive := false }, by decide⟩, [],
        [(1, nameVera), (1, .deactivate)]⟩ := by
    refine .cons (.load hvera) (.cons (.load hvera) (.cons (t := ⟨⟨Table.singleton
      { vera with isActive := false }, by decide⟩, [⟨1, nameVera, vera⟩], [(1, .deactivate)]⟩)
      ?_ (.single ?_)))
    · exact .commit (x := ⟨1, UserEdit.deactivate, vera⟩) rfl rfl
    · exact .commit (x := ⟨1, nameVera, vera⟩) rfl rfl
  obtain ⟨u, hu, hholds⟩ := accounts_hold_edits hrun hvera
  refine ⟨_, u, hrun, hu, ?_, ?_⟩
  · exact hholds.fullName.get_eq (e := nameVera) (by simp) rfl
      (by simp [nameVera, UserEdit.fullName])
  · exact hholds.isActive.get_eq (e := .deactivate) (by simp) rfl
      (by simp [nameVera, UserEdit.isActive])

end VsphereCompliance.Api
