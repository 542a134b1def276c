import VsphereCompliance.Accounts.Users

/-!
# Managing accounts

The endpoints of `users.py` and `change_password`. A request that fails raises an `HttpError`
and leaves the table as it was, so each function returns the new table with the answer or the
error. `row_of_createUser`, `rows_of_updateUser`, `rows_of_deactivateUser` and
`rows_of_changePassword` say what a successful request does to the rows.
-/

namespace VsphereCompliance.Accounts

open Store

/-- An `HTTPException`, or the answer to an exception that nobody catches. -/
structure HttpError where
  status : Nat
  detail : String
  deriving DecidableEq, Repr

def serverError : HttpError := ⟨500, "Internal server error"⟩

/-- The functions of `bcrypt`; none where they raise. -/
structure Bcrypt where
  hashpw : String → String → Option String
  checkpw : String → String → Option Bool

/-- `verify_password`, false when `checkpw` raises or there is no hash. -/
def verifyPassword (b : Bcrypt) (plain : String) (hashed : Option String) : Bool :=
  (hashed.bind fun hash => b.checkpw plain hash).getD false

theorem verifyPassword_eq_true_iff {b : Bcrypt} {plain : String} {hashed : Option String} :
    verifyPassword b plain hashed = true ↔
      ∃ hash, hashed = some hash ∧ b.checkpw plain hash = some true := by
  cases hashed with
  | none => simp [verifyPassword]
  | some hash =>
    cases h : b.checkpw plain hash with
    | none => simp [verifyPassword, h]
    | some ok => simp [verifyPassword, h]

/-! ## The requests -/

structure UserCreate where
  username : String
  password : String
  fullName : Option String
  email : Option String
  role : UserRole

structure UserUpdate where
  fullName : Option String
  email : Option String
  role : Option UserRole
  isActive : Option Bool

structure CreatedUser where
  id : Nat
  username : String
  role : UserRole
  deriving DecidableEq, Repr

structure UpdatedUser extends CreatedUser where
  isActive : Bool
  deriving DecidableEq, Repr

def UserCreate.newUser (payload : UserCreate) (hash : String) : NewUser where
  username := payload.username
  email := payload.email
  hashedPassword := some hash
  fullName := payload.fullName
  role := payload.role
  isActive := true
  isLdap := false

/-- `create_user`; `salt` is what `gensalt` returns. -/
def createUser (b : Bcrypt) (salt : String) (users : Users) (payload : UserCreate) :
    Except HttpError (Users × CreatedUser) :=
  if ¬ IsText payload.username then .error serverError
  else if (users.named payload.username).isSome then .error ⟨409, "Username already exists"⟩
  else
    match b.hashpw payload.password salt with
    | none => .error serverError
    | some hash =>
      match users.insert (payload.newUser hash) with
      | none => .error serverError
      | some users' => .ok (users', ⟨users.table.next, payload.username, payload.role⟩)

/-- The fields that the request gives. -/
def UserUpdate.write (payload : UserUpdate) (u : User) : User :=
  { u with
    fullName := payload.fullName <|> u.fullName
    email := payload.email <|> u.email
    role := payload.role.getD u.role
    isActive := payload.isActive.getD u.isActive }

/-- `update_user`. -/
def updateUser (users : Users) (id : Nat) (payload : UserUpdate) :
    Except HttpError (Users × UpdatedUser) :=
  match users.find? id with
  | none => .error ⟨404, "User not found"⟩
  | some user =>
    match users.set id payload.write fun _ => rfl with
    | none => .error serverError
    | some users' =>
      let u := payload.write user
      .ok (users', ⟨⟨u.id, u.username, u.role⟩, u.isActive⟩)

def deactivate (u : User) : User := { u with isActive := false }

/-- `deactivate_user`. -/
def deactivateUser (users : Users) (id : Nat) : Except HttpError Users :=
  match users.find? id with
  | none => .error ⟨404, "User not found"⟩
  | some _ => .ok (users.alter id deactivate (fun _ => rfl) fun _ => rfl)

structure ChangePassword where
  currentPassword : String
  newPassword : String

def setPassword (hash : String) (u : User) : User := { u with hashedPassword := some hash }

/-- `change_password` of the current user. -/
def changePassword (b : Bcrypt) (salt : String) (users : Users) (user : User)
    (payload : ChangePassword) : Except HttpError Users :=
  if user.isLdap then .error ⟨400, "LDAP users cannot change password here"⟩
  else if ¬ verifyPassword b payload.currentPassword user.hashedPassword then
    .error ⟨400, "Current password is incorrect"⟩
  else
    match (b.hashpw payload.newPassword salt).bind fun hash =>
      users.set user.id (setPassword hash) fun _ => rfl with
    | none => .error serverError
    | some users' => .ok users'

/-! ## What they do -/

section Requests

variable {b : Bcrypt} {salt : String} {users users' : Users} {id : Nat}

theorem row_of_createUser {payload : UserCreate} {answer : CreatedUser}
    (h : createUser b salt users payload = .ok (users', answer)) :
    (∀ u ∈ users.rows, u.username ≠ payload.username) ∧
      ∃ hash, users'.rows =
        users.rows ++ [Users.userRow users.table.next (payload.newUser hash)] := by
  unfold createUser at h
  split at h
  · cases h
  split at h
  · cases h
  rename_i hnamed
  have hnone : users.named payload.username = none := by simpa using hnamed
  split at h
  · cases h
  rename_i hash _
  split at h
  · cases h
  rename_i hinsert
  cases h
  exact ⟨Users.named_eq_none_iff.mp hnone, hash, Users.rows_of_insert hinsert⟩

theorem rows_of_updateUser {payload : UserUpdate} {answer : UpdatedUser}
    (h : updateUser users id payload = .ok (users', answer)) :
    users'.rows = users.rows.map fun u => if u.id = id then payload.write u else u := by
  unfold updateUser at h
  split at h
  · cases h
  split at h
  · cases h
  rename_i hset
  cases h
  exact Users.rows_of_set hset

theorem rows_of_deactivateUser (h : deactivateUser users id = .ok users') :
    users'.rows = users.rows.map fun u => if u.id = id then deactivate u else u := by
  unfold deactivateUser at h
  split at h
  · cases h
  cases h
  exact Users.rows_alter _ _ _ _ _

theorem rows_of_changePassword {user : User} {payload : ChangePassword}
    (h : changePassword b salt users user payload = .ok users') :
    user.isLdap = false ∧ ∃ hash,
      users'.rows = users.rows.map fun u => if u.id = user.id then setPassword hash u else u := by
  unfold changePassword at h
  split at h
  · cases h
  rename_i hldap
  split at h
  · cases h
  split at h
  · cases h
  rename_i hset
  cases h
  obtain ⟨hash, _, hset⟩ := Option.bind_eq_some_iff.mp hset
  exact ⟨Bool.eq_false_of_not_eq_true hldap, hash, Users.rows_of_set hset⟩

end Requests

end VsphereCompliance.Accounts
