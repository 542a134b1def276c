import VsphereCompliance.Accounts.Operations
import VsphereCompliance.Library.Growth

/-!
# Later versions of the accounts

No request deletes an account or gives its id to another one: each leaves a table that has grown
(`Table.Grows`) with the accounts kept as `SameAccount` says, whatever the request writes.
-/

namespace VsphereCompliance.Accounts

open Store

theorem versions_sameAccount : Table.Versions User.id SameAccount where
  refl := SameAccount.refl
  trans u v w h h' := by
    refine ⟨h'.id.trans h.id, h'.username.trans h.username, h'.isLdap.trans h.isLdap, ?_⟩
    intro hldap
    exact (h'.hash (h.isLdap.trans hldap)).trans (h.hash hldap)
  key_eq _ _ h := h.id

/-- The accounts of the one table in the other. -/
abbrev Users.Grows (users users' : Users) : Prop := users.table.Grows SameAccount users'.table

section Grows

variable {users users' : Users}

theorem grows_insert {u : NewUser} (h : users.insert u = some users') : users.Grows users' := by
  unfold Users.Grows
  rw [Users.commit_eq_some_iff.mp h]
  exact Table.grows_insertRows versions_sameAccount _ (fun _ _ => rfl) _

theorem grows_set {id : Nat} {f : User → User} {hf : ∀ u, (f u).id = u.id}
    (h : users.set id f hf = some users')
    (hsame : ∀ u ∈ users.rows, u.id = id → SameAccount u (f u)) : users.Grows users' := by
  unfold Users.Grows
  rw [Users.commit_eq_some_iff.mp h]
  exact Table.grows_update versions_sameAccount _ hf
    fun u hu hid => hsame u hu (of_decide_eq_true hid)

theorem grows_alter (users : Users) (id : Nat) {f : User → User} (hid : ∀ u, (f u).id = u.id)
    (hf : ∀ u, (f u).texts = u.texts) (hsame : ∀ u, SameAccount u (f u)) :
    users.Grows (users.alter id f hid hf) :=
  Table.grows_update versions_sameAccount _ hid fun u _ _ => hsame u

/-! ## The requests -/

variable {b : Bcrypt} {salt : String} {id : Nat}

theorem grows_createUser {payload : UserCreate} {answer : CreatedUser}
    (h : createUser b salt users payload = .ok (users', answer)) : users.Grows users' := by
  unfold createUser at h
  split at h
  · cases h
  split at h
  · cases h
  split at h
  · cases h
  split at h
  · cases h
  rename_i hinsert
  cases h
  exact grows_insert hinsert

theorem grows_updateUser {payload : UserUpdate} {answer : UpdatedUser}
    (h : updateUser users id payload = .ok (users', answer)) : users.Grows users' := by
  unfold updateUser at h
  split at h
  · cases h
  split at h
  · cases h
  rename_i hset
  cases h
  exact grows_set hset fun u _ _ => ⟨rfl, rfl, rfl, fun _ => rfl⟩

theorem grows_deactivateUser (h : deactivateUser users id = .ok users') :
    users.Grows users' := by
  unfold deactivateUser at h
  split at h
  · cases h
  cases h
  exact grows_alter users id _ _ fun u => ⟨rfl, rfl, rfl, fun _ => rfl⟩

/-- The hash of an LDAP account stays: its user cannot change it. -/
theorem grows_changePassword {user : User} (huser : user ∈ users.rows) {payload : ChangePassword}
    (h : changePassword b salt users user payload = .ok users') : users.Grows users' := by
  unfold changePassword at h
  split at h
  · cases h
  rename_i hldap
  split at h
  · cases h
  split at h
  · cases h
  rename_i hset
  cases h
  obtain ⟨hash, _, hset⟩ := Option.bind_eq_some_iff.mp hset
  refine grows_set hset ?_
  intro u hu hid
  obtain rfl := Users.eq_of_id hu huser hid
  exact ⟨rfl, rfl, rfl, fun h => absurd h hldap⟩

theorem grows_login {server : Server} {acc acc' : AccountDb} {req : LoginRequest}
    {answer : TokenResponse} (h : login b server acc req = .ok (acc', answer)) :
    acc.users.Grows acc'.users := by
  cases login_eq_ok_iff.mp h with
  | password => exact Table.Grows.refl versions_sameAccount _
  | existing =>
    exact grows_alter (f := assignRole _) _ _ (fun _ => rfl) (fun _ => rfl)
      fun u => ⟨rfl, rfl, rfl, fun _ => rfl⟩
  | created _ _ _ hinsert => exact grows_insert hinsert

end Grows

end VsphereCompliance.Accounts
