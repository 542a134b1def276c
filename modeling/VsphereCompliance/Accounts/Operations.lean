import VsphereCompliance.Accounts.Login

/-!
# What happens to accounts

The requests that write accounts, as one step function. `change_handle` says all that a
request can do to the rows: it rewrites rows without touching whose account it is, adds a local
account, or adds an account for a user of the directory.
-/

namespace VsphereCompliance.Accounts

open Store Ldap

inductive Operation
  | createUser (salt : String) (payload : UserCreate)
  | updateUser (id : Nat) (payload : UserUpdate)
  | deactivateUser (id : Nat)
  | changePassword (id : Nat) (salt : String) (payload : ChangePassword)
  | login (server : Server) (req : LoginRequest)

/-- The store after a request; `changePassword` is for the active user with the id. -/
def handle (b : Bcrypt) (acc : AccountDb) : Operation → AccountDb
  | .createUser salt payload =>
    match createUser b salt acc.users payload with
    | .error _ => acc
    | .ok (users, _) => { acc with users }
  | .updateUser id payload =>
    match updateUser acc.users id payload with
    | .error _ => acc
    | .ok (users, _) => { acc with users }
  | .deactivateUser id =>
    match deactivateUser acc.users id with
    | .error _ => acc
    | .ok users => { acc with users }
  | .changePassword id salt payload =>
    match (acc.users.find? id).filter fun u => u.isActive with
    | none => acc
    | some user =>
      match changePassword b salt acc.users user payload with
      | .error _ => acc
      | .ok users => { acc with users }
  | .login server req =>
    match login b server acc req with
    | .error _ => acc
    | .ok (acc', _) => acc'

/-! ## What a request does to the rows -/

/-- The row of the same account, with the same hash if it is an LDAP account. -/
structure SameAccount (u v : User) : Prop where
  id : v.id = u.id
  username : v.username = u.username
  isLdap : v.isLdap = u.isLdap
  hash : u.isLdap = true → v.hashedPassword = u.hashedPassword

theorem SameAccount.refl (u : User) : SameAccount u u := ⟨rfl, rfl, rfl, fun _ => rfl⟩

/-- The request makes the account active. -/
def Reactivates (id : Nat) : Operation → Prop
  | .updateUser i payload => i = id ∧ payload.isActive = some true
  | _ => False

/-- A login that makes an account. -/
structure Provisions (server : Server) (acc : AccountDb) (req : LoginRequest)
    (ldapUser : LdapUser) : Prop where
  enabled : server.ldapEnabled = true
  accepts : server.Accepts req ldapUser
  insertable : acc.users.Insertable
    (provisioned req.username ldapUser (server.roleOf ldapUser))

/-- The rows after a request. -/
inductive Change (acc : AccountDb) : Operation → List User → Prop
  | altered {op : Operation} (f : User → User) : (∀ u ∈ acc.users.rows, SameAccount u (f u)) →
      (∀ u ∈ acc.users.rows, ¬ Reactivates u.id op → u.isActive = false →
        (f u).isActive = false) → Change acc op (acc.users.rows.map f)
  | added {op : Operation} (u : User) : u.isLdap = false → Change acc op (acc.users.rows ++ [u])
  | provisioned {server : Server} {req : LoginRequest} {ldapUser : LdapUser} :
      Provisions server acc req ldapUser → Change acc (.login server req) (acc.users.rows ++
        [Users.userRow acc.users.table.next
          (provisioned req.username ldapUser (server.roleOf ldapUser))])

section Change

variable {acc : AccountDb} {op : Operation}

theorem Change.refl : Change acc op acc.users.rows := by
  have h : Change acc op (acc.users.rows.map id) :=
    .altered id (fun u _ => SameAccount.refl u) fun _ _ _ h => h
  rwa [List.map_id] at h

/-- Rewriting the row with an id. -/
theorem Change.at_id {rows : List User} {id : Nat} {f : User → User}
    (hrows : rows = acc.users.rows.map fun u => if u.id = id then f u else u)
    (hsame : ∀ u ∈ acc.users.rows, u.id = id → SameAccount u (f u))
    (hactive : ∀ u, u.id = id → ¬ Reactivates u.id op → u.isActive = false →
      (f u).isActive = false) : Change acc op rows := by
  rw [hrows]
  apply Change.altered
  · intro u hu
    split
    · exact hsame u hu ‹_›
    · exact SameAccount.refl u
  · intro u _ hnot hinactive
    split
    · exact hactive u ‹_› hnot hinactive
    · exact hinactive

theorem takesLdap_iff {server : Server} {users : Users} {username : String} :
    server.takesLdap users username = true ↔
      server.ldapEnabled = true ∧ ∀ u, users.active username = some u → u.isLdap = true := by
  unfold Server.takesLdap
  rw [Bool.and_eq_true]
  apply and_congr_right
  intro _
  cases users.active username with
  | none => simp
  | some u => simp

theorem takesLdap_of_unnamed {server : Server} {users : Users} {username : String}
    (henabled : server.ldapEnabled = true) (h : users.named username = none) :
    server.takesLdap users username = true := by
  refine takesLdap_iff.mpr ⟨henabled, ?_⟩
  intro u hu
  have hnamed := (named_of_active hu).1
  rw [h] at hnamed
  cases hnamed

/-- **What a request does to the rows.** -/
theorem change_handle (b : Bcrypt) (acc : AccountDb) (op : Operation) :
    Change acc op (handle b acc op).users.rows := by
  cases op with
  | createUser salt payload =>
    unfold handle
    dsimp only
    split
    · exact Change.refl
    · rename_i hcreate
      obtain ⟨_, hash, hrows⟩ := row_of_createUser hcreate
      rw [hrows]
      exact .added _ rfl
  | updateUser id payload =>
    unfold handle
    dsimp only
    split
    · exact Change.refl
    · rename_i hupdate
      refine .at_id (rows_of_updateUser hupdate) (fun _ _ _ => ⟨rfl, rfl, rfl, fun _ => rfl⟩) ?_
      intro u hid hnot hinactive
      show payload.isActive.getD u.isActive = false
      rcases hpayload : payload.isActive with _ | _ | _
      · exact hinactive
      · rfl
      · exact absurd ⟨hid.symm, hpayload⟩ hnot
  | deactivateUser id =>
    unfold handle
    dsimp only
    split
    · exact Change.refl
    · rename_i hdeactivate
      exact .at_id (rows_of_deactivateUser hdeactivate)
        (fun _ _ _ => ⟨rfl, rfl, rfl, fun _ => rfl⟩) fun _ _ _ _ => rfl
  | changePassword id salt payload =>
    unfold handle
    dsimp only
    split
    · exact Change.refl
    rename_i user huser
    split
    · exact Change.refl
    · rename_i hchange
      obtain ⟨hlocal, hash, hrows⟩ := rows_of_changePassword hchange
      have hmem := (Users.find?_eq_some_iff.mp (Option.filter_eq_some_iff.mp huser).1).1
      refine Change.at_id hrows ?_ fun _ _ _ h => h
      intro u hu hid
      obtain rfl := Users.eq_of_id hu hmem hid
      refine ⟨rfl, rfl, rfl, ?_⟩
      intro hldap
      rw [hlocal] at hldap
      cases hldap
  | login server req =>
    unfold handle
    dsimp only
    split
    · exact Change.refl
    rename_i hlogin
    cases login_eq_ok_iff.mp hlogin with
    | password => exact Change.refl
    | existing =>
      exact .at_id (Users.rows_assign _ _ _) (fun _ _ _ => ⟨rfl, rfl, rfl, fun _ => rfl⟩)
        fun _ _ _ h => h
    | created htakes haccepts _ hinsert =>
      show Change _ _ (Users.rows _)
      rw [Users.rows_of_insert hinsert]
      exact .provisioned ⟨(takesLdap_iff.mp htakes).1, haccepts,
        Users.insert_isSome_iff.mp ⟨_, hinsert⟩⟩

/-- A login that makes an account adds its row. -/
theorem rows_of_provisions (b : Bcrypt) {server : Server} {req : LoginRequest}
    {ldapUser : LdapUser} (h : Provisions server acc req ldapUser) :
    (handle b acc (.login server req)).users.rows = acc.users.rows ++
      [Users.userRow acc.users.table.next
        (provisioned req.username ldapUser (server.roleOf ldapUser))] := by
  have hnamed := Users.named_eq_none_iff.mpr h.insertable.1
  have htakes := takesLdap_of_unnamed h.enabled hnamed
  obtain ⟨users, hinsert⟩ := Users.insert_isSome_iff.mpr h.insertable
  unfold handle
  dsimp only
  rw [login_eq_ok_iff.mpr (.created htakes h.accepts hnamed hinsert)]
  exact Users.rows_of_insert hinsert

end Change

/-! ## Local accounts -/

/-- All accounts are local. -/
def OnlyLocal (acc : AccountDb) : Prop := ∀ u ∈ acc.users.rows, u.isLdap = false

end VsphereCompliance.Accounts
