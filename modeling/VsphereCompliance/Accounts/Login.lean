import Std.Data.String.ToNat
import VsphereCompliance.Accounts.Administration
import VsphereCompliance.Ldap.Service

/-!
# Login

`login` looks for an active user with the name. With LDAP enabled, and unless that user is a
local one, `doLdapLogin` asks the directory and then looks the user up again, active or not.
`LogsIn` lists the three ways in: the hash of a local password, an account that exists and
whose credentials the directory accepts, and a new account for them (`login_eq_ok_iff`).
-/

namespace VsphereCompliance.Accounts

open Store Ldap

structure AuditLog where
  userId : Nat
  action : String
  ipAddress : String
  deriving DecidableEq, Repr

structure AccountDb where
  users : Users
  auditLogs : List AuditLog

/-- The settings of the LDAP login and the directory at the time of the request; `lower` is
`str.lower`. -/
structure Server where
  ldapEnabled : Bool
  ldapUserFilter : List Char
  ldapGroupAdmin : String
  ldapGroupOperator : String
  lower : String → String
  directory : Directory

structure LoginRequest where
  username : String
  password : String
  ip : String

/-- What the token claims; the expiry is left out. -/
structure Claims where
  sub : String
  role : UserRole
  deriving DecidableEq, Repr

structure TokenResponse where
  accessToken : Claims
  role : UserRole
  username : String
  fullName : Option String
  deriving DecidableEq, Repr

/-! ## The directory -/

/-- `map_role_from_groups`; the mapping is in the order of its keys. -/
def mapRoleFromGroups (lower : String → String) (groups : List String) :
    List (UserRole × String) → UserRole
  | [] => .viewer
  | (role, groupDn) :: rest =>
    if groupDn ≠ "" ∧ ∃ g ∈ groups, (lower groupDn).toList <:+: (lower g).toList then role
    else mapRoleFromGroups lower groups rest

def Server.roleOf (server : Server) (ldapUser : LdapUser) : UserRole :=
  mapRoleFromGroups server.lower ldapUser.groups
    [(.admin, server.ldapGroupAdmin), (.operator, server.ldapGroupOperator)]

/-- The row for a user of the directory who has none. -/
def provisioned (username : String) (ldapUser : LdapUser) (role : UserRole) : NewUser where
  username := username
  email := ldapUser.email
  hashedPassword := none
  fullName := some ldapUser.fullName
  role := role
  isActive := true
  isLdap := true

def assignRole (role : UserRole) (u : User) : User := { u with role := role }

def Users.assign (users : Users) (id : Nat) (role : UserRole) : Users :=
  users.alter id (assignRole role) (fun _ => rfl) fun _ => rfl

theorem Users.rows_assign (users : Users) (id : Nat) (role : UserRole) :
    (users.assign id role).rows = users.rows.map fun u =>
      if u.id = id then assignRole role u else u := Users.rows_alter _ _ _ _ _

/-- What `_do_ldap_login` raises: an `HTTPException` or another exception. -/
inductive LdapFailure
  | http (e : HttpError)
  | raised

/-- `_do_ldap_login`. -/
def doLdapLogin (server : Server) (users : Users) (req : LoginRequest) :
    Except LdapFailure (Users × User) :=
  match authenticate server.ldapUserFilter server.directory req.username req.password with
  | .error _ => .error .raised
  | .ok none => .error (.http ⟨401, "LDAP: invalid credentials"⟩)
  | .ok (some ldapUser) =>
    let role := server.roleOf ldapUser
    match users.named req.username with
    | none =>
      match users.insert (provisioned req.username ldapUser role) with
      | none => .error .raised
      | some users' =>
        .ok (users', Users.userRow users.table.next (provisioned req.username ldapUser role))
    | some user => .ok (users.assign user.id role, assignRole role user)

/-! ## The endpoint -/

/-- The audit row and the answer. -/
def issueToken (acc : AccountDb) (user : User) (ip : String) : AccountDb × TokenResponse :=
  ({ acc with auditLogs := acc.auditLogs ++ [⟨user.id, "login", ip⟩] },
    ⟨⟨user.id.repr, user.role⟩, user.role, user.username, user.fullName⟩)

/-- LDAP decides about this name. -/
def Server.takesLdap (server : Server) (users : Users) (username : String) : Bool :=
  server.ldapEnabled && (users.active username).all fun u => u.isLdap

/-- The check of the stored hash. -/
def localLogin (b : Bcrypt) (users : Users) (req : LoginRequest) : Except HttpError User :=
  match users.active req.username with
  | none => .error ⟨401, "Incorrect username or password"⟩
  | some user =>
    if user.hashedPassword.getD "" = "" then
      .error ⟨401, "Account not configured — contact admin"⟩
    else if ¬ verifyPassword b req.password user.hashedPassword then
      .error ⟨401, "Incorrect username or password"⟩
    else .ok user

/-- `login`. -/
def login (b : Bcrypt) (server : Server) (acc : AccountDb) (req : LoginRequest) :
    Except HttpError (AccountDb × TokenResponse) :=
  if ¬ IsText req.username then .error serverError
  else if server.takesLdap acc.users req.username then
    match doLdapLogin server acc.users req with
    | .error (.http e) => .error e
    | .error .raised => .error ⟨401, "LDAP authentication failed"⟩
    | .ok (users, user) => .ok (issueToken { acc with users } user req.ip)
  else
    match localLogin b acc.users req with
    | .error e => .error e
    | .ok user => .ok (issueToken acc user req.ip)

/-! ## The ways in -/

/-- The directory accepts the credentials as those of this user. -/
def Server.Accepts (server : Server) (req : LoginRequest) (ldapUser : LdapUser) : Prop :=
  authenticate server.ldapUserFilter server.directory req.username req.password =
    .ok (some ldapUser)

theorem Server.Accepts.unique {server : Server} {req : LoginRequest} {x y : LdapUser}
    (hx : server.Accepts req x) (hy : server.Accepts req y) : x = y := by
  unfold Server.Accepts at hx hy
  rw [hx] at hy
  cases hy
  rfl

/-- A successful login. -/
inductive LogsIn (b : Bcrypt) (server : Server) (acc : AccountDb) (req : LoginRequest) :
    AccountDb × TokenResponse → Prop
  | password {user : User} {hash : String} :
      server.takesLdap acc.users req.username = false →
      acc.users.active req.username = some user → user.hashedPassword = some hash → hash ≠ "" →
      b.checkpw req.password hash = some true →
      LogsIn b server acc req (issueToken acc user req.ip)
  | existing {ldapUser : LdapUser} {user : User} :
      server.takesLdap acc.users req.username = true → server.Accepts req ldapUser →
      acc.users.named req.username = some user →
      LogsIn b server acc req
        (issueToken { acc with users := acc.users.assign user.id (server.roleOf ldapUser) }
          (assignRole (server.roleOf ldapUser) user) req.ip)
  | created {ldapUser : LdapUser} {users : Users} :
      server.takesLdap acc.users req.username = true → server.Accepts req ldapUser →
      acc.users.named req.username = none →
      acc.users.insert (provisioned req.username ldapUser (server.roleOf ldapUser)) =
        some users →
      LogsIn b server acc req
        (issueToken { acc with users }
          (Users.userRow acc.users.table.next
            (provisioned req.username ldapUser (server.roleOf ldapUser))) req.ip)

section Login

variable {b : Bcrypt} {server : Server} {acc : AccountDb} {req : LoginRequest}

theorem localLogin_eq_ok_iff {user : User} :
    localLogin b acc.users req = .ok user ↔ acc.users.active req.username = some user ∧
      ∃ hash, user.hashedPassword = some hash ∧ hash ≠ "" ∧
        b.checkpw req.password hash = some true := by
  unfold localLogin
  cases hactive : acc.users.active req.username with
  | none =>
    refine ⟨?_, ?_⟩
    · intro h
      cases h
    · intro h
      cases h.1
  | some u =>
    dsimp only
    refine ⟨?_, ?_⟩
    · intro h
      split at h
      · cases h
      rename_i hne
      split at h
      · cases h
      rename_i hverify
      cases h
      obtain ⟨hash, hhash, hcheck⟩ := verifyPassword_eq_true_iff.mp (not_not.mp hverify)
      rw [hhash] at hne
      exact ⟨rfl, hash, hhash, hne, hcheck⟩
    · rintro ⟨heq, hash, hhash, hne, hcheck⟩
      cases heq
      have hverify := verifyPassword_eq_true_iff.mpr ⟨hash, hhash, hcheck⟩
      rw [if_neg (by rw [hhash]; exact hne), if_neg (not_not.mpr hverify)]

theorem isText_of_named {users : Users} {username : String} {user : User}
    (h : users.named username = some user) : IsText username := by
  obtain ⟨hmem, rfl⟩ := Users.named_eq_some_iff.mp h
  exact (users.admissible.2.2 user hmem).1.2

theorem named_of_active {users : Users} {username : String} {user : User}
    (h : users.active username = some user) :
    users.named username = some user ∧ user.isActive = true := by
  rw [Users.active_eq, Option.filter_eq_some_iff] at h
  exact h

theorem isText_of_insert {users users' : Users} {u : NewUser} (h : users.insert u = some users') :
    IsText u.username := by
  have hmem : Users.userRow users.table.next u ∈ users'.rows := by
    rw [Users.rows_of_insert h]
    exact List.mem_append_right _ (List.mem_singleton_self _)
  exact (users'.admissible.2.2 _ hmem).1.2

/-- What the LDAP login returns for accepted credentials. -/
theorem doLdapLogin_of_accepts {users : Users} {ldapUser : LdapUser}
    (h : server.Accepts req ldapUser) :
    (∀ {user}, users.named req.username = some user → doLdapLogin server users req =
      .ok (users.assign user.id (server.roleOf ldapUser),
        assignRole (server.roleOf ldapUser) user)) ∧
    (∀ {users'}, users.named req.username = none →
      users.insert (provisioned req.username ldapUser (server.roleOf ldapUser)) = some users' →
      doLdapLogin server users req = .ok (users', Users.userRow users.table.next
        (provisioned req.username ldapUser (server.roleOf ldapUser)))) := by
  unfold Server.Accepts at h
  refine ⟨?_, ?_⟩
  · intro user hnamed
    rw [doLdapLogin, h]
    dsimp only
    rw [hnamed]
  · intro users' hnamed hinsert
    rw [doLdapLogin, h]
    dsimp only
    rw [hnamed]
    dsimp only
    rw [hinsert]

theorem exists_of_doLdapLogin {users : Users} {result : Users × User}
    (h : doLdapLogin server users req = .ok result) :
    ∃ ldapUser, server.Accepts req ldapUser ∧
      ((∃ user, users.named req.username = some user ∧
        result = (users.assign user.id (server.roleOf ldapUser),
          assignRole (server.roleOf ldapUser) user)) ∨
      (users.named req.username = none ∧ ∃ users',
        users.insert (provisioned req.username ldapUser (server.roleOf ldapUser)) = some users' ∧
        result = (users', Users.userRow users.table.next
          (provisioned req.username ldapUser (server.roleOf ldapUser))))) := by
  unfold doLdapLogin at h
  split at h
  · cases h
  · cases h
  rename_i ldapUser hauth
  refine ⟨ldapUser, hauth, ?_⟩
  dsimp only at h
  split at h
  · rename_i hnamed
    split at h
    · cases h
    rename_i users' hinsert
    cases h
    exact Or.inr ⟨hnamed, users', hinsert, rfl⟩
  · rename_i user hnamed
    cases h
    exact Or.inl ⟨user, hnamed, rfl⟩

/-- **The ways in** are the three of `LogsIn`. -/
theorem login_eq_ok_iff {result : AccountDb × TokenResponse} :
    login b server acc req = .ok result ↔ LogsIn b server acc req result := by
  refine ⟨?_, ?_⟩
  · intro h
    unfold login at h
    split at h
    · cases h
    split at h
    · rename_i htakes
      split at h
      · cases h
      · cases h
      rename_i hldap
      cases h
      obtain ⟨ldapUser, haccepts, hfound⟩ := exists_of_doLdapLogin hldap
      rcases hfound with ⟨user, hnamed, heq⟩ | ⟨hnamed, users', hinsert, heq⟩
      · cases heq
        exact .existing htakes haccepts hnamed
      · cases heq
        exact .created htakes haccepts hnamed hinsert
    · rename_i htakes
      split at h
      · cases h
      rename_i hlocal
      cases h
      obtain ⟨hactive, hash, hhash, hne, hcheck⟩ := localLogin_eq_ok_iff.mp hlocal
      exact .password (Bool.eq_false_of_not_eq_true htakes) hactive hhash hne hcheck
  · intro h
    unfold login
    cases h with
    | password htakes hactive hhash hne hcheck =>
      have htext := isText_of_named (named_of_active hactive).1
      rw [if_neg (not_not.mpr htext), htakes, if_neg Bool.false_ne_true,
        localLogin_eq_ok_iff.mpr ⟨hactive, _, hhash, hne, hcheck⟩]
    | existing htakes haccepts hnamed =>
      rw [if_neg (not_not.mpr (isText_of_named hnamed)), if_pos htakes,
        (doLdapLogin_of_accepts haccepts).1 hnamed]
    | created htakes haccepts hnamed hinsert =>
      have htext : IsText req.username := isText_of_insert hinsert
      rw [if_neg (not_not.mpr htext), if_pos htakes,
        (doLdapLogin_of_accepts haccepts).2 hnamed hinsert]

end Login

end VsphereCompliance.Accounts
