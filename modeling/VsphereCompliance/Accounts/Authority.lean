import VsphereCompliance.Accounts.Operations
import VsphereCompliance.Ldap.Injection
import VsphereCompliance.Library.Runs

/-!
# Does an account log in by its own authority?

The authority of a local account is its password hash, that of an LDAP account the directory.
`ByOwnAuthority` says of a login that a token is for an active account whose authority accepted
the password, and that a login which must be refused changes no user. `login` asks for an active
user, but `_do_ldap_login` does not: with LDAP enabled, an inactive account whose name the
directory accepts is given a token and a role. A run is free of that exactly when it has no such
login (`login_by_own_authority_iff`).
-/

namespace VsphereCompliance.Accounts

open Store Ldap Runs

/-! ## LDAP accounts have no hash -/

def LdapUnhashed (acc : AccountDb) : Prop :=
  ∀ u ∈ acc.users.rows, u.isLdap = true → u.hashedPassword = none

theorem OnlyLocal.ldapUnhashed {acc : AccountDb} (h : OnlyLocal acc) : LdapUnhashed acc := by
  intro u hu hldap
  rw [h u hu] at hldap
  cases hldap

theorem ldapUnhashed_handle (b : Bcrypt) {acc : AccountDb} (h : LdapUnhashed acc)
    (op : Operation) : LdapUnhashed (handle b acc op) := by
  intro v hv hldap
  have hchange := change_handle b acc op
  generalize (handle b acc op).users.rows = rows at hv hchange
  cases hchange with
  | altered f hsame =>
    obtain ⟨u, hu, rfl⟩ := List.mem_map.mp hv
    rw [(hsame u hu).isLdap] at hldap
    rw [(hsame u hu).hash hldap, h u hu hldap]
  | added u hlocal =>
    rcases List.mem_append.mp hv with hv | hv
    · exact h v hv hldap
    · obtain rfl := List.mem_singleton.mp hv
      rw [hlocal] at hldap
      cases hldap
  | provisioned =>
    rcases List.mem_append.mp hv with hv | hv
    · exact h v hv hldap
    · obtain rfl := List.mem_singleton.mp hv
      rfl

/-! ## The authority of an account -/

/-- The authority of the account accepts the password of the request. -/
def AcceptedByOwn (b : Bcrypt) (server : Server) (req : LoginRequest) (u : User) : Prop :=
  (u.isLdap = false ∧ ∃ hash, u.hashedPassword = some hash ∧
    b.checkpw req.password hash = some true) ∨
  (u.isLdap = true ∧ server.ldapEnabled = true ∧ ∃ ldapUser, server.Accepts req ldapUser)

/-- The account with the name is active and its authority accepts the password, or there is no
account and the directory accepts the credentials. -/
def MayLogin (b : Bcrypt) (server : Server) (acc : AccountDb) (req : LoginRequest) : Prop :=
  (∃ u ∈ acc.users.rows, u.username = req.username ∧ u.isActive = true ∧
    AcceptedByOwn b server req u) ∨
  ((∀ u ∈ acc.users.rows, u.username ≠ req.username) ∧ server.ldapEnabled = true ∧
    ∃ ldapUser, server.Accepts req ldapUser)

/-- What a login does and must not do. -/
structure ByOwnAuthority (b : Bcrypt) (server : Server) (acc : AccountDb) (req : LoginRequest) :
    Prop where
  token : ∀ acc' answer, login b server acc req = .ok (acc', answer) →
    ∃ u ∈ acc'.users.rows, answer.accessToken.sub = u.id.repr ∧ u.isActive = true ∧
      AcceptedByOwn b server req u
  unchanged : ¬ MayLogin b server acc req →
    (handle b acc (.login server req)).users.rows = acc.users.rows

/-- The directory accepts the credentials for the name of an inactive account. -/
def RevivesInactive (server : Server) (acc : AccountDb) (req : LoginRequest) : Prop :=
  server.ldapEnabled = true ∧
    (∃ u ∈ acc.users.rows, u.username = req.username ∧ u.isActive = false) ∧
    ∃ ldapUser, server.Accepts req ldapUser

section Login

variable {b : Bcrypt} {server : Server} {acc : AccountDb} {req : LoginRequest}

theorem active_of_named {u : User} (hnamed : acc.users.named req.username = some u)
    (hactive : u.isActive = true) : acc.users.active req.username = some u := by
  rw [Users.active_eq, hnamed]
  exact if_pos hactive

/-- The row that an LDAP login writes for an account that exists. -/
theorem mem_assign {u : User} (hu : u ∈ acc.users.rows) (role : UserRole) :
    assignRole role u ∈ (acc.users.assign u.id role).rows := by
  rw [Users.rows_assign]
  refine List.mem_map.mpr ⟨u, hu, ?_⟩
  exact if_pos rfl

/-- The directory's token for an inactive account. -/
theorem not_byOwnAuthority_of_revives (h : RevivesInactive server acc req) :
    ¬ ByOwnAuthority b server acc req := by
  obtain ⟨henabled, ⟨u, hu, hname, hinactive⟩, ldapUser, haccepts⟩ := h
  have hnamed := Users.named_eq_some_iff.mpr ⟨hu, hname⟩
  have htakes : server.takesLdap acc.users req.username = true := by
    refine takesLdap_iff.mpr ⟨henabled, ?_⟩
    intro v hv
    obtain ⟨hv, hactive⟩ := named_of_active hv
    rw [hnamed] at hv
    cases hv
    rw [hinactive] at hactive
    cases hactive
  intro hown
  have hlogin := (login_eq_ok_iff (b := b)).mpr (.existing htakes haccepts hnamed)
  obtain ⟨v, hv, hsub, hactive, _⟩ := hown.token _ _ hlogin
  have hid : (assignRole (server.roleOf ldapUser) u).id = v.id := Nat.repr_injective hsub
  obtain rfl := Users.eq_of_id (mem_assign hu _) hv hid
  rw [show (assignRole (server.roleOf ldapUser) u).isActive = u.isActive from rfl,
    hinactive] at hactive
  cases hactive

theorem acceptedByOwn_of_ldap {u : User} {ldapUser : LdapUser} (hldap : u.isLdap = true)
    (htakes : server.takesLdap acc.users req.username = true)
    (haccepts : server.Accepts req ldapUser) : AcceptedByOwn b server req u :=
  Or.inr ⟨hldap, (takesLdap_iff.mp htakes).1, ldapUser, haccepts⟩

/-- An account that logs in through the directory is one of the directory, unless it is
inactive. -/
theorem active_ldap_of_takes (h : ¬ RevivesInactive server acc req)
    (htakes : server.takesLdap acc.users req.username = true) {ldapUser : LdapUser}
    (haccepts : server.Accepts req ldapUser) {u : User}
    (hnamed : acc.users.named req.username = some u) :
    u.isActive = true ∧ u.isLdap = true := by
  obtain ⟨henabled, hldap⟩ := takesLdap_iff.mp htakes
  have hactive : u.isActive = true := by
    by_contra hne
    obtain ⟨hu, hname⟩ := Users.named_eq_some_iff.mp hnamed
    exact h ⟨henabled, ⟨u, hu, hname, Bool.eq_false_of_not_eq_true hne⟩, ldapUser, haccepts⟩
  exact ⟨hactive, hldap u (active_of_named hnamed hactive)⟩

theorem byOwnAuthority_of_not_revives (hunhashed : LdapUnhashed acc)
    (h : ¬ RevivesInactive server acc req) : ByOwnAuthority b server acc req := by
  refine ⟨?_, ?_⟩
  · intro acc' answer hlogin
    cases login_eq_ok_iff.mp hlogin with
    | @password user hash _ hactive hhash _ hcheck =>
      obtain ⟨hnamed, hactive⟩ := named_of_active hactive
      have hu := (Users.named_eq_some_iff.mp hnamed).1
      have hlocal : user.isLdap = false := by
        by_contra hne
        rw [hunhashed user hu (Bool.eq_true_of_not_eq_false hne)] at hhash
        cases hhash
      exact ⟨user, hu, rfl, hactive, Or.inl ⟨hlocal, hash, hhash, hcheck⟩⟩
    | existing htakes haccepts hnamed =>
      obtain ⟨hactive, hldap⟩ := active_ldap_of_takes h htakes haccepts hnamed
      exact ⟨_, mem_assign (Users.named_eq_some_iff.mp hnamed).1 _, rfl, hactive,
        acceptedByOwn_of_ldap hldap htakes haccepts⟩
    | created htakes haccepts _ hinsert =>
      refine ⟨_, ?_, rfl, rfl, acceptedByOwn_of_ldap rfl htakes haccepts⟩
      show _ ∈ Users.rows _
      rw [Users.rows_of_insert hinsert]
      exact List.mem_append_right _ (List.mem_singleton_self _)
  · intro hmay
    unfold handle
    dsimp only
    split
    · rfl
    rename_i hlogin
    cases login_eq_ok_iff.mp hlogin with
    | password => rfl
    | existing htakes haccepts hnamed =>
      obtain ⟨hactive, hldap⟩ := active_ldap_of_takes h htakes haccepts hnamed
      obtain ⟨hu, hname⟩ := Users.named_eq_some_iff.mp hnamed
      exact absurd (Or.inl ⟨_, hu, hname, hactive,
        acceptedByOwn_of_ldap hldap htakes haccepts⟩) hmay
    | created htakes haccepts hnamed =>
      exact absurd (Or.inr ⟨Users.named_eq_none_iff.mp hnamed, (takesLdap_iff.mp htakes).1, _,
        haccepts⟩) hmay

end Login

/-! ## Runs -/

/-- The request is no login, or one by the account's own authority. -/
def OwnAuthority (b : Bcrypt) (acc : AccountDb) : Operation → Prop
  | .login server req => ByOwnAuthority b server acc req
  | _ => True

def NotRevived (acc : AccountDb) : Operation → Prop
  | .login server req => ¬ RevivesInactive server acc req
  | _ => True

/-- **Every login of a run is by the account's own authority** exactly when in none the
directory accepts the name of an inactive account. -/
theorem login_by_own_authority_iff (b : Bcrypt) {acc : AccountDb} (hstart : OnlyLocal acc)
    (ops : List Operation) :
    Throughout (handle b) (OwnAuthority b) acc ops ↔
      Throughout (handle b) NotRevived acc ops := by
  apply Throughout.congr (I := LdapUnhashed)
  · intro s op h
    exact ldapUnhashed_handle b h op
  · intro s op h
    cases op with
    | login server req =>
      exact ⟨fun hown hrevives => not_byOwnAuthority_of_revives hrevives hown,
        byOwnAuthority_of_not_revives h⟩
    | createUser salt payload => exact Iff.rfl
    | updateUser id payload => exact Iff.rfl
    | deactivateUser id => exact Iff.rfl
    | changePassword id salt payload => exact Iff.rfl
  · exact hstart.ldapUnhashed

/-! ## An inactive account with a password of the directory -/

/-- A stand-in for the hash. -/
def dollarBcrypt : Bcrypt where
  hashpw password _ := some ("$" ++ password)
  checkpw password hash := some (hash = "$" ++ password)

def ldapServer : Server where
  ldapEnabled := true
  ldapUserFilter := configured .hole
  ldapGroupAdmin := "CN=Admins"
  ldapGroupOperator := "CN=Operators"
  lower := id
  directory := staff

def noAccounts : AccountDb := ⟨Users.empty, []⟩

theorem onlyLocal_noAccounts : OnlyLocal noAccounts := fun _ hu => absurd hu List.not_mem_nil

def aliceLogin : LoginRequest := ⟨"alice", "s3cret", "10.0.0.5"⟩

theorem accepts_alice : ldapServer.Accepts aliceLogin (ldapUser "alice" alice) := by
  refine authenticate_eq_some_iff.mpr ⟨rfl, alice, ?_, by decide, rfl⟩
  show resolve (configured .hole) staff "alice" = some alice
  rw [resolve_of_plain staff (by decide)]
  decide

/-- An account is made for her at the first login. -/
theorem first_login_by_own_authority :
    Throughout (handle dollarBcrypt) (OwnAuthority dollarBcrypt) noAccounts
      [.login ldapServer aliceLogin] := by
  apply (login_by_own_authority_iff dollarBcrypt onlyLocal_noAccounts _).mpr
  refine ⟨?_, trivial⟩
  rintro ⟨_, ⟨u, hu, _⟩, _⟩
  exact absurd hu List.not_mem_nil

/-- A local account for her, deactivated. -/
def deactivatedAlice : List Operation :=
  [.createUser "salt" ⟨"alice", "local", none, none, .operator⟩, .deactivateUser 1]

def inactiveAlice : User where
  id := 1
  username := "alice"
  email := none
  hashedPassword := some "$local"
  fullName := none
  role := .operator
  isActive := false
  isLdap := false

theorem rows_deactivatedAlice :
    (deactivatedAlice.foldl (handle dollarBcrypt) noAccounts).users.rows = [inactiveAlice] := by
  decide

/-- **The directory's password revives the account**: it gets a token. -/
theorem inactive_account_revived : ¬ Throughout (handle dollarBcrypt)
    (OwnAuthority dollarBcrypt) noAccounts
    (deactivatedAlice ++ [.login ldapServer aliceLogin]) := by
  rintro ⟨_, _, hown, _⟩
  refine not_byOwnAuthority_of_revives ?_ hown
  refine ⟨rfl, ⟨inactiveAlice, ?_, rfl, rfl⟩, _, accepts_alice⟩
  show inactiveAlice ∈ (deactivatedAlice.foldl (handle dollarBcrypt) noAccounts).users.rows
  rw [rows_deactivatedAlice]
  exact List.mem_singleton_self _

end VsphereCompliance.Accounts
