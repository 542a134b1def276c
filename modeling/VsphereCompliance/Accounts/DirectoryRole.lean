import VsphereCompliance.Accounts.Authority

/-!
# Roles from the groups of the directory

The settings name one group for admins and one for operators by their DNs, and the role of an
LDAP login should be that of the first of the two that the user is a member of
(`Server.memberRole`). `map_role_from_groups` looks for the DN as a part of the DNs of the user's
groups. So a group whose DN merely contains a configured one counts as that group, and the stored
role is the right one exactly when no such group decides (`stored_role_iff`).
-/

namespace VsphereCompliance.Accounts

open Store Ldap

/-! ## The role of a member -/

/-- The group is configured, and a group of the user has its DN, ignoring case. -/
def Server.Member (server : Server) (groups : List String) (groupDn : String) : Prop :=
  groupDn ≠ "" ∧ ∃ g ∈ groups, server.lower g = server.lower groupDn

/-- The group is configured, and the DN of a group of the user contains its DN. -/
def Server.Matches (server : Server) (groups : List String) (groupDn : String) : Prop :=
  groupDn ≠ "" ∧ ∃ g ∈ groups, (server.lower groupDn).toList <:+: (server.lower g).toList

instance (server : Server) (groups : List String) (groupDn : String) :
    Decidable (server.Member groups groupDn) := inferInstanceAs (Decidable (_ ∧ _))

instance (server : Server) (groups : List String) (groupDn : String) :
    Decidable (server.Matches groups groupDn) := inferInstanceAs (Decidable (_ ∧ _))

/-- The role that the memberships give. -/
def Server.memberRole (server : Server) (groups : List String) : UserRole :=
  if server.Member groups server.ldapGroupAdmin then .admin
  else if server.Member groups server.ldapGroupOperator then .operator
  else .viewer

/-- No group of the user contains the DN, unless one has it. -/
def Server.NoLookalike (server : Server) (groups : List String) (groupDn : String) : Prop :=
  server.Matches groups groupDn → server.Member groups groupDn

/-- No group that merely contains a configured DN decides: none the DN of the admins, and for a
user who is no admin none the DN of the operators. -/
def Server.Unmistaken (server : Server) (groups : List String) : Prop :=
  server.NoLookalike groups server.ldapGroupAdmin ∧
    (server.Member groups server.ldapGroupAdmin ∨
      server.NoLookalike groups server.ldapGroupOperator)

section Role

variable {server : Server} {groups : List String}

theorem Server.Member.matches {groupDn : String} (h : server.Member groups groupDn) :
    server.Matches groups groupDn := by
  obtain ⟨hconfigured, g, hg, heq⟩ := h
  exact ⟨hconfigured, g, hg, heq ▸ List.infix_refl _⟩

/-- The loop over the mapping of two groups. -/
theorem Server.roleOf_eq (server : Server) (ldapUser : LdapUser) :
    server.roleOf ldapUser =
      if server.Matches ldapUser.groups server.ldapGroupAdmin then .admin
      else if server.Matches ldapUser.groups server.ldapGroupOperator then .operator
      else .viewer := rfl

/-- **The two comparisons agree** exactly when no lookalike decides. -/
theorem Server.roleOf_eq_memberRole_iff (server : Server) (ldapUser : LdapUser) :
    server.roleOf ldapUser = server.memberRole ldapUser.groups ↔
      server.Unmistaken ldapUser.groups := by
  rw [roleOf_eq]
  unfold memberRole Unmistaken NoLookalike
  by_cases hadmin : server.Member ldapUser.groups server.ldapGroupAdmin
  · simp [hadmin, hadmin.matches]
  · by_cases hlike : server.Matches ldapUser.groups server.ldapGroupAdmin
    · -- an admin by the lookalike
      simp only [hadmin, hlike, if_true, if_false]
      split <;> simp
    · by_cases hoperator : server.Member ldapUser.groups server.ldapGroupOperator
      · simp [hadmin, hlike, hoperator, hoperator.matches]
      · by_cases hother : server.Matches ldapUser.groups server.ldapGroupOperator
        · simp [hadmin, hlike, hoperator, hother]
        · simp [hadmin, hlike, hoperator, hother]

/-- The order of the groups does not matter. -/
theorem Server.roleOf_perm (server : Server) {x y : LdapUser} (h : x.groups.Perm y.groups) :
    server.roleOf x = server.roleOf y := by
  have hmatches : ∀ groupDn, server.Matches x.groups groupDn ↔ server.Matches y.groups groupDn := by
    intro groupDn
    unfold Matches
    simp only [h.mem_iff]
  rw [roleOf_eq, roleOf_eq]
  exact if_congr (hmatches _) rfl (if_congr (hmatches _) rfl rfl)

end Role

/-! ## The stored role -/

/-- The role in the row of the name. -/
def storedRole (acc : AccountDb) (username : String) : Option UserRole :=
  (acc.users.named username).map fun u => u.role

section Login

variable {b : Bcrypt} {server : Server} {acc : AccountDb} {req : LoginRequest}

/-- An LDAP login stores the role that the loop returns. -/
theorem storedRole_of_login {result : AccountDb × TokenResponse} {ldapUser : LdapUser}
    (htakes : server.takesLdap acc.users req.username = true)
    (haccepts : server.Accepts req ldapUser) (h : login b server acc req = .ok result) :
    storedRole result.1 req.username = some (server.roleOf ldapUser) := by
  unfold storedRole
  rw [Option.map_eq_some_iff]
  cases login_eq_ok_iff.mp h with
  | password hlocal => exact absurd (htakes.symm.trans hlocal) (by decide)
  | @existing ldapUser' user _ haccepts' hnamed =>
    obtain rfl := haccepts.unique haccepts'
    obtain ⟨hmem, hname⟩ := Users.named_eq_some_iff.mp hnamed
    refine ⟨assignRole (server.roleOf ldapUser) user, Users.named_eq_some_iff.mpr ⟨?_, hname⟩, rfl⟩
    show _ ∈ (acc.users.assign _ _).rows
    rw [Users.rows_assign]
    exact List.mem_map.mpr ⟨user, hmem, if_pos rfl⟩
  | @created ldapUser' users _ haccepts' _ hinsert =>
    obtain rfl := haccepts.unique haccepts'
    refine ⟨Users.userRow acc.users.table.next
      (provisioned req.username ldapUser (server.roleOf ldapUser)),
        Users.named_eq_some_iff.mpr ⟨?_, rfl⟩, rfl⟩
    show _ ∈ users.rows
    rw [Users.rows_of_insert hinsert]
    exact List.mem_append_right _ (List.mem_singleton_self _)

/-- **An LDAP login stores the role of the memberships** exactly when no group that merely
contains a configured DN decides. -/
theorem stored_role_iff {result : AccountDb × TokenResponse} {ldapUser : LdapUser}
    (htakes : server.takesLdap acc.users req.username = true)
    (haccepts : server.Accepts req ldapUser) (h : login b server acc req = .ok result) :
    storedRole result.1 req.username = some (server.memberRole ldapUser.groups) ↔
      server.Unmistaken ldapUser.groups := by
  rw [storedRole_of_login htakes haccepts h, Option.some.injEq, server.roleOf_eq_memberRole_iff]

end Login

/-! ## A group of another domain -/

/-- The groups of the README; the DNs are in ASCII. -/
def exampleServer (memberOf : List String) : Server :=
  { ldapServer with
    lower := fun s => String.ofList (s.toList.map Char.toLower)
    ldapGroupAdmin := "CN=vcm-admins,OU=Groups,DC=example,DC=com"
    ldapGroupOperator := "CN=vcm-operators,OU=Groups,DC=example,DC=com"
    directory := caseIgnoring [{ alice with memberOf }] fun dn password =>
      if dn = alice.dn ∧ password = "s3cret" then .accepted else .refused }

/-- Her entry with these groups. -/
def aliceOf (memberOf : List String) : Entry := { alice with memberOf }

theorem accepts_example (memberOf : List String) :
    (exampleServer memberOf).Accepts aliceLogin (ldapUser "alice" (aliceOf memberOf)) := by
  refine authenticate_eq_some_iff.mpr ⟨rfl, aliceOf memberOf, ?_, rfl, rfl⟩
  show resolve (configured .hole) (exampleServer memberOf).directory "alice" = _
  rw [resolve_of_plain _ (by decide)]
  rfl

/-- An account is made for her at the first login. -/
theorem login_example (memberOf : List String) :
    ∃ result, login dollarBcrypt (exampleServer memberOf) noAccounts aliceLogin = .ok result := by
  have hroom : noAccounts.users.Insertable (provisioned "alice" (ldapUser "alice"
      (aliceOf memberOf)) ((exampleServer memberOf).roleOf (ldapUser "alice"
        (aliceOf memberOf)))) := by
    refine ⟨fun v hv => absurd hv List.not_mem_nil, fun _ _ v hv => absurd hv List.not_mem_nil, ?_⟩
    show TextsFit ("alice", none, none, some "Alice")
    decide
  obtain ⟨users, husers⟩ := Users.insert_isSome_iff.mpr hroom
  exact ⟨_, login_eq_ok_iff.mpr (.created rfl (accepts_example memberOf) rfl husers)⟩

theorem member_example :
    (exampleServer ["cn=vcm-admins,ou=Groups,dc=example,dc=com"]).Member
      ["cn=vcm-admins,ou=Groups,dc=example,dc=com"] "CN=vcm-admins,OU=Groups,DC=example,DC=com" :=
  ⟨by simp, _, List.mem_singleton_self _, by decide +kernel⟩

theorem stored_role_iff_example :
    ∃ result, login dollarBcrypt
        (exampleServer ["cn=vcm-admins,ou=Groups,dc=example,dc=com"]) noAccounts aliceLogin =
          .ok result ∧ storedRole result.1 "alice" = some .admin := by
  obtain ⟨result, hlogin⟩ := login_example ["cn=vcm-admins,ou=Groups,dc=example,dc=com"]
  have hrole : (exampleServer ["cn=vcm-admins,ou=Groups,dc=example,dc=com"]).memberRole
      ["cn=vcm-admins,ou=Groups,dc=example,dc=com"] = .admin :=
    if_pos member_example
  refine ⟨result, hlogin, hrole ▸ (stored_role_iff rfl (accepts_example _) hlogin).mpr ?_⟩
  exact ⟨fun _ => member_example, Or.inl member_example⟩

/-- A group of the domain `example.community` makes an admin. -/
theorem lookalike_group_makes_admin :
    ∃ result, login dollarBcrypt
        (exampleServer ["CN=vcm-admins,OU=Groups,DC=example,DC=community"]) noAccounts
          aliceLogin = .ok result ∧
      storedRole result.1 "alice" = some .admin ∧
      (exampleServer ["CN=vcm-admins,OU=Groups,DC=example,DC=community"]).memberRole
        ["CN=vcm-admins,OU=Groups,DC=example,DC=community"] = .viewer := by
  obtain ⟨result, hlogin⟩ := login_example ["CN=vcm-admins,OU=Groups,DC=example,DC=community"]
  refine ⟨result, hlogin, ?_, by decide +kernel⟩
  show storedRole result.1 aliceLogin.username = _
  rw [storedRole_of_login rfl (accepts_example _) hlogin]
  decide +kernel

end VsphereCompliance.Accounts
