import VsphereCompliance.Accounts.Authority

/-!
# Has a person of the directory one account?

An LDAP account is looked up by the name that was typed, and the directory resolves names on
its own terms, so the entry of an account is what its name resolves to (`Server.entryOf`).
`OneAccount` says that no two LDAP accounts have the same entry, and `DeactivationHolds` that a
deactivated account is the end of its entry's logins. A login under a second spelling of the
name makes a second account: both hold exactly for the runs without such a login
(`one_account_each_iff`).
-/

namespace VsphereCompliance.Accounts

open Store Ldap Runs SearchFilter

/-! ## The entry of an account -/

/-- The entry that the directory finds for a name. -/
def Server.resolves (server : Server) (username : String) : Option Entry :=
  resolve server.ldapUserFilter server.directory username

/-- The entry that an LDAP account was made for. -/
def Server.entryOf (server : Server) (u : User) : Option Entry := server.resolves u.username

/-- The directory accepts the credentials as those of the entry. -/
def Server.AcceptsAs (server : Server) (req : LoginRequest) (entry : Entry) : Prop :=
  server.directory.serviceBind = .bound ∧ server.resolves req.username = some entry ∧
    server.directory.bind entry.dn req.password = .accepted

theorem accepts_iff {server : Server} {req : LoginRequest} {x : LdapUser} :
    server.Accepts req x ↔ ∃ entry, server.AcceptsAs req entry ∧
      x = Ldap.ldapUser req.username entry := by
  unfold Server.Accepts Server.AcceptsAs
  rw [authenticate_eq_some_iff]
  refine ⟨?_, ?_⟩
  · rintro ⟨hbound, entry, hresolve, hbind, hx⟩
    exact ⟨entry, ⟨hbound, hresolve, hbind⟩, hx⟩
  · rintro ⟨entry, ⟨hbound, hresolve, hbind⟩, hx⟩
    exact ⟨hbound, entry, hresolve, hbind, hx⟩

/-- The row for a user of the directory under a name. -/
def Server.newAccount (server : Server) (username : String) (entry : Entry) : NewUser :=
  provisioned username (Ldap.ldapUser username entry)
    (server.roleOf (Ldap.ldapUser username entry))

/-! ## The property -/

/-- No two LDAP accounts are of the same entry. -/
def OneAccount (server : Server) (acc : AccountDb) : Prop :=
  ∀ u ∈ acc.users.rows, ∀ v ∈ acc.users.rows, u.isLdap = true → v.isLdap = true →
    ∀ entry, server.entryOf u = some entry → server.entryOf v = some entry → u = v

/-- The login does not yield an active account. -/
def YieldsInactive (b : Bcrypt) (server : Server) (acc : AccountDb) (req : LoginRequest) : Prop :=
  ∀ acc' answer, login b server acc req = .ok (acc', answer) →
    ∀ v ∈ acc'.users.rows, answer.accessToken.sub = v.id.repr → v.isActive = false

/-- Once the account of an entry is deactivated, and until it is made active again, no login
that the directory decides with the entry's password yields an active account. -/
def DeactivationHolds (b : Bcrypt) (server : Server) (acc : AccountDb) (ops : List Operation) :
    Prop :=
  ∀ before id between req after,
    ops = before ++ .deactivateUser id :: (between ++ .login server req :: after) →
    (∀ op ∈ between, ¬ Reactivates id op) →
    ∀ u ∈ (before.foldl (handle b) acc).users.rows, u.id = id → u.isLdap = true →
    ∀ entry, server.entryOf u = some entry → server.AcceptsAs req entry →
    let now := (before ++ .deactivateUser id :: between).foldl (handle b) acc
    server.takesLdap now.users req.username = true → YieldsInactive b server now req

/-- A login that makes an account for an entry which has one. -/
def SecondSpelling (server : Server) (acc : AccountDb) (req : LoginRequest) : Prop :=
  server.ldapEnabled = true ∧ ∃ entry, server.AcceptsAs req entry ∧
    (∃ u ∈ acc.users.rows, u.isLdap = true ∧ server.entryOf u = some entry) ∧
    acc.users.Insertable (server.newAccount req.username entry)

def FirstSpelling (acc : AccountDb) : Operation → Prop
  | .login server req => ¬ SecondSpelling server acc req
  | _ => True

/-- The settings and the directory do not change. -/
def UsesServer (server : Server) : Operation → Prop
  | .login s _ => s = server
  | _ => True

/-! ## Steps -/

section Steps

variable {b : Bcrypt} {server : Server} {acc : AccountDb} {op : Operation}

theorem OnlyLocal.oneAccount (h : OnlyLocal acc) : OneAccount server acc := by
  intro u hu v _ hldap
  rw [h u hu] at hldap
  cases hldap

/-- A row is still there after a request, as the same account. -/
theorem exists_sameAccount (b : Bcrypt) (op : Operation) {u : User} (hu : u ∈ acc.users.rows) :
    ∃ v ∈ (handle b acc op).users.rows, SameAccount u v ∧
      (¬ Reactivates u.id op → u.isActive = false → v.isActive = false) := by
  have hchange := change_handle b acc op
  generalize (handle b acc op).users.rows = rows at hchange
  cases hchange with
  | altered f hsame hactive =>
    exact ⟨f u, List.mem_map_of_mem hu, hsame u hu, hactive u hu⟩
  | added w => exact ⟨u, List.mem_append_left _ hu, .refl u, fun _ h => h⟩
  | provisioned => exact ⟨u, List.mem_append_left _ hu, .refl u, fun _ h => h⟩

/-- Two accounts of one entry stay two. -/
theorem oneAccount_of_handle (h : OneAccount server (handle b acc op)) :
    OneAccount server acc := by
  intro u hu v hv huldap hvldap entry huentry hventry
  obtain ⟨u', hu', hsameu, _⟩ := exists_sameAccount b op hu
  obtain ⟨v', hv', hsamev, _⟩ := exists_sameAccount b op hv
  have heq : u' = v' := by
    refine h u' hu' v' hv' ?_ ?_ entry ?_ ?_
    · rw [hsameu.isLdap, huldap]
    · rw [hsamev.isLdap, hvldap]
    · rw [Server.entryOf, hsameu.username]
      exact huentry
    · rw [Server.entryOf, hsamev.username]
      exact hventry
  apply Users.eq_of_id hu hv
  rw [← hsameu.id, ← hsamev.id, heq]

/-- A second spelling makes a second account. -/
theorem not_oneAccount_of_second {req : LoginRequest} (h : SecondSpelling server acc req) :
    ¬ OneAccount server (handle b acc (.login server req)) := by
  obtain ⟨henabled, entry, haccepts, ⟨u, hu, hldap, hentry⟩, hinsertable⟩ := h
  have hprovisions : Provisions server acc req (Ldap.ldapUser req.username entry) :=
    ⟨henabled, accepts_iff.mpr ⟨entry, haccepts, rfl⟩, hinsertable⟩
  have hrows := rows_of_provisions b hprovisions
  intro hone
  have heq : u = Users.userRow acc.users.table.next (server.newAccount req.username entry) := by
    refine hone u ?_ _ ?_ hldap rfl entry hentry haccepts.2.1
    · rw [hrows]
      exact List.mem_append_left _ hu
    · rw [hrows]
      exact List.mem_append_right _ (List.mem_singleton_self _)
  exact hinsertable.1 u hu (congrArg (fun v : User => v.username) heq)

theorem SecondSpelling.provisions {req : LoginRequest} (h : SecondSpelling server acc req) :
    ∃ x, Provisions server acc req x := by
  obtain ⟨henabled, entry, haccepts, _, hinsertable⟩ := h
  exact ⟨_, henabled, accepts_iff.mpr ⟨entry, haccepts, rfl⟩, hinsertable⟩

/-- A new account is active. -/
theorem not_yieldsInactive_of_provisions {req : LoginRequest} {x : LdapUser}
    (h : Provisions server acc req x) : ¬ YieldsInactive b server acc req := by
  have hnamed := Users.named_eq_none_iff.mpr h.insertable.1
  obtain ⟨users, hinsert⟩ := Users.insert_isSome_iff.mpr h.insertable
  have hlogin := (login_eq_ok_iff (b := b)).mpr
    (.created (takesLdap_of_unnamed h.enabled hnamed) h.accepts hnamed hinsert)
  have hmem : Users.userRow acc.users.table.next
      (provisioned req.username x (server.roleOf x)) ∈ users.rows := by
    rw [Users.rows_of_insert hinsert]
    exact List.mem_append_right _ (List.mem_singleton_self _)
  intro hyields
  cases hyields _ _ hlogin _ hmem rfl

/-- Every other request leaves one account for each entry. -/
theorem oneAccount_handle (h : OneAccount server acc) (hserver : UsesServer server op)
    (hfirst : FirstSpelling acc op) : OneAccount server (handle b acc op) := by
  have hchange := change_handle b acc op
  unfold OneAccount
  generalize (handle b acc op).users.rows = rows at hchange
  cases hchange with
  | altered f hsame =>
    intro u' hu' v' hv' huldap hvldap entry huentry hventry
    obtain ⟨u, hu, rfl⟩ := List.mem_map.mp hu'
    obtain ⟨v, hv, rfl⟩ := List.mem_map.mp hv'
    rw [(hsame u hu).isLdap] at huldap
    rw [(hsame v hv).isLdap] at hvldap
    rw [Server.entryOf, (hsame u hu).username] at huentry
    rw [Server.entryOf, (hsame v hv).username] at hventry
    rw [h u hu v hv huldap hvldap entry huentry hventry]
  | added w hlocal =>
    intro u hu v hv huldap hvldap
    have hold : ∀ x ∈ acc.users.rows ++ [w], x.isLdap = true → x ∈ acc.users.rows := by
      intro x hx hldap
      rcases List.mem_append.mp hx with hx | hx
      · exact hx
      · obtain rfl := List.mem_singleton.mp hx
        rw [hlocal] at hldap
        cases hldap
    exact h u (hold u hu huldap) v (hold v hv hvldap) huldap hvldap
  | @provisioned s req x hprovisions =>
    obtain rfl : s = server := hserver
    obtain ⟨entry, haccepts, rfl⟩ := accepts_iff.mp hprovisions.accepts
    have hnew : ∀ u ∈ acc.users.rows, u.isLdap = true → s.entryOf u ≠ some entry := by
      intro u hu hldap hentry
      exact hfirst ⟨hprovisions.enabled, entry, haccepts, ⟨u, hu, hldap, hentry⟩,
        hprovisions.insertable⟩
    have hentry : s.resolves req.username = some entry := haccepts.2.1
    intro u hu v hv huldap hvldap entry' huentry hventry
    rcases List.mem_append.mp hu with hu | hu
    · rcases List.mem_append.mp hv with hv | hv
      · exact h u hu v hv huldap hvldap entry' huentry hventry
      · obtain rfl := List.mem_singleton.mp hv
        have heq : some entry = some entry' := hentry.symm.trans hventry
        rw [← heq] at huentry
        exact absurd huentry (hnew u hu huldap)
    · obtain rfl := List.mem_singleton.mp hu
      rcases List.mem_append.mp hv with hv | hv
      · have heq : some entry = some entry' := hentry.symm.trans huentry
        rw [← heq] at hventry
        exact absurd hventry (hnew v hv hvldap)
      · exact (List.mem_singleton.mp hv).symm

end Steps

/-! ## A deactivated account -/

/-- The LDAP account with the id and the name is inactive. -/
def Asleep (id : Nat) (username : String) (acc : AccountDb) : Prop :=
  ∃ u ∈ acc.users.rows, u.id = id ∧ u.username = username ∧ u.isLdap = true ∧ u.isActive = false

section Deactivation

variable {b : Bcrypt} {server : Server} {acc : AccountDb}

theorem rows_handle_deactivate (b : Bcrypt) (acc : AccountDb) (id : Nat) :
    (handle b acc (.deactivateUser id)).users.rows =
      acc.users.rows.map fun u => if u.id = id then deactivate u else u := by
  unfold handle deactivateUser
  dsimp only
  cases hfind : acc.users.find? id with
  | some user => exact Users.rows_alter _ _ deactivate (fun _ => rfl) fun _ => rfl
  | none =>
    show acc.users.rows = _
    conv_lhs => rw [← List.map_id acc.users.rows]
    apply List.map_congr_left
    intro u hu
    have hne : u.id ≠ id := by
      intro hid
      have hsome := Users.find?_eq_some_iff.mpr ⟨hu, hid⟩
      rw [hfind] at hsome
      cases hsome
    exact (if_neg hne).symm

theorem asleep_of_deactivate {u : User} (hu : u ∈ acc.users.rows) (hldap : u.isLdap = true) :
    Asleep u.id u.username (handle b acc (.deactivateUser u.id)) := by
  refine ⟨deactivate u, ?_, rfl, rfl, hldap, rfl⟩
  rw [rows_handle_deactivate]
  exact List.mem_map.mpr ⟨u, hu, if_pos rfl⟩

theorem asleep_handle {id : Nat} {username : String} (h : Asleep id username acc)
    {op : Operation} (hop : ¬ Reactivates id op) : Asleep id username (handle b acc op) := by
  obtain ⟨u, hu, rfl, rfl, hldap, hinactive⟩ := h
  obtain ⟨v, hv, hsame, hactive⟩ := exists_sameAccount b op hu
  refine ⟨v, hv, hsame.id, hsame.username, ?_, hactive hop hinactive⟩
  rw [hsame.isLdap, hldap]

/-- The account stays inactive as long as nobody makes it active. -/
theorem asleep_run {id : Nat} {username : String} {ops : List Operation}
    (h : Asleep id username acc) (hops : ∀ op ∈ ops, ¬ Reactivates id op) :
    Asleep id username (ops.foldl (handle b) acc) := by
  induction ops generalizing acc with
  | nil => exact h
  | cons op ops ih =>
    obtain ⟨hop, hops⟩ := List.forall_mem_cons.mp hops
    exact ih (asleep_handle h hop) hops

/-- The login of an entry whose account is inactive. -/
theorem yieldsInactive_of_asleep {req : LoginRequest} {entry : Entry} {id : Nat}
    {username : String} (hone : OneAccount server acc) (hfirst : ¬ SecondSpelling server acc req)
    (hasleep : Asleep id username acc) (hentry : server.resolves username = some entry)
    (haccepts : server.AcceptsAs req entry)
    (htakes : server.takesLdap acc.users req.username = true) :
    YieldsInactive b server acc req := by
  obtain ⟨u, hu, _, rfl, hldap, hinactive⟩ := hasleep
  intro acc' answer hlogin v hv hsub
  cases login_eq_ok_iff.mp hlogin with
  | password hnot =>
    rw [htakes] at hnot
    cases hnot
  | @existing x user _ _ hnamed =>
    obtain ⟨huser, hname⟩ := Users.named_eq_some_iff.mp hnamed
    have huser' : user.isActive = false := by
      by_contra hne
      have hactive := Bool.eq_true_of_not_eq_false hne
      have hinLdap := (takesLdap_iff.mp htakes).2 user (active_of_named hnamed hactive)
      have huserEntry : server.entryOf user = some entry := by
        rw [Server.entryOf, hname]
        exact haccepts.2.1
      obtain rfl := hone user huser u hu hinLdap hldap entry huserEntry hentry
      rw [hinactive] at hactive
      cases hactive
    have hid : (assignRole (server.roleOf x) user).id = v.id := Nat.repr_injective hsub
    obtain rfl := Users.eq_of_id (mem_assign huser _) hv hid
    exact huser'
  | @created x users _ hx hnamed hinsert =>
    obtain ⟨entry', haccepts', rfl⟩ := accepts_iff.mp hx
    have heq : some entry = some entry' := haccepts.2.1.symm.trans haccepts'.2.1
    obtain rfl := Option.some.inj heq
    exact absurd ⟨(takesLdap_iff.mp htakes).1, entry, haccepts, ⟨u, hu, hldap, hentry⟩,
      Users.insert_isSome_iff.mp ⟨_, hinsert⟩⟩ hfirst

end Deactivation

/-! ## Runs -/

section Runs

variable {b : Bcrypt} {server : Server} {acc : AccountDb} {ops : List Operation}

/-- One account for each entry at the end means that no login was a second spelling. -/
theorem firstSpelling_of_oneAccount (hserver : ∀ op ∈ ops, UsesServer server op)
    (h : OneAccount server (ops.foldl (handle b) acc)) :
    OneAccount server acc ∧ Throughout (handle b) FirstSpelling acc ops := by
  induction ops generalizing acc with
  | nil => exact ⟨h, trivial⟩
  | cons op ops ih =>
    obtain ⟨hop, hserver⟩ := List.forall_mem_cons.mp hserver
    obtain ⟨hone, hrest⟩ := ih hserver h
    refine ⟨oneAccount_of_handle hone, ?_, hrest⟩
    cases op with
    | login s req =>
      obtain rfl : s = server := hop
      exact fun hsecond => not_oneAccount_of_second hsecond hone
    | createUser salt payload => exact trivial
    | updateUser id payload => exact trivial
    | deactivateUser id => exact trivial
    | changePassword id salt payload => exact trivial

theorem oneAccount_run (h : OneAccount server acc) (hserver : ∀ op ∈ ops, UsesServer server op)
    (hfirst : Throughout (handle b) FirstSpelling acc ops) :
    OneAccount server (ops.foldl (handle b) acc) := by
  induction ops generalizing acc with
  | nil => exact h
  | cons op ops ih =>
    obtain ⟨hop, hserver⟩ := List.forall_mem_cons.mp hserver
    exact ih (oneAccount_handle h hop hfirst.1) hserver hfirst.2

theorem deactivationHolds_run (h : OneAccount server acc)
    (hserver : ∀ op ∈ ops, UsesServer server op)
    (hfirst : Throughout (handle b) FirstSpelling acc ops) :
    DeactivationHolds b server acc ops := by
  rintro before id between req after rfl hbetween u hu rfl hldap entry hentry haccepts
  intro now htakes
  have hsplit : before ++ Operation.deactivateUser u.id :: (between ++ .login server req :: after)
      = (before ++ .deactivateUser u.id :: between) ++ .login server req :: after := by
    rw [List.append_assoc, List.cons_append]
  rw [hsplit] at hserver hfirst
  obtain ⟨hfirst, hlast, _⟩ := (throughout_append _ _).mp hfirst
  have hone : OneAccount server now :=
    oneAccount_run h (fun op hop => hserver op (List.mem_append_left _ hop)) hfirst
  have hasleep : Asleep u.id u.username now := by
    show Asleep _ _ ((before ++ .deactivateUser u.id :: between).foldl (handle b) acc)
    rw [List.foldl_append, List.foldl_cons]
    exact asleep_run (asleep_of_deactivate hu hldap) hbetween
  exact yieldsInactive_of_asleep hone hlast hasleep hentry haccepts htakes

/-- **Each person has one account, and deactivating it holds,** exactly when no login of the
run comes under a second spelling. -/
theorem one_account_each_iff (hstart : OnlyLocal acc)
    (hserver : ∀ op ∈ ops, UsesServer server op) :
    OneAccount server (ops.foldl (handle b) acc) ∧ DeactivationHolds b server acc ops ↔
      Throughout (handle b) FirstSpelling acc ops := by
  refine ⟨fun h => (firstSpelling_of_oneAccount hserver h.1).2, ?_⟩
  intro h
  have hone : OneAccount server acc := hstart.oneAccount
  exact ⟨oneAccount_run hone hserver h, deactivationHolds_run hone hserver h⟩

/-- A second spelling right after the deactivation. -/
theorem second_after_deactivation {req₁ req₂ : LoginRequest} {u : User} {id : Nat} {entry : Entry}
    (hu : u ∈ (handle b acc (.login server req₁)).users.rows) (hid : u.id = id)
    (hldap : u.isLdap = true) (hentry : server.entryOf u = some entry)
    (haccepts : server.AcceptsAs req₂ entry)
    (hsecond : SecondSpelling server
      (handle b (handle b acc (.login server req₁)) (.deactivateUser id)) req₂) :
    ¬ OneAccount server ([.login server req₁, .deactivateUser id, .login server req₂].foldl
      (handle b) acc) ∧
    ¬ DeactivationHolds b server acc
      [.login server req₁, .deactivateUser id, .login server req₂] := by
  refine ⟨not_oneAccount_of_second hsecond, ?_⟩
  intro hholds
  obtain ⟨x, hprovisions⟩ := hsecond.provisions
  have htakes := takesLdap_of_unnamed hprovisions.enabled
    (Users.named_eq_none_iff.mpr hprovisions.insertable.1)
  apply not_yieldsInactive_of_provisions (b := b) hprovisions
  exact hholds [.login server req₁] id [] req₂ [] rfl
    (fun _ hop => absurd hop List.not_mem_nil) u hu hid hldap entry hentry haccepts htakes

end Runs

/-! ## Two spellings of a name -/

/-- The password of the entry under a name. -/
def loginAs (username : String) : LoginRequest := ⟨username, "s3cret", "10.0.0.5"⟩

theorem accepts_both : ldapServer.AcceptsAs (loginAs "Alice") alice ∧
    ldapServer.AcceptsAs (loginAs "alice") alice := by
  refine ⟨⟨rfl, ?_, by decide⟩, rfl, ?_, by decide⟩
  · show resolve (configured .hole) staff "Alice" = some alice
    rw [resolve_of_plain staff (by decide)]
    decide
  · show resolve (configured .hole) staff "alice" = some alice
    rw [resolve_of_plain staff (by decide)]
    decide

/-- One login and a deactivation. -/
theorem one_account_for_alice :
    OneAccount ldapServer ([.login ldapServer (loginAs "Alice"), .deactivateUser 1].foldl
      (handle dollarBcrypt) noAccounts) ∧
    DeactivationHolds dollarBcrypt ldapServer noAccounts
      [.login ldapServer (loginAs "Alice"), .deactivateUser 1] := by
  refine (one_account_each_iff onlyLocal_noAccounts ?_).mpr ⟨?_, trivial, trivial⟩
  · intro op hop
    rcases List.mem_cons.mp hop with rfl | hop
    · rfl
    · obtain rfl := List.mem_singleton.mp hop
      exact trivial
  · rintro ⟨_, _, _, ⟨u, hu, _⟩, _⟩
    exact absurd hu List.not_mem_nil

theorem provisions_Alice : Provisions ldapServer noAccounts (loginAs "Alice")
    (Ldap.ldapUser "Alice" alice) := by
  refine ⟨rfl, accepts_iff.mpr ⟨alice, accepts_both.1, rfl⟩, ?_, ?_, by decide⟩
  · intro v hv
    exact absurd hv List.not_mem_nil
  · intro _ _ v hv
    exact absurd hv List.not_mem_nil

def accountOfAlice : User := Users.userRow 1 (ldapServer.newAccount "Alice" alice)

theorem rows_firstLogin : (handle dollarBcrypt noAccounts
    (.login ldapServer (loginAs "Alice"))).users.rows = [accountOfAlice] := by
  rw [rows_of_provisions _ provisions_Alice]
  rfl

/-- Her account is made under `Alice` and deactivated. -/
theorem rows_deactivated : (handle dollarBcrypt (handle dollarBcrypt noAccounts
    (.login ldapServer (loginAs "Alice"))) (.deactivateUser 1)).users.rows =
      [deactivate accountOfAlice] := by
  rw [rows_handle_deactivate, rows_firstLogin]
  rfl

/-- With no other account than that, `alice` is a second spelling. -/
theorem secondSpelling_alice {acc : AccountDb}
    (hrows : acc.users.rows = [deactivate accountOfAlice]) :
    SecondSpelling ldapServer acc (loginAs "alice") := by
  refine ⟨rfl, alice, accepts_both.2, ⟨deactivate accountOfAlice, ?_, rfl,
    accepts_both.1.2.1⟩, ?_, ?_, by decide⟩
  · rw [hrows]
    exact List.mem_singleton_self _
  · rw [hrows]
    intro v hv
    obtain rfl := List.mem_singleton.mp hv
    decide
  · intro email hemail
    cases hemail

/-- **The second spelling gets an account of its own**, although the first one is
deactivated. -/
theorem second_spelling_has_own_account :
    ¬ OneAccount ldapServer ([.login ldapServer (loginAs "Alice"), .deactivateUser 1,
      .login ldapServer (loginAs "alice")].foldl (handle dollarBcrypt) noAccounts) ∧
    ¬ DeactivationHolds dollarBcrypt ldapServer noAccounts
      [.login ldapServer (loginAs "Alice"), .deactivateUser 1,
        .login ldapServer (loginAs "alice")] := by
  have hmem : accountOfAlice ∈ (handle dollarBcrypt noAccounts
      (.login ldapServer (loginAs "Alice"))).users.rows := by
    rw [rows_firstLogin]
    exact List.mem_singleton_self _
  exact second_after_deactivation hmem rfl rfl accepts_both.1.2.1 accepts_both.2
    (secondSpelling_alice rows_deactivated)

end VsphereCompliance.Accounts
