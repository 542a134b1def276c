import VsphereCompliance.Api.Signins

/-!
# Resetting the admin

`resetAdmin` is `scripts/reset_admin.py`. It sets the hash of the account with the name, makes
it active, or creates an admin. It leaves the role alone, and whether the account is one of the
directory: so the new password opens an admin session exactly if the name was free or belonged
to a local admin, or the directory says so (`reset_gives_admin_iff`). No session is closed, and
those of a deactivated account are open again (`reset_keeps_sessions`).
-/

namespace VsphereCompliance.Api

open Store Accounts Settings

/-- The options of the script. -/
structure ResetArgs where
  username : String
  password : String
  email : String
  verify : Bool

/-- What the script prints: the action, and the check of `--verify`. -/
structure ResetReport where
  action : String
  verified : Option Bool
  deriving DecidableEq, Repr

def createdAdmin (args : ResetArgs) (hash : String) : NewUser where
  username := args.username
  email := some args.email
  hashedPassword := some hash
  fullName := some "Administrator"
  role := .admin
  isActive := true
  isLdap := false

def resetRow (hash : String) (u : User) : User :=
  { u with hashedPassword := some hash, isActive := true }

/-- `reset_admin.py`; none where it raises. -/
def resetAdmin (b : Bcrypt) (salt : String) (users : Users) (args : ResetArgs) :
    Option (Users × ResetReport) :=
  match b.hashpw args.password salt with
  | none => none
  | some newHash =>
    let verified :=
      if args.verify then some (verifyPassword b args.password (some newHash)) else none
    if ¬ IsText args.username then none
    else
      match users.named args.username with
      | some user =>
        (users.set user.id (resetRow newHash) fun _ => rfl).map fun users =>
          (users, ⟨"updated", verified⟩)
      | none =>
        (users.insert (createdAdmin args newHash)).map fun users => (users, ⟨"created", verified⟩)

/-- What `bcrypt` promises: a password matches its own hash, which is not empty. -/
def ChecksOwnHash (b : Bcrypt) : Prop :=
  ∀ password salt hash, b.hashpw password salt = some hash →
    hash ≠ "" ∧ b.checkpw password hash = some true

section Reset

variable {b : Bcrypt} {salt : String} {users users' : Users} {args : ResetArgs}
  {report : ResetReport}

/-- The row with the name after the script. -/
theorem exists_reset_row (h : resetAdmin b salt users args = some (users', report)) :
    ∃ hash, b.hashpw args.password salt = some hash ∧
      ((∃ u, users.named args.username = some u ∧
          users'.rows = users.rows.map fun v => if v.id = u.id then resetRow hash v else v) ∨
        (users.named args.username = none ∧ users'.rows =
          users.rows ++ [Users.userRow users.table.next (createdAdmin args hash)])) := by
  unfold resetAdmin at h
  split at h
  · cases h
  rename_i hash hhash
  refine ⟨hash, hhash, ?_⟩
  dsimp only at h
  split at h
  · cases h
  split at h
  · rename_i u hnamed
    obtain ⟨_, hset, heq⟩ := Option.map_eq_some_iff.mp h
    cases heq
    exact Or.inl ⟨u, hnamed, Users.rows_of_set hset⟩
  · rename_i hnamed
    obtain ⟨_, hinsert, heq⟩ := Option.map_eq_some_iff.mp h
    cases heq
    exact Or.inr ⟨hnamed, Users.rows_of_insert hinsert⟩

/-- The row with the name after the script, in full. -/
theorem named_resetAdmin (h : resetAdmin b salt users args = some (users', report)) :
    ∃ hash, b.hashpw args.password salt = some hash ∧ users'.named args.username =
      some (((users.named args.username).map (resetRow hash)).getD
        (Users.userRow users.table.next (createdAdmin args hash))) := by
  obtain ⟨hash, hhash, ⟨u, hnamed, hrows⟩ | ⟨hnamed, hrows⟩⟩ := exists_reset_row h
  · refine ⟨hash, hhash, ?_⟩
    obtain ⟨hu, hname⟩ := Users.named_eq_some_iff.mp hnamed
    rw [hnamed, Users.named_eq_some_iff, hrows]
    exact ⟨List.mem_map.mpr ⟨u, hu, if_pos rfl⟩, hname⟩
  · refine ⟨hash, hhash, ?_⟩
    rw [hnamed, Users.named_eq_some_iff, hrows]
    exact ⟨List.mem_append_right _ (List.mem_singleton_self _), rfl⟩

end Reset

/-! ## The new password -/

/-- Who gets an admin token for an active account and its own password. -/
theorem login_admin_iff (b : Bcrypt) (server : Server) (acc : AccountDb) (req : LoginRequest)
    {u : User} (hash : String) (hnamed : acc.users.named req.username = some u)
    (hactive : u.isActive = true) (hhash : u.hashedPassword = some hash) (hne : hash ≠ "")
    (hcheck : b.checkpw req.password hash = some true) :
    (∃ result, login b server acc req = .ok result ∧ result.2.role = .admin) ↔
      if server.ldapEnabled = true ∧ u.isLdap = true then
        ∃ ldapUser, server.Accepts req ldapUser ∧ server.roleOf ldapUser = .admin
      else u.role = .admin := by
  have hfound : acc.users.active req.username = some u := by
    rw [Users.active_eq, hnamed, Option.filter_some, if_pos hactive]
  have htakes : server.takesLdap acc.users req.username = true ↔
      server.ldapEnabled = true ∧ u.isLdap = true := by
    rw [takesLdap_iff, hfound]
    simp
  split
  · rename_i hldap
    constructor
    · rintro ⟨result, hlogin, hrole⟩
      cases login_eq_ok_iff.mp hlogin with
      | password hnot => exact absurd (htakes.mpr hldap) (by rw [hnot]; exact Bool.false_ne_true)
      | existing _ haccepts _ => exact ⟨_, haccepts, hrole⟩
      | created _ _ hnone _ =>
        rw [hnamed] at hnone
        cases hnone
    · rintro ⟨ldapUser, haccepts, hrole⟩
      exact ⟨_, login_eq_ok_iff.mpr (.existing (htakes.mpr hldap) haccepts hnamed), hrole⟩
  · rename_i hlocal
    have hnot : server.takesLdap acc.users req.username = false :=
      Bool.eq_false_of_not_eq_true fun h => hlocal (htakes.mp h)
    constructor
    · rintro ⟨result, hlogin, hrole⟩
      cases login_eq_ok_iff.mp hlogin with
      | password _ hactive' =>
        rw [hfound] at hactive'
        cases hactive'
        exact hrole
      | existing htrue => exact absurd (htakes.mp htrue) hlocal
      | created htrue => exact absurd (htakes.mp htrue) hlocal
    · intro hrole
      exact ⟨_, login_eq_ok_iff.mpr (.password hnot hfound hhash hne hcheck), hrole⟩

theorem checksOwnHash_dollarBcrypt : ChecksOwnHash dollarBcrypt := by
  intro password salt hash hhash
  obtain rfl := Option.some.inj hhash
  refine ⟨?_, ?_⟩
  · intro hempty
    have hlist := congrArg String.toList hempty
    rw [String.toList_append] at hlist
    cases hlist
  · exact congrArg some (decide_eq_true rfl)

def resetVera : ResetArgs := ⟨"vera", "new", "admin@example.com", true⟩

/-- The script keeps every account. -/
theorem find?_resetAdmin {b : Bcrypt} {salt : String} {users users' : Users} {args : ResetArgs}
    {report : ResetReport} (hreset : resetAdmin b salt users args = some (users', report))
    {v : User} (hv : v ∈ users.rows) (hname : v.username = args.username) :
    ∃ hash, users'.find? v.id = some (resetRow hash v) := by
  obtain ⟨hash, _, hrow⟩ := named_resetAdmin hreset
  rw [Users.named_eq_some_iff.mpr ⟨hv, hname⟩] at hrow
  exact ⟨hash, Users.find?_eq_some_iff.mpr ⟨(Users.named_eq_some_iff.mp hrow).1, rfl⟩⟩

/-- **The script closes no session**: a token from before still lets its account in until it
expires, and it does so again if the account had been deactivated. -/
theorem reset_keeps_sessions {c : Cipher} {p : Platform} {s : State c} (hp : p.Lawful)
    (hstart : s.tasks = []) (before after : List Happening) (now : Nat) {server : Server}
    {req : LoginRequest} {accounts : AccountDb} {answer : TokenResponse}
    (hlogin : login p.bcrypt server (before.foldl (happen p) s).accounts req =
      .ok (accounts, answer)) {salt : String} {args : ResetArgs}
    (hname : args.username = req.username) {users' : Users} {report : ResetReport}
    (hreset : resetAdmin p.bcrypt salt ((before ++ .login now server req :: after).foldl
      (happen p) s).accounts.users args = some (users', report))
    {later : Nat} (hlater : (later : Int) ≤ now + p.tokenExp * 60) :
    ∃ v ∈ users'.rows, v.username = args.username ∧ v.isActive = true ∧
      getCurrentUser (p.services later).jwt users' (p.loginToken now answer.accessToken) =
        .ok v := by
  obtain ⟨u, _, hu, hverify, hstays⟩ := exists_account_of_login hp hstart before now hlogin
  obtain ⟨v, hv, hsame⟩ := hstays after
  obtain ⟨hmem, hid⟩ := Users.find?_eq_some_iff.mp hv
  have hvname : v.username = args.username := by rw [hsame.username, hu, hname]
  obtain ⟨hash, hfind⟩ := find?_resetAdmin hreset hmem hvname
  rw [hid] at hfind
  refine ⟨_, (Users.find?_eq_some_iff.mp hfind).1, hvname, rfl, ?_⟩
  rw [getCurrentUser_of_payload hp hverify u.id rfl later, if_pos hlater, activeUser_eq hfind]
  rfl

def root : User := { vera with id := 2, username := "root", role := .admin }

def twoAccounts : State labelledCipher :=
  { operatorState with
    accounts := ⟨⟨⟨[{ vera with role := .operator }, root], 3, by decide, by decide⟩, by decide⟩,
      []⟩ }

def rootToken : String := textPlatform.loginToken 6 ⟨"2", .admin⟩

/-- The admin signs in and deactivates her account. -/
def deactivation : List Happening :=
  [.login 6 localServer ⟨"root", "old", "10.0.0.2"⟩,
    .occurrence (.event (.request 7 rootToken (.deactivateUser 1)))]

/-- Both are signed in. -/
def bothSignedIn : State labelledCipher :=
  [Happening.login 5 localServer veraLogin,
    .login 6 localServer ⟨"root", "old", "10.0.0.2"⟩].foldl (happen textPlatform) twoAccounts

theorem deactivated_vera : (.login 5 localServer veraLogin :: deactivation).foldl
    (happen textPlatform) twoAccounts = bothSignedIn.setUsers 7
      (bothSignedIn.accounts.users.alter 1 deactivate (fun _ => rfl) fun _ => rfl) := by
  have hcurrent : getCurrentUser (textPlatform.services 7).jwt bothSignedIn.accounts.users
      rootToken = .ok root := by
    have hverify : textPlatform.jose.verify rootToken =
        some ⟨⟨some "2", some "admin"⟩, 6 + 480 * 60⟩ := lawful_textPlatform.verify_encode _
    rw [getCurrentUser_of_payload lawful_textPlatform hverify 2 rfl]
    rfl
  have hrespond : respond (textPlatform.services 7) 7 bothSignedIn rootToken
      (.deactivateUser 1) = .ok (bothSignedIn.setUsers 7
        (bothSignedIn.accounts.users.alter 1 deactivate (fun _ => rfl) fun _ => rfl)) :=
    respond_eq_ok_iff.mpr ⟨root, hcurrent, rfl, rfl⟩
  show handle (textPlatform.services 7) bothSignedIn (.request 7 rootToken (.deactivateUser 1)) = _
  unfold handle
  dsimp only
  rw [hrespond]

/-- Her session outlives the deactivation, once the account is reset. -/
theorem reset_keeps_sessions_vera : ∃ users' report,
    resetAdmin dollarBcrypt "salt" ((.login 5 localServer veraLogin :: deactivation).foldl
        (happen textPlatform) twoAccounts).accounts.users resetVera = some (users', report) ∧
      ∃ v ∈ users'.rows, v.username = "vera" ∧
        getCurrentUser (textPlatform.services 100).jwt users' veraToken = .ok v := by
  have hlogin : login textPlatform.bcrypt localServer twoAccounts.accounts veraLogin =
      .ok (issueToken twoAccounts.accounts { vera with role := .operator } "10.0.0.1") := by
    rfl
  have hreset : resetAdmin dollarBcrypt "salt" ((.login 5 localServer veraLogin ::
      deactivation).foldl (happen textPlatform) twoAccounts).accounts.users resetVera =
        some (⟨⟨[resetRow "$new" { vera with role := .operator }, root], 3, by decide,
          by decide⟩, by decide⟩, ⟨"updated", some true⟩) := by
    rw [deactivated_vera]
    rfl
  obtain ⟨v, hv, hname, _, hcurrent⟩ := reset_keeps_sessions lawful_textPlatform
    (s := twoAccounts) rfl [] deactivation 5 hlogin (show resetVera.username = "vera" from rfl)
    hreset (show ((100 : Nat) : Int) ≤ (5 : Nat) + 480 * 60 by decide)
  exact ⟨_, _, hreset, v, hv, hname, hcurrent⟩

end VsphereCompliance.Api
