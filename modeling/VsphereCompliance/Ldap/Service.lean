import VsphereCompliance.Library.FilterTemplate

/-!
# Authenticating against the directory

`authenticate` is `LDAPService.authenticate`: it searches for the user with the configured
filter, the placeholder `{username}` replaced by the name, and binds as the first entry found.
The directory is a parameter. It reads a filter as RFC 4515 does, with white space around a value
as part of the value (the client library of the service strips it), and an equality assertion on
`sAMAccountName` is true of the entries with a value that the directory takes for the same name.
-/

namespace VsphereCompliance.Ldap

open SearchFilter TextReplace

/-- An entry with the attributes that the search asks for. `displayName` and `mail` stand for
`str(...)` of the attribute where the entry has it. -/
structure Entry where
  dn : String
  sAMAccountName : List String
  cn : String
  displayName : Option String
  mail : Option String
  memberOf : List String
  deriving DecidableEq, Repr

/-- How opening the connection of the service account goes; `raised` also stands for a search
that fails on the server. -/
inductive ServiceBind
  | bound
  | bindError
  | raised
  deriving DecidableEq, Repr

/-- How `user_conn.bind()` ends: true, false or a bind error, or another exception. -/
inductive UserBind
  | accepted
  | refused
  | raised
  deriving DecidableEq, Repr

def sAMAccountName : List Char := "sAMAccountName".toList

/-- A directory; `entries` are the entries under the base in the order of its answers. -/
structure Directory where
  serviceBind : ServiceBind
  entries : List Entry
  holds : Entry → Item → Option Bool
  sameName : String → List UInt8 → Bool
  holds_name : ∀ entry octets,
    holds entry (.compare sAMAccountName .equal octets) = some true ↔
      ∃ name ∈ entry.sAMAccountName, sameName name octets = true
  bind : String → String → UserBind

/-- The dictionary that `authenticate` returns. -/
structure LdapUser where
  username : String
  fullName : String
  email : Option String
  groups : List String
  dn : String
  deriving DecidableEq, Repr

/-! ## The search -/

def placeholder : List Char := "{username}".toList

/-- `user_search_filter or "(sAMAccountName={username})"`. -/
def userSearchFilter (configured : List Char) : List Char :=
  if configured = [] then "(sAMAccountName={username})".toList else configured

/-- `search_filter`. -/
def searchFilter (configured username : List Char) : List Char :=
  replace placeholder username (userSearchFilter configured)

/-- The entries that a filter selects. -/
def Directory.search (dir : Directory) (filter : Filter) : List Entry :=
  dir.entries.filter fun entry => filter.eval (dir.holds entry) = some true

def ldapUser (username : String) (entry : Entry) : LdapUser where
  username := username
  fullName := entry.displayName.getD entry.cn
  email := entry.mail
  groups := entry.memberOf
  dn := entry.dn

/-- Bind as the first entry found. -/
def bindFirst (dir : Directory) (username password : String) :
    List Entry → Except Unit (Option LdapUser)
  | [] => .ok none
  | entry :: _ =>
    match dir.bind entry.dn password with
    | .accepted => .ok (some (ldapUser username entry))
    | .refused => .ok none
    | .raised => .error ()

/-- `LDAPService.authenticate`; an error where it raises. -/
def authenticate (configured : List Char) (dir : Directory) (username password : String) :
    Except Unit (Option LdapUser) :=
  match dir.serviceBind with
  | .bindError => .ok none
  | .raised => .error ()
  | .bound =>
    match parse (searchFilter configured username.toList) with
    | none => .error ()
    | some filter => bindFirst dir username password (dir.search filter)

/-! ## What a successful authentication rests on -/

/-- The entry that the name is resolved to. -/
def resolve (configured : List Char) (dir : Directory) (username : String) : Option Entry :=
  (parse (searchFilter configured username.toList)).bind fun filter => (dir.search filter).head?

theorem bindFirst_of_not_accepted {dir : Directory} {username password : String} {entry : Entry}
    (h : dir.bind entry.dn password ≠ .accepted) (rest : List Entry) (user : LdapUser) :
    bindFirst dir username password (entry :: rest) ≠ .ok (some user) := by
  rw [bindFirst]
  cases hbind : dir.bind entry.dn password with
  | accepted => exact absurd hbind h
  | refused =>
    intro hok
    cases hok
  | raised =>
    intro hok
    cases hok

theorem bindFirst_eq_some_iff {dir : Directory} {username password : String}
    {entries : List Entry} {user : LdapUser} :
    bindFirst dir username password entries = .ok (some user) ↔
      ∃ entry, entries.head? = some entry ∧ dir.bind entry.dn password = .accepted ∧
        user = ldapUser username entry := by
  cases entries with
  | nil =>
    refine ⟨?_, ?_⟩
    · intro h
      cases h
    · intro h
      obtain ⟨_, hhead, _⟩ := h
      cases hhead
  | cons entry rest =>
    by_cases hbind : dir.bind entry.dn password = .accepted
    · rw [bindFirst, hbind, List.head?_cons]
      refine ⟨?_, ?_⟩
      · intro h
        cases h
        exact ⟨entry, rfl, hbind, rfl⟩
      · intro h
        obtain ⟨_, hhead, _, rfl⟩ := h
        cases hhead
        rfl
    · refine ⟨fun h => absurd h (bindFirst_of_not_accepted hbind rest user), ?_⟩
      intro h
      obtain ⟨_, hhead, haccepted, _⟩ := h
      cases hhead
      exact absurd haccepted hbind

/-- **A name is authenticated as the entry it is resolved to**, with the password of that
entry. -/
theorem authenticate_eq_some_iff {configured : List Char} {dir : Directory}
    {username password : String} {user : LdapUser} :
    authenticate configured dir username password = .ok (some user) ↔
      dir.serviceBind = .bound ∧ ∃ entry, resolve configured dir username = some entry ∧
        dir.bind entry.dn password = .accepted ∧ user = ldapUser username entry := by
  unfold authenticate resolve
  cases dir.serviceBind with
  | bindError =>
    refine ⟨?_, ?_⟩
    · intro h
      cases h
    · intro h
      cases h.1
  | raised =>
    refine ⟨?_, ?_⟩
    · intro h
      cases h
    · intro h
      cases h.1
  | bound =>
    cases parse (searchFilter configured username.toList) with
    | none =>
      refine ⟨?_, ?_⟩
      · intro h
        cases h
      · intro h
        obtain ⟨_, _, hresolve, _⟩ := h
        cases hresolve
    | some filter =>
      dsimp only
      rw [bindFirst_eq_some_iff, Option.bind_some]
      exact ⟨fun h => ⟨rfl, h⟩, fun h => h.2⟩

/-- A resolved entry is one of the directory that the filter selects. -/
theorem mem_of_resolve {configured : List Char} {dir : Directory} {username : String}
    {entry : Entry} (h : resolve configured dir username = some entry) :
    ∃ filter, parse (searchFilter configured username.toList) = some filter ∧
      entry ∈ dir.entries ∧ filter.eval (dir.holds entry) = some true := by
  obtain ⟨filter, hparse, hhead⟩ := Option.bind_eq_some_iff.mp h
  obtain ⟨hmem, heval⟩ := List.mem_filter.mp (List.mem_of_mem_head? hhead)
  exact ⟨filter, hparse, hmem, of_decide_eq_true heval⟩

/-! ## A directory that ignores case -/

/-- The octets with capital ASCII letters made small. -/
def foldCase (octets : List UInt8) : List UInt8 :=
  octets.map fun b => if 65 ≤ b ∧ b ≤ 90 then b + 32 else b

/-- Names are compared by `caseIgnoreMatch`; other attributes are not known. -/
def caseIgnoring (entries : List Entry) (bind : String → String → UserBind) : Directory where
  serviceBind := .bound
  entries := entries
  holds entry
    | .compare attr .equal octets =>
      if attr = sAMAccountName then
        some (entry.sAMAccountName.any fun name => foldCase (utf8 name.toList) = foldCase octets)
      else none
    | .present attr =>
      if attr = sAMAccountName then some (!entry.sAMAccountName.isEmpty) else none
    | _ => none
  sameName name octets := foldCase (utf8 name.toList) = foldCase octets
  holds_name entry octets := by
    dsimp only
    rw [if_pos rfl, Option.some.injEq, List.any_eq_true]
  bind := bind

end VsphereCompliance.Ldap
