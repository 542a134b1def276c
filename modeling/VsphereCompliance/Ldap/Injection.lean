import VsphereCompliance.Ldap.Service

/-!
# A user name in the search filter

`InjectionFree t username` is what a search for a name should be: the filter sent is the
template `t` with the one assertion that `sAMAccountName` equals that name, so that the entry
authenticated has the name, and a name that no entry has is refused. `authenticate` puts the
name into the text of the filter as it is, so this holds exactly for the names without a special
character (`injection_free_iff`). The name `*` asks for any entry, and a password that is right
for the first of them is accepted (`wildcard_not_injection_free`).
-/

namespace VsphereCompliance.Ldap

open SearchFilter TextReplace

/-! ## The filter sent -/

theorem isAttr_sAMAccountName : isAttr sAMAccountName = true := by decide

theorem unstructured_placeholder : Unstructured placeholder := by
  unfold Unstructured
  decide

theorem not_placeholder_infix : ¬ placeholder <:+: sAMAccountName := by
  intro h
  have hmem : '{' ∈ sAMAccountName := h.subset (by decide)
  exact absurd hmem (by decide)

/-- A template as it is configured. -/
def configured (t : Template) : List Char := t.text sAMAccountName placeholder

theorem userSearchFilter_configured (t : Template) :
    userSearchFilter (configured t) = configured t := by
  apply if_neg
  obtain ⟨cs, hcs⟩ := t.exists_text_append_eq sAMAccountName placeholder []
  rw [List.append_nil] at hcs
  intro hnil
  rw [configured, hcs] at hnil
  cases hnil

theorem searchFilter_configured {t : Template} (h : t.Single placeholder) (username : List Char) :
    searchFilter (configured t) username = t.text sAMAccountName username := by
  rw [searchFilter, userSearchFilter_configured]
  exact replace_text unstructured_placeholder username not_placeholder_infix h

/-! ## No injection -/

/-- An entry has the name. -/
def Directory.Named (dir : Directory) (entry : Entry) (username : String) : Prop :=
  ∃ name ∈ entry.sAMAccountName, dir.sameName name (utf8 username.toList) = true

/-- The search for a name is the template with that name. -/
structure InjectionFree (t : Template) (username : String) : Prop where
  parses : parse (searchFilter (configured t) username.toList) =
    some (t.fill sAMAccountName (utf8 username.toList))
  named : t.Conjunctive → ∀ (dir : Directory) (password : String) (user : LdapUser),
    authenticate (configured t) dir username password = .ok (some user) →
      ∃ entry ∈ dir.entries, entry.dn = user.dn ∧ dir.Named entry username
  refused : t.Conjunctive → ∀ dir : Directory,
    (∀ entry ∈ dir.entries, ¬ dir.Named entry username) → ∀ (password : String)
      (user : LdapUser), authenticate (configured t) dir username password ≠ .ok (some user)

/-- The entry found by the assertion has the name. -/
theorem named_of_resolve {t : Template} (hconjunctive : t.Conjunctive) {username : String}
    (hparse : parse (searchFilter (configured t) username.toList) =
      some (t.fill sAMAccountName (utf8 username.toList)))
    {dir : Directory} {entry : Entry}
    (h : resolve (configured t) dir username = some entry) :
    entry ∈ dir.entries ∧ dir.Named entry username := by
  obtain ⟨filter, hfilter, hmem, heval⟩ := mem_of_resolve h
  rw [hparse] at hfilter
  obtain rfl := Option.some.inj hfilter
  exact ⟨hmem, (dir.holds_name _ _).mp (hconjunctive.eval_item heval)⟩

theorem injectionFree_of_parse {t : Template} {username : String}
    (hparse : parse (searchFilter (configured t) username.toList) =
      some (t.fill sAMAccountName (utf8 username.toList))) : InjectionFree t username := by
  have hnamed : t.Conjunctive → ∀ (dir : Directory) (password : String) (user : LdapUser),
      authenticate (configured t) dir username password = .ok (some user) →
        ∃ entry ∈ dir.entries, entry.dn = user.dn ∧ dir.Named entry username := by
    intro hconjunctive dir password user h
    obtain ⟨_, entry, hresolve, _, rfl⟩ := authenticate_eq_some_iff.mp h
    obtain ⟨hmem, hname⟩ := named_of_resolve hconjunctive hparse hresolve
    exact ⟨entry, hmem, rfl, hname⟩
  refine ⟨hparse, hnamed, ?_⟩
  intro hconjunctive dir hnone password user h
  obtain ⟨entry, hmem, _, hname⟩ := hnamed hconjunctive dir password user h
  exact hnone entry hmem hname

/-- **The search is free of injection exactly for the names without a special character.** -/
theorem injection_free_iff {t : Template} (hsingle : t.Single placeholder) (username : String) :
    InjectionFree t username ↔ Plain username.toList := by
  have hparse := parse_text_iff isAttr_sAMAccountName t username.toList
  rw [← searchFilter_configured hsingle] at hparse
  rw [← hparse]
  exact ⟨InjectionFree.parses, injectionFree_of_parse⟩

/-- With the default filter a plain name is looked for among the names. -/
theorem resolve_of_plain (dir : Directory) {username : String} (h : Plain username.toList) :
    resolve (configured .hole) dir username = dir.entries.find? fun entry =>
      dir.holds entry (.compare sAMAccountName .equal (utf8 username.toList)) = some true := by
  rw [resolve, searchFilter_configured (t := .hole) trivial,
    (parse_text_iff isAttr_sAMAccountName .hole username.toList).mpr h, Option.bind_some,
    Directory.search, List.head?_filter]
  rfl

/-- The default filter and a usual name. -/
theorem injection_free_alice : InjectionFree .hole "alice" :=
  (injection_free_iff (t := .hole) trivial "alice").mpr (by decide)

def alice : Entry where
  dn := "CN=Alice,OU=Staff,DC=lab"
  sAMAccountName := ["alice"]
  cn := "Alice"
  displayName := none
  mail := none
  memberOf := []

/-- One person, whose password is `s3cret`. -/
def staff : Directory :=
  caseIgnoring [alice] fun dn password =>
    if dn = alice.dn ∧ password = "s3cret" then .accepted else .refused

theorem parse_wildcard : parse (searchFilter (configured .hole) "*".toList) =
    some (.item (.present sAMAccountName)) := by
  rw [searchFilter_configured (t := .hole) trivial]
  exact parse_hole_star isAttr_sAMAccountName

theorem resolve_wildcard : resolve (configured .hole) staff "*" = some alice := by
  rw [resolve, parse_wildcard, Option.bind_some]
  rfl

theorem not_named_wildcard : ¬ staff.Named alice "*" := by
  rintro ⟨name, hmem, hname⟩
  obtain rfl := List.mem_singleton.mp hmem
  exact absurd hname (by decide)

/-- **The name `*` logs in as somebody else**: no entry has it, and the password of the first
entry with a name is accepted. -/
theorem wildcard_not_injection_free :
    authenticate (configured .hole) staff "*" "s3cret" = .ok (some (ldapUser "*" alice)) ∧
      (∀ entry ∈ staff.entries, ¬ staff.Named entry "*") ∧ ¬ InjectionFree .hole "*" := by
  have hauth : authenticate (configured .hole) staff "*" "s3cret" =
      .ok (some (ldapUser "*" alice)) :=
    authenticate_eq_some_iff.mpr ⟨rfl, alice, resolve_wildcard, by decide, rfl⟩
  have hnone : ∀ entry ∈ staff.entries, ¬ staff.Named entry "*" := by
    intro entry hmem
    obtain rfl := List.mem_singleton.mp hmem
    exact not_named_wildcard
  exact ⟨hauth, hnone, fun h => h.refused trivial staff hnone "s3cret" _ hauth⟩

end VsphereCompliance.Ldap
