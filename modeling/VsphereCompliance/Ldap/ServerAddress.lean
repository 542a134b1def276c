import Std.Data.String.ToNat
import VsphereCompliance.Library.TextReplace
import VsphereCompliance.Library.TextSplit

/-!
# The address of the directory

`getServer` is `LDAPService._get_server`: it cuts the host and the port out of the configured
URL, and looks at `use_ssl` for everything else. The scheme of the URL is thrown away, so the
login reaches the server that the URL names exactly when `use_ssl` says the same as the scheme
(`getServer_eq_address_iff`).
-/

namespace VsphereCompliance.Ldap

open TextReplace TextSplit

/-- The arguments of `Server`. -/
structure ServerAddress where
  host : List Char
  port : Int
  useSsl : Bool
  deriving DecidableEq, Repr

/-- `LDAPService._get_server`; none where `int` raises. -/
def getServer (int : List Char → Option Int) (useSsl : Bool) (serverUrl : List Char) :
    Option ServerAddress :=
  let host := (split [':'] (replace "ldaps://".toList [] (replace "ldap://".toList []
    serverUrl))).headD []
  let port : Int := if useSsl then 636 else 389
  if ':' ∈ (split "//".toList serverUrl).getLastD [] then
    (int ((split [':'] serverUrl).getLastD [])).map fun port => ⟨host, port, useSsl⟩
  else some ⟨host, port, useSsl⟩

/-! ## URLs -/

/-- A URL with the scheme in lower case, a host name or an IPv4 address, and nothing behind the
port. An IPv6 address has colons, at which `_get_server` would cut. -/
structure LdapUrl where
  secure : Bool
  host : List Char
  port : Option Nat
  host_plain : ':' ∉ host ∧ '/' ∉ host

def LdapUrl.scheme (url : LdapUrl) : List Char :=
  if url.secure then "ldaps".toList else "ldap".toList

/-- The host and the port. -/
def LdapUrl.authority (url : LdapUrl) : List Char :=
  url.host ++ url.port.elim [] fun port => ':' :: Nat.toDigits 10 port

def LdapUrl.text (url : LdapUrl) : List Char := url.scheme ++ "://".toList ++ url.authority

/-- What the URL means: `ldaps` stands for TLS and another port. -/
def LdapUrl.address (url : LdapUrl) : ServerAddress where
  host := url.host
  port := url.port.elim (if url.secure then 636 else 389) Int.ofNat
  useSsl := url.secure

variable {int : List Char → Option Int} {url : LdapUrl}

/-! ## The pieces -/

theorem slash_notMem_authority (url : LdapUrl) : '/' ∉ url.authority := by
  unfold LdapUrl.authority
  rw [List.mem_append, not_or]
  refine ⟨url.host_plain.2, ?_⟩
  cases url.port with
  | none => exact List.not_mem_nil
  | some port =>
    intro hmem
    rcases List.mem_cons.mp hmem with hcolon | hdigit
    · exact absurd hcolon (by decide)
    · exact absurd (Nat.isDigit_of_mem_toDigits (by decide) (by decide) hdigit) (by decide)

theorem colon_notMem_toDigits (n : Nat) : ':' ∉ Nat.toDigits 10 n := fun hmem =>
  absurd (Nat.isDigit_of_mem_toDigits (by decide) (by decide) hmem) (by decide)

/-- The scheme has neither of the separators. -/
theorem notMem_scheme (url : LdapUrl) : ':' ∉ url.scheme ∧ '/' ∉ url.scheme := by
  unfold LdapUrl.scheme
  split
  · decide
  · decide

/-- Both calls of `replace` together take the scheme off. -/
theorem replace_scheme (url : LdapUrl) :
    replace "ldaps://".toList [] (replace "ldap://".toList [] url.text) = url.authority := by
  have hslash := slash_notMem_authority url
  have hstays (old : List Char) (hold : '/' ∈ old) : replace old [] url.authority = url.authority :=
    replace_of_notMem hold hslash
  unfold LdapUrl.text LdapUrl.scheme
  cases url.secure with
  | false =>
    show replace _ [] (replace "ldap://".toList [] ("ldap://".toList ++ url.authority)) = _
    rw [replace_append_of_start (by decide), hstays _ (by decide), List.nil_append,
      hstays _ (by decide)]
  | true =>
    -- the `s` keeps the first call from finding anything
    have hfirst : replace "ldap://".toList [] ("ldaps://".toList ++ url.authority) =
        "ldaps://".toList ++ url.authority := by
      have hs : 's' ∉ "ldap://".toList := by decide
      show replace "ldap://".toList [] ("ldap".toList ++ 's' :: ("://".toList ++ url.authority)) = _
      rw [replace_append_cons hs (by decide)]
      have hrest : replace "ldap://".toList [] ("://".toList ++ url.authority) =
          "://".toList ++ url.authority := by
        have hl : 'l' ∉ "://".toList := by decide
        refine (replace_append_of_notMem hl _).trans ?_
        rw [hstays _ (by decide)]
      rw [hrest]
      rfl
    show replace _ [] (replace "ldap://".toList [] ("ldaps://".toList ++ url.authority)) = _
    rw [hfirst, replace_append_of_start (by decide), hstays _ (by decide), List.nil_append]

/-- The last piece between double slashes. -/
theorem getLastD_split_slashes (url : LdapUrl) :
    (split "//".toList url.text).getLastD [] = url.authority := by
  have hscheme : '/' ∉ url.scheme ++ [':'] := by
    rw [List.mem_append, not_or]
    exact ⟨(notMem_scheme url).2, by decide⟩
  have htext : url.text = (url.scheme ++ [':']) ++ "//".toList ++ url.authority := by
    unfold LdapUrl.text
    simp
  have hrest : split "//".toList url.authority = [url.authority] :=
    split_of_notMem (slash_notMem_authority url)
  have hsep : "//".toList = ['/', '/'] := rfl
  rw [hsep] at hrest
  rw [htext, hsep, split_append hscheme url.authority, hrest]
  rfl

theorem split_authority (url : LdapUrl) :
    split [':'] url.authority =
      url.host :: url.port.elim [] fun port => [Nat.toDigits 10 port] := by
  unfold LdapUrl.authority
  cases url.port with
  | none =>
    rw [Option.elim_none, List.append_nil]
    exact split_of_notMem url.host_plain.1
  | some port =>
    have hdigits : split [':'] (Nat.toDigits 10 port) = [Nat.toDigits 10 port] :=
      split_of_notMem (colon_notMem_toDigits port)
    show split [':'] (url.host ++ ':' :: Nat.toDigits 10 port) = _
    rw [List.append_cons, split_append url.host_plain.1, hdigits]
    rfl

/-- The last piece between colons is the port, if there is one. -/
theorem getLastD_split_colons {port : Nat} (hport : url.port = some port) :
    (split [':'] url.text).getLastD [] = Nat.toDigits 10 port := by
  have hhost : ':' ∉ "//".toList ++ url.host := by
    rw [List.mem_append, not_or]
    exact ⟨by decide, url.host_plain.1⟩
  have htext : url.text =
      url.scheme ++ [':'] ++ (("//".toList ++ url.host) ++ [':'] ++ Nat.toDigits 10 port) := by
    unfold LdapUrl.text LdapUrl.authority
    rw [hport]
    simp
  rw [htext, split_append (notMem_scheme url).1, split_append hhost,
    split_of_notMem (colon_notMem_toDigits port)]
  rfl

/-! ## The server -/

/-- The server that `_get_server` finds: the scheme does not matter. -/
theorem getServer_text (url : LdapUrl)
    (hint : ∀ port ∈ url.port, int (Nat.toDigits 10 port) = some port) (useSsl : Bool) :
    getServer int useSsl url.text =
      some ⟨url.host, url.port.elim (if useSsl then 636 else 389) Int.ofNat, useSsl⟩ := by
  unfold getServer
  dsimp only
  rw [replace_scheme, getLastD_split_slashes, split_authority]
  cases hport : url.port with
  | none =>
    have hcolon : ':' ∉ url.authority := by
      unfold LdapUrl.authority
      rw [hport, Option.elim_none, List.append_nil]
      exact url.host_plain.1
    rw [if_neg hcolon]
    rfl
  | some port =>
    have hcolon : ':' ∈ url.authority := by
      unfold LdapUrl.authority
      rw [hport]
      exact List.mem_append_right _ List.mem_cons_self
    rw [if_pos hcolon, getLastD_split_colons hport, hint port hport]
    rfl

theorem defaultPort_eq_iff : ∀ a b : Bool,
    (if a then 636 else 389 : Int) = (if b then 636 else 389) ↔ a = b := by
  decide

/-- **The login reaches the server of the URL** exactly when `use_ssl` agrees with its scheme:
otherwise it talks to the host in the other way, and on the other port unless the URL has one. -/
theorem getServer_eq_address_iff (url : LdapUrl)
    (hint : ∀ port ∈ url.port, int (Nat.toDigits 10 port) = some port) (useSsl : Bool) :
    (getServer int useSsl url.text = some url.address ↔ useSsl = url.secure) ∧
      ∃ server, getServer int useSsl url.text = some server ∧ server.host = url.host ∧
        server.useSsl = useSsl ∧
        (server.port = url.address.port ↔ useSsl = url.secure ∨ url.port.isSome) := by
  rw [getServer_text url hint]
  refine ⟨⟨?_, ?_⟩, _, rfl, rfl, rfl, ?_⟩
  · intro h
    exact congrArg ServerAddress.useSsl (Option.some.inj h)
  · rintro rfl
    rfl
  · unfold LdapUrl.address
    cases url.port with
    | none => exact (defaultPort_eq_iff useSsl url.secure).trans (by simp)
    | some port => exact iff_of_true rfl (Or.inr rfl)

/-! ## A URL of the wrong kind -/

/-- `int` on digits. -/
def intOfDigits (digits : List Char) : Option Int := (String.ofList digits).toNat?.map Int.ofNat

theorem intOfDigits_toDigits (n : Nat) : intOfDigits (Nat.toDigits 10 n) = some n := by
  show (Nat.repr n).toNat?.map Int.ofNat = _
  rw [Nat.toNat?_repr]
  rfl

def secureUrl : LdapUrl := ⟨true, "dc.example.com".toList, some 3269, by decide⟩

/-- TLS is in the URL but not in the setting. -/
theorem getServer_secureUrl : secureUrl.text = "ldaps://dc.example.com:3269".toList ∧
    getServer intOfDigits false "ldaps://dc.example.com:3269".toList ≠ some secureUrl.address := by
  have htext : secureUrl.text = "ldaps://dc.example.com:3269".toList := by decide
  refine ⟨htext, ?_⟩
  intro h
  rw [← htext] at h
  have hssl := (getServer_eq_address_iff secureUrl (fun port _ => intOfDigits_toDigits port)
    false).1.mp h
  exact absurd hssl Bool.false_ne_true

end VsphereCompliance.Ldap
