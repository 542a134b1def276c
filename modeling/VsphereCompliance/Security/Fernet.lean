import VsphereCompliance.Library.Base64
import VsphereCompliance.Library.PythonText

/-!
# The key of a process

`start` is what the module `security` does when a process imports it: it derives a Fernet key
from the variable `ENCRYPTION_KEY`, and generates one where that raises. `encryptValue` and
`decryptValue` are `encrypt_value` and `decrypt_value` under that key.

Two processes read each other's ciphertexts exactly when the variable is empty or gives a key
(`shared_secrets_iff`): a string of 44 characters has to be a key already, any other string
needs 32 bytes. Every other string leaves each process with a key of its own.
-/

namespace VsphereCompliance.Security

open Python

/-- The 32 bytes of a Fernet key. -/
abbrev Key := { bytes : List UInt8 // bytes.length = 32 }

/-- The package behind `Fernet`, for the processes `P`: the constructor (none where it raises),
`generate_key` as each process calls it, and the methods. What `encrypt` draws from clock and
random source is its second argument. -/
structure Fernet (P : Type) where
  Token : Type
  new : List UInt8 → Option Key
  generateKey : P → List UInt8
  encrypt : Key → Nat → List UInt8 → Token
  decrypt : Key → Token → Option (List UInt8)

/-- What the package promises. -/
structure Fernet.Lawful {P : Type} (F : Fernet P) : Prop where
  /-- An assumption: the package also takes the standard alphabet of Base64, and any trailing bits
  in the last character. -/
  new_iff : ∀ k key, F.new k = some key ↔ k = Base64.encode key.1
  generateKey_accepted : ∀ p, ∃ key, F.new (F.generateKey p) = some key
  generateKey_fresh : Function.Injective F.generateKey
  decrypt_encrypt : ∀ key seed m, F.decrypt key (F.encrypt key seed m) = some m
  decrypt_other : ∀ key key' seed m, key ≠ key' → F.decrypt key' (F.encrypt key seed m) = none

/-! ## The module -/

/-- The ASCII bytes of a literal. -/
def ascii (s : String) : List UInt8 := s.toList.map fun c => UInt8.ofNat c.toNat

/-- `b.decode()` for ASCII bytes. -/
def decodeAscii (bytes : List UInt8) : Str := bytes.map fun b => .scalar (Char.ofNat b.toNat)

/-- The key for an empty variable. -/
def defaultKey : Key := ⟨ascii "vcm-enc-key-32bytes-padding-here", by decide⟩

/-- `_raw_enc`; the variable may be unset. -/
def rawEnc (env : Option Str) : Str :=
  if env.getD [] = [] then decodeAscii (Base64.encode defaultKey.1) else env.getD []

/-- The argument of `Fernet(...)`; none where encoding it raises. -/
def keyArgument (raw : Str) : Option (List UInt8) :=
  if raw.length = 44 then encode raw
  else (encode raw).map fun bytes => Base64.encode (bytes.take 32)

section Module

variable {P : Type} (F : Fernet P)

/-- The key that the `try` block makes of the variable. -/
def derivedKey (env : Option Str) : Option Key := (keyArgument (rawEnc env)).bind F.new

/-- The key of a process started with the variable. -/
def start (env : Option Str) (p : P) : Option Key :=
  (derivedKey F env).or (F.new (F.generateKey p))

/-- `encrypt_value`; none where it raises. -/
def encryptValue (key : Key) (seed : Nat) (value : Str) : Option F.Token :=
  (encode value).map (F.encrypt key seed)

/-- `decrypt_value`; none where it raises. -/
def decryptValue (key : Key) (token : F.Token) : Option Str :=
  (F.decrypt key token).bind decode

/-- What one process encrypts, every other process decrypts. -/
def SharedSecrets (env : Option Str) : Prop :=
  ∀ p q, p ≠ q → ∀ keyP keyQ, start F env p = some keyP → start F env q = some keyQ →
    ∀ seed value token, encryptValue F keyP seed value = some token →
      decryptValue F keyQ token = some value

end Module

/-- The variable is unset or empty, or it is a key, or it has 32 bytes to make a key of. -/
def GivesKey (env : Option Str) : Prop :=
  env.getD [] = [] ∨
    ((env.getD []).length = 44 ∧
      ∃ key : Key, encode (env.getD []) = some (Base64.encode key.1)) ∨
    ((env.getD []).length ≠ 44 ∧ ∃ bytes, encode (env.getD []) = some bytes ∧
      32 ≤ bytes.length)

/-! ## The derived key -/

section Derived

variable {P : Type} {F : Fernet P} {env : Option Str}

/-- The empty variable stands for the key of the module. -/
theorem keyArgument_rawEnc_of_empty (h : env.getD [] = []) :
    keyArgument (rawEnc env) = some (Base64.encode defaultKey.1) := by
  have hlength : (decodeAscii (Base64.encode defaultKey.1)).length = 44 := by decide
  have hencode : encode (decodeAscii (Base64.encode defaultKey.1)) =
      some (Base64.encode defaultKey.1) := by
    decide
  rw [rawEnc, if_pos h, keyArgument, if_pos hlength, hencode]

theorem exists_derivedKey_of_length_eq (hlaw : F.Lawful) {raw : Str} (hlength : raw.length = 44) :
    (∃ key, (keyArgument raw).bind F.new = some key) ↔
      ∃ key : Key, encode raw = some (Base64.encode key.1) := by
  rw [keyArgument, if_pos hlength]
  refine ⟨?_, ?_⟩
  · intro h
    obtain ⟨key, hkey⟩ := h
    obtain ⟨bytes, hbytes, hnew⟩ := Option.bind_eq_some_iff.mp hkey
    rw [hlaw.new_iff] at hnew
    exact ⟨key, hnew ▸ hbytes⟩
  · intro h
    obtain ⟨key, hkey⟩ := h
    exact ⟨key, Option.bind_eq_some_iff.mpr ⟨_, hkey, (hlaw.new_iff _ _).mpr rfl⟩⟩

theorem exists_derivedKey_of_length_ne (hlaw : F.Lawful) {raw : Str} (hlength : raw.length ≠ 44) :
    (∃ key, (keyArgument raw).bind F.new = some key) ↔
      ∃ bytes, encode raw = some bytes ∧ 32 ≤ bytes.length := by
  rw [keyArgument, if_neg hlength]
  refine ⟨?_, ?_⟩
  · intro h
    obtain ⟨key, hkey⟩ := h
    obtain ⟨_, hbytes, hnew⟩ := Option.bind_eq_some_iff.mp hkey
    obtain ⟨bytes, hencode, rfl⟩ := Option.map_eq_some_iff.mp hbytes
    rw [hlaw.new_iff] at hnew
    have htake := congrArg List.length (Base64.encode_injective hnew)
    rw [List.length_take, key.2] at htake
    exact ⟨bytes, hencode, by omega⟩
  · intro h
    obtain ⟨bytes, hencode, hle⟩ := h
    have htake : (bytes.take 32).length = 32 := by
      rw [List.length_take]
      omega
    refine ⟨⟨bytes.take 32, htake⟩, Option.bind_eq_some_iff.mpr ⟨_, ?_, (hlaw.new_iff _ _).mpr rfl⟩⟩
    rw [hencode]
    rfl

/-- The `try` block succeeds exactly for the variables that give a key. -/
theorem exists_derivedKey_iff (hlaw : F.Lawful) :
    (∃ key, derivedKey F env = some key) ↔ GivesKey env := by
  unfold derivedKey GivesKey
  by_cases hempty : env.getD [] = []
  · rw [keyArgument_rawEnc_of_empty hempty]
    exact ⟨fun _ => Or.inl hempty, fun _ => ⟨defaultKey, (hlaw.new_iff _ _).mpr rfl⟩⟩
  · rw [rawEnc, if_neg hempty]
    by_cases hlength : (env.getD []).length = 44
    · rw [exists_derivedKey_of_length_eq hlaw hlength]
      simp only [hempty, hlength, false_or, true_and, ne_eq, not_true_eq_false, false_and,
        or_false]
    · rw [exists_derivedKey_of_length_ne hlaw hlength]
      simp only [hempty, hlength, false_or, false_and, ne_eq, not_false_eq_true, true_and]

end Derived

/-! ## Two processes -/

section Shared

variable {P : Type} {F : Fernet P} {env : Option Str}

/-- Decrypting under the key that encrypted. -/
theorem decryptValue_encryptValue (hlaw : F.Lawful) {key : Key} {seed : Nat} {value : Str}
    {token : F.Token} (h : encryptValue F key seed value = some token) :
    decryptValue F key token = some value := by
  obtain ⟨bytes, hbytes, rfl⟩ := Option.map_eq_some_iff.mp h
  rw [decryptValue, hlaw.decrypt_encrypt, Option.bind_some, decode_encode hbytes]

theorem sharedSecrets_of_derivedKey (hlaw : F.Lawful) {key : Key}
    (h : derivedKey F env = some key) : SharedSecrets F env := by
  intro p q _ keyP keyQ hp hq seed value token htoken
  rw [start, h, Option.some_or] at hp hq
  obtain rfl := Option.some.inj hp
  obtain rfl := Option.some.inj hq
  exact decryptValue_encryptValue hlaw htoken

/-- Processes with generated keys do not read each other's ciphertexts. -/
theorem not_sharedSecrets_of_none [Nontrivial P] (hlaw : F.Lawful)
    (h : derivedKey F env = none) : ¬ SharedSecrets F env := by
  intro hshared
  obtain ⟨p, q, hne⟩ := exists_pair_ne P
  obtain ⟨keyP, hp⟩ := hlaw.generateKey_accepted p
  obtain ⟨keyQ, hq⟩ := hlaw.generateKey_accepted q
  have hkeys : keyP ≠ keyQ := by
    intro heq
    rw [hlaw.new_iff] at hp hq
    exact hne (hlaw.generateKey_fresh (by rw [hp, hq, heq]))
  have hstart : ∀ p, start F env p = F.new (F.generateKey p) := by
    intro p
    rw [start, h, Option.none_or]
  have hread := hshared p q hne keyP keyQ (by rw [hstart, hp]) (by rw [hstart, hq]) 0 [] _ rfl
  rw [decryptValue, hlaw.decrypt_other keyP keyQ 0 _ hkeys] at hread
  cases hread

/-- **Processes started with the same variable read each other's secrets** exactly when the
variable gives a key. -/
theorem shared_secrets_iff [Nontrivial P] (hlaw : F.Lawful) :
    SharedSecrets F env ↔ GivesKey env := by
  rw [← exists_derivedKey_iff hlaw]
  refine ⟨?_, ?_⟩
  · intro hshared
    cases h : derivedKey F env with
    | none => exact absurd hshared (not_sharedSecrets_of_none hlaw h)
    | some key => exact ⟨key, rfl⟩
  · intro h
    obtain ⟨key, hkey⟩ := h
    exact sharedSecrets_of_derivedKey hlaw hkey

end Shared

/-! ## A short key -/

/-- A package for two processes whose tokens are labelled with their key. -/
def labelled : Fernet Bool where
  Token := Key × List UInt8
  new k :=
    if h : (Base64.decode k).length = 32 ∧ Base64.encode (Base64.decode k) = k then
      some ⟨Base64.decode k, h.1⟩
    else none
  generateKey p := Base64.encode (List.replicate 32 (if p then 1 else 0))
  encrypt key _ m := (key, m)
  decrypt key token := if token.1 = key then some token.2 else none

theorem new_labelled (key : Key) : labelled.new (Base64.encode key.1) = some key := by
  have h : (Base64.decode (Base64.encode key.1)).length = 32 ∧
      Base64.encode (Base64.decode (Base64.encode key.1)) = Base64.encode key.1 := by
    rw [Base64.decode_encode]
    exact ⟨key.2, rfl⟩
  have hkey : (⟨Base64.decode (Base64.encode key.1), h.1⟩ : Key) = key :=
    Subtype.ext (Base64.decode_encode key.1)
  exact (dif_pos h).trans (congrArg some hkey)

theorem lawful_labelled : labelled.Lawful where
  new_iff := by
    intro k key
    refine ⟨?_, ?_⟩
    · intro h
      by_cases hk : (Base64.decode k).length = 32 ∧ Base64.encode (Base64.decode k) = k
      · have hkey := (dif_pos hk).symm.trans h
        rw [← Option.some.inj hkey]
        exact hk.2.symm
      · have hnone := (dif_neg hk).symm.trans h
        cases hnone
    · intro h
      rw [h]
      exact new_labelled key
  generateKey_accepted := by
    intro p
    exact ⟨_, new_labelled ⟨List.replicate 32 (if p then 1 else 0), List.length_replicate⟩⟩
  generateKey_fresh := by
    intro p q h
    have hlist := List.head_eq_of_cons_eq (Base64.encode_injective h)
    cases p with
    | true =>
      cases q with
      | true => rfl
      | false => cases hlist
    | false =>
      cases q with
      | true => cases hlist
      | false => rfl
  decrypt_encrypt := fun key _ m => if_pos rfl
  decrypt_other := fun key key' _ m hne => if_neg hne

/-- Ten characters: no key, and too short to make one of. -/
def shortVariable : Option Str := some (Str.ofString "REPLACE_ME")

/-- Under the short variable each process has a key of its own. -/
theorem shortVariable_not_shared : ¬ SharedSecrets labelled shortVariable := by
  have hnone : derivedKey labelled shortVariable = none := by decide
  exact not_sharedSecrets_of_none lawful_labelled hnone

theorem shared_secrets_iff_shortVariable :
    SharedSecrets labelled shortVariable ↔ GivesKey shortVariable :=
  shared_secrets_iff lawful_labelled

end VsphereCompliance.Security
