import VsphereCompliance.Accounts.Administration
import VsphereCompliance.Library.OrderedDict
import VsphereCompliance.Security.Fernet

/-!
# Application settings

The table `app_settings` has one row for each key, so it is a dictionary from keys to rows.
`updateSettings` is `update_settings`: it looks every key up in the database, where the rows
that the same request adds are not visible yet, and commits at the end. `getSettings` is
`get_settings`, and `ensureSettings` the seeding at start-up.
-/

namespace VsphereCompliance.Settings

open Store Accounts

/-- `encrypt_value` and `decrypt_value` of a process. What Fernet draws from clock and random
source is the first argument of `encryptValue`. -/
structure Cipher where
  Token : Type
  encryptValue : Nat → String → Token
  decryptValue : Token → Option String
  decrypt_encrypt : ∀ seed value, decryptValue (encryptValue seed value) = some value

/-- The functions of `security` under a key, on texts. -/
def Cipher.ofFernet {P : Type} (F : Security.Fernet P) (hF : F.Lawful) (key : Security.Key) :
    Cipher where
  Token := F.Token
  encryptValue seed value := F.encrypt key seed (value.toList.flatMap String.utf8EncodeChar)
  decryptValue token := (F.decrypt key token).bind fun bytes =>
    bytes.toByteArray.utf8Decode?.map fun cs => String.ofList cs.toList
  decrypt_encrypt := by
    intro seed value
    have hdecode : (value.toList.flatMap String.utf8EncodeChar).toByteArray.utf8Decode? =
        some value.toList.toArray := List.utf8Decode?_utf8Encode
    rw [hF.decrypt_encrypt, Option.bind_some, hdecode, Option.map_some, List.toList_toArray,
      String.ofList_toList]

/-- Encrypting a text never raises. -/
theorem encryptValue_ofFernet {P : Type} {F : Security.Fernet P} (hF : F.Lawful)
    (key : Security.Key) (seed : Nat) (value : String) :
    Security.encryptValue F key seed (Python.Str.ofString value) =
      some ((Cipher.ofFernet F hF key).encryptValue seed value) := by
  have hencode := Python.encode_eq_some_iff.mpr ⟨value.toList, rfl, rfl⟩
  rw [Security.encryptValue, Python.Str.ofString, hencode]
  rfl

/-- The columns of a setting besides its key. -/
structure AppSetting (c : Cipher) where
  encryptedValue : Option c.Token
  plainValue : Option String
  isEncrypted : Bool
  description : Option String

variable {c : Cipher}

/-- The columns take the texts of the row. -/
def RowFits (key : String) (setting : AppSetting c) : Prop :=
  Storable 200 key ∧ (∀ s ∈ setting.plainValue, IsText s) ∧ ∀ s ∈ setting.description, IsText s

instance (key : String) (setting : AppSetting c) : Decidable (RowFits key setting) :=
  inferInstanceAs (Decidable (_ ∧ _ ∧ _))

/-- The table. -/
structure AppSettings (c : Cipher) where
  rows : OrderedDict String (AppSetting c)
  fits : ∀ e ∈ rows.entries, RowFits e.1 e.2

namespace AppSettings

def empty : AppSettings c := ⟨.empty, fun _ he => absurd he List.not_mem_nil⟩

def get? (settings : AppSettings c) (key : String) : Option (AppSetting c) :=
  settings.rows.get? key

theorem rowFits_of_get? {settings : AppSettings c} {key : String} {setting : AppSetting c}
    (h : settings.get? key = some setting) : RowFits key setting :=
  settings.fits (key, setting) (OrderedDict.get?_eq_some_iff.mp h)

end AppSettings

/-! ## Updates -/

/-- An item of the request; `seed` is what encrypting it draws. -/
structure SettingUpdate where
  key : String
  value : String
  isEncrypted : Bool
  description : Option String
  seed : Nat
  deriving DecidableEq, Repr

/-- `SENSITIVE_KEYS`. -/
def sensitiveKeys : List String := ["ldap_bind_password", "vcenter_password", "secret_key"]

/-- `is_sensitive`. -/
def SettingUpdate.isSensitive (item : SettingUpdate) : Bool :=
  item.key ∈ sensitiveKeys || item.isEncrypted

/-- `a or b` of optional texts. -/
def textOr (a b : Option String) : Option String := if a.getD "" = "" then b else a

/-- The row that a new key starts with. -/
def SettingUpdate.newSetting (item : SettingUpdate) : AppSetting c where
  encryptedValue := none
  plainValue := none
  isEncrypted := false
  description := item.description

/-- What an item writes into a row. -/
def SettingUpdate.write (item : SettingUpdate) (setting : AppSetting c) : AppSetting c where
  encryptedValue := if item.isSensitive then some (c.encryptValue item.seed item.value) else none
  plainValue := if item.isSensitive then none else some item.value
  isEncrypted := item.isSensitive
  description := textOr item.description setting.description

/-- The session of a request: the rows of the database with the changes made to them, and the
rows to insert. -/
structure Session (c : Cipher) where
  loaded : OrderedDict String (AppSetting c)
  added : List (String × AppSetting c)

/-- One pass of the loop. The lookup sees only rows of the database. -/
def Session.update (s : Session c) (item : SettingUpdate) : Session c :=
  match s.loaded.get? item.key with
  | some setting => { s with loaded := s.loaded.set item.key (item.write setting) }
  | none => { s with added := s.added ++ [(item.key, item.write item.newSetting)] }

/-- The rows after the inserts. -/
def Session.rows (s : Session c) : OrderedDict String (AppSetting c) :=
  s.added.foldl (fun d e => d.set e.1 e.2) s.loaded

/-- The database takes the rows: the keys are distinct and the texts fit. -/
def Session.Accepted (s : Session c) : Prop :=
  (s.loaded.keys ++ s.added.map Prod.fst).Nodup ∧ ∀ e ∈ s.rows.entries, RowFits e.1 e.2

instance (s : Session c) : Decidable s.Accepted := inferInstanceAs (Decidable (_ ∧ _))

def Session.commit (s : Session c) : Option (AppSettings c) :=
  if h : s.Accepted then some ⟨s.rows, h.2⟩ else none

/-- The session of the whole request. -/
def session (settings : AppSettings c) (items : List SettingUpdate) : Session c :=
  items.foldl Session.update ⟨settings.rows, []⟩

/-- `update_settings`; the answer is the number of items. -/
def updateSettings (settings : AppSettings c) (items : List SettingUpdate) :
    Except HttpError (AppSettings c × Nat) :=
  match (session settings items).commit with
  | none => .error serverError
  | some settings' => .ok (settings', items.length)

/-- The table after the request. -/
def put (settings : AppSettings c) (items : List SettingUpdate) : AppSettings c :=
  match updateSettings settings items with
  | .error _ => settings
  | .ok (settings', _) => settings'

/-! ## Reading -/

structure SettingOut where
  value : Option String
  isEncrypted : Bool
  description : Option String
  deriving DecidableEq, Repr

def AppSetting.out (setting : AppSetting c) : SettingOut where
  value := if setting.isEncrypted then some "***" else setting.plainValue
  isEncrypted := setting.isEncrypted
  description := setting.description

/-- `get_settings`. -/
def getSettings (settings : AppSettings c) : OrderedDict String SettingOut :=
  .ofList (settings.rows.entries.map fun e => (e.1, e.2.out))

/-! ## Seeding -/

/-- The default settings. -/
def defaults : List (String × String) :=
  [("analysis_cron", "0 2 * * *"), ("drs_role_prefix", "VCM-AAR"),
    ("app_title", "vSphere Compliance Manager")]

def seeded (value : String) : AppSetting c := ⟨none, some value, false, none⟩

/-- `_ensure_settings` and its commit; a failed commit is rolled back. -/
def ensureSettings (settings : AppSettings c) : AppSettings c :=
  let missing := defaults.filter fun d => (settings.get? d.1).isNone
  (Session.commit ⟨settings.rows, missing.map fun d => (d.1, seeded d.2)⟩).getD settings

end VsphereCompliance.Settings
