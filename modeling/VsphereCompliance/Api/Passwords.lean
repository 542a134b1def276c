import VsphereCompliance.Api.System

/-!
# The passwords of the connections

The store keeps the password of a connection encrypted. A `Vault` is what the administrators
have asked for, with the passwords in plain text: `vaultAfter` records the accepted requests of
a history. The store is a refinement of it, whatever else happens (`keeps_run`), so everything
that opens a connection does so with the address and the password that were set last, and an id
that was drawn and is gone stays empty (`opens_as_set_last`).
-/

namespace VsphereCompliance.Api

open Engine Store VCenter Accounts Settings
open Analysis (Access openVCenter)

/-! ## The vault -/

/-- A connection as it was asked for. -/
structure Recorded extends VCenterCreate where
  isActive : Bool

abbrev Vault := Nat → Option Recorded

/-- The fields that the request gives. -/
def VCenterUpdate.record (payload : VCenterUpdate) (r : Recorded) : Recorded where
  name := payload.name.getD r.name
  host := payload.host.getD r.host
  port := payload.port.getD r.port
  username := payload.username.getD r.username
  password := payload.password.getD r.password
  verifySsl := payload.verifySsl.getD r.verifySsl
  isActive := payload.isActive.getD r.isActive

/-- The vault after an accepted request; a new connection gets the next id. -/
def Vault.record (vault : Vault) (next : Nat) : Request → Vault
  | .addVcenter _ payload => Function.update vault next (some ⟨payload, true⟩)
  | .updateVcenter _ id payload => Function.update vault id ((vault id).map payload.record)
  | .deleteVcenter id => Function.update vault id none
  | _ => vault

variable {c : Cipher}

def recordHappening (p : Platform) (s : State c) (vault : Vault) : Happening → Vault
  | .occurrence (.event (.request now token req)) =>
    match respond (p.services now) now s token req with
    | .error _ => vault
    | .ok _ => vault.record s.db.connections.next req
  | _ => vault

def vaultAfter (p : Platform) : State c → Vault → List Happening → Vault
  | _, vault, [] => vault
  | s, vault, h :: history => vaultAfter p (happen p s h) (recordHappening p s vault h) history

/-! ## The store refines the vault -/

/-- `decrypt_value`. -/
abbrev Decrypt := String → Except String String

/-- The request encrypts what `decrypt` decrypts. -/
def Encrypts (decrypt : Decrypt) : Happening → Prop
  | .occurrence (.event (.request _ _ (.addVcenter encryptValue _))) =>
    ∀ value, decrypt (encryptValue value) = .ok value
  | .occurrence (.event (.request _ _ (.updateVcenter encryptValue _ _))) =>
    ∀ value, decrypt (encryptValue value) = .ok value
  | _ => True

structure Holds (decrypt : Decrypt) (conn : VCenterConnection) (r : Recorded) : Prop where
  name : conn.name = r.name
  host : conn.host = r.host
  port : conn.port = r.port
  username : conn.username = r.username
  password : decrypt conn.encryptedPassword = .ok r.password
  verifySsl : conn.verifySsl = r.verifySsl
  isActive : conn.isActive = r.isActive

/-- The connections are those of the vault. -/
def Keeps (decrypt : Decrypt) (db : Db) (vault : Vault) : Prop :=
  ∀ id, Option.Rel (Holds decrypt) (db.connection id) (vault id)

variable {decrypt : Decrypt} {db db' : Db} {vault : Vault} {p : Platform} {s : State c}

theorem Keeps.of_eq (h : Keeps decrypt db vault) (heq : db'.connections = db.connections) :
    Keeps decrypt db' vault := by
  intro id
  unfold Db.connection
  rw [heq]
  exact h id

theorem holds_connectionRow {encryptValue : String → String}
    (henc : ∀ value, decrypt (encryptValue value) = .ok value) (id : Nat)
    (payload : VCenterCreate) :
    Holds decrypt (connectionRow encryptValue id payload) ⟨payload, true⟩ :=
  ⟨rfl, rfl, rfl, rfl, henc payload.password, rfl, rfl⟩

theorem Holds.write {conn : VCenterConnection} {r : Recorded} (h : Holds decrypt conn r)
    {encryptValue : String → String} (henc : ∀ value, decrypt (encryptValue value) = .ok value)
    (payload : VCenterUpdate) :
    Holds decrypt (payload.write encryptValue conn) (payload.record r) := by
  refine ⟨?_, ?_, ?_, ?_, ?_, ?_, ?_⟩
  · exact congrArg payload.name.getD h.name
  · exact congrArg payload.host.getD h.host
  · exact congrArg payload.port.getD h.port
  · exact congrArg payload.username.getD h.username
  · show decrypt ((payload.password.map encryptValue).getD _) = .ok (payload.password.getD _)
    cases payload.password with
    | none => exact h.password
    | some password => exact henc password
  · exact congrArg payload.verifySsl.getD h.verifySsl
  · exact congrArg payload.isActive.getD h.isActive

/-- One connection changes, in the store as in the vault. -/
theorem Keeps.update (h : Keeps decrypt db vault) {id : Nat} {conn : Option VCenterConnection}
    {r : Option Recorded} (hself : db'.connection id = conn)
    (hother : ∀ k, k ≠ id → db'.connection k = db.connection k)
    (hrel : Option.Rel (Holds decrypt) conn r) :
    Keeps decrypt db' (Function.update vault id r) := by
  intro k
  by_cases hk : k = id
  · subst hk
    rw [Function.update_self, hself]
    exact hrel
  · rw [Function.update_of_ne hk, hother k hk]
    exact h k

theorem Keeps.exists_recorded (h : Keeps decrypt db vault) {id : Nat} {conn : VCenterConnection}
    (hconn : db.connection id = some conn) : ∃ r, vault id = some r ∧ Holds decrypt conn r := by
  have hrel := h id
  rw [hconn] at hrel
  cases hvault : vault id with
  | none =>
    rw [hvault] at hrel
    cases hrel
  | some r =>
    rw [hvault] at hrel
    cases hrel with
    | some hholds => exact ⟨r, rfl, hholds⟩

/-- A write to one connection. -/
theorem Keeps.setConnection (h : Keeps decrypt db vault) {id : Nat} {conn : VCenterConnection}
    (hconn : db.connection id = some conn) {f : VCenterConnection → VCenterConnection}
    (hf : ∀ conn, (f conn).id = conn.id) {r : Recorded} (hr : Holds decrypt (f conn) r) :
    Keeps decrypt (setConnection db id f hf) (Function.update vault id (some r)) := by
  have hfind := Table.find?_updateKey db.connections id f hf
  have hself := (hfind id).trans (if_pos rfl)
  rw [show db.connections.find? id = some conn from hconn, Option.map_some] at hself
  exact h.update hself (fun k hk => (hfind k).trans (if_neg hk)) (.some hr)

theorem keeps_addVcenter (h : Keeps decrypt db vault) {encryptValue : String → String}
    (henc : ∀ value, decrypt (encryptValue value) = .ok value) {payload : VCenterCreate}
    {answer : AddedVcenter} (hadd : addVcenter encryptValue db payload = .ok (db', answer)) :
    Keeps decrypt db' (Function.update vault db.connections.next (some ⟨payload, true⟩)) := by
  have hfind (k : Nat) : db'.connection k = if k = db.connections.next then
      some (connectionRow encryptValue db.connections.next payload) else db.connection k := by
    unfold Db.connection
    rw [connections_addVcenter hadd]
    exact Table.find?_insertRow _ _ _ payload k
  exact h.update ((hfind _).trans (if_pos rfl)) (fun k hk => (hfind k).trans (if_neg hk))
    (.some (holds_connectionRow henc _ payload))

theorem keeps_updateVcenter (h : Keeps decrypt db vault) {encryptValue : String → String}
    (henc : ∀ value, decrypt (encryptValue value) = .ok value) {id : Nat}
    {payload : VCenterUpdate} {answer : Nat × String}
    (hupdate : updateVcenter encryptValue db id payload = .ok (db', answer)) :
    Keeps decrypt db' (Function.update vault id ((vault id).map payload.record)) := by
  unfold updateVcenter at hupdate
  split at hupdate
  · cases hupdate
  rename_i conn hconn
  obtain ⟨r, hvault, hholds⟩ := h.exists_recorded hconn
  dsimp only at hupdate
  split at hupdate
  · cases hupdate
    rw [hvault]
    exact h.setConnection hconn _ (hholds.write henc payload)
  · cases hupdate

/-- The connection to test keeps what was recorded of it. -/
theorem keeps_testVcenter (h : Keeps decrypt db vault) {access : Access}
    {getVersion : VCenterConnection → Except String String} {rejection version : String} {id : Nat}
    (htest : testVcenter access getVersion rejection db id = .ok (db', version)) :
    Keeps decrypt db' vault := by
  unfold testVcenter at htest
  split at htest
  · cases htest
  rename_i conn hconn
  obtain ⟨r, hvault, hholds⟩ := h.exists_recorded hconn
  have hsame : Holds decrypt (setVersion version conn) r :=
    ⟨hholds.name, hholds.host, hholds.port, hholds.username, hholds.password, hholds.verifySsl,
      hholds.isActive⟩
  split at htest
  · cases htest
  split at htest
  · cases htest
    have hkeeps := h.setConnection (f := setVersion version) hconn (fun _ => rfl) hsame
    rw [← hvault, Function.update_eq_self] at hkeeps
    exact hkeeps
  · cases htest

theorem keeps_deleteVcenter (h : Keeps decrypt db vault) {id : Nat}
    (hdelete : deleteVcenter db id = .ok db') :
    Keeps decrypt db' (Function.update vault id none) := by
  have hfind (k : Nat) : db'.connection k = if k = id then none else db.connection k := by
    unfold Db.connection
    rw [connections_deleteVcenter hdelete]
    exact Table.find?_filter_ne db.connections id k
  exact h.update ((hfind id).trans (if_pos rfl)) (fun k hk => (hfind k).trans (if_neg hk)) .none

/-! ## Every history -/

/-- **Each accepted request** does to the connections what it does to the vault. -/
theorem keeps_perform {services : Services} {now : Nat} {s' : State c} {user : User} {req : Request}
    (h : Keeps decrypt s.db vault) {token : String}
    (henc : Encrypts decrypt (.occurrence (.event (.request now token req))))
    (hperform : perform services now s user req = .ok s') :
    Keeps decrypt s'.db (vault.record s.db.connections.next req) := by
  cases req with
  | read endpoint =>
    cases hperform
    exact h
  | changePassword salt payload =>
    obtain ⟨users, _, rfl⟩ := map_eq_ok_iff.mp hperform
    exact h
  | createUser salt payload =>
    obtain ⟨r, _, rfl⟩ := map_eq_ok_iff.mp hperform
    exact h
  | updateUser id payload =>
    obtain ⟨r, _, rfl⟩ := map_eq_ok_iff.mp hperform
    exact h
  | deactivateUser id =>
    obtain ⟨users, _, rfl⟩ := map_eq_ok_iff.mp hperform
    exact h
  | addVcenter encryptValue payload =>
    obtain ⟨r, hadd, rfl⟩ := map_eq_ok_iff.mp hperform
    exact keeps_addVcenter h henc hadd
  | updateVcenter encryptValue id payload =>
    obtain ⟨r, hupdate, rfl⟩ := map_eq_ok_iff.mp hperform
    exact keeps_updateVcenter h henc hupdate
  | deleteVcenter id =>
    obtain ⟨db, hdelete, rfl⟩ := map_eq_ok_iff.mp hperform
    exact keeps_deleteVcenter h hdelete
  | testVcenter access getVersion rejection id =>
    obtain ⟨r, htest, rfl⟩ := map_eq_ok_iff.mp hperform
    exact keeps_testVcenter h htest
  | triggerAnalysis vcenterId type =>
    unfold perform at hperform
    dsimp only at hperform
    split at hperform
    · cases hperform
    · rename_i htrigger
      cases hperform
      exact h.of_eq (sameTargets_triggerAnalysis htrigger).connections
  | applyDrs access order tree outcome runId commits =>
    cases hperform
    exact h.of_eq (sameTargets_applyDrs _ _ _ _ _).connections
  | approveStorageMove runId findingId commits =>
    cases hperform
    exact h.of_eq (sameTargets_approveStorageMove _ _ _ _ _).connections
  | updateSettings items =>
    obtain ⟨r, _, rfl⟩ := map_eq_ok_iff.mp hperform
    exact h
  | createPattern payload =>
    obtain ⟨r, hcreate, rfl⟩ := map_eq_ok_iff.mp hperform
    exact h.of_eq (connections_createPattern hcreate)
  | updatePattern id payload =>
    obtain ⟨r, hupdate, rfl⟩ := map_eq_ok_iff.mp hperform
    exact h.of_eq (connections_updatePattern hupdate)
  | deletePattern id =>
    obtain ⟨db, hdelete, rfl⟩ := map_eq_ok_iff.mp hperform
    exact h.of_eq (connections_deletePattern hdelete)

theorem keeps_happen (h : Keeps decrypt s.db vault) {x : Happening} (henc : Encrypts decrypt x) :
    Keeps decrypt (happen p s x).db (recordHappening p s vault x) := by
  cases x with
  | login now server req =>
    show Keeps decrypt (happen p s (.login now server req)).db vault
    unfold happen
    dsimp only
    split
    · exact h
    · exact h
  | occurrence o =>
    cases o with
    | event e =>
      cases e with
      | request now token req =>
        show Keeps decrypt (handle (p.services now) s (.request now token req)).db
          (recordHappening p s vault (.occurrence (.event (.request now token req))))
        unfold handle recordHappening
        dsimp only
        cases hrespond : respond (p.services now) now s token req with
        | error e => exact h
        | ok s' =>
          obtain ⟨user, _, _, hperform⟩ := respond_eq_ok_iff.mp hrespond
          exact keeps_perform h henc hperform
      | background i cfg access =>
        show Keeps decrypt (handle (p.services 0) s (.background i cfg access)).db vault
        unfold handle
        dsimp only
        split
        · exact h
        · exact h.of_eq (sameTargets_doAnalysis _ _ _ _ _ _).connections
    | scheduled cfg order access =>
      exact h.of_eq (Analysis.scheduledLoop_spec cfg access s.db _).connections

/-- **The store refines the vault** in every history. -/
theorem keeps_run (h : Keeps decrypt s.db vault) {history : List Happening}
    (henc : ∀ x ∈ history, Encrypts decrypt x) :
    Keeps decrypt (history.foldl (happen p) s).db (vaultAfter p s vault history) := by
  induction history generalizing s vault with
  | nil => exact h
  | cons x history ih =>
    exact ih (keeps_happen h (henc x List.mem_cons_self)) fun y hy =>
      henc y (List.mem_cons_of_mem x hy)

/-! ## Ids that were drawn -/

/-- A drawn id that finds nothing is not drawn again. -/
structure Retires (db db' : Db) : Prop where
  next : db.connections.next ≤ db'.connections.next
  gone : ∀ k < db.connections.next, db.connection k = none → db'.connection k = none

theorem Retires.of_grows (h : db.connections.Grows SameId db'.connections) : Retires db db' :=
  ⟨h.next, fun _ hk hnone => h.find?_eq_none versions_sameId hk hnone⟩

theorem Retires.of_eq (h : db'.connections = db.connections) : Retires db db' :=
  .of_grows (.of_eq versions_sameId h)

theorem retires_deleteConnection (db : Db) (id : Nat) : Retires db (deleteConnection db id) := by
  refine ⟨Nat.le_refl _, ?_⟩
  intro k _ hnone
  have hfind : (deleteConnection db id).connection k = _ :=
    Table.find?_filter_ne db.connections id k
  rw [hfind, show db.connections.find? k = none from hnone, ite_self]

theorem retires_of_effect {now : Nat} {user : User} {s' : State c} (h : Effect now s user s') :
    Retires s.db s'.db := by
  cases h with
  | nothing => exact .of_eq rfl
  | users _ => exact .of_eq rfl
  | settings _ => exact .of_eq rfl
  | targets h => exact .of_grows h.connections
  | deleted id => exact retires_deleteConnection s.db id
  | triggered type _ => exact .of_eq rfl
  | applied access order drs commits =>
    exact .of_eq (sameTargets_applyDrs access order s.db drs commits).connections
  | approved runId findingId commits =>
    exact .of_eq (sameTargets_approveStorageMove s.db runId findingId user.id commits).connections

theorem retires_happen (p : Platform) (s : State c) (x : Happening) :
    Retires s.db (happen p s x).db := by
  cases x with
  | login now server req =>
    unfold happen
    dsimp only
    split
    · exact .of_eq rfl
    · exact .of_eq rfl
  | occurrence o =>
    cases o with
    | event e =>
      cases e with
      | request now token req =>
        show Retires s.db (handle (p.services now) s (.request now token req)).db
        rcases effect_handle (p.services now) s now token req with hsame | ⟨user, _, _, h⟩
        · rw [hsame]
          exact .of_eq rfl
        · exact retires_of_effect h
      | background i cfg access =>
        show Retires s.db (handle (p.services 0) s (.background i cfg access)).db
        unfold handle
        dsimp only
        split
        · exact .of_eq rfl
        · exact .of_eq (sameTargets_doAnalysis _ _ _ _ _ _).connections
    | scheduled cfg order access =>
      exact .of_eq (Analysis.scheduledLoop_spec cfg access s.db _).connections

/-- **A deleted id stays empty** in every history. -/
theorem connection_run_eq_none (p : Platform) {s : State c} {id : Nat}
    (hdrawn : id < s.db.connections.next) (hnone : s.db.connection id = none)
    (history : List Happening) : (history.foldl (happen p) s).db.connection id = none := by
  induction history generalizing s with
  | nil => exact hnone
  | cons x history ih =>
    have hretires := retires_happen p s x
    exact ih (hdrawn.trans_le hretires.next) (hretires.gone id hdrawn hnone)

/-! ## What is opened -/

theorem openVCenter_of_decrypt {access : Access} {conn : VCenterConnection} {password : String}
    (h : access.decryptValue conn.encryptedPassword = .ok password) :
    openVCenter access (some conn) = (access.connect conn password).map fun _ => conn := by
  show (access.decryptValue conn.encryptedPassword >>= fun password =>
    access.connect conn password >>= fun _ => pure conn) = _
  rw [h]
  show (access.connect conn password >>= fun _ => pure conn) = _
  cases access.connect conn password with
  | error e => rfl
  | ok x => rfl

/-- **A connection is opened as it was set last**, with the password in plain text: by the
analyses, the tests, the inventory and the application of the rules. An id that was drawn and is
gone is never drawn again. -/
theorem opens_as_set_last (p : Platform) {s : State c} {vault : Vault} {access : Access}
    (hstart : Keeps access.decryptValue s.db vault) {history : List Happening}
    (henc : ∀ x ∈ history, Encrypts access.decryptValue x) (id : Nat) :
    match vaultAfter p s vault history id with
    | none => (history.foldl (happen p) s).db.connection id = none ∧
        (id < (history.foldl (happen p) s).db.connections.next → ∀ further : List Happening,
          ((history ++ further).foldl (happen p) s).db.connection id = none)
    | some r => ∃ conn, (history.foldl (happen p) s).db.connection id = some conn ∧
        conn.name = r.name ∧ conn.host = r.host ∧ conn.port = r.port ∧
        conn.username = r.username ∧ conn.verifySsl = r.verifySsl ∧ conn.isActive = r.isActive ∧
        openVCenter access (some conn) = (access.connect conn r.password).map fun _ => conn := by
  have hrel := keeps_run (p := p) hstart henc id
  cases hvault : vaultAfter p s vault history id with
  | none =>
    have hnone : (history.foldl (happen p) s).db.connection id = none := by
      cases hconn : (history.foldl (happen p) s).db.connection id with
      | none => rfl
      | some conn =>
        rw [hvault, hconn] at hrel
        cases hrel
    refine ⟨hnone, ?_⟩
    intro hdrawn further
    rw [List.foldl_append]
    exact connection_run_eq_none p hdrawn hnone further
  | some r =>
    rw [hvault] at hrel
    cases hconn : (history.foldl (happen p) s).db.connection id with
    | none =>
      rw [hconn] at hrel
      cases hrel
    | some conn =>
      rw [hconn] at hrel
      cases hrel with
      | some hholds =>
        exact ⟨conn, rfl, hholds.name, hholds.host, hholds.port, hholds.username,
          hholds.verifySsl, hholds.isActive, openVCenter_of_decrypt hholds.password⟩

/-! ## A password that was changed -/

/-- A stand-in for the encryption. -/
def labelledAccess : Access where
  decryptValue token := .ok (String.ofList (token.toList.drop 5))
  connect _ password := if password = "new" then .ok () else .error "Cannot complete login"
  getFullInventory _ := .error "unreachable"

def encryptLabelled (value : String) : String := String.ofList ("gAAAA".toList ++ value.toList)

theorem decrypt_encryptLabelled (value : String) :
    labelledAccess.decryptValue (encryptLabelled value) = .ok value := by
  show Except.ok (String.ofList ((String.ofList _).toList.drop 5)) = _
  rw [String.toList_ofList]
  exact congrArg Except.ok String.ofList_toList

def adminState : State labelledCipher :=
  { veraState with
    accounts := adminAccounts
    db := { veraState.db with connections := .empty } }

/-- The password is set, then changed; a request without a password leaves it alone. -/
def changedPassword : List Happening :=
  [.occurrence (.event (.request 1 "token" (.addVcenter encryptLabelled
      ⟨"lab", "vc.example", 443, "svc", "old", false⟩))),
    .occurrence (.event (.request 2 "token" (.updateVcenter encryptLabelled 1
      ⟨none, none, none, none, some "new", none, none⟩))),
    .occurrence (.event (.request 3 "token" (.updateVcenter encryptLabelled 1
      ⟨none, some "vc2.example", none, none, none, none, none⟩)))]

/-- Then the connection is deleted. -/
def deletedConnection : List Happening :=
  changedPassword ++ [.occurrence (.event (.request 4 "token" (.deleteVcenter 1)))]

theorem opens_as_set_last_changed :
    (∃ conn : VCenterConnection,
      (changedPassword.foldl (happen operatorPlatform) adminState).db.connection 1 = some conn ∧
        conn.host = "vc2.example" ∧ openVCenter labelledAccess (some conn) = .ok conn) ∧
      ∀ further : List Happening, ((deletedConnection ++ further).foldl
        (happen operatorPlatform) adminState).db.connection 1 = none := by
  have hstart : Keeps labelledAccess.decryptValue adminState.db fun _ => none := fun _ => .none
  have henc : ∀ x ∈ changedPassword, Encrypts labelledAccess.decryptValue x := by
    simp [changedPassword, Encrypts, decrypt_encryptLabelled]
  have henc' : ∀ x ∈ deletedConnection, Encrypts labelledAccess.decryptValue x := by
    simp [deletedConnection, changedPassword, Encrypts, decrypt_encryptLabelled]
  have hvault : vaultAfter operatorPlatform adminState (fun _ => none) changedPassword 1 =
      some ⟨⟨"lab", "vc2.example", 443, "svc", "new", false⟩, true⟩ := by
    rfl
  have hvault' : vaultAfter operatorPlatform adminState (fun _ => none) deletedConnection 1 =
      none := by
    rfl
  have hnext : (deletedConnection.foldl (happen operatorPlatform) adminState).db.connections.next =
      2 := by
    rfl
  have hopens := opens_as_set_last operatorPlatform hstart henc 1
  have hgone := opens_as_set_last operatorPlatform hstart henc' 1
  rw [hvault] at hopens
  rw [hvault'] at hgone
  obtain ⟨conn, hconn, _, hhost, _, _, _, _, hopen⟩ := hopens
  exact ⟨⟨conn, hconn, hhost, hopen⟩, hgone.2 (by rw [hnext]; decide)⟩

end VsphereCompliance.Api
