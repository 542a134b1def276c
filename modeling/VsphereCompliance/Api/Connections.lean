import VsphereCompliance.Accounts.Administration
import VsphereCompliance.Analysis.Run

/-!
# Managing the vCenter connections

The endpoints of `vcenter.py` that look a connection up or write one. Deleting a connection
clears the reference of its runs. None of the endpoints touches a pattern
(`patterns_addVcenter` and the others).
-/

namespace VsphereCompliance.Api

open Store Accounts Analysis

/-! ## The requests -/

structure VCenterCreate where
  name : String
  host : String
  port : Int
  username : String
  password : String
  verifySsl : Bool

structure VCenterUpdate where
  name : Option String
  host : Option String
  port : Option Int
  username : Option String
  password : Option String
  verifySsl : Option Bool
  isActive : Option Bool

/-- The columns take the values of the row. -/
def ConnectionFits (conn : VCenterConnection) : Prop :=
  Storable 200 conn.name ∧ Storable 500 conn.host ∧ (-2 ^ 31 ≤ conn.port ∧ conn.port < 2 ^ 31) ∧
    Storable 200 conn.username ∧ IsText conn.encryptedPassword ∧ ∀ s ∈ conn.version, Storable 50 s

instance (conn : VCenterConnection) : Decidable (ConnectionFits conn) :=
  inferInstanceAs (Decidable (_ ∧ _ ∧ _ ∧ _ ∧ _ ∧ _))

/-- The new row; `encryptValue` is `encrypt_value`. -/
def connectionRow (encryptValue : String → String) (id : Nat) (payload : VCenterCreate) :
    VCenterConnection where
  id := id
  name := payload.name
  host := payload.host
  port := payload.port
  username := payload.username
  encryptedPassword := encryptValue payload.password
  verifySsl := payload.verifySsl
  isActive := true
  version := none

structure AddedVcenter where
  id : Nat
  name : String
  host : String
  deriving DecidableEq, Repr

/-- `add_vcenter`. -/
def addVcenter (encryptValue : String → String) (db : Db) (payload : VCenterCreate) :
    Except HttpError (Db × AddedVcenter) :=
  let conn := connectionRow encryptValue db.connections.next payload
  if ConnectionFits conn then
    .ok ({ db with
      connections := db.connections.insertRows (connectionRow encryptValue) (fun _ _ => rfl)
        [payload] }, ⟨conn.id, conn.name, conn.host⟩)
  else .error serverError

/-- Overwrite columns of the connection with the id. -/
def setConnection (db : Db) (id : Nat) (f : VCenterConnection → VCenterConnection)
    (hf : ∀ conn, (f conn).id = conn.id) : Db :=
  { db with connections := db.connections.update (fun conn => conn.id = id) f hf }

/-- The fields that the request gives. -/
def VCenterUpdate.write (encryptValue : String → String) (payload : VCenterUpdate)
    (conn : VCenterConnection) : VCenterConnection :=
  { conn with
    name := payload.name.getD conn.name
    host := payload.host.getD conn.host
    port := payload.port.getD conn.port
    username := payload.username.getD conn.username
    encryptedPassword := (payload.password.map encryptValue).getD conn.encryptedPassword
    verifySsl := payload.verifySsl.getD conn.verifySsl
    isActive := payload.isActive.getD conn.isActive }

/-- `update_vcenter`; the answer is the id and the name. -/
def updateVcenter (encryptValue : String → String) (db : Db) (id : Nat)
    (payload : VCenterUpdate) : Except HttpError (Db × Nat × String) :=
  match db.connection id with
  | none => .error ⟨404, "vCenter not found"⟩
  | some conn =>
    let conn' := payload.write encryptValue conn
    if ConnectionFits conn' then
      .ok (setConnection db id (payload.write encryptValue) fun _ => rfl, conn'.id, conn'.name)
    else .error serverError

def clearVcenter (run : AnalysisRun) : AnalysisRun := { run with vcenterId := none }

/-- The rows after `db.delete(conn)`: the relationship `analyses` clears `vcenter_id`. -/
def deleteConnection (db : Db) (id : Nat) : Db :=
  { db with
    connections := db.connections.filter fun conn => conn.id ≠ id
    runs := db.runs.update (fun run => run.vcenterId = some id) clearVcenter fun _ => rfl
    hasRun := by
      intro f hf
      obtain ⟨run, hrun, hid⟩ := db.hasRun f hf
      refine ⟨_, List.mem_map_of_mem hrun, ?_⟩
      split
      · exact hid
      · exact hid }

/-- `delete_vcenter`. -/
def deleteVcenter (db : Db) (id : Nat) : Except HttpError Db :=
  match db.connection id with
  | none => .error ⟨404, "vCenter not found"⟩
  | some _ => .ok (deleteConnection db id)

def setVersion (version : String) (conn : VCenterConnection) : VCenterConnection :=
  { conn with version := some version }

/-- `test_vcenter`; `rejection` is the text of the exception if the commit raises one. -/
def testVcenter (access : Access) (getVersion : VCenterConnection → Except String String)
    (rejection : String) (db : Db) (id : Nat) : Except HttpError (Db × String) :=
  match db.connection id with
  | none => .error ⟨404, "vCenter not found"⟩
  | some conn =>
    match openVCenter access (some conn) >>= getVersion with
    | .error e => .error ⟨400, "Connection failed: " ++ e⟩
    | .ok version =>
      if ConnectionFits (setVersion version conn) then
        .ok (setConnection db id (setVersion version) fun _ => rfl, version)
      else .error ⟨400, "Connection failed: " ++ rejection⟩

/-! ## The connections -/

variable {db db' : Db} {id : Nat}

theorem connections_addVcenter {encryptValue : String → String} {payload : VCenterCreate}
    {answer : AddedVcenter} (h : addVcenter encryptValue db payload = .ok (db', answer)) :
    db'.connections =
      db.connections.insertRows (connectionRow encryptValue) (fun _ _ => rfl) [payload] := by
  unfold addVcenter at h
  dsimp only at h
  split at h
  · cases h
    rfl
  · cases h

theorem connections_deleteVcenter (h : deleteVcenter db id = .ok db') :
    db'.connections = db.connections.filter fun conn => conn.id ≠ id := by
  unfold deleteVcenter at h
  split at h
  · cases h
  · cases h
    rfl

/-! ## The patterns -/

theorem patterns_addVcenter {encryptValue : String → String} {payload : VCenterCreate}
    {answer : AddedVcenter} (h : addVcenter encryptValue db payload = .ok (db', answer)) :
    db'.patterns = db.patterns := by
  unfold addVcenter at h
  dsimp only at h
  split at h
  · cases h
    rfl
  · cases h

theorem patterns_updateVcenter {encryptValue : String → String} {payload : VCenterUpdate}
    {answer : Nat × String} (h : updateVcenter encryptValue db id payload = .ok (db', answer)) :
    db'.patterns = db.patterns := by
  unfold updateVcenter at h
  split at h
  · cases h
  dsimp only at h
  split at h
  · cases h
    rfl
  · cases h

theorem patterns_testVcenter {access : Access}
    {getVersion : VCenterConnection → Except String String} {rejection version : String}
    (h : testVcenter access getVersion rejection db id = .ok (db', version)) :
    db'.patterns = db.patterns := by
  unfold testVcenter at h
  split at h
  · cases h
  split at h
  · cases h
  split at h
  · cases h
    rfl
  · cases h

theorem patterns_deleteVcenter (h : deleteVcenter db id = .ok db') :
    db'.patterns = db.patterns := by
  unfold deleteVcenter at h
  split at h
  · cases h
  · cases h
    rfl

end VsphereCompliance.Api
