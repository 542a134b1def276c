import VsphereCompliance.Analysis.Terminal
import VsphereCompliance.Api.Connections
import VsphereCompliance.Library.RowEdits

/-!
# Edits of one connection at the same time

`update_vcenter` and `test_vcenter` query a connection and commit later; `test_vcenter` even
talks to the vCenter in between. `connectionEditing` is the table of the connections with these
requests as sessions that overlap, among those that add and delete connections. Alone, a session
is the request (`write_updateVcenter`, `write_testVcenter`).

Each column of a connection that is still there holds what a committed request gives it, or what
it held at first if none does (`connections_hold_edits`).
-/

namespace VsphereCompliance.Api

open Store Accounts Analysis RowEdits

/-! ## The sessions -/

/-- What changes a row of `vcenter_connections`: `update_vcenter`, with what `encrypt_value`
returns in it, and `test_vcenter` with the version that the vCenter told. -/
inductive ConnectionEdit
  | update (encryptValue : String → String) (payload : VCenterUpdate)
  | test (version : String)

def ConnectionEdit.assign : ConnectionEdit → VCenterConnection → VCenterConnection
  | .update encryptValue payload => payload.write encryptValue
  | .test version => setVersion version

def mergeConnection (loaded assigned current : VCenterConnection) : VCenterConnection where
  id := current.id
  name := merge loaded.name assigned.name current.name
  host := merge loaded.host assigned.host current.host
  port := merge loaded.port assigned.port current.port
  username := merge loaded.username assigned.username current.username
  encryptedPassword :=
    merge loaded.encryptedPassword assigned.encryptedPassword current.encryptedPassword
  verifySsl := merge loaded.verifySsl assigned.verifySsl current.verifySsl
  isActive := merge loaded.isActive assigned.isActive current.isActive
  version := merge loaded.version assigned.version current.version

/-- The commit raises if the row is gone or a value does not fit. -/
def writeConnection (db : Db) (id : Nat) (loaded assigned : VCenterConnection) : Option Db :=
  match db.connection id with
  | none => none
  | some conn =>
    if ConnectionFits (mergeConnection loaded assigned conn) then
      some (setConnection db id (mergeConnection loaded assigned) fun _ => rfl)
    else none

/-- What else happens to the connections: `add_vcenter`, `delete_vcenter` and all that does not
touch them. -/
inductive OtherConnections (db db' : Db) : Prop
  | added {encryptValue : String → String} {payload : VCenterCreate} {answer : AddedVcenter}
      (h : addVcenter encryptValue db payload = .ok (db', answer))
  | deleted {id : Nat} (h : deleteVcenter db id = .ok db')
  | untouched (h : db'.connections = db.connections)

theorem writeConnection_eq_some {db db' : Db} {id : Nat} {loaded assigned : VCenterConnection}
    (h : writeConnection db id loaded assigned = some db') :
    db' = setConnection db id (mergeConnection loaded assigned) fun _ => rfl := by
  unfold writeConnection at h
  split at h
  · cases h
  split at h
  · cases h
    rfl
  · cases h

theorem OtherConnections.next_le {db db' : Db} (h : OtherConnections db db') :
    db.connections.next ≤ db'.connections.next := by
  cases h with
  | added h =>
    rw [connections_addVcenter h]
    exact Nat.le_add_right _ _
  | deleted h =>
    rw [connections_deleteVcenter h]
    exact Nat.le_refl _
  | untouched h => rw [h]

/-- No row changes, and no id is given again. -/
theorem OtherConnections.find?_eq {db db' : Db} (h : OtherConnections db db') {k : Nat}
    {conn : VCenterConnection} (hk : k < db.connections.next)
    (hconn : db'.connections.find? k = some conn) : db.connections.find? k = some conn := by
  cases h with
  | @added encryptValue payload _ h =>
    rw [connections_addVcenter h] at hconn
    have hfind := Table.find?_insertRow db.connections (connectionRow encryptValue)
      (fun _ _ => rfl) payload k
    rwa [hfind, if_neg (Nat.ne_of_lt hk)] at hconn
  | @deleted id h =>
    rw [connections_deleteVcenter h] at hconn
    have hfind := Table.find?_filter_ne db.connections id k
    rw [hfind] at hconn
    split at hconn
    · cases hconn
    · exact hconn
  | untouched h => rwa [h] at hconn

def connectionEditing : Editing Db VCenterConnection ConnectionEdit where
  find? db := db.connections.find?
  next db := db.connections.next
  write := writeConnection
  assign := ConnectionEdit.assign
  mergeRow := mergeConnection
  other := OtherConnections
  lt_next h := by
    obtain ⟨hmem, rfl⟩ := Table.find?_eq_some_iff.mp h
    exact Table.key_lt _ _ hmem
  find?_write h k := by
    rw [writeConnection_eq_some h]
    exact Table.find?_updateKey _ _ (mergeConnection _ _) (fun _ => rfl) _
  next_write h := by
    rw [writeConnection_eq_some h]
    rfl
  find?_other h _ _ hk hconn := h.find?_eq hk hconn
  next_other h := h.next_le

/-! ## A session alone -/

theorem mergeConnection_current {conn assigned : VCenterConnection} (hid : assigned.id = conn.id) :
    mergeConnection conn assigned conn = assigned := by
  unfold mergeConnection
  simp only [merge_current]
  rw [← hid]

theorem writeConnection_alone {db : Db} {id : Nat} {conn : VCenterConnection}
    (hconn : db.connection id = some conn) {f : VCenterConnection → VCenterConnection}
    (hf : ∀ conn, (f conn).id = conn.id) :
    writeConnection db id conn (f conn) =
      if ConnectionFits (f conn) then some (setConnection db id f hf) else none := by
  obtain ⟨hmem, rfl⟩ := Table.find?_eq_some_iff.mp hconn
  have hset : setConnection db conn.id (mergeConnection conn (f conn)) (fun _ => rfl) =
      setConnection db conn.id f hf := by
    unfold setConnection Table.update
    congr 2
    apply List.map_congr_left
    intro c hc
    split
    · rename_i hid
      obtain rfl : c = conn := Table.eq_of_key hc hmem (of_decide_eq_true hid)
      exact mergeConnection_current (hf c)
    · rfl
  unfold writeConnection
  rw [hconn]
  dsimp only
  rw [mergeConnection_current (hf conn), hset]

/-- `update_vcenter` with no commit in between. -/
theorem write_updateVcenter {db : Db} {id : Nat} {conn : VCenterConnection}
    (hconn : db.connection id = some conn) (encryptValue : String → String)
    (payload : VCenterUpdate) :
    writeConnection db id conn ((ConnectionEdit.update encryptValue payload).assign conn) =
      (updateVcenter encryptValue db id payload).toOption.map Prod.fst := by
  rw [ConnectionEdit.assign,
    writeConnection_alone (f := payload.write encryptValue) hconn fun _ => rfl]
  unfold updateVcenter
  rw [hconn]
  dsimp only
  split
  · rfl
  · rfl

/-- The request is a run of one session. -/
theorem run_updateVcenter {db db' : Db} {id : Nat} {encryptValue : String → String}
    {payload : VCenterUpdate} {answer : Nat × String}
    (h : updateVcenter encryptValue db id payload = .ok (db', answer)) :
    Runs.Run (Step connectionEditing) (RowEdits.State.start db)
      [.load id (.update encryptValue payload), .commit 0]
      ⟨db', [], [(id, .update encryptValue payload)]⟩ := by
  cases hconn : db.connection id with
  | none =>
    unfold updateVcenter at h
    rw [hconn] at h
    cases h
  | some conn =>
    have hwrite := write_updateVcenter hconn encryptValue payload
    rw [h] at hwrite
    exact run_alone rfl hconn hwrite

/-- `test_vcenter` with no commit in between, if the vCenter tells its version. -/
theorem write_testVcenter {db : Db} {id : Nat} {conn : VCenterConnection}
    (hconn : db.connection id = some conn) {access : Access}
    {getVersion : VCenterConnection → Except String String} {version : String}
    (hversion : (openVCenter access (some conn) >>= getVersion) = .ok version)
    (rejection : String) :
    writeConnection db id conn ((ConnectionEdit.test version).assign conn) =
      (testVcenter access getVersion rejection db id).toOption.map Prod.fst := by
  rw [ConnectionEdit.assign, writeConnection_alone (f := setVersion version) hconn fun _ => rfl]
  unfold testVcenter
  rw [hconn]
  dsimp only
  rw [hversion]
  dsimp only
  split
  · rfl
  · rfl

/-! ## The columns -/

/-- The value that `update_vcenter` gives a column. -/
def ConnectionEdit.updated {β : Type} (field : (String → String) → VCenterUpdate → Option β) :
    ConnectionEdit → Option β
  | .update encryptValue payload => field encryptValue payload
  | .test _ => none

def ConnectionEdit.version : ConnectionEdit → Option (Option String)
  | .update _ _ => none
  | .test version => some (some version)

/-- A column that `update_vcenter` writes and `test_vcenter` does not. -/
def updatedColumn {β : Type} [DecidableEq β] (get : VCenterConnection → β)
    (field : (String → String) → VCenterUpdate → Option β)
    (hupdate : ∀ encryptValue payload conn, get (VCenterUpdate.write encryptValue payload conn) =
      (field encryptValue payload).getD (get conn))
    (htest : ∀ version conn, get (setVersion version conn) = get conn)
    (hmerge : ∀ loaded assigned current, get (mergeConnection loaded assigned current) =
      merge (get loaded) (get assigned) (get current)) : Column connectionEditing β where
  get := get
  given := ConnectionEdit.updated field
  get_assign e conn := by
    cases e with
    | update encryptValue payload => exact hupdate encryptValue payload conn
    | test version => exact htest version conn
  get_merge := hmerge

def versionColumn : Column connectionEditing (Option String) where
  get := VCenterConnection.version
  given := ConnectionEdit.version
  get_assign e conn := by
    cases e with
    | _ => rfl
  get_merge _ _ _ := rfl

/-- The column of the connection is explained by the committed requests. -/
abbrev Explains {β : Type} (committed : List (Nat × ConnectionEdit)) (id : Nat)
    (conn₀ conn : VCenterConnection) (get : VCenterConnection → β)
    (field : (String → String) → VCenterUpdate → Option β) : Prop :=
  Held get (ConnectionEdit.updated field) committed id conn₀ conn

/-- The connection with the id has what the committed requests give it, and was `conn₀` at
first. -/
structure ConnectionHolds (committed : List (Nat × ConnectionEdit)) (id : Nat)
    (conn₀ conn : VCenterConnection) : Prop where
  name : Explains committed id conn₀ conn (fun c => c.name) fun _ payload => payload.name
  host : Explains committed id conn₀ conn (fun c => c.host) fun _ payload => payload.host
  port : Explains committed id conn₀ conn (fun c => c.port) fun _ payload => payload.port
  username :
    Explains committed id conn₀ conn (fun c => c.username) fun _ payload => payload.username
  encryptedPassword : Explains committed id conn₀ conn (fun c => c.encryptedPassword)
    fun encryptValue payload => payload.password.map encryptValue
  verifySsl :
    Explains committed id conn₀ conn (fun c => c.verifySsl) fun _ payload => payload.verifySsl
  isActive :
    Explains committed id conn₀ conn (fun c => c.isActive) fun _ payload => payload.isActive
  version : Held (fun c : VCenterConnection => c.version) ConnectionEdit.version committed id
    conn₀ conn

section Connections

variable {db : Db} {id : Nat} {conn₀ conn : VCenterConnection}
  {events : List (RowEdits.Event Db ConnectionEdit)}
  {t : RowEdits.State Db VCenterConnection ConnectionEdit}

theorem explains_of_run (h : Runs.Run (Step connectionEditing) (RowEdits.State.start db) events t)
    (hconn₀ : db.connection id = some conn₀) (hconn : t.store.connection id = some conn)
    {β : Type} [DecidableEq β] {get : VCenterConnection → β}
    {field : (String → String) → VCenterUpdate → Option β}
    (hupdate : ∀ encryptValue payload conn, get (VCenterUpdate.write encryptValue payload conn) =
      (field encryptValue payload).getD (get conn))
    (htest : ∀ version conn, get (setVersion version conn) = get conn)
    (hmerge : ∀ loaded assigned current, get (mergeConnection loaded assigned current) =
      merge (get loaded) (get assigned) (get current)) :
    Explains t.committed id conn₀ conn get field :=
  (updatedColumn get field hupdate htest hmerge).held_of_run h hconn₀ hconn

/-- **No change of a connection is lost**: if it is still there, each of its columns holds what a
committed request gives it, in whatever order the requests query and commit. -/
theorem connections_hold_edits
    (h : Runs.Run (Step connectionEditing) (RowEdits.State.start db) events t)
    (hconn₀ : db.connection id = some conn₀) (hconn : t.store.connection id = some conn) :
    ConnectionHolds t.committed id conn₀ conn where
  name := explains_of_run h hconn₀ hconn (fun _ _ _ => rfl) (fun _ _ => rfl) fun _ _ _ => rfl
  host := explains_of_run h hconn₀ hconn (fun _ _ _ => rfl) (fun _ _ => rfl) fun _ _ _ => rfl
  port := explains_of_run h hconn₀ hconn (fun _ _ _ => rfl) (fun _ _ => rfl) fun _ _ _ => rfl
  username := explains_of_run h hconn₀ hconn (fun _ _ _ => rfl) (fun _ _ => rfl) fun _ _ _ => rfl
  encryptedPassword :=
    explains_of_run h hconn₀ hconn (fun _ _ _ => rfl) (fun _ _ => rfl) fun _ _ _ => rfl
  verifySsl := explains_of_run h hconn₀ hconn (fun _ _ _ => rfl) (fun _ _ => rfl) fun _ _ _ => rfl
  isActive := explains_of_run h hconn₀ hconn (fun _ _ _ => rfl) (fun _ _ => rfl) fun _ _ _ => rfl
  version := versionColumn.held_of_run h hconn₀ hconn

end Connections

def moveHost : ConnectionEdit :=
  .update id ⟨none, some "vc2.local", none, none, none, none, none⟩

/-- The host is changed while the connection is tested. -/
def testedMeanwhile : List (RowEdits.Event Db ConnectionEdit) :=
  [.load 1 (.test "8.0.2"), .load 1 moveHost, .commit 1, .commit 0]

theorem connections_hold_edits_tested : ∃ t conn,
    Runs.Run (Step connectionEditing) (RowEdits.State.start seededDb) testedMeanwhile t ∧
      t.store.connection 1 = some conn ∧ conn.host = "vc2.local" ∧
      conn.version = some "8.0.2" := by
  have hlocal : seededDb.connection 1 = some localConnection := rfl
  have hrun : Runs.Run (Step connectionEditing) (RowEdits.State.start seededDb) testedMeanwhile
      ⟨{ seededDb with
          connections := Table.singleton
            { localConnection with host := "vc2.local", version := some "8.0.2" } }, [],
        [(1, .test "8.0.2"), (1, moveHost)]⟩ := by
    refine .cons (.load hlocal) (.cons (.load hlocal) (.cons (t := ⟨{ seededDb with
      connections := Table.singleton { localConnection with host := "vc2.local" } },
      [⟨1, .test "8.0.2", localConnection⟩], [(1, moveHost)]⟩) ?_ (.single ?_)))
    · exact .commit (x := ⟨1, moveHost, localConnection⟩) rfl rfl
    · exact .commit (x := ⟨1, ConnectionEdit.test "8.0.2", localConnection⟩) rfl rfl
  have hholds := connections_hold_edits hrun hlocal rfl
  refine ⟨_, _, hrun, rfl, ?_, ?_⟩
  · exact hholds.host.get_eq (e := moveHost) (by simp) rfl
      (by simp [moveHost, ConnectionEdit.updated])
  · exact hholds.version.get_eq (e := .test "8.0.2") (by simp) rfl
      (by simp [moveHost, ConnectionEdit.version])

end VsphereCompliance.Api
