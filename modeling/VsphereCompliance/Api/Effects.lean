import VsphereCompliance.Accounts.Versions
import VsphereCompliance.Api.Requests

/-!
# What requests do

`Effect` lists all that a request can do to the store, with what the invariants of the store
need to know of it: `effect_perform` is the one place that goes through the endpoints.
-/

namespace VsphereCompliance.Api

open Engine Store VCenter Accounts Settings
open Analysis (Access Config triggerAnalysis applyDrs approveStorageMove)

/-- A later version of a connection may differ in all but the id. -/
def SameId (conn conn' : VCenterConnection) : Prop := conn'.id = conn.id

theorem versions_sameId : Table.Versions VCenterConnection.id SameId where
  refl _ := rfl
  trans _ _ _ h h' := Eq.trans h' h
  key_eq _ _ h := h

/-- Connections and patterns may change, but no connection is gone. -/
structure TargetsChange (db db' : Db) : Prop where
  connections : db.connections.Grows SameId db'.connections
  runs : db'.runs = db.runs
  findings : db'.findings = db.findings
  drsHistory : db'.drsHistory = db.drsHistory
  storageHistory : db'.storageHistory = db.storageHistory

section TargetsChange

variable {db db' : Db} {id : Nat}

theorem targetsChange_of_patterns {patterns : Table PatternConfig PatternConfig.id} :
    TargetsChange db { db with patterns } :=
  ⟨.refl versions_sameId _, rfl, rfl, rfl, rfl⟩

theorem targetsChange_setConnection (f : VCenterConnection → VCenterConnection)
    (hf : ∀ conn, (f conn).id = conn.id) : TargetsChange db (setConnection db id f hf) :=
  ⟨Table.grows_update versions_sameId _ hf fun conn _ _ => hf conn, rfl, rfl, rfl, rfl⟩

theorem targetsChange_addVcenter {encryptValue : String → String} {payload : VCenterCreate}
    {answer : AddedVcenter} (h : addVcenter encryptValue db payload = .ok (db', answer)) :
    TargetsChange db db' := by
  unfold addVcenter at h
  dsimp only at h
  split at h
  · cases h
    exact ⟨Table.grows_insertRows versions_sameId _ (fun _ _ => rfl) [payload], rfl, rfl, rfl, rfl⟩
  · cases h

theorem targetsChange_updateVcenter {encryptValue : String → String} {payload : VCenterUpdate}
    {answer : Nat × String} (h : updateVcenter encryptValue db id payload = .ok (db', answer)) :
    TargetsChange db db' := by
  unfold updateVcenter at h
  split at h
  · cases h
  dsimp only at h
  split at h
  · cases h
    exact targetsChange_setConnection _ _
  · cases h

theorem targetsChange_testVcenter {access : Access}
    {getVersion : VCenterConnection → Except String String} {rejection version : String}
    (h : testVcenter access getVersion rejection db id = .ok (db', version)) :
    TargetsChange db db' := by
  unfold testVcenter at h
  split at h
  · cases h
  split at h
  · cases h
  split at h
  · cases h
    exact targetsChange_setConnection _ _
  · cases h

variable {compile : String → Option String}

theorem targetsChange_createPattern {payload : PatternCreate} {answer : Nat × String}
    (h : createPattern compile db payload = .ok (db', answer)) : TargetsChange db db' := by
  unfold createPattern at h
  split at h
  · cases h
  split at h
  · cases h
    exact targetsChange_of_patterns
  · cases h

theorem targetsChange_updatePattern {payload : PatternUpdate} {answer : Nat × String}
    (h : updatePattern compile db id payload = .ok (db', answer)) : TargetsChange db db' := by
  unfold updatePattern at h
  split at h
  · cases h
  split at h
  · cases h
  split at h
  · cases h
    exact targetsChange_of_patterns
  · cases h

theorem targetsChange_deletePattern (h : deletePattern db id = .ok db') :
    TargetsChange db db' := by
  unfold deletePattern at h
  split at h
  · cases h
  · cases h
    exact targetsChange_of_patterns

end TargetsChange

/-! ## The effects -/

variable {c : Cipher}

/-- The state after a request of the user. -/
inductive Effect (now : Nat) (s : State c) (user : User) : State c → Prop
  | nothing : Effect now s user s
  | users {users : Users} : s.accounts.users.Grows users → Effect now s user (s.setUsers now users)
  | settings (settings : AppSettings c) : Effect now s user { s with settings }
  | targets {db : Db} : TargetsChange s.db db → Effect now s user { s with db }
  | deleted (id : Nat) : Effect now s user { s with db := deleteConnection s.db id }
  | triggered {conn : VCenterConnection} (type : AnalysisType) :
      conn ∈ s.db.connections.rows → Effect now s user { s with
        db := s.db.insertRun ⟨conn.id, user.id, type⟩
        tasks := s.tasks ++ [⟨s.db.runs.next, conn.id, type⟩] }
  | applied (access : Access) (order : RowOrder AnalysisFinding) (drs : Analysis.Request)
      (commits : Bool) :
      Effect now s user { s with db := (applyDrs access order s.db drs commits).db }
  | approved (runId findingId : Nat) (commits : Bool) : Effect now s user { s with
      db := (approveStorageMove s.db runId findingId user.id commits).1 }

/-- **Each endpoint** has one of the effects. -/
theorem effect_perform {services : Services} {now : Nat} {s s' : State c} {user : User}
    {req : Request} (huser : user ∈ s.accounts.users.rows)
    (h : perform services now s user req = .ok s') : Effect now s user s' := by
  cases req with
  | read endpoint =>
    cases h
    exact .nothing
  | changePassword salt payload =>
    obtain ⟨users, hchange, rfl⟩ := map_eq_ok_iff.mp h
    exact .users (grows_changePassword huser hchange)
  | createUser salt payload =>
    obtain ⟨⟨users, _⟩, hcreate, rfl⟩ := map_eq_ok_iff.mp h
    exact .users (grows_createUser hcreate)
  | updateUser id payload =>
    obtain ⟨⟨users, _⟩, hupdate, rfl⟩ := map_eq_ok_iff.mp h
    exact .users (grows_updateUser hupdate)
  | deactivateUser id =>
    obtain ⟨users, hdeactivate, rfl⟩ := map_eq_ok_iff.mp h
    exact .users (grows_deactivateUser hdeactivate)
  | addVcenter encryptValue payload =>
    obtain ⟨r, hadd, rfl⟩ := map_eq_ok_iff.mp h
    exact .targets (targetsChange_addVcenter hadd)
  | updateVcenter encryptValue id payload =>
    obtain ⟨r, hupdate, rfl⟩ := map_eq_ok_iff.mp h
    exact .targets (targetsChange_updateVcenter hupdate)
  | deleteVcenter id =>
    obtain ⟨db, hdelete, rfl⟩ := map_eq_ok_iff.mp h
    unfold deleteVcenter at hdelete
    split at hdelete
    · cases hdelete
    · cases hdelete
      exact .deleted id
  | testVcenter access getVersion rejection id =>
    obtain ⟨r, htest, rfl⟩ := map_eq_ok_iff.mp h
    exact .targets (targetsChange_testVcenter htest)
  | triggerAnalysis vcenterId type =>
    unfold perform at h
    dsimp only at h
    split at h
    · cases h
    · rename_i htrigger
      cases h
      obtain ⟨⟨conn, hconn, _⟩, rfl, rfl⟩ := Analysis.triggerAnalysis_eq_some_iff.mp htrigger
      obtain ⟨hmem, rfl⟩ := Table.find?_eq_some_iff.mp hconn
      exact .triggered type hmem
  | applyDrs access order tree outcome runId commits =>
    cases h
    exact .applied access order _ commits
  | approveStorageMove runId findingId commits =>
    cases h
    exact .approved runId findingId commits
  | updateSettings items =>
    obtain ⟨r, _, rfl⟩ := map_eq_ok_iff.mp h
    exact .settings _
  | createPattern payload =>
    obtain ⟨r, hcreate, rfl⟩ := map_eq_ok_iff.mp h
    exact .targets (targetsChange_createPattern hcreate)
  | updatePattern id payload =>
    obtain ⟨r, hupdate, rfl⟩ := map_eq_ok_iff.mp h
    exact .targets (targetsChange_updatePattern hupdate)
  | deletePattern id =>
    obtain ⟨db, hdelete, rfl⟩ := map_eq_ok_iff.mp h
    exact .targets (targetsChange_deletePattern hdelete)

end VsphereCompliance.Api
