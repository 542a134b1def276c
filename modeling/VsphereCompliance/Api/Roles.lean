import VsphereCompliance.Accounts.Authority
import VsphereCompliance.Analysis.Terminal
import VsphereCompliance.Api.Requests
import VsphereCompliance.Library.Runs
import VsphereCompliance.Settings.Batch

/-!
# What a role may change

`ViewerFrame` is what a request of a viewer leaves alone, and `OperatorFrame` what a request of
an operator and the background tasks leave alone. `SameSetup` is what is the same after any
number of requests by users who are no admins. They hold for every state, whatever role the
token claims (`role_frame`).
-/

namespace VsphereCompliance.Api

open Store Accounts Settings Runs
open Analysis (Access Config triggerAnalysis doAnalysis applyDrs approveStorageMove)

/-! ## Frames -/

/-- The rows are the same but for the hash of the user. -/
def OnlyHash (user : User) (rows rows' : List User) : Prop :=
  ∃ hash, rows' = rows.map fun u => if u.id = user.id then { u with hashedPassword := hash } else u

/-- The user's hash may be another one, and then the time of the update. -/
structure OwnPassword {c : Cipher} (user : User) (s s' : State c) : Prop where
  users : OnlyHash user s.accounts.users.rows s'.accounts.users.rows
  updatedAt : ∀ id, s'.userUpdatedAt id ≠ s.userUpdatedAt id →
    id = user.id ∧ s'.accounts.users.rows ≠ s.accounts.users.rows

structure ViewerFrame {c : Cipher} (user : User) (s s' : State c) : Prop
    extends OwnPassword user s s' where
  auditLogs : s'.accounts.auditLogs = s.accounts.auditLogs
  settings : s'.settings = s.settings
  db : s'.db = s.db
  tasks : s'.tasks = s.tasks

/-- The connections and the patterns stay. -/
structure SameTargets (db db' : Db) : Prop where
  connections : db'.connections = db.connections
  patterns : db'.patterns = db.patterns

/-- Runs, findings and the two histories may change as well. -/
structure OperatorFrame {c : Cipher} (user : User) (s s' : State c) : Prop
    extends OwnPassword user s s' where
  auditLogs : s'.accounts.auditLogs = s.accounts.auditLogs
  settings : s'.settings = s.settings
  targets : SameTargets s.db s'.db

def withoutHash (u : User) : User := { u with hashedPassword := none }

/-- Users, but for their hashes, settings, connections and patterns are the same. -/
structure SameSetup {c : Cipher} (s s' : State c) : Prop where
  users : s'.accounts.users.rows.map withoutHash = s.accounts.users.rows.map withoutHash
  auditLogs : s'.accounts.auditLogs = s.accounts.auditLogs
  settings : s'.settings = s.settings
  targets : SameTargets s.db s'.db

variable {c : Cipher} {services : Services} {now : Nat} {s s' t : State c} {user : User}
  {req : Request}

theorem SameTargets.refl (db : Db) : SameTargets db db := ⟨rfl, rfl⟩

theorem SameTargets.trans {db db' db'' : Db} (h : SameTargets db db')
    (h' : SameTargets db' db'') : SameTargets db db'' :=
  ⟨h'.connections.trans h.connections, h'.patterns.trans h.patterns⟩

theorem onlyHash_refl {users : Users} (huser : user ∈ users.rows) :
    OnlyHash user users.rows users.rows := by
  refine ⟨user.hashedPassword, ?_⟩
  conv_lhs => rw [← List.map_id users.rows]
  apply List.map_congr_left
  intro u hu
  split
  · rename_i hid
    rw [Users.eq_of_id hu huser hid]
    rfl
  · rfl

theorem ownPassword_of_eq (huser : user ∈ s.accounts.users.rows)
    (haccounts : s'.accounts = s.accounts) (hupdated : s'.userUpdatedAt = s.userUpdatedAt) :
    OwnPassword user s s' := by
  refine ⟨?_, fun id hne => absurd (congrFun hupdated id) hne⟩
  rw [haccounts]
  exact onlyHash_refl huser

theorem ViewerFrame.refl (huser : user ∈ s.accounts.users.rows) : ViewerFrame user s s :=
  ⟨ownPassword_of_eq huser rfl rfl, rfl, rfl, rfl, rfl⟩

theorem ViewerFrame.operatorFrame (h : ViewerFrame user s s') : OperatorFrame user s s' :=
  ⟨h.toOwnPassword, h.auditLogs, h.settings, h.db ▸ SameTargets.refl s.db⟩

theorem OnlyHash.map_withoutHash {rows rows' : List User} (h : OnlyHash user rows rows') :
    rows'.map withoutHash = rows.map withoutHash := by
  obtain ⟨hash, rfl⟩ := h
  rw [List.map_map]
  apply List.map_congr_left
  intro u _
  dsimp only [Function.comp_apply]
  split
  · rfl
  · rfl

theorem OperatorFrame.sameSetup (h : OperatorFrame user s s') : SameSetup s s' :=
  ⟨h.users.map_withoutHash, h.auditLogs, h.settings, h.targets⟩

theorem SameSetup.refl (s : State c) : SameSetup s s := ⟨rfl, rfl, rfl, .refl s.db⟩

theorem SameSetup.trans (h : SameSetup s s') (h' : SameSetup s' t) : SameSetup s t :=
  ⟨h'.users.trans h.users, h'.auditLogs.trans h.auditLogs, h'.settings.trans h.settings,
    h.targets.trans h'.targets⟩

/-! ## The password -/

/-- The time of an update is set for rows that differ. -/
theorem of_stamp_ne {old new : Option User} {updatedAt : Option Nat}
    (h : stamp now old new updatedAt ≠ updatedAt) :
    ∃ u v, old = some u ∧ new = some v ∧ u ≠ v := by
  unfold stamp at h
  split at h
  · rename_i u v
    split at h
    · exact absurd rfl h
    · exact ⟨u, v, rfl, rfl, ‹_›⟩
  · exact absurd rfl h

theorem ownPassword_setUsers {users : Users} (h : OnlyHash user s.accounts.users.rows users.rows) :
    OwnPassword user s (s.setUsers now users) := by
  refine ⟨h, ?_⟩
  intro id hne
  obtain ⟨u, v, hu, hv, huv⟩ := of_stamp_ne hne
  obtain ⟨hmem, hid⟩ := Users.find?_eq_some_iff.mp hu
  obtain ⟨hmem', hid'⟩ := Users.find?_eq_some_iff.mp hv
  refine ⟨?_, ?_⟩
  · by_contra hother
    obtain ⟨hash, hrows⟩ := h
    rw [hrows, List.mem_map] at hmem'
    obtain ⟨w, hw, rfl⟩ := hmem'
    split at hid'
    · rename_i hwid
      exact hother (hid'.symm.trans hwid)
    · rename_i hwid
      apply huv
      rw [if_neg hwid]
      exact Users.eq_of_id hmem hw (hid.trans hid'.symm)
  · intro hsame
    have hmem'' : v ∈ s.accounts.users.rows := hsame ▸ hmem'
    exact huv (Users.eq_of_id hmem hmem'' (hid.trans hid'.symm))

theorem onlyHash_changePassword {b : Bcrypt} {salt : String} {users users' : Users}
    {payload : ChangePassword} (h : changePassword b salt users user payload = .ok users') :
    OnlyHash user users.rows users'.rows := by
  obtain ⟨_, hash, hrows⟩ := rows_of_changePassword h
  exact ⟨some hash, hrows⟩

/-! ## The analyses -/

theorem sameTargets_doAnalysis (cfg : Config) (access : Access) (db : Db) (runId vcenterId : Nat)
    (type : AnalysisType) :
    SameTargets db (doAnalysis cfg access db runId vcenterId type).1 := by
  unfold doAnalysis
  split
  · exact .refl db
  split
  · exact ⟨rfl, rfl⟩
  dsimp only
  split
  · exact ⟨rfl, rfl⟩
  · exact .refl db

theorem sameTargets_triggerAnalysis {db db' : Db} {run : RunRequest} {runId : Nat}
    (h : triggerAnalysis db run = some (db', runId)) : SameTargets db db' := by
  obtain ⟨_, rfl, _⟩ := Analysis.triggerAnalysis_eq_some_iff.mp h
  exact ⟨rfl, rfl⟩

theorem sameTargets_applyDrs (access : Access) (order : RowOrder AnalysisFinding) (db : Db)
    (drs : Analysis.Request) (commits : Bool) :
    SameTargets db (applyDrs access order db drs commits).db := by
  by_cases hreaches : Analysis.Reaches access db drs.runId
  · rw [Analysis.applyDrs_of_reaches order commits hreaches]
    cases commits with
    | true => exact ⟨rfl, rfl⟩
    | false => exact .refl db
  · rw [(Analysis.applyDrs_of_not_reaches order commits hreaches).1]
    exact .refl db

theorem sameTargets_approveStorageMove (db : Db) (runId findingId userId : Nat) (commits : Bool) :
    SameTargets db (approveStorageMove db runId findingId userId commits).1 := by
  rcases Analysis.approveStorageMove_cases db runId findingId userId commits with
    h | ⟨f, _, _, _, _, h⟩
  · rw [h]
    exact .refl db
  · rw [h]
    exact ⟨rfl, rfl⟩

/-! ## One request -/

/-- **The endpoints for every user** read, or set the own password. -/
theorem viewerFrame_perform (huser : user ∈ s.accounts.users.rows)
    (hguard : req.guard = .currentUser) (h : perform services now s user req = .ok s') :
    ViewerFrame user s s' := by
  cases req with
  | read endpoint =>
    cases h
    exact .refl huser
  | changePassword salt payload =>
    obtain ⟨users, hchange, rfl⟩ := map_eq_ok_iff.mp h
    exact ⟨ownPassword_setUsers (onlyHash_changePassword hchange), rfl, rfl, rfl, rfl⟩
  | _ => cases hguard

/-- **The endpoints for operators** write runs, findings and histories at most. -/
theorem operatorFrame_perform (huser : user ∈ s.accounts.users.rows)
    (hguard : req.guard ≠ .admin) (h : perform services now s user req = .ok s') :
    OperatorFrame user s s' := by
  cases req with
  | read endpoint =>
    cases h
    exact (ViewerFrame.refl huser).operatorFrame
  | changePassword salt payload => exact (viewerFrame_perform huser rfl h).operatorFrame
  | triggerAnalysis vcenterId type =>
    unfold perform at h
    dsimp only at h
    split at h
    · cases h
    · rename_i htrigger
      cases h
      exact ⟨ownPassword_of_eq huser rfl rfl, rfl, rfl, sameTargets_triggerAnalysis htrigger⟩
  | applyDrs access order tree outcome runId commits =>
    cases h
    exact ⟨ownPassword_of_eq huser rfl rfl, rfl, rfl,
      sameTargets_applyDrs access order s.db _ commits⟩
  | approveStorageMove runId findingId commits =>
    cases h
    exact ⟨ownPassword_of_eq huser rfl rfl, rfl, rfl,
      sameTargets_approveStorageMove s.db runId findingId user.id commits⟩
  | _ => exact absurd rfl hguard

theorem viewerFrame_handle {token : String}
    (huser : getCurrentUser services.jwt s.accounts.users token = .ok user)
    (hrole : user.role = .viewer) :
    ViewerFrame user s (handle services s (.request now token req)) := by
  have hmem := (mem_of_getCurrentUser huser).1
  rcases handle_request_cases services s now token req with hsame | ⟨user', huser', hadmits, h⟩
  · rw [hsame]
    exact .refl hmem
  · rw [huser, Except.ok.injEq] at huser'
    subst huser'
    refine viewerFrame_perform hmem ?_ h
    rw [hrole] at hadmits
    cases hguard : req.guard with
    | currentUser => rfl
    | operator =>
      rw [hguard] at hadmits
      rcases hadmits with hadmits | hadmits
      · cases hadmits
      · cases hadmits
    | admin =>
      rw [hguard] at hadmits
      cases hadmits

theorem operatorFrame_handle {token : String}
    (huser : getCurrentUser services.jwt s.accounts.users token = .ok user)
    (hrole : user.role ≠ .admin) :
    OperatorFrame user s (handle services s (.request now token req)) := by
  have hmem := (mem_of_getCurrentUser huser).1
  rcases handle_request_cases services s now token req with hsame | ⟨user', huser', hadmits, h⟩
  · rw [hsame]
    exact (ViewerFrame.refl hmem).operatorFrame
  · rw [huser, Except.ok.injEq] at huser'
    subst huser'
    refine operatorFrame_perform hmem ?_ h
    intro hguard
    rw [hguard] at hadmits
    exact hrole hadmits

/-! ## Background tasks -/

/-- The background tasks with these numbers run, one after the other. -/
def runBackground (services : Services) (s : State c) (runs : List (Nat × Config × Access)) :
    State c :=
  runs.foldl (fun s run => handle services s (.background run.1 run.2.1 run.2.2)) s

/-- **A background task** writes runs and findings only. -/
theorem OperatorFrame.background (h : OperatorFrame user s s') (i : Nat) (cfg : Config)
    (access : Access) : OperatorFrame user s (handle services s' (.background i cfg access)) := by
  unfold handle
  dsimp only
  split
  · exact h
  · exact ⟨⟨h.users, h.updatedAt⟩, h.auditLogs, h.settings,
      h.targets.trans (sameTargets_doAnalysis cfg access _ _ _ _)⟩

theorem OperatorFrame.runBackground (h : OperatorFrame user s s')
    (runs : List (Nat × Config × Access)) :
    OperatorFrame user s (runBackground services s' runs) := by
  induction runs generalizing s' with
  | nil => exact h
  | cons run runs ih => exact ih (h.background run.1 run.2.1 run.2.2)

/-! ## Runs -/

/-- The event is no request of an admin. -/
def NotByAdmin (services : Services) (s : State c) : Event → Prop
  | .request _ token _ => ∀ user, getCurrentUser services.jwt s.accounts.users token = .ok user →
      user.role ≠ .admin
  | .background _ _ _ => True

/-- **One event** that is no request of an admin. -/
theorem sameSetup_handle {e : Event} (h : NotByAdmin services s e) :
    SameSetup s (handle services s e) := by
  cases e with
  | request now token req =>
    rcases handle_request_cases services s now token req with hsame | ⟨user, huser, _, _⟩
    · rw [hsame]
      exact .refl s
    · exact (operatorFrame_handle huser (h user huser)).sameSetup
  | background i cfg access =>
    unfold handle
    dsimp only
    split
    · exact .refl s
    · exact ⟨rfl, rfl, rfl, sameTargets_doAnalysis cfg access _ _ _ _⟩

/-- **Any number of events** of which none is a request of an admin. -/
theorem sameSetup_run {events : List Event}
    (h : Throughout (handle services) (NotByAdmin services) s events) :
    SameSetup s (events.foldl (handle services) s) :=
  h.invariant (fun _ _ hs hadmin => hs.trans (sameSetup_handle hadmin)) (.refl s)

/-- **What the roles may change**: a viewer the own password, an operator also what analyses
write, and users who are no admins together nothing of the setup. -/
theorem role_frame (services : Services) (s : State c) :
    (∀ now token req user, getCurrentUser services.jwt s.accounts.users token = .ok user →
      (user.role = .viewer →
        ViewerFrame user s (handle services s (.request now token req))) ∧
      (user.role = .operator → ∀ runs, OperatorFrame user s
        (runBackground services (handle services s (.request now token req)) runs))) ∧
    ∀ events, Throughout (handle services) (NotByAdmin services) s events →
      SameSetup s (events.foldl (handle services) s) := by
  refine ⟨?_, fun events h => sameSetup_run h⟩
  intro now token req user huser
  refine ⟨fun hrole => viewerFrame_handle huser hrole, ?_⟩
  intro hrole runs
  apply OperatorFrame.runBackground
  apply operatorFrame_handle huser
  rw [hrole]
  intro hadmin
  cases hadmin

/-! ## A viewer sets a password -/

/-- Only the user's hash may be another one. -/
structure HashFrame {c : Cipher} (user : User) (s s' : State c) : Prop where
  users : OnlyHash user s.accounts.users.rows s'.accounts.users.rows
  updatedAt : s'.userUpdatedAt = s.userUpdatedAt
  auditLogs : s'.accounts.auditLogs = s.accounts.auditLogs
  settings : s'.settings = s.settings
  db : s'.db = s.db
  tasks : s'.tasks = s.tasks

def vera : User where
  id := 1
  username := "vera"
  email := none
  hashedPassword := some "$old"
  fullName := none
  role := .viewer
  isActive := true
  isLdap := false

/-- The token says that she is an admin. -/
def veraServices : Services where
  bcrypt := dollarBcrypt
  jwt := ⟨fun _ => some ⟨some "1", some "admin"⟩, fun s => if s = "1" then some 1 else none⟩
  compile := fun _ => none

def veraState : State labelledCipher where
  accounts := ⟨⟨Table.singleton vera, by decide⟩, []⟩
  userUpdatedAt := fun _ => none
  settings := .empty
  db := Analysis.seededDb
  tasks := []

/-- **The row of the viewer gets a new time of update** besides the new hash. -/
theorem password_change_stamps :
    (handle veraServices veraState
      (.request 5 "token" (.changePassword "salt" ⟨"old", "new"⟩))).userUpdatedAt 1 = some 5 ∧
    ¬ ∀ (services : Services) (s : State labelledCipher) (now : Nat) (token : String)
        (req : Request) (user : User),
      getCurrentUser services.jwt s.accounts.users token = .ok user → user.role = .viewer →
        HashFrame user s (handle services s (.request now token req)) := by
  have hstamp : (handle veraServices veraState
      (.request 5 "token" (.changePassword "salt" ⟨"old", "new"⟩))).userUpdatedAt 1 = some 5 := by
    decide
  refine ⟨hstamp, ?_⟩
  intro hall
  have hframe := hall veraServices veraState 5 "token" (.changePassword "salt" ⟨"old", "new"⟩)
    vera rfl rfl
  rw [hframe.updatedAt] at hstamp
  cases hstamp

end VsphereCompliance.Api
