import VsphereCompliance.Accounts.Login
import VsphereCompliance.Analysis.ApplyDrs
import VsphereCompliance.Analysis.ApproveStorage
import VsphereCompliance.Api.Connections
import VsphereCompliance.Api.Patterns
import VsphereCompliance.Settings.AppSettings

/-!
# The requests of the API

`Request` has the endpoints of the seven routers that ask for a token, each with its guard
(`Request.guard`) and what it writes (`perform`); the answers of the endpoints that only read
are left out. A request takes effect when `getCurrentUser` finds an active user, the guard lets
the user through and the endpoint succeeds (`respond_eq_ok_iff`). The guards look at the row of
the user, not at the role in the token.
-/

namespace VsphereCompliance.Api

open Engine Store VCenter Accounts Settings
open Analysis (Access Config triggerAnalysis doAnalysis applyDrs approveStorageMove)

/-! ## Guards -/

/-- What `jwt.decode` returns. -/
structure Payload where
  sub : Option String
  role : Option String
  deriving DecidableEq, Repr

/-- `jwt.decode`, none where it raises, and `int` of the subject. -/
structure Jwt where
  decode : String → Option Payload
  int : String → Option Int

/-- The active user with the id. -/
def activeUser (users : Users) : Int → Option User
  | .ofNat id => (users.find? id).filter fun u => u.isActive
  | .negSucc _ => none

/-- `get_current_user`. -/
def getCurrentUser (jwt : Jwt) (users : Users) (token : String) : Except HttpError User :=
  match jwt.decode token with
  | none => .error ⟨401, "Could not validate credentials"⟩
  | some payload =>
    match truthy payload.sub with
    | none => .error ⟨401, "Invalid token"⟩
    | some sub =>
      match jwt.int sub with
      | none => .error serverError
      | some userId =>
        match activeUser users userId with
        | none => .error ⟨401, "User not found or inactive"⟩
        | some user => .ok user

def requireAdmin (currentUser : User) : Except HttpError User :=
  if currentUser.role ≠ .admin then .error ⟨403, "Admin role required"⟩ else .ok currentUser

def requireOperator (currentUser : User) : Except HttpError User :=
  if currentUser.role ∉ [UserRole.admin, .operator] then
    .error ⟨403, "Operator role or above required"⟩
  else .ok currentUser

/-- The dependency that an endpoint declares. -/
inductive Guard
  | currentUser
  | operator
  | admin
  deriving DecidableEq, Repr

def Guard.check : Guard → User → Except HttpError User
  | .currentUser => .ok
  | .operator => requireOperator
  | .admin => requireAdmin

/-- The guard lets the role through. -/
def Guard.Admits : Guard → UserRole → Prop
  | .currentUser, _ => True
  | .operator, role => role = .admin ∨ role = .operator
  | .admin, role => role = .admin

theorem ite_error_eq_ok_iff {α ε : Type} {p : Prop} [Decidable p] {e : ε} {a b : α} :
    (if p then .error e else .ok a : Except ε α) = .ok b ↔ ¬ p ∧ b = a := by
  by_cases hp : p
  · rw [if_pos hp]
    refine ⟨?_, fun h => absurd hp h.1⟩
    intro h
    cases h
  · rw [if_neg hp, Except.ok.injEq]
    exact ⟨fun h => ⟨hp, h.symm⟩, fun h => h.2.symm⟩

theorem check_eq_ok_iff {guard : Guard} {user user' : User} :
    guard.check user = .ok user' ↔ guard.Admits user.role ∧ user' = user := by
  cases guard with
  | currentUser =>
    show Except.ok user = .ok user' ↔ True ∧ _
    rw [true_and, Except.ok.injEq]
    exact eq_comm
  | operator =>
    have hmem : user.role ∈ [UserRole.admin, .operator] ↔
        user.role = .admin ∨ user.role = .operator := List.mem_pair
    refine ite_error_eq_ok_iff.trans ?_
    rw [not_not, hmem]
    rfl
  | admin =>
    refine ite_error_eq_ok_iff.trans ?_
    rw [not_not]
    rfl

theorem mem_of_activeUser {users : Users} {id : Int} {user : User}
    (h : activeUser users id = some user) : user ∈ users.rows ∧ user.isActive = true := by
  cases id with
  | ofNat id =>
    obtain ⟨hfind, hactive⟩ := Option.filter_eq_some_iff.mp h
    exact ⟨(Users.find?_eq_some_iff.mp hfind).1, hactive⟩
  | negSucc n => cases h

/-- The current user is an active row of the table. -/
theorem mem_of_getCurrentUser {jwt : Jwt} {users : Users} {token : String} {user : User}
    (h : getCurrentUser jwt users token = .ok user) :
    user ∈ users.rows ∧ user.isActive = true := by
  unfold getCurrentUser at h
  split at h
  · cases h
  split at h
  · cases h
  split at h
  · cases h
  split at h
  · cases h
  rename_i hactive
  cases h
  exact mem_of_activeUser hactive

/-! ## Endpoints -/

/-- The endpoints that issue only queries. `get_inventory` and `test_ldap` also ask another
server, and `upload_logo` writes a file. -/
inductive Read
  | me
  | listUsers
  | listVcenters
  | getInventory
  | listRuns
  | getRun
  | getFindings
  | listReports
  | getReport
  | exportReport
  | getSettings
  | listPatterns
  | testLdap
  | uploadLogo
  | getSummary
  | recentFindings
  | auditLog
  deriving DecidableEq, Repr

def Read.guard : Read → Guard
  | .me => .currentUser
  | .listUsers => .admin
  | .listVcenters => .currentUser
  | .getInventory => .operator
  | .listRuns => .currentUser
  | .getRun => .currentUser
  | .getFindings => .currentUser
  | .listReports => .currentUser
  | .getReport => .currentUser
  | .exportReport => .currentUser
  | .getSettings => .admin
  | .listPatterns => .currentUser
  | .testLdap => .admin
  | .uploadLogo => .admin
  | .getSummary => .currentUser
  | .recentFindings => .currentUser
  | .auditLog => .admin

/-- A request, with what it meets outside the store. -/
inductive Request
  | read (endpoint : Read)
  | changePassword (salt : String) (payload : ChangePassword)
  | createUser (salt : String) (payload : UserCreate)
  | updateUser (id : Nat) (payload : UserUpdate)
  | deactivateUser (id : Nat)
  | addVcenter (encryptValue : String → String) (payload : VCenterCreate)
  | updateVcenter (encryptValue : String → String) (id : Nat) (payload : VCenterUpdate)
  | deleteVcenter (id : Nat)
  | testVcenter (access : Access) (getVersion : VCenterConnection → Except String String)
      (rejection : String) (id : Nat)
  | triggerAnalysis (vcenterId : Nat) (type : AnalysisType)
  | applyDrs (access : Access) (order : RowOrder AnalysisFinding) (tree : Tree)
      (outcome : Nat → Reconfigure) (runId : Nat) (commits : Bool)
  | approveStorageMove (runId findingId : Nat) (commits : Bool)
  | updateSettings (items : List SettingUpdate)
  | createPattern (payload : PatternCreate)
  | updatePattern (id : Nat) (payload : PatternUpdate)
  | deletePattern (id : Nat)

def Request.guard : Request → Guard
  | .read endpoint => endpoint.guard
  | .changePassword _ _ => .currentUser
  | .createUser _ _ => .admin
  | .updateUser _ _ => .admin
  | .deactivateUser _ => .admin
  | .addVcenter _ _ => .admin
  | .updateVcenter _ _ _ => .admin
  | .deleteVcenter _ => .admin
  | .testVcenter _ _ _ _ => .admin
  | .triggerAnalysis _ _ => .operator
  | .applyDrs _ _ _ _ _ _ => .operator
  | .approveStorageMove _ _ _ => .operator
  | .updateSettings _ => .admin
  | .createPattern _ => .admin
  | .updatePattern _ _ => .admin
  | .deletePattern _ => .admin

/-! ## The store -/

/-- A call of `_do_analysis` that waits in the background. -/
structure Task where
  runId : Nat
  vcenterId : Nat
  type : AnalysisType
  deriving DecidableEq, Repr

/-- All tables and the background tasks. `userUpdatedAt` is the column `updated_at` of the
users, by id. -/
structure State (c : Cipher) where
  accounts : AccountDb
  userUpdatedAt : Nat → Option Nat
  settings : AppSettings c
  db : Db
  tasks : List Task

variable {c : Cipher}

/-- `onupdate=func.now()`: an `UPDATE` of a row sets the time. -/
def stamp (now : Nat) (old new : Option User) (updatedAt : Option Nat) : Option Nat :=
  match old, new with
  | some u, some v => if u = v then updatedAt else some now
  | _, _ => updatedAt

/-- The state after a session that leaves these users. -/
def State.setUsers (s : State c) (now : Nat) (users : Users) : State c :=
  { s with
    accounts := { s.accounts with users }
    userUpdatedAt := fun id =>
      stamp now (s.accounts.users.find? id) (users.find? id) (s.userUpdatedAt id) }

/-- The libraries that requests use; `compile` is the text of the error of `re.compile`. -/
structure Services where
  bcrypt : Bcrypt
  jwt : Jwt
  compile : String → Option String

/-- The body of the endpoint for the user. -/
def perform (services : Services) (now : Nat) (s : State c) (user : User) :
    Request → Except HttpError (State c)
  | .read _ => .ok s
  | .changePassword salt payload =>
    (changePassword services.bcrypt salt s.accounts.users user payload).map (s.setUsers now)
  | .createUser salt payload =>
    (createUser services.bcrypt salt s.accounts.users payload).map fun r => s.setUsers now r.1
  | .updateUser id payload =>
    (updateUser s.accounts.users id payload).map fun r => s.setUsers now r.1
  | .deactivateUser id => (deactivateUser s.accounts.users id).map (s.setUsers now)
  | .addVcenter encryptValue payload =>
    (addVcenter encryptValue s.db payload).map fun r => { s with db := r.1 }
  | .updateVcenter encryptValue id payload =>
    (updateVcenter encryptValue s.db id payload).map fun r => { s with db := r.1 }
  | .deleteVcenter id => (deleteVcenter s.db id).map fun db => { s with db }
  | .testVcenter access getVersion rejection id =>
    (testVcenter access getVersion rejection s.db id).map fun r => { s with db := r.1 }
  | .triggerAnalysis vcenterId type =>
    match triggerAnalysis s.db ⟨vcenterId, user.id, type⟩ with
    | none => .error ⟨404, "vCenter not found"⟩
    | some (db, runId) => .ok { s with db, tasks := s.tasks ++ [⟨runId, vcenterId, type⟩] }
  | .applyDrs access order tree outcome runId commits =>
    let drs : Analysis.Request := ⟨tree, runId, user.username, outcome⟩
    .ok { s with db := (applyDrs access order s.db drs commits).db }
  | .approveStorageMove runId findingId commits =>
    .ok { s with db := (approveStorageMove s.db runId findingId user.id commits).1 }
  | .updateSettings items =>
    (updateSettings s.settings items).map fun r => { s with settings := r.1 }
  | .createPattern payload =>
    (createPattern services.compile s.db payload).map fun r => { s with db := r.1 }
  | .updatePattern id payload =>
    (updatePattern services.compile s.db id payload).map fun r => { s with db := r.1 }
  | .deletePattern id => (deletePattern s.db id).map fun db => { s with db }

theorem map_eq_ok_iff {α β ε : Type} {f : α → β} {x : Except ε α} {b : β} :
    x.map f = .ok b ↔ ∃ a, x = .ok a ∧ f a = b := by
  cases x with
  | error e =>
    refine ⟨?_, ?_⟩
    · intro h
      cases h
    · rintro ⟨_, h, _⟩
      cases h
  | ok a =>
    refine ⟨?_, ?_⟩
    · intro h
      exact ⟨a, rfl, Except.ok.inj h⟩
    · rintro ⟨_, h, rfl⟩
      cases h
      rfl

/-- The user of the token, the guard and the endpoint. -/
def respond (services : Services) (now : Nat) (s : State c) (token : String)
    (req : Request) : Except HttpError (State c) := do
  let currentUser ← getCurrentUser services.jwt s.accounts.users token
  let user ← req.guard.check currentUser
  perform services now s user req

theorem respond_eq_ok_iff {services : Services} {now : Nat} {s s' : State c} {token : String}
    {req : Request} : respond services now s token req = .ok s' ↔
      ∃ user, getCurrentUser services.jwt s.accounts.users token = .ok user ∧
        req.guard.Admits user.role ∧ perform services now s user req = .ok s' := by
  unfold respond
  cases getCurrentUser services.jwt s.accounts.users token with
  | error e =>
    refine ⟨?_, ?_⟩
    · intro h
      cases h
    · rintro ⟨_, hcurrent, _⟩
      cases hcurrent
  | ok currentUser =>
    show (req.guard.check currentUser >>= fun user => perform services now s user req) = _ ↔ _
    refine ⟨?_, ?_⟩
    · intro h
      cases hcheck : req.guard.check currentUser with
      | error e =>
        rw [hcheck] at h
        cases h
      | ok user =>
        rw [hcheck] at h
        obtain ⟨hadmits, rfl⟩ := check_eq_ok_iff.mp hcheck
        exact ⟨user, rfl, hadmits, h⟩
    · rintro ⟨user, hcurrent, hadmits, hperform⟩
      cases hcurrent
      rw [check_eq_ok_iff.mpr ⟨hadmits, rfl⟩]
      exact hperform

/-! ## Events -/

inductive Event
  | request (now : Nat) (token : String) (req : Request)
  | background (i : Nat) (cfg : Config) (access : Access)

/-- The state after the request, or after the background task with the number. -/
def handle (services : Services) (s : State c) : Event → State c
  | .request now token req =>
    match respond services now s token req with
    | .error _ => s
    | .ok s' => s'
  | .background i cfg access =>
    match s.tasks[i]? with
    | none => s
    | some task =>
      { s with
        db := (doAnalysis cfg access s.db task.runId task.vcenterId task.type).1
        tasks := s.tasks.eraseIdx i }

/-- **A request changes nothing unless** its user may make it and it succeeds. -/
theorem handle_request_cases (services : Services) (s : State c) (now : Nat) (token : String)
    (req : Request) : handle services s (.request now token req) = s ∨
      ∃ user, getCurrentUser services.jwt s.accounts.users token = .ok user ∧
        req.guard.Admits user.role ∧
        perform services now s user req = .ok (handle services s (.request now token req)) := by
  unfold handle
  dsimp only
  cases h : respond services now s token req with
  | error e => exact Or.inl rfl
  | ok s' => exact Or.inr (respond_eq_ok_iff.mp h)

end VsphereCompliance.Api
