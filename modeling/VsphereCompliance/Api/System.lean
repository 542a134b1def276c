import VsphereCompliance.Api.Effects
import VsphereCompliance.Api.ManualRuns
import VsphereCompliance.Store.Versions

/-!
# The running system

`Happening` is all that changes the store of a running process: logins, requests, background
tasks and scheduled analyses. The clock enters through the tokens, which expire (`decodeToken`).
Whatever happens, the store evolves (`evolves_run`): accounts, runs and findings only come in
later versions, and the logs go on.
-/

namespace VsphereCompliance.Accounts

/-- The member of the enumeration is a string. -/
def UserRole.text : UserRole → String
  | .admin => "admin"
  | .operator => "operator"
  | .viewer => "viewer"

end VsphereCompliance.Accounts

namespace VsphereCompliance.Api

open Engine Store VCenter Accounts Settings
open Analysis (Access Config doAnalysis applyDrs approveStorageMove runScheduledAnalysis)

/-! ## Tokens -/

/-- A payload with its expiry; all times are in seconds. -/
structure TimedPayload extends Payload where
  exp : Int
  deriving DecidableEq, Repr

/-- `jose.jwt` under `SECRET_KEY` and `ALGORITHM`: `verify` is the check of the signature. -/
structure Jose where
  encode : TimedPayload → String
  verify : String → Option TimedPayload

/-- What a process is started with. -/
structure Platform where
  bcrypt : Bcrypt
  compile : String → Option String
  jose : Jose
  int : String → Option Int
  /-- `TOKEN_EXP`, in minutes. -/
  tokenExp : Int

/-- What the packages promise: a signature is accepted, and `int` reads what `str` wrote. -/
structure Platform.Lawful (p : Platform) : Prop where
  verify_encode : ∀ payload, p.jose.verify (p.jose.encode payload) = some payload
  int_repr : ∀ n : Nat, p.int n.repr = some n

/-- The `exp` of `create_access_token`. A `timedelta` is a number of seconds, and one of zero
is false. -/
def Platform.expiry (p : Platform) (now : Nat) (expiresDelta : Option Int) : Int :=
  match expiresDelta with
  | none => now + p.tokenExp * 60
  | some delta => if delta = 0 then now + p.tokenExp * 60 else now + delta

/-- `create_access_token`. -/
def Platform.createAccessToken (p : Platform) (now : Nat) (data : Payload)
    (expiresDelta : Option Int) : String :=
  p.jose.encode { data with exp := p.expiry now expiresDelta }

/-- `decode_token`; none for the answer 401. `jwt.decode` refuses a token behind its expiry. -/
def Platform.decodeToken (p : Platform) (now : Nat) (token : String) : Option TimedPayload :=
  (p.jose.verify token).filter fun payload => (now : Int) ≤ payload.exp

/-- What the endpoints see at the time. -/
def Platform.services (p : Platform) (now : Nat) : Services where
  bcrypt := p.bcrypt
  jwt := ⟨fun token => (p.decodeToken now token).map TimedPayload.toPayload, p.int⟩
  compile := p.compile

/-- The token of a successful login. -/
def Platform.loginToken (p : Platform) (now : Nat) (claims : Claims) : String :=
  p.createAccessToken now ⟨some claims.sub, some claims.role.text⟩ none

/-! ## Happenings -/

inductive Happening
  | login (now : Nat) (server : Server) (req : LoginRequest)
  | occurrence (o : Occurrence)

/-- The time at which a request comes; nothing else looks at the clock. -/
def Occurrence.time : Occurrence → Nat
  | .event (.request now _ _) => now
  | .event (.background _ _ _) => 0
  | .scheduled _ _ _ => 0

variable {c : Cipher}

/-- The state after a login that leaves these accounts. -/
def State.setAccounts (s : State c) (now : Nat) (accounts : AccountDb) : State c :=
  { s.setUsers now accounts.users with accounts }

def happen (p : Platform) (s : State c) : Happening → State c
  | .login now server req =>
    match login p.bcrypt server s.accounts req with
    | .error _ => s
    | .ok (accounts, _) => s.setAccounts now accounts
  | .occurrence o => occur (p.services o.time) s o

/-! ## Evolution -/

structure Evolves (s s' : State c) : Prop where
  users : s.accounts.users.Grows s'.accounts.users
  db : Later s.db s'.db
  auditLogs : s.accounts.auditLogs <+: s'.accounts.auditLogs

section Evolves

variable {s s' s'' : State c}

theorem Evolves.refl (s : State c) : Evolves s s :=
  ⟨.refl versions_sameAccount _, .refl _, List.prefix_refl _⟩

theorem Evolves.trans (h : Evolves s s') (h' : Evolves s' s'') : Evolves s s'' :=
  ⟨h.users.trans versions_sameAccount h'.users, h.db.trans h'.db, h.auditLogs.trans h'.auditLogs⟩

theorem Evolves.of_db (haccounts : s'.accounts = s.accounts) (hdb : Later s.db s'.db) :
    Evolves s s' := by
  refine ⟨?_, hdb, ?_⟩
  · rw [haccounts]
    exact .refl versions_sameAccount _
  · rw [haccounts]

end Evolves

/-! ## Analyses -/

section Analyses

variable {db : Db} {runId : Nat}

theorem Waits.running (h : Waits db runId) : Running db runId := h.run

theorem later_doAnalysis (h : Running db runId) (cfg : Config) (access : Access)
    (vcenterId : Nat) (type : AnalysisType) :
    Later db (doAnalysis cfg access db runId vcenterId type).1 := by
  unfold doAnalysis
  split
  · exact .refl db
  split
  · exact later_finishRun h _
  dsimp only
  split
  · refine (later_insertFindings h _ ?_).trans (later_finishRun ?_ _)
    · exact fun f hf => analysisRunId_of_mem_generateFindings hf
    · exact h
  · exact .refl db

theorem later_insertScheduledRun (db : Db) (vcenterId : Nat) :
    Later db (db.insertScheduledRun vcenterId) :=
  ⟨Table.grows_insertRows versions_laterRun _ (fun _ _ => rfl) _, .refl versions_laterFinding _,
    fun _ _ _ => .of_eq rfl, List.prefix_refl _, List.prefix_refl _⟩

theorem running_insertScheduledRun (db : Db) (vcenterId : Nat) :
    Running (db.insertScheduledRun vcenterId) db.runs.next :=
  ⟨_, List.mem_append_right _ (List.mem_singleton_self _), rfl, rfl⟩

/-- One connection of a scheduled analysis. -/
theorem later_scheduledStep (cfg : Config) (access : Access) (db : Db) (vcenterId : Nat) :
    Later db (Analysis.scheduledStep cfg access db vcenterId).1 := by
  have hrunning := running_insertScheduledRun db vcenterId
  refine (later_insertScheduledRun db vcenterId).trans ?_
  unfold Analysis.scheduledStep
  dsimp only
  split
  · exact later_finishRun hrunning _
  split
  · refine (later_insertFindings hrunning _ ?_).trans (later_finishRun ?_ _)
    · exact fun f hf => analysisRunId_of_mem_generateFindings hf
    · exact hrunning
  · exact .refl _

theorem later_scheduledLoop (cfg : Config) (access : Access) (db : Db) (connections : List Nat) :
    Later db (Analysis.scheduledLoop cfg access db connections).1 := by
  induction connections generalizing db with
  | nil => exact .refl db
  | cons vcenterId rest ih =>
    have hstep := later_scheduledStep cfg access db vcenterId
    unfold Analysis.scheduledLoop
    split
    · rename_i db' hreturned
      rw [hreturned] at hstep
      exact hstep.trans (ih db')
    · rename_i db' hraised
      rw [hraised] at hstep
      exact hstep

theorem later_applyDrs (access : Access) (order : RowOrder AnalysisFinding) (db : Db)
    (req : Analysis.Request) (commits : Bool) :
    Later db (applyDrs access order db req commits).db := by
  by_cases hreach : Analysis.Reaches access db req.runId
  · rw [Analysis.applyDrs_of_reaches order commits hreach]
    cases commits with
    | false => exact .refl db
    | true => exact (later_takeAction db _).trans (later_logRules _ _)
  · rw [(Analysis.applyDrs_of_not_reaches order commits hreach).1]
    exact .refl db

theorem later_approveStorageMove (db : Db) (id findingId user : Nat) (commits : Bool) :
    Later db (approveStorageMove db id findingId user commits).1 := by
  rcases Analysis.approveStorageMove_cases db id findingId user commits with heq | ⟨f, _, _, _, _,
      heq⟩
  · rw [heq]
    exact .refl db
  · rw [heq]
    exact (later_logMove db _).trans (later_takeAction _ _)

/-- A deleted connection is cleared from its runs. -/
theorem later_deleteConnection (db : Db) (id : Nat) : Later db (deleteConnection db id) := by
  have hclear : ∀ run, LaterRun run (clearVcenter run) :=
    fun _ => ⟨rfl, rfl, rfl, Or.inr rfl, fun h => h, fun _ => ⟨rfl, rfl, rfl⟩⟩
  exact ⟨Table.grows_update versions_laterRun _ (fun run => (hclear run).id)
      fun run _ _ => hclear run,
    .refl versions_laterFinding _, fun _ _ _ => .of_eq rfl, List.prefix_refl _,
    List.prefix_refl _⟩

end Analyses

/-! ## Every happening -/

section Happening

variable {p : Platform} {s s' : State c}

theorem evolves_of_effect {now : Nat} {user : User} (h : Effect now s user s') :
    Evolves s s' := by
  cases h with
  | nothing => exact .refl s
  | users hgrows => exact ⟨hgrows, .refl _, List.prefix_refl _⟩
  | settings settings => exact .of_db rfl (.refl _)
  | targets h =>
    exact .of_db rfl (.of_eq h.runs h.findings h.drsHistory h.storageHistory)
  | deleted id => exact .of_db rfl (later_deleteConnection _ _)
  | triggered type _ => exact .of_db rfl (later_insertRun _ _)
  | applied access order drs commits => exact .of_db rfl (later_applyDrs _ _ _ _ _)
  | approved runId findingId commits => exact .of_db rfl (later_approveStorageMove _ _ _ _ _)

/-- A request has an effect of its user, or none at all. -/
theorem effect_handle (services : Services) (s : State c) (now : Nat) (token : String)
    (req : Request) : handle services s (.request now token req) = s ∨
      ∃ user, getCurrentUser services.jwt s.accounts.users token = .ok user ∧
        req.guard.Admits user.role ∧
        Effect now s user (handle services s (.request now token req)) := by
  rcases handle_request_cases services s now token req with hsame | ⟨user, huser, hadmits, h⟩
  · exact Or.inl hsame
  · exact Or.inr ⟨user, huser, hadmits, effect_perform (mem_of_getCurrentUser huser).1 h⟩

theorem evolves_occur (htasks : TasksWait s) (services : Services) (o : Occurrence) :
    Evolves s (occur services s o) := by
  cases o with
  | event e =>
    cases e with
    | request now token req =>
      show Evolves s (handle services s (.request now token req))
      rcases effect_handle services s now token req with hsame | ⟨user, _, _, heffect⟩
      · rw [hsame]
        exact .refl s
      · exact evolves_of_effect heffect
    | background i cfg access =>
      show Evolves s (handle services s (.background i cfg access))
      unfold handle
      dsimp only
      split
      · exact .refl s
      · rename_i task htask
        exact .of_db rfl
          (later_doAnalysis (htasks.waits task (List.mem_of_getElem? htask)).running cfg access _ _)
  | scheduled cfg order access => exact .of_db rfl (later_scheduledLoop cfg access s.db _)

/-- A successful login adds one row to the log. -/
theorem auditLogs_of_login {b : Bcrypt} {server : Server} {acc acc' : AccountDb}
    {req : LoginRequest} {answer : TokenResponse}
    (h : login b server acc req = .ok (acc', answer)) :
    ∃ user ∈ acc'.users.rows, user.username = req.username ∧
      answer.accessToken = ⟨user.id.repr, user.role⟩ ∧
      acc'.auditLogs = acc.auditLogs ++ [⟨user.id, "login", req.ip⟩] := by
  cases login_eq_ok_iff.mp h with
  | password _ hactive =>
    obtain ⟨hmem, hname⟩ := Users.named_eq_some_iff.mp (named_of_active hactive).1
    exact ⟨_, hmem, hname, rfl, rfl⟩
  | @existing ldapUser user _ _ hnamed =>
    obtain ⟨hmem, hname⟩ := Users.named_eq_some_iff.mp hnamed
    refine ⟨assignRole (server.roleOf ldapUser) user, ?_, hname, rfl, rfl⟩
    show _ ∈ (acc.users.assign _ _).rows
    rw [Users.rows_assign]
    exact List.mem_map.mpr ⟨_, hmem, if_pos rfl⟩
  | created _ _ _ hinsert =>
    refine ⟨_, ?_, rfl, rfl, rfl⟩
    show _ ∈ Users.rows _
    rw [Users.rows_of_insert hinsert]
    exact List.mem_append_right _ (List.mem_singleton_self _)

theorem evolves_happen (htasks : TasksWait s) (p : Platform) (h : Happening) :
    Evolves s (happen p s h) := by
  cases h with
  | login now server req =>
    unfold happen
    dsimp only
    split
    · exact .refl s
    · rename_i accounts answer hlogin
      obtain ⟨_, _, _, _, hlogs⟩ := auditLogs_of_login hlogin
      exact ⟨grows_login hlogin, .refl _, hlogs ▸ List.prefix_append _ _⟩
  | occurrence o => exact evolves_occur htasks _ o

theorem TasksWait.happen (htasks : TasksWait s) (p : Platform) (h : Happening) :
    TasksWait (happen p s h) := by
  cases h with
  | login now server req =>
    unfold Api.happen
    dsimp only
    split
    · exact htasks
    · exact htasks.of_waits rfl fun _ hwaits => hwaits
  | occurrence o => exact htasks.occur o

/-- **Every history** leaves the tasks waiting and lets the store evolve. -/
theorem evolves_run (htasks : TasksWait s) (p : Platform) (history : List Happening) :
    TasksWait (history.foldl (happen p) s) ∧ Evolves s (history.foldl (happen p) s) := by
  induction history generalizing s with
  | nil => exact ⟨htasks, .refl s⟩
  | cons h history ih =>
    obtain ⟨htasks', hevolves⟩ := ih (htasks.happen p h)
    exact ⟨htasks', (evolves_happen htasks p h).trans hevolves⟩

theorem tasksWait_of_nil (hstart : s.tasks = []) : TasksWait s := by
  refine ⟨?_, ?_⟩
  · rw [hstart]
    exact fun _ htask => absurd htask List.not_mem_nil
  · rw [hstart]
    exact List.nodup_nil

end Happening

/-! ## An analysis on demand -/

/-- Every token is one of the operator's. -/
def operatorPlatform : Platform where
  bcrypt := dollarBcrypt
  compile := fun _ => none
  jose := ⟨fun _ => "token", fun _ => some ⟨⟨some "1", some "operator"⟩, 1000⟩⟩
  int := veraServices.jwt.int
  tokenExp := 480

def adminAccounts : AccountDb :=
  ⟨⟨Table.singleton { vera with role := .admin }, by decide⟩, []⟩

def requestAndRun : List Happening :=
  [.occurrence (.event (.request 5 "token" (.triggerAnalysis 1 .full))),
    .occurrence (.event (.background 0 Analysis.webConfig (Analysis.accessTo sharedInventory)))]

end VsphereCompliance.Api
