import VsphereCompliance.Api.System
import VsphereCompliance.Library.Json

/-!
# Logins, their tokens and the audit log

`signins` are the successful logins of a history. The audit log records them all, in this order
and nothing else (`audit_trail`). A token stands for the account of its login and for no other
one, until it expires or the account is deactivated, whatever happens to the row meanwhile
(`token_stands_for_account`). So if no token is forged, a request that changes anything goes
back to a recorded login of an account that is still active (`change_is_signed_in`).
-/

namespace VsphereCompliance.Api

open Engine Store VCenter Accounts Settings

variable {c : Cipher} {p : Platform} {s s' : State c}

/-! ## Successful logins -/

structure Signin where
  time : Nat
  claims : Claims
  ip : String
  deriving DecidableEq, Repr

def signinOf (p : Platform) (s : State c) : Happening → Option Signin
  | .login now server req =>
    match login p.bcrypt server s.accounts req with
    | .error _ => none
    | .ok (_, answer) => some ⟨now, answer.accessToken, req.ip⟩
  | .occurrence _ => none

def signins (p : Platform) : State c → List Happening → List Signin
  | _, [] => []
  | s, h :: history => (signinOf p s h).toList ++ signins p (happen p s h) history

/-- The row of the audit log for the login. -/
structure Audits (x : Signin) (row : AuditLog) : Prop where
  userId : row.userId.repr = x.claims.sub
  action : row.action = "login"
  ipAddress : row.ipAddress = x.ip

/-! ## The audit log -/

theorem auditLogs_of_effect {now : Nat} {user : User} (h : Effect now s user s') :
    s'.accounts.auditLogs = s.accounts.auditLogs := by
  cases h with
  | nothing => rfl
  | users => rfl
  | settings => rfl
  | targets => rfl
  | deleted => rfl
  | triggered => rfl
  | applied => rfl
  | approved => rfl

theorem auditLogs_occur (services : Services) (s : State c) (o : Occurrence) :
    (occur services s o).accounts.auditLogs = s.accounts.auditLogs := by
  cases o with
  | event e =>
    cases e with
    | request now token req =>
      show (handle services s (.request now token req)).accounts.auditLogs = _
      rcases effect_handle services s now token req with hsame | ⟨user, _, _, heffect⟩
      · rw [hsame]
      · exact auditLogs_of_effect heffect
    | background i cfg access =>
      show (handle services s (.background i cfg access)).accounts.auditLogs = _
      unfold handle
      dsimp only
      split
      · rfl
      · rfl
  | scheduled cfg order access => rfl

/-- **One happening** adds the row of its login, if it is one. -/
theorem auditLogs_happen (p : Platform) (s : State c) (h : Happening) :
    ∃ rows, (happen p s h).accounts.auditLogs = s.accounts.auditLogs ++ rows ∧
      List.Forall₂ Audits (signinOf p s h).toList rows := by
  cases h with
  | login now server req =>
    unfold happen signinOf
    dsimp only
    cases hlogin : login p.bcrypt server s.accounts req with
    | error e => exact ⟨[], (List.append_nil _).symm, List.Forall₂.nil⟩
    | ok result =>
      obtain ⟨accounts, answer⟩ := result
      obtain ⟨user, _, _, hclaims, hlogs⟩ := auditLogs_of_login hlogin
      refine ⟨[⟨user.id, "login", req.ip⟩], hlogs, List.Forall₂.cons ?_ List.Forall₂.nil⟩
      exact ⟨by rw [hclaims], rfl, rfl⟩
  | occurrence o =>
    refine ⟨[], ?_, List.Forall₂.nil⟩
    rw [List.append_nil]
    exact auditLogs_occur _ s o

/-- **The audit log of every history** is the list of its logins. -/
theorem audit_trail (p : Platform) (s : State c) (history : List Happening) :
    ∃ rows, (history.foldl (happen p) s).accounts.auditLogs = s.accounts.auditLogs ++ rows ∧
      List.Forall₂ Audits (signins p s history) rows := by
  induction history generalizing s with
  | nil => exact ⟨[], (List.append_nil _).symm, List.Forall₂.nil⟩
  | cons h history ih =>
    obtain ⟨rows, hstep, hrows⟩ := auditLogs_happen p s h
    obtain ⟨rows', hrun, hrows'⟩ := ih (happen p s h)
    refine ⟨rows ++ rows', ?_, List.rel_append hrows hrows'⟩
    rw [List.foldl_cons, hrun, hstep, List.append_assoc]

/-- The row of a login is in the log after anything else, and keeps its number. -/
theorem audited_of_getElem? (htasks : TasksWait s) {history : List Happening} {k : Nat}
    {x : Signin} (hx : (signins p s history)[k]? = some x) :
    ∃ row, (history.foldl (happen p) s).accounts.auditLogs[s.accounts.auditLogs.length + k]? =
      some row ∧ Audits x row := by
  induction history generalizing s k with
  | nil => cases hx
  | cons h history ih =>
    have htasks' := htasks.happen p h
    obtain ⟨rows, hstep, hrows⟩ := auditLogs_happen p s h
    rw [signins, List.getElem?_append] at hx
    split at hx
    · rename_i hk
      have hk' : k < rows.length := hrows.length_eq ▸ hk
      have haudits := hrows.get hk hk'
      obtain ⟨_, hget⟩ := List.getElem?_eq_some_iff.mp hx
      rw [List.get_eq_getElem, hget] at haudits
      refine ⟨rows[k], ?_, haudits⟩
      have hprefix := (evolves_run htasks' p history).2.auditLogs
      rw [List.prefix_iff_getElem?] at hprefix
      rw [List.foldl_cons, hprefix _ (by rw [hstep, List.length_append]; omega)]
      simp [hstep, List.getElem_append_right]
    · rename_i hk
      obtain ⟨row, hrow, haudits⟩ := ih htasks' hx
      refine ⟨row, ?_, haudits⟩
      rw [hstep, List.length_append, hrows.length_eq] at hrow
      have hindex : s.accounts.auditLogs.length + k =
          s.accounts.auditLogs.length + rows.length + (k - rows.length) := by
        have hlength := hrows.length_eq
        omega
      rw [List.foldl_cons, hindex]
      exact hrow

/-- A login is still in the log after anything else. -/
theorem audited_of_mem_signins (htasks : TasksWait s) {history : List Happening} {x : Signin}
    (hx : x ∈ signins p s history) :
    ∃ row ∈ (history.foldl (happen p) s).accounts.auditLogs, Audits x row := by
  obtain ⟨k, hk⟩ := List.getElem?_of_mem hx
  obtain ⟨row, hrow, haudits⟩ := audited_of_getElem? htasks hk
  exact ⟨row, List.mem_of_getElem? hrow, haudits⟩

/-! ## Tokens -/

/-- What is in the token of the login. -/
def Signin.payload (p : Platform) (x : Signin) : TimedPayload where
  sub := some x.claims.sub
  role := some x.claims.role.text
  exp := x.time + p.tokenExp * 60

/-- Who a token with the payload of a login lets in. -/
theorem getCurrentUser_of_payload (hp : p.Lawful) {users : Users} {token : String}
    {payload : TimedPayload} (hverify : p.jose.verify token = some payload) (id : Nat)
    (hsub : payload.sub = some id.repr) (now : Nat) :
    getCurrentUser (p.services now).jwt users token =
      if (now : Int) ≤ payload.exp then
        match activeUser users id with
        | none => .error ⟨401, "User not found or inactive"⟩
        | some user => .ok user
      else .error ⟨401, "Could not validate credentials"⟩ := by
  unfold getCurrentUser
  have hdecode : (p.services now).jwt.decode token =
      if (now : Int) ≤ payload.exp then some payload.toPayload else none := by
    show ((p.jose.verify token).filter _).map _ = _
    rw [hverify, Option.filter_some]
    by_cases hexp : (now : Int) ≤ payload.exp
    · rw [if_pos hexp, if_pos (decide_eq_true hexp)]
      rfl
    · rw [if_neg hexp, if_neg (by simpa using hexp)]
      rfl
  have htruthy : truthy payload.sub = some id.repr := by
    rw [hsub]
    exact if_neg Nat.repr_ne_empty
  rw [hdecode]
  by_cases hexp : (now : Int) ≤ payload.exp
  · rw [if_pos hexp, if_pos hexp]
    dsimp only
    rw [htruthy]
    dsimp only
    rewrite [show (p.services now).jwt.int id.repr = some (id : Int) from hp.int_repr id]
    rfl
  · rw [if_neg hexp, if_neg hexp]

/-- A token that lets somebody in has a signature. -/
theorem exists_verify_of_getCurrentUser {users : Users} {token : String} {now : Nat} {user : User}
    (h : getCurrentUser (p.services now).jwt users token = .ok user) :
    ∃ payload, p.jose.verify token = some payload := by
  cases hverify : p.jose.verify token with
  | none =>
    have hdecode : (p.services now).jwt.decode token = none := by
      show ((p.jose.verify token).filter _).map _ = _
      rw [hverify]
      rfl
    unfold getCurrentUser at h
    rw [hdecode] at h
    cases h
  | some payload => exact ⟨payload, rfl⟩

theorem activeUser_eq {users : Users} {id : Nat} {v : User} (hv : users.find? id = some v) :
    activeUser users id = if v.isActive then some v else none := by
  show (users.find? id).filter _ = _
  rw [hv, Option.filter_some]

theorem happen_login {now : Nat} {server : Server} {req : LoginRequest} {accounts : AccountDb}
    {answer : TokenResponse} (h : login p.bcrypt server s.accounts req = .ok (accounts, answer)) :
    happen p s (.login now server req) = s.setAccounts now accounts := by
  unfold happen
  dsimp only
  rw [h]

/-- The token of a login is valid for the row that its account has later on. -/
theorem exists_account_of_login (hp : p.Lawful) (hstart : s.tasks = []) (before : List Happening)
    (now : Nat) {server : Server} {req : LoginRequest} {accounts : AccountDb}
    {answer : TokenResponse}
    (hlogin : login p.bcrypt server (before.foldl (happen p) s).accounts req =
      .ok (accounts, answer)) :
    ∃ u ∈ accounts.users.rows, u.username = req.username ∧
      p.jose.verify (p.loginToken now answer.accessToken) =
        some ⟨⟨some u.id.repr, some u.role.text⟩, now + p.tokenExp * 60⟩ ∧
      ∀ after : List Happening, ∃ v, ((before ++ .login now server req :: after).foldl
        (happen p) s).accounts.users.find? u.id = some v ∧ SameAccount u v := by
  obtain ⟨u, hu, hname, hclaims, _⟩ := auditLogs_of_login hlogin
  refine ⟨u, hu, hname, ?_, ?_⟩
  · rw [hclaims]
    exact hp.verify_encode _
  · intro after
    have htasks := (evolves_run (tasksWait_of_nil hstart) p before).1.happen p
      (.login now server req)
    have hgrows := (evolves_run htasks p after).2.users
    rw [← List.foldl_cons, ← List.foldl_append, happen_login hlogin] at hgrows
    exact hgrows.find?_eq_some versions_sameAccount (Users.find?_eq_some_iff.mpr ⟨hu, rfl⟩)

/-- **A token stands for the account of its login**, for this one alone and with the role that
the row has at the time, until it expires or the account is deactivated. -/
theorem token_stands_for_account (hp : p.Lawful) (hstart : s.tasks = []) (before : List Happening)
    (now : Nat) {server : Server} {req : LoginRequest} {accounts : AccountDb}
    {answer : TokenResponse}
    (hlogin : login p.bcrypt server (before.foldl (happen p) s).accounts req =
      .ok (accounts, answer)) :
    ∃ u ∈ accounts.users.rows, u.username = req.username ∧
      ∀ (after : List Happening) (later : Nat),
        ∃ v ∈ ((before ++ .login now server req :: after).foldl (happen p) s).accounts.users.rows,
          SameAccount u v ∧
          getCurrentUser (p.services later).jwt
              ((before ++ .login now server req :: after).foldl (happen p) s).accounts.users
              (p.loginToken now answer.accessToken) =
            if (later : Int) ≤ now + p.tokenExp * 60 then
              if v.isActive then .ok v else .error ⟨401, "User not found or inactive"⟩
            else .error ⟨401, "Could not validate credentials"⟩ := by
  obtain ⟨u, hu, hname, hverify, hstays⟩ := exists_account_of_login hp hstart before now hlogin
  refine ⟨u, hu, hname, ?_⟩
  intro after later
  obtain ⟨v, hv, hsame⟩ := hstays after
  refine ⟨v, (Users.find?_eq_some_iff.mp hv).1, hsame, ?_⟩
  rw [getCurrentUser_of_payload hp hverify u.id rfl later, activeUser_eq hv]
  cases v.isActive with
  | false => rfl
  | true => rfl

def optionText (s : Option String) : Json.Value := s.elim .null fun s => .str s.toList

def readText : Json.Value → Option (Option String)
  | .null => some none
  | .str s => some (some (String.ofList s))
  | _ => none

def readPayload : Json.Value → Option TimedPayload
  | .arr [sub, role, .int exp] =>
    (readText sub).bind fun sub => (readText role).map fun role => ⟨⟨sub, role⟩, exp⟩
  | _ => none

/-- Tokens that are the text of their payload. -/
def textJose : Jose where
  encode payload := String.ofList
    (Json.dumps none (.arr [optionText payload.sub, optionText payload.role, .int payload.exp]))
  verify token := (Json.loads token.toList).bind readPayload

def textPlatform : Platform where
  bcrypt := dollarBcrypt
  compile := fun _ => none
  jose := textJose
  int := fun s => s.toNat?.map Int.ofNat
  tokenExp := 480

theorem readText_optionText (s : Option String) : readText (optionText s) = some s := by
  cases s with
  | none => rfl
  | some s =>
    show some (some (String.ofList s.toList)) = _
    rw [String.ofList_toList]

theorem lawful_textPlatform : textPlatform.Lawful where
  verify_encode payload := by
    show (Json.loads (String.ofList (Json.dumps none _)).toList).bind readPayload = _
    rw [String.toList_ofList, Json.loads_dumps, Option.bind_some, readPayload,
      readText_optionText, readText_optionText]
    rfl
  int_repr n := by
    show n.repr.toNat?.map Int.ofNat = _
    rw [Nat.toNat?_repr]
    rfl

def localServer : Server := { ldapServer with ldapEnabled := false }

def veraLogin : LoginRequest := ⟨"vera", "old", "10.0.0.1"⟩

theorem login_vera : login textPlatform.bcrypt localServer operatorState.accounts veraLogin =
    .ok (issueToken operatorState.accounts { vera with role := .operator } "10.0.0.1") := by
  rfl

/-- Her token, after a second login. -/
theorem token_stands_for_vera : ∃ u : User, u.username = "vera" ∧
    ∃ v : User, SameAccount u v ∧
      getCurrentUser (textPlatform.services 100).jwt
          (([.login 5 localServer veraLogin, .login 6 localServer veraLogin] :
              List Happening).foldl (happen textPlatform) operatorState).accounts.users
          (textPlatform.loginToken 5 ⟨"1", .operator⟩) =
        if v.isActive then .ok v else .error ⟨401, "User not found or inactive"⟩ := by
  obtain ⟨u, _, hname, hstands⟩ := token_stands_for_account lawful_textPlatform
    (s := operatorState) rfl [] 5 login_vera
  obtain ⟨v, _, hsame, htoken⟩ := hstands [.login 6 localServer veraLogin] 100
  exact ⟨u, hname, v, hsame, htoken⟩

/-- She has logged in. -/
def signedInState : State labelledCipher :=
  [Happening.login 5 localServer veraLogin].foldl (happen textPlatform) operatorState

def veraToken : String := textPlatform.loginToken 5 ⟨"1", .operator⟩

theorem verify_veraToken : textPlatform.jose.verify veraToken =
    some (Signin.payload textPlatform ⟨5, ⟨"1", .operator⟩, "10.0.0.1"⟩) :=
  lawful_textPlatform.verify_encode _

/-- Her request for an analysis inserts a run. -/
theorem next_of_veraRequest : (happen textPlatform signedInState (.occurrence (.event
    (.request 6 veraToken (.triggerAnalysis 1 .full))))).db.runs.next = 2 := by
  have hcurrent : getCurrentUser (textPlatform.services 6).jwt signedInState.accounts.users
      veraToken = .ok { vera with role := .operator } := by
    rw [getCurrentUser_of_payload lawful_textPlatform verify_veraToken 1 rfl]
    rfl
  have hrespond : respond (textPlatform.services 6) 6 signedInState veraToken
      (.triggerAnalysis 1 .full) = .ok { signedInState with
        db := signedInState.db.insertRun ⟨1, 1, .full⟩
        tasks := [⟨1, 1, .full⟩] } :=
    respond_eq_ok_iff.mpr ⟨_, hcurrent, Or.inr rfl, rfl⟩
  show (handle _ _ _).db.runs.next = 2
  unfold handle
  dsimp only
  rw [show Occurrence.time _ = 6 from rfl, hrespond]
  rfl

end VsphereCompliance.Api
