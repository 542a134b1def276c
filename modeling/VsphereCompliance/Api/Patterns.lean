import VsphereCompliance.Accounts.Administration

/-!
# Managing the patterns

The endpoints of `settings.py` that write patterns. Both that store a regular expression compile
it first, an update only if the expression is not empty. So every stored expression compiles
(`compiling_createPattern`, `compiling_updatePattern`, `compiling_deletePattern`).
-/

namespace VsphereCompliance.Api

open Engine Store Accounts

/-! ## The requests -/

structure PatternCreate where
  name : String
  patternType : String
  regexPattern : String
  description : Option String

structure PatternUpdate where
  name : Option String
  patternType : Option String
  regexPattern : Option String
  description : Option String
  isActive : Option Bool

/-- What the analyses make of a `pattern_type`. -/
def readPatternType : String → PatternType
  | "vm_name" => .vmName
  | "datastore" => .datastore
  | "role" => .role
  | _ => .other

/-- The columns take the texts. -/
def PatternFits (name patternType regexPattern description : Option String) : Prop :=
  (∀ s ∈ name, Storable 200 s) ∧ (∀ s ∈ patternType, Storable 50 s) ∧
    (∀ s ∈ regexPattern, IsText s) ∧ ∀ s ∈ description, IsText s

instance (name patternType regexPattern description : Option String) :
    Decidable (PatternFits name patternType regexPattern description) :=
  inferInstanceAs (Decidable (_ ∧ _ ∧ _ ∧ _))

def patternRow (id : Nat) (payload : PatternCreate) : PatternConfig where
  id := id
  name := payload.name
  patternType := readPatternType payload.patternType
  regexPattern := payload.regexPattern
  description := payload.description
  isActive := true

/-- `create_pattern`; `compile` is the text of the `re.error` that `re.compile` raises. -/
def createPattern (compile : String → Option String) (db : Db) (payload : PatternCreate) :
    Except HttpError (Db × Nat × String) :=
  match compile payload.regexPattern with
  | some e => .error ⟨400, "Invalid regex: " ++ e⟩
  | none =>
    if PatternFits (some payload.name) (some payload.patternType) (some payload.regexPattern)
        payload.description then
      .ok ({ db with patterns := db.patterns.insertRows patternRow (fun _ _ => rfl) [payload] },
        db.patterns.next, payload.name)
    else .error serverError

/-- The fields that the request gives. -/
def PatternUpdate.write (payload : PatternUpdate) (p : PatternConfig) : PatternConfig :=
  { p with
    name := payload.name.getD p.name
    patternType := (payload.patternType.map readPatternType).getD p.patternType
    regexPattern := payload.regexPattern.getD p.regexPattern
    description := payload.description <|> p.description
    isActive := payload.isActive.getD p.isActive }

/-- `update_pattern`; the answer is the id and the name. -/
def updatePattern (compile : String → Option String) (db : Db) (id : Nat)
    (payload : PatternUpdate) : Except HttpError (Db × Nat × String) :=
  match db.patterns.find? id with
  | none => .error ⟨404, "Pattern not found"⟩
  | some p =>
    match (truthy payload.regexPattern).bind compile with
    | some e => .error ⟨400, "Invalid regex: " ++ e⟩
    | none =>
      if PatternFits payload.name payload.patternType payload.regexPattern
          payload.description then
        .ok ({ db with
          patterns := db.patterns.update (fun p => p.id = id) payload.write fun _ => rfl },
          p.id, (payload.write p).name)
      else .error serverError

/-- `delete_pattern`. -/
def deletePattern (db : Db) (id : Nat) : Except HttpError Db :=
  match db.patterns.find? id with
  | none => .error ⟨404, "Pattern not found"⟩
  | some _ => .ok { db with patterns := db.patterns.filter fun p => p.id ≠ id }

/-! ## Stored expressions compile -/

/-- Every stored expression compiles. -/
def Compiling (compile : String → Option String) (db : Db) : Prop :=
  ∀ p ∈ db.patterns.rows, compile p.regexPattern = none

variable {compile : String → Option String} {db db' : Db} {id : Nat} {answer : Nat × String}

theorem Compiling.of_patterns (hdb : Compiling compile db) (h : db'.patterns = db.patterns) :
    Compiling compile db' := by
  unfold Compiling
  rw [h]
  exact hdb

theorem compiling_createPattern {payload : PatternCreate}
    (h : createPattern compile db payload = .ok (db', answer)) (hdb : Compiling compile db) :
    Compiling compile db' := by
  unfold createPattern at h
  split at h
  · cases h
  rename_i hcompiles
  split at h
  · cases h
    intro p hp
    rcases List.mem_append.mp hp with hp | hp
    · exact hdb p hp
    · obtain rfl := List.mem_singleton.mp hp
      exact hcompiles
  · cases h

/-- The expression of an update that is let through compiles, if the empty one does. -/
theorem compiles_of_truthy (hempty : compile "" = none) {regexPattern : Option String}
    (h : (truthy regexPattern).bind compile = none) :
    ∀ s ∈ regexPattern, compile s = none := by
  rintro s hs
  obtain rfl : regexPattern = some s := hs
  by_cases hs : s = ""
  · rw [hs]
    exact hempty
  · have htruthy : truthy (some s) = some s := if_neg hs
    rwa [htruthy] at h

theorem compiling_updatePattern (hempty : compile "" = none) {payload : PatternUpdate}
    (h : updatePattern compile db id payload = .ok (db', answer)) (hdb : Compiling compile db) :
    Compiling compile db' := by
  unfold updatePattern at h
  split at h
  · cases h
  split at h
  · cases h
  rename_i hcompiles
  split at h
  · cases h
    intro p hp
    obtain ⟨q, hq, rfl⟩ := List.mem_map.mp hp
    split
    · show compile (payload.regexPattern.getD q.regexPattern) = none
      cases hregex : payload.regexPattern with
      | none => exact hdb q hq
      | some s => exact compiles_of_truthy hempty hcompiles s hregex
    · exact hdb q hq
  · cases h

theorem compiling_deletePattern (h : deletePattern db id = .ok db') (hdb : Compiling compile db) :
    Compiling compile db' := by
  unfold deletePattern at h
  split at h
  · cases h
  · cases h
    exact fun p hp => hdb p (List.mem_of_mem_filter hp)

/-! ## The connections -/

theorem connections_createPattern {payload : PatternCreate}
    (h : createPattern compile db payload = .ok (db', answer)) :
    db'.connections = db.connections := by
  unfold createPattern at h
  split at h
  · cases h
  split at h
  · cases h
    rfl
  · cases h

theorem connections_updatePattern {payload : PatternUpdate}
    (h : updatePattern compile db id payload = .ok (db', answer)) :
    db'.connections = db.connections := by
  unfold updatePattern at h
  split at h
  · cases h
  split at h
  · cases h
  split at h
  · cases h
    rfl
  · cases h

theorem connections_deletePattern (h : deletePattern db id = .ok db') :
    db'.connections = db.connections := by
  unfold deletePattern at h
  split at h
  · cases h
  · cases h
    rfl

end VsphereCompliance.Api
