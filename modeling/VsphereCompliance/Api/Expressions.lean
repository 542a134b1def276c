import VsphereCompliance.Api.Roles

/-!
# Every stored expression compiles

The endpoints for patterns compile what they store, and nothing else writes a pattern. So each
request keeps `Compiling`, whoever makes it (`compiling_perform`), and so does each background
task: it holds after every sequence of events (`compiling_run`).
-/

namespace VsphereCompliance.Api

open Store Accounts Settings

variable {c : Cipher} {services : Services} {now : Nat} {s s' : State c} {user : User}
  {req : Request}

/-- **Each request** that succeeds keeps the expressions; the empty one compiles. -/
theorem compiling_perform (hempty : services.compile "" = none)
    (hs : Compiling services.compile s.db) (h : perform services now s user req = .ok s') :
    Compiling services.compile s'.db := by
  cases req with
  | read endpoint =>
    cases h
    exact hs
  | changePassword salt payload =>
    obtain ⟨users, _, rfl⟩ := map_eq_ok_iff.mp h
    exact hs
  | createUser salt payload =>
    obtain ⟨r, _, rfl⟩ := map_eq_ok_iff.mp h
    exact hs
  | updateUser id payload =>
    obtain ⟨r, _, rfl⟩ := map_eq_ok_iff.mp h
    exact hs
  | deactivateUser id =>
    obtain ⟨users, _, rfl⟩ := map_eq_ok_iff.mp h
    exact hs
  | addVcenter encryptValue payload =>
    obtain ⟨r, hadd, rfl⟩ := map_eq_ok_iff.mp h
    exact hs.of_patterns (patterns_addVcenter hadd)
  | updateVcenter encryptValue id payload =>
    obtain ⟨r, hupdate, rfl⟩ := map_eq_ok_iff.mp h
    exact hs.of_patterns (patterns_updateVcenter hupdate)
  | deleteVcenter id =>
    obtain ⟨db, hdelete, rfl⟩ := map_eq_ok_iff.mp h
    exact hs.of_patterns (patterns_deleteVcenter hdelete)
  | testVcenter access getVersion rejection id =>
    obtain ⟨r, htest, rfl⟩ := map_eq_ok_iff.mp h
    exact hs.of_patterns (patterns_testVcenter htest)
  | triggerAnalysis vcenterId type =>
    unfold perform at h
    dsimp only at h
    split at h
    · cases h
    · rename_i htrigger
      cases h
      exact hs.of_patterns (sameTargets_triggerAnalysis htrigger).patterns
  | applyDrs access order tree outcome runId commits =>
    cases h
    exact hs.of_patterns (sameTargets_applyDrs access order s.db _ commits).patterns
  | approveStorageMove runId findingId commits =>
    cases h
    exact hs.of_patterns
      (sameTargets_approveStorageMove s.db runId findingId user.id commits).patterns
  | updateSettings items =>
    obtain ⟨r, _, rfl⟩ := map_eq_ok_iff.mp h
    exact hs
  | createPattern payload =>
    obtain ⟨r, hcreate, rfl⟩ := map_eq_ok_iff.mp h
    exact compiling_createPattern hcreate hs
  | updatePattern id payload =>
    obtain ⟨r, hupdate, rfl⟩ := map_eq_ok_iff.mp h
    exact compiling_updatePattern hempty hupdate hs
  | deletePattern id =>
    obtain ⟨db, hdelete, rfl⟩ := map_eq_ok_iff.mp h
    exact compiling_deletePattern hdelete hs

/-- **Each event** keeps the expressions. -/
theorem compiling_handle (hempty : services.compile "" = none)
    (hs : Compiling services.compile s.db) (e : Event) :
    Compiling services.compile (handle services s e).db := by
  cases e with
  | request now token req =>
    rcases handle_request_cases services s now token req with hsame | ⟨user, _, _, h⟩
    · rw [hsame]
      exact hs
    · exact compiling_perform hempty hs h
  | background i cfg access =>
    unfold handle
    dsimp only
    split
    · exact hs
    · exact hs.of_patterns (sameTargets_doAnalysis cfg access s.db _ _ _).patterns

/-- **Every sequence of events** leaves each stored expression one that compiles. -/
theorem compiling_run (hempty : services.compile "" = none)
    (hs : Compiling services.compile s.db) (events : List Event) :
    Compiling services.compile (events.foldl (handle services) s).db := by
  induction events generalizing s with
  | nil => exact hs
  | cons e rest ih => exact ih (compiling_handle hempty hs e)

end VsphereCompliance.Api
