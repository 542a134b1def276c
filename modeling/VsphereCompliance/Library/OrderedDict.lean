import Mathlib.Data.List.Induction
import Mathlib.Data.List.Nodup
import Mathlib.Data.List.Perm.Basic
import Mathlib.Tactic.Common

/-!
# Insertion-ordered dictionaries

A dictionary that iterates over its entries in the order in which the keys were first
stored. Storing under a key that is present replaces the value and keeps the place of
the key. The invariant "no key twice" is a field, so every dictionary has it.

* `get?_set`, `keys_set`: what one store does to a lookup and to the keys.
* `mapValues`: apply a function to the values (`get?_mapValues`, `mapValues_set`).
* `ofList`: the dictionary of a list of pairs, the last value of a key wins
  (`get?_ofList`), in the place where the key first occurs (`values_ofList_map`); with
  distinct keys the entries are the list (`entries_ofList`).
* `group`: the dictionary of lists built by appending every classified element of a list
  under its class. The list under `k` is the subsequence of class `k`
  (`getD_group`, `mem_entries_group`), and all lists together hold every classified
  element exactly once (`flatMap_entries_group`).
-/

/-- A finite map with an iteration order; no key occurs twice. -/
structure OrderedDict (κ α : Type*) where
  entries : List (κ × α)
  nodup : (entries.map Prod.fst).Nodup

namespace OrderedDict

variable {κ α β γ δ : Type*}

def keys (d : OrderedDict κ α) : List κ := d.entries.map Prod.fst

def values (d : OrderedDict κ α) : List α := d.entries.map Prod.snd

def empty : OrderedDict κ α := ⟨[], List.nodup_nil⟩

@[simp] theorem entries_empty : (empty : OrderedDict κ α).entries = [] := rfl

theorem mem_keys_iff {d : OrderedDict κ α} {k : κ} : k ∈ d.keys ↔ ∃ a, (k, a) ∈ d.entries := by
  simp [keys]

theorem ext_entries {d d' : OrderedDict κ α} (h : d.entries = d'.entries) : d = d' := by
  cases d
  cases d'
  cases h
  rfl

variable [DecidableEq κ]

def get? (d : OrderedDict κ α) (k : κ) : Option α := d.entries.lookup k

@[simp] theorem get?_empty (k : κ) : (empty : OrderedDict κ α).get? k = none := rfl

/-! ## Lookup -/

theorem lookup_map_snd (f : α → β) (es : List (κ × α)) (k : κ) :
    (es.map fun e => (e.1, f e.2)).lookup k = (es.lookup k).map f := by
  induction es with
  | nil => rfl
  | cons e es ih =>
    rw [List.map_cons, List.lookup_cons, List.lookup_cons]
    split
    · rfl
    · exact ih

/-- Leaving out other keys does not change a lookup. -/
theorem lookup_filter_fst {p : κ → Bool} {k : κ} (h : p k = true) (es : List (κ × α)) :
    (es.filter fun e => p e.1).lookup k = es.lookup k := by
  induction es with
  | nil => rfl
  | cons e es ih =>
    by_cases hkey : k = e.1
    · subst hkey
      rw [List.filter_cons, if_pos h, List.lookup_cons, List.lookup_cons, beq_self_eq_true]
    · have hne : (k == e.1) = false := beq_false_of_ne hkey
      rw [List.lookup_cons, hne, List.filter_cons, ← ih]
      split
      · rw [List.lookup_cons, hne]
      · rfl

theorem lookup_eq_some_iff {es : List (κ × α)} (h : (es.map Prod.fst).Nodup) {k : κ} {a : α} :
    es.lookup k = some a ↔ (k, a) ∈ es := by
  induction es with
  | nil => simp
  | cons e es ih =>
    obtain ⟨k', a'⟩ := e
    simp only [List.map_cons, List.nodup_cons] at h
    rw [List.lookup_cons]
    by_cases hk : k = k'
    · subst hk
      have hnot : (k, a) ∉ es := fun hm => h.1 (List.mem_map.mpr ⟨_, hm, rfl⟩)
      simp [hnot, eq_comm]
    · simp [hk, beq_false_of_ne hk, ih h.2]

theorem get?_eq_some_iff {d : OrderedDict κ α} {k : κ} {a : α} :
    d.get? k = some a ↔ (k, a) ∈ d.entries :=
  lookup_eq_some_iff d.nodup

theorem get?_eq_none_iff {d : OrderedDict κ α} {k : κ} : d.get? k = none ↔ k ∉ d.keys := by
  rw [Option.eq_none_iff_forall_ne_some, mem_keys_iff]
  simp [get?_eq_some_iff]

theorem get?_isSome_iff {d : OrderedDict κ α} {k : κ} : (d.get? k).isSome ↔ k ∈ d.keys := by
  rw [← not_iff_not, ← get?_eq_none_iff, Option.not_isSome_iff_eq_none]

/-- When every element that an entry contributes remembers the entry's key, the elements
with key `k` are those that the entry of `k` contributes. -/
theorem filter_flatMap_entries (d : OrderedDict κ α) (F : κ × α → List β) (key : β → κ)
    (hF : ∀ e, ∀ b ∈ F e, key b = e.1) (k : κ) :
    (d.entries.flatMap F).filter (fun b => key b = k) = (d.get? k).elim [] fun a => F (k, a) := by
  obtain ⟨es, hnd⟩ := d
  simp only [get?]
  induction es with
  | nil => rfl
  | cons e es ih =>
    obtain ⟨k', a⟩ := e
    obtain ⟨hnot, hnd'⟩ := List.nodup_cons.mp hnd
    rw [List.flatMap_cons, List.filter_append, ih hnd', List.lookup_cons]
    by_cases hk : k = k'
    · subst hk
      have hall : (F (k, a)).filter (fun b => key b = k) = F (k, a) :=
        List.filter_eq_self.mpr fun b hb => by simpa using hF _ b hb
      have hnone : es.lookup k = none := by
        rw [List.lookup_eq_none_iff]
        intro p hp
        have hne : k ≠ p.1 := fun h => hnot (List.mem_map.mpr ⟨p, hp, h.symm⟩)
        simpa using hne
      simp [hall, hnone]
    · have hempty : (F (k', a)).filter (fun b => key b = k) = [] := by
        rw [List.filter_eq_nil_iff]
        intro b hb
        have := hF _ b hb
        simp [this, Ne.symm hk]
      rw [hempty, beq_false_of_ne hk, List.nil_append]

/-! ## Storing one value -/

/-- Replace the value of `k` in place, or append a new entry. -/
def setEntry (k : κ) (a : α) : List (κ × α) → List (κ × α)
  | [] => [(k, a)]
  | (k', a') :: es => if k' = k then (k, a) :: es else (k', a') :: setEntry k a es

theorem map_fst_setEntry (k : κ) (a : α) (es : List (κ × α)) :
    (setEntry k a es).map Prod.fst =
      if k ∈ es.map Prod.fst then es.map Prod.fst else es.map Prod.fst ++ [k] := by
  induction es with
  | nil => simp [setEntry]
  | cons e es ih =>
    obtain ⟨k', a'⟩ := e
    unfold setEntry
    by_cases hk : k' = k
    · simp [hk]
    · have hk' : k ≠ k' := fun h => hk h.symm
      simp only [hk, if_false, List.map_cons, ih, List.mem_cons, hk', false_or]
      split <;> rfl

theorem lookup_setEntry (k k' : κ) (a : α) (es : List (κ × α)) :
    (setEntry k a es).lookup k' = if k' = k then some a else es.lookup k' := by
  induction es with
  | nil =>
    by_cases hk : k' = k
    · simp [setEntry, hk]
    · simp [setEntry, hk, List.lookup_cons, beq_false_of_ne hk]
  | cons e es ih =>
    obtain ⟨k₀, a₀⟩ := e
    unfold setEntry
    by_cases hk : k₀ = k
    · subst hk
      by_cases h : k' = k₀
      · simp [h]
      · simp [List.lookup_cons, h, beq_false_of_ne h]
    · by_cases h : k' = k
      · subst h
        have hne : (k' == k₀) = false := beq_false_of_ne fun e => hk e.symm
        simp [hk, List.lookup_cons, hne, ih]
      · simp [hk, List.lookup_cons, ih, h]

def set (d : OrderedDict κ α) (k : κ) (a : α) : OrderedDict κ α where
  entries := setEntry k a d.entries
  nodup := by
    rw [map_fst_setEntry]
    split
    · exact d.nodup
    · rename_i hk
      exact List.nodup_append.mpr ⟨d.nodup, List.nodup_singleton k, by
        intro a ha b hb
        rw [List.mem_singleton.mp hb]
        exact fun h => hk (h ▸ ha)⟩

@[simp] theorem get?_set (d : OrderedDict κ α) (k k' : κ) (a : α) :
    (d.set k a).get? k' = if k' = k then some a else d.get? k' :=
  lookup_setEntry k k' a d.entries

theorem keys_set (d : OrderedDict κ α) (k : κ) (a : α) :
    (d.set k a).keys = if k ∈ d.keys then d.keys else d.keys ++ [k] :=
  map_fst_setEntry k a d.entries

theorem mem_keys_set {d : OrderedDict κ α} {k k' : κ} {a : α} :
    k' ∈ (d.set k a).keys ↔ k' = k ∨ k' ∈ d.keys := by
  rw [keys_set]
  split
  · rename_i hk
    exact ⟨Or.inr, fun h => h.elim (fun e => e ▸ hk) id⟩
  · simp [or_comm]

theorem entries_set_of_notMem {d : OrderedDict κ α} {k : κ} (hk : k ∉ d.keys) (a : α) :
    (d.set k a).entries = d.entries ++ [(k, a)] := by
  obtain ⟨es, hnd⟩ := d
  simp only [keys] at hk
  simp only [set]
  clear hnd
  induction es with
  | nil => rfl
  | cons e es ih =>
    obtain ⟨k', a'⟩ := e
    simp only [List.map_cons, List.mem_cons, not_or] at hk
    simp [setEntry, Ne.symm hk.1, ih hk.2]

/-- Pairs with new, distinct keys are appended. -/
theorem entries_foldl_set {d : OrderedDict κ α} {l : List (κ × α)}
    (h : (d.keys ++ l.map Prod.fst).Nodup) :
    (l.foldl (fun d p => d.set p.1 p.2) d).entries = d.entries ++ l := by
  induction l generalizing d with
  | nil => exact (List.append_nil _).symm
  | cons p l ih =>
    have hnot : p.1 ∉ d.keys := by
      intro hmem
      exact (List.nodup_append.mp h).2.2 _ hmem p.1 List.mem_cons_self rfl
    have hnodup : ((d.set p.1 p.2).keys ++ l.map Prod.fst).Nodup := by
      rw [keys_set, if_neg hnot, List.append_assoc]
      exact h
    rw [List.foldl_cons, ih hnodup, entries_set_of_notMem hnot, List.append_assoc]
    rfl

/-! ## Mapping the values -/

/-- Apply `f` to the values. -/
def mapValues (f : α → β) (d : OrderedDict κ α) : OrderedDict κ β where
  entries := d.entries.map fun e => (e.1, f e.2)
  nodup := by
    rw [List.map_map]
    exact d.nodup

@[simp] theorem get?_mapValues (f : α → β) (d : OrderedDict κ α) (k : κ) :
    (d.mapValues f).get? k = (d.get? k).map f := lookup_map_snd f d.entries k

theorem mapValues_set (f : α → β) (d : OrderedDict κ α) (k : κ) (a : α) :
    (d.set k a).mapValues f = (d.mapValues f).set k (f a) := by
  apply ext_entries
  obtain ⟨es, hnd⟩ := d
  unfold set mapValues
  dsimp only
  clear hnd
  induction es with
  | nil => rfl
  | cons e es ih =>
    rw [List.map_cons, setEntry, setEntry]
    split
    · rfl
    · rw [List.map_cons, ih]

/-! ## The dictionary of a list of pairs -/

/-- `{k: a for k, a in l}`. -/
def ofList (l : List (κ × α)) : OrderedDict κ α := l.foldl (fun d p => d.set p.1 p.2) empty

theorem ofList_concat (l : List (κ × α)) (p : κ × α) :
    ofList (l ++ [p]) = (ofList l).set p.1 p.2 := by
  simp [ofList]

theorem get?_ofList (l : List (κ × α)) (k : κ) : (ofList l).get? k = l.reverse.lookup k := by
  induction l using List.reverseRecOn with
  | nil => rfl
  | append_singleton l p ih =>
    obtain ⟨k', a⟩ := p
    rw [ofList_concat, get?_set, List.reverse_append, List.reverse_singleton,
      List.singleton_append, List.lookup_cons, ih]
    by_cases hk : k = k'
    · simp [hk]
    · simp [hk, beq_false_of_ne hk]

theorem mem_keys_ofList {l : List (κ × α)} {k : κ} :
    k ∈ (ofList l).keys ↔ k ∈ l.map Prod.fst := by
  induction l using List.reverseRecOn with
  | nil => simp [ofList, keys]
  | append_singleton l p ih => simp [ofList_concat, mem_keys_set, ih, or_comm]

theorem entries_ofList {l : List (κ × α)} (h : (l.map Prod.fst).Nodup) :
    (ofList l).entries = l := entries_foldl_set (d := empty) h

theorem lookup_map_eq_find? (key : β → κ) (val : β → α) (xs : List β) (k : κ) :
    (xs.map fun x => (key x, val x)).lookup k = (xs.find? fun x => key x = k).map val := by
  induction xs with
  | nil => rfl
  | cons x xs ih =>
    rw [List.map_cons, List.lookup_cons, List.find?_cons, ih]
    by_cases hk : key x = k
    · simp [hk]
    · have hbeq : (k == key x) = false := beq_false_of_ne fun h => hk h.symm
      simp [hk, hbeq]

/-- `{key(x): val(x) for x in xs}` at a key is about the last `x` that has it. -/
theorem get?_ofList_map (key : β → κ) (val : β → α) (xs : List β) (k : κ) :
    (ofList (xs.map fun x => (key x, val x))).get? k =
      (xs.reverse.find? fun x => key x = k).map val := by
  rw [get?_ofList, ← List.map_reverse, lookup_map_eq_find?]

/-- The keys of a list of pairs, each where it first occurs. -/
theorem keys_ofList (l : List (κ × α)) : (ofList l).keys = (l.map Prod.fst).eraseDups := by
  induction l using List.reverseRecOn with
  | nil => rfl
  | append_singleton l p ih =>
    rw [ofList_concat, keys_set, List.map_append, List.map_singleton, List.eraseDups_append, ← ih]
    by_cases hmem : p.1 ∈ l.map Prod.fst
    · have hkeys : p.1 ∈ (ofList l).keys := mem_keys_ofList.mpr hmem
      simp [hkeys, List.removeAll, hmem]
    · have hkeys : p.1 ∉ (ofList l).keys := fun h => hmem (mem_keys_ofList.mp h)
      simp [hkeys, List.removeAll, hmem, List.eraseDups_cons]

theorem values_eq_filterMap (d : OrderedDict κ α) : d.values = d.keys.filterMap d.get? := by
  rw [keys, List.filterMap_map, values, ← List.filterMap_eq_map]
  apply List.filterMap_congr
  intro e he
  exact (get?_eq_some_iff.mpr he).symm

/-- The values of `{key(x): val(x) for x in xs}`: for each key the last `x` that has it. -/
theorem values_ofList_map (key : β → κ) (val : β → α) (xs : List β) :
    (ofList (xs.map fun x => (key x, val x))).values =
      (xs.map key).eraseDups.filterMap fun k =>
        (xs.reverse.find? fun x => key x = k).map val := by
  rw [values_eq_filterMap, keys_ofList, List.map_map]
  exact List.filterMap_congr fun k _ => get?_ofList_map key val xs k

/-- A value of the dictionary is the last one stored under its key. -/
theorem get?_ofList_mem {l : List (κ × α)} {k : κ} {a : α} (h : (ofList l).get? k = some a) :
    (k, a) ∈ l := by
  induction l using List.reverseRecOn with
  | nil => simp [ofList] at h
  | append_singleton l p ih =>
    rw [ofList_concat, get?_set] at h
    split at h
    · rename_i hk
      cases h
      exact List.mem_append_right _ (by simp [hk])
    · exact List.mem_append_left _ (ih h)

theorem ofList_mapValues (f : α → β) (l : List (κ × α)) :
    ofList (l.map fun e => (e.1, f e.2)) = (ofList l).mapValues f := by
  induction l using List.reverseRecOn with
  | nil => rfl
  | append_singleton l p ih =>
    rw [List.map_append, List.map_singleton, ofList_concat, ofList_concat, ih, mapValues_set]

theorem filter_setEntry (p : κ → Bool) (k : κ) (a : α) (es : List (κ × α)) :
    (setEntry k a es).filter (fun e => p e.1) =
      if p k then setEntry k a (es.filter fun e => p e.1) else es.filter fun e => p e.1 := by
  induction es with
  | nil => cases hp : p k <;> simp [setEntry, hp]
  | cons e es ih =>
    obtain ⟨k', a'⟩ := e
    by_cases hk : k' = k
    · subst hk
      cases hp : p k' <;> simp [setEntry, hp]
    · cases hp : p k <;> cases hp' : p k' <;> simp [setEntry, hk, hp, hp', ih]

/-- Keeping the pairs with certain keys keeps the entries with these keys, in order. -/
theorem entries_ofList_filter (p : κ → Bool) (l : List (κ × α)) :
    (ofList (l.filter fun e => p e.1)).entries = (ofList l).entries.filter fun e => p e.1 := by
  induction l using List.reverseRecOn with
  | nil => rfl
  | append_singleton l e ih =>
    rw [ofList_concat, List.filter_append]
    unfold set
    rw [filter_setEntry, ← ih]
    cases hp : p e.1 with
    | false => simp [hp]
    | true =>
      have hone : [e].filter (fun e => p e.1) = [e] := by simp [hp]
      rw [hone, ofList_concat, if_pos rfl]
      rfl

/-! ## Grouping -/

/-- `d[k].append(x)` for a dictionary whose missing values are empty lists. -/
def push (d : OrderedDict κ (List γ)) (k : κ) (x : γ) : OrderedDict κ (List γ) :=
  d.set k ((d.get? k).getD [] ++ [x])

/-- Append the value of every classified element under its class, in list order. -/
def group (key : β → Option κ) (val : β → γ) (xs : List β) : OrderedDict κ (List γ) :=
  xs.foldl (fun d x => match key x with
    | some k => d.push k (val x)
    | none => d) empty

section Group

variable (key : β → Option κ) (val : β → γ)

theorem group_concat (xs : List β) (x : β) :
    group key val (xs ++ [x]) = match key x with
      | some k => (group key val xs).push k (val x)
      | none => group key val xs := by
  simp [group]

/-- The list under `k` is the subsequence of the elements of class `k`. -/
theorem getD_group (xs : List β) (k : κ) :
    ((group key val xs).get? k).getD [] = (xs.filter (key · = some k)).map val := by
  induction xs using List.reverseRecOn with
  | nil => rfl
  | append_singleton xs x ih =>
    rw [group_concat, List.filter_append, List.map_append, ← ih]
    cases hx : key x with
    | none => simp [hx]
    | some k' =>
      by_cases hk : k = k'
      · subst hk
        simp [push, hx]
      · have hk' : k' ≠ k := fun h => hk h.symm
        simp [push, hx, hk, hk']

theorem mem_keys_group {xs : List β} {k : κ} :
    k ∈ (group key val xs).keys ↔ ∃ x ∈ xs, key x = some k := by
  induction xs using List.reverseRecOn with
  | nil => simp [group, keys]
  | append_singleton xs x ih =>
    rw [group_concat]
    cases hx : key x with
    | none => simp [ih, hx]
    | some k' =>
      simp only [push, mem_keys_set, ih, List.mem_append, List.mem_singleton]
      constructor
      · rintro (rfl | ⟨y, hy, hk⟩)
        · exact ⟨x, Or.inr rfl, hx⟩
        · exact ⟨y, Or.inl hy, hk⟩
      · rintro ⟨y, hy | rfl, hk⟩
        · exact Or.inr ⟨y, hy, hk⟩
        · rw [hx] at hk
          cases hk
          exact Or.inl rfl

theorem mem_entries_group {xs : List β} {k : κ} {g : List γ} :
    (k, g) ∈ (group key val xs).entries ↔
      g ≠ [] ∧ g = (xs.filter (key · = some k)).map val := by
  rw [← getD_group, ← get?_eq_some_iff]
  constructor
  · intro h
    refine ⟨?_, by simp [h]⟩
    obtain ⟨x, hx, hk⟩ := (mem_keys_group key val).mp
      (get?_isSome_iff.mp (Option.isSome_iff_exists.mpr ⟨g, h⟩))
    have hg : g = (xs.filter (key · = some k)).map val := by rw [← getD_group, h]; rfl
    rw [hg]
    exact List.ne_nil_of_mem (List.mem_map.mpr ⟨x, by simp [hx, hk], rfl⟩)
  · rintro ⟨hne, hg⟩
    cases h : (group key val xs).get? k with
    | none => simp [h] at hg; exact absurd hg hne
    | some g' => simp [h] at hg; rw [hg]

/-- Values that are made of values group like these. -/
theorem group_map_val (f : γ → δ) (xs : List β) :
    group key (fun x => f (val x)) xs = (group key val xs).mapValues (List.map f) := by
  induction xs using List.reverseRecOn with
  | nil => rfl
  | append_singleton xs x ih =>
    rw [group_concat, group_concat, ih]
    cases key x with
    | none => rfl
    | some k =>
      show push _ _ _ = (push _ _ _).mapValues _
      unfold push
      rw [mapValues_set, get?_mapValues, List.map_append, List.map_singleton]
      cases (group key val xs).get? k with
      | none => rfl
      | some g => rfl

theorem flatMap_setEntry_push (k : κ) (x : γ) (es : List (κ × List γ)) :
    ((setEntry k ((es.lookup k).getD [] ++ [x]) es).flatMap Prod.snd).Perm
      (es.flatMap Prod.snd ++ [x]) := by
  induction es with
  | nil => simp [setEntry]
  | cons e es ih =>
    obtain ⟨k', g⟩ := e
    unfold setEntry
    by_cases hk : k' = k
    · subst hk
      simp only [List.lookup_cons, beq_self_eq_true, Option.getD_some, if_true,
        List.flatMap_cons, List.append_assoc]
      exact List.Perm.append_left g List.perm_append_comm
    · have hne : (k == k') = false := beq_false_of_ne fun h => hk h.symm
      simp only [hk, if_false, List.lookup_cons, hne, List.flatMap_cons, List.append_assoc]
      exact List.Perm.append_left g ih

/-- Grouping loses and repeats nothing: the groups together hold exactly the values of
the classified elements. -/
theorem flatMap_entries_group (xs : List β) :
    ((group key val xs).entries.flatMap Prod.snd).Perm
      ((xs.filter fun x => (key x).isSome).map val) := by
  induction xs using List.reverseRecOn with
  | nil => simp [group]
  | append_singleton xs x ih =>
    rw [group_concat, List.filter_append, List.map_append]
    cases hx : key x with
    | none => simpa [hx] using ih
    | some k =>
      have h := flatMap_setEntry_push k (val x) (group key val xs).entries
      exact h.trans (by simpa [hx] using ih.append_right [val x])

end Group

end OrderedDict
