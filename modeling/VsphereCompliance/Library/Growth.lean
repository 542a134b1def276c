import VsphereCompliance.Library.Table

/-!
# Tables that only grow

`Grows R t t'`: the rows of `t` are still there in `t'`, each in a version that `R` allows, and
what came after them has keys that `t` had not drawn. For a reflexive and transitive `R` that
keeps the keys this is a preorder (`Grows.refl`, `Grows.trans`); inserting (`grows_insertRows`)
and updating within `R` (`grows_update`) are steps of it. A key keeps its row
(`Grows.find?_eq_some`), and a key that was drawn and found nothing never finds anything
(`Grows.find?_eq_none`).
-/

namespace Table

variable {α β : Type*} {key : α → Nat}

structure Grows (R : α → α → Prop) (t t' : Table α key) : Prop where
  rows : ∃ (f : α → α) (new : List α), t'.rows = t.rows.map f ++ new ∧
    (∀ r ∈ t.rows, R r (f r)) ∧ ∀ r ∈ new, t.next ≤ key r
  next : t.next ≤ t'.next

/-- The versions of a row: a preorder that keeps the key. -/
structure Versions (key : α → Nat) (R : α → α → Prop) : Prop where
  refl : ∀ r, R r r
  trans : ∀ r s u, R r s → R s u → R r u
  key_eq : ∀ r s, R r s → key s = key r

section Grows

variable {R : α → α → Prop} {t t' t'' : Table α key}

theorem Grows.refl (hR : Versions key R) (t : Table α key) : Grows R t t := by
  refine ⟨⟨id, [], ?_, fun r _ => hR.refl r, fun r hr => absurd hr List.not_mem_nil⟩, le_refl _⟩
  rw [List.map_id, List.append_nil]

theorem Grows.of_eq (hR : Versions key R) (h : t' = t) : Grows R t t' := h ▸ Grows.refl hR t

theorem Grows.trans (hR : Versions key R) (h : Grows R t t') (h' : Grows R t' t'') :
    Grows R t t'' := by
  obtain ⟨⟨f, new, hrows, hf, hnew⟩, hnext⟩ := h
  obtain ⟨⟨g, new', hrows', hg, hnew'⟩, hnext'⟩ := h'
  rw [hrows] at hg hrows'
  refine ⟨⟨g ∘ f, new.map g ++ new', ?_, ?_, ?_⟩, hnext.trans hnext'⟩
  · rw [hrows', List.map_append, List.map_map, List.append_assoc]
  · intro r hr
    exact hR.trans _ _ _ (hf r hr) (hg (f r) (List.mem_append_left _ (List.mem_map_of_mem hr)))
  · intro r hr
    rcases List.mem_append.mp hr with hr | hr
    · obtain ⟨s, hs, rfl⟩ := List.mem_map.mp hr
      rw [hR.key_eq _ _ (hg s (List.mem_append_right _ hs))]
      exact hnew s hs
    · exact hnext.trans (hnew' r hr)

theorem grows_insertRows (hR : Versions key R) (t : Table α key) {mk : Nat → β → α}
    (hmk : ∀ n x, key (mk n x) = n) (xs : List β) : Grows R t (t.insertRows mk hmk xs) := by
  refine ⟨⟨id, newRows mk t.next xs, ?_, fun r _ => hR.refl r, ?_⟩, Nat.le_add_right _ _⟩
  · rw [List.map_id]
    rfl
  · intro r hr
    obtain ⟨i, x, _, _, rfl⟩ := mem_newRows hr
    rw [hmk]
    omega

theorem grows_update (hR : Versions key R) (t : Table α key) {p : α → Bool} {f : α → α}
    (hf : ∀ r, key (f r) = key r) (h : ∀ r ∈ t.rows, p r = true → R r (f r)) :
    Grows R t (t.update p f hf) := by
  refine ⟨⟨fun r => if p r then f r else r, [], (List.append_nil _).symm, ?_,
    fun r hr => absurd hr List.not_mem_nil⟩, le_refl _⟩
  intro r hr
  dsimp only
  split
  · exact h r hr ‹_›
  · exact hR.refl r

/-- A row that was there is there in a later version. -/
theorem Grows.exists_mem (h : Grows R t t') {r : α} (hr : r ∈ t.rows) :
    ∃ r' ∈ t'.rows, R r r' := by
  obtain ⟨⟨f, new, hrows, hf, _⟩, _⟩ := h
  exact ⟨f r, hrows ▸ List.mem_append_left _ (List.mem_map_of_mem hr), hf r hr⟩

/-- A row is a later version of one that was there, or its key is new. -/
theorem Grows.exists_of_mem (h : Grows R t t') {r' : α} (hr' : r' ∈ t'.rows) :
    (∃ r ∈ t.rows, R r r') ∨ t.next ≤ key r' := by
  obtain ⟨⟨f, new, hrows, hf, hnew⟩, _⟩ := h
  rw [hrows] at hr'
  rcases List.mem_append.mp hr' with hr' | hr'
  · obtain ⟨r, hr, rfl⟩ := List.mem_map.mp hr'
    exact Or.inl ⟨r, hr, hf r hr⟩
  · exact Or.inr (hnew r' hr')

/-- **A key keeps its row.** -/
theorem Grows.find?_eq_some (hR : Versions key R) (h : Grows R t t') {k : Nat} {r : α}
    (hr : t.find? k = some r) : ∃ r', t'.find? k = some r' ∧ R r r' := by
  obtain ⟨hmem, rfl⟩ := find?_eq_some_iff.mp hr
  obtain ⟨r', hmem', hlater⟩ := h.exists_mem hmem
  exact ⟨r', find?_eq_some_iff.mpr ⟨hmem', hR.key_eq _ _ hlater⟩, hlater⟩

/-- **A key is never given to another row.** -/
theorem Grows.find?_eq_none (hR : Versions key R) (h : Grows R t t') {k : Nat}
    (hk : k < t.next) (hr : t.find? k = none) : t'.find? k = none := by
  cases hr' : t'.find? k with
  | none => rfl
  | some r' =>
    obtain ⟨hmem', hkey⟩ := find?_eq_some_iff.mp hr'
    rcases h.exists_of_mem hmem' with ⟨r, hmem, hlater⟩ | hnew
    · have hfound := find?_eq_some_iff.mpr ⟨hmem, (hR.key_eq _ _ hlater).symm.trans hkey⟩
      rw [hr] at hfound
      cases hfound
    · omega

end Grows

end Table
