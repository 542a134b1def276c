import VsphereCompliance.Settings.AppSettings

/-!
# A batch of settings and its items one by one

`rowAfter` is what the items for one key make of its row. A batch that is stored leaves this for
every key (`get?_put_of_stored`), and its items sent one by one leave it without the items that are
rejected alone (`get?_putEach`). The batch is not stored when two of its items have a key that
has no row yet: the second lookup does not see the pending row, and the column is unique. So the
two agree, for items that are accepted alone, exactly when no new key comes twice
(`batch_eq_each_of_acceptable`), and in general as `batch_eq_each_iff` says.
-/

namespace VsphereCompliance.Settings

open Store

variable {c : Cipher}

/-! ## The items of one key -/

/-- The items for the key. -/
def itemsFor (key : String) (items : List SettingUpdate) : List SettingUpdate :=
  items.filter fun i => i.key = key

/-- The row of a key after items for it. -/
def rowAfter (row : Option (AppSetting c)) (items : List SettingUpdate) :
    Option (AppSetting c) :=
  items.foldl (fun row i => some (i.write (row.getD i.newSetting))) row

theorem key_of_mem_itemsFor {key : String} {items : List SettingUpdate} {i : SettingUpdate}
    (h : i ∈ itemsFor key items) : i.key = key := of_decide_eq_true (List.mem_filter.mp h).2

theorem itemsFor_cons_self (i : SettingUpdate) (items : List SettingUpdate) :
    itemsFor i.key (i :: items) = i :: itemsFor i.key items :=
  List.filter_cons_of_pos (decide_eq_true rfl)

theorem itemsFor_cons_ne {key : String} {i : SettingUpdate} (h : i.key ≠ key)
    (items : List SettingUpdate) : itemsFor key (i :: items) = itemsFor key items :=
  List.filter_cons_of_neg fun htrue => h (of_decide_eq_true htrue)

theorem exists_rowAfter (row : AppSetting c) (items : List SettingUpdate) :
    ∃ row', rowAfter (some row) items = some row' := by
  induction items generalizing row with
  | nil => exact ⟨row, rfl⟩
  | cons i items ih => exact ih _

/-- An item leaves a row. -/
theorem rowAfter_ne_none {row : Option (AppSetting c)} {items : List SettingUpdate}
    (h : items ≠ []) : rowAfter row items ≠ none := by
  cases items with
  | nil => exact absurd rfl h
  | cons i items =>
    obtain ⟨row', hrow'⟩ := exists_rowAfter (i.write (row.getD i.newSetting)) items
    show rowAfter (some _) items ≠ none
    rw [hrow']
    exact Option.some_ne_none row'

/-! ## The session -/

/-- The items whose key has no row. -/
def newItems (d : OrderedDict String (AppSetting c)) (items : List SettingUpdate) :
    List SettingUpdate := items.filter fun i => (d.get? i.key).isNone

/-- An item with a new key is one of the new items. -/
theorem itemsFor_newItems {d : OrderedDict String (AppSetting c)} {key : String}
    (h : d.get? key = none) (items : List SettingUpdate) :
    itemsFor key (newItems d items) = itemsFor key items := by
  unfold itemsFor newItems
  rw [List.filter_filter]
  apply List.filter_congr
  intro i _
  by_cases hkey : i.key = key
  · rw [hkey, h]
    exact Bool.and_true _
  · rw [decide_eq_false hkey]
    rfl

theorem keys_update (s : Session c) (i : SettingUpdate) :
    (s.update i).loaded.keys = s.loaded.keys := by
  unfold Session.update
  split
  · rename_i setting hget
    show (s.loaded.set i.key _).keys = _
    have hmem : i.key ∈ s.loaded.keys := by
      rw [← OrderedDict.get?_isSome_iff, hget]
      rfl
    rw [OrderedDict.keys_set, if_pos hmem]
  · rfl

theorem isNone_update (s : Session c) (i : SettingUpdate) (key : String) :
    ((s.update i).loaded.get? key).isNone = (s.loaded.get? key).isNone := by
  rw [Bool.eq_iff_iff, Option.isNone_iff_eq_none, Option.isNone_iff_eq_none,
    OrderedDict.get?_eq_none_iff, OrderedDict.get?_eq_none_iff, keys_update]

theorem keys_foldl_update (s : Session c) (items : List SettingUpdate) :
    (items.foldl Session.update s).loaded.keys = s.loaded.keys := by
  induction items generalizing s with
  | nil => rfl
  | cons i items ih => rw [List.foldl_cons, ih, keys_update]

/-- The rows to insert are those of the items with a new key. -/
theorem added_foldl_update (s : Session c) (items : List SettingUpdate) :
    (items.foldl Session.update s).added =
      s.added ++ (newItems s.loaded items).map fun i => (i.key, i.write i.newSetting) := by
  induction items generalizing s with
  | nil => exact (List.append_nil _).symm
  | cons i items ih =>
    have hnew : newItems (s.update i).loaded items = newItems s.loaded items := by
      unfold newItems
      simp only [isNone_update]
    rw [List.foldl_cons, ih, hnew]
    cases hget : s.loaded.get? i.key with
    | some setting =>
      have hskip : newItems s.loaded (i :: items) = newItems s.loaded items :=
        List.filter_cons_of_neg (by rw [hget]; exact Bool.false_ne_true)
      have hadded : (s.update i).added = s.added := by
        rw [Session.update, hget]
      rw [hskip, hadded]
    | none =>
      have htake : newItems s.loaded (i :: items) = i :: newItems s.loaded items :=
        List.filter_cons_of_pos (by rw [hget]; rfl)
      have hadded : (s.update i).added = s.added ++ [(i.key, i.write i.newSetting)] := by
        rw [Session.update, hget]
      rw [htake, hadded, List.map_cons, List.append_assoc]
      rfl

/-- A row of the database after the loop. -/
theorem get?_foldl_update (s : Session c) (items : List SettingUpdate) (key : String) :
    (items.foldl Session.update s).loaded.get? key =
      (s.loaded.get? key).bind fun row => rowAfter (some row) (itemsFor key items) := by
  induction items generalizing s with
  | nil => exact (Option.bind_fun_some _).symm
  | cons i items ih =>
    rw [List.foldl_cons, ih]
    by_cases hkey : i.key = key
    · subst hkey
      rw [itemsFor_cons_self]
      cases hget : s.loaded.get? i.key with
      | none => rw [Session.update, hget, Option.bind_none, hget, Option.bind_none]
      | some row =>
        rw [Session.update, hget]
        dsimp only
        rw [OrderedDict.get?_set, if_pos rfl]
        rfl
    · rw [itemsFor_cons_ne hkey]
      congr 1
      unfold Session.update
      split
      · exact (OrderedDict.get?_set _ _ _ _).trans (if_neg fun heq => hkey heq.symm)
      · rfl

/-- The insert for a key, where no key comes twice. -/
theorem lookup_added {items : List SettingUpdate}
    (h : (items.map SettingUpdate.key).Nodup) (key : String) :
    (items.map fun i => (i.key, (i.write i.newSetting : AppSetting c))).lookup key =
      rowAfter none (itemsFor key items) := by
  induction items with
  | nil => rfl
  | cons i items ih =>
    obtain ⟨hnot, hnodup⟩ := List.nodup_cons.mp h
    rw [List.map_cons, List.lookup_cons]
    by_cases hkey : i.key = key
    · subst hkey
      have hnone : itemsFor i.key items = [] := by
        apply List.filter_eq_nil_iff.mpr
        intro j hj htrue
        exact hnot (List.mem_map.mpr ⟨j, hj, of_decide_eq_true htrue⟩)
      rw [itemsFor_cons_self, hnone, beq_self_eq_true]
      rfl
    · have hne : (key == i.key) = false := beq_false_of_ne fun heq => hkey heq.symm
      rw [itemsFor_cons_ne hkey, hne]
      exact ih hnodup

/-! ## The batch -/

/-- No key without a row comes twice. -/
def DistinctNew (settings : AppSettings c) (items : List SettingUpdate) : Prop :=
  ((newItems settings.rows items).map SettingUpdate.key).Nodup

instance (settings : AppSettings c) (items : List SettingUpdate) :
    Decidable (DistinctNew settings items) := inferInstanceAs (Decidable (List.Nodup _))

/-- The batch is stored: the new keys are distinct, and what it leaves fits into the columns. -/
def Stored (settings : AppSettings c) (items : List SettingUpdate) : Prop :=
  DistinctNew settings items ∧ ∀ key row,
    rowAfter (settings.get? key) (itemsFor key items) = some row → RowFits key row

section Batch

variable {settings : AppSettings c} {items : List SettingUpdate}

theorem keys_added (settings : AppSettings c) (items : List SettingUpdate) :
    (session settings items).added.map Prod.fst =
      (newItems settings.rows items).map SettingUpdate.key := by
  unfold session
  rw [added_foldl_update, List.nil_append, List.map_map]
  rfl

theorem nodup_keys_iff : ((session settings items).loaded.keys ++
    (session settings items).added.map Prod.fst).Nodup ↔ DistinctNew settings items := by
  rw [keys_added, List.nodup_append]
  refine ⟨fun h => h.2.1, ?_⟩
  intro h
  refine ⟨(session settings items).loaded.nodup, h, ?_⟩
  rintro key hkey _ hkey' rfl
  obtain ⟨i, hi, rfl⟩ := List.mem_map.mp hkey'
  have hnone := (List.mem_filter.mp hi).2
  rw [session, keys_foldl_update, ← OrderedDict.get?_isSome_iff] at hkey
  rw [Option.isNone_iff_eq_none.mp hnone] at hkey
  cases hkey

/-- The row of a key in the session, where the new keys are distinct. -/
theorem get?_rows (h : DistinctNew settings items) (key : String) :
    (session settings items).rows.get? key =
      rowAfter (settings.get? key) (itemsFor key items) := by
  have hentries := OrderedDict.entries_foldl_set (nodup_keys_iff.mpr h)
  have happend : (session settings items).rows.get? key =
      ((session settings items).loaded.get? key).or
        ((session settings items).added.lookup key) := by
    show (session settings items).rows.entries.lookup key = _
    rw [Session.rows, hentries, List.lookup_append]
    rfl
  have hloaded : (session settings items).loaded.get? key =
      (settings.get? key).bind fun row => rowAfter (some row) (itemsFor key items) :=
    get?_foldl_update _ _ _
  have hadded : (session settings items).added =
      (newItems settings.rows items).map fun i => (i.key, i.write i.newSetting) := by
    unfold session
    rw [added_foldl_update, List.nil_append]
  rw [happend, hloaded, hadded, lookup_added h]
  cases hget : settings.get? key with
  | some row =>
    obtain ⟨row', hrow'⟩ := exists_rowAfter row (itemsFor key items)
    rw [Option.bind_some, hrow', Option.some_or]
  | none => rw [Option.bind_none, Option.none_or, itemsFor_newItems hget]

theorem accepted_iff : (session settings items).Accepted ↔ Stored settings items := by
  unfold Session.Accepted Stored
  rw [nodup_keys_iff]
  apply and_congr_right
  intro h
  refine ⟨?_, ?_⟩
  · intro hfits key row hrow
    rw [← get?_rows h] at hrow
    exact hfits (key, row) (OrderedDict.get?_eq_some_iff.mp hrow)
  · rintro hfits ⟨key, row⟩ he
    apply hfits
    rw [← get?_rows h]
    exact OrderedDict.get?_eq_some_iff.mpr he

/-- **What a batch leaves**, if it is stored. -/
theorem get?_put_of_stored (h : Stored settings items) (key : String) :
    (put settings items).get? key = rowAfter (settings.get? key) (itemsFor key items) := by
  have hcommit : (session settings items).commit =
      some ⟨(session settings items).rows, (accepted_iff.mpr h).2⟩ :=
    dif_pos (accepted_iff.mpr h)
  rw [put, updateSettings, hcommit]
  exact get?_rows h.1 key

/-- A batch that is not stored leaves the table as it was. -/
theorem put_of_not_stored (h : ¬ Stored settings items) : put settings items = settings := by
  have hcommit : (session settings items).commit = none :=
    dif_neg fun haccepted => h (accepted_iff.mp haccepted)
  rw [put, updateSettings, hcommit]

end Batch

/-! ## One item -/

/-- The item is accepted when it comes alone. -/
def SettingUpdate.Acceptable (i : SettingUpdate) : Prop :=
  Storable 200 i.key ∧ (i.isSensitive = false → IsText i.value) ∧ ∀ s ∈ i.description, IsText s

instance (i : SettingUpdate) : Decidable i.Acceptable :=
  inferInstanceAs (Decidable (_ ∧ _ ∧ _))

/-- A description that is written is a text. -/
theorem isText_of_textOr {a b : Option String} (h : ∀ s ∈ textOr a b, IsText s) :
    ∀ s ∈ a, IsText s := by
  unfold textOr at h
  split at h
  · rename_i hempty
    intro s hs
    rw [Option.mem_def] at hs
    rw [hs] at hempty
    obtain rfl : s = "" := hempty
    decide
  · exact h

theorem isText_textOr {a b : Option String} (hb : ∀ s ∈ b, IsText s) :
    (∀ s ∈ textOr a b, IsText s) ↔ ∀ s ∈ a, IsText s := by
  refine ⟨isText_of_textOr, ?_⟩
  intro ha
  unfold textOr
  split
  · exact hb
  · exact ha

theorem textOr_self (a : Option String) : textOr a a = a := by
  unfold textOr
  split
  · rfl
  · rfl

theorem rowFits_write_iff {i : SettingUpdate} {setting : AppSetting c} :
    RowFits i.key (i.write setting) ↔ Storable 200 i.key ∧
      (i.isSensitive = false → IsText i.value) ∧
      ∀ s ∈ textOr i.description setting.description, IsText s := by
  have hplain : (∀ s ∈ (i.write setting).plainValue, IsText s) ↔
      (i.isSensitive = false → IsText i.value) := by
    unfold SettingUpdate.write
    cases i.isSensitive with
    | true => simp
    | false => simp
  unfold RowFits
  rw [hplain]
  rfl

/-- What an item leaves of a row that fits, or makes where there is none, fits exactly when the
item is acceptable. -/
theorem rowFits_after_iff {i : SettingUpdate} {row : Option (AppSetting c)}
    (h : ∀ r ∈ row, RowFits i.key r) :
    RowFits i.key (i.write (row.getD i.newSetting)) ↔ i.Acceptable := by
  rw [rowFits_write_iff]
  cases row with
  | none =>
    rw [Option.getD_none, show (i.newSetting : AppSetting c).description = i.description from rfl,
      textOr_self]
    rfl
  | some r =>
    rw [Option.getD_some, isText_textOr (h r rfl).2.2]
    rfl

section Single

variable (settings : AppSettings c) (i : SettingUpdate)

theorem rowFits_of_mem_get? {settings : AppSettings c} {key : String} :
    ∀ r ∈ settings.get? key, RowFits key r := fun _ hr => AppSettings.rowFits_of_get? hr

theorem stored_single_iff : Stored settings [i] ↔ i.Acceptable := by
  have hdistinct : DistinctNew settings [i] :=
    ((List.filter_sublist.map _).nodup (List.nodup_singleton i.key))
  have hfits : ∀ r ∈ settings.get? i.key, RowFits i.key r := rowFits_of_mem_get?
  rw [← rowFits_after_iff hfits]
  refine ⟨?_, ?_⟩
  · intro h
    apply h.2 i.key
    rw [itemsFor_cons_self]
    rfl
  · intro h
    refine ⟨hdistinct, ?_⟩
    intro key row hrow
    by_cases hkey : i.key = key
    · subst hkey
      rw [itemsFor_cons_self] at hrow
      obtain rfl := Option.some.inj hrow
      exact h
    · rw [itemsFor_cons_ne hkey] at hrow
      exact AppSettings.rowFits_of_get? hrow

/-- The items that are accepted alone. -/
def acceptable (items : List SettingUpdate) : List SettingUpdate :=
  items.filter fun i => i.Acceptable

theorem get?_put_single (key : String) : (put settings [i]).get? key =
    rowAfter (settings.get? key) (itemsFor key (acceptable [i])) := by
  by_cases h : i.Acceptable
  · have hkept : acceptable [i] = [i] := List.filter_cons_of_pos (decide_eq_true h)
    rw [get?_put_of_stored ((stored_single_iff settings i).mpr h), hkept]
  · have hnone : acceptable [i] = [] :=
      List.filter_cons_of_neg fun htrue => h (of_decide_eq_true htrue)
    rw [put_of_not_stored fun hstored => h ((stored_single_iff settings i).mp hstored), hnone]
    rfl

end Single

/-- The items as requests of their own, in order. -/
def putEach (settings : AppSettings c) (items : List SettingUpdate) : AppSettings c :=
  items.foldl (fun settings i => put settings [i]) settings

theorem rowAfter_append (row : Option (AppSetting c)) (xs ys : List SettingUpdate) :
    rowAfter row (xs ++ ys) = rowAfter (rowAfter row xs) ys := List.foldl_append

/-- **What the items leave one by one.** -/
theorem get?_putEach (settings : AppSettings c) (items : List SettingUpdate) (key : String) :
    (putEach settings items).get? key =
      rowAfter (settings.get? key) (itemsFor key (acceptable items)) := by
  induction items generalizing settings with
  | nil => rfl
  | cons i items ih =>
    have hsplit : itemsFor key (acceptable (i :: items)) =
        itemsFor key (acceptable [i]) ++ itemsFor key (acceptable items) := by
      unfold itemsFor acceptable
      rw [← List.filter_append, ← List.filter_append, List.singleton_append]
    show (putEach (put settings [i]) items).get? key = _
    rw [ih, get?_put_single, hsplit, rowAfter_append]

/-! ## Do they agree? -/

/-- The description of a row after items for its key. -/
def descriptionAfter (d : Option String) (items : List SettingUpdate) : Option String :=
  items.foldl (fun d i => textOr i.description d) d

/-- The items that are rejected alone leave no description behind. -/
def RejectedLeaveNothing (settings : AppSettings c) (items : List SettingUpdate) : Prop :=
  ∀ key row, settings.get? key = some row →
    descriptionAfter row.description (itemsFor key items) =
      descriptionAfter row.description (itemsFor key (acceptable items))

/-- The items that are accepted alone write what is there. -/
def AcceptedChangeNothing (settings : AppSettings c) (items : List SettingUpdate) : Prop :=
  ∀ key, rowAfter (settings.get? key) (itemsFor key (acceptable items)) = settings.get? key

/-- When the batch does what its items do. -/
def BatchAgrees (settings : AppSettings c) (items : List SettingUpdate) : Prop :=
  (Stored settings items ∧ RejectedLeaveNothing settings items) ∨
    (¬ Stored settings items ∧ AcceptedChangeNothing settings items)

theorem description_rowAfter (row : AppSetting c) (items : List SettingUpdate) :
    (rowAfter (some row) items).map AppSetting.description =
      some (descriptionAfter row.description items) := by
  induction items generalizing row with
  | nil => rfl
  | cons i items ih => exact ih _

/-- The last item for a key of a stored batch is accepted alone. -/
theorem acceptable_of_last {key : String} {row : Option (AppSetting c)} {i : SettingUpdate}
    (hkey : i.key = key) (xs : List SettingUpdate)
    (h : ∀ r, rowAfter row (xs ++ [i]) = some r → RowFits key r) : i.Acceptable := by
  subst hkey
  have hfits := h _ (rowAfter_append row xs [i])
  obtain ⟨hstorable, hplain, hdescription⟩ := rowFits_write_iff.mp hfits
  exact ⟨hstorable, hplain, isText_of_textOr hdescription⟩

theorem write_eq_iff (i : SettingUpdate) (r r' : AppSetting c) : i.write r = i.write r' ↔
    textOr i.description r.description = textOr i.description r'.description := by
  refine ⟨fun h => congrArg AppSetting.description h, ?_⟩
  intro h
  unfold SettingUpdate.write
  rw [h]

/-- Two lists that end in the same item leave rows with the same values. -/
theorem rowAfter_append_eq_iff (row : AppSetting c) (xs ys : List SettingUpdate)
    (i : SettingUpdate) : rowAfter (some row) (xs ++ [i]) = rowAfter (some row) (ys ++ [i]) ↔
      descriptionAfter row.description (xs ++ [i]) =
        descriptionAfter row.description (ys ++ [i]) := by
  obtain ⟨r, hr⟩ := exists_rowAfter row xs
  obtain ⟨r', hr'⟩ := exists_rowAfter row ys
  have hwrite : rowAfter (some row) (xs ++ [i]) = some (i.write r) := by
    rw [rowAfter_append, hr]
    rfl
  have hwrite' : rowAfter (some row) (ys ++ [i]) = some (i.write r') := by
    rw [rowAfter_append, hr']
    rfl
  have hd : textOr i.description r.description = descriptionAfter row.description (xs ++ [i]) := by
    rw [← Option.some.injEq, ← description_rowAfter, hwrite]
    rfl
  have hd' : textOr i.description r'.description =
      descriptionAfter row.description (ys ++ [i]) := by
    rw [← Option.some.injEq, ← description_rowAfter, hwrite']
    rfl
  rw [hwrite, hwrite', Option.some.injEq, write_eq_iff, hd, hd']

section Agreement

variable {settings : AppSettings c} {items : List SettingUpdate}

theorem itemsFor_acceptable (key : String) (items : List SettingUpdate) :
    itemsFor key (acceptable items) = acceptable (itemsFor key items) := by
  unfold itemsFor acceptable
  rw [List.filter_filter, List.filter_filter]
  simp only [Bool.and_comm]

theorem acceptable_concat {xs : List SettingUpdate} {i : SettingUpdate} (h : i.Acceptable) :
    acceptable (xs ++ [i]) = acceptable xs ++ [i] := by
  unfold acceptable
  rw [List.filter_append]
  congr 1
  exact List.filter_cons_of_pos (decide_eq_true h)

/-- Distinct keys: at most one item for each. -/
theorem length_itemsFor_le {items : List SettingUpdate}
    (h : (items.map SettingUpdate.key).Nodup) (key : String) :
    (itemsFor key items).length ≤ 1 := by
  have hsub : ((itemsFor key items).map SettingUpdate.key).Nodup :=
    (List.filter_sublist.map _).nodup h
  have hconst : (itemsFor key items).map SettingUpdate.key =
      List.replicate (itemsFor key items).length key := by
    refine List.eq_replicate_iff.mpr ⟨List.length_map _, ?_⟩
    intro k hk
    obtain ⟨i, hi, rfl⟩ := List.mem_map.mp hk
    exact key_of_mem_itemsFor hi
  rw [hconst] at hsub
  exact List.nodup_replicate.mp hsub

/-- In a stored batch the values of a row are those of an accepted item. -/
theorem rowAfter_eq_iff (h : Stored settings items) (key : String) :
    rowAfter (settings.get? key) (itemsFor key items) =
        rowAfter (settings.get? key) (itemsFor key (acceptable items)) ↔
      ∀ row, settings.get? key = some row →
        descriptionAfter row.description (itemsFor key items) =
          descriptionAfter row.description (itemsFor key (acceptable items)) := by
  have hfits := h.2 key
  have hlength : settings.get? key = none → (itemsFor key items).length ≤ 1 := by
    intro hnone
    rw [← itemsFor_newItems hnone]
    exact length_itemsFor_le h.1 key
  have hkeys : ∀ i ∈ itemsFor key items, i.key = key := fun i hi => key_of_mem_itemsFor hi
  rw [itemsFor_acceptable]
  generalize itemsFor key items = xs at hfits hlength hkeys
  rcases List.eq_nil_or_concat' xs with rfl | ⟨ys, i, rfl⟩
  · exact ⟨fun _ _ _ => rfl, fun _ => rfl⟩
  have hi := acceptable_of_last (hkeys i (List.mem_append_right _ (List.mem_singleton_self _)))
    ys hfits
  rw [acceptable_concat hi]
  cases hget : settings.get? key with
  | some row =>
    rw [rowAfter_append_eq_iff]
    refine ⟨?_, fun hall => hall row rfl⟩
    intro hd row' hrow'
    obtain rfl := Option.some.inj hrow'
    exact hd
  | none =>
    -- a new key has this one item
    have hys : ys = [] := by
      have hle := hlength hget
      rw [List.length_append, List.length_singleton] at hle
      exact List.eq_nil_of_length_eq_zero (by omega)
    rw [hys]
    refine ⟨?_, fun _ => rfl⟩
    intro _ _ hsome
    cases hsome

/-- **A batch agrees with its items one by one** exactly when it is stored without the rejected
items having left a description, or is not stored and the accepted items change nothing. -/
theorem batch_eq_each_iff (settings : AppSettings c) (items : List SettingUpdate) :
    (∀ key, (put settings items).get? key = (putEach settings items).get? key) ↔
      BatchAgrees settings items := by
  unfold BatchAgrees
  simp only [get?_putEach]
  by_cases h : Stored settings items
  · simp only [get?_put_of_stored h, rowAfter_eq_iff h]
    exact ⟨fun hall => Or.inl ⟨h, hall⟩, fun hor => hor.elim (fun hall => hall.2)
      fun hnot => absurd h hnot.1⟩
  · rw [put_of_not_stored h]
    refine ⟨fun hall => Or.inr ⟨h, fun key => (hall key).symm⟩, ?_⟩
    rintro (hstored | ⟨_, hall⟩) key
    · exact absurd hstored.1 h
    · exact (hall key).symm

/-- **Of items that are accepted alone,** the batch agrees with them exactly when no key
without a row comes twice. -/
theorem batch_eq_each_of_acceptable (h : ∀ i ∈ items, i.Acceptable) :
    (∀ key, (put settings items).get? key = (putEach settings items).get? key) ↔
      DistinctNew settings items := by
  have hall : acceptable items = items :=
    List.filter_eq_self.mpr fun i hi => decide_eq_true (h i hi)
  have hfits : ∀ key row, rowAfter (settings.get? key) (itemsFor key items) = some row →
      RowFits key row := by
    intro key row hrow
    have heach := get?_putEach settings items key
    rw [hall, hrow] at heach
    exact AppSettings.rowFits_of_get? heach
  refine ⟨?_, ?_⟩
  · intro hagree
    by_contra hdistinct
    have hnot : ¬ Stored settings items := fun hstored => hdistinct hstored.1
    have hnew : newItems settings.rows items = [] := by
      apply List.filter_eq_nil_iff.mpr
      intro i hi hnone
      have hi' := hagree i.key
      rw [put_of_not_stored hnot, get?_putEach, hall] at hi'
      have hget : settings.get? i.key = none := Option.isNone_iff_eq_none.mp hnone
      have hmem : i ∈ itemsFor i.key items :=
        List.mem_filter.mpr ⟨hi, decide_eq_true rfl⟩
      exact rowAfter_ne_none (List.ne_nil_of_mem hmem) (hi'.symm.trans hget)
    rw [DistinctNew, hnew] at hdistinct
    exact hdistinct List.nodup_nil
  · intro hdistinct key
    rw [get?_put_of_stored ⟨hdistinct, hfits⟩, get?_putEach, hall]

end Agreement

/-! ## A new key twice -/

/-- The cipher under the default key. -/
def labelledCipher : Cipher :=
  Cipher.ofFernet Security.labelled Security.lawful_labelled Security.defaultKey

def twoValues : List SettingUpdate :=
  [⟨"smtp_host", "mail.lab", false, none, 0⟩, ⟨"smtp_host", "mail2.lab", false, none, 1⟩]

/-- **A new key twice is an error,** where one request after the other leaves the second
value. -/
theorem new_key_twice_disagrees :
    put (AppSettings.empty : AppSettings labelledCipher) twoValues = .empty ∧
    ((putEach (AppSettings.empty : AppSettings labelledCipher) twoValues).get?
      "smtp_host").bind AppSetting.plainValue = some "mail2.lab" ∧
    ¬ ∀ key, (put (AppSettings.empty : AppSettings labelledCipher) twoValues).get? key =
      (putEach .empty twoValues).get? key := by
  have hnot : ¬ Stored (AppSettings.empty : AppSettings labelledCipher) twoValues := by
    intro hstored
    exact absurd hstored.1 (by decide)
  have hput := put_of_not_stored hnot
  have heach : ((putEach (AppSettings.empty : AppSettings labelledCipher) twoValues).get?
      "smtp_host").bind AppSetting.plainValue = some "mail2.lab" := by
    rw [get?_putEach]
    decide
  refine ⟨hput, heach, ?_⟩
  intro hagree
  rw [← hagree "smtp_host", hput] at heach
  cases heach

end VsphereCompliance.Settings
