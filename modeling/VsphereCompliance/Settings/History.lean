import VsphereCompliance.Library.Runs
import VsphereCompliance.Settings.Batch

/-!
# The history of the settings

A history is a sequence of seedings and `PUT /settings` requests. `lastValue` reads off it what
was last submitted for a key, or seeded where the key had no row, and `Faithful` says that the
table holds exactly this: in plain, or encrypted and nowhere in plain. It holds after every
history whose requests all succeed (`faithful_run`).
-/

namespace VsphereCompliance.Settings

open Store Accounts Runs

variable {c : Cipher}

inductive Event
  | seed
  | put (items : List SettingUpdate)

/-- The table after the event. -/
def apply (settings : AppSettings c) : Event → AppSettings c
  | .seed => ensureSettings settings
  | .put items => put settings items

/-- The request is answered without an error. -/
def Succeeds (settings : AppSettings c) : Event → Prop
  | .seed => True
  | .put items => ∃ answer, updateSettings settings items = .ok answer

theorem succeeds_put_iff {settings : AppSettings c} {items : List SettingUpdate} :
    Succeeds settings (.put items) ↔ Stored settings items := by
  rw [← accepted_iff]
  unfold Succeeds updateSettings Session.commit
  dsimp only
  refine ⟨?_, ?_⟩
  · rintro ⟨answer, h⟩
    by_contra hnot
    rw [dif_neg hnot] at h
    cases h
  · intro h
    rw [dif_pos h]
    exact ⟨_, rfl⟩

/-! ## Seeding -/

theorem nodup_defaults : (defaults.map Prod.fst).Nodup := by decide

theorem rowFits_seeded : ∀ d ∈ defaults, RowFits d.1 (seeded d.2 : AppSetting c) := by
  intro d hd
  have hstorable : ∀ d ∈ defaults, Storable 200 d.1 ∧ IsText d.2 := by decide
  obtain ⟨hkey, hvalue⟩ := hstorable d hd
  refine ⟨hkey, ?_, ?_⟩
  · intro s hs
    obtain rfl := Option.some.inj hs
    exact hvalue
  · intro s hs
    cases hs

/-- The defaults whose key has no row. -/
def missing (settings : AppSettings c) : List (String × String) :=
  defaults.filter fun d => (settings.get? d.1).isNone

section Seeding

variable {ds : List (String × String)}

/-- Nothing hinders the insertion of the pairs whose key has no row. -/
theorem accepted_seeded (settings : AppSettings c) (hnodup : (ds.map Prod.fst).Nodup)
    (hfits : ∀ d ∈ ds, RowFits d.1 (seeded d.2 : AppSetting c)) :
    Session.Accepted ⟨settings.rows, (ds.filter fun d => (settings.get? d.1).isNone).map
      fun d => (d.1, (seeded d.2 : AppSetting c))⟩ := by
  have hkeys : (settings.rows.keys ++ ((ds.filter fun d => (settings.get? d.1).isNone).map
      fun d => (d.1, (seeded d.2 : AppSetting c))).map Prod.fst).Nodup := by
    rw [List.map_map, List.nodup_append]
    refine ⟨settings.rows.nodup, (List.filter_sublist.map _).nodup hnodup, ?_⟩
    rintro key hkey _ hkey' rfl
    obtain ⟨d, hd, rfl⟩ := List.mem_map.mp hkey'
    have hnone := Option.isNone_iff_eq_none.mp (List.mem_filter.mp hd).2
    exact OrderedDict.get?_eq_none_iff.mp hnone hkey
  refine ⟨hkeys, ?_⟩
  rw [Session.rows, OrderedDict.entries_foldl_set hkeys]
  intro e he
  rcases List.mem_append.mp he with he | he
  · exact settings.fits e he
  · obtain ⟨d, hd, rfl⟩ := List.mem_map.mp he
    exact hfits d (List.mem_of_mem_filter hd)

/-- The insertion adds the pairs whose key has no row. -/
theorem get?_seeded (settings : AppSettings c)
    (h : Session.Accepted ⟨settings.rows, (ds.filter fun d => (settings.get? d.1).isNone).map
      fun d => (d.1, (seeded d.2 : AppSetting c))⟩) (key : String) :
    AppSettings.get? ⟨_, h.2⟩ key =
      (settings.get? key).or ((ds.lookup key).map seeded) := by
  show (Session.rows _).entries.lookup key = _
  rw [Session.rows, OrderedDict.entries_foldl_set h.1, List.lookup_append,
    OrderedDict.lookup_map_snd]
  show (settings.get? key).or _ = _
  cases hget : settings.get? key with
  | some row => rw [Option.some_or, Option.some_or]
  | none =>
    have hmissing : (settings.get? key).isNone = true := by rw [hget]; rfl
    rw [OrderedDict.lookup_filter_fst (p := fun key => (settings.get? key).isNone) hmissing]

end Seeding

theorem accepted_seeding (settings : AppSettings c) : Session.Accepted
    ⟨settings.rows, (missing settings).map fun d => (d.1, (seeded d.2 : AppSetting c))⟩ :=
  accepted_seeded settings nodup_defaults rowFits_seeded

/-- **Seeding adds the defaults that have no row.** -/
theorem get?_ensureSettings (settings : AppSettings c) (key : String) :
    (ensureSettings settings).get? key =
      (settings.get? key).or ((defaults.lookup key).map seeded) := by
  have haccepted := accepted_seeding settings
  have hcommit : ensureSettings settings = ⟨_, haccepted.2⟩ :=
    congrArg (fun s => Option.getD s settings) (dif_pos haccepted)
  rw [hcommit]
  exact get?_seeded settings haccepted key

/-! ## What the table holds -/

/-- The last value of the key after one more event. -/
def recorded (key : String) (last : Option String) : Event → Option String
  | .seed => last.or (defaults.lookup key)
  | .put items => ((itemsFor key items).getLast?.map SettingUpdate.value).or last

/-- What a history submitted last for the key, or seeded. -/
def lastValue (events : List Event) (key : String) : Option String :=
  events.foldl (recorded key) none

/-- The row holds the value, in plain or encrypted. -/
structure Holds (key : String) (row : AppSetting c) (value : String) : Prop where
  encrypted : row.isEncrypted = true → row.plainValue = none ∧
    ∃ token, row.encryptedValue = some token ∧ c.decryptValue token = some value
  plain : row.isEncrypted = false → row.encryptedValue = none ∧ row.plainValue = some value
  sensitive : key ∈ sensitiveKeys → row.isEncrypted = true

/-- The table has one row for each key with a value, and the row holds the value. -/
structure Faithful (settings : AppSettings c) (last : String → Option String) : Prop where
  keys : settings.rows.keys.Nodup
  rows : ∀ key row, settings.get? key = some row → ∃ value, last key = some value ∧
    Holds key row value
  complete : ∀ key, settings.get? key = none → last key = none

theorem holds_write (i : SettingUpdate) (row : AppSetting c) :
    Holds i.key (i.write row) i.value := by
  unfold SettingUpdate.write
  refine ⟨?_, ?_, ?_⟩
  · intro h
    have hsensitive : i.isSensitive = true := h
    refine ⟨if_pos hsensitive, c.encryptValue i.seed i.value, if_pos hsensitive, ?_⟩
    exact c.decrypt_encrypt i.seed i.value
  · intro h
    have hplain : ¬ i.isSensitive = true := ne_true_of_eq_false h
    exact ⟨if_neg hplain, if_neg hplain⟩
  · intro hkey
    show i.isSensitive = true
    rw [SettingUpdate.isSensitive, decide_eq_true hkey, Bool.true_or]

theorem holds_seeded {key value : String} (h : defaults.lookup key = some value) :
    Holds key (seeded value : AppSetting c) value := by
  refine ⟨?_, fun _ => ⟨rfl, rfl⟩, ?_⟩
  · intro hfalse
    cases hfalse
  · intro hkey
    have hnone : ∀ k ∈ sensitiveKeys, defaults.lookup k = none := by decide
    rw [hnone key hkey] at h
    cases h

theorem faithful_empty : Faithful (AppSettings.empty : AppSettings c) (fun _ => none) where
  keys := List.nodup_nil
  rows := by
    intro _ _ h
    cases h
  complete := fun _ _ => rfl

section Apply

variable {settings : AppSettings c} {last : String → Option String} {key : String}
  {row : AppSetting c}

/-- A row after a seeding was there before, or is seeded. -/
theorem holds_ensureSettings (h : Faithful settings last)
    (hrow : (ensureSettings settings).get? key = some row) :
    ∃ value, recorded key (last key) .seed = some value ∧ Holds key row value := by
  rw [get?_ensureSettings] at hrow
  cases hget : settings.get? key with
  | some row' =>
    rw [hget, Option.some_or] at hrow
    obtain rfl := Option.some.inj hrow
    obtain ⟨value, hlast, hholds⟩ := h.rows key row' hget
    refine ⟨value, ?_, hholds⟩
    rw [hlast]
    rfl
  | none =>
    rw [hget, Option.none_or] at hrow
    obtain ⟨value, hvalue, rfl⟩ := Option.map_eq_some_iff.mp hrow
    refine ⟨value, ?_, holds_seeded hvalue⟩
    rw [h.complete key hget]
    exact hvalue

/-- A row after a request was there before, or the last item for its key has written it. -/
theorem holds_put {items : List SettingUpdate} (h : Faithful settings last)
    (hstored : Stored settings items) (hrow : (put settings items).get? key = some row) :
    ∃ value, recorded key (last key) (.put items) = some value ∧ Holds key row value := by
  rw [get?_put_of_stored hstored] at hrow
  have hkeys : ∀ i ∈ itemsFor key items, i.key = key := fun i hi => key_of_mem_itemsFor hi
  unfold recorded
  dsimp only
  rcases List.eq_nil_or_concat' (itemsFor key items) with hnil | ⟨ys, i, hconcat⟩
  · rw [hnil] at hrow ⊢
    exact h.rows key row hrow
  · rw [hconcat] at hrow hkeys ⊢
    obtain rfl := hkeys i (List.mem_append_right _ (List.mem_singleton_self _))
    rw [rowAfter_append] at hrow
    obtain rfl := Option.some.inj hrow
    refine ⟨i.value, ?_, holds_write i _⟩
    rw [List.getLast?_concat]
    rfl

/-- A key without a row after the event has no value. -/
theorem recorded_eq_none (h : Faithful settings last) {e : Event} (he : Succeeds settings e)
    (hnone : (apply settings e).get? key = none) : recorded key (last key) e = none := by
  cases e with
  | seed =>
    rw [apply, get?_ensureSettings, Option.or_eq_none_iff, Option.map_eq_none_iff] at hnone
    unfold recorded
    dsimp only
    rw [h.complete key hnone.1, hnone.2]
    rfl
  | put items =>
    rw [apply, get?_put_of_stored (succeeds_put_iff.mp he)] at hnone
    have hnil : itemsFor key items = [] := by
      by_contra hne
      exact rowAfter_ne_none hne hnone
    unfold recorded
    dsimp only
    rw [hnil] at hnone ⊢
    exact h.complete key hnone

/-- **Each successful event keeps the table faithful.** -/
theorem faithful_apply (h : Faithful settings last) {e : Event} (he : Succeeds settings e) :
    Faithful (apply settings e) (fun key => recorded key (last key) e) := by
  refine ⟨(apply settings e).rows.nodup, ?_, fun key hnone => recorded_eq_none h he hnone⟩
  intro key row hrow
  cases e with
  | seed => exact holds_ensureSettings h hrow
  | put items => exact holds_put h (succeeds_put_iff.mp he) hrow

end Apply

/-- **After every history of successful requests the table is faithful.** -/
theorem faithful_run {settings : AppSettings c} {last : String → Option String}
    (h : Faithful settings last) {events : List Event}
    (hsucceeds : Throughout apply Succeeds settings events) :
    Faithful (events.foldl apply settings)
      (fun key => events.foldl (recorded key) (last key)) := by
  induction events generalizing settings last with
  | nil => exact h
  | cons e events ih => exact ih (faithful_apply h hsucceeds.1) hsucceeds.2

end VsphereCompliance.Settings
