import VsphereCompliance.Settings.History

/-!
# What the settings give away

Two histories that differ only in values stored encrypted (`SameEvent`) lead to tables with the
same `view`: the answers of `get_settings` for the rows, in order. The view of a session after
an item depends on the view before it and on what the item shows (`view_update`), so it is the
same along both histories, and so is the answer (`settings_faithful_and_secret`).
-/

namespace VsphereCompliance.Settings

open Store Runs

variable {c : Cipher}

/-! ## What is shown of a table -/

/-- What is shown of the rows. -/
def view (settings : AppSettings c) : OrderedDict String SettingOut :=
  settings.rows.mapValues AppSetting.out

theorem getSettings_eq_view (settings : AppSettings c) : getSettings settings = view settings := by
  apply OrderedDict.ext_entries
  exact OrderedDict.entries_ofList (view settings).nodup

/-- What is shown of a session: the rows and the rows to insert. -/
structure SessionView where
  loaded : OrderedDict String SettingOut
  added : List (String × SettingOut)

def Session.view (s : Session c) : SessionView where
  loaded := s.loaded.mapValues AppSetting.out
  added := s.added.map fun e => (e.1, e.2.out)

/-- What an item makes of what is shown of a row. -/
def SettingUpdate.shown (item : SettingUpdate) (out : SettingOut) : SettingOut where
  value := if item.isSensitive then some "***" else some item.value
  isEncrypted := item.isSensitive
  description := textOr item.description out.description

theorem out_write (item : SettingUpdate) (setting : AppSetting c) :
    (item.write setting).out = item.shown setting.out := by
  unfold SettingUpdate.write AppSetting.out SettingUpdate.shown
  cases item.isSensitive with
  | true => rfl
  | false => rfl

/-- What is shown of a new row. -/
def SettingUpdate.shownNew (item : SettingUpdate) : SettingOut :=
  item.shown ⟨none, false, item.description⟩

def SessionView.update (v : SessionView) (item : SettingUpdate) : SessionView :=
  match v.loaded.get? item.key with
  | some out => { v with loaded := v.loaded.set item.key (item.shown out) }
  | none => { v with added := v.added ++ [(item.key, item.shownNew)] }

theorem view_update (s : Session c) (item : SettingUpdate) :
    (s.update item).view = s.view.update item := by
  unfold SessionView.update Session.update Session.view
  dsimp only
  rw [OrderedDict.get?_mapValues]
  cases s.loaded.get? item.key with
  | some setting =>
    dsimp only [Option.map_some]
    rw [OrderedDict.mapValues_set, out_write]
  | none =>
    dsimp only [Option.map_none]
    rw [List.map_append, List.map_singleton, out_write]
    rfl

/-! ## Two histories -/

/-- The items differ at most in a value that is stored encrypted, and in what encrypting
draws. -/
structure SameItem (i j : SettingUpdate) : Prop where
  key : i.key = j.key
  isEncrypted : i.isEncrypted = j.isEncrypted
  description : i.description = j.description
  value : i.isSensitive = false → i.value = j.value

inductive SameEvent : Event → Event → Prop
  | seed : SameEvent .seed .seed
  | put {items items' : List SettingUpdate} :
      List.Forall₂ SameItem items items' → SameEvent (.put items) (.put items')

theorem SameItem.shown_eq {i j : SettingUpdate} (h : SameItem i j) : i.shown = j.shown := by
  have hsensitive : i.isSensitive = j.isSensitive := by
    rw [SettingUpdate.isSensitive, SettingUpdate.isSensitive, h.key, h.isEncrypted]
  funext out
  unfold SettingUpdate.shown
  rw [h.description, ← hsensitive]
  cases hi : i.isSensitive with
  | true => rfl
  | false => rw [h.value hi]

theorem SameItem.update_eq {i j : SettingUpdate} (h : SameItem i j) (v : SessionView) :
    v.update i = v.update j := by
  unfold SessionView.update SettingUpdate.shownNew
  rw [h.key, h.shown_eq, h.description]

theorem view_foldl_update {s t : Session c} {items items' : List SettingUpdate}
    (h : List.Forall₂ SameItem items items') (hview : s.view = t.view) :
    (items.foldl Session.update s).view = (items'.foldl Session.update t).view := by
  induction h generalizing s t with
  | nil => exact hview
  | cons hitem _ ih =>
    apply ih
    rw [view_update, view_update, hview, hitem.update_eq]

/-- What is shown of the rows after the inserts. -/
theorem mapValues_rows (s : Session c) : s.rows.mapValues AppSetting.out =
    s.view.added.foldl (fun d e => d.set e.1 e.2) s.view.loaded := by
  obtain ⟨loaded, added⟩ := s
  unfold Session.rows Session.view
  dsimp only
  induction added generalizing loaded with
  | nil => rfl
  | cons e added ih =>
    rw [List.map_cons, List.foldl_cons, List.foldl_cons, ih, OrderedDict.mapValues_set]

theorem view_commit {s t : Session c} (h : s.view = t.view) (hs : s.Accepted) (ht : t.Accepted)
    (settings settings' : AppSettings c) :
    view (s.commit.getD settings) = view (t.commit.getD settings') := by
  have hcommit : s.commit = some ⟨s.rows, hs.2⟩ := dif_pos hs
  have hcommit' : t.commit = some ⟨t.rows, ht.2⟩ := dif_pos ht
  rw [hcommit, hcommit', Option.getD_some, Option.getD_some]
  unfold view
  rw [mapValues_rows, mapValues_rows, h]

theorem put_eq (settings : AppSettings c) (items : List SettingUpdate) :
    put settings items = (session settings items).commit.getD settings := by
  unfold put updateSettings
  cases (session settings items).commit with
  | none => rfl
  | some settings' => rfl

/-- **One event keeps the views the same.** -/
theorem view_apply {s t : AppSettings c} (h : view s = view t) {e e' : Event}
    (hsame : SameEvent e e') (hs : Succeeds s e) (ht : Succeeds t e') :
    view (apply s e) = view (apply t e') := by
  cases hsame with
  | seed =>
    have hmissing : missing s = missing t := by
      unfold missing
      apply List.filter_congr
      intro d _
      show (s.rows.get? d.1).isNone = (t.rows.get? d.1).isNone
      have hget := congrArg (fun v => (v.get? d.1).isNone) h
      simpa [view] using hget
    apply view_commit ?_ (accepted_seeding s) (accepted_seeding t)
    unfold Session.view
    rw [hmissing]
    exact congrArg (SessionView.mk · _) h
  | put hitems =>
    show view (put _ _) = view (put _ _)
    rw [put_eq, put_eq]
    apply view_commit
    · apply view_foldl_update hitems
      exact congrArg (SessionView.mk · []) h
    · exact accepted_iff.mpr (succeeds_put_iff.mp hs)
    · exact accepted_iff.mpr (succeeds_put_iff.mp ht)

theorem view_run {s t : AppSettings c} (h : view s = view t) {events events' : List Event}
    (hsame : List.Forall₂ SameEvent events events') (hs : Throughout apply Succeeds s events)
    (ht : Throughout apply Succeeds t events') :
    view (events.foldl apply s) = view (events'.foldl apply t) := by
  induction hsame generalizing s t with
  | nil => exact h
  | cons hevent _ ih => exact ih (view_apply h hevent hs.1 ht.1) hs.2 ht.2

/-- **The settings are stored faithfully, and secrets are not shown.** After successful
requests from an empty table each row holds the last value of its key, and the answer of
`get_settings` is that of every history which differs only in values stored encrypted. -/
theorem settings_faithful_and_secret {events : List Event}
    (h : Throughout apply Succeeds (AppSettings.empty : AppSettings c) events) :
    Faithful (events.foldl apply (AppSettings.empty : AppSettings c)) (lastValue events) ∧
      ∀ events', Throughout apply Succeeds (AppSettings.empty : AppSettings c) events' →
        List.Forall₂ SameEvent events events' →
          getSettings (events.foldl apply (AppSettings.empty : AppSettings c)) =
            getSettings (events'.foldl apply (AppSettings.empty : AppSettings c)) := by
  refine ⟨faithful_run faithful_empty h, ?_⟩
  intro events' h' hsame
  rw [getSettings_eq_view, getSettings_eq_view]
  exact view_run rfl hsame h h'

/-- The bind password under an encrypted row, and another one. -/
theorem bind_password_not_shown :
    Faithful ([Event.seed, .put [⟨"ldap_bind_password", "s3cret", false, none, 0⟩]].foldl apply
      (AppSettings.empty : AppSettings labelledCipher))
      (lastValue [.seed, .put [⟨"ldap_bind_password", "s3cret", false, none, 0⟩]]) ∧
    getSettings ([Event.seed, .put [⟨"ldap_bind_password", "s3cret", false, none, 0⟩]].foldl apply
      (AppSettings.empty : AppSettings labelledCipher)) =
    getSettings ([Event.seed, .put [⟨"ldap_bind_password", "other", false, none, 7⟩]].foldl apply
      (AppSettings.empty : AppSettings labelledCipher)) := by
  have hsucceeds : ∀ item : SettingUpdate, item.Acceptable → Throughout apply Succeeds
      (AppSettings.empty : AppSettings labelledCipher) [.seed, .put [item]] := fun item h =>
    ⟨trivial, succeeds_put_iff.mpr ((stored_single_iff _ item).mpr h), trivial⟩
  obtain ⟨hfaithful, hsecret⟩ := settings_faithful_and_secret
    (hsucceeds ⟨"ldap_bind_password", "s3cret", false, none, 0⟩ (by decide))
  refine ⟨hfaithful, hsecret _ (hsucceeds _ (by decide)) ?_⟩
  have hitem : SameItem ⟨"ldap_bind_password", "s3cret", false, none, 0⟩
      ⟨"ldap_bind_password", "other", false, none, 7⟩ := by
    refine ⟨rfl, rfl, rfl, ?_⟩
    intro h
    cases h
  exact .cons .seed (.cons (.put (.cons hitem .nil)) .nil)

end VsphereCompliance.Settings
