import VsphereCompliance.Settings.History

/-!
# Does the scheduler start?

`startScheduler` is `start_scheduler`: it takes the plain value of `analysis_cron`, splits it
and registers the job for five parts. An encrypted row has no plain value to split, and nothing
checks the value of an item. So along a history that begins with the seeding the scheduler
starts with its job in every state exactly when each request leaves `analysis_cron` alone, or
leaves a plain value with five parts that `CronTrigger` takes (`scheduler_starts_iff`).
-/

namespace VsphereCompliance.Settings

open Store Runs

/-- The arguments of `CronTrigger`. -/
structure CronFields where
  minute : String
  hour : String
  day : String
  month : String
  dayOfWeek : String
  deriving DecidableEq, Repr

/-- The parts of the expression, if there are five. -/
def cronFields (cron : String) : Option CronFields :=
  match (Python.words cron.toList).map String.ofList with
  | [minute, hour, day, month, dayOfWeek] => some ⟨minute, hour, day, month, dayOfWeek⟩
  | _ => none

section Scheduler

-- `CronTrigger` takes the fields.
variable (accepts : CronFields → Bool) {c : Cipher}

/-- `cron_expr`; `scheduleCron` is `ANALYSIS_SCHEDULE_CRON`. -/
def cronExpr (scheduleCron : String) (settings : AppSettings c) : Option String :=
  match settings.get? "analysis_cron" with
  | some setting => setting.plainValue
  | none => some scheduleCron

/-- What `start_scheduler` raises: `None` has no `split`, or `CronTrigger` refuses a field. -/
inductive StartError
  | attributeError
  | valueError (fields : CronFields)
  deriving DecidableEq, Repr

/-- `start_scheduler`: the trigger of the job, if one is registered. -/
def startScheduler (scheduleCron : String) (settings : AppSettings c) :
    Except StartError (Option CronFields) :=
  match cronExpr scheduleCron settings with
  | none => .error .attributeError
  | some cron =>
    match cronFields cron with
    | none => .ok none
    | some fields => if accepts fields then .ok (some fields) else .error (.valueError fields)

/-- The scheduler starts, with the job registered. -/
def StartsWithJob (scheduleCron : String) (settings : AppSettings c) : Prop :=
  ∃ fields, startScheduler accepts scheduleCron settings = .ok (some fields)

/-- The value is five parts that `CronTrigger` takes. -/
def ValidCron (cron : String) : Prop :=
  ∃ fields, cronFields cron = some fields ∧ accepts fields = true

/-- What the request leaves for `analysis_cron`, if it has items for it, is plain and valid. -/
def KeepsCron (items : List SettingUpdate) : Prop :=
  ∀ item, (itemsFor "analysis_cron" items).getLast? = some item →
    item.isEncrypted = false ∧ ValidCron accepts item.value

variable {accepts} {scheduleCron : String} {settings : AppSettings c}

theorem startsWithJob_iff {row : AppSetting c} (h : settings.get? "analysis_cron" = some row) :
    StartsWithJob accepts scheduleCron settings ↔
      ∃ cron, row.plainValue = some cron ∧ ValidCron accepts cron := by
  unfold StartsWithJob startScheduler cronExpr ValidCron
  rw [h]
  dsimp only
  cases row.plainValue with
  | none =>
    refine ⟨?_, ?_⟩
    · rintro ⟨_, hstart⟩
      cases hstart
    · rintro ⟨_, hplain, _⟩
      cases hplain
  | some cron =>
    dsimp only
    cases hfields : cronFields cron with
    | none =>
      refine ⟨?_, ?_⟩
      · rintro ⟨_, hstart⟩
        cases hstart
      · rintro ⟨_, hplain, _, hparts, _⟩
        cases hplain
        rw [hfields] at hparts
        cases hparts
    | some fields =>
      dsimp only
      refine ⟨?_, ?_⟩
      · rintro ⟨_, hstart⟩
        split at hstart
        · exact ⟨cron, rfl, fields, hfields, ‹_›⟩
        · cases hstart
      · rintro ⟨_, hplain, fields', hparts, haccepts⟩
        cases hplain
        rw [hfields] at hparts
        cases hparts
        exact ⟨fields, if_pos haccepts⟩

/-- **A row without a plain value** has nothing to split. -/
theorem startScheduler_of_no_plain {row : AppSetting c}
    (h : settings.get? "analysis_cron" = some row) (hplain : row.plainValue = none) :
    startScheduler accepts scheduleCron settings = .error .attributeError := by
  unfold startScheduler cronExpr
  rw [h]
  dsimp only
  rw [hplain]

/-! ## Histories -/

/-- The event leaves a table with which the scheduler starts. -/
def StartsAfter (accepts : CronFields → Bool) (scheduleCron : String)
    (settings : AppSettings c) (e : Event) : Prop :=
  StartsWithJob accepts scheduleCron (apply settings e)

def Event.KeepsCron (accepts : CronFields → Bool) : Event → Prop
  | .seed => True
  | .put items => Settings.KeepsCron accepts items

/-- The row of an item for `analysis_cron`. -/
theorem plainValue_write_iff {i : SettingUpdate} (hkey : i.key = "analysis_cron")
    (row : AppSetting c) : (∃ cron, (i.write row).plainValue = some cron ∧
      ValidCron accepts cron) ↔ i.isEncrypted = false ∧ ValidCron accepts i.value := by
  have hsensitive : i.isSensitive = i.isEncrypted := by
    rw [SettingUpdate.isSensitive, hkey]
    rfl
  unfold SettingUpdate.write
  dsimp only
  rw [hsensitive]
  cases i.isEncrypted with
  | true =>
    refine ⟨?_, ?_⟩
    · rintro ⟨_, hplain, _⟩
      cases hplain
    · intro h
      cases h.1
  | false =>
    refine ⟨?_, fun h => ⟨i.value, rfl, h.2⟩⟩
    rintro ⟨_, hplain, hvalid⟩
    cases hplain
    exact ⟨rfl, hvalid⟩

/-- The row of `analysis_cron` stays, with or without a change. -/
theorem exists_row_apply {row : AppSetting c} (h : settings.get? "analysis_cron" = some row)
    {e : Event} (he : Succeeds settings e) :
    ∃ row', (apply settings e).get? "analysis_cron" = some row' := by
  cases e with
  | seed => exact ⟨row, by rw [apply, get?_ensureSettings, h, Option.some_or]⟩
  | put items =>
    obtain ⟨row', hrow'⟩ := exists_rowAfter row (itemsFor "analysis_cron" items)
    exact ⟨row', by rw [apply, get?_put_of_stored (succeeds_put_iff.mp he), h, hrow']⟩

/-- **One event**: where the scheduler starts before it, it starts after it exactly when the
event keeps the expression valid. -/
theorem startsAfter_iff {row : AppSetting c} (h : settings.get? "analysis_cron" = some row)
    (hstart : StartsWithJob accepts scheduleCron settings) {e : Event}
    (he : Succeeds settings e) :
    StartsAfter accepts scheduleCron settings e ↔ e.KeepsCron accepts := by
  unfold StartsAfter
  have hbefore : StartsWithJob accepts scheduleCron settings ↔ _ := startsWithJob_iff h
  cases e with
  | seed =>
    have hget : (apply settings .seed).get? "analysis_cron" = some row := by
      rw [apply, get?_ensureSettings, h, Option.some_or]
    rw [startsWithJob_iff hget, ← hbefore]
    exact ⟨fun _ => trivial, fun _ => hstart⟩
  | put items =>
    have hget : (apply settings (.put items)).get? "analysis_cron" =
        rowAfter (some row) (itemsFor "analysis_cron" items) := by
      rw [apply, get?_put_of_stored (succeeds_put_iff.mp he), h]
    have hkeys : ∀ i ∈ itemsFor "analysis_cron" items, i.key = "analysis_cron" := fun i hi =>
      key_of_mem_itemsFor hi
    show _ ↔ KeepsCron accepts items
    unfold KeepsCron
    rcases List.eq_nil_or_concat' (itemsFor "analysis_cron" items) with hnil | ⟨ys, i, hconcat⟩
    · rw [hnil] at hget ⊢
      rw [startsWithJob_iff hget, ← hbefore]
      refine ⟨?_, fun _ => hstart⟩
      intro _ item hitem
      cases hitem
    · rw [hconcat] at hget hkeys ⊢
      have hkey := hkeys i (List.mem_append_right _ (List.mem_singleton_self _))
      obtain ⟨row', hrow'⟩ := exists_rowAfter row ys
      rw [rowAfter_append, hrow'] at hget
      rw [startsWithJob_iff hget, List.getLast?_concat]
      refine (plainValue_write_iff hkey row').trans ⟨?_, fun hall => hall i rfl⟩
      intro hi item hitem
      obtain rfl := Option.some.inj hitem
      exact hi

/-- **Every history**: after the first seeding the scheduler starts with its job in every state
of the history exactly when every request keeps the expression valid. -/
theorem startsThroughout_iff {row : AppSetting c} (h : settings.get? "analysis_cron" = some row)
    (hstart : StartsWithJob accepts scheduleCron settings) {events : List Event}
    (hsucceeds : Throughout apply Succeeds settings events) :
    Throughout apply (StartsAfter accepts scheduleCron) settings events ↔
      ∀ e ∈ events, e.KeepsCron accepts := by
  induction events generalizing settings row with
  | nil =>
    refine ⟨?_, fun _ => trivial⟩
    intro _ e he
    cases he
  | cons e events ih =>
    have hstep := startsAfter_iff h hstart hsucceeds.1
    obtain ⟨row', hrow'⟩ := exists_row_apply h hsucceeds.1
    refine ⟨?_, ?_⟩
    · rintro ⟨hafter, hrest⟩ e' he'
      rcases List.mem_cons.mp he' with rfl | he'
      · exact hstep.mp hafter
      · exact (ih hrow' hafter hsucceeds.2).mp hrest e' he'
    · intro hall
      have hafter := hstep.mpr (hall e List.mem_cons_self)
      refine ⟨hafter, (ih hrow' hafter hsucceeds.2).mpr ?_⟩
      exact fun e' he' => hall e' (List.mem_cons_of_mem _ he')

/-- The row that the first seeding gives `analysis_cron`. -/
theorem get?_first_seeding :
    (apply (AppSettings.empty : AppSettings c) .seed).get? "analysis_cron" =
      some (seeded "0 2 * * *") := by
  rw [apply, get?_ensureSettings]
  rfl

theorem starts_after_first_seeding (hdefault : accepts ⟨"0", "2", "*", "*", "*"⟩ = true) :
    StartsAfter accepts scheduleCron (AppSettings.empty : AppSettings c) .seed := by
  rw [StartsAfter, startsWithJob_iff get?_first_seeding]
  exact ⟨_, rfl, ⟨"0", "2", "*", "*", "*"⟩, by decide, hdefault⟩

/-- **The scheduler starts with its job in every state of a history that begins with the
seeding exactly when every request keeps `analysis_cron` valid.** -/
theorem scheduler_starts_iff (hdefault : accepts ⟨"0", "2", "*", "*", "*"⟩ = true)
    {events : List Event}
    (hsucceeds : Throughout apply Succeeds (AppSettings.empty : AppSettings c)
      (.seed :: events)) :
    Throughout apply (StartsAfter accepts scheduleCron) (AppSettings.empty : AppSettings c)
        (.seed :: events) ↔ ∀ e ∈ events, e.KeepsCron accepts := by
  have hseeded : StartsAfter accepts scheduleCron (AppSettings.empty : AppSettings c) .seed :=
    starts_after_first_seeding hdefault
  have hrest := startsThroughout_iff get?_first_seeding hseeded hsucceeds.2
  exact ⟨fun h => hrest.mp h.2, fun h => ⟨hseeded, hrest.mpr h⟩⟩

/-! ## A schedule kept and one encrypted -/

/-- The number of decimal digits. -/
def decimal (digits : List Char) : Nat := digits.foldl (fun n d => 10 * n + (d.toNat - 48)) 0

/-- A field is `*` or a number of the range. -/
def inField (first last : Nat) (field : String) : Bool :=
  field == "*" || field != "" && field.toList.all Char.isDigit &&
    first ≤ decimal field.toList && decimal field.toList ≤ last

/-- The fields without lists, ranges and steps. -/
def starOrNumber (fields : CronFields) : Bool :=
  inField 0 59 fields.minute && inField 0 23 fields.hour && inField 1 31 fields.day &&
    inField 1 12 fields.month && inField 0 6 fields.dayOfWeek

theorem succeeds_single (item : SettingUpdate) (h : item.Acceptable) :
    Throughout apply Succeeds (AppSettings.empty : AppSettings labelledCipher)
      [.seed, .put [item]] :=
  ⟨trivial, succeeds_put_iff.mpr ((stored_single_iff _ item).mpr h), trivial⟩

/-- The row after the first seeding and one request. -/
theorem get?_after_single (item : SettingUpdate) (h : item.Acceptable) :
    ([Event.seed, .put [item]].foldl apply (AppSettings.empty : AppSettings labelledCipher)).get?
        "analysis_cron" =
      rowAfter (some (seeded "0 2 * * *")) (itemsFor "analysis_cron" [item]) := by
  have hget := get?_put_of_stored (succeeds_put_iff.mp (succeeds_single item h).2.1)
    "analysis_cron"
  rwa [get?_first_seeding] at hget

theorem half_past_three_starts :
    Throughout apply (StartsAfter starOrNumber "0 2 * * *")
      (AppSettings.empty : AppSettings labelledCipher)
      [.seed, .put [⟨"analysis_cron", "30 3 * * 1", false, none, 0⟩]] := by
  have hsucceeds := succeeds_single ⟨"analysis_cron", "30 3 * * 1", false, none, 0⟩ (by decide)
  refine (scheduler_starts_iff (by decide) hsucceeds).mpr ?_
  intro e he
  obtain rfl := List.mem_singleton.mp he
  intro item hitem
  obtain rfl := Option.some.inj hitem
  exact ⟨rfl, ⟨"30", "3", "*", "*", "1"⟩, by decide, by decide⟩

/-- **The default schedule, submitted as an encrypted setting,** has no plain value at the next
start. -/
theorem encrypted_cron_raises :
    Throughout apply Succeeds (AppSettings.empty : AppSettings labelledCipher)
      [.seed, .put [⟨"analysis_cron", "0 2 * * *", true, none, 0⟩]] ∧
    startScheduler starOrNumber "0 2 * * *"
      ([Event.seed, .put [⟨"analysis_cron", "0 2 * * *", true, none, 0⟩]].foldl apply
        (AppSettings.empty : AppSettings labelledCipher)) = .error .attributeError ∧
    ¬ ∀ events : List Event,
      Throughout apply Succeeds (AppSettings.empty : AppSettings labelledCipher)
        (.seed :: events) →
      Throughout apply (StartsAfter starOrNumber "0 2 * * *")
        (AppSettings.empty : AppSettings labelledCipher) (.seed :: events) := by
  have hsucceeds := succeeds_single ⟨"analysis_cron", "0 2 * * *", true, none, 0⟩ (by decide)
  have hraises : startScheduler starOrNumber "0 2 * * *"
      ([Event.seed, .put [⟨"analysis_cron", "0 2 * * *", true, none, 0⟩]].foldl apply
        (AppSettings.empty : AppSettings labelledCipher)) = .error .attributeError :=
    startScheduler_of_no_plain (get?_after_single _ (by decide)) rfl
  refine ⟨hsucceeds, hraises, ?_⟩
  intro hall
  obtain ⟨fields, hstart⟩ := (hall _ hsucceeds).2.1
  cases hstart.symm.trans hraises

end Scheduler

end VsphereCompliance.Settings
