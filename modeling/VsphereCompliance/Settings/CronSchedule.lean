import VsphereCompliance.Library.Crontab
import VsphereCompliance.Settings.Scheduler

/-!
# Does the schedule mean what cron says?

`start_scheduler` hands the five parts of `analysis_cron` to `CronTrigger` as they are. That
language looks like cron's, but it counts weekdays from Monday, as 0, and its trigger fires only
when every field matches. So the job fires exactly when the expression says it for few
expressions only (`fires_as_cron_iff`):

* with a star in one of the two day fields, those whose weekday field is a name or lists all of
  0 to 6, and those that match no day at all;
* with a star in neither, those whose day fields exclude no day of the chosen months.
-/

namespace VsphereCompliance.Settings

open Store Crontab Calendar

/-! ## The trigger -/

/-- The crontab expression of the five parts. -/
def CronFields.expression (fields : CronFields) : Option Expression :=
  Expression.parse fields.minute fields.hour fields.day fields.month fields.dayOfWeek

/-- `CronTrigger` counts the weekdays from Monday, as 0. -/
def OnWeekday : Weekdays → Nat → Prop
  | .name day _, w => w = day
  | .numbers field, w => field.Lists w

instance (weekdays : Weekdays) (w : Nat) : Decidable (OnWeekday weekdays w) :=
  match weekdays with
  | .name day _ => inferInstanceAs (Decidable (w = day))
  | .numbers field => inferInstanceAs (Decidable (field.Lists w))

/-- The three fields for the day match. -/
def AllDayFields (e : Expression) (month day w : Nat) : Prop :=
  e.month.Lists month ∧ e.day.Lists day ∧ OnWeekday e.weekdays w

/-- All fields match. -/
def AllFields (e : Expression) (t : Minute) : Prop :=
  e.minute.Lists t.minute ∧ e.hour.Lists t.hour ∧
    AllDayFields e t.date.month t.date.day t.date.weekday

instance (e : Expression) (t : Minute) : Decidable (AllFields e t) :=
  inferInstanceAs (Decidable (_ ∧ _ ∧ _ ∧ _ ∧ _))

/-- `CronTrigger` on the fields that are also cron's: what it takes fires when all match. -/
structure Documented (takes : CronFields → Bool) (fires : CronFields → Minute → Bool) : Prop where
  fires_iff : ∀ {fields : CronFields} {e : Expression}, fields.expression = some e →
    takes fields = true → ∀ t, fires fields t = true ↔ AllFields e t

section Schedule

variable {takes : CronFields → Bool} {fires : CronFields → Minute → Bool} {c : Cipher}
  {scheduleCron cron : String} {settings : AppSettings c}

/-- The row holds the value, plain or encrypted. -/
def AppSetting.Stores (row : AppSetting c) (value : String) : Prop :=
  row.plainValue = some value ∨
    row.plainValue = none ∧ row.encryptedValue.bind c.decryptValue = some value

/-- `start_scheduler` has registered a job and it fires in that minute. -/
def JobFires (takes : CronFields → Bool) (fires : CronFields → Minute → Bool)
    (scheduleCron : String) (settings : AppSettings c) (t : Minute) : Prop :=
  ∃ fields, startScheduler takes scheduleCron settings = .ok (some fields) ∧ fires fields t = true

/-- The row has a plain value, and `CronTrigger` takes its parts. -/
def AppSetting.Registers (takes : CronFields → Bool) (row : AppSetting c)
    (fields : CronFields) : Prop :=
  row.plainValue.isSome ∧ takes fields = true

theorem jobFires_iff {row : AppSetting c} (hrow : settings.get? "analysis_cron" = some row)
    (hstores : row.Stores cron) {fields : CronFields} (hfields : cronFields cron = some fields)
    (t : Minute) : JobFires takes fires scheduleCron settings t ↔
      row.Registers takes fields ∧ fires fields t = true := by
  unfold JobFires AppSetting.Registers
  rcases hstores with hplain | ⟨hplain, _⟩
  · have hstart : startScheduler takes scheduleCron settings =
        if takes fields then .ok (some fields) else .error (.valueError fields) := by
      simp only [startScheduler, cronExpr, hrow, hplain, hfields]
    rw [hstart, hplain]
    by_cases htakes : takes fields = true
    · simp [htakes]
    · simp [htakes]
  · rw [startScheduler_of_no_plain hrow hplain, hplain]
    simp

/-! ## The days of the two languages -/

/-- The weekday field means the same in both. -/
def SameInBoth : Weekdays → Prop
  | .name _ _ => True
  | .numbers field => ∀ n ≤ 6, field.Lists n

def EveryWeekday : Weekdays → Prop
  | .name _ _ => False
  | .numbers field => ∀ n ≤ 6, field.Lists n

/-- **The weekday fields** coincide only where one numbering is as good as the other. -/
theorem has_iff_onWeekday_iff (weekdays : Weekdays) :
    (∀ w < 7, weekdays.Has w ↔ OnWeekday weekdays w) ↔ SameInBoth weekdays := by
  cases weekdays with
  | name day day_lt =>
    refine ⟨fun _ => trivial, ?_⟩
    intro _ w _
    rfl
  | numbers field =>
    constructor
    · intro h
      have hchain : ∀ n ≤ 6, field.Lists n ↔ field.Lists 0 := by
        intro n
        induction n with
        | zero => simp
        | succ n ih =>
          intro hn
          have hn' := h n (by omega)
          simp only [Weekdays.Has, OnWeekday, Nat.mod_eq_of_lt (show n + 1 < 7 by omega),
            show n ≠ 6 by omega, false_and, or_false] at hn'
          exact hn'.trans (ih (by omega))
      have h6 := h 6 (by omega)
      simp only [Weekdays.Has, OnWeekday, true_and] at h6
      -- some number is listed, and 7 brings 6 with it
      obtain ⟨n, hn⟩ := field.exists_lists (by omega)
      have hzero : field.Lists 0 := by
        obtain ⟨_, hle⟩ := Field.mem_range hn
        by_cases hseven : n = 7
        · subst hseven
          exact (hchain 6 (by omega)).mp (h6.mp (Or.inr hn))
        · exact (hchain n (by omega)).mp hn
      intro m hm
      exact (hchain m hm).mpr hzero
    · intro h w hw
      have hnext : field.Lists ((w + 1) % 7) := h _ (by omega)
      have hsame : field.Lists w := h w (by omega)
      simp [Weekdays.Has, OnWeekday, hnext, hsame]

theorem onWeekday_all_iff (weekdays : Weekdays) :
    (∀ w < 7, OnWeekday weekdays w) ↔ EveryWeekday weekdays := by
  cases weekdays with
  | name day day_lt =>
    refine ⟨?_, False.elim⟩
    intro h
    have h0 : 0 = day := h 0 (by omega)
    have h1 : 1 = day := h 1 (by omega)
    omega
  | numbers field =>
    constructor
    · intro h n hn
      exact h n (by omega)
    · intro h w hw
      exact h w (by omega)

/-- No month of the expression has a day of it. -/
def NoSuchDay (e : Expression) : Prop :=
  ∀ month day, IsDay month day → e.month.Lists month → ¬ e.day.Lists day

/-- The expression has every day of its months. -/
def EveryDay (e : Expression) : Prop :=
  ∀ month day, IsDay month day → e.month.Lists month → e.day.Lists day

/-- The condition on the expression; `registers` says that there is a job. -/
def KeepsMeaning (registers : Prop) (e : Expression) : Prop :=
  if e.hasStar then NoSuchDay e ∨ registers ∧ SameInBoth e.weekdays
  else registers ∧ EveryDay e ∧ EveryWeekday e.weekdays

/-- The days coincide. -/
def SameDays (registers : Prop) (e : Expression) : Prop :=
  ∀ month day, IsDay month day → ∀ w < 7,
    (registers ∧ AllDayFields e month day w ↔ e.MatchesDay month day w)

variable {e : Expression} {registers : Prop}

/-- **With a star** both languages ask for the day of the month and the weekday. -/
theorem sameDays_iff_of_star (hstar : e.hasStar = true) :
    SameDays registers e ↔ NoSuchDay e ∨ registers ∧ SameInBoth e.weekdays := by
  rw [← has_iff_onWeekday_iff]
  simp only [SameDays, Expression.MatchesDay, AllDayFields, if_pos hstar]
  constructor
  · intro h
    by_cases hnone : NoSuchDay e
    · exact Or.inl hnone
    · right
      obtain ⟨month, day, hday, hmonth, hlists⟩ : ∃ month day, IsDay month day ∧
          e.month.Lists month ∧ e.day.Lists day := by
        simpa [NoSuchDay] using hnone
      obtain ⟨w, hw, hhas⟩ := e.weekdays.exists_has
      refine ⟨((h month day hday w hw).mpr ⟨hmonth, hlists, hhas⟩).1, ?_⟩
      intro w' hw'
      constructor
      · intro hhas'
        exact ((h month day hday w' hw').mpr ⟨hmonth, hlists, hhas'⟩).2.2.2
      · intro hon
        have hregisters := ((h month day hday w hw).mpr ⟨hmonth, hlists, hhas⟩).1
        exact ((h month day hday w' hw').mp ⟨hregisters, hmonth, hlists, hon⟩).2.2
  · rintro (hnone | ⟨hregisters, hsame⟩) month day hday w hw
    · have hno := hnone month day hday
      constructor
      · rintro ⟨_, hmonth, hlists, _⟩
        exact absurd hlists (hno hmonth)
      · rintro ⟨hmonth, hlists, _⟩
        exact absurd hlists (hno hmonth)
    · rw [hsame w hw]
      exact and_iff_right hregisters

/-- **Without a star** cron asks for one of them only. -/
theorem sameDays_iff_of_no_star (hstar : e.hasStar = false) :
    SameDays registers e ↔ registers ∧ EveryDay e ∧ EveryWeekday e.weekdays := by
  rw [← onWeekday_all_iff]
  simp only [SameDays, Expression.MatchesDay, AllDayFields, hstar, Bool.false_eq_true, if_false]
  obtain ⟨w₀, hw₀, hhas₀⟩ := e.weekdays.exists_has
  constructor
  · intro h
    -- on a weekday of the expression cron runs, so the trigger's other fields match too
    have hall : ∀ month day, IsDay month day → e.month.Lists month →
        registers ∧ e.day.Lists day ∧ ∀ w < 7, OnWeekday e.weekdays w := by
      intro month day hday hmonth
      obtain ⟨hregisters, _, hlists, _⟩ := (h month day hday w₀ hw₀).mpr ⟨hmonth, Or.inr hhas₀⟩
      refine ⟨hregisters, hlists, ?_⟩
      intro w hw
      exact ((h month day hday w hw).mpr ⟨hmonth, Or.inl hlists⟩).2.2.2
    obtain ⟨month, hmonth⟩ := e.month.exists_lists (by omega)
    obtain ⟨hpos, hle⟩ := Field.mem_range hmonth
    obtain ⟨hregisters, _, hweekdays⟩ := hall month 1 (isDay_first hpos hle) hmonth
    refine ⟨hregisters, ?_, hweekdays⟩
    intro month' day hday hmonth'
    exact (hall month' day hday hmonth').2.1
  · rintro ⟨hregisters, hdays, hweekdays⟩ month day hday w hw
    constructor
    · rintro ⟨_, hmonth, hlists, _⟩
      exact ⟨hmonth, Or.inl hlists⟩
    · rintro ⟨hmonth, _⟩
      exact ⟨hregisters, hmonth, hdays month day hday hmonth, hweekdays w hw⟩

theorem sameDays_iff : SameDays registers e ↔ KeepsMeaning registers e := by
  unfold KeepsMeaning
  by_cases hstar : e.hasStar = true
  · rw [if_pos hstar, sameDays_iff_of_star hstar]
  · rw [if_neg hstar, sameDays_iff_of_no_star (Bool.not_eq_true _ ▸ hstar)]

/-! ## From days to minutes -/

/-- The fields for the time of day are the same in both languages. -/
theorem sameMinutes_iff :
    (∀ t, registers ∧ AllFields e t ↔ e.Matches t) ↔ SameDays registers e := by
  have hdates := forall_date_iff (P := fun month day w =>
    (registers ∧ AllDayFields e month day w ↔ e.MatchesDay month day w))
  refine Iff.trans ?_ hdates
  constructor
  · intro h date
    obtain ⟨minute, hminute⟩ := e.minute.exists_lists (by omega)
    obtain ⟨hour, hhour⟩ := e.hour.exists_lists (by omega)
    have ht := h ⟨date, hour, minute, (Field.mem_range hhour).2, (Field.mem_range hminute).2⟩
    simpa only [AllFields, Expression.Matches, hminute, hhour, true_and] using ht
  · intro h t
    have hdate := h t.date
    simp only [AllFields, Expression.Matches]
    rw [← hdate]
    tauto

/-- **The job fires in exactly the minutes of the expression** if and only if the expression
means the same in both languages. -/
theorem fires_as_cron_iff (hdocumented : Documented takes fires) {row : AppSetting c}
    (hrow : settings.get? "analysis_cron" = some row) (hstores : row.Stores cron)
    {fields : CronFields} (hfields : cronFields cron = some fields)
    (hexpression : fields.expression = some e) :
    (∀ t, JobFires takes fires scheduleCron settings t ↔ e.Matches t) ↔
      KeepsMeaning (row.Registers takes fields) e := by
  rw [← sameDays_iff, ← sameMinutes_iff]
  refine forall_congr' ?_
  intro t
  rw [jobFires_iff hrow hstores hfields t]
  refine iff_congr (and_congr_right ?_) Iff.rfl
  rintro ⟨_, htakes⟩
  exact hdocumented.fires_iff hexpression htakes t

end Schedule

/-! ## The default schedule, and Mondays -/

/-- The weekday 7 is refused. -/
def sampleTakes (fields : CronFields) : Bool :=
  match fields.expression.map Expression.weekdays with
  | some (.numbers field) => field.items.all fun item => item.isStar || item.last ≤ 6
  | some (.name _ _) => true
  | none => false

def sampleFires (fields : CronFields) (t : Minute) : Bool :=
  match fields.expression with
  | some e => decide (AllFields e t)
  | none => false

theorem documented_sample : Documented sampleTakes sampleFires where
  fires_iff := by
    intro fields e hexpression _ t
    simp [sampleFires, hexpression]

/-- At two o'clock on those weekdays. -/
def atTwo (weekdays : Weekdays) : Expression where
  minute := ⟨[.single 0 (by omega)], by simp⟩
  hour := ⟨[.single 2 (by omega)], by simp⟩
  day := ⟨[.every 1 (by omega)], by simp⟩
  month := ⟨[.every 1 (by omega)], by simp⟩
  weekdays := weekdays

def anyDay : Weekdays := .numbers ⟨[.every 1 (by omega)], by simp⟩

def cronMonday : Weekdays := .numbers ⟨[.single 1 (by omega)], by simp⟩

def nightlyFields (dayOfWeek : String) : CronFields := ⟨"0", "2", "*", "*", dayOfWeek⟩

theorem anyDay_sameInBoth : SameInBoth anyDay := by
  unfold SameInBoth anyDay
  intro n hn
  refine ⟨.every 1 (by omega), List.mem_singleton_self _, ?_⟩
  simp only [Item.Lists, Item.first, Item.last, Item.step]
  omega

/-- The default schedule fires as cron. -/
theorem default_fires_as_cron :
    cronFields "0 2 * * *" = some (nightlyFields "*") ∧
    ∀ t, JobFires sampleTakes sampleFires "0 2 * * *"
      (apply (AppSettings.empty : AppSettings labelledCipher) .seed) t ↔
        (atTwo anyDay).Matches t := by
  have hfields : cronFields "0 2 * * *" = some (nightlyFields "*") := by decide
  have hexpression : (nightlyFields "*").expression = some (atTwo anyDay) := by decide
  have hrow : (apply (AppSettings.empty : AppSettings labelledCipher) .seed).get?
      "analysis_cron" = some (seeded "0 2 * * *") := get?_first_seeding
  refine ⟨hfields, (fires_as_cron_iff documented_sample hrow (Or.inl rfl) hfields
    hexpression).mpr ?_⟩
  rw [KeepsMeaning, if_pos (show (atTwo anyDay).hasStar = true from rfl)]
  exact Or.inr ⟨⟨rfl, by decide⟩, anyDay_sameInBoth⟩

/-- Monday, January 1, 2024, or one of the days after it, at two o'clock. -/
def firstWeek (day : Nat) (hpos : 1 ≤ day) (hle : day ≤ 7) : Minute where
  date := ⟨2024, 1, day, by omega, by omega, by omega, by omega, hpos,
    Nat.le_trans hle (by decide)⟩
  hour := 2
  minute := 0
  hour_le := by omega
  minute_le := by omega

/-- The table after the default schedule was replaced by Mondays at two. -/
def mondaySettings : AppSettings labelledCipher :=
  [Event.seed, .put [⟨"analysis_cron", "0 2 * * 1", false, none, 0⟩]].foldl apply .empty

/-- **Mondays at two**: the job fires on Tuesdays. -/
theorem mondays_fire_on_tuesdays :
    JobFires sampleTakes sampleFires "0 2 * * *" mondaySettings
      (firstWeek 2 (by omega) (by omega)) ∧
    ¬ (atTwo cronMonday).Matches (firstWeek 2 (by omega) (by omega)) ∧
    (atTwo cronMonday).Matches (firstWeek 1 (by omega) (by omega)) ∧
    ¬ JobFires sampleTakes sampleFires "0 2 * * *" mondaySettings
      (firstWeek 1 (by omega) (by omega)) ∧
    ¬ ∀ (takes : CronFields → Bool) (fires : CronFields → Minute → Bool) (scheduleCron : String)
      (settings : AppSettings labelledCipher) (row : AppSetting labelledCipher) (cron : String)
      (fields : CronFields) (e : Expression), Documented takes fires →
      settings.get? "analysis_cron" = some row → row.Stores cron →
      cronFields cron = some fields → fields.expression = some e →
      ∀ t, JobFires takes fires scheduleCron settings t ↔ e.Matches t := by
  have hfields : cronFields "0 2 * * 1" = some (nightlyFields "1") := by decide
  have hexpression : (nightlyFields "1").expression = some (atTwo cronMonday) := by decide
  obtain ⟨row, hrow, hplain⟩ : ∃ row, mondaySettings.get? "analysis_cron" = some row ∧
      row.plainValue = some "0 2 * * 1" := ⟨_, get?_after_single _ (by decide), rfl⟩
  have hfires (t : Minute) : JobFires sampleTakes sampleFires "0 2 * * *" mondaySettings t ↔
      row.Registers sampleTakes (nightlyFields "1") ∧ sampleFires (nightlyFields "1") t = true :=
    jobFires_iff hrow (Or.inl hplain) hfields t
  have htuesday : JobFires sampleTakes sampleFires "0 2 * * *" mondaySettings
      (firstWeek 2 (by omega) (by omega)) := by
    exact (hfires _).mpr ⟨⟨by simp [hplain], by decide⟩, by decide⟩
  have hnot : ¬ (atTwo cronMonday).Matches (firstWeek 2 (by omega) (by omega)) := by decide
  refine ⟨htuesday, hnot, by decide, ?_, ?_⟩
  · intro hmonday
    exact absurd ((hfires _).mp hmonday).2 (by decide)
  · intro hall
    exact hnot ((hall sampleTakes sampleFires _ mondaySettings row _ _ _ documented_sample hrow
      (Or.inl hplain) hfields hexpression _).mp htuesday)

end VsphereCompliance.Settings
