import Logix.Js.Calendar
import Logix.Js.Map
import Logix.Spec.Machine

/-!
# The closing periods of the general ledger

`GeneralLedgerClosingPeriodManager` keeps the fiscal periods under their ids. Years are integers.

* `createFiscalYear`, `closePeriod`, `isDatePostingAllowed`, `closingMachine`: the code;
* `Filed`: every period is stored under its own id; `periodId_injective`; `inMonth_startDate`: it
  starts in the month that the posting check reads off a date;
* `IsClosed`: the period of a month is closed; `isClosed_next_iff`: what one call does to it;
* **`stays_closed_iff`**: the closed periods of a run stay closed exactly when no fiscal year with a
  closed period is created again;
* `year_created_again`: a year that is.
-/

namespace Logix.Billing

open Spec

/-- `IFiscalPeriod`. -/
structure IFiscalPeriod where
  periodId : JsString
  fiscalYear : ℤ
  fiscalMonth : ℤ
  startDate : Option JsDate
  endDate : Option JsDate
  isClosed : Bool
  closedByUserId : Option String := none
  closingJournalEntryId : Option String := none
  deriving DecidableEq, Repr

/-- `FY${year}-M${month}`, the month with two digits. -/
def periodId (year month : ℤ) : JsString :=
  js "FY" ++ intToBase 10 year ++ js "-M" ++ padStart (intToBase 10 month) 2 48

/-- The values of `m` in the loop of `createFiscalYear`. -/
def months : List ℤ := [1, 2, 3, 4, 5, 6, 7, 8, 9, 10, 11, 12]

/-- The period that a turn of this loop makes. -/
def fiscalPeriod (tz : TimeZone) (year m : ℤ) : IFiscalPeriod where
  periodId := periodId year m
  fiscalYear := year
  fiscalMonth := m
  startDate := newDate tz year (m - 1) 1 0 0 0
  endDate := newDate tz year m 0 23 59 59
  isClosed := false

@[simp] theorem periodId_fiscalPeriod (tz : TimeZone) (year m : ℤ) :
    (fiscalPeriod tz year m).periodId = periodId year m := rfl

/-- **`GeneralLedgerClosingPeriodManager`.** -/
structure GeneralLedgerClosingPeriodManager where
  periods : JsMap JsString IFiscalPeriod

namespace GeneralLedgerClosingPeriodManager

/-- `new GeneralLedgerClosingPeriodManager()`. -/
def new : GeneralLedgerClosingPeriodManager := ⟨.empty⟩

/-- A turn of the loop of `createFiscalYear`: the stored and the created periods. -/
def createPeriod (tz : TimeZone) (year : ℤ)
    (acc : JsMap JsString IFiscalPeriod × List IFiscalPeriod) (m : ℤ) :
    JsMap JsString IFiscalPeriod × List IFiscalPeriod :=
  let period := fiscalPeriod tz year m
  (acc.1.set period.periodId period, acc.2 ++ [period])

/-- **`createFiscalYear(year)`.** -/
def createFiscalYear (g : GeneralLedgerClosingPeriodManager) (tz : TimeZone) (year : ℤ) :
    GeneralLedgerClosingPeriodManager × List IFiscalPeriod :=
  let acc := months.foldl (createPeriod tz year) (g.periods, [])
  (⟨acc.1⟩, acc.2)

/-- The mutation of `closePeriod`. -/
def close (actorUserId closingEntryId : String) (period : IFiscalPeriod) : IFiscalPeriod :=
  { period with
    isClosed := true
    closedByUserId := some actorUserId
    closingJournalEntryId := some closingEntryId }

/-- **`closePeriod(periodId, actorUserId, closingEntryId)`.** -/
def closePeriod (g : GeneralLedgerClosingPeriodManager) (periodId : JsString)
    (actorUserId closingEntryId : String) :
    GeneralLedgerClosingPeriodManager × Except JsString IFiscalPeriod :=
  match g.periods.get periodId with
  | none => (g, .error (js "Fiscal period " ++ periodId ++ js " does not exist"))
  | some period =>
    if period.isClosed then
      (g, .error (js "Fiscal period " ++ periodId ++ js " is already locked and closed"))
    else
      (⟨g.periods.modify periodId (close actorUserId closingEntryId)⟩,
        .ok (close actorUserId closingEntryId period))

/-- **`isDatePostingAllowed(postingDate)`.** -/
def isDatePostingAllowed (g : GeneralLedgerClosingPeriodManager) (tz : TimeZone)
    (postingDate : JsDate) : Bool :=
  let y := getFullYear tz postingDate
  let m := getMonth tz postingDate + 1
  match g.periods.get (periodId y m) with
  | none => true
  | some period => !period.isClosed

end GeneralLedgerClosingPeriodManager

open GeneralLedgerClosingPeriodManager

/-- The calls that change the periods. -/
inductive ClosingCall where
  | createFiscalYear (year : ℤ)
  | closePeriod (periodId : JsString) (actorUserId closingEntryId : String)
  deriving DecidableEq, Repr

/-- Their results. -/
inductive ClosingResult where
  | created (periods : List IFiscalPeriod)
  | closed (result : Except JsString IFiscalPeriod)
  deriving DecidableEq

/-- The manager under its calls. -/
def closingMachine (tz : TimeZone) :
    Machine GeneralLedgerClosingPeriodManager ClosingCall ClosingResult where
  call
    | .createFiscalYear year, g =>
      let (g', periods) := g.createFiscalYear tz year
      (g', .created periods)
    | .closePeriod periodId actorUserId closingEntryId, g =>
      let (g', result) := g.closePeriod periodId actorUserId closingEntryId
      (g', .closed result)

/-- The date is in the calendar month of the period. -/
def InMonth (tz : TimeZone) (date : JsDate) (p : IFiscalPeriod) : Prop :=
  IsDate date ∧ getFullYear tz date = p.fiscalYear ∧ getMonth tz date + 1 = p.fiscalMonth

/-- **Closed periods stay closed**: once a call has closed a period, posting is refused in every
later state, for every date in the month of the period. -/
def StaysClosed (tz : TimeZone) (calls : List ClosingCall) : Prop :=
  ∀ pre i mid post p, calls = pre ++ i :: mid ++ post →
    ((closingMachine tz).call i ((closingMachine tz).run new pre)).2 = .closed (.ok p) →
    ∀ date, InMonth tz date p →
      ((closingMachine tz).run new (pre ++ i :: mid)).isDatePostingAllowed tz date = false

/-- A call of the manager. -/
abbrev ClosingEvent := Event GeneralLedgerClosingPeriodManager ClosingCall ClosingResult

/-- **The call creates no fiscal year that has a closed period**, one with a date in its month. -/
def KeepsClosed (tz : TimeZone) (e : ClosingEvent) : Prop :=
  match e.input with
  | .createFiscalYear year =>
    ∀ p ∈ e.before.periods.values, p.fiscalYear = year → p.isClosed = true →
      ∀ date, ¬ InMonth tz date p
  | .closePeriod _ _ _ => True

/-! ## The ids -/

theorem mem_months {m : ℤ} : m ∈ months ↔ 1 ≤ m ∧ m ≤ 12 := by
  simp only [months, List.mem_cons, List.not_mem_nil, or_false]
  omega

theorem length_padStart_month :
    ∀ m ∈ months, (padStart (intToBase 10 m) 2 48).length = 2 := by decide

theorem padStart_month_injective : ∀ m ∈ months, ∀ m' ∈ months,
    padStart (intToBase 10 m) 2 48 = padStart (intToBase 10 m') 2 48 → m = m' := by decide

/-- **The id of a period determines its year and month.** -/
theorem periodId_injective {y y' m m' : ℤ} (hm : m ∈ months) (hm' : m' ∈ months)
    (h : periodId y m = periodId y' m') : y = y' ∧ m = m' := by
  have hlength := (length_padStart_month m hm).trans (length_padStart_month m' hm').symm
  obtain ⟨hfront, hmonth⟩ := List.append_inj' h hlength
  have hyear := List.append_cancel_left (List.append_cancel_right hfront)
  exact ⟨intToBase_injective (by decide) (by decide) hyear,
    padStart_month_injective m hm m' hm' hmonth⟩

theorem month_mem_months (tz : TimeZone) (date : JsDate) : getMonth tz date + 1 ∈ months :=
  mem_months.mpr (getMonth_mem tz date)

/-- **A period starts in its month**, in UTC, unless its year is taken for one of the twentieth
century: the posting check finds the period by its start date. -/
theorem inMonth_startDate {year m : ℤ} {date : JsDate} (hm : m ∈ months)
    (hyear : ¬ (0 ≤ year ∧ year ≤ 99)) (h : (fiscalPeriod .utc year m).startDate = some date) :
    InMonth .utc date (fiscalPeriod .utc year m) := by
  obtain ⟨h₁, h₂⟩ := mem_months.mp hm
  have hcivil := civil_firstOfMonth h₁ h₂ (y := year)
  have hstart : dateOf ((firstOfMonth year m * 86400000 : ℤ) : ℚ) = some date := by
    rw [← h, fiscalPeriod, newDate_first h₁ h₂ hyear]
    rfl
  rw [dateOf_intCast] at hstart
  split_ifs at hstart with hdate
  obtain rfl := Option.some.inj hstart
  have hday : TimeZone.utc.localTime (firstOfMonth year m * 86400000) / 86400000 =
      firstOfMonth year m := Int.mul_ediv_cancel _ (by decide)
  refine ⟨hdate, ?_, ?_⟩
  · rw [getFullYear, hday, hcivil]
    rfl
  · rw [getMonth, hday, hcivil]
    exact sub_add_cancel m 1

/-! ## What is stored -/

/-- Every period is stored under its own id, and is one of a month. -/
def GeneralLedgerClosingPeriodManager.Filed (g : GeneralLedgerClosingPeriodManager) : Prop :=
  ∀ id p, g.periods.get id = some p →
    p.fiscalMonth ∈ months ∧ id = periodId p.fiscalYear p.fiscalMonth

/-- The period of a month is stored and closed. -/
def GeneralLedgerClosingPeriodManager.IsClosed (g : GeneralLedgerClosingPeriodManager)
    (year month : ℤ) : Prop := ∃ p, g.periods.get (periodId year month) = some p ∧ p.isClosed = true

section Calls

variable {tz : TimeZone} {g : GeneralLedgerClosingPeriodManager} {y m : ℤ}

theorem isDatePostingAllowed_eq_false_iff {date : JsDate} :
    g.isDatePostingAllowed tz date = false ↔
      g.IsClosed (getFullYear tz date) (getMonth tz date + 1) := by
  unfold isDatePostingAllowed GeneralLedgerClosingPeriodManager.IsClosed
  dsimp only
  cases g.periods.get (periodId (getFullYear tz date) (getMonth tz date + 1)) with
  | none => simp
  | some p => simp

theorem get_createPeriods (ms : List ℤ) (hms : ∀ m ∈ ms, m ∈ months) (year : ℤ)
    (acc : JsMap JsString IFiscalPeriod × List IFiscalPeriod) (hm : m ∈ months) :
    (ms.foldl (createPeriod tz year) acc).1.get (periodId y m) =
      if y = year ∧ m ∈ ms then some (fiscalPeriod tz year m) else acc.1.get (periodId y m) := by
  induction ms using List.reverseRecOn with
  | nil => simp
  | append_singleton ms n ih =>
    have hn : n ∈ months := hms n (by simp)
    rw [List.foldl_concat, createPeriod, JsMap.get_set, periodId_fiscalPeriod,
      ih fun m hm => hms m (List.mem_append_left _ hm)]
    by_cases hkey : y = year ∧ m = n
    · obtain ⟨rfl, rfl⟩ := hkey
      rw [if_pos rfl, if_pos ⟨rfl, by simp⟩]
    · have hne : periodId y m ≠ periodId year n := fun h => hkey (periodId_injective hm hn h)
      rw [if_neg hne]
      refine if_congr ?_ rfl rfl
      simp only [List.mem_append, List.mem_singleton]
      grind

/-- **Creating a fiscal year** opens all its months, and changes no other. -/
theorem isClosed_createFiscalYear {year : ℤ} (hm : m ∈ months) :
    (g.createFiscalYear tz year).1.IsClosed y m ↔ g.IsClosed y m ∧ y ≠ year := by
  unfold GeneralLedgerClosingPeriodManager.IsClosed createFiscalYear
  dsimp only
  rw [get_createPeriods months (fun _ => id) year (g.periods, []) hm]
  by_cases hy : y = year
  · simp [hy, hm, fiscalPeriod]
  · simp [hy]

theorem filed_createPeriods (ms : List ℤ) (hms : ∀ m ∈ ms, m ∈ months) (year : ℤ)
    (acc : JsMap JsString IFiscalPeriod × List IFiscalPeriod) (hacc : Filed ⟨acc.1⟩) :
    Filed ⟨(ms.foldl (createPeriod tz year) acc).1⟩ := by
  induction ms generalizing acc with
  | nil => exact hacc
  | cons n ms ih =>
    refine ih (fun m hm => hms m (List.mem_cons_of_mem _ hm)) (createPeriod tz year acc n) ?_
    intro id p hp
    rw [createPeriod, JsMap.get_set] at hp
    split_ifs at hp with hid
    · obtain rfl := Option.some.inj hp
      exact ⟨hms n List.mem_cons_self, hid⟩
    · exact hacc id p hp

theorem closePeriod_cases (g : GeneralLedgerClosingPeriodManager) (id : JsString)
    (actorUserId closingEntryId : String) :
    (∃ text, g.closePeriod id actorUserId closingEntryId = (g, .error text)) ∨
    ∃ p, g.periods.get id = some p ∧ p.isClosed = false ∧
      g.closePeriod id actorUserId closingEntryId =
        (⟨g.periods.modify id (close actorUserId closingEntryId)⟩,
          .ok (close actorUserId closingEntryId p)) := by
  unfold closePeriod
  cases hp : g.periods.get id with
  | none => exact Or.inl ⟨_, rfl⟩
  | some p =>
    cases hclosed : p.isClosed with
    | true => exact Or.inl ⟨_, if_pos hclosed⟩
    | false => exact Or.inr ⟨p, rfl, hclosed, if_neg (by simp [hclosed])⟩

theorem isClosed_close {p : IFiscalPeriod} (hg : g.Filed) (actorUserId closingEntryId : String)
    {id : JsString} (hp : g.periods.get id = some p) (hm : m ∈ months) :
    IsClosed ⟨g.periods.modify id (close actorUserId closingEntryId)⟩ y m ↔
      g.IsClosed y m ∨ (y = p.fiscalYear ∧ m = p.fiscalMonth) := by
  obtain ⟨hmonth, rfl⟩ := hg id p hp
  unfold GeneralLedgerClosingPeriodManager.IsClosed
  dsimp only
  rw [JsMap.get_modify]
  split_ifs with hkey
  · obtain ⟨rfl, rfl⟩ := periodId_injective hm hmonth hkey
    simp [hp, close]
  · have hne : ¬ (y = p.fiscalYear ∧ m = p.fiscalMonth) := by
      rintro ⟨rfl, rfl⟩
      exact hkey rfl
    simp [hne]

theorem filed_close (hg : g.Filed) (id : JsString) (actorUserId closingEntryId : String) :
    Filed ⟨g.periods.modify id (close actorUserId closingEntryId)⟩ := by
  intro id' p hp
  obtain ⟨q, hq, rfl⟩ := JsMap.exists_of_get_modify hp
  have hfiled := hg id' q hq
  split_ifs
  · exact hfiled
  · exact hfiled

end Calls

/-! ## Runs -/

section Runs

variable {tz : TimeZone}

theorem filed_next {g : GeneralLedgerClosingPeriodManager} (hg : g.Filed) (i : ClosingCall) :
    ((closingMachine tz).next g i).Filed := by
  cases i with
  | createFiscalYear year => exact filed_createPeriods months (fun _ => id) year _ hg
  | closePeriod id actorUserId closingEntryId =>
    change (g.closePeriod id actorUserId closingEntryId).1.Filed
    rcases closePeriod_cases g id actorUserId closingEntryId with
      ⟨text, hcall⟩ | ⟨p, -, -, hcall⟩
    · rwa [hcall]
    · rw [hcall]
      exact filed_close hg id actorUserId closingEntryId

theorem filed_run (calls : List ClosingCall) : ((closingMachine tz).run new calls).Filed := by
  induction calls using List.reverseRecOn with
  | nil =>
    intro id p h
    cases h
  | append_singleton calls i ih =>
    rw [Machine.run_concat]
    exact filed_next ih i

/-- **What one call does to the closed months**: it opens those of the year that it creates, and
closes the month of the period that it returns as closed. -/
theorem isClosed_next_iff {g : GeneralLedgerClosingPeriodManager} (hg : g.Filed) {y m : ℤ}
    (hm : m ∈ months) (i : ClosingCall) : ((closingMachine tz).next g i).IsClosed y m ↔
      (g.IsClosed y m ∧ i ≠ .createFiscalYear y) ∨
      ∃ p, ((closingMachine tz).call i g).2 = .closed (.ok p) ∧
        y = p.fiscalYear ∧ m = p.fiscalMonth := by
  cases i with
  | createFiscalYear year =>
    have hresult : ∀ p, ((closingMachine tz).call (.createFiscalYear year) g).2 ≠ .closed (.ok p) :=
      fun _ h => nomatch h
    refine (isClosed_createFiscalYear hm).trans ?_
    simp [hresult, eq_comm]
  | closePeriod id actorUserId closingEntryId =>
    change (g.closePeriod id actorUserId closingEntryId).1.IsClosed y m ↔ _ ∨
      ∃ p, ClosingResult.closed (g.closePeriod id actorUserId closingEntryId).2 = _ ∧ _
    rcases closePeriod_cases g id actorUserId closingEntryId with
      ⟨text, hcall⟩ | ⟨p, hp, -, hcall⟩
    · simp [hcall]
    · rw [hcall, isClosed_close hg _ _ hp hm]
      simp [close]

/-- **A call that creates no year with a closed period** opens no month that has a date. -/
theorem isClosed_next {g : GeneralLedgerClosingPeriodManager} (hg : g.Filed) {i : ClosingCall}
    (hkeeps : KeepsClosed tz ((closingMachine tz).event g i)) {date : JsDate} (hdate : IsDate date)
    (h : g.IsClosed (getFullYear tz date) (getMonth tz date + 1)) :
    ((closingMachine tz).next g i).IsClosed (getFullYear tz date) (getMonth tz date + 1) := by
  have hmonth := month_mem_months tz date
  refine (isClosed_next_iff hg hmonth i).mpr (Or.inl ⟨h, ?_⟩)
  rintro rfl
  obtain ⟨p, hp, hclosed⟩ := h
  obtain ⟨hp_mem, hid⟩ := hg _ p hp
  obtain ⟨hp_year, hp_month⟩ := periodId_injective hmonth hp_mem hid
  exact hkeeps p (JsMap.mem_values_of_get hp) hp_year.symm hclosed date ⟨hdate, hp_year, hp_month⟩

theorem exists_closed (calls : List ClosingCall) {y m : ℤ} (hm : m ∈ months)
    (h : ((closingMachine tz).run new calls).IsClosed y m) : ∃ pre i mid p,
      calls = pre ++ i :: mid ∧
      ((closingMachine tz).call i ((closingMachine tz).run new pre)).2 = .closed (.ok p) ∧
      y = p.fiscalYear ∧ m = p.fiscalMonth := by
  induction calls using List.reverseRecOn with
  | nil =>
    obtain ⟨p, hp, -⟩ := h
    cases hp
  | append_singleton calls i ih =>
    rw [Machine.run_concat] at h
    rcases (isClosed_next_iff (filed_run calls) hm i).mp h with ⟨hbefore, -⟩ | ⟨p, hresult, hmonth⟩
    · obtain ⟨pre, i', mid, p, rfl, hp⟩ := ih hbefore
      exact ⟨pre, i', mid ++ [i], p, by simp, hp⟩
    · exact ⟨calls, i, [], p, rfl, hresult, hmonth⟩

/-- **The closed periods of a run stay closed** exactly when no fiscal year that has a closed period
is created again. -/
theorem stays_closed_iff (tz : TimeZone) (calls : List ClosingCall) : StaysClosed tz calls ↔
    ∀ e ∈ (closingMachine tz).history new calls, KeepsClosed tz e := by
  constructor
  · intro h e he
    obtain ⟨pre, i, post, rfl, rfl⟩ := Machine.mem_history_iff.mp he
    cases i with
    | closePeriod => trivial
    | createFiscalYear year =>
      rintro p hp hyear hclosed date ⟨hdate, hp_year, hp_month⟩
      -- the month of `date` was closed by an earlier call, and this one opens it
      have hmonth := month_mem_months tz date
      obtain ⟨id, hid⟩ := JsMap.exists_get_of_mem_values hp
      obtain ⟨-, rfl⟩ := filed_run pre id p hid
      have hbefore : ((closingMachine tz).run new pre).IsClosed (getFullYear tz date)
          (getMonth tz date + 1) := by
        rw [hp_year, hp_month]
        exact ⟨p, hid, hclosed⟩
      obtain ⟨pre', i, mid, q, rfl, hresult, hq⟩ := exists_closed pre hmonth hbefore
      have hafter := h pre' i (mid ++ [.createFiscalYear year]) post q (by simp) hresult date
        ⟨hdate, hq⟩
      rw [← List.cons_append, ← List.append_assoc, Machine.run_concat,
        isDatePostingAllowed_eq_false_iff] at hafter
      exact ((isClosed_createFiscalYear hmonth).mp hafter).2 (hp_year.trans hyear)
  · rintro h pre i mid post p rfl hresult date ⟨hdate, hp_year, hp_month⟩
    rw [isDatePostingAllowed_eq_false_iff]
    induction mid using List.reverseRecOn generalizing post with
    | nil =>
      rw [Machine.run_concat, isClosed_next_iff (filed_run pre) (month_mem_months tz date)]
      exact Or.inr ⟨p, hresult, hp_year, hp_month⟩
    | append_singleton mid j ih =>
      have hclosed := ih (j :: post) (by simpa using h)
      rw [← List.cons_append, ← List.append_assoc, Machine.run_concat]
      refine isClosed_next (filed_run _) (h _ ?_) hdate hclosed
      exact Machine.mem_history_iff.mpr ⟨pre ++ i :: mid, j, post, by simp, rfl⟩

end Runs

/-- The books of January 2024 are closed, and the year is created once more. -/
def yearCreatedAgain : List ClosingCall :=
  [.createFiscalYear 2024, .closePeriod (js "FY2024-M01") "controller" "JE-CLOSE-1",
    .createFiscalYear 2024]

/-- **A closed period is opened again**: on the first of January 2024 posting is allowed. -/
theorem year_created_again : ¬ StaysClosed .utc yearCreatedAgain := by
  intro h
  have hrefused := h [.createFiscalYear 2024]
    (.closePeriod (js "FY2024-M01") "controller" "JE-CLOSE-1") [.createFiscalYear 2024] []
    (close "controller" "JE-CLOSE-1" (fiscalPeriod .utc 2024 1)) rfl (by decide +kernel)
    1704067200000 ⟨by decide +kernel, by decide +kernel, by decide +kernel⟩
  exact absurd hrefused (by decide +kernel)

end Logix.Billing
