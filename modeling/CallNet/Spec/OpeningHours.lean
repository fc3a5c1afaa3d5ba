import CallNet.Engine.Schedules
import CallNet.ForStd.Machine
import Mathlib.Data.Option.Basic

/-!
# Opening hours

What the schedules say about a wall clock, and when the services say the same.  They look at
the clock of the process, whatever zone a schedule is for, and the exceptions are those from
the database's date on.
-/

namespace CallNet

/-! ## What the schedules say -/

/-- The date in the form of the exceptions. -/
def WallClock.dateText (d : WallClock) : String :=
  padStart 4 d.year ++ "-" ++ padStart 2 d.month ++ "-" ++ padStart 2 d.date

namespace Api

/-- Open by a special-hours exception of the date, or by a weekly window when the date has no
    exception. -/
def BusinessHoursPolicy.OpenAt (policy : BusinessHoursPolicy) (date : String)
    (day minute : Int) : Prop :=
  (∃ e ∈ policy.exceptions, e.date = date ∧ e.closedAllDay = false ∧
      ∃ startMinute ∈ e.startMinute, ∃ endMinute ∈ e.endMinute,
        startMinute ≤ minute ∧ minute < endMinute) ∨
    (∀ e ∈ policy.exceptions, e.date ≠ date) ∧
      ∃ w ∈ policy.windows, w.dayOfWeek = day ∧ w.startMinute ≤ minute ∧ minute < w.endMinute

/-- Without the exceptions of earlier dates. -/
def BusinessHoursPolicy.since (policy : BusinessHoursPolicy) (currentDate : String) :
    BusinessHoursPolicy :=
  { policy with exceptions := policy.exceptions.filter fun e => currentDate ≤ e.date }

def UserAvailabilityWindow.Contains (w : UserAvailabilityWindow) (d : WallClock) : Prop :=
  w.dayOfWeek = d.day ∧ w.startMinute ≤ d.minute ∧ d.minute < w.endMinute

/-- A policy has one exception a date. -/
def BusinessHoursPolicy.DatesUnique (policy : BusinessHoursPolicy) : Prop :=
  (policy.exceptions.map BusinessHoursException.date).Nodup

/-- The unique constraint of the table of exceptions. -/
def Store.DatesUnique (store : Store) : Prop :=
  ∀ policy ∈ store.businessHours, policy.DatesUnique

/-! ### Accepted policies -/

theorem buildExceptions_cons {seen : List String} {e : ExceptionInput} {es : List ExceptionInput}
    {exceptions : List BusinessHoursException}
    (h : buildExceptions seen (e :: es) = some exceptions) :
    ∃ ex exs, ex.date ∉ seen ∧ buildExceptions (ex.date :: seen) es = some exs ∧
      exceptions = ex :: exs := by
  unfold buildExceptions at h
  simp only [bind, Option.bind_eq_some_iff, guard, pure] at h
  generalize trimSpace e.date = date at h
  obtain ⟨_, hguard, note, -, h⟩ := h
  generalize String.ofList note = note at h
  -- the date is new, and the exception is closed all day or has a window
  split at hguard
  · rename_i hdate
    split at h
    · obtain ⟨ex, hex, exs, hexs, heq⟩ := by simpa only [Option.bind_eq_some_iff] using h
      cases hex
      cases heq
      exact ⟨_, exs, hdate.2, hexs, rfl⟩
    · split at h
      · split at h
        · cases h
        · obtain ⟨ex, hex, exs, hexs, heq⟩ := by simpa only [Option.bind_eq_some_iff] using h
          cases hex
          cases heq
          exact ⟨_, exs, hdate.2, hexs, rfl⟩
      · cases h
  · cases hguard

theorem buildExceptions_dates {inputs : List ExceptionInput} :
    ∀ {seen : List String} {exceptions : List BusinessHoursException},
      buildExceptions seen inputs = some exceptions →
        (exceptions.map BusinessHoursException.date).Nodup ∧
          ∀ e ∈ exceptions, e.date ∉ seen := by
  induction inputs with
  | nil =>
    intro seen exceptions h
    cases h
    exact ⟨List.nodup_nil, fun e he => absurd he List.not_mem_nil⟩
  | cons input inputs ih =>
    intro seen exceptions h
    obtain ⟨ex, exs, hnew, hexs, rfl⟩ := buildExceptions_cons h
    obtain ⟨hnodup, hseen⟩ := ih hexs
    constructor
    · refine List.nodup_cons.mpr ⟨fun hmem => ?_, hnodup⟩
      obtain ⟨e, he, hdate⟩ := List.mem_map.mp hmem
      apply hseen e he
      rw [hdate]
      exact List.mem_cons_self
    · intro e he
      rcases List.mem_cons.mp he with rfl | he
      · exact hnew
      · exact fun hmem => hseen e he (List.mem_cons_of_mem _ hmem)

theorem datesUnique_buildBusinessHours {input : BusinessHoursInput} {policy : BusinessHoursPolicy}
    (h : buildBusinessHours input = some policy) : policy.DatesUnique := by
  unfold buildBusinessHours at h
  simp only [bind, Option.bind_eq_some_iff] at h
  obtain ⟨_, -, exceptions, hexceptions, hpolicy⟩ := h
  have hsame : policy.exceptions = exceptions :=
    (congrArg BusinessHoursPolicy.exceptions (Option.some.inj hpolicy)).symm
  unfold BusinessHoursPolicy.DatesUnique
  rw [hsame]
  exact (buildExceptions_dates hexceptions).1

/-- What the API accepts keeps the constraint. -/
theorem Store.DatesUnique.save {s s' : Store} {req : SaveRequest} (hs : s.DatesUnique)
    (h : s.save req = some s') : s'.DatesUnique := by
  cases req with
  | settings ext input =>
    unfold Store.save Store.updateSettings at h
    dsimp only at h
    split at h
    · cases h
      exact hs
    · split at h
      · cases h
        exact hs
      · cases h
  | pstnForward ext enabled target =>
    unfold Store.save Store.setPstnForward at h
    dsimp only at h
    split at h
    · cases h
      exact hs
    · split at h
      · cases h
        exact hs
      · cases h
  | flow caller isAdmin req newId =>
    obtain ⟨flow, -, rfl⟩ := Option.map_eq_some_iff.mp h
    have hsame : (s.upsertFlow flow.1 flow.2).businessHours = s.businessHours := by
      unfold Store.upsertFlow
      dsimp only
      split
      all_goals rfl
    unfold Store.DatesUnique
    rw [hsame]
    exact hs
  | availability ext input =>
    obtain ⟨windows, -, rfl⟩ := Option.map_eq_some_iff.mp h
    exact hs
  | businessHours input =>
    obtain ⟨policy, hpolicy, rfl⟩ := Option.map_eq_some_iff.mp h
    have hdates : ((policy.exceptions.map BusinessHoursException.create).map
        BusinessHoursException.date).Nodup := by
      rw [List.map_map]
      exact datesUnique_buildBusinessHours hpolicy
    intro stored hstored
    unfold Store.saveBusinessHours at hstored
    dsimp only at hstored
    split at hstored
    · cases hstored
      exact hdates
    · cases hstored
      exact hdates

/-- However the policy came to be what it is. -/
theorem Store.datesUnique_run {s s' : Store} {reqs : List SaveRequest}
    (hs : s.businessHours = none) (hrun : Machine.run Store.save s reqs = some s') :
    s'.DatesUnique := by
  have hstart : s.DatesUnique := by
    intro policy hpolicy
    rw [hs] at hpolicy
    cases hpolicy
  exact Machine.run_invariant (fun s req s' hs h => hs.save h) hstart hrun

end Api

/-! ## Business hours -/

section BusinessHours

open Api

variable {store : Store} {currentDate : String} {offset now : Int}

/-- The answer that a schedule without a policy, or with a disabled one, or an open one calls
    for. -/
def OpenBySchedule (zones : String → Int → Int) (store : Store) (now : Int) : Prop :=
  ∀ policy ∈ store.businessHours, policy.enabled = true →
    policy.OpenAt (wallClock (zones policy.timezone now) now).dateText
      (wallClock (zones policy.timezone now) now).day
      (wallClock (zones policy.timezone now) now).minute

theorem openAt_of_find? {policy : BusinessHoursPolicy} (hunique : policy.DatesUnique)
    {date : String} {day minute : Int} {e : BusinessHoursException}
    (h : policy.exceptions.find? (fun e => e.date = date) = some e) :
    policy.OpenAt date day minute ↔ e.closedAllDay = false ∧
      ∃ startMinute ∈ e.startMinute, ∃ endMinute ∈ e.endMinute,
        startMinute ≤ minute ∧ minute < endMinute := by
  have hmem : e ∈ policy.exceptions := List.mem_of_find?_eq_some h
  have hdate : e.date = date := by simpa using List.find?_some h
  constructor
  · rintro (⟨e', hmem', hdate', hopen⟩ | ⟨hnone, -⟩)
    · -- there is no other exception of that date
      have heq : e' = e := List.inj_on_of_nodup_map hunique hmem' hmem (hdate'.trans hdate.symm)
      subst heq
      exact hopen
    · exact absurd hdate (hnone e hmem)
  · intro hopen
    exact .inl ⟨e, hmem, hdate, hopen⟩

theorem openAt_of_find?_none {policy : BusinessHoursPolicy} {date : String} {day minute : Int}
    (h : policy.exceptions.find? (fun e => e.date = date) = none) :
    policy.OpenAt date day minute ↔ ∃ w ∈ policy.windows,
      w.dayOfWeek = day ∧ w.startMinute ≤ minute ∧ minute < w.endMinute := by
  have hnone : ∀ e ∈ policy.exceptions, e.date ≠ date := by simpa using h
  constructor
  · rintro (⟨e, he, hdate, -⟩ | ⟨-, hopen⟩)
    · exact absurd hdate (hnone e he)
    · exact hopen
  · intro hopen
    exact .inr ⟨hnone, hopen⟩

/-- What `getPolicy` reads: the rows in another order, since the database's date. -/
structure ReadFrom (policy row : BusinessHoursPolicy) (currentDate : String) : Prop where
  enabled : policy.enabled = row.enabled
  unique : policy.DatesUnique
  openAt : ∀ date day minute,
    policy.OpenAt date day minute ↔ (row.since currentDate).OpenAt date day minute

theorem getPolicy_none (h : store.businessHours = none) :
    getPolicy (.ok store) currentDate = .ok none := by
  unfold getPolicy Store.getBusinessHours
  dsimp only
  rw [h]
  rfl

theorem getPolicy_some {row : BusinessHoursPolicy} (h : store.businessHours = some row)
    (hunique : row.DatesUnique) (currentDate : String) :
    ∃ policy, getPolicy (.ok store) currentDate = .ok (some policy) ∧
      ReadFrom policy row currentDate := by
  unfold getPolicy Store.getBusinessHours
  dsimp only
  rw [h]
  refine ⟨_, rfl, rfl, ?_, fun date day minute => ?_⟩
  · have hperm := (List.mergeSort_perm row.exceptions fun a b => a.date ≤ b.date).map
      BusinessHoursException.date
    exact (hperm.nodup_iff.mpr hunique).sublist (List.filter_sublist.map _)
  · simp only [BusinessHoursPolicy.OpenAt, BusinessHoursPolicy.since, List.mem_filter,
      List.mem_mergeSort]

/-- The service says what the exceptions since the database's date and the windows say about the
    process's clock. -/
theorem isOpen_ok (hunique : store.DatesUnique) (currentDate : String) (offset now : Int) :
    ∃ answer, isOpen (.ok store) currentDate offset now = .ok answer ∧
      (answer = true ↔ ∀ row ∈ store.businessHours, row.enabled = true →
        (row.since currentDate).OpenAt (localDateKey (wallClock offset now))
          (wallClock offset now).day (wallClock offset now).minute) := by
  unfold isOpen
  cases hrow : store.businessHours with
  | none =>
    -- open when nothing is configured
    rw [getPolicy_none hrow]
    exact ⟨true, rfl, by simp⟩
  | some row =>
    obtain ⟨policy, hread, hfrom⟩ := getPolicy_some hrow (hunique row hrow)
      currentDate
    rw [hread]
    simp only [Option.mem_some_iff, forall_eq', ← hfrom.openAt, ← hfrom.enabled]
    dsimp only [bind, Except.bind, pure, Except.pure]
    cases henabled : policy.enabled with
    | false => exact ⟨true, rfl, by simp⟩
    | true =>
      simp only [Bool.not_true, Bool.false_eq_true, if_false, forall_true_left]
      split
      · -- an exception of the day decides alone
        rename_i e hfind
        rw [openAt_of_find? hfrom.unique hfind]
        cases hclosed : e.closedAllDay with
        | true => exact ⟨false, rfl, by simp⟩
        | false =>
          simp only [Bool.false_eq_true, if_false]
          cases hstart : e.startMinute with
          | none => exact ⟨false, rfl, by simp⟩
          | some startMinute =>
            cases hend : e.endMinute with
            | none => exact ⟨false, rfl, by simp⟩
            | some endMinute => exact ⟨_, rfl, by simp⟩
      · -- an ordinary day
        rename_i hfind
        rw [openAt_of_find?_none hfind]
        exact ⟨_, rfl, by simp⟩

/-- Whether the answer is what the schedule calls for depends on what it says about two
    clocks. -/
theorem isOpen_bySchedule_iff (hunique : store.DatesUnique) (zones : String → Int → Int)
    (currentDate : String) (offset now : Int) :
    (∃ answer, isOpen (.ok store) currentDate offset now = .ok answer ∧
        (answer = true ↔ OpenBySchedule zones store now)) ↔
      ∀ row ∈ store.businessHours, row.enabled = true →
        ((row.since currentDate).OpenAt (localDateKey (wallClock offset now))
            (wallClock offset now).day (wallClock offset now).minute ↔
          row.OpenAt (wallClock (zones row.timezone now) now).dateText
            (wallClock (zones row.timezone now) now).day
            (wallClock (zones row.timezone now) now).minute) := by
  obtain ⟨answer, hanswer, hopen⟩ := isOpen_ok hunique currentDate offset now
  rw [hanswer]
  unfold OpenBySchedule
  constructor
  · rintro ⟨answer', heq, hschedule⟩ row hrow henabled
    cases heq
    rw [hopen, hrow] at hschedule
    simpa [henabled] using hschedule
  · intro hsame
    refine ⟨answer, rfl, ?_⟩
    rw [hopen]
    exact forall₃_congr fun row hrow henabled => hsame row hrow henabled

/-- The clocks of the process and of a zone, which show the same, and the database's date, which
    is not ahead. -/
structure SameClock (d z : WallClock) (currentDate : String) : Prop where
  day : d.day = z.day
  minute : d.minute = z.minute
  date : localDateKey d = z.dateText
  current : currentDate ≤ localDateKey d

/-- Exceptions of earlier dates do not count. -/
theorem openAt_since {row : BusinessHoursPolicy} {date : String} {day minute : Int}
    (h : currentDate ≤ date) :
    (row.since currentDate).OpenAt date day minute ↔ row.OpenAt date day minute := by
  unfold BusinessHoursPolicy.OpenAt
  refine or_congr ?_ (and_congr ?_ Iff.rfl)
  · constructor
    · rintro ⟨e, he, hopen⟩
      exact ⟨e, (List.mem_filter.mp he).1, hopen⟩
    · rintro ⟨e, he, hdate, hopen⟩
      refine ⟨e, List.mem_filter.mpr ⟨he, ?_⟩, hdate, hopen⟩
      rw [hdate]
      exact decide_eq_true h
  · constructor
    · intro hnone e he hdate
      refine hnone e (List.mem_filter.mpr ⟨he, ?_⟩) hdate
      rw [hdate]
      exact decide_eq_true h
    · intro hnone e he
      exact hnone e (List.mem_filter.mp he).1

/-- A store with a policy only. -/
def storeOf (row : BusinessHoursPolicy) : Store where
  users := []
  settings := .empty
  flows := .empty
  availability := fun _ => []
  businessHours := some row

/-- Open for the minute that a clock shows. -/
def minuteWindow (d : WallClock) : BusinessHoursWindow :=
  { dayOfWeek := d.day, startMinute := d.minute, endMinute := d.minute + 1 }

/-- Closed on the day that a clock shows. -/
def holiday (d : WallClock) : BusinessHoursException :=
  { date := d.dateText, closedAllDay := true, startMinute := none, endMinute := none, note := "" }

/-- Two policies tell the clocks apart: one that is open for this minute only, and the same with
    this day as a holiday. -/
theorem sameClock_of_forall (timezone : String) {d z : WallClock}
    (h : ∀ row : BusinessHoursPolicy, row.DatesUnique → row.timezone = timezone →
      row.enabled = true →
      ((row.since currentDate).OpenAt (localDateKey d) d.day d.minute ↔
        row.OpenAt z.dateText z.day z.minute)) :
    SameClock d z currentDate := by
  have hweekly := h ⟨timezone, true, [minuteWindow z], []⟩ List.nodup_nil rfl rfl
  have hholiday := h ⟨timezone, true, [minuteWindow z], [holiday z]⟩ (List.nodup_singleton _)
    rfl rfl
  have hopen : z.day = d.day ∧ z.minute ≤ d.minute ∧ d.minute < z.minute + 1 := by
    simpa [BusinessHoursPolicy.OpenAt, BusinessHoursPolicy.since, minuteWindow,
      Int.lt_succ] using hweekly
  -- closed by the holiday, although the window is open
  have hclosed : currentDate ≤ z.dateText ∧ z.dateText = localDateKey d := by
    simpa [BusinessHoursPolicy.OpenAt, BusinessHoursPolicy.since, minuteWindow, holiday,
      List.filter_cons, hopen] using hholiday
  refine ⟨hopen.1.symm, by omega, hclosed.2.symm, ?_⟩
  rw [← hclosed.2]
  exact hclosed.1

theorem openAt_of_sameClock {row : BusinessHoursPolicy} {d z : WallClock}
    (h : SameClock d z currentDate) :
    (row.since currentDate).OpenAt (localDateKey d) d.day d.minute ↔
      row.OpenAt z.dateText z.day z.minute := by
  rw [openAt_since h.current, h.date, h.day, h.minute]

/-- The answer for a policy is what its schedule calls for if and only if the schedule since the
    database's date says the same about the process's clock as the whole schedule does about
    the clock of its zone; and for every policy of a zone, if and only if the clocks show
    the same and the database's date is not ahead of them. -/
theorem isOpen_iff (zones : String → Int → Int) (currentDate : String) (offset now : Int) :
    (∀ store : Store, store.DatesUnique →
      ((∃ answer, isOpen (.ok store) currentDate offset now = .ok answer ∧
          (answer = true ↔ OpenBySchedule zones store now)) ↔
        ∀ row ∈ store.businessHours, row.enabled = true →
          ((row.since currentDate).OpenAt (localDateKey (wallClock offset now))
              (wallClock offset now).day (wallClock offset now).minute ↔
            row.OpenAt (wallClock (zones row.timezone now) now).dateText
              (wallClock (zones row.timezone now) now).day
              (wallClock (zones row.timezone now) now).minute))) ∧
      ∀ timezone : String,
        (∀ store : Store, store.DatesUnique →
            (∀ row ∈ store.businessHours, row.timezone = timezone) →
            ∃ answer, isOpen (.ok store) currentDate offset now = .ok answer ∧
              (answer = true ↔ OpenBySchedule zones store now)) ↔
          SameClock (wallClock offset now) (wallClock (zones timezone now) now) currentDate := by
  refine ⟨fun store hunique => isOpen_bySchedule_iff hunique zones currentDate offset now,
    fun timezone => ?_⟩
  constructor
  · intro hall
    refine sameClock_of_forall timezone fun row hunique hzone henabled => ?_
    -- the law for the store with this policy only
    have hstore : (storeOf row).DatesUnique := by
      intro policy hpolicy
      cases hpolicy
      exact hunique
    have hlaw := hall (storeOf row) hstore (by
      intro policy hpolicy
      cases hpolicy
      exact hzone)
    rw [isOpen_bySchedule_iff hstore] at hlaw
    have hrow := hlaw row rfl henabled
    rwa [hzone] at hrow
  · intro hsame store hunique hzone
    rw [isOpen_bySchedule_iff hunique]
    intro row hrow _
    rw [hzone row hrow]
    exact openAt_of_sameClock hsame

/-- Open on Mondays from 09:00 to 17:00, in a zone, and closed on New Year's Day. -/
def mondayOffice (timezone : String) : BusinessHoursPolicy :=
  { timezone, enabled := true
    windows := [{ dayOfWeek := 1, startMinute := 540, endMinute := 1020 }]
    exceptions :=
      [{ date := "2026-01-01", closedAllDay := true, startMinute := none, endMinute := none
         note := "New Year" }] }

theorem mondayOffice_datesUnique (timezone : String) : (storeOf (mondayOffice timezone)).DatesUnique := by
  intro policy hpolicy
  cases hpolicy
  exact List.nodup_singleton _

/-- UTC, and the zone of India. -/
def indianZones (timezone : String) (_ : Int) : Int :=
  if timezone = "Asia/Kolkata" then 19800000 else 0

/-- Monday, 2026-01-05, at 04:30 UTC. -/
def mondayMorning : Int := 20458 * 86400000 + 270 * 60000

theorem isOpen_iff_utc :
    ∃ answer, isOpen (.ok (storeOf (mondayOffice "UTC"))) "2026-01-05" 0 mondayMorning = .ok answer ∧
      (answer = true ↔ OpenBySchedule indianZones (storeOf (mondayOffice "UTC")) mondayMorning) := by
  have hsame : SameClock (wallClock 0 mondayMorning)
      (wallClock (indianZones "UTC" mondayMorning) mondayMorning) "2026-01-05" :=
    ⟨by decide +kernel, by decide +kernel, by decide +kernel, by decide +kernel⟩
  refine ((isOpen_iff indianZones "2026-01-05" 0 mondayMorning).2 "UTC").mpr hsame _
    (mondayOffice_datesUnique "UTC") ?_
  intro row hrow
  cases hrow
  rfl

/-- At 10:00 in India the office there is open; a server in UTC finds it closed. -/
theorem not_isOpen_india :
    isOpen (.ok (storeOf (mondayOffice "Asia/Kolkata"))) "2026-01-05" 0 mondayMorning = .ok false ∧
      OpenBySchedule indianZones (storeOf (mondayOffice "Asia/Kolkata")) mondayMorning := by
  constructor
  · decide +kernel
  · intro policy hpolicy _
    cases hpolicy
    refine .inr ⟨?_, ?_⟩
    · decide +kernel
    · decide +kernel

end BusinessHours

/-! ## Availability -/

section Availability

open Api

variable {store : Store} {extension : String} {offset now : Int}

/-- No window of the user is enabled, or an enabled one contains the instant in its zone. -/
def AvailableBySchedule (zones : String → Int → Int) (windows : List UserAvailabilityWindow)
    (now : Int) : Prop :=
  (∀ w ∈ windows, w.enabled = false) ∨
    ∃ w ∈ windows, w.enabled = true ∧ w.Contains (wallClock (zones w.timezone now) now)

/-- The service asks for no windows at all, or an enabled one that contains the process's
    clock. -/
theorem isWithinUserHours_ok (store : Store) (hext : extension ≠ "") (offset now : Int) :
    ∃ answer, isWithinUserHours (.ok store) extension offset now = .ok answer ∧
      (answer = true ↔ store.availability extension = [] ∨
        ∃ w ∈ store.availability extension,
          w.enabled = true ∧ w.Contains (wallClock offset now)) := by
  unfold isWithinUserHours getByExtension
  rw [if_neg hext]
  dsimp only [bind, Except.bind, pure, Except.pure]
  have hmem : ∀ w, w ∈ store.listAvailability extension ↔ w ∈ store.availability extension :=
    fun w => List.mem_mergeSort
  have hnil : store.listAvailability extension = [] ↔ store.availability extension = [] := by
    simp only [List.eq_nil_iff_forall_not_mem, hmem]
  split
  · -- no rows, whether enabled or not
    rename_i h
    exact ⟨true, rfl, by simp [hnil.mp h]⟩
  · rename_i h
    refine ⟨_, rfl, ?_⟩
    rw [List.any_eq_true, or_iff_right (fun heq => h (hnil.mpr heq))]
    refine exists_congr fun w => ?_
    rw [hmem]
    refine and_congr_right fun _ => ?_
    unfold UserAvailabilityWindow.Contains
    by_cases henabled : w.enabled = true
    · by_cases hday : w.dayOfWeek = (wallClock offset now).day
      · simp [henabled, hday]
      · simp [henabled, hday]
    · simp [henabled]

theorem isWithinUserHours_bySchedule_iff (store : Store) (hext : extension ≠ "")
    (zones : String → Int → Int) (offset now : Int) :
    (∃ answer, isWithinUserHours (.ok store) extension offset now = .ok answer ∧
        (answer = true ↔ AvailableBySchedule zones (store.availability extension) now)) ↔
      store.availability extension = [] ∨
        (∃ w ∈ store.availability extension, w.enabled = true) ∧
          ((∃ w ∈ store.availability extension,
              w.enabled = true ∧ w.Contains (wallClock offset now)) ↔
            ∃ w ∈ store.availability extension,
              w.enabled = true ∧ w.Contains (wallClock (zones w.timezone now) now)) := by
  obtain ⟨answer, hanswer, hopen⟩ := isWithinUserHours_ok store hext offset now
  rw [hanswer]
  generalize store.availability extension = windows at hopen ⊢
  have hlaw : (∃ answer', Except.ok answer = (Except.ok answer' : Except String Bool) ∧
        (answer' = true ↔ AvailableBySchedule zones windows now)) ↔
      ((windows = [] ∨ ∃ w ∈ windows, w.enabled = true ∧ w.Contains (wallClock offset now)) ↔
        AvailableBySchedule zones windows now) := by
    rw [← hopen]
    constructor
    · rintro ⟨answer', heq, hiff⟩
      cases heq
      exact hiff
    · exact fun hiff => ⟨answer, rfl, hiff⟩
  rw [hlaw]
  unfold AvailableBySchedule
  by_cases hnil : windows = []
  · simp [hnil]
  by_cases henabled : ∃ w ∈ windows, w.enabled = true
  · have hsome : ¬ ∀ w ∈ windows, w.enabled = false := by
      obtain ⟨w, hw, hon⟩ := henabled
      intro hall
      rw [hall w hw] at hon
      cases hon
    simp only [hnil, hsome, henabled, false_or, true_and]
  · -- the service finds windows, but none that counts
    have hall : ∀ w ∈ windows, w.enabled = false := by simpa using henabled
    have hnone : ¬ ∃ w ∈ windows, w.enabled = true ∧ w.Contains (wallClock offset now) :=
      fun ⟨w, hw, hon, _⟩ => henabled ⟨w, hw, hon⟩
    simp only [hnil, hnone, henabled, or_self, false_and, false_iff, iff_false]
    exact fun hneither => hneither (.inl hall)

/-- The answer for a user is what the user's windows call for if and only if there are none, or
    some are enabled and one of these contains the process's clock just in case one contains the
    clock of its own zone; and for all sets of windows of a zone with an enabled one, if and
    only if the clocks show the same. -/
theorem isWithinUserHours_iff (hext : extension ≠ "") (zones : String → Int → Int)
    (offset now : Int) :
    (∀ store : Store,
      ((∃ answer, isWithinUserHours (.ok store) extension offset now = .ok answer ∧
          (answer = true ↔ AvailableBySchedule zones (store.availability extension) now)) ↔
        store.availability extension = [] ∨
          (∃ w ∈ store.availability extension, w.enabled = true) ∧
            ((∃ w ∈ store.availability extension,
                w.enabled = true ∧ w.Contains (wallClock offset now)) ↔
              ∃ w ∈ store.availability extension,
                w.enabled = true ∧ w.Contains (wallClock (zones w.timezone now) now)))) ∧
      ∀ timezone : String,
        (∀ store : Store, (∃ w ∈ store.availability extension, w.enabled = true) →
            (∀ w ∈ store.availability extension, w.timezone = timezone) →
            ∃ answer, isWithinUserHours (.ok store) extension offset now = .ok answer ∧
              (answer = true ↔
                AvailableBySchedule zones (store.availability extension) now)) ↔
          (wallClock offset now).day = (wallClock (zones timezone now) now).day ∧
            (wallClock offset now).minute = (wallClock (zones timezone now) now).minute := by
  refine ⟨fun store => isWithinUserHours_bySchedule_iff store hext zones offset now,
    fun timezone => ?_⟩
  generalize hz : wallClock (zones timezone now) now = z
  constructor
  · intro hall
    -- one window, for the minute that the zone's clock shows
    let w : UserAvailabilityWindow :=
      { dayOfWeek := z.day, startMinute := z.minute, endMinute := z.minute + 1, timezone
        enabled := true }
    have hlaw := hall ⟨[], .empty, .empty, fun _ => [w], none⟩ ⟨w, List.mem_singleton_self w, rfl⟩
      (fun w' hw' => by rw [List.mem_singleton.mp hw'])
    rw [isWithinUserHours_bySchedule_iff _ hext] at hlaw
    have hcontains : w.Contains (wallClock offset now) := by
      have hown : w.Contains (wallClock (zones w.timezone now) now) := by
        show w.Contains (wallClock (zones timezone now) now)
        rw [hz]
        exact ⟨rfl, Int.le_refl _, Int.lt_succ _⟩
      simpa [hown, w] using hlaw
    obtain ⟨hday, hlo, hhi⟩ := hcontains
    simp only [w] at hday hlo hhi
    exact ⟨hday.symm, by omega⟩
  · rintro ⟨hday, hminute⟩ store henabled hzone
    rw [isWithinUserHours_bySchedule_iff store hext]
    refine .inr ⟨henabled, exists_congr fun w => and_congr_right fun hw => ?_⟩
    rw [hzone w hw, hz]
    unfold UserAvailabilityWindow.Contains
    rw [hday, hminute]

/-- Mondays from 09:00 to 17:00. -/
def mondays (timezone : String) (enabled : Bool) : UserAvailabilityWindow :=
  { dayOfWeek := 1, startMinute := 540, endMinute := 1020, timezone, enabled }

/-- A user with one window. -/
def agent (w : UserAvailabilityWindow) : Store where
  users := ["1001"]
  settings := .empty
  flows := .empty
  availability := fun ext => if ext = "1001" then [w] else []
  businessHours := none

theorem isWithinUserHours_iff_utc :
    ∃ answer, isWithinUserHours (.ok (agent (mondays "UTC" true))) "1001" 0 mondayMorning =
        .ok answer ∧
      (answer = true ↔ AvailableBySchedule indianZones
        ((agent (mondays "UTC" true)).availability "1001") mondayMorning) := by
  have hext : "1001" ≠ "" := by decide
  refine ((isWithinUserHours_iff hext indianZones 0 mondayMorning).2 "UTC").mpr
    ⟨by decide +kernel, by decide +kernel⟩ _ ?_ ?_
  · exact ⟨mondays "UTC" true, List.mem_singleton_self _, rfl⟩
  · intro w hw
    rw [List.mem_singleton.mp hw]
    rfl

/-- A user whose only window is disabled is taken for unavailable, and so is one in India at 10:00
    there, by a server in UTC. -/
theorem not_isWithinUserHours :
    (isWithinUserHours (.ok (agent (mondays "UTC" false))) "1001" 0 mondayMorning = .ok false ∧
        AvailableBySchedule indianZones ((agent (mondays "UTC" false)).availability "1001")
          mondayMorning) ∧
      isWithinUserHours (.ok (agent (mondays "Asia/Kolkata" true))) "1001" 0 mondayMorning =
          .ok false ∧
        AvailableBySchedule indianZones ((agent (mondays "Asia/Kolkata" true)).availability "1001")
          mondayMorning := by
  refine ⟨⟨by decide +kernel, .inl fun w hw => ?_⟩, by decide +kernel,
    .inr ⟨mondays "Asia/Kolkata" true, List.mem_singleton_self _, rfl, ?_⟩⟩
  · rw [List.mem_singleton.mp hw]
    rfl
  · exact ⟨by decide +kernel, by decide +kernel, by decide +kernel⟩

end Availability

end CallNet
