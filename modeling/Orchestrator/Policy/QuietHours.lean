import Orchestrator.Base.LocalTime
import Orchestrator.Policy.Engine

/-!
# Quiet hours

What `_quiet_hours_defer_until` means for instants. The code compares and replaces readings
of the customer's clock; where transitions leave the contact window alone, the reading it
arrives at is the first one of the window, and its instant the first contact that is allowed.
-/

namespace Orchestrator.Policy

open Base

section

variable {rt : Runtime} {i : PolicyInput} {z : TimeZone}

/-- The quiet-hours check of a proposal whose local time is `l`. -/
theorem quietHours_reading (hch : i.channel ≠ .email)
    (hz : rt.zoneInfo i.customerTimezone = some z) {l : Datetime}
    (hl : i.scheduledAt.astimezone i.customerTimezone z = some l) :
    quietHoursDeferUntil rt i =
      if outreachWindowStart ≤ l.timeOfDay ∧ l.timeOfDay < outreachWindowEnd then .ok none
      else if l.timeOfDay < outreachWindowStart then
        .ok (some (l.replaceTime outreachWindowStart outreachWindowStart_mem))
      else (orThrow .overflow (l.add day)).map fun nextDay =>
        some (nextDay.replaceTime outreachWindowStart outreachWindowStart_mem) := by
  rw [quietHoursDeferUntil, if_neg hch, getCustomerTimezone, hz]
  simp only [orThrow, bind, Except.bind, hl]
  cases l.add day <;> rfl

/-- A check that finds its result converted the proposal to the customer's zone. -/
theorem quietHours_converted (hch : i.channel ≠ .email)
    (hz : rt.zoneInfo i.customerTimezone = some z) {quiet : Option Datetime}
    (h : quietHoursDeferUntil rt i = .ok quiet) :
    ∃ l, i.scheduledAt.astimezone i.customerTimezone z = some l := by
  rw [quietHoursDeferUntil, if_neg hch] at h
  obtain ⟨zone, hzone, h⟩ := bind_eq_ok.mp h
  rw [getCustomerTimezone, orThrow_eq_ok, hz, Option.some.injEq] at hzone
  subst hzone
  obtain ⟨l, hl, -⟩ := bind_eq_ok.mp h
  exact ⟨l, orThrow_eq_ok.mp hl⟩

/-- `d` is the moment at which the window next opens for a contact at `u`. -/
structure NextOpening (z : TimeZone) (key : String) (u : Int) (d : Datetime) : Prop where
  later : u < d.instant
  tz : d.tz = .zone key z
  shown : z.localWall d.instant = d.wall
  opens : d.wall % day = outreachWindowStart
  closed : ∀ v, u ≤ v → v < d.instant →
    ¬InWindow outreachWindowStart outreachWindowEnd z v

/-- The opening is in the window. -/
theorem NextOpening.inWindow {key : String} {u : Int} {d : Datetime}
    (h : NextOpening z key u d) : InWindow outreachWindowStart outreachWindowEnd z d.instant := by
  rw [InWindow, h.shown, h.opens]
  decide

/-- The opening is a time of the zone that its clock shows. -/
theorem NextOpening.shows {key : String} {u : Int} {d : Datetime} (h : NextOpening z key u d) :
    d.Shows key z := by
  intro own hown
  obtain rfl : z = own := (TzInfo.zone.inj (h.tz.symm.trans hown)).2
  exact ⟨rfl, h.shown⟩

/-- The opening of the day `date` for a contact that reads less than it and no less than the
close of the day before. -/
private theorem nextOpening_of_wall (hsteady : z.SteadyOn outreachWindowStart outreachWindowEnd)
    {key : String} {u date : Int} {d : Datetime} (htz : d.tz = .zone key z)
    (hwall : d.wall = date * day + outreachWindowStart)
    (hlo : (date - 1) * day + outreachWindowEnd ≤ z.localWall u)
    (hhi : z.localWall u < date * day + outreachWindowStart) : NextOpening z key u d := by
  have hopens : d.wall % day = outreachWindowStart := by
    rw [hwall]
    simp only [outreachWindowStart, day, hour, minute, second]
    omega
  have hwindow : OfWindow outreachWindowStart outreachWindowEnd d.wall := by
    rw [OfWindow, hopens]
    decide
  have hshown : z.localWall d.instant = d.wall :=
    (Datetime.shows_of_window hsteady.regularOn htz hwindow z htz).2
  have hwindow' : OfWindow outreachWindowStart outreachWindowEnd (z.localWall d.instant) :=
    hshown ▸ hwindow
  have hbelow : z.localWall u < z.localWall d.instant := by
    rw [hshown, hwall]
    exact hhi
  refine ⟨hsteady.lt_of_localWall_lt hwindow' hbelow, htz, hshown, hopens, fun v hu hd => ?_⟩
  refine hsteady.not_inWindow hwindow' ?_ hu hd
  -- no reading of the window lies between the two
  rintro w ⟨hw, hw'⟩ hpast
  rw [hshown, hwall]
  simp only [outreachWindowStart, outreachWindowEnd, day, hour, minute, second] at hw hw' hlo ⊢
  omega

/-- The check defers exactly outside the window, and then to its next opening. -/
theorem quietHours_nextOpening (hz : rt.zoneInfo i.customerTimezone = some z)
    (hsteady : z.SteadyOn outreachWindowStart outreachWindowEnd) (hch : i.channel ≠ .email)
    (hshows : i.scheduledAt.Shows i.customerTimezone z) {quiet : Option Datetime}
    (h : quietHoursDeferUntil rt i = .ok quiet) :
    (InWindow outreachWindowStart outreachWindowEnd z i.scheduledAt.instant ∧ quiet = none) ∨
      ¬InWindow outreachWindowStart outreachWindowEnd z i.scheduledAt.instant ∧
        ∃ d, quiet = some d ∧ NextOpening z i.customerTimezone i.scheduledAt.instant d := by
  obtain ⟨l, hl⟩ := quietHours_converted hch hz h
  obtain ⟨htz, hread⟩ := Datetime.astimezone_shows hshows hl
  have htime : l.timeOfDay = z.localWall i.scheduledAt.instant % day := by
    rw [← hread]
    rfl
  rw [quietHours_reading hch hz hl] at h
  split at h
  · next hin =>
    cases h
    rw [htime] at hin
    exact Or.inl ⟨hin, rfl⟩
  · next hout =>
    rw [htime] at hout
    refine Or.inr ⟨hout, ?_⟩
    split at h
    · next hearly =>
      cases h
      rw [htime] at hearly
      refine ⟨_, rfl, nextOpening_of_wall hsteady htz rfl ?_ ?_⟩
      · rw [hread]
        simp only [outreachWindowEnd, day, hour, minute, second]
        omega
      · rw [hread]
        simp only [outreachWindowStart, day, hour, minute, second] at hearly ⊢
        omega
    · next hlate =>
      rw [htime] at hlate
      cases hnext : l.add day with
      | none =>
        rw [hnext] at h
        cases h
      | some nextDay =>
        rw [hnext] at h
        cases h
        obtain ⟨hnextWall, -, hnextTz⟩ := Datetime.ofWall_eq_some hnext
        refine ⟨_, rfl, nextOpening_of_wall hsteady (hnextTz.trans htz) rfl ?_ ?_⟩
        · rw [hnextWall, hread]
          simp only [outreachWindowStart, outreachWindowEnd, day, hour, minute, second] at *
          omega
        · rw [hnextWall, hread]
          simp only [outreachWindowStart, day, hour, minute, second]
          omega

/-- The time that the check leaves a contact: no earlier, in the window unless it is an email,
and the proposed one if that was in the window already. -/
theorem quietHours_settles (hz : rt.zoneInfo i.customerTimezone = some z)
    (hsteady : z.SteadyOn outreachWindowStart outreachWindowEnd)
    (hshows : i.scheduledAt.Shows i.customerTimezone z) {quiet : Option Datetime}
    (h : quietHoursDeferUntil rt i = .ok quiet) :
    i.scheduledAt.instant ≤ (quiet.getD i.scheduledAt).instant ∧
      (i.channel ≠ .email →
        InWindow outreachWindowStart outreachWindowEnd z (quiet.getD i.scheduledAt).instant ∧
        InRange (z.localWall (quiet.getD i.scheduledAt).instant)) ∧
      (InWindow outreachWindowStart outreachWindowEnd z i.scheduledAt.instant →
        quiet.getD i.scheduledAt = i.scheduledAt) := by
  by_cases hch : i.channel = .email
  · rw [quietHoursDeferUntil_email rt hch, Except.ok.injEq] at h
    subst h
    exact ⟨Int.le_refl _, fun hne => absurd hch hne, fun _ => rfl⟩
  · rcases quietHours_nextOpening hz hsteady hch hshows h with ⟨hin, rfl⟩ | ⟨hout, d, rfl, hopening⟩
    · obtain ⟨l, hl⟩ := quietHours_converted hch hz h
      have hread := (Datetime.astimezone_shows hshows hl).2
      exact ⟨Int.le_refl _, fun _ => ⟨hin, hread ▸ l.wall_mem⟩, fun _ => rfl⟩
    · exact ⟨Int.le_of_lt hopening.later,
        fun _ => ⟨hopening.inWindow, hopening.shown ▸ d.wall_mem⟩, fun hin => absurd hin hout⟩

/-- A contact at an instant of the window is not deferred for quiet hours. -/
theorem quietHours_of_inWindow (hz : rt.zoneInfo i.customerTimezone = some z)
    (hshows : i.scheduledAt.Shows i.customerTimezone z)
    (hu : InRange i.scheduledAt.instant) (hl : InRange (z.localWall i.scheduledAt.instant))
    (hin : InWindow outreachWindowStart outreachWindowEnd z i.scheduledAt.instant) :
    quietHoursDeferUntil rt i = .ok none := by
  by_cases hch : i.channel = .email
  · exact quietHoursDeferUntil_email rt hch
  · obtain ⟨l, hconvert⟩ : ∃ l, i.scheduledAt.astimezone i.customerTimezone z = some l :=
      Datetime.astimezone_of_inRange hu hl
    have htime : l.timeOfDay = z.localWall i.scheduledAt.instant % day := by
      rw [← (Datetime.astimezone_shows hshows hconvert).2]
      rfl
    rw [quietHours_reading hch hz hconvert, if_pos (by rw [htime]; exact hin)]

private theorem replaceTime_wall (d : Datetime) :
    d.wall - day ≤ (d.replaceTime outreachWindowStart outreachWindowStart_mem).wall ∧
      (d.replaceTime outreachWindowStart outreachWindowStart_mem).wall ≤ d.wall + day := by
  simp only [Datetime.replaceTime, outreachWindowStart, day, hour, minute, second]
  omega

/-- Three days from the start of the calendar and four from its end the check finds its
result, which is a few days away at most. -/
theorem quietHours_of_margin (hz : (rt.zoneInfo i.customerTimezone).isSome = true)
    (hlo : 3 * day ≤ i.scheduledAt.wall) (hhi : i.scheduledAt.wall + 4 * day ≤ wallEnd) :
    ∃ quiet, quietHoursDeferUntil rt i = .ok quiet ∧ ∀ d, quiet = some d →
      i.scheduledAt.wall - 3 * day ≤ d.wall ∧ d.wall ≤ i.scheduledAt.wall + 4 * day := by
  have hday : (0 : Int) < day := by decide
  by_cases hch : i.channel = .email
  · exact ⟨none, quietHoursDeferUntil_email rt hch, by rintro _ ⟨⟩⟩
  · obtain ⟨z, hz⟩ := Option.isSome_iff_exists.mp hz
    obtain ⟨l, hl, hnear, hnear'⟩ := Datetime.astimezone_of_margin (d := i.scheduledAt)
      i.customerTimezone z (by omega) (by omega)
    rw [quietHours_reading hch hz hl]
    split
    · exact ⟨none, rfl, by rintro _ ⟨⟩⟩
    · split
      · refine ⟨_, rfl, ?_⟩
        rintro _ ⟨⟩
        have hreplace := replaceTime_wall l
        omega
      · have hnext : InRange (l.wall + day) := by
          unfold InRange
          omega
        have hadd : l.add day = some ⟨l.wall + day, false, l.tz, hnext⟩ :=
          Datetime.ofWall_of_inRange hnext false l.tz
        rw [hadd]
        refine ⟨_, rfl, ?_⟩
        rintro _ ⟨⟩
        have hreplace := replaceTime_wall ⟨l.wall + day, false, l.tz, hnext⟩
        dsimp only at hreplace ⊢
        omega

end

/-- Away from the ends of the calendar, an unblocked text or call whose time the customer's
clock shows carries quiet hours and a deferral exactly outside the window; the deferral is
the next opening of the window, and is not deferred for quiet hours again. -/
theorem quietHours_earliest {rt : Runtime} {i : PolicyInput} {z : TimeZone}
    (hz : rt.zoneInfo i.customerTimezone = some z)
    (hsteady : z.SteadyOn outreachWindowStart outreachWindowEnd) (hch : i.channel ≠ .email)
    (hb : blockReasons i = []) (haway : AwayFromEnds i.scheduledAt)
    (hshows : i.scheduledAt.Shows i.customerTimezone z) :
    ∃ r, evaluatePolicy rt i = .ok r ∧
      (.quietHours ∈ r.reasons ↔
        ¬InWindow outreachWindowStart outreachWindowEnd z i.scheduledAt.instant) ∧
      (r.deferUntil.isSome = true ↔
        ¬InWindow outreachWindowStart outreachWindowEnd z i.scheduledAt.instant) ∧
      ∀ d, r.deferUntil = some d →
        NextOpening z i.customerTimezone i.scheduledAt.instant d ∧
        ∃ r', evaluatePolicy rt { i with scheduledAt := d } = .ok r' ∧
          .quietHours ∉ r'.reasons := by
  have hlo : 3 * day ≤ i.scheduledAt.wall := Int.le_trans (by decide) haway.1
  have hhi : i.scheduledAt.wall + 4 * day ≤ wallEnd :=
    Int.le_trans (Int.add_le_add_left (by decide) _) haway.2
  obtain ⟨quiet, hq, hnear⟩ := quietHours_of_margin (Option.isSome_of_eq_some hz) hlo hhi
  obtain ⟨r, hr, hreason, hdefer⟩ := evaluatePolicy_of_quiet hb hq
  refine ⟨r, hr, ?_⟩
  rw [hreason, hdefer]
  rcases quietHours_nextOpening hz hsteady hch hshows hq with ⟨hin, rfl⟩ | ⟨hout, d, rfl, hopening⟩
  · have hiff : (none : Option Datetime).isSome = true ↔
        ¬InWindow outreachWindowStart outreachWindowEnd z i.scheduledAt.instant := by
      simp [hin]
    exact ⟨hiff, hiff, by rintro _ ⟨⟩⟩
  · have hiff : (some d).isSome = true ↔
        ¬InWindow outreachWindowStart outreachWindowEnd z i.scheduledAt.instant := by
      simp [hout]
    refine ⟨hiff, hiff, ?_⟩
    rintro _ ⟨⟩
    refine ⟨hopening, ?_⟩
    have hfar := hnear d rfl
    have hfirst := haway.1
    have hlast := haway.2
    have hday : (0 : Int) < day := by decide
    have hu : InRange d.instant := Datetime.instant_inRange (by omega) (by omega)
    have hl : InRange (z.localWall d.instant) := hopening.shown ▸ d.wall_mem
    have hagain := quietHours_of_inWindow (i := { i with scheduledAt := d }) hz hopening.shows
      hu hl hopening.inWindow
    obtain ⟨r', hr', hreason', -⟩ := evaluatePolicy_of_quiet (i := { i with scheduledAt := d })
      hb hagain
    refine ⟨r', hr', ?_⟩
    rw [hreason']
    exact Bool.false_ne_true

/-- A tz database with the one zone `key`. -/
def zoneRuntime (key : String) (z : TimeZone) : Runtime where
  zoneInfo k := if k = key then some z else none
  sha256hex text := text

/-- A text to a customer of the zone `key` who has given every consent. -/
def textInput (key : String) (scheduledAt : Datetime) : PolicyInput where
  channel := .sms
  scheduledAt := scheduledAt
  customerTimezone := key
  smsConsent := true
  callConsent := true
  emailConsent := true
  optedOut := false
  accountStatus := .delinquent

/-- A text at five in the morning in UTC. -/
def dawnText : PolicyInput :=
  textInput "UTC" ⟨20 * day + 5 * hour, false, .offset 0 utcOffset_mem, by decide⟩

/-- The deferral of that text. -/
theorem quietHours_earliest_demo :
    ∃ r, evaluatePolicy (zoneRuntime "UTC" (.fixed 0 utcOffset_mem)) dawnText = .ok r ∧
      (.quietHours ∈ r.reasons ↔ ¬InWindow outreachWindowStart outreachWindowEnd
        (.fixed 0 utcOffset_mem) dawnText.scheduledAt.instant) ∧
      (r.deferUntil.isSome = true ↔ ¬InWindow outreachWindowStart outreachWindowEnd
        (.fixed 0 utcOffset_mem) dawnText.scheduledAt.instant) ∧
      ∀ d, r.deferUntil = some d →
        NextOpening (.fixed 0 utcOffset_mem) "UTC" dawnText.scheduledAt.instant d ∧
        ∃ r', evaluatePolicy (zoneRuntime "UTC" (.fixed 0 utcOffset_mem))
            { dawnText with scheduledAt := d } = .ok r' ∧ .quietHours ∉ r'.reasons := by
  have hz : (zoneRuntime "UTC" (.fixed 0 utcOffset_mem)).zoneInfo dawnText.customerTimezone =
      some (.fixed 0 utcOffset_mem) := by rfl
  have hch : dawnText.channel ≠ .email := by decide
  have haway : AwayFromEnds dawnText.scheduledAt := by
    constructor <;> decide
  exact quietHours_earliest hz (TimeZone.fixed_steadyOn 0 _ _ _) hch (by decide) haway
    (Datetime.shows_of_offset rfl _ _)

/-- Half past seven of a day on which the clock is put forward by an hour. -/
def gapStart : Int := 20 * day + 7 * hour + 30 * minute

/-- A zone whose clock goes from half past seven to half past eight on that day. -/
def gapZone : TimeZone where
  utcoffset u := if u < gapStart then 0 else hour
  fold _ := false
  wallOffset w f :=
    if w < gapStart then 0 else if gapStart + hour ≤ w then hour else if f then hour else 0
  utcoffset_lt u := by split <;> decide
  wallOffset_lt w f := by
    split
    · decide
    · split
      · decide
      · split <;> decide
  wallOffset_instant u := by
    have hhour : 0 < hour := by decide
    by_cases hu : u < gapStart
    · simp [hu]
    · have hpast : ¬u + hour < gapStart := by omega
      have hreached : gapStart + hour ≤ u + hour := by omega
      simp [hu, hpast, hreached]
  wallOffset_unique u _ f := by
    have hhour : 0 < hour := by decide
    by_cases hu : u < gapStart
    · simp [hu]
    · have hpast : ¬u + hour < gapStart := by omega
      have hreached : gapStart + hour ≤ u + hour := by omega
      simp [hu, hpast, hreached]

private theorem gapZone_before {u : Int} (h : u < gapStart) : gapZone.localWall u = u := by
  rw [TimeZone.localWall]
  simp [gapZone, h]

private theorem gapZone_after {u : Int} (h : gapStart ≤ u) : gapZone.localWall u = u + hour := by
  rw [TimeZone.localWall]
  simp [gapZone, Int.not_lt.mpr h]

/-- The skipped readings are outside the contact window. -/
theorem gapZone_steadyOn : gapZone.SteadyOn outreachWindowStart outreachWindowEnd := by
  have hhour : 0 < hour := by decide
  constructor
  · rintro u w ⟨hlo, -⟩ ⟨hbefore, hafter⟩
    rcases Int.lt_or_le (u + 1) gapStart with hu | hu
    · rw [gapZone_before (Int.lt_trans (Int.lt_succ u) hu)] at hbefore
      rw [gapZone_before hu] at hafter
      omega
    · rw [gapZone_after hu] at hafter
      rcases Int.lt_or_le u gapStart with hu' | hu'
      · rw [gapZone_before hu'] at hbefore
        simp only [outreachWindowStart, gapStart, day, hour, minute, second] at *
        omega
      · rw [gapZone_after hu'] at hbefore
        omega
  · rintro u w - ⟨hafter, hbefore⟩
    rcases Int.lt_or_le u gapStart with hu | hu
    · rw [gapZone_before hu] at hbefore
      rcases Int.lt_or_le (u + 1) gapStart with hu' | hu'
      · rw [gapZone_before hu'] at hafter
        omega
      · rw [gapZone_after hu'] at hafter
        omega
    · rw [gapZone_after hu] at hbefore
      rw [gapZone_after (Int.le_trans hu (Int.le_of_lt (Int.lt_succ u)))] at hafter
      omega

/-- A text at a quarter past eight of that day, a reading which the clock skips: its instant
is shown as a quarter past nine. -/
def gapText : PolicyInput :=
  textInput "Gap" ⟨gapStart + 45 * minute, false, .zone "Gap" gapZone, by decide⟩

/-- The check takes a skipped reading at its word: the text is in the window and is deferred
to an earlier instant. -/
theorem gapText_deferred_back :
    gapZone.SteadyOn outreachWindowStart outreachWindowEnd ∧ blockReasons gapText = [] ∧
      AwayFromEnds gapText.scheduledAt ∧
      InWindow outreachWindowStart outreachWindowEnd gapZone gapText.scheduledAt.instant ∧
      ∃ r d, evaluatePolicy (zoneRuntime "Gap" gapZone) gapText = .ok r ∧
        .quietHours ∈ r.reasons ∧ r.deferUntil = some d ∧
        d.instant < gapText.scheduledAt.instant := by
  refine ⟨gapZone_steadyOn, by decide, by constructor <;> decide, by decide, ?_⟩
  exact ⟨_, _, rfl, by decide, rfl, by decide⟩

end Orchestrator.Policy
