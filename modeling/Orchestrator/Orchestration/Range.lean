import Orchestrator.Orchestration.Outcomes
import Orchestrator.Policy.QuietHours

/-!
# Times in range

When a planning pass stays inside the years 1 to 9999. A proposal that nothing blocks is
scheduled when its quiet-hours check does not overflow and the time that the check leaves
is an instant in range; the frequency cap only takes work away.
-/

namespace Orchestrator.Orchestration

open Base Policy

/-- The instant of a reading in a zone. -/
def instantOf (z : TimeZone) (w : Int) (fold : Bool) : Int := w - z.wallOffset w fold

/-- The opening of the window on the date of a reading. -/
def opening (w : Int) : Int := w / day * day + outreachWindowStart

/-- A text or a call at instant `u`, which reads `w` in its customer's zone, can be scheduled:
now, at the opening of its own date, or at that of the next one. -/
structure ReadingFits (z : TimeZone) (u w : Int) (fold : Bool) : Prop where
  inside : outreachWindowStart ≤ w % day → w % day < outreachWindowEnd → InRange u
  early : w % day < outreachWindowStart → InRange (instantOf z (opening w) fold)
  late : outreachWindowEnd ≤ w % day →
    InRange (w + day) ∧ InRange (instantOf z (opening (w + day)) false)

/-- The time that the quiet hours leave an unblocked proposal exists and is in range. -/
def Schedules (rt : Runtime) (i : PolicyInput) : Prop :=
  ∃ quiet, quietHoursDeferUntil rt i = .ok quiet ∧ InRange (quiet.getD i.scheduledAt).instant

section

variable {rt : Runtime} {i : PolicyInput}

/-- An email goes out at the time that is proposed. -/
theorem schedules_email (h : i.channel = .email) :
    Schedules rt i ↔ InRange i.scheduledAt.instant := by
  rw [Schedules, quietHoursDeferUntil, if_pos h]
  constructor
  · rintro ⟨_, ⟨⟩, hrange⟩
    exact hrange
  · exact fun hrange => ⟨none, rfl, hrange⟩

/-- A text or a call whose conversion to local time is out of range cannot be scheduled. -/
theorem not_schedules_of_astimezone {z : TimeZone} (hch : i.channel ≠ .email)
    (hz : rt.zoneInfo i.customerTimezone = some z)
    (h : i.scheduledAt.astimezone i.customerTimezone z = none) : ¬Schedules rt i := by
  rintro ⟨quiet, hq, -⟩
  rw [quietHoursDeferUntil, if_neg hch] at hq
  obtain ⟨zone, hzone, hq⟩ := bind_eq_ok.mp hq
  rw [getCustomerTimezone, orThrow_eq_ok, hz, Option.some.injEq] at hzone
  subst hzone
  obtain ⟨l, hl, -⟩ := bind_eq_ok.mp hq
  rw [orThrow_eq_ok, h] at hl
  cases hl

/-- The window's opening on the date of a datetime. -/
private theorem instant_opening {z : TimeZone} {key : String} {d : Datetime}
    (htz : d.tz = .zone key z) :
    (d.replaceTime outreachWindowStart outreachWindowStart_mem).instant =
      instantOf z (opening d.wall) d.fold := by
  rw [Datetime.instant, Datetime.utcoffset]
  simp only [Datetime.replaceTime, htz]
  rfl

/-- A text or a call is scheduled exactly when its local reading fits. -/
theorem schedules_reading {z : TimeZone} (hch : i.channel ≠ .email)
    (hz : rt.zoneInfo i.customerTimezone = some z) {l : Datetime}
    (hl : i.scheduledAt.astimezone i.customerTimezone z = some l)
    (htz : l.tz = .zone i.customerTimezone z) :
    Schedules rt i ↔ ReadingFits z i.scheduledAt.instant l.wall l.fold := by
  have htod : l.timeOfDay = l.wall % day := rfl
  rw [Schedules, quietHours_reading hch hz hl, htod]
  by_cases hearly : l.wall % day < outreachWindowStart
  · have hnot : ¬(outreachWindowStart ≤ l.wall % day ∧ l.wall % day < outreachWindowEnd) :=
      fun h => absurd h.1 (Int.not_le.mpr hearly)
    rw [if_neg hnot, if_pos hearly]
    constructor
    · rintro ⟨_, ⟨⟩, hrange⟩
      rw [Option.getD_some, instant_opening htz] at hrange
      refine ⟨fun h => absurd h (Int.not_le.mpr hearly), fun _ => hrange, fun h => ?_⟩
      exact absurd hearly (Int.not_lt.mpr (Int.le_trans (by decide) h))
    · intro h
      refine ⟨_, rfl, ?_⟩
      rw [Option.getD_some, instant_opening htz]
      exact h.early hearly
  · have hstart : outreachWindowStart ≤ l.wall % day := Int.not_lt.mp hearly
    by_cases hinside : l.wall % day < outreachWindowEnd
    · rw [if_pos ⟨hstart, hinside⟩]
      constructor
      · rintro ⟨_, ⟨⟩, hrange⟩
        exact ⟨fun _ _ => hrange, fun h => absurd h hearly,
          fun h => absurd h (Int.not_le.mpr hinside)⟩
      · exact fun h => ⟨none, rfl, h.inside hstart hinside⟩
    · rw [if_neg fun h => hinside h.2, if_neg hearly]
      have hlate : outreachWindowEnd ≤ l.wall % day := Int.not_lt.mp hinside
      constructor
      · rintro ⟨quiet, hquiet, hrange⟩
        cases hadd : l.add day with
        | none =>
          rw [hadd] at hquiet
          cases hquiet
        | some nextDay =>
          rw [hadd] at hquiet
          cases hquiet
          obtain ⟨hwall, hfold, hzone⟩ := Datetime.ofWall_eq_some hadd
          rw [Option.getD_some, instant_opening (hzone.trans htz), hwall, hfold] at hrange
          refine ⟨fun _ h => absurd h hinside, fun h => absurd h hearly, fun _ => ⟨?_, hrange⟩⟩
          exact Datetime.ofWall_isSome.mp (Option.isSome_of_eq_some hadd)
      · intro h
        obtain ⟨hnext, hrange⟩ := h.late hlate
        have hadd : l.add day = some ⟨l.wall + day, false, l.tz, hnext⟩ :=
          Datetime.ofWall_of_inRange hnext false l.tz
        refine ⟨some (Datetime.replaceTime ⟨l.wall + day, false, l.tz, hnext⟩ outreachWindowStart
          outreachWindowStart_mem), by rw [hadd]; rfl, ?_⟩
        rw [Option.getD_some, instant_opening (d := ⟨l.wall + day, false, l.tz, hnext⟩) htz]
        exact hrange

/-- An outcome raises nothing when its task's time, if it has one, is in range. -/
private theorem ofResult_returns {p : ProposedOutreach} {r : PolicyResult} :
    Returns (Outcome.ofResult p r) ↔
      ∀ time, scheduledTime p r = some time → InRange time.instant := by
  unfold Outcome.ofResult
  split
  · next h => simp [h]
  · next time h => simp [h, Datetime.timestamptz_isSome]

/-- The outcome of a proposal that is blocked or can be scheduled raises nothing. -/
theorem decideProposal_returns {p : ProposedOutreach} (hp : i.scheduledAt = p.scheduledAt)
    (h : blockReasons i = [] → Schedules rt i) : Returns (decideProposal rt i p) := by
  rw [decideProposal, returns_bind]
  by_cases hb : blockReasons i = []
  · obtain ⟨quiet, hq, hrange⟩ := h hb
    rw [evaluatePolicy_unblocked hb hq]
    split
    · refine ⟨_, rfl, ofResult_returns.mpr fun time htime => ?_⟩
      simp only [scheduledTime] at htime
      split at htime
      · cases htime
      · rw [htime, Option.getD_some] at hrange
        exact hrange
    · next hd =>
      refine ⟨_, rfl, ofResult_returns.mpr ?_⟩
      rintro _ ⟨⟩
      -- without a reason to defer there are no quiet hours
      obtain ⟨rfl, -⟩ := deferReasons_eq_nil.mp (not_not.mp hd)
      rw [Option.getD_none, hp] at hrange
      exact hrange
  · rw [evaluatePolicy, if_pos hb]
    refine ⟨_, rfl, ofResult_returns.mpr ?_⟩
    rintro _ ⟨⟩

/-- An unblocked proposal under the cap raises nothing only when it can be scheduled. -/
theorem schedules_of_returns {p : ProposedOutreach} (hp : i.scheduledAt = p.scheduledAt)
    (hb : blockReasons i = []) (hcap : i.recentOutboundAttemptCount < i.frequencyCap)
    (h : Returns (decideProposal rt i p)) : Schedules rt i := by
  rw [decideProposal, returns_bind] at h
  obtain ⟨r, hr, h⟩ := h
  rw [ofResult_returns] at h
  cases evaluatePolicy_verdict hr with
  | block hblock => exact absurd hb hblock
  | allow _ hq _ => exact ⟨none, hq, hp ▸ h p.scheduledAt rfl⟩
  | defer quiet _ hq hd =>
    have huncapped : Reason.frequencyCapExceeded ∉ deferReasons i quiet := by
      cases quiet <;> simp [deferReasons, Nat.not_le.mpr hcap]
    cases quiet with
    | none => exact absurd (deferReasons_eq_nil.mpr ⟨rfl, hcap⟩) hd
    | some time => exact ⟨some time, hq, h time (by simp [scheduledTime, huncapped])⟩

/-- A loop over proposals that raise nothing under any count raises nothing. -/
theorem decideAll_returns {input : Nat → ProposedOutreach → PolicyInput}
    {ps : List ProposedOutreach} (h : ∀ p ∈ ps, ∀ n, Returns (decideProposal rt (input n p) p))
    (n : Nat) : Returns (decideAll rt input n ps) := by
  induction ps generalizing n with
  | nil => exact returns_ok _
  | cons p ps ih =>
    rw [decideAll, returns_bind]
    obtain ⟨o, ho⟩ := h p List.mem_cons_self n
    refine ⟨o, ho, returns_bind.mpr ?_⟩
    obtain ⟨os, hos⟩ := ih (fun q hq => h q (List.mem_cons_of_mem p hq)) (n + o.count)
    exact ⟨os, hos, returns_ok _⟩

/-- A loop that raises nothing evaluated every proposal under a count that grew by at most one
for each. -/
theorem decideProposal_of_decideAll {input : Nat → ProposedOutreach → PolicyInput}
    {ps : List ProposedOutreach} {n : Nat} (h : Returns (decideAll rt input n ps)) :
    ∀ p ∈ ps, ∃ m, m < n + ps.length ∧ Returns (decideProposal rt (input m p) p) := by
  induction ps generalizing n with
  | nil => simp
  | cons p ps ih =>
    rw [decideAll, returns_bind] at h
    obtain ⟨o, ho, h⟩ := h
    obtain ⟨os, hos, -⟩ := returns_bind.mp h
    intro q hq
    rcases List.mem_cons.mp hq with rfl | hq
    · exact ⟨n, by simp, o, ho⟩
    · obtain ⟨m, hm, hd⟩ := ih ⟨os, hos⟩ q hq
      have hcount : o.count ≤ 1 := by
        unfold Outcome.count
        split <;> omega
      rw [List.length_cons]
      exact ⟨m, by omega, hd⟩

/-! ### Away from the ends of the calendar -/

/-- A proposal a few days inside the calendar can be scheduled. -/
theorem schedules_of_margin (hz : (rt.zoneInfo i.customerTimezone).isSome = true)
    (hlo : 7 * day ≤ i.scheduledAt.wall) (hhi : i.scheduledAt.wall + 7 * day ≤ wallEnd) :
    Schedules rt i := by
  have hday : (0 : Int) < day := by decide
  obtain ⟨quiet, hq, hnear⟩ := quietHours_of_margin hz (by omega) (by omega)
  refine ⟨quiet, hq, ?_⟩
  cases quiet with
  | none => exact Datetime.instant_inRange (d := i.scheduledAt) (by omega) (by omega)
  | some d =>
    have hd := hnear d rfl
    exact Datetime.instant_inRange (d := d) (by omega) (by omega)

/-- The recent attempts of a pass away from the ends of the calendar are counted. -/
theorem recentAttemptCount_of_margin (s : Store) (customerId : Nat) {now : Datetime}
    (h : AwayFromEnds now) : ∃ n, recentAttemptCount s customerId now = .ok n := by
  obtain ⟨hlo, hhi⟩ := h
  have hday : (0 : Int) < day := by decide
  have hback : 24 * hour = day := rfl
  have hrange : InRange (now.wall + -(24 * hour)) := by
    unfold InRange
    omega
  have hadd : now.add (-(24 * hour)) =
      some ⟨now.wall + -(24 * hour), false, now.tz, hrange⟩ :=
    Datetime.ofWall_of_inRange hrange false now.tz
  have hstored : InRange (Datetime.mk (now.wall + -(24 * hour)) false now.tz hrange).instant :=
    Datetime.instant_inRange (by dsimp only; omega) (by dsimp only; omega)
  obtain ⟨u, hu⟩ := Option.isSome_iff_exists.mp (Datetime.timestamptz_isSome.mpr hstored)
  rw [recentAttemptCount, hadd]
  simp only [orThrow, bind, Except.bind, hu]
  exact ⟨_, rfl⟩

/-- Skipping a weekend moves a date by two days at most. -/
theorem skipWeekend_mem (date : Int) :
    date ≤ skipWeekend date ∧ skipWeekend date ≤ date + 2 := by
  unfold skipWeekend
  split
  · split <;> omega
  · omega

/-- The proposals of a policy event away from the ends of the calendar exist, and so do the
times of their tasks. -/
theorem proposalsForEvent_of_margin {eventType : EventType} (he : PolicyEvent eventType)
    {now : Datetime} {key : String} (hz : (rt.zoneInfo key).isSome = true)
    (h : AwayFromEnds now) : ∃ ps, proposalsForEvent rt eventType now key = .ok ps ∧
      ∀ p ∈ ps, 7 * day ≤ p.scheduledAt.wall ∧ p.scheduledAt.wall + 7 * day ≤ wallEnd := by
  obtain ⟨hlo, hhi⟩ := h
  obtain ⟨z, hz⟩ := Option.isSome_iff_exists.mp hz
  have hday : 30 * minute < day := by decide
  have hquarter : 15 * minute < day ∧ 0 < 15 * minute := by decide
  have hadd {δ : Int} (hδ : 0 < δ ∧ δ < day) :
      ∃ sms, now.add δ = some sms ∧ sms.wall = now.wall + δ := by
    have hrange : InRange (now.wall + δ) := by
      unfold InRange
      omega
    exact ⟨_, Datetime.ofWall_of_inRange hrange false now.tz, rfl⟩
  rcases he with rfl | rfl
  · obtain ⟨sms, hsms, hsmsWall⟩ := hadd (δ := 30 * minute) (by decide)
    obtain ⟨l, hl, hnear, hnear'⟩ :=
      Datetime.astimezone_of_margin (d := now) key z (by omega) (by omega)
    have hskip := skipWeekend_mem (l.date + 1)
    have hwall : l.wall ≤ skipWeekend (l.date + 1) * day + 10 * hour ∧
        skipWeekend (l.date + 1) * day + 10 * hour ≤ l.wall + 4 * day := by
      simp only [Datetime.date, day, hour, minute, second] at hskip ⊢
      omega
    have hrange : InRange (skipWeekend (l.date + 1) * day + 10 * hour) := by
      unfold InRange
      omega
    have hcall : nextBusinessDayAt10 rt now key = .ok ⟨skipWeekend (l.date + 1) * day + 10 * hour,
        false, .zone key z, hrange⟩ := by
      rw [nextBusinessDayAt10, hz]
      simp only [orThrow, bind, Except.bind, hl, Datetime.combine,
        Datetime.ofWall_of_inRange hrange]
    refine ⟨_, by rw [proposalsForEvent, hsms, hcall]; rfl, ?_⟩
    intro p hp
    simp only [List.mem_cons, List.not_mem_nil, or_false] at hp
    rcases hp with rfl | rfl | rfl
    · dsimp only
      omega
    · dsimp only
      omega
    · dsimp only
      omega
  · obtain ⟨sms, hsms, hsmsWall⟩ := hadd (δ := 15 * minute) (by decide)
    refine ⟨_, by rw [proposalsForEvent, hsms]; rfl, ?_⟩
    intro p hp
    simp only [List.mem_cons, List.not_mem_nil, or_false] at hp
    rcases hp with rfl | rfl
    · dsimp only
      omega
    · dsimp only
      omega

end

end Orchestrator.Orchestration
