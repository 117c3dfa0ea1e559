import Orchestrator.Base.Fallible
import Orchestrator.Models

/-!
# Policy engine

`src/orchestrator/policy/engine.py`. Every value is resolved by the caller, so the
engine is a function of its input and of the tz database. Hard blocks win over
deferrals and deferrals over permission; a hard block returns before the time zone
is looked up.
-/

namespace Orchestrator.Policy

open Base

/-- `OUTREACH_WINDOW_START`, `src/orchestrator/policy/engine.py:10`. -/
def outreachWindowStart : Int := 9 * hour

/-- `OUTREACH_WINDOW_END`, `src/orchestrator/policy/engine.py:11`. -/
def outreachWindowEnd : Int := 20 * hour

/-- `PolicyInput`, `src/orchestrator/policy/engine.py:14–42`. The two counters carry
their `ge=0` bound in their type. -/
structure PolicyInput where
  channel : OutreachChannel
  scheduledAt : Datetime
  customerTimezone : String
  smsConsent : Bool
  callConsent : Bool
  emailConsent : Bool
  optedOut : Bool
  accountStatus : AccountStatus
  recentOutboundAttemptCount : Nat := 0
  frequencyCap : Nat := 3

/-- `PolicyResult`, `src/orchestrator/policy/engine.py:45–58`. -/
structure PolicyResult where
  decision : PolicyDecisionOutcome
  channel : OutreachChannel
  reasons : List Reason
  deferUntil : Option Datetime := none

/-- `_opt_out_block_reasons`, `src/orchestrator/policy/engine.py:107–110`. -/
def optOutBlockReasons (i : PolicyInput) : List Reason :=
  if i.optedOut then [.customerOptedOut] else []

/-- `_channel_consent_block_reasons`, `src/orchestrator/policy/engine.py:113–120`. -/
def channelConsentBlockReasons (i : PolicyInput) : List Reason :=
  if i.channel = .sms ∧ !i.smsConsent then [.missingSmsConsent]
  else if i.channel = .call ∧ !i.callConsent then [.missingCallConsent]
  else if i.channel = .email ∧ !i.emailConsent then [.missingEmailConsent]
  else []

/-- `_account_status_block_reasons`, `src/orchestrator/policy/engine.py:123–128`. -/
def accountStatusBlockReasons (i : PolicyInput) : List Reason :=
  match i.accountStatus with
  | .paused => [.accountPaused]
  | .resolved => [.accountResolved]
  | .current | .delinquent => []

/-- The block reasons in the order in which `evaluate_policy` collects them,
`src/orchestrator/policy/engine.py:73–75`. -/
def blockReasons (i : PolicyInput) : List Reason :=
  optOutBlockReasons i ++ channelConsentBlockReasons i ++ accountStatusBlockReasons i

/-- `_get_customer_timezone`, `src/orchestrator/policy/engine.py:166–176`. -/
def getCustomerTimezone (rt : Runtime) (key : String) : Except Failure TimeZone :=
  orThrow (.valueError ((rt.zoneInfoError key).getD ("Invalid customer_timezone: " ++ key)))
    (rt.zoneInfo key)

/-- The window opens at a time of day. -/
theorem outreachWindowStart_mem : 0 ≤ outreachWindowStart ∧ outreachWindowStart < day := by
  decide

/-- `_quiet_hours_defer_until`, `src/orchestrator/policy/engine.py:131–163`. -/
def quietHoursDeferUntil (rt : Runtime) (i : PolicyInput) : Except Failure (Option Datetime) :=
  if i.channel = .email then .ok none
  else do
    let zone ← getCustomerTimezone rt i.customerTimezone
    let localScheduledAt ← orThrow .overflow (i.scheduledAt.astimezone i.customerTimezone zone)
    let localScheduledTime := localScheduledAt.timeOfDay
    if outreachWindowStart ≤ localScheduledTime ∧ localScheduledTime < outreachWindowEnd then
      .ok none
    else if localScheduledTime < outreachWindowStart then
      .ok (some (localScheduledAt.replaceTime outreachWindowStart outreachWindowStart_mem))
    else do
      let nextDay ← orThrow .overflow (localScheduledAt.add day)
      .ok (some (nextDay.replaceTime outreachWindowStart outreachWindowStart_mem))

/-- The deferral reasons in the order in which `evaluate_policy` collects them,
`src/orchestrator/policy/engine.py:84–90`. -/
def deferReasons (i : PolicyInput) (quiet : Option Datetime) : List Reason :=
  (if quiet.isSome then [.quietHours] else []) ++
    (if i.frequencyCap ≤ i.recentOutboundAttemptCount then [.frequencyCapExceeded] else [])

/-- Nothing is a reason to defer outside quiet hours and under the cap. -/
theorem deferReasons_eq_nil {i : PolicyInput} {quiet : Option Datetime} :
    deferReasons i quiet = [] ↔
      quiet = none ∧ i.recentOutboundAttemptCount < i.frequencyCap := by
  unfold deferReasons
  rw [List.append_eq_nil_iff]
  apply and_congr
  · cases quiet <;> simp
  · by_cases hc : i.frequencyCap ≤ i.recentOutboundAttemptCount
    · simp [hc]
    · simp [Nat.not_le.mp hc]

/-- `evaluate_policy`, `src/orchestrator/policy/engine.py:61–104`. -/
def evaluatePolicy (rt : Runtime) (i : PolicyInput) : Except Failure PolicyResult :=
  if blockReasons i ≠ [] then
    .ok { decision := .block, channel := i.channel, reasons := blockReasons i }
  else do
    let quiet ← quietHoursDeferUntil rt i
    if deferReasons i quiet ≠ [] then
      .ok { decision := .defer, channel := i.channel, reasons := deferReasons i quiet,
            deferUntil := quiet }
    else
      .ok { decision := .allow, channel := i.channel, reasons := [.policyAllowed] }

/-- The three ways in which an evaluation ends. -/
inductive Verdict (rt : Runtime) (i : PolicyInput) : PolicyResult → Prop where
  | block (hb : blockReasons i ≠ []) :
      Verdict rt i { decision := .block, channel := i.channel, reasons := blockReasons i }
  | defer (quiet : Option Datetime) (hb : blockReasons i = [])
      (hq : quietHoursDeferUntil rt i = .ok quiet) (hd : deferReasons i quiet ≠ []) :
      Verdict rt i { decision := .defer, channel := i.channel, reasons := deferReasons i quiet,
                     deferUntil := quiet }
  | allow (hb : blockReasons i = []) (hq : quietHoursDeferUntil rt i = .ok none)
      (hc : i.recentOutboundAttemptCount < i.frequencyCap) :
      Verdict rt i { decision := .allow, channel := i.channel, reasons := [.policyAllowed] }

/-- A successful evaluation is one of the three verdicts, with its grounds. -/
theorem evaluatePolicy_verdict {rt : Runtime} {i : PolicyInput} {r : PolicyResult}
    (h : evaluatePolicy rt i = .ok r) : Verdict rt i r := by
  unfold evaluatePolicy at h
  split at h
  · next hb =>
    cases h
    exact .block hb
  · next hb =>
    have hb : blockReasons i = [] := not_not.mp hb
    obtain ⟨quiet, hq, h⟩ := bind_eq_ok.mp h
    split at h
    · next hd =>
      cases h
      exact .defer quiet hb hq hd
    · next hd =>
      cases h
      obtain ⟨rfl, hcap⟩ := deferReasons_eq_nil.mp (not_not.mp hd)
      exact .allow hb hq hcap

/-- Quiet hours are a reason to defer exactly when they name a time. -/
theorem mem_deferReasons {i : PolicyInput} {quiet : Option Datetime} :
    Reason.quietHours ∈ deferReasons i quiet ↔ quiet.isSome = true := by
  by_cases hc : i.frequencyCap ≤ i.recentOutboundAttemptCount <;> simp [deferReasons, hc]

/-- An unblocked evaluation whose quiet hours are known. -/
theorem evaluatePolicy_unblocked {rt : Runtime} {i : PolicyInput} (hb : blockReasons i = [])
    {quiet : Option Datetime} (hq : quietHoursDeferUntil rt i = .ok quiet) :
    evaluatePolicy rt i =
      if deferReasons i quiet ≠ [] then
        .ok { decision := .defer, channel := i.channel, reasons := deferReasons i quiet,
              deferUntil := quiet }
      else .ok { decision := .allow, channel := i.channel, reasons := [.policyAllowed] } := by
  rw [evaluatePolicy, if_neg (not_not.mpr hb), hq]
  rfl

/-- An unblocked evaluation carries what the quiet hours found. -/
theorem evaluatePolicy_of_quiet {rt : Runtime} {i : PolicyInput} (hb : blockReasons i = [])
    {quiet : Option Datetime} (hq : quietHoursDeferUntil rt i = .ok quiet) :
    ∃ r, evaluatePolicy rt i = .ok r ∧ (.quietHours ∈ r.reasons ↔ quiet.isSome = true) ∧
      r.deferUntil = quiet := by
  rw [evaluatePolicy_unblocked hb hq]
  split
  · exact ⟨_, rfl, mem_deferReasons, rfl⟩
  · next hd =>
    -- without a reason to defer there are no quiet hours
    obtain ⟨rfl, -⟩ := deferReasons_eq_nil.mp (not_not.mp hd)
    exact ⟨_, rfl, by simp, rfl⟩

/-- Emails have no quiet hours. -/
theorem quietHoursDeferUntil_email (rt : Runtime) {i : PolicyInput} (h : i.channel = .email) :
    quietHoursDeferUntil rt i = .ok none := if_pos h

/-- An unblocked contact outside quiet hours and under the cap is allowed. -/
theorem evaluatePolicy_allow {rt : Runtime} {i : PolicyInput} (hb : blockReasons i = [])
    (hq : quietHoursDeferUntil rt i = .ok none)
    (hc : i.recentOutboundAttemptCount < i.frequencyCap) :
    evaluatePolicy rt i =
      .ok { decision := .allow, channel := i.channel, reasons := [.policyAllowed] } := by
  have hd : deferReasons i none = [] := deferReasons_eq_nil.mpr ⟨rfl, hc⟩
  rw [evaluatePolicy_unblocked hb hq, if_neg (not_not.mpr hd)]

/-- Unblocked input has consent for its channel and comes from a customer who has not
opted out and an account that is neither paused nor resolved. -/
theorem blockReasons_eq_nil {i : PolicyInput} (h : blockReasons i = []) :
    i.optedOut = false ∧
      (match i.channel with
        | .sms => i.smsConsent
        | .call => i.callConsent
        | .email => i.emailConsent) = true ∧
      i.accountStatus ≠ .paused ∧ i.accountStatus ≠ .resolved := by
  obtain ⟨channel, _, _, sms, call, email, opted, status, _, _⟩ := i
  simp only [blockReasons, List.append_eq_nil_iff, optOutBlockReasons,
    channelConsentBlockReasons, accountStatusBlockReasons] at h
  cases opted <;> cases channel <;> cases status <;> simp_all

/-! ### Quiet hours and instants -/

section

variable {rt : Runtime} {i : PolicyInput} {z : TimeZone}

/-- A scheduled time whose zone, if it names one, is the tz database's own. -/
def ZoneResolved (rt : Runtime) (d : Datetime) : Prop :=
  ∀ key z, d.tz = .zone key z → rt.zoneInfo key = some z

/-- The converted datetime that the window is compared with is in the customer's zone,
and reads that zone's wall clock at the proposed instant or is the proposal itself. -/
theorem astimezone_customer {l : Datetime} (hz : rt.zoneInfo i.customerTimezone = some z)
    (htz : ZoneResolved rt i.scheduledAt)
    (h : i.scheduledAt.astimezone i.customerTimezone z = some l) :
    l.tz = .zone i.customerTimezone z ∧
      (l = i.scheduledAt ∨ l.wall = z.localWall i.scheduledAt.instant) := by
  rcases Datetime.astimezone_cases h with ⟨rfl, own, hown⟩ | ⟨ht, hw, -⟩
  · have he : z = own := by
      rw [htz _ _ hown] at hz
      exact (Option.some.inj hz).symm
    exact ⟨by rw [hown, he], Or.inl rfl⟩
  · exact ⟨ht, Or.inr hw⟩

/-- A quiet-hours check that finds nothing to defer saw an instant in the window. -/
theorem inWindow_of_quietHours_none (hch : i.channel ≠ .email)
    (hz : rt.zoneInfo i.customerTimezone = some z)
    (hreg : z.RegularOn outreachWindowStart outreachWindowEnd)
    (htz : ZoneResolved rt i.scheduledAt) (h : quietHoursDeferUntil rt i = .ok none) :
    InWindow outreachWindowStart outreachWindowEnd z i.scheduledAt.instant := by
  rw [quietHoursDeferUntil, if_neg hch] at h
  obtain ⟨zone, hzone, h⟩ := bind_eq_ok.mp h
  rw [getCustomerTimezone, orThrow_eq_ok, hz, Option.some.injEq] at hzone
  subst hzone
  obtain ⟨l, hl, h⟩ := bind_eq_ok.mp h
  obtain ⟨hltz, hlw⟩ := astimezone_customer hz htz (orThrow_eq_ok.mp hl)
  dsimp only at h
  split at h
  · next hwin =>
    rcases hlw with rfl | hlw
    · exact inWindow_of_wall hreg hltz hwin.1 hwin.2
    · rw [Datetime.timeOfDay, hlw] at hwin
      exact hwin
  · split at h
    · cases h
    · obtain ⟨next, -, h⟩ := bind_eq_ok.mp h
      cases h

/-- A quiet-hours deferral denotes an instant in the window. -/
theorem inWindow_of_quietHours_some {d : Datetime}
    (hz : rt.zoneInfo i.customerTimezone = some z)
    (hreg : z.RegularOn outreachWindowStart outreachWindowEnd)
    (htz : ZoneResolved rt i.scheduledAt) (h : quietHoursDeferUntil rt i = .ok (some d)) :
    InWindow outreachWindowStart outreachWindowEnd z d.instant := by
  have hopen {e : Datetime} (he : e.tz = .zone i.customerTimezone z) : InWindow
      outreachWindowStart outreachWindowEnd z
        (e.replaceTime outreachWindowStart outreachWindowStart_mem).instant := by
    have ht := Datetime.timeOfDay_replaceTime e outreachWindowStart outreachWindowStart_mem
    exact inWindow_of_wall hreg he (by rw [ht]) (by rw [ht]; decide)
  unfold quietHoursDeferUntil at h
  split at h
  · cases h
  · obtain ⟨zone, hzone, h⟩ := bind_eq_ok.mp h
    rw [getCustomerTimezone, orThrow_eq_ok, hz, Option.some.injEq] at hzone
    subst hzone
    obtain ⟨l, hl, h⟩ := bind_eq_ok.mp h
    obtain ⟨hltz, -⟩ := astimezone_customer hz htz (orThrow_eq_ok.mp hl)
    dsimp only at h
    split at h
    · cases h
    · split at h
      · cases h
        exact hopen hltz
      · obtain ⟨next, hnext, h⟩ := bind_eq_ok.mp h
        cases h
        have hn := Datetime.ofWall_eq_some (orThrow_eq_ok.mp hnext)
        exact hopen (hn.2.2.trans hltz)

end

end Orchestrator.Policy
