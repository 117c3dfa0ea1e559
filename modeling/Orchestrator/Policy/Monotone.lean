import Orchestrator.Policy.QuietHours

/-!
# Monotonicity of the policy

Two evaluations for the same channel, time and zone, of which the second knows at least
the restrictions of the first. The reasons of each rule grow with the restrictions, and the
decision follows from whether there are any.
-/

namespace Orchestrator.Policy

open Base

/-- The status an account may take to become more restricted. -/
def StatusRestricts (before after : AccountStatus) : Prop :=
  after = before ∨
    (before = .current ∨ before = .delinquent) ∧ (after = .paused ∨ after = .resolved)

/-- `j` asks about the same contact as `i` under restrictions that are at least as strong. -/
structure Restricts (i j : PolicyInput) : Prop where
  channel : j.channel = i.channel
  scheduledAt : j.scheduledAt = i.scheduledAt
  customerTimezone : j.customerTimezone = i.customerTimezone
  optedOut : i.optedOut = true → j.optedOut = true
  smsConsent : j.smsConsent = true → i.smsConsent = true
  callConsent : j.callConsent = true → i.callConsent = true
  emailConsent : j.emailConsent = true → i.emailConsent = true
  accountStatus : StatusRestricts i.accountStatus j.accountStatus
  recentOutboundAttemptCount : i.recentOutboundAttemptCount ≤ j.recentOutboundAttemptCount
  frequencyCap : j.frequencyCap ≤ i.frequencyCap

/-- The order `allow < defer < block` of decisions. -/
def severity : PolicyDecisionOutcome → Nat
  | .allow => 0
  | .defer => 1
  | .block => 2

/-- Nothing is more severe than a block. -/
private theorem severity_le_block (d : PolicyDecisionOutcome) : severity d ≤ severity .block := by
  cases d <;> decide

section

variable {i j : PolicyInput}

/-- An opt-out stays. -/
private theorem optOutBlockReasons_sublist (h : Restricts i j) :
    (optOutBlockReasons i).Sublist (optOutBlockReasons j) := by
  unfold optOutBlockReasons
  by_cases hi : i.optedOut = true
  · rw [if_pos hi, if_pos (h.optedOut hi)]
  · rw [if_neg hi]
    exact List.nil_sublist _

/-- A missing consent stays missing. -/
private theorem channelConsentBlockReasons_sublist (h : Restricts i j) :
    (channelConsentBlockReasons i).Sublist (channelConsentBlockReasons j) := by
  have hmissing {a b : Bool} (hab : b = true → a = true) (ha : a = false) : b = false := by
    cases b with
    | false => rfl
    | true => rw [hab rfl] at ha; exact ha
  unfold channelConsentBlockReasons
  rw [h.channel]
  cases i.channel with
  | sms =>
    by_cases hs : i.smsConsent = false
    · simp [hs, hmissing h.smsConsent hs]
    · simp [hs]
  | call =>
    by_cases hc : i.callConsent = false
    · simp [hc, hmissing h.callConsent hc]
    · simp [hc]
  | email =>
    by_cases he : i.emailConsent = false
    · simp [he, hmissing h.emailConsent he]
    · simp [he]

/-- A closed account stays closed. -/
private theorem accountStatusBlockReasons_sublist (h : Restricts i j) :
    (accountStatusBlockReasons i).Sublist (accountStatusBlockReasons j) := by
  unfold accountStatusBlockReasons
  rcases h.accountStatus with hs | ⟨hs | hs, -⟩
  · rw [hs]
  · rw [hs]
    exact List.nil_sublist _
  · rw [hs]
    exact List.nil_sublist _

/-- Block reasons grow with the restrictions. -/
theorem blockReasons_sublist (h : Restricts i j) : (blockReasons i).Sublist (blockReasons j) :=
  ((optOutBlockReasons_sublist h).append (channelConsentBlockReasons_sublist h)).append
    (accountStatusBlockReasons_sublist h)

/-- Quiet hours see the channel, the time and the zone alone. -/
theorem quietHoursDeferUntil_eq (rt : Runtime) (h : Restricts i j) :
    quietHoursDeferUntil rt j = quietHoursDeferUntil rt i := by
  unfold quietHoursDeferUntil
  rw [h.channel, h.scheduledAt, h.customerTimezone]

/-- Deferral reasons grow with the restrictions. -/
theorem deferReasons_sublist (h : Restricts i j) (quiet : Option Datetime) :
    (deferReasons i quiet).Sublist (deferReasons j quiet) := by
  have hcount := h.recentOutboundAttemptCount
  have hcap := h.frequencyCap
  apply List.Sublist.append (List.Sublist.refl _)
  by_cases hi : i.frequencyCap ≤ i.recentOutboundAttemptCount
  · have hj : j.frequencyCap ≤ j.recentOutboundAttemptCount := by omega
    rw [if_pos hi, if_pos hj]
  · rw [if_neg hi]
    exact List.nil_sublist _

/-- A list that contains a non-empty one is not empty. -/
private theorem ne_nil_of_sublist {α : Type} {l l' : List α} (h : l.Sublist l') (hl : l ≠ []) :
    l' ≠ [] := by
  rintro rfl
  exact hl (List.sublist_nil.mp h)

end

/-- Under stronger restrictions the decision is at least as severe; where it is the same, no
reason is lost and the deferral is the same. -/
theorem evaluatePolicy_monotone {rt : Runtime} {i j : PolicyInput} {r : PolicyResult}
    (h : Restricts i j) (hr : evaluatePolicy rt i = .ok r) :
    ∃ r', evaluatePolicy rt j = .ok r' ∧ severity r.decision ≤ severity r'.decision ∧
      (r.decision = r'.decision → r.reasons.Sublist r'.reasons ∧ r.deferUntil = r'.deferUntil) := by
  by_cases hb : blockReasons j = []
  · have hq := quietHoursDeferUntil_eq rt h
    unfold evaluatePolicy
    rw [if_neg (not_not.mpr hb), hq]
    cases evaluatePolicy_verdict hr with
    | block hi => exact absurd hb (ne_nil_of_sublist (blockReasons_sublist h) hi)
    | defer quiet _ hquiet hd =>
      have hgrow := deferReasons_sublist h quiet
      rw [hquiet]
      refine ⟨_, if_pos (ne_nil_of_sublist hgrow hd), Nat.le_refl _, fun _ => ⟨hgrow, rfl⟩⟩
    | allow _ hquiet _ =>
      rw [hquiet]
      by_cases hd : deferReasons j none = []
      · exact ⟨_, if_neg (not_not.mpr hd), Nat.le_refl _, fun _ => ⟨List.Sublist.refl _, rfl⟩⟩
      · exact ⟨_, if_pos hd, Nat.zero_le _, by rintro ⟨⟩⟩
  · refine ⟨_, if_pos hb, severity_le_block _, fun hsame => ?_⟩
    cases evaluatePolicy_verdict hr with
    | block _ => exact ⟨blockReasons_sublist h, rfl⟩
    | defer quiet _ _ _ => cases hsame
    | allow _ _ _ => cases hsame

/-- The text at five in the morning once the cap is used up and another consent is gone. -/
def cappedText : PolicyInput :=
  { dawnText with emailConsent := false, recentOutboundAttemptCount := 3 }

/-- It is deferred to the same time, now for the cap too. -/
theorem evaluatePolicy_monotone_demo :
    let rt := zoneRuntime "UTC" (.fixed 0 utcOffset_mem)
    ∃ r r', evaluatePolicy rt dawnText = .ok r ∧ evaluatePolicy rt cappedText = .ok r' ∧
      r.decision = .defer ∧ r'.decision = .defer ∧ r.reasons.Sublist r'.reasons ∧
      r.deferUntil = r'.deferUntil ∧ r.deferUntil.isSome = true := by
  intro rt
  have hmore : Restricts dawnText cappedText :=
    ⟨rfl, rfl, rfl, id, id, id, (fun h => nomatch h), Or.inl rfl, by decide, by decide⟩
  obtain ⟨r, hr, hdefer, hsome⟩ : ∃ r, evaluatePolicy rt dawnText = .ok r ∧
      r.decision = .defer ∧ r.deferUntil.isSome = true := ⟨_, rfl, rfl, rfl⟩
  obtain ⟨q, hq, hdefer'⟩ : ∃ q, evaluatePolicy rt cappedText = .ok q ∧ q.decision = .defer :=
    ⟨_, rfl, rfl⟩
  obtain ⟨r', hr', -, hsame⟩ := evaluatePolicy_monotone hmore hr
  obtain rfl : q = r' := Except.ok.inj (hq.symm.trans hr')
  obtain ⟨hreasons, huntil⟩ := hsame (hdefer.trans hdefer'.symm)
  exact ⟨r, q, hr, hq, hdefer, hdefer', hreasons, huntil, hsome⟩

end Orchestrator.Policy
