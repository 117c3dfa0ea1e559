import Orchestrator.Api.Requests
import Orchestrator.Domain.IngestionDecision
import Orchestrator.Orchestration.Range

/-!
# What accepted events decide

The validators bound every text by its column, but no number from above and no time: an
accepted event can be refused for the two integers of its account, and a policy event for
a time outside the years 1 to 9999.
-/

namespace Orchestrator.Api

open Base Domain Orchestration Policy

variable {rt : Runtime} {sub : EventSubmission}

/-- The integers of an account snapshot fit their columns. -/
def IntegersFit (a : AccountSnapshot) : Prop :=
  a.balanceCents ≤ 2147483647 ∧ a.daysPastDue ≤ 2147483647

instance (a : AccountSnapshot) : Decidable (IntegersFit a) := inferInstanceAs (Decidable (_ ∧ _))

/-- The customer row of an accepted event fits. -/
theorem Admissible.customerFits (h : Admissible rt sub) :
    (snapshotCustomer sub.customer).fits = true := by
  have hphone := h.phoneNumber
  have hemail := h.email
  simp [snapshotCustomer, applyCustomerSnapshot, newCustomer, Customer.fits, fitsString,
    h.customerExternalId.2, h.fullName.2, h.timezone.2, hphone, hemail]

/-- The account row of an accepted event fits exactly when its integers do. -/
theorem Admissible.accountFits_iff (h : Admissible rt sub) (customerId : Nat) :
    (newAccount sub.account customerId).fits = true ↔ IntegersFit sub.account := by
  have hbalance := h.balanceCents
  have hdays := h.daysPastDue
  have hid := h.accountExternalId.2
  have hrow : (newAccount sub.account customerId).fits = (fitsString 255 sub.account.externalId &&
      fitsInteger sub.account.balanceCents && fitsInteger sub.account.daysPastDue) := rfl
  simp only [hrow, fitsString, fitsInteger, IntegersFit, Bool.and_eq_true, decide_eq_true_eq]
  omega

/-- The event row of an accepted event fits. -/
theorem Admissible.eventFits (h : Admissible rt sub) : (inboundEventRow rt sub).fits = true := by
  have htype : fitsString 255 sub.eventType.value = true := by
    cases ht : sub.eventType with
    | other text => exact absurd ht (h.eventType text)
    | _ => decide
  have hfits {s : String} (hs : Identity s) : fitsString 255 s = true := decide_eq_true hs.2
  simp [inboundEventRow, InboundEvent.fits, htype, hfits h.source, hfits h.externalId,
    hfits h.customerExternalId, hfits h.accountExternalId]

/-! ### Times of a policy event -/

/-- A customer whom an event may contact over a channel: with consent, for an open account. -/
def Contactable (sub : EventSubmission) (channel : OutreachChannel) : Prop :=
  sub.customer.consent channel = true ∧ sub.account.status ≠ .paused ∧
    sub.account.status ≠ .resolved

/-- Delay of the proposed text. -/
def textDelay : EventType → Int
  | .accountDelinquent => 30 * minute
  | _ => 15 * minute

/-- Local reading of the proposed call. -/
def callReading (z : TimeZone) (u : Int) : Int :=
  skipWeekend (z.localWall u / day + 1) * day + 10 * hour

/-- The call of an event at instant `u` can be proposed. -/
def CallFits (z : TimeZone) (u : Int) : Prop :=
  InRange u ∧ InRange (z.localWall u) ∧ InRange (callReading z u)

/-- The task that a contactable customer gets over a channel can be scheduled. -/
def TaskFits (z : TimeZone) (sub : EventSubmission) : OutreachChannel → Prop
  | .email => InRange sub.occurredAt.toDatetime.instant
  | .sms =>
    let u := sub.occurredAt.toDatetime.instant + textDelay sub.eventType
    InRange u ∧ InRange (z.localWall u) ∧ ReadingFits z u (z.localWall u) (z.fold u)
  | .call => InRange (instantOf z (callReading z sub.occurredAt.toDatetime.instant) false)

/-- Every time that planning an event needs is in range: the start of the recent attempts,
the proposals, and the times of the tasks that they can get. -/
structure TimesFit (z : TimeZone) (sub : EventSubmission) : Prop where
  window : day ≤ sub.occurredAt.wall ∧ day ≤ sub.occurredAt.toDatetime.instant
  text : InRange (sub.occurredAt.wall + textDelay sub.eventType)
  call : sub.eventType = .accountDelinquent → CallFits z sub.occurredAt.toDatetime.instant
  emailTask : Contactable sub .email → TaskFits z sub .email
  textTask : Contactable sub .sms → TaskFits z sub .sms
  callTask : sub.eventType = .accountDelinquent → Contactable sub .call → TaskFits z sub .call

/-- Unblocked proposals are for contactable customers. -/
theorem contactable_of_unblocked {optedOut : Bool} {n : Nat} {p : ProposedOutreach}
    (h : blockReasons (snapshotInput sub optedOut n p) = []) : Contactable sub p.channel := by
  obtain ⟨-, hconsent, hopen⟩ := blockReasons_eq_nil h
  refine ⟨?_, hopen⟩
  simp only [snapshotInput] at hconsent
  cases hch : p.channel <;> rw [hch] at hconsent <;> exact hconsent

/-- Proposals for a contactable customer who has not opted out are unblocked. -/
theorem unblocked_of_contactable {n : Nat} {p : ProposedOutreach}
    (h : Contactable sub p.channel) : blockReasons (snapshotInput sub false n p) = [] := by
  obtain ⟨hconsent, hpaused, hresolved⟩ := h
  have hstatus : accountStatusBlockReasons (snapshotInput sub false n p) = [] := by
    unfold accountStatusBlockReasons snapshotInput
    cases hs : sub.account.status <;> simp_all
  have hchannel : channelConsentBlockReasons (snapshotInput sub false n p) = [] := by
    unfold channelConsentBlockReasons snapshotInput
    cases hch : p.channel <;> rw [hch] at hconsent <;> simp_all [CustomerSnapshot.consent]
  rw [blockReasons, hstatus, hchannel]
  rfl

/-- The window of recent attempts starts in range exactly when a day has passed. -/
theorem checkWindow_returns {at' : OffsetDatetime} :
    Returns (checkWindow at') ↔ day ≤ at'.wall ∧ day ≤ at'.toDatetime.instant := by
  have hwall := at'.wall_mem
  have hoffset := at'.offset_lt
  have hinstant : at'.toDatetime.instant = at'.wall - at'.offset := rfl
  have hday : -(24 * hour) = -day := rfl
  rw [checkWindow, returns_bind, hday]
  constructor
  · rintro ⟨since, hsince, h⟩
    have hsince := orThrow_eq_ok.mp hsince
    have hrange := OffsetDatetime.add_isSome.mp (Option.isSome_of_eq_some hsince)
    obtain ⟨_, hu, -⟩ := returns_bind.mp h
    have hstored := Datetime.timestamptz_isSome.mp
      (Option.isSome_of_eq_some (orThrow_eq_ok.mp hu))
    rw [(OffsetDatetime.add_spec hsince).2] at hstored
    exact ⟨by have := hrange.1; omega, by have := hstored.1; omega⟩
  · rintro ⟨hw, hu⟩
    have hrange : InRange (at'.wall + -day) := by
      refine ⟨by omega, ?_⟩
      simp only [day, hour, minute, second] at *
      omega
    obtain ⟨since, hsince⟩ := Option.isSome_iff_exists.mp (OffsetDatetime.add_isSome.mpr hrange)
    refine ⟨since, by rw [hsince]; rfl, returns_bind.mpr ?_⟩
    have hstored : InRange since.instant := by
      rw [(OffsetDatetime.add_spec hsince).2]
      exact ⟨by omega, by omega⟩
    obtain ⟨u, htime⟩ := Option.isSome_iff_exists.mp (Datetime.timestamptz_isSome.mpr hstored)
    exact ⟨u, by rw [htime]; rfl, returns_ok ()⟩

/-- A local reading of the customer's zone, for a proposal at a fixed offset. -/
theorem schedules_text {z : TimeZone} {optedOut : Bool} {n : Nat} {p : ProposedOutreach}
    (hz : rt.zoneInfo sub.customer.timezone = some z) (hch : p.channel ≠ .email) {δ : Int}
    {hδ : -day < δ ∧ δ < day} (htz : p.scheduledAt.tz = .offset δ hδ) :
    Schedules rt (snapshotInput sub optedOut n p) ↔
      InRange p.scheduledAt.instant ∧ InRange (z.localWall p.scheduledAt.instant) ∧
        ReadingFits z p.scheduledAt.instant (z.localWall p.scheduledAt.instant)
          (z.fold p.scheduledAt.instant) := by
  have hconvert := Datetime.astimezone_offset htz sub.customer.timezone z
  by_cases hu : InRange p.scheduledAt.instant
  · by_cases hl : InRange (z.localWall p.scheduledAt.instant)
    · rw [if_pos hu, Datetime.ofWall_of_inRange hl] at hconvert
      rw [schedules_reading hch hz hconvert rfl]
      simp [hu, hl, snapshotInput]
    · have hnone : p.scheduledAt.astimezone sub.customer.timezone z = none := by
        rw [hconvert, if_pos hu, ← Option.not_isSome_iff_eq_none, Datetime.ofWall_isSome]
        exact hl
      have hnot : ¬Schedules rt (snapshotInput sub optedOut n p) :=
        not_schedules_of_astimezone hch hz hnone
      simp [hnot, hl]
  · rw [if_neg hu] at hconvert
    have hnot : ¬Schedules rt (snapshotInput sub optedOut n p) :=
      not_schedules_of_astimezone hch hz hconvert
    simp [hnot, hu]

/-- The proposed call is at ten o'clock on the customer's next business day. -/
theorem nextBusinessDayAt10_eq_ok {z : TimeZone} {key : String} (hz : rt.zoneInfo key = some z)
    {at' : OffsetDatetime} {call : Datetime} :
    nextBusinessDayAt10 rt at'.toDatetime key = .ok call ↔
      InRange at'.toDatetime.instant ∧ InRange (z.localWall at'.toDatetime.instant) ∧
        Datetime.ofWall (callReading z at'.toDatetime.instant) false (.zone key z) =
          some call := by
  have hconvert := Datetime.astimezone_offset (d := at'.toDatetime) rfl key z
  have hparts : nextBusinessDayAt10 rt at'.toDatetime key =
      orThrow .overflow (at'.toDatetime.astimezone key z) >>= fun localNow =>
        orThrow .overflow
          (Datetime.combine (skipWeekend (localNow.date + 1)) (10 * hour) key z) := by
    rw [nextBusinessDayAt10, hz]
    rfl
  rw [hparts, bind_eq_ok]
  simp only [orThrow_eq_ok]
  constructor
  · rintro ⟨localNow, hlocal, hcall⟩
    rw [hconvert] at hlocal
    split at hlocal
    · next hu =>
      have hl := Datetime.ofWall_isSome.mp (Option.isSome_of_eq_some hlocal)
      rw [Datetime.combine, Datetime.date, (Datetime.ofWall_eq_some hlocal).1] at hcall
      exact ⟨hu, hl, hcall⟩
    · cases hlocal
  · rintro ⟨hu, hl, hcall⟩
    rw [if_pos hu, Datetime.ofWall_of_inRange hl] at hconvert
    exact ⟨_, hconvert, hcall⟩

/-- The proposals of a policy event. -/
inductive Proposed (z : TimeZone) (sub : EventSubmission) : ProposedOutreach → Prop where
  | email : Proposed z sub ⟨.email, sub.occurredAt.toDatetime⟩
  | text {sms : Datetime}
      (h : sub.occurredAt.toDatetime.add (textDelay sub.eventType) = some sms) :
      Proposed z sub ⟨.sms, sms⟩
  | call {call : Datetime} (he : sub.eventType = .accountDelinquent)
      (h : Datetime.ofWall (callReading z sub.occurredAt.toDatetime.instant) false
        (.zone sub.customer.timezone z) = some call) : Proposed z sub ⟨.call, call⟩

/-- What a policy event proposes: at most three contacts, which all are of its own. -/
theorem proposalsForEvent_ok {z : TimeZone} (hz : rt.zoneInfo sub.customer.timezone = some z)
    (he : PolicyEvent sub.eventType) {ps : List ProposedOutreach}
    (h : proposalsForEvent rt sub.eventType sub.occurredAt.toDatetime sub.customer.timezone =
      .ok ps) : ps.length ≤ 3 ∧ ∀ p, p ∈ ps ↔ Proposed z sub p := by
  rcases he with he | he
  · have hdelay : textDelay sub.eventType = 30 * minute := by rw [he]; rfl
    rw [he] at h
    obtain ⟨sms, hsms, h⟩ := bind_eq_ok.mp h
    obtain ⟨call, hcall, h⟩ := bind_eq_ok.mp h
    rw [orThrow_eq_ok, ← hdelay] at hsms
    obtain ⟨-, -, hcall⟩ := (nextBusinessDayAt10_eq_ok hz).mp hcall
    cases h
    refine ⟨Nat.le_refl _, fun p => ⟨fun hp => ?_, fun hp => ?_⟩⟩
    · simp only [List.mem_cons, List.not_mem_nil, or_false] at hp
      rcases hp with rfl | rfl | rfl
      · exact .email
      · exact .text hsms
      · exact .call he hcall
    · cases hp with
      | email => simp
      | text h' =>
        rw [hsms] at h'
        cases h'
        simp
      | call _ h' =>
        rw [hcall] at h'
        cases h'
        simp
  · have hdelay : textDelay sub.eventType = 15 * minute := by rw [he]; rfl
    rw [he] at h
    obtain ⟨sms, hsms, h⟩ := bind_eq_ok.mp h
    rw [orThrow_eq_ok, ← hdelay] at hsms
    cases h
    refine ⟨by simp, fun p => ⟨fun hp => ?_, fun hp => ?_⟩⟩
    · simp only [List.mem_cons, List.not_mem_nil, or_false] at hp
      rcases hp with rfl | rfl
      · exact .email
      · exact .text hsms
    · cases hp with
      | email => simp
      | text h' =>
        rw [hsms] at h'
        cases h'
        simp
      | call he' _ =>
        rw [he] at he'
        cases he'

/-- A policy event has proposals exactly when the times of its text and its call exist. -/
theorem proposalsForEvent_returns {z : TimeZone}
    (hz : rt.zoneInfo sub.customer.timezone = some z) (he : PolicyEvent sub.eventType) :
    Returns (proposalsForEvent rt sub.eventType sub.occurredAt.toDatetime
        sub.customer.timezone) ↔
      InRange (sub.occurredAt.wall + textDelay sub.eventType) ∧
        (sub.eventType = .accountDelinquent →
          CallFits z sub.occurredAt.toDatetime.instant) := by
  rcases he with he | he
  · rw [he, proposalsForEvent, returns_bind]
    simp only [orThrow_eq_ok, true_implies]
    constructor
    · rintro ⟨sms, hsms, h⟩
      obtain ⟨call, hcall, -⟩ := returns_bind.mp h
      obtain ⟨hu, hl, hcall⟩ := (nextBusinessDayAt10_eq_ok hz).mp hcall
      exact ⟨OffsetDatetime.add_isSome.mp (Option.isSome_of_eq_some hsms), hu, hl,
        Datetime.ofWall_isSome.mp (Option.isSome_of_eq_some hcall)⟩
    · rintro ⟨htext, hu, hl, hcall⟩
      obtain ⟨sms, hsms⟩ := Option.isSome_iff_exists.mp (OffsetDatetime.add_isSome.mpr htext)
      refine ⟨sms, hsms, returns_bind.mpr ⟨_, (nextBusinessDayAt10_eq_ok hz).mpr
        ⟨hu, hl, Datetime.ofWall_of_inRange hcall _ _⟩, returns_ok _⟩⟩
  · rw [he, proposalsForEvent, returns_bind]
    simp only [orThrow_eq_ok, returns_ok, and_true, reduceCtorEq, false_implies]
    rw [← OffsetDatetime.add_isSome, Option.isSome_iff_exists]
    rfl

/-- The reading of a call is at ten o'clock. -/
theorem callReading_timeOfDay (z : TimeZone) (u : Int) : callReading z u % day = 10 * hour := by
  simp only [callReading, day, hour, minute, second]
  omega

/-- A proposal can be scheduled exactly when the times of its task fit. -/
theorem schedules_proposed {z : TimeZone} (hz : rt.zoneInfo sub.customer.timezone = some z)
    {optedOut : Bool} {n : Nat} {p : ProposedOutreach} (h : Proposed z sub p) :
    Schedules rt (snapshotInput sub optedOut n p) ↔ TaskFits z sub p.channel := by
  cases h with
  | email => exact schedules_email rfl
  | @text sms hsms =>
    obtain ⟨htz, hinstant⟩ := OffsetDatetime.add_spec hsms
    have hch : (⟨.sms, sms⟩ : ProposedOutreach).channel ≠ .email := OutreachChannel.noConfusion
    rw [schedules_text hz hch htz, hinstant]
    rfl
  | @call call he hcall =>
    obtain ⟨hwall, hfold, htz⟩ := Datetime.ofWall_eq_some hcall
    have hinstant : call.instant =
        instantOf z (callReading z sub.occurredAt.toDatetime.instant) false := by
      rw [Datetime.instant, Datetime.utcoffset, htz, hwall, hfold]
      rfl
    have htime := callReading_timeOfDay z sub.occurredAt.toDatetime.instant
    have hch : (snapshotInput sub optedOut n ⟨.call, call⟩).channel ≠ .email :=
      OutreachChannel.noConfusion
    have hfits : TaskFits z sub .call ↔ InRange call.instant := by rw [TaskFits, hinstant]
    rw [schedules_reading hch hz (Datetime.astimezone_own htz z) htz, hfits]
    constructor
    · exact fun h => h.inside (by rw [hwall, htime]; decide) (by rw [hwall, htime]; decide)
    · intro h
      refine ⟨fun _ _ => h, fun hearly => ?_, fun hlate => ?_⟩
      · rw [hwall, htime] at hearly
        exact absurd hearly (by decide)
      · rw [hwall, htime] at hlate
        exact absurd hlate (by decide)

/-- A policy event is decided when its window and its proposals exist and no proposal raises. -/
theorem decideEffect_returns (he : PolicyEvent sub.eventType) {optedOut : Bool} {n : Nat} :
    Returns (decideEffect rt sub optedOut n) ↔ Returns (checkWindow sub.occurredAt) ∧
      ∃ ps, proposalsForEvent rt sub.eventType sub.occurredAt.toDatetime
          sub.customer.timezone = .ok ps ∧
        Returns (decideAll rt (snapshotInput sub optedOut) n ps) := by
  rw [decideEffect_policyEvent he]
  constructor
  · intro h
    obtain ⟨u, hu, h⟩ := returns_bind.mp h
    obtain ⟨ps, hps, h⟩ := returns_bind.mp h
    obtain ⟨os, hos, -⟩ := returns_bind.mp h
    exact ⟨⟨u, hu⟩, ps, hps, os, hos⟩
  · rintro ⟨⟨u, hu⟩, ps, hps, os, hos⟩
    exact returns_bind.mpr ⟨u, hu, returns_bind.mpr ⟨ps, hps, returns_bind.mpr
      ⟨os, hos, returns_ok _⟩⟩⟩

/-- The times of a policy event whose decision raises nothing for a new customer fit. -/
theorem timesFit_of_returns {z : TimeZone} (hz : rt.zoneInfo sub.customer.timezone = some z)
    (he : PolicyEvent sub.eventType) (h : Returns (decideEffect rt sub false 0)) :
    TimesFit z sub := by
  obtain ⟨hwindow, ps, hps, hall⟩ := (decideEffect_returns he).mp h
  obtain ⟨htext, hcall⟩ := (proposalsForEvent_returns hz he).mp ⟨ps, hps⟩
  obtain ⟨hlength, hmem⟩ := proposalsForEvent_ok hz he hps
  have htask {p : ProposedOutreach} (hp : Proposed z sub p)
      (hc : Contactable sub p.channel) : TaskFits z sub p.channel := by
    -- at most three proposals stay under the cap of three
    obtain ⟨m, hm, hreturns⟩ := decideProposal_of_decideAll hall p ((hmem p).mpr hp)
    have hcap : (snapshotInput sub false m p).recentOutboundAttemptCount <
        (snapshotInput sub false m p).frequencyCap := by
      simp only [snapshotInput, defaultFrequencyCap]
      omega
    exact (schedules_proposed hz hp).mp
      (schedules_of_returns rfl (unblocked_of_contactable hc) hcap hreturns)
  refine ⟨checkWindow_returns.mp hwindow, htext, hcall, htask .email, fun hc => ?_,
    fun hd hc => ?_⟩
  · obtain ⟨sms, hsms⟩ := Option.isSome_iff_exists.mp (OffsetDatetime.add_isSome.mpr htext)
    exact htask (.text hsms) hc
  · exact htask (.call hd (Datetime.ofWall_of_inRange (hcall hd).2.2 _ _)) hc

/-- A policy event whose times fit is decided without an exception for every customer. -/
theorem returns_of_timesFit {z : TimeZone} (hz : rt.zoneInfo sub.customer.timezone = some z)
    (he : PolicyEvent sub.eventType) (h : TimesFit z sub) (optedOut : Bool) (n : Nat) :
    Returns (decideEffect rt sub optedOut n) := by
  obtain ⟨ps, hps⟩ := (proposalsForEvent_returns hz he).mpr ⟨h.text, h.call⟩
  refine (decideEffect_returns he).mpr ⟨checkWindow_returns.mpr h.window, ps, hps,
    decideAll_returns (fun p hp m => ?_) n⟩
  have hproposed := ((proposalsForEvent_ok hz he hps).2 p).mp hp
  refine decideProposal_returns rfl fun hb => (schedules_proposed hz hproposed).mpr ?_
  have hc := contactable_of_unblocked hb
  cases hproposed with
  | email => exact h.emailTask hc
  | text _ => exact h.textTask hc
  | call hd _ => exact h.callTask hd hc

/-! ### Events away from the ends of the calendar -/

private theorem textDelay_mem (eventType : EventType) :
    0 ≤ textDelay eventType ∧ textDelay eventType ≤ 30 * minute := by
  unfold textDelay
  split <;> decide

private theorem callReading_mem (z : TimeZone) (u : Int) :
    z.localWall u ≤ callReading z u ∧ callReading z u ≤ z.localWall u + 4 * day := by
  have hskip := skipWeekend_mem (z.localWall u / day + 1)
  simp only [callReading, day, hour, minute, second] at *
  omega

private theorem opening_mem (w : Int) : w - day ≤ opening w ∧ opening w ≤ w + day := by
  simp only [opening, outreachWindowStart, day, hour, minute, second]
  omega

/-- A reading that lies a few days inside the calendar fits. -/
private theorem readingFits_of_margin (z : TimeZone) {u w : Int} (f : Bool) (hu : InRange u)
    (hlo : 2 * day ≤ w) (hhi : w + 4 * day ≤ wallEnd) : ReadingFits z u w f := by
  have hearly := z.wallOffset_lt (opening w) f
  have hlate := z.wallOffset_lt (opening (w + day)) false
  have hday : (0 : Int) < day := by decide
  obtain ⟨hopen, hopen'⟩ := opening_mem w
  obtain ⟨hnext, hnext'⟩ := opening_mem (w + day)
  refine ⟨fun _ _ => hu, fun _ => ?_, fun _ => ⟨?_, ?_⟩⟩
  · unfold InRange instantOf
    omega
  · unfold InRange
    omega
  · unfold InRange instantOf
    omega

/-- The times of every event fit that is three days past the start of the calendar and a week
before its end. -/
theorem timesFit_of_margin (z : TimeZone) (hlo : 3 * day ≤ sub.occurredAt.toDatetime.instant)
    (hhi : sub.occurredAt.toDatetime.instant + 7 * day ≤ wallEnd) : TimesFit z sub := by
  have hinstant : sub.occurredAt.toDatetime.instant =
      sub.occurredAt.wall - sub.occurredAt.offset := rfl
  obtain ⟨hdelay, hdelay'⟩ := textDelay_mem sub.eventType
  have hoffset := sub.occurredAt.offset_lt
  have hlocal := z.utcoffset_lt sub.occurredAt.toDatetime.instant
  have htext := z.utcoffset_lt
    (sub.occurredAt.toDatetime.instant + textDelay sub.eventType)
  obtain ⟨hcall, hcall'⟩ := callReading_mem z sub.occurredAt.toDatetime.instant
  have hcallOffset := z.wallOffset_lt (callReading z sub.occurredAt.toDatetime.instant) false
  have hday : 30 * minute < day := by decide
  unfold TimeZone.localWall at hcall hcall'
  refine ⟨by omega, ?_, fun _ => ⟨?_, ?_, ?_⟩, fun _ => ?_, fun _ => ⟨?_, ?_, ?_⟩, fun _ _ => ?_⟩
  · unfold InRange
    omega
  · unfold InRange
    omega
  · unfold InRange TimeZone.localWall
    omega
  · unfold InRange
    omega
  · unfold TaskFits InRange
    omega
  · unfold InRange
    omega
  · unfold InRange TimeZone.localWall
    omega
  · refine readingFits_of_margin z _ ?_ ?_ ?_
    · unfold InRange
      omega
    · unfold TimeZone.localWall
      omega
    · unfold TimeZone.localWall
      omega
  · unfold TaskFits InRange instantOf
    omega

end Orchestrator.Api
