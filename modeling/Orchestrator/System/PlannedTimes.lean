import Orchestrator.Api.Admission
import Orchestrator.Orchestration.ClosedForm

/-!
# Planned times

When the tasks of a planning pass are due. The clock of the customer's zone orders the
proposals behind the caller's time; what quiet hours change is the next opening of the
window, so that asking the policy again at the time of a task finds nothing to defer.
-/

namespace Orchestrator.System

open Base Policy Orchestration Api

/-- `date` is the first day from Monday to Friday after `after`. -/
structure FirstBusinessDay (after date : Int) : Prop where
  later : after < date
  weekday : weekday date < 5
  first : ∀ d, after < d → d < date → 5 ≤ Base.weekday d

/-- The weekend loop finds the first business day. -/
theorem skipWeekend_first (after : Int) : FirstBusinessDay after (skipWeekend (after + 1)) := by
  have hfrom (date : Int) : date ≤ skipWeekend date ∧ weekday (skipWeekend date) < 5 ∧
      ∀ d, date ≤ d → d < skipWeekend date → 5 ≤ weekday d := by
    unfold skipWeekend
    split
    · next hsat =>
      split
      · next hsun =>
        refine ⟨by omega, by simp only [weekday] at *; omega, fun d hd hd' => ?_⟩
        have hd : d = date ∨ d = date + 1 := by omega
        rcases hd with rfl | rfl
        · exact hsat
        · exact hsun
      · next hsun =>
        refine ⟨by omega, by omega, fun d hd hd' => ?_⟩
        obtain rfl : d = date := by omega
        exact hsat
    · next hday => exact ⟨by omega, by omega, fun d hd hd' => by omega⟩
  obtain ⟨hle, hweekday, hfirst⟩ := hfrom (after + 1)
  exact ⟨by omega, hweekday, fun d hd hd' => hfirst d (by omega) hd'⟩

/-- The times of a task that was planned at the instant `now`, as the `m`-th attempt. -/
structure PlannedTime (rt : Runtime) (ctx : EventContext) (cap : Nat) (z : TimeZone) (now : Int)
    (m : Nat) (t : OutreachTask) : Prop where
  notBefore : now ≤ t.scheduledAt
  inWindow : t.channel ≠ .email →
    InWindow outreachWindowStart outreachWindowEnd z t.scheduledAt
  call : t.channel = .call → z.localWall t.scheduledAt % day = 10 * hour ∧
    FirstBusinessDay (z.localWall now / day) (z.localWall t.scheduledAt / day)
  again : ∀ d : Datetime, d.instant = t.scheduledAt → d.Shows ctx.customer.timezone z →
    ∃ r, evaluatePolicy rt (policyInput ctx cap m ⟨t.channel, d⟩) = .ok r ∧ r.decision = .allow

section

variable {rt : Runtime} {ctx : EventContext} {z : TimeZone} {cap : Nat}

/-- An unblocked proposal of the filter and its place among all proposals. -/
private theorem openProposals_getElem? {base k i : Nat} {ps : List ProposedOutreach}
    {p : ProposedOutreach} (h : (openProposals ctx base ps)[k]? = some (p, i)) :
    ∃ j, ps[j]? = some p ∧ unblocked ctx p = true ∧
      (ps.take j).countP (unblocked ctx) = k := by
  induction ps generalizing base k with
  | nil => simp [openProposals] at h
  | cons q qs ih =>
    rw [openProposals, List.zipIdx_cons, List.filter_cons] at h
    by_cases hq : unblocked ctx q = true
    · rw [if_pos hq] at h
      cases k with
      | zero =>
        obtain ⟨rfl, -⟩ : q = p ∧ base = i := by simpa using h
        exact ⟨0, rfl, hq, rfl⟩
      | succ k =>
        rw [List.getElem?_cons_succ] at h
        obtain ⟨j, hj, hp, hcount⟩ := ih h
        refine ⟨j + 1, hj, hp, ?_⟩
        rw [List.take_succ_cons, List.countP_cons, hcount, if_pos hq]
    · rw [if_neg hq] at h
      obtain ⟨j, hj, hp, hcount⟩ := ih h
      refine ⟨j + 1, hj, hp, ?_⟩
      rw [List.take_succ_cons, List.countP_cons, hcount, if_neg hq, Nat.add_zero]

/-- What an event proposes from a time at a fixed offset: contacts at or after it, and a call
at ten on the first business day. -/
inductive ProposedFrom (z : TimeZone) (key : String) (now : OffsetDatetime) :
    ProposedOutreach → Prop where
  | written (channel : OutreachChannel) (hch : channel ≠ .call) {δ : Int} (hδ : 0 ≤ δ)
      {time : Datetime} (htz : time.tz = .offset now.offset now.offset_lt)
      (htime : time.instant = now.toDatetime.instant + δ) : ProposedFrom z key now ⟨channel, time⟩
  | call {time : Datetime} (htz : time.tz = .zone key z)
      (hwall : time.wall = callReading z now.toDatetime.instant) :
      ProposedFrom z key now ⟨.call, time⟩

/-- Every proposal is of one of the two kinds. -/
private theorem proposedFrom_of_mem {eventType : EventType} {now : OffsetDatetime} {key : String}
    (hz : rt.zoneInfo key = some z) {ps : List ProposedOutreach}
    (h : proposalsForEvent rt eventType now.toDatetime key = .ok ps) :
    ∀ p ∈ ps, ProposedFrom z key now p := by
  have hemail : ProposedFrom z key now ⟨.email, now.toDatetime⟩ :=
    .written .email (by decide) (Int.le_refl 0) rfl (Int.add_zero _).symm
  have htext {δ : Int} (hδ : 0 ≤ δ) {sms : Datetime} (hsms : now.toDatetime.add δ = some sms) :
      ProposedFrom z key now ⟨.sms, sms⟩ := by
    obtain ⟨htz, htime⟩ := OffsetDatetime.add_spec hsms
    exact .written .sms (by decide) hδ htz htime
  unfold proposalsForEvent at h
  split at h
  · obtain ⟨sms, hsms, h⟩ := bind_eq_ok.mp h
    obtain ⟨call, hcall, h⟩ := bind_eq_ok.mp h
    cases h
    obtain ⟨-, -, hcall⟩ := (nextBusinessDayAt10_eq_ok hz).mp hcall
    obtain ⟨hwall, -, htz⟩ := Datetime.ofWall_eq_some hcall
    intro p hp
    simp only [List.mem_cons, List.not_mem_nil, or_false] at hp
    rcases hp with rfl | rfl | rfl
    · exact hemail
    · exact htext (by decide) (orThrow_eq_ok.mp hsms)
    · exact .call htz hwall
  · obtain ⟨sms, hsms, h⟩ := bind_eq_ok.mp h
    cases h
    intro p hp
    simp only [List.mem_cons, List.not_mem_nil, or_false] at hp
    rcases hp with rfl | rfl
    · exact hemail
    · exact htext (by decide) (orThrow_eq_ok.mp hsms)
  · cases h

/-- A call reads ten o'clock. -/
private theorem callReading_ofWindow (z : TimeZone) (u : Int) :
    OfWindow outreachWindowStart outreachWindowEnd (callReading z u) := by
  rw [OfWindow, callReading_timeOfDay]
  decide

/-- The clock shows the time of every proposal. -/
private theorem ProposedFrom.shows (hsteady : z.SteadyOn outreachWindowStart outreachWindowEnd)
    {key : String} {now : OffsetDatetime} {p : ProposedOutreach} (h : ProposedFrom z key now p) :
    p.scheduledAt.Shows key z := by
  cases h with
  | written channel hch hδ htz htime => exact Datetime.shows_of_offset htz key z
  | call htz hwall =>
    refine Datetime.shows_of_window hsteady.regularOn htz ?_
    rw [hwall]
    exact callReading_ofWindow z _

/-- A proposed call is shown as ten o'clock on the first business day. -/
private theorem ProposedFrom.call_reading
    (hsteady : z.SteadyOn outreachWindowStart outreachWindowEnd) {key : String}
    {now : OffsetDatetime} {p : ProposedOutreach} (h : ProposedFrom z key now p)
    (hch : p.channel = .call) :
    z.localWall p.scheduledAt.instant = callReading z now.toDatetime.instant := by
  have hshows := h.shows hsteady
  cases h with
  | written channel hne _ _ _ => exact absurd hch hne
  | call htz hwall => exact (hshows z htz).2.trans hwall

/-- No proposal is for a time before the caller's. -/
private theorem ProposedFrom.notBefore
    (hsteady : z.SteadyOn outreachWindowStart outreachWindowEnd) {key : String}
    {now : OffsetDatetime} {p : ProposedOutreach} (h : ProposedFrom z key now p) :
    now.toDatetime.instant ≤ p.scheduledAt.instant := by
  by_cases hch : p.channel = .call
  · have hread := h.call_reading hsteady hch
    have hlater : z.localWall now.toDatetime.instant < z.localWall p.scheduledAt.instant := by
      have hdays := (skipWeekend_first (z.localWall now.toDatetime.instant / day)).later
      rw [hread]
      simp only [callReading, day, hour, minute, second] at hdays ⊢
      omega
    have hwindow : OfWindow outreachWindowStart outreachWindowEnd
        (z.localWall p.scheduledAt.instant) := by
      rw [hread]
      exact callReading_ofWindow z _
    exact Int.le_of_lt (hsteady.lt_of_localWall_lt hwindow hlater)
  · cases h with
    | written channel _ hδ _ htime =>
      show now.toDatetime.instant ≤ _
      dsimp only
      omega
    | call _ _ => exact absurd rfl hch

/-- The task of an unblocked proposal under the cap is due at a permitted time. -/
private theorem plannedTime_of_proposal (hz : rt.zoneInfo ctx.customer.timezone = some z)
    (hsteady : z.SteadyOn outreachWindowStart outreachWindowEnd) {now : OffsetDatetime}
    {p : ProposedOutreach} (hp : ProposedFrom z ctx.customer.timezone now p)
    (hopen : unblocked ctx p = true) {m : Nat} (hm : m < cap) {o : Outcome}
    (ho : decideProposal rt (policyInput ctx cap m p) p = .ok o) (id : Nat) (clock : Int) :
    PlannedTime rt ctx cap z now.toDatetime.instant m
      (taskRow ctx p.channel id (taskTime rt ctx p).instant clock) := by
  have hb := (unblocked_iff ctx cap m p).mp hopen
  have hshows : (policyInput ctx cap m p).scheduledAt.Shows ctx.customer.timezone z :=
    hp.shows hsteady
  have hnow := hp.notBefore hsteady
  obtain ⟨hr, -, hstored⟩ := decideProposal_ok ho
  have htime := scheduledAt_eq ho
  rw [if_pos ⟨hopen, hm⟩] at htime
  have hrange : InRange (taskTime rt ctx p).instant :=
    Datetime.timestamptz_isSome.mp (Option.isSome_of_eq_some (hstored _ htime))
  obtain ⟨quiet, hq⟩ : ∃ quiet, quietHoursDeferUntil rt (policyInput ctx cap m p) = .ok quiet := by
    cases decideProposal_ending ho with
    | blocked hblock => exact absurd hb hblock
    | capped _ _ quiet hq => exact ⟨quiet, hq⟩
    | allowed _ _ hq => exact ⟨none, hq⟩
    | deferred _ _ time hq => exact ⟨some time, hq⟩
  rw [taskTime_eq hq] at hrange ⊢
  obtain ⟨hlater, hin, hkept⟩ := quietHours_settles hz hsteady hshows hq
  refine ⟨Int.le_trans hnow hlater, fun hch => (hin hch).1, fun hch => ?_, fun d hd hdshows => ?_⟩
  · have hread := hp.call_reading hsteady hch
    have hopen' : InWindow outreachWindowStart outreachWindowEnd z p.scheduledAt.instant := by
      rw [InWindow, hread]
      exact callReading_ofWindow z _
    have hsame : quiet.getD p.scheduledAt = p.scheduledAt := hkept hopen'
    have hdate : callReading z now.toDatetime.instant / day =
        skipWeekend (z.localWall now.toDatetime.instant / day + 1) := by
      simp only [callReading, day, hour, minute, second]
      omega
    show z.localWall (quiet.getD p.scheduledAt).instant % day = _ ∧ FirstBusinessDay _
      (z.localWall (quiet.getD p.scheduledAt).instant / day)
    rw [hsame, hread, hdate]
    exact ⟨callReading_timeOfDay z _, skipWeekend_first _⟩
  · have hinstant : d.instant = (quiet.getD p.scheduledAt).instant := hd
    have hnone : quietHoursDeferUntil rt (policyInput ctx cap m ⟨p.channel, d⟩) = .ok none := by
      by_cases hch : p.channel = .email
      · exact quietHoursDeferUntil_email rt hch
      · obtain ⟨hwindow, hlocal⟩ : InWindow outreachWindowStart outreachWindowEnd z
            (quiet.getD p.scheduledAt).instant ∧
            InRange (z.localWall (quiet.getD p.scheduledAt).instant) := hin hch
        rw [← hinstant] at hrange hwindow hlocal
        exact quietHours_of_inWindow (i := policyInput ctx cap m ⟨p.channel, d⟩) hz hdshows hrange
          hlocal hwindow
    exact ⟨_, evaluatePolicy_allow hb hnone hm, rfl⟩

end

/-- Every task that a pass creates is due at or after the caller's time and, for a text or a
call, in the window; a call is due at ten on the first business day; and the policy, asked
again at the time of a task with the count of its attempt, allows it. -/
theorem planPolicyEvent_plannedTime {rt : Runtime} {ctx : EventContext} {z : TimeZone}
    {now : OffsetDatetime} {cap : Nat} {clock : Int} {s s' : Store} {result : PlannerResult}
    (hz : rt.zoneInfo ctx.customer.timezone = some z)
    (hsteady : z.SteadyOn outreachWindowStart outreachWindowEnd)
    (h : planPolicyEvent rt s ctx now.toDatetime cap clock = .ok (s', result)) :
    ∃ ts, s'.outreachTasks = s.outreachTasks ++ ts ∧ ∀ (k : Nat) (t : OutreachTask),
      ts[k]? = some t → ∃ n, recentAttemptCount s ctx.customerId now.toDatetime = .ok n ∧
        PlannedTime rt ctx cap z now.toDatetime.instant (n + k) t := by
  rcases planPolicyEvent_ok h with ⟨-, rfl⟩ | ⟨n, ps, os, hn, hps, hos, rfl⟩
  · exact ⟨[], (List.append_nil _).symm, fun k t ht => by simp at ht⟩
  · refine ⟨_, rfl, fun k t ht => ⟨n, hn, ?_⟩⟩
    rw [plannedTasks_decideAll clock hos, List.getElem?_map, Option.map_eq_some_iff] at ht
    obtain ⟨⟨p, i⟩, hx, rfl⟩ := ht
    rw [List.getElem?_take] at hx
    split at hx
    · next hroom =>
      obtain ⟨j, hj, hopen, hrank⟩ := openProposals_getElem? hx
      have hlength : os.length = ps.length := by
        have hchannels := congrArg List.length (decideAll_channels (fun _ _ => rfl) hos)
        rwa [List.length_map, List.length_map] at hchannels
      have hlt : j < os.length := by
        rw [hlength]
        exact (List.getElem?_eq_some_iff.mp hj).1
      have ho := decideAll_count hos hj (List.getElem?_eq_getElem hlt)
      have hcount : n + min ((ps.take j).countP (unblocked ctx)) (cap - n) = n + k := by
        rw [hrank]
        omega
      rw [hcount] at ho
      exact plannedTime_of_proposal hz hsteady (proposedFrom_of_mem hz hps p
        (List.mem_of_getElem? hj)) hopen (by omega) ho i clock
    · cases hx

/-- Seven in the evening of a Friday, written at two hours east of UTC. -/
def fridayEvening : OffsetDatetime :=
  ⟨18 * day + 21 * hour, 2 * hour, by decide, by decide⟩

/-- The tasks of a delinquency on that evening. -/
theorem planPolicyEvent_plannedTime_demo :
    ∃ s' result, planPolicyEvent utcRuntime delinquentStore delinquentContext
        fridayEvening.toDatetime 3 0 = .ok (s', result) ∧
      ∃ ts, s'.outreachTasks = delinquentStore.outreachTasks ++ ts ∧
        ∀ (k : Nat) (t : OutreachTask), ts[k]? = some t →
          ∃ n, recentAttemptCount delinquentStore 0 fridayEvening.toDatetime = .ok n ∧
            PlannedTime utcRuntime delinquentContext 3 (.fixed 0 utcOffset_mem)
              fridayEvening.toDatetime.instant (n + k) t :=
  ⟨_, _, rfl, planPolicyEvent_plannedTime rfl (TimeZone.fixed_steadyOn 0 _ _ _) rfl⟩

end Orchestrator.System
