import Orchestrator.Concurrency.DuplicateRace

/-!
# Duplicates before and after the first commit

While no call has committed, a flushed row that others would have to wait for keeps them
behind its call, so at most one call has inserted the event. Once a call has committed,
every call that finds the customer and the account goes on to that call's reply.
-/

namespace Orchestrator.Concurrency

open Base Domain Orchestration

variable {n : Nat}

/-! ### Calls one at a time -/

/-- At most one call has come as far as a rank. -/
def Race.Sole (e : Race n) (m : Nat) : Prop :=
  ∀ i j, m ≤ (e.calls i).rank → m ≤ (e.calls j).rank → i = j

/-- The row of an upsert makes other calls wait. -/
def Pending.holds {ρ : Type} : Pending ρ → Bool
  | .kept _ => false
  | _ => true

/-- No call waits for a customer or account row of this one. -/
structure Phase.Unlocked (p : Phase) : Prop where
  customer : p.customer.any Pending.holds = false
  account : p.account.any Pending.holds = false
  customerLock : p.customerLock = none
  accountLock : p.accountLock = none

namespace Race

variable {e : Race n} {i : Fin n}

/-- A call that moves on alone keeps the order of the others. -/
theorem Sole.update {m : Nat} (h : e.Sole m) {s : Store} {p : Phase}
    (hp : m ≤ p.rank → m ≤ (e.calls i).rank ∨ ∀ j, j ≠ i → (e.calls j).rank < m) :
    Sole ⟨s, Function.update e.calls i p⟩ m := by
  have hother : ∀ j, j ≠ i → m ≤ p.rank → m ≤ (e.calls j).rank → False := by
    intro j hj hm hjm
    rcases hp hm with hi | hlow
    · exact hj (h j i hjm hi)
    · have hlt := hlow j hj
      omega
  intro j k hj hk
  by_cases hji : j = i
  · subst hji
    by_cases hki : k = j
    · exact hki.symm
    · simp only [Function.update_self, Function.update_of_ne hki] at hj hk
      exact (hother k hki hj hk).elim
  · by_cases hki : k = i
    · subst hki
      simp only [Function.update_self, Function.update_of_ne hji] at hj hk
      exact (hother j hji hk hj).elim
    · simp only [Function.update_of_ne hji, Function.update_of_ne hki] at hj hk
      exact h j k hj hk

end Race

private theorem Pending.holds_of_locks {ρ : Type} {k : Nat} {c : Pending ρ}
    (h : c.locks k = true) : c.holds = true := by
  cases c <;> first | rfl | cases h

private theorem Pending.holds_of_inserts {ρ : Type} {c : Pending ρ}
    (h : c.inserts = true) : c.holds = true := by
  cases c <;> first | rfl | cases h

namespace Race

variable {ρ : Type} {e : Race n} {i : Fin n} {pending : Phase → Option (Pending ρ)}
  {lock : Phase → Option Nat}

private theorem blocks_updated (k : Nat) (loaded : ρ) :
    e.blocks i pending lock (.updated k loaded) =
      e.other i fun p => (pending p).any (Pending.locks k) || lock p = some k := rfl

private theorem blocks_inserted (row : ρ) : e.blocks i pending lock (.inserted row) =
    e.other i fun p => (pending p).any Pending.inserts := rfl

/-- A blocked upsert meets a call that holds its row. -/
theorem blocks_eq_true {c : Pending ρ} (h : e.blocks i pending lock c = true) :
    ∃ j, j ≠ i ∧ ((pending (e.calls j)).any Pending.holds = true ∨ lock (e.calls j) ≠ none) := by
  have hany {j : Fin n} {f : Pending ρ → Bool} (hf : ∀ x, f x = true → x.holds = true)
      (hj : (pending (e.calls j)).any f = true) :
      (pending (e.calls j)).any Pending.holds = true := by
    obtain ⟨x, hx, hfx⟩ := (Option.any_eq_true _ _).mp hj
    exact (Option.any_eq_true _ _).mpr ⟨x, hx, hf x hfx⟩
  cases c with
  | kept k => cases h
  | updated k loaded =>
    rw [blocks_updated] at h
    obtain ⟨j, hj, hlock⟩ := other_eq_true.mp h
    refine ⟨j, hj, ?_⟩
    rcases Bool.or_eq_true _ _ ▸ hlock with hpending | hk
    · exact Or.inl (hany (fun _ => Pending.holds_of_locks) hpending)
    · exact Or.inr (by simp [of_decide_eq_true hk])
  | inserted row =>
    rw [blocks_inserted] at h
    obtain ⟨j, hj, hins⟩ := other_eq_true.mp h
    exact ⟨j, hj, Or.inl (hany (fun _ => Pending.holds_of_inserts) hins)⟩

/-- Calls that hold nothing block no upsert. -/
theorem blocks_eq_false (h : ∀ j, j ≠ i → (pending (e.calls j)).any Pending.holds = false ∧
    lock (e.calls j) = none) (c : Pending ρ) : e.blocks i pending lock c = false := by
  apply Bool.eq_false_of_not_eq_true
  intro hblocked
  obtain ⟨j, hj, hheld | hheld⟩ := blocks_eq_true hblocked
  · rw [(h j hj).1] at hheld
    cases hheld
  · exact hheld (h j hj).2

/-- No other call has flushed an upsert that holds its row and is not blocked. -/
theorem ne_of_blocks_eq_false {c : Pending ρ} (hheld : c.holds = true)
    (hfree : e.blocks i pending lock c = false) (j : Fin n) (hj : j ≠ i) :
    pending (e.calls j) ≠ some c := by
  intro hc
  cases c with
  | kept k => cases hheld
  | updated k loaded =>
    rw [blocks_updated] at hfree
    have hnot := other_eq_false.mp hfree j hj
    simp [hc, Pending.locks] at hnot
  | inserted row =>
    rw [blocks_inserted] at hfree
    have hnot := other_eq_false.mp hfree j hj
    simp [hc, Pending.inserts] at hnot

variable (h : ∀ j, j ≠ i → (e.calls j).Unlocked)

include h

/-- Unlocked calls block no customer upsert. -/
theorem blocksCustomer_unlocked (c : Pending Customer) : e.blocksCustomer i c = false :=
  blocks_eq_false (fun j hj => ⟨(h j hj).customer, (h j hj).customerLock⟩) c

/-- Unlocked calls block no account upsert. -/
theorem blocksAccount_unlocked (a : Pending Account) : e.blocksAccount i a = false :=
  blocks_eq_false (fun j hj => ⟨(h j hj).account, (h j hj).accountLock⟩) a

/-- Unlocked calls hold no lock that planning needs. -/
theorem planWaits_unlocked (d : Duplicates n) (c : Pending Customer) (a : Pending Account) :
    d.planWaits e i c a = false := by
  have hcustomer (k : Nat) : e.other i (Phase.locksCustomer k) = false :=
    blocksCustomer_unlocked h (.updated k d.customerUpsert.new)
  have haccount (k : Nat) : e.other i (Phase.locksAccount k) = false :=
    blocksAccount_unlocked h (.updated k (d.accountUpsert 0).new)
  simp [Duplicates.planWaits, hcustomer, haccount]

end Race

namespace Duplicates

variable {d : Duplicates n} {s : Store}

/-! ### Before the first commit -/

/-- What a call before the first commit holds, by its rank. -/
theorem Before.holds {p : Phase} (h : d.Before s p) :
    p.rank ≤ 8 ∧ (4 ≤ p.rank → p.customer = some (d.firstCustomer s)) ∧
      (p.rank < 4 → p.customer = none) ∧
      (6 ≤ p.rank → p.account = some (d.firstAccount s)) ∧
      (p.rank < 6 → p.account = none) ∧
      (p.insertedEvent = true ↔ 7 ≤ p.rank) ∧
      (p.rank < 8 → p.customerLock = none ∧ p.accountLock = none) := by
  cases h <;> simp [Phase.rank, Phase.customer, Phase.account, Phase.insertedEvent,
    Phase.customerLock, Phase.accountLock]

/-- Advancing passes every rank from the flush of the customer on. -/
theorem Advance.rank {e : Race n} {i : Fin n} {p q : Phase} (h : d.Advance s e i p q) :
    q.rank = p.rank + 1 ∨ p.rank < 3 ∧ q.rank = 3 := by
  cases h <;> simp [Phase.rank]

/-- The calls before the first commit. -/
structure First (e : Race n) : Prop where
  store : e.store = s
  before : ∀ i, d.Before s (e.calls i)
  customer : (d.firstCustomer s).holds = true → e.Sole 4
  account : (d.firstAccount s).holds = true → e.Sole 6
  event : e.Sole 7

/-- All calls start before the first commit. -/
theorem first_begin : d.First (s := s) (Race.begin s) where
  store := rfl
  before _ := .find
  customer _ i j h _ := by simp [Race.begin, Phase.rank] at h
  account _ i j h _ := by simp [Race.begin, Phase.rank] at h
  event i j h _ := by simp [Race.begin, Phase.rank] at h

private theorem behind_customer {e : Race n} {i : Fin n} (h : d.First (s := s) e)
    (hheld : (d.firstCustomer s).holds = true)
    (hfree : e.blocksCustomer i (d.firstCustomer s) = false) :
    ∀ j, j ≠ i → (e.calls j).rank < 4 := by
  intro j hj
  by_contra hle
  have hc := (h.before j).holds.2.1 (by omega)
  exact Race.ne_of_blocks_eq_false hheld hfree j hj hc

private theorem behind_account {e : Race n} {i : Fin n} (h : d.First (s := s) e)
    (hheld : (d.firstAccount s).holds = true)
    (hfree : e.blocksAccount i (d.firstAccount s) = false) :
    ∀ j, j ≠ i → (e.calls j).rank < 6 := by
  intro j hj
  by_contra hle
  have ha := (h.before j).holds.2.2.2.1 (by omega)
  exact Race.ne_of_blocks_eq_false hheld hfree j hj ha

private theorem behind_event {e : Race n} {i : Fin n} (h : d.First (s := s) e)
    (hfree : e.other i Phase.insertedEvent = false) : ∀ j, j ≠ i → (e.calls j).rank < 7 := by
  intro j hj
  have hnot := Race.other_eq_false.mp hfree j hj
  have hiff := (h.before j).holds.2.2.2.2.2.1
  by_contra hle
  rw [hiff.mpr (by omega)] at hnot
  cases hnot

/-- Advancing keeps the calls in order. -/
theorem First.advance {e : Race n} {i : Fin n} {q : Phase} (h : d.First (s := s) e)
    (ha : d.Advance s e i (e.calls i) q) :
    d.First (s := s) ⟨s, Function.update e.calls i q⟩ := by
  have hrank := ha.rank
  refine ⟨rfl, ?_, fun hheld => ?_, fun hheld => ?_, ?_⟩
  · exact (Function.forall_update_iff _ fun _ => d.Before s).mpr
      ⟨ha.before, fun j _ => h.before j⟩
  · apply (h.customer hheld).update
    intro hq
    generalize e.calls i = p at ha hrank ⊢
    cases ha with
    | customer hknown hfree => exact Or.inr (behind_customer h hheld hfree)
    | _ => simp only [Phase.rank] at hq ⊢; omega
  · apply (h.account hheld).update
    intro hq
    generalize e.calls i = p at ha hrank ⊢
    cases ha with
    | account hfree => exact Or.inr (behind_account h hheld hfree)
    | _ => simp only [Phase.rank] at hq ⊢; omega
  · apply h.event.update
    intro hq
    generalize e.calls i = p at ha hrank ⊢
    cases ha with
    | event hfree => exact Or.inr (behind_event h hfree)
    | _ => simp only [Phase.rank] at hq ⊢; omega

private theorem unlocked_first {e : Race n} {i : Fin n} (h : d.First (s := s) e)
    (hi : (e.calls i).rank = 7) (j : Fin n) (hj : j ≠ i) : (e.calls j).Unlocked := by
  have hlt : (e.calls j).rank < 7 := by
    by_contra hle
    exact hj (h.event j i (by omega) (by omega))
  obtain ⟨-, hc, hc', ha, ha', -, hlock⟩ := (h.before j).holds
  refine ⟨?_, ?_, (hlock (by omega)).1, (hlock (by omega)).2⟩
  · by_cases hj4 : 4 ≤ (e.calls j).rank
    · rw [hc hj4, Option.any_some]
      apply Bool.eq_false_of_not_eq_true
      intro hheld
      exact hj (h.customer hheld j i hj4 (by omega))
    · rw [hc' (by omega)]
      rfl
  · by_cases hj6 : 6 ≤ (e.calls j).rank
    · rw [ha hj6, Option.any_some]
      apply Bool.eq_false_of_not_eq_true
      intro hheld
      exact hj (h.account hheld j i hj6 (by omega))
    · rw [ha' (by omega)]
      rfl

/-- Before the first commit a call waits only for one that is ahead of it. -/
theorem First.ahead (ha : d.Accepted s) {e : Race n} (h : d.First (s := s) e) {i : Fin n}
    (hnext : d.next e i = none) :
    ∃ j, (e.calls i).rank < (e.calls j).rank ∧ (e.calls j).rank < 10 := by
  have hturn := next_first ha h.store (h.before i)
  rw [hnext] at hturn
  have hbound (j : Fin n) : (e.calls j).rank < 10 := by
    have hle := (h.before j).holds.1
    omega
  cases hturn with
  | waitsCustomer hp hblocked =>
    obtain ⟨j, -, hheld⟩ := Race.blocks_eq_true hblocked
    refine ⟨j, ?_, hbound j⟩
    obtain ⟨-, -, hc, -, -, -, hlock⟩ := (h.before j).holds
    by_contra hle
    rw [hc (by omega), (hlock (by omega)).1] at hheld
    simp at hheld
  | waitsAccount hp hblocked =>
    obtain ⟨j, -, hheld⟩ := Race.blocks_eq_true hblocked
    refine ⟨j, ?_, hbound j⟩
    obtain ⟨-, -, -, -, ha', -, hlock⟩ := (h.before j).holds
    by_contra hle
    rw [ha' (by omega), (hlock (by omega)).2] at hheld
    simp at hheld
  | waitsEvent hp hblocked =>
    obtain ⟨j, -, hins⟩ := Race.other_eq_true.mp hblocked
    have hle := (h.before j).holds.2.2.2.2.2.1.mp hins
    exact ⟨j, by omega, hbound j⟩
  | waitsPlan hp hblocked =>
    rw [Race.planWaits_unlocked (unlocked_first h (by rw [hp]; rfl)) d] at hblocked
    cases hblocked

/-! ### After the first commit -/

/-- What the first commit leaves for the other calls. -/
structure Committed (d : Duplicates n) (cid : Nat) (s' : Store)
    (reply : Except Failure EventIngestionResult) : Prop where
  reply : d.findEvent s' = some reply
  customer : ∃ c, d.customerUpsert.select s'.customers = some (cid, c)
  account : ∃ aid a, (d.accountUpsert cid).select s'.accounts = some (aid, a) ∧ a.customerId = cid
  event : ∀ i c a, insertInboundEvent (d.view s' c a) (inboundEventRow d.rt (d.submission i)) =
    .error (.integrity .inboundEventsSourceExternalId)
  once : (s'.inboundEvents.countP fun x =>
    x.source = d.event.source ∧ x.externalId = d.event.externalId) = 1

/-- The unblocked upsert has the key of the upsert that runs alone. -/
private theorem rowId_of_upsert {ρ : Type} [DecidableEq ρ] {u : Upserting ρ} (hu : u.Lawful)
    {t t' : List ρ} {k : Nat} {r : ρ}
    (h : Table.Upsert u.externalId u.key u.new u.assign t t' k r) :
    (u.pending (u.select t)).rowId t = k := by
  cases h with
  | insert h =>
    rw [u.select_eq_none.mpr h]
    rfl
  | update h hr =>
    obtain ⟨r', hr', -, hs⟩ := u.select_of_lookup h
    rw [hs]
    exact (Pending.table_of_stored hu hr').2

/-- A first ingestion commits what the other calls then find. -/
theorem committed_of_ok (hs : WellFormed s) (ha : d.Accepted s) {i : Fin n} {s' : Store}
    {r : EventIngestionResult}
    (h : ingestEventSnapshot d.rt s (d.submission i) (d.clock i) = .ok (s', r)) :
    d.Committed (d.owner s) s'
      (if cancellationsReadable s then .ok r
        else .error (.untranslatableCharacter "payload")) := by
  have hing := ingestEventSnapshot_ingested hs h
  have hstored : s'.findExistingEvent d.event.source d.event.externalId = some r.eventId :=
    hing.stored
  rcases hing.rows with rfl | ⟨ctx, customers, accounts, hfresh, hcs, has, hes⟩
  · rw [ha.unseen] at hstored
    cases hstored
  have howner : d.owner s = ctx.customerId :=
    rowId_of_upsert (customerUpserting_lawful d.event.customer) hfresh.customer
  have hids : ∀ e ∈ s.inboundEvents,
      (e.source, e.externalId) ≠ (d.event.source, d.event.externalId) :=
    Table.lookup_eq_none.mp ha.unseen
  refine ⟨?_, ?_, ?_, fun j c a => ?_, ?_⟩
  · rw [findEvent, hstored, Option.map_some, System.ingested_reply hs hing]
  · have hl : Table.lookup Customer.externalId d.event.customer.externalId s'.customers =
        some ctx.customerId := by
      rw [hcs, Table.lookup_congr (recordCustomers_externalId ctx customers)]
      exact hfresh.customer.found (fun _ => rfl) rfl
    obtain ⟨c, -, -, hc⟩ := d.customerUpsert.select_of_lookup hl
    exact ⟨c, by rw [howner, hc]⟩
  · have hl : Table.lookup Account.externalId d.event.account.externalId s'.accounts =
        some ctx.accountId := by
      rw [has, Table.lookup_congr (recordAccounts_externalId ctx accounts)]
      exact hfresh.account.found (fun _ => rfl) rfl
    obtain ⟨a, ha', -, hselect⟩ := (d.accountUpsert (d.owner s)).select_of_lookup hl
    refine ⟨ctx.accountId, a, hselect, ?_⟩
    rw [has, recordAccounts_stored ctx hfresh.account.stored, Option.some.injEq] at ha'
    rw [← ha', howner]
    exact hfresh.owner
  · obtain ⟨out, hout⟩ := ha.event j
    have hfits : (inboundEventRow d.rt (d.submission j)).fits = true := by
      cases hf : (inboundEventRow d.rt (d.submission j)).fits with
      | true => rfl
      | false => simp [insertInboundEvent, hf] at hout
    have hany : (d.view s' c a).inboundEvents.any (fun e =>
        e.source = (inboundEventRow d.rt (d.submission j)).source ∧
          e.externalId = (inboundEventRow d.rt (d.submission j)).externalId) = true := by
      show s'.inboundEvents.any _ = true
      rw [hes]
      simp [storedEvent, inboundEventRow, submission]
    rw [insertInboundEvent, hfits, hany]
    rfl
  · rw [hes, List.countP_append]
    have hold : (s.inboundEvents.countP fun x =>
        x.source = d.event.source ∧ x.externalId = d.event.externalId) = 0 := by
      rw [List.countP_eq_zero]
      intro e he heq
      simp only [decide_eq_true_eq] at heq
      exact hids e he (by rw [heq.1, heq.2])
    rw [hold]
    simp [storedEvent, inboundEventRow, submission]

/-- Phases of a call after the commit of another one. -/
inductive After (d : Duplicates n) (cid : Nat) (r : EventIngestionResult) : Phase → Prop where
  | find : After d cid r .find
  | selectCustomer : After d cid r .selectCustomer
  | loadAccounts {c : Customer} (h : c.externalId = d.event.customer.externalId) :
      After d cid r (.loadAccounts (cid, c))
  | flushCustomer {c : Customer} {known : Option (Nat × Account)}
      (h : c.externalId = d.event.customer.externalId)
      (hknown : ∀ x, known = some x →
        x.2.customerId = cid ∧ x.2.externalId = d.event.account.externalId) :
      After d cid r (.flushCustomer (some (cid, c)) known)
  | selectAccount {c : Pending Customer} {known : Option (Nat × Account)}
      (h : ∀ t, c.rowId t = cid)
      (hknown : ∀ x, known = some x →
        x.2.customerId = cid ∧ x.2.externalId = d.event.account.externalId) :
      After d cid r (.selectAccount c known)
  | flushAccount {c : Pending Customer} {x : Nat × Account} (h : ∀ t, c.rowId t = cid)
      (hx : x.2.customerId = cid ∧ x.2.externalId = d.event.account.externalId) :
      After d cid r (.flushAccount c (some x))
  | flushEvent {c : Pending Customer} {a : Pending Account} : After d cid r (.flushEvent c a)
  | recover {index : UniqueIndex} : After d cid r (.recover index)
  | returned : After d cid r (.returned r)

/-- The calls after the first commit. -/
structure Second (d : Duplicates n) (cid : Nat) (r : EventIngestionResult) (e : Race n) : Prop where
  committed : d.Committed cid e.store (.ok r)
  customer : d.customerUpsert.fits d.customerUpsert.new = true
  account : (d.accountUpsert cid).fits (d.accountUpsert cid).new = true
  after : ∀ i, d.After cid r (e.calls i)

private theorem flushCustomer_second {cid : Nat} {r : EventIngestionResult} {e : Race n}
    (h : d.Second cid r e) (i : Fin n) {c : Customer}
    (hc : c.externalId = d.event.customer.externalId) :
    d.flushCustomer e i (some (cid, c)) =
      if e.blocksCustomer i (d.customerUpsert.pending (some (cid, c))) then .waits
      else .done (d.customerUpsert.pending (some (cid, c))) := by
  apply Upserting.flush_eq (customerUpserting_lawful d.event.customer) h.customer
  · rintro ⟨⟩
  · rintro x ⟨⟩
    exact hc

private theorem flushAccount_second {cid : Nat} {r : EventIngestionResult} {e : Race n}
    (h : d.Second cid r e) (i : Fin n) {x : Nat × Account}
    (hx : x.2.externalId = d.event.account.externalId) :
    d.flushAccount e i cid (some x) =
      if e.blocksAccount i ((d.accountUpsert cid).pending (some x)) then .waits
      else .done ((d.accountUpsert cid).pending (some x)) := by
  apply Upserting.flush_eq (accountUpserting_lawful d.event.account cid) h.account
  · rintro ⟨⟩
  · rintro x ⟨⟩
    exact hx

/-- The unblocked upsert of a stored row has its key. -/
theorem rowId_pending {ρ : Type} [DecidableEq ρ] (u : Upserting ρ) (x : Nat × ρ)
    (t : List ρ) : (u.pending (some x)).rowId t = x.1 := by
  simp only [Upserting.pending]
  split <;> rfl

/-- After the first commit a call goes on to the reply, or waits for a row lock of one
that is ahead of it. -/
theorem next_second {cid : Nat} {r : EventIngestionResult} {e : Race n} (h : d.Second cid r e)
    (i : Fin n) : (∃ p, d.next e i = some (e.store, p) ∧ d.After cid r p) ∨
      d.next e i = none ∧ ((e.calls i).rank = 10 ∨
        (e.calls i).rank = 3 ∧ (∃ c, e.blocksCustomer i c = true) ∨
        (e.calls i).rank = 5 ∧ ∃ a, e.blocksAccount i a = true) := by
  have hafter := h.after i
  unfold next
  generalize e.calls i = q at hafter ⊢
  cases hafter with
  | find =>
    simp only [h.committed.reply]
    exact Or.inl ⟨_, rfl, .returned⟩
  | selectCustomer =>
    obtain ⟨c, hc⟩ := h.committed.customer
    simp only [hc]
    exact Or.inl ⟨_, rfl, .loadAccounts (d.customerUpsert.select_eq_some hc).2.2⟩
  | @loadAccounts c hc =>
    refine Or.inl ⟨_, rfl, .flushCustomer hc ?_⟩
    intro x hx
    obtain ⟨hx, hown⟩ := Option.filter_eq_some_iff.mp hx
    exact ⟨by simpa using hown, ((d.accountUpsert cid).select_eq_some hx).2.2⟩
  | @flushCustomer c known hc hknown =>
    simp only [flushCustomer_second h i hc]
    cases hblocked : e.blocksCustomer i (d.customerUpsert.pending (some (cid, c))) with
    | true => exact Or.inr ⟨rfl, Or.inr (Or.inl ⟨rfl, _, hblocked⟩)⟩
    | false => exact Or.inl ⟨_, rfl, .selectAccount (rowId_pending _ _) hknown⟩
  | @selectAccount c known hc hknown =>
    obtain ⟨aid, a, ha, hown⟩ := h.committed.account
    have hselect : ∃ x, d.selectAccount e.store cid known = some x ∧
        x.2.customerId = cid ∧ x.2.externalId = d.event.account.externalId := by
      rw [selectAccount, ha, Option.map_some]
      refine ⟨_, rfl, ?_⟩
      cases hfilter : known.filter fun y => y.1 = aid with
      | none => exact ⟨hown, ((d.accountUpsert cid).select_eq_some ha).2.2⟩
      | some y => exact hknown y (Option.filter_eq_some_iff.mp hfilter).1
    obtain ⟨x, hx, hx'⟩ := hselect
    simp only [hc, hx]
    exact Or.inl ⟨_, rfl, .flushAccount hc hx'⟩
  | @flushAccount c x hc hx =>
    have hown : (some x).any (fun x => x.2.customerId ≠ cid) = false := by simp [hx.1]
    simp only [hc, hown, Bool.false_eq_true, if_false, flushAccount_second h i hx.2]
    cases hblocked : e.blocksAccount i ((d.accountUpsert cid).pending (some x)) with
    | true => exact Or.inr ⟨rfl, Or.inr (Or.inr ⟨rfl, _, hblocked⟩)⟩
    | false => exact Or.inl ⟨_, rfl, .flushEvent⟩
  | @flushEvent c a =>
    simp only [h.committed.event]
    exact Or.inl ⟨_, rfl, .recover⟩
  | recover =>
    simp only [h.committed.reply]
    exact Or.inl ⟨_, rfl, .returned⟩
  | returned => exact Or.inr ⟨rfl, Or.inl rfl⟩

/-- The reply of the first commit stays the reply. -/
theorem Second.step {cid : Nat} {r : EventIngestionResult} {e : Race n} (h : d.Second cid r e)
    (i : Fin n) : d.Second cid r (d.step e i) ∧ (d.step e i).store = e.store := by
  unfold Duplicates.step
  rcases next_second h i with ⟨p, hnext, hp⟩ | ⟨hnext, -⟩
  · rw [hnext]
    refine ⟨⟨h.committed, h.customer, h.account, ?_⟩, rfl⟩
    exact (Function.forall_update_iff _ fun _ => d.After cid r).mpr ⟨hp, fun j _ => h.after j⟩
  · rw [hnext]
    exact ⟨h, rfl⟩

private theorem After.holds {cid : Nat} {r : EventIngestionResult} {p : Phase}
    (h : d.After cid r p) : p.customerLock = none ∧ p.accountLock = none ∧
      (p.customer.isSome = true → 4 ≤ p.rank ∧ p.rank < 10) ∧
      (p.account.isSome = true → 6 ≤ p.rank ∧ p.rank < 10) := by
  cases h <;> simp [Phase.rank, Phase.customer, Phase.account, Phase.customerLock,
    Phase.accountLock]

/-- After the first commit, too, a call waits only for one that is ahead of it. -/
theorem Second.ahead {cid : Nat} {r : EventIngestionResult} {e : Race n} (h : d.Second cid r e)
    {i : Fin n} (hnext : d.next e i = none) :
    (e.calls i).rank = 10 ∨
      ∃ j, (e.calls i).rank < (e.calls j).rank ∧ (e.calls j).rank < 10 := by
  rcases next_second h i with ⟨p, hp, -⟩ | ⟨-, hrank | ⟨hrank, c, hblocked⟩ | ⟨hrank, a, hblocked⟩⟩
  · rw [hnext] at hp
    cases hp
  · exact Or.inl hrank
  · obtain ⟨j, -, hheld⟩ := Race.blocks_eq_true hblocked
    obtain ⟨hlock, -, hcustomer, -⟩ := (h.after j).holds
    rcases hheld with hheld | hheld
    · obtain ⟨c', hc', -⟩ := (Option.any_eq_true _ _).mp hheld
      obtain ⟨hle, hlt⟩ := hcustomer (by simp [hc'])
      exact Or.inr ⟨j, by omega, hlt⟩
    · exact (hheld hlock).elim
  · obtain ⟨j, -, hheld⟩ := Race.blocks_eq_true hblocked
    obtain ⟨-, hlock, -, haccount⟩ := (h.after j).holds
    rcases hheld with hheld | hheld
    · obtain ⟨a', ha', -⟩ := (Option.any_eq_true _ _).mp hheld
      obtain ⟨hle, hlt⟩ := haccount (by simp [ha'])
      exact Or.inr ⟨j, by omega, hlt⟩
    · exact (hheld hlock).elim

end Duplicates

end Orchestrator.Concurrency
