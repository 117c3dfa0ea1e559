import Mathlib.Algebra.Order.BigOperators.Group.Finset
import Orchestrator.Concurrency.DuplicateAgreement

/-!
# When duplicate submissions agree

If the customer is stored and the account is stored or ordered by the customer's row
lock, every call either finds the event or reaches the insert that is guarded, and reads
the reply back if every stored cancellation is readable. Otherwise two calls can both be
about to insert the same customer or account, and the second insert raises; or a call
finds the event and cannot read its reply.
-/

namespace Orchestrator.Concurrency

open Base Domain Orchestration

variable {n : Nat}

/-! ### Every interleaving ends -/

theorem Phase.rank_le (p : Phase) : p.rank ≤ 10 := by
  cases p <;> simp [Phase.rank]

/-- The statements that are left, at most. -/
def Race.remaining (e : Race n) : Nat := ∑ i, (10 - (e.calls i).rank)

/-- An executed statement is not left any more. -/
theorem Duplicates.step_remaining {d : Duplicates n} {e : Race n} {i : Fin n} {s : Store}
    {p : Phase} (h : d.next e i = some (s, p)) : (d.step e i).remaining < e.remaining := by
  have hrank := Duplicates.next_rank h
  have hle := p.rank_le
  have hstep : d.step e i = ⟨s, Function.update e.calls i p⟩ := by
    rw [Duplicates.step, h]
  rw [hstep]
  apply Finset.sum_lt_sum
  · intro j _
    show 10 - (Function.update e.calls i p j).rank ≤ _
    by_cases hj : j = i
    · rw [hj, Function.update_self]
      omega
    · rw [Function.update_of_ne hj]
  · refine ⟨i, Finset.mem_univ i, ?_⟩
    show 10 - (Function.update e.calls i p i).rank < _
    rw [Function.update_self]
    omega

/-- Every interleaving can be completed. -/
theorem Duplicates.exists_stuck (d : Duplicates n) (e : Race n) :
    ∃ more, d.Stuck (run d.step e more) := by
  induction h : e.remaining using Nat.strong_induction_on generalizing e with
  | _ m ih =>
    by_cases hstuck : d.Stuck e
    · exact ⟨[], hstuck⟩
    · obtain ⟨i, hi⟩ := not_forall.mp hstuck
      obtain ⟨⟨s, p⟩, hnext⟩ := Option.ne_none_iff_exists'.mp hi
      obtain ⟨more, hmore⟩ := ih _ (h ▸ Duplicates.step_remaining hnext) (d.step e i) rfl
      exact ⟨i :: more, hmore⟩

/-- If every call that has not ended waits for one that is ahead of it, all have ended. -/
theorem Race.finished_of_ahead {e : Race n}
    (h : ∀ i, (e.calls i).rank = 10 ∨
      ∃ j, (e.calls i).rank < (e.calls j).rank ∧ (e.calls j).rank < 10) :
    ∀ i, (e.calls i).rank = 10 := by
  have hbehind (k : Nat) : ∀ i, 10 - (e.calls i).rank = k → (e.calls i).rank = 10 := by
    induction k using Nat.strong_induction_on with
    | _ k ih =>
      intro i hk
      rcases h i with hi | ⟨j, hij, hj⟩
      · exact hi
      · have hend := ih (10 - (e.calls j).rank) (by omega) j rfl
        omega
  exact fun i => hbehind _ i rfl

namespace Duplicates

variable {d : Duplicates n} {s : Store}

/-! ### Calls that one row orders -/

/-- The customer is stored, and the account is stored too or the event changes the
customer's row, which locks it. -/
def Ordered (d : Duplicates n) (s : Store) : Prop :=
  ∃ (k : Nat) (c : Customer), s.customerByExternalId d.event.customer.externalId = some k ∧
    s.customers[k]? = some c ∧ (applyCustomerSnapshot d.event.customer c ≠ c ∨
      (s.accountByExternalId d.event.account.externalId).isSome = true)

private theorem foundCustomer_of_ordered (h : d.Ordered s) :
    ∃ x, d.foundCustomer s = some x ∧
      ((d.firstCustomer s).holds = true ∨ (d.foundAccount s).isSome = true) := by
  obtain ⟨k, c, hk, hc, h⟩ := h
  obtain ⟨c', hc', -, hfound⟩ := d.customerUpsert.select_of_lookup hk
  obtain rfl : c = c' := Option.some.inj (hc.symm.trans hc')
  refine ⟨(k, c), hfound, ?_⟩
  rcases h with hchange | haccount
  · left
    have hchange : d.customerUpsert.assign c ≠ c := hchange
    rw [firstCustomer, foundCustomer, hfound, Upserting.pending, if_neg hchange]
    rfl
  · right
    obtain ⟨aid, haid⟩ := Option.isSome_iff_exists.mp haccount
    obtain ⟨a, -, -, ha⟩ := (d.accountUpsert (d.owner s)).select_of_lookup haid
    rw [foundAccount, ha]
    rfl

private theorem known_of_first (ha : d.Accepted s) {known : Option (Nat × Account)}
    (h : known = none ∨ known = d.foundAccount s) (x : Nat × Account) (hx : known = some x) :
    x.2.customerId = d.owner s ∧ x.2.externalId = d.event.account.externalId := by
  rcases h with rfl | rfl
  · cases hx
  · exact ⟨ha.owned x hx, ((d.accountUpsert (d.owner s)).select_eq_some hx).2.2⟩

/-- If a row orders the calls and the reply can be read, the first commit leaves the others where
they can go on. -/
theorem First.commit (hs : WellFormed s) (ha : d.Accepted s) (ho : d.Ordered s)
    (hreadable : cancellationsReadable s = true) {e : Race n}
    (h : d.First (s := s) e) {i : Fin n} (hi : (e.calls i).rank = 8) {s' : Store}
    {r : EventIngestionResult}
    (hok : ingestEventSnapshot d.rt s (d.submission i) (d.clock i) = .ok (s', r)) :
    d.Second (d.owner s) r ⟨s', Function.update e.calls i (.returned r)⟩ := by
  obtain ⟨⟨k, c⟩, hfound, hordered⟩ := foundCustomer_of_ordered ho
  have howner := owner_of_found hfound
  have hkey := (d.customerUpsert.select_eq_some hfound).2.2
  have hrow (t : List Customer) : (d.firstCustomer s).rowId t = d.owner s := by
    rw [firstCustomer, hfound, howner, rowId_pending]
  have hcommitted := committed_of_ok hs ha hok
  rw [if_pos hreadable] at hcommitted
  refine ⟨hcommitted, ha.customer, ha.account, ?_⟩
  apply (Function.forall_update_iff _ fun _ => d.After (d.owner s) r).mpr
  refine ⟨.returned, fun j hj => ?_⟩
  have hlt : (e.calls j).rank < 7 := by
    by_contra hle
    exact hj (h.event j i (by omega) (by omega))
  have hbehind : (d.firstCustomer s).holds = true → (e.calls j).rank < 4 := by
    intro hheld
    by_contra hle
    exact hj (h.customer hheld j i (by omega) (by omega))
  have hbefore := h.before j
  generalize e.calls j = p at hbefore hlt hbehind
  cases hbefore with
  | find => exact .find
  | selectCustomer => exact .selectCustomer
  | @loadAccounts x hx =>
    obtain rfl : x = (k, c) := Option.some.inj (hx.symm.trans hfound)
    rw [howner]
    exact .loadAccounts hkey
  | flushCustomer hknown =>
    rw [hfound]
    have hfirst := known_of_first ha hknown
    rw [howner] at hfirst ⊢
    exact .flushCustomer hkey hfirst
  | selectAccount hknown => exact .selectAccount hrow (known_of_first ha hknown)
  | flushAccount =>
    rcases hordered with hheld | haccount
    · have hrank := hbehind hheld
      simp [Phase.rank] at hrank
    · obtain ⟨x, hx⟩ := Option.isSome_iff_exists.mp haccount
      rw [hx]
      exact .flushAccount hrow (known_of_first ha (Or.inr hx.symm) x rfl)
  | flushEvent => exact .flushEvent
  | plan => simp [Phase.rank] at hlt
  | commit => simp [Phase.rank] at hlt

/-- The calls are all before the first commit, or one of them has committed. -/
def Phases (d : Duplicates n) (s : Store) (e : Race n) : Prop :=
  d.First (s := s) e ∨ ∃ w r,
    ingestEventSnapshot d.rt s (d.submission w) (d.clock w) = .ok (e.store, r) ∧
      d.Second (d.owner s) r e

/-- A statement keeps the calls in these phases. -/
theorem step_phases (hs : WellFormed s) (ha : d.Accepted s) (ho : d.Ordered s)
    (hreadable : cancellationsReadable s = true) (e : Race n) (i : Fin n) (h : d.Phases s e) :
    d.Phases s (d.step e i) := by
  rcases h with h | ⟨w, r, hok, h⟩
  · have hturn := next_first ha h.store (h.before i)
    unfold Duplicates.step
    generalize hp : e.calls i = p at hturn
    generalize d.next e i = o at hturn
    cases hturn with
    | advances hadvance =>
      rw [← hp] at hadvance
      exact Or.inl (h.advance hadvance)
    | commits hrank hok =>
      exact Or.inr ⟨i, _, hok, h.commit hs ha ho hreadable (by rw [hp, hrank]) hok⟩
    | _ => exact Or.inl h
  · obtain ⟨h', hstore⟩ := h.step i
    exact Or.inr ⟨w, r, by rw [hstore, hok], h'⟩

/-- Ordered calls whose reply can be read agree. -/
theorem agree_of_ordered (hs : WellFormed s) (ha : d.Accepted s) (ho : d.Ordered s)
    (hreadable : cancellationsReadable s = true) (i₀ : Fin n) : d.Agree s := by
  intro sched e
  have hphases : d.Phases s e :=
    run_invariant (I := d.Phases s) (step_phases hs ha ho hreadable) (.begin s)
      (Or.inl first_begin) sched
  refine ⟨fun i error hraised => ?_, d.exists_stuck e, fun hstuck => ?_⟩
  · rcases hphases with h | ⟨w, r, -, h⟩
    · have hi := h.before i
      rw [hraised] at hi
      cases hi
    · have hi := h.after i
      rw [hraised] at hi
      cases hi
  · rcases hphases with h | ⟨w, r, hok, h⟩
    · have hend := Race.finished_of_ahead (fun i => Or.inr (h.ahead ha (hstuck i))) i₀
      have hle := (h.before i₀).holds.1
      omega
    · have hend := Race.finished_of_ahead fun i => h.ahead (hstuck i)
      refine ⟨w, r, hok, h.committed.once, fun i => ?_⟩
      have hi := h.after i
      have hrank := hend i
      generalize e.calls i = p at hi hrank ⊢
      cases hi <;> first | rfl | cases hrank

/-! ### Calls that no row orders -/

/-- A call that no other one can block runs through every later rank. -/
theorem exists_reach (ha : d.Accepted s) {i : Fin n} {m : Nat} (hm : 3 ≤ m ∧ m ≤ 8) {e : Race n}
    (hstore : e.store = s) (hb : d.Before s (e.calls i)) (hrank : (e.calls i).rank ≤ m)
    (hothers : ∀ j, j ≠ i → (e.calls j).Unlocked ∧ (e.calls j).insertedEvent = false) :
    ∃ k, let e' := run d.step e (List.replicate k i)
      e'.store = s ∧ d.Before s (e'.calls i) ∧ (e'.calls i).rank = m ∧
        ∀ j, j ≠ i → e'.calls j = e.calls j := by
  induction hleft : m - (e.calls i).rank using Nat.strong_induction_on generalizing e with
  | _ left ih =>
    by_cases hdone : (e.calls i).rank = m
    · exact ⟨0, hstore, hb, hdone, fun _ _ => rfl⟩
    · have hunlocked : ∀ j, j ≠ i → (e.calls j).Unlocked := fun j hj => (hothers j hj).1
      obtain ⟨q, hnext, hadvance⟩ : ∃ q, d.next e i = some (s, q) ∧
          d.Advance s e i (e.calls i) q := by
        have hturn := next_first ha hstore hb
        cases hturn' : d.next e i with
        | none =>
          rw [hturn'] at hturn
          cases hturn with
          | waitsCustomer _ hblocked =>
            rw [Race.blocksCustomer_unlocked hunlocked] at hblocked
            cases hblocked
          | waitsAccount _ hblocked =>
            rw [Race.blocksAccount_unlocked hunlocked] at hblocked
            cases hblocked
          | waitsEvent _ hblocked =>
            rw [Race.other_eq_false.mpr fun j hj => (hothers j hj).2] at hblocked
            cases hblocked
          | waitsPlan _ hblocked =>
            rw [Race.planWaits_unlocked hunlocked d] at hblocked
            cases hblocked
        | some out =>
          rw [hturn'] at hturn
          cases hturn with
          | advances h => exact ⟨_, rfl, h⟩
          | commits hp _ => omega
      have hstep : d.step e i = ⟨s, Function.update e.calls i q⟩ := by
        rw [Duplicates.step, hnext]
      have hq : (d.step e i).calls i = q := by rw [hstep]; exact Function.update_self ..
      have hframe (j : Fin n) (hj : j ≠ i) : (d.step e i).calls j = e.calls j := by
        rw [hstep]
        exact Function.update_of_ne hj ..
      have hqrank := hadvance.rank
      obtain ⟨k, hk, hk', hkrank, hkframe⟩ := ih (m - ((d.step e i).calls i).rank)
        (by rw [hq]; omega) (by rw [hstep]) (by rw [hq]; exact hadvance.before)
        (by rw [hq]; omega) (fun j hj => by rw [hframe j hj]; exact hothers j hj) rfl
      exact ⟨k + 1, hk, hk', hkrank, fun j hj => (hkframe j hj).trans (hframe j hj)⟩

/-- A call that no other one can block commits, while the others stay where they are. -/
theorem exists_commit (ha : d.Accepted s) {w : Fin n} {e : Race n} (hstore : e.store = s)
    (hw : e.calls w = .find)
    (hothers : ∀ j, j ≠ w → (e.calls j).Unlocked ∧ (e.calls j).insertedEvent = false) :
    ∃ k s' r, ingestEventSnapshot d.rt s (d.submission w) (d.clock w) = .ok (s', r) ∧
      (run d.step e (List.replicate k w ++ [w])).store = s' ∧
        ∀ j, j ≠ w → (run d.step e (List.replicate k w ++ [w])).calls j = e.calls j := by
  obtain ⟨k, hstore', hb, hrank, hframe⟩ := exists_reach ha (m := 8) (by omega) hstore
    (i := w) (by rw [hw]; exact .find) (by rw [hw]; simp [Phase.rank]) hothers
  generalize he : run d.step e (List.replicate k w) = e' at hstore' hb hrank hframe
  have hturn := next_first ha hstore' hb
  cases hnext : d.next e' w with
  | none =>
    rw [hnext] at hturn
    cases hturn with
    | waitsPlan hp _ => rw [hp] at hrank; cases hrank
    | _ => omega
  | some out =>
    rw [hnext] at hturn
    cases hturn with
    | advances hadvance =>
      have hle := hadvance.before.holds.1
      have hq := hadvance.rank
      omega
    | @commits _ s' r hok =>
      refine ⟨k, s', r, hok, ?_, fun j hj => ?_⟩
      all_goals rw [run_concat, he, Duplicates.step, hnext]
      exact (Function.update_of_ne hj ..).trans (hframe j hj)

private theorem find_idle : Phase.find.Unlocked ∧ Phase.find.insertedEvent = false :=
  ⟨⟨rfl, rfl, rfl, rfl⟩, rfl⟩

/-- A call can stop before a flush until another call has committed. -/
theorem exists_overtaken (hs : WellFormed s) (ha : d.Accepted s) {w i : Fin n} (hwi : w ≠ i)
    {m : Nat} (hm : 3 ≤ m ∧ m ≤ 8)
    (hidle : ∀ p, d.Before s p → p.rank = m → p.Unlocked ∧ p.insertedEvent = false) :
    ∃ sched p reply, d.Before s p ∧ p.rank = m ∧
      d.Committed (d.owner s) (run d.step (.begin s) sched).store reply ∧
      (run d.step (.begin s) sched).calls i = p := by
  obtain ⟨k, hstore, hb, hrank, hframe⟩ := exists_reach ha hm (e := .begin s) (i := i) rfl .find
    (by simp [Race.begin, Phase.rank]) (fun _ _ => find_idle)
  generalize he : run d.step (.begin s) (List.replicate k i) = e at hstore hb hrank hframe
  obtain ⟨k', s', r, hok, hstore', hframe'⟩ := exists_commit ha hstore (hframe w hwi)
    (fun j hj => by
      by_cases hji : j = i
      · rw [hji]
        exact hidle _ hb hrank
      · rw [hframe j hji]
        exact find_idle)
  have hrun : run d.step (.begin s) (List.replicate k i ++ (List.replicate k' w ++ [w])) =
      run d.step e (List.replicate k' w ++ [w]) := by
    rw [run_append, he]
  have hcommitted := committed_of_ok hs ha hok
  rw [← hstore', ← hrun] at hcommitted
  rw [← hrun] at hframe'
  exact ⟨_, e.calls i, _, hb, hrank, hcommitted, hframe' i hwi.symm⟩

private theorem next_of_find {e : Race n} {i : Fin n} (hphase : e.calls i = .find) {cid : Nat}
    {error : Failure} (h : d.Committed cid e.store (.error error)) :
    d.next e i = some (e.store, .raised error) := by
  simp only [next, hphase, h.reply, Phase.replied]

private theorem next_of_flushCustomer {e : Race n} {i : Fin n} (ha : d.Accepted s)
    {known : Option (Nat × Account)} (hphase : e.calls i = .flushCustomer none known)
    {cid : Nat} {reply : Except Failure EventIngestionResult}
    (h : d.Committed cid e.store reply) :
    d.next e i = some (e.store, .raised (.integrity .customersExternalId)) := by
  obtain ⟨c, hc⟩ := h.customer
  have hflush : d.flushCustomer e i none = .conflicts := by
    simp [flushCustomer, Upserting.flush, ha.customer, (d.customerUpsert.select_eq_some hc).1]
  simp only [next, hphase, hflush]

private theorem next_of_flushAccount {e : Race n} {i : Fin n} (ha : d.Accepted s)
    (hphase : e.calls i = .flushAccount (.kept (d.owner s)) none)
    {reply : Except Failure EventIngestionResult} (h : d.Committed (d.owner s) e.store reply) :
    d.next e i = some (e.store, .raised (.integrity .accountsExternalId)) := by
  obtain ⟨aid, a, hselect, -⟩ := h.account
  have hflush : d.flushAccount e i (d.owner s) none = .conflicts := by
    simp [flushAccount, Upserting.flush, ha.account,
      ((d.accountUpsert (d.owner s)).select_eq_some hselect).1]
  have hid (t : List Customer) : (Pending.kept (d.owner s)).rowId t = d.owner s := rfl
  simp only [next, hphase, hid, hflush, Option.any_none, Bool.false_eq_true, if_false]

private theorem raised_of_next {sched : List (Fin n)} {i : Fin n} {t : Store} {error : Failure}
    (h : d.next (run d.step (.begin s) sched) i = some (t, .raised error)) :
    ∃ sched error, (run d.step (.begin s) sched).calls i = .raised error := by
  refine ⟨sched ++ [i], error, ?_⟩
  rw [run_concat, Duplicates.step, h]
  exact Function.update_self ..

/-- If a stored cancellation is unreadable, a call that finds the committed event raises. -/
theorem exists_unread (hs : WellFormed s) (ha : d.Accepted s)
    (hunreadable : ¬ cancellationsReadable s = true) {w i : Fin n} (hwi : w ≠ i) :
    ∃ sched error, (run d.step (.begin s) sched).calls i = .raised error := by
  obtain ⟨k, s', r, hok, hstore, hframe⟩ :=
    exists_commit ha (e := .begin s) (w := w) rfl rfl fun _ _ => find_idle
  have hcommitted := committed_of_ok hs ha hok
  rw [if_neg hunreadable, ← hstore] at hcommitted
  exact raised_of_next (next_of_find (hframe i hwi.symm) hcommitted)

/-- If no row orders the calls, an insert that nothing guards can lose the race. -/
theorem exists_raised (hs : WellFormed s) (ha : d.Accepted s) (ho : ¬ d.Ordered s) {w i : Fin n}
    (hwi : w ≠ i) : ∃ sched error, (run d.step (.begin s) sched).calls i = .raised error := by
  cases hfound : d.foundCustomer s with
  | none =>
    have hidle (p : Phase) (hb : d.Before s p) (hp : p.rank = 3) :
        p.Unlocked ∧ p.insertedEvent = false := by
      cases hb with
      | flushCustomer _ => exact ⟨⟨rfl, rfl, rfl, rfl⟩, rfl⟩
      | _ => cases hp
    obtain ⟨sched, p, r, hb, hp, hcommitted, hphase⟩ :=
      exists_overtaken hs ha hwi (by omega) hidle
    cases hb with
    | flushCustomer hknown =>
      rw [hfound] at hphase
      exact raised_of_next (next_of_flushCustomer ha hphase hcommitted)
    | _ => cases hp
  | some x =>
    obtain ⟨k, c⟩ := x
    obtain ⟨hlookup, hrow, -⟩ := d.customerUpsert.select_eq_some hfound
    have hsame : d.customerUpsert.assign c = c := by
      by_contra hchange
      exact ho ⟨k, c, hlookup, hrow, Or.inl hchange⟩
    have hnew : d.foundAccount s = none := by
      cases haccount : d.foundAccount s with
      | none => rfl
      | some x =>
        obtain ⟨aid, a⟩ := x
        have ha := ((d.accountUpsert (d.owner s)).select_eq_some haccount).1
        have hisSome : (s.accountByExternalId d.event.account.externalId).isSome = true :=
          Option.isSome_iff_exists.mpr ⟨aid, ha⟩
        exact (ho ⟨k, c, hlookup, hrow, Or.inr hisSome⟩).elim
    have hkept : d.firstCustomer s = .kept (d.owner s) := by
      rw [owner_of_found hfound, firstCustomer, hfound, Upserting.pending, if_pos hsame]
    have hidle (p : Phase) (hb : d.Before s p) (hp : p.rank = 5) :
        p.Unlocked ∧ p.insertedEvent = false := by
      cases hb with
      | flushAccount => exact ⟨⟨by rw [hkept]; rfl, rfl, rfl, rfl⟩, rfl⟩
      | _ => cases hp
    obtain ⟨sched, p, r, hb, hp, hcommitted, hphase⟩ :=
      exists_overtaken hs ha hwi (by omega) hidle
    cases hb with
    | flushAccount =>
      rw [hkept, hnew] at hphase
      exact raised_of_next (next_of_flushAccount ha hphase hcommitted)
    | _ => cases hp

/-- From every reachable store, two or more calls with a fresh event that each of them
could ingest agree if and only if the customer is stored, the account is stored or
the event changes the customer's row, and every stored cancellation is readable. -/
theorem duplicates_agree_iff (d : Duplicates n) (clock : Int) (ops : List System.Op)
    (hn : 2 ≤ n) :
    let s := (run (System.step d.rt) (System.start clock) ops).store
    s.findExistingEvent d.event.source d.event.externalId = none →
      (∀ i, ∃ out, ingestEventSnapshot d.rt s (d.submission i) (d.clock i) = .ok out) →
        (d.Agree s ↔ d.Ordered s ∧
          ∀ a ∈ s.auditEvents, isCancellation a = true → a.payload.readable = true) := by
  intro s hunseen hok
  rw [← System.cancellationsReadable_iff]
  have hs : WellFormed s := System.run_wellFormed d.rt clock ops
  have ha : d.Accepted s := d.accepted_of_ok s hunseen hok ⟨0, by omega⟩
  have hne : (⟨0, by omega⟩ : Fin n) ≠ ⟨1, by omega⟩ := by simp
  constructor
  · intro hagree
    constructor
    · by_contra ho
      obtain ⟨sched, error, hraised⟩ := exists_raised hs ha ho hne
      exact (hagree sched).1 _ error hraised
    · by_contra hunreadable
      obtain ⟨sched, error, hraised⟩ := exists_unread hs ha hunreadable hne
      exact (hagree sched).1 _ error hraised
  · rintro ⟨ho, hreadable⟩
    exact agree_of_ordered hs ha ho hreadable ⟨0, by omega⟩

end Duplicates

/-! ### Two calls on a small deployment -/

/-- Two calls with one payment failure, for an account. -/
def demoDuplicates (externalId account : String) : Duplicates 2 where
  rt := System.demoRuntime
  event := System.demoEvent externalId .paymentFailed account System.demoNoon
  correlationId i := i
  clock _ := 0

private theorem exists_of_toBool {ε α : Type} {x : Except ε α} (h : x.toBool = true) :
    ∃ a, x = .ok a := by
  cases x with
  | error e => cases h
  | ok a => exact ⟨a, rfl⟩

/-- The first event of a customer: the second insert of the customer raises. -/
theorem duplicates_disagree :
    (∀ i, ∃ out, ingestEventSnapshot System.demoRuntime Store.empty
      ((demoDuplicates "event-1" "acct-1").submission i) 0 = .ok out) ∧
    ¬ (demoDuplicates "event-1" "acct-1").Agree Store.empty := by
  refine ⟨fun i => exists_of_toBool (by revert i; decide +kernel), fun h => ?_⟩
  exact (h [1, 1, 0, 0, 0, 0, 0, 0, 0, 0, 1]).1 1 (.integrity .customersExternalId)
    (by decide +kernel)

/-- The second event of a customer and an account. -/
theorem duplicates_agree_iff_demo :
    (demoDuplicates "event-2" "acct-1").Agree
      (run (System.step System.demoRuntime) (System.start 0)
        [.ingestEvent (System.demoEvent "event-1" .paymentFailed "acct-1"
          System.demoNoon)]).store :=
  ((demoDuplicates "event-2" "acct-1").duplicates_agree_iff 0
    [.ingestEvent (System.demoEvent "event-1" .paymentFailed "acct-1" System.demoNoon)] (by decide)
    (by decide +kernel) (fun i => exists_of_toBool (by revert i; decide +kernel))).mpr
    ⟨⟨0, applyCustomerSnapshot System.demoCustomer (newCustomer "cust-1" "Ada"),
      by decide +kernel, by decide +kernel, Or.inr (by decide +kernel)⟩, by decide +kernel⟩

end Orchestrator.Concurrency
