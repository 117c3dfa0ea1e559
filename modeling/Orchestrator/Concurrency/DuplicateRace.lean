import Orchestrator.Concurrency.Duplicates
import Orchestrator.System.Replay

/-!
# Which duplicate submissions agree

Until a call commits, every call sees the store from which all of them started, so all
of them upsert the same rows; after the commit the others find the event. Duplicates
agree exactly when two calls cannot both insert the customer or the account: only the
insert of the event is guarded against a concurrent one.
-/

namespace Orchestrator.Concurrency

open Base Domain Orchestration

/-! ### Upserts -/

/-- The laws of the two upserts. -/
structure Upserting.Lawful {ρ : Type} (u : Upserting ρ) : Prop where
  update_self : ∀ r, u.update r r = u.assign r
  externalId_new : u.externalId u.new = u.key
  externalId_update : ∀ loaded r, u.externalId (u.update loaded r) = u.externalId r
  fits_assign : ∀ r, u.externalId r = u.key → u.fits (u.assign r) = u.fits u.new

private theorem changedColumn_self {α : Type} [DecidableEq α] (new loaded : α) :
    changedColumn new loaded loaded = new := by
  unfold changedColumn
  split
  · next h => exact h.symm
  · rfl

/-- The customer upsert is lawful. -/
theorem customerUpserting_lawful (snapshot : CustomerSnapshot) :
    (customerUpserting snapshot).Lawful where
  update_self r := by simp [customerUpserting, changedColumn_self, applyCustomerSnapshot]
  externalId_new := rfl
  externalId_update _ _ := rfl
  fits_assign r h := by
    have hid : r.externalId = snapshot.externalId := h
    simp [customerUpserting, Customer.fits, applyCustomerSnapshot, newCustomer, hid]

/-- The account upsert is lawful. -/
theorem accountUpserting_lawful (snapshot : AccountSnapshot) (customerId : Nat) :
    (accountUpserting snapshot customerId).Lawful where
  update_self r := by simp [accountUpserting, changedColumn_self, applyAccountSnapshot]
  externalId_new := rfl
  externalId_update _ _ := rfl
  fits_assign r h := by
    have hid : r.externalId = snapshot.externalId := h
    simp [accountUpserting, Account.fits, applyAccountSnapshot, newAccount, hid]

namespace Upserting

variable {ρ : Type} [DecidableEq ρ] (u : Upserting ρ)

/-- The outcome of an upsert that nothing blocks. -/
def pending : Option (Nat × ρ) → Pending ρ
  | none => .inserted u.new
  | some (k, loaded) => if u.assign loaded = loaded then .kept k else .updated k loaded

omit [DecidableEq ρ] in
/-- A selected row is stored and has the key. -/
theorem select_eq_some {t : List ρ} {k : Nat} {r : ρ} (h : u.select t = some (k, r)) :
    Table.lookup u.externalId u.key t = some k ∧ t[k]? = some r ∧ u.externalId r = u.key := by
  obtain ⟨i, hi, h⟩ := Option.bind_eq_some_iff.mp h
  obtain ⟨x, hx, h⟩ := Option.map_eq_some_iff.mp h
  cases h
  obtain ⟨y, hy, hkey⟩ := Table.lookup_eq_some hi
  obtain rfl : r = y := Option.some.inj (hx.symm.trans hy)
  exact ⟨hi, hx, hkey⟩

omit [DecidableEq ρ] in
/-- A lookup selects the stored row. -/
theorem select_of_lookup {t : List ρ} {k : Nat}
    (h : Table.lookup u.externalId u.key t = some k) :
    ∃ r, t[k]? = some r ∧ u.externalId r = u.key ∧ u.select t = some (k, r) := by
  obtain ⟨r, hr, hkey⟩ := Table.lookup_eq_some h
  exact ⟨r, hr, hkey, by simp [select, h, hr]⟩

omit [DecidableEq ρ] in
/-- No row is selected exactly if the key is not stored. -/
theorem select_eq_none {t : List ρ} :
    u.select t = none ↔ Table.lookup u.externalId u.key t = none := by
  constructor
  · intro h
    cases hl : Table.lookup u.externalId u.key t with
    | none => rfl
    | some k =>
      obtain ⟨r, -, -, hs⟩ := u.select_of_lookup hl
      rw [h] at hs
      cases hs
  · intro h
    simp [select, h]

end Upserting

private theorem modify_congr {α : Type} {t : List α} {k : Nat} {r : α} {f g : α → α}
    (hr : t[k]? = some r) (h : f r = g r) : t.modify k f = t.modify k g := by
  apply List.ext_getElem?
  intro i
  by_cases hi : k = i
  · subst hi
    simp [hr, h]
  · simp [hi]

/-- The table of an unblocked upsert of a stored row. -/
theorem Pending.table_of_stored {ρ : Type} [DecidableEq ρ] {u : Upserting ρ} (hu : u.Lawful)
    {t : List ρ} {k : Nat} {r : ρ} (hr : t[k]? = some r) :
    (u.pending (some (k, r))).table u t = t.modify k u.assign ∧
      (u.pending (some (k, r))).rowId t = k := by
  simp only [Upserting.pending]
  split
  · next h =>
    refine ⟨?_, rfl⟩
    show t = t.modify k u.assign
    rw [modify_congr hr (show u.assign r = id r from h), List.modify_id]
  · refine ⟨?_, rfl⟩
    show t.modify k (u.update r) = t.modify k u.assign
    exact modify_congr hr (hu.update_self r)

/-- A customer upsert that runs alone is the unblocked one. -/
theorem upsertCustomer_pending {s s' : Store} {snapshot : CustomerSnapshot} {id : Nat}
    (h : upsertCustomer s snapshot = .ok (s', id)) :
    let u := customerUpserting snapshot
    let p := u.pending (u.select s.customers)
    u.fits u.new = true ∧ s' = { s with customers := p.table u s.customers } ∧
      id = p.rowId s.customers := by
  intro u p
  have hu : u.Lawful := customerUpserting_lawful snapshot
  unfold upsertCustomer at h
  split at h
  · next hl =>
    have hp : p = .inserted u.new := by
      rw [show p = u.pending _ from rfl, u.select_eq_none.mpr hl]
      rfl
    dsimp only at h
    split at h
    · next hfits =>
      cases h
      rw [hp]
      exact ⟨hfits, rfl, rfl⟩
    · cases h
  · next k hl =>
    obtain ⟨r, hr, hkey, hs⟩ := u.select_of_lookup hl
    obtain ⟨htable, hid⟩ := Pending.table_of_stored hu hr
    dsimp only at h
    split at h
    · next hfits =>
      cases h
      rw [show p = u.pending _ from rfl, hs, htable, hid]
      refine ⟨?_, rfl, rfl⟩
      rw [← hu.fits_assign r hkey]
      simpa [hr, u, customerUpserting] using hfits
    · cases h

/-- An account upsert that runs alone is the unblocked one, of an account of the owner. -/
theorem upsertAccount_pending {s s' : Store} {snapshot : AccountSnapshot} {customerId id : Nat}
    (h : upsertAccount s snapshot customerId = .ok (s', id)) :
    let u := accountUpserting snapshot customerId
    let p := u.pending (u.select s.accounts)
    u.fits u.new = true ∧ s' = { s with accounts := p.table u s.accounts } ∧
      ∀ x, u.select s.accounts = some x → x.2.customerId = customerId := by
  intro u p
  have hu : u.Lawful := accountUpserting_lawful snapshot customerId
  unfold upsertAccount at h
  split at h
  · next hl =>
    have hnone := u.select_eq_none.mpr hl
    have hp : p = .inserted u.new := by
      rw [show p = u.pending _ from rfl, hnone]
      rfl
    dsimp only at h
    split at h
    · next hfits =>
      cases h
      rw [hp, hnone]
      exact ⟨hfits, rfl, by simp⟩
    · cases h
  · next k hl =>
    obtain ⟨r, hr, hkey, hs⟩ := u.select_of_lookup hl
    obtain ⟨htable, -⟩ := Pending.table_of_stored hu hr
    split at h
    · cases h
    · next hown =>
      dsimp only at h
      split at h
      · next hfits =>
        cases h
        rw [show p = u.pending _ from rfl, hs, htable]
        refine ⟨?_, rfl, ?_⟩
        · rw [← hu.fits_assign r hkey]
          simpa [hr, u, accountUpserting] using hfits
        · rintro x hx
          cases hx
          simpa [hr] using hown
      · cases h

/-- Another call blocks the flush of an upsert. -/
def Pending.blocked {ρ : Type} (inserting : Bool) (locked : Nat → Bool) : Pending ρ → Bool
  | .kept _ => false
  | .updated k _ => locked k
  | .inserted _ => inserting

/-- The flush of a loaded row, or of a key that is not stored, waits or succeeds. -/
theorem Upserting.flush_eq {ρ : Type} [DecidableEq ρ] {u : Upserting ρ} (hu : u.Lawful)
    (hfits : u.fits u.new = true) {t : List ρ} {inserting : Bool} {locked : Nat → Bool}
    {found : Option (Nat × ρ)}
    (hnone : found = none → Table.lookup u.externalId u.key t = none)
    (hsome : ∀ x, found = some x → u.externalId x.2 = u.key) :
    u.flush t inserting locked found =
      if (u.pending found).blocked inserting locked then .waits else .done (u.pending found) := by
  cases found with
  | none => cases inserting <;> simp [flush, pending, Pending.blocked, hfits, hnone rfl]
  | some x =>
    obtain ⟨k, loaded⟩ := x
    have hassign : u.fits (u.assign loaded) = true :=
      (hu.fits_assign loaded (hsome _ rfl)).trans hfits
    by_cases hsame : u.assign loaded = loaded
    · simp [flush, pending, Pending.blocked, hsame]
    · simp [flush, pending, Pending.blocked, hsame, hassign]

/-! ### Other calls -/

variable {n : Nat}

/-- Progress of a call. -/
def Phase.rank : Phase → Nat
  | .find => 0
  | .selectCustomer => 1
  | .loadAccounts _ => 2
  | .flushCustomer _ _ => 3
  | .selectAccount _ _ => 4
  | .flushAccount _ _ => 5
  | .flushEvent _ _ => 6
  | .plan _ _ => 7
  | .commit _ _ _ _ => 8
  | .recover _ => 9
  | .returned _ | .raised _ => 10

@[simp] theorem Phase.rank_replied (reply : Except Failure EventIngestionResult) :
    (Phase.replied reply).rank = 10 := by
  cases reply <;> rfl

/-- Another call blocks the flush of an upsert, where `pending` and `lock` read what a
call has upserted and what its planner has locked. -/
def Race.blocks {ρ : Type} (e : Race n) (i : Fin n) (pending : Phase → Option (Pending ρ))
    (lock : Phase → Option Nat) (c : Pending ρ) : Bool :=
  c.blocked (e.other i fun p => (pending p).any Pending.inserts)
    (fun k => e.other i fun p => (pending p).any (Pending.locks k) || lock p = some k)

/-- Another call blocks the flush of a customer upsert. -/
def Race.blocksCustomer (e : Race n) (i : Fin n) (c : Pending Customer) : Bool :=
  e.blocks i Phase.customer Phase.customerLock c

/-- Another call blocks the flush of an account upsert. -/
def Race.blocksAccount (e : Race n) (i : Fin n) (a : Pending Account) : Bool :=
  e.blocks i Phase.account Phase.accountLock a

theorem Race.other_eq_true {e : Race n} {i : Fin n} {p : Phase → Bool} :
    e.other i p = true ↔ ∃ j, j ≠ i ∧ p (e.calls j) = true := by
  simp [Race.other]

theorem Race.other_eq_false {e : Race n} {i : Fin n} {p : Phase → Bool} :
    e.other i p = false ↔ ∀ j, j ≠ i → p (e.calls j) = false := by
  simp [Race.other]

/-- Every statement takes its call forward. -/
theorem Duplicates.next_rank {d : Duplicates n} {e : Race n} {i : Fin n} {s : Store} {p : Phase}
    (h : d.next e i = some (s, p)) : (e.calls i).rank < p.rank := by
  unfold Duplicates.next at h
  split at h
  all_goals
    next hphase =>
    rw [hphase]
    repeat' split at h
    all_goals first
      | cases h
        rw [Phase.rank_replied]
        simp [Phase.rank]
      | cases h
        simp [Phase.rank]
      | cases h

/-! ### The store from which all calls start -/

namespace Duplicates

variable (d : Duplicates n) (s : Store)

/-- The customer row that the event names. -/
def foundCustomer : Option (Nat × Customer) := d.customerUpsert.select s.customers

/-- The customer upsert of every call that reads this store. -/
def firstCustomer : Pending Customer := d.customerUpsert.pending (d.foundCustomer s)

/-- The customer's key. -/
def owner : Nat := (d.firstCustomer s).rowId s.customers

/-- The account row that the event names. -/
def foundAccount : Option (Nat × Account) := (d.accountUpsert (d.owner s)).select s.accounts

/-- The account upsert of every call that reads this store. -/
def firstAccount : Pending Account := (d.accountUpsert (d.owner s)).pending (d.foundAccount s)

/-- Each call alone is a first ingestion of the event. -/
structure Accepted : Prop where
  unseen : s.findExistingEvent d.event.source d.event.externalId = none
  customer : d.customerUpsert.fits d.customerUpsert.new = true
  account : (d.accountUpsert (d.owner s)).fits (d.accountUpsert (d.owner s)).new = true
  owned : ∀ x, d.foundAccount s = some x → x.2.customerId = d.owner s
  event : ∀ i, ∃ out, insertInboundEvent (d.view s (d.firstCustomer s) (d.firstAccount s))
    (inboundEventRow d.rt (d.submission i)) = .ok out
  process : ∀ i, ∃ s' r, d.process s i (d.firstCustomer s) (d.firstAccount s) = .ok (s', r) ∧
    ingestEventSnapshot d.rt s (d.submission i) (d.clock i) = .ok (s', r)

/-- A successful first ingestion runs through the unblocked upserts. -/
private theorem process_of_ok
    (hunseen : s.findExistingEvent d.event.source d.event.externalId = none) {i : Fin n}
    {s' : Store} {r : EventIngestionResult}
    (h : ingestEventSnapshot d.rt s (d.submission i) (d.clock i) = .ok (s', r)) :
    d.customerUpsert.fits d.customerUpsert.new = true ∧
      (d.accountUpsert (d.owner s)).fits (d.accountUpsert (d.owner s)).new = true ∧
      (∀ x, d.foundAccount s = some x → x.2.customerId = d.owner s) ∧
      (∃ out, insertInboundEvent (d.view s (d.firstCustomer s) (d.firstAccount s))
        (inboundEventRow d.rt (d.submission i)) = .ok out) ∧
      d.process s i (d.firstCustomer s) (d.firstAccount s) = .ok (s', r) := by
  unfold ingestEventSnapshot at h
  have hnone : s.findExistingEvent (d.submission i).source (d.submission i).externalId = none :=
    hunseen
  rw [hnone] at h
  obtain ⟨⟨s₁, cid⟩, hcust, h⟩ := bind_eq_ok.mp h
  obtain ⟨⟨s₂, aid⟩, hacc, h⟩ := bind_eq_ok.mp h
  obtain ⟨hcfits, rfl, rfl⟩ := upsertCustomer_pending hcust
  obtain ⟨hafits, rfl, howned⟩ := upsertAccount_pending hacc
  refine ⟨hcfits, hafits, howned, ?_⟩
  dsimp only at h
  split at h
  · next inserted eventId hins =>
    refine ⟨⟨_, hins⟩, bind_eq_ok.mpr ⟨_, hins, h⟩⟩
  · cases h
  · cases h

/-- Calls that succeed alone are accepted. -/
theorem accepted_of_ok (hunseen : s.findExistingEvent d.event.source d.event.externalId = none)
    (hok : ∀ i, ∃ out, ingestEventSnapshot d.rt s (d.submission i) (d.clock i) = .ok out)
    (i₀ : Fin n) : d.Accepted s := by
  obtain ⟨⟨s₀, r₀⟩, h₀⟩ := hok i₀
  obtain ⟨hcustomer, haccount, howned, -⟩ := d.process_of_ok s hunseen h₀
  refine ⟨hunseen, hcustomer, haccount, howned, fun i => ?_, fun i => ?_⟩
  · obtain ⟨⟨s', r⟩, h⟩ := hok i
    exact (d.process_of_ok s hunseen h).2.2.2.1
  · obtain ⟨⟨s', r⟩, h⟩ := hok i
    exact ⟨s', r, (d.process_of_ok s hunseen h).2.2.2.2, h⟩

/-- Phases of a call that has read nothing but the first store. -/
inductive Before : Phase → Prop where
  | find : Before .find
  | selectCustomer : Before .selectCustomer
  | loadAccounts {x : Nat × Customer} (h : d.foundCustomer s = some x) : Before (.loadAccounts x)
  | flushCustomer {known : Option (Nat × Account)}
      (h : known = none ∨ known = d.foundAccount s) :
      Before (.flushCustomer (d.foundCustomer s) known)
  | selectAccount {known : Option (Nat × Account)} (h : known = none ∨ known = d.foundAccount s) :
      Before (.selectAccount (d.firstCustomer s) known)
  | flushAccount : Before (.flushAccount (d.firstCustomer s) (d.foundAccount s))
  | flushEvent : Before (.flushEvent (d.firstCustomer s) (d.firstAccount s))
  | plan : Before (.plan (d.firstCustomer s) (d.firstAccount s))
  | commit {k k' : Option Nat} : Before (.commit (d.firstCustomer s) (d.firstAccount s) k k')

/-- The statement that takes a call from one such phase to the next, and what it needed. -/
inductive Advance (e : Race n) (i : Fin n) : Phase → Phase → Prop where
  | find : Advance e i .find .selectCustomer
  | unknown (h : d.foundCustomer s = none) : Advance e i .selectCustomer (.flushCustomer none none)
  | known {x : Nat × Customer} (h : d.foundCustomer s = some x) :
      Advance e i .selectCustomer (.loadAccounts x)
  | loaded {x : Nat × Customer} (h : d.foundCustomer s = some x) :
      Advance e i (.loadAccounts x) (.flushCustomer (some x) (d.foundAccount s))
  | customer {known : Option (Nat × Account)} (h : known = none ∨ known = d.foundAccount s)
      (free : e.blocksCustomer i (d.firstCustomer s) = false) :
      Advance e i (.flushCustomer (d.foundCustomer s) known)
        (.selectAccount (d.firstCustomer s) known)
  | selected {known : Option (Nat × Account)} :
      Advance e i (.selectAccount (d.firstCustomer s) known)
        (.flushAccount (d.firstCustomer s) (d.foundAccount s))
  | account (free : e.blocksAccount i (d.firstAccount s) = false) :
      Advance e i (.flushAccount (d.firstCustomer s) (d.foundAccount s))
        (.flushEvent (d.firstCustomer s) (d.firstAccount s))
  | event (free : e.other i Phase.insertedEvent = false) :
      Advance e i (.flushEvent (d.firstCustomer s) (d.firstAccount s))
        (.plan (d.firstCustomer s) (d.firstAccount s))
  | plan {k k' : Option Nat} : Advance e i (.plan (d.firstCustomer s) (d.firstAccount s))
      (.commit (d.firstCustomer s) (d.firstAccount s) k k')

variable {d s}

/-- A call advances within these phases. -/
theorem Advance.before {e : Race n} {i : Fin n} {p q : Phase} (h : d.Advance s e i p q) :
    d.Before s q := by
  cases h with
  | find => exact .selectCustomer
  | unknown h => rw [← h]; exact .flushCustomer (Or.inl rfl)
  | known h => exact .loadAccounts h
  | loaded h => rw [← h]; exact .flushCustomer (Or.inr rfl)
  | customer h _ => exact .selectAccount h
  | selected => exact .flushAccount
  | account => exact .flushEvent
  | event => exact .plan
  | plan => exact .commit

/-- The key of a customer that is found. -/
theorem owner_of_found {x : Nat × Customer} (h : d.foundCustomer s = some x) :
    d.owner s = x.1 := by
  obtain ⟨k, c⟩ := x
  obtain ⟨-, hr, -⟩ := d.customerUpsert.select_eq_some h
  rw [owner, firstCustomer, h]
  exact (Pending.table_of_stored (customerUpserting_lawful d.event.customer) hr).2

private theorem knownAccount_first (ha : d.Accepted s) :
    d.knownAccount s (d.owner s) = d.foundAccount s := by
  rw [knownAccount]
  change (d.foundAccount s).filter _ = _
  cases hf : d.foundAccount s with
  | none => rfl
  | some x => simp [ha.owned x hf]

private theorem selectAccount_first {known : Option (Nat × Account)}
    (h : known = none ∨ known = d.foundAccount s) :
    d.selectAccount s (d.owner s) known = d.foundAccount s := by
  rw [selectAccount]
  change (d.foundAccount s).map _ = _
  rcases h with rfl | rfl
  · cases d.foundAccount s <;> rfl
  · cases d.foundAccount s <;> simp [Option.filter]

private theorem flushCustomer_first {e : Race n} (ha : d.Accepted e.store) (i : Fin n) :
    d.flushCustomer e i (d.foundCustomer e.store) =
      if e.blocksCustomer i (d.firstCustomer e.store) then .waits
      else .done (d.firstCustomer e.store) := by
  apply Upserting.flush_eq (customerUpserting_lawful d.event.customer) ha.customer
  · exact d.customerUpsert.select_eq_none.mp
  · intro x hx
    exact (d.customerUpsert.select_eq_some hx).2.2

private theorem flushAccount_first {e : Race n} (ha : d.Accepted e.store) (i : Fin n) :
    d.flushAccount e i (d.owner e.store) (d.foundAccount e.store) =
      if e.blocksAccount i (d.firstAccount e.store) then .waits
      else .done (d.firstAccount e.store) := by
  apply Upserting.flush_eq (accountUpserting_lawful d.event.account _) ha.account
  · exact (d.accountUpsert (d.owner e.store)).select_eq_none.mp
  · intro x hx
    exact ((d.accountUpsert (d.owner e.store)).select_eq_some hx).2.2

/-- The next statement of a call before the first commit: it advances, waits or commits. -/
inductive Turn (e : Race n) (i : Fin n) (p : Phase) : Option (Store × Phase) → Prop where
  | advances {q : Phase} (h : d.Advance s e i p q) : Turn e i p (some (s, q))
  | waitsCustomer (hp : p.rank = 3) (h : e.blocksCustomer i (d.firstCustomer s) = true) :
      Turn e i p none
  | waitsAccount (hp : p.rank = 5) (h : e.blocksAccount i (d.firstAccount s) = true) :
      Turn e i p none
  | waitsEvent (hp : p.rank = 6) (h : e.other i Phase.insertedEvent = true) : Turn e i p none
  | waitsPlan (hp : p = .plan (d.firstCustomer s) (d.firstAccount s))
      (h : d.planWaits e i (d.firstCustomer s) (d.firstAccount s) = true) : Turn e i p none
  | commits (hp : p.rank = 8) {s' : Store} {r : EventIngestionResult}
      (h : ingestEventSnapshot d.rt s (d.submission i) (d.clock i) = .ok (s', r)) :
      Turn e i p (some (s', .returned r))

/-- Before the first commit a call advances, waits for another one, or commits. -/
theorem next_first (ha : d.Accepted s) {e : Race n} (hstore : e.store = s) {i : Fin n}
    (hb : d.Before s (e.calls i)) : d.Turn (s := s) e i (e.calls i) (d.next e i) := by
  subst hstore
  unfold next
  generalize e.calls i = q at hb ⊢
  cases hb with
  | find =>
    simp only [findEvent, ha.unseen, Option.map_none]
    exact .advances .find
  | selectCustomer =>
    have hselect : d.customerUpsert.select e.store.customers = d.foundCustomer e.store := rfl
    simp only [hselect]
    cases hf : d.foundCustomer e.store with
    | none => exact .advances (.unknown hf)
    | some x => exact .advances (.known hf)
  | @loadAccounts x h =>
    simp only [← owner_of_found h, knownAccount_first ha]
    exact .advances (.loaded h)
  | @flushCustomer known h =>
    simp only [flushCustomer_first ha]
    cases hblocked : e.blocksCustomer i (d.firstCustomer e.store) with
    | true => exact .waitsCustomer rfl hblocked
    | false => exact .advances (.customer h hblocked)
  | @selectAccount known h =>
    change Turn _ _ _ (some (_, .flushAccount _ (d.selectAccount _ (d.owner _) _)))
    rw [selectAccount_first h]
    exact .advances .selected
  | flushAccount =>
    have hown : (d.foundAccount e.store).any
        (fun x => x.2.customerId ≠ (d.firstCustomer e.store).rowId e.store.customers) = false := by
      cases hf : d.foundAccount e.store with
      | none => rfl
      | some x =>
        have hx := ha.owned x hf
        rw [owner] at hx
        simp [hx]
    have hflush := flushAccount_first ha i
    rw [owner] at hflush
    simp only [hown, hflush, Bool.false_eq_true, if_false]
    cases hblocked : e.blocksAccount i (d.firstAccount e.store) with
    | true => exact .waitsAccount rfl hblocked
    | false => exact .advances (.account hblocked)
  | flushEvent =>
    obtain ⟨out, hout⟩ := ha.event i
    simp only [hout]
    cases hblocked : e.other i Phase.insertedEvent with
    | true => exact .waitsEvent rfl hblocked
    | false => exact .advances (.event hblocked)
  | plan =>
    cases hblocked : d.planWaits e i (d.firstCustomer e.store) (d.firstAccount e.store) with
    | true =>
      simp only [hblocked, if_true]
      exact .waitsPlan rfl hblocked
    | false =>
      simp only [hblocked, Bool.false_eq_true, if_false]
      exact .advances .plan
  | commit =>
    obtain ⟨s', r, hprocess, hingest⟩ := ha.process i
    simp only [hprocess]
    exact .commits rfl hingest

end Duplicates

end Orchestrator.Concurrency
