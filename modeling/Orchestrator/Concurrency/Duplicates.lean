import Mathlib.Data.List.FinRange
import Orchestrator.Base.Run
import Orchestrator.Domain.IngestionEffect

/-!
# Concurrent duplicate submissions

Several calls of `ingest_event_snapshot` with one event, statement by statement, under
read committed. A `SELECT` reads the committed rows. A flush writes a row only if the
snapshot changes an attribute of the loaded object; an `UPDATE` waits for the row lock
of another call, and an `INSERT` of a key that another call has inserted waits for that
call's end. An insert whose key is committed raises `IntegrityError`, which only the
flush of the inbound event catches. The planner's statements after that flush see no
other call's rows and are one statement, apart from its lock on a customer or account
row. The key-share locks of foreign keys conflict with none of these writes. Calls differ
in their correlation id and their transaction time.
-/

namespace Orchestrator.Concurrency

open Base Domain Orchestration

/-! ### Upserts of the object-relational mapper -/

/-- One upsert by external id: the constructed row, the attributes that the snapshot
sets, and the columns that an `UPDATE` writes, those that differ from the loaded row. -/
structure Upserting (ρ : Type) where
  externalId : ρ → String
  key : String
  new : ρ
  assign : ρ → ρ
  update : ρ → ρ → ρ
  fits : ρ → Bool

/-- A column of an `UPDATE`: unchanged attributes are not written. -/
def changedColumn {α : Type} [DecidableEq α] (new loaded stored : α) : α :=
  if new = loaded then stored else new

/-- `_upsert_customer`, `src/orchestrator/domain/event_ingestion.py:192–217`. -/
def customerUpserting (snapshot : CustomerSnapshot) : Upserting Customer where
  externalId := Customer.externalId
  key := snapshot.externalId
  new := applyCustomerSnapshot snapshot (newCustomer snapshot.externalId snapshot.fullName)
  assign := applyCustomerSnapshot snapshot
  update loaded c :=
    { c with
      fullName := changedColumn snapshot.fullName loaded.fullName c.fullName
      timezone := changedColumn snapshot.timezone loaded.timezone c.timezone
      phoneNumber := changedColumn snapshot.phoneNumber loaded.phoneNumber c.phoneNumber
      email := changedColumn snapshot.email loaded.email c.email
      smsConsent := changedColumn snapshot.smsConsent loaded.smsConsent c.smsConsent
      callConsent := changedColumn snapshot.callConsent loaded.callConsent c.callConsent
      emailConsent := changedColumn snapshot.emailConsent loaded.emailConsent c.emailConsent }
  fits := Customer.fits

/-- `_upsert_account`, `src/orchestrator/domain/event_ingestion.py:220–249`. -/
def accountUpserting (snapshot : AccountSnapshot) (customerId : Nat) : Upserting Account where
  externalId := Account.externalId
  key := snapshot.externalId
  new := newAccount snapshot customerId
  assign := applyAccountSnapshot snapshot
  update loaded a :=
    { a with
      status := changedColumn snapshot.status loaded.status a.status
      balanceCents := changedColumn snapshot.balanceCents loaded.balanceCents a.balanceCents
      daysPastDue := changedColumn snapshot.daysPastDue loaded.daysPastDue a.daysPastDue }
  fits := Account.fits

/-- The uncommitted outcome of an upsert. -/
inductive Pending (ρ : Type) where
  | kept (id : Nat)
  | updated (id : Nat) (loaded : ρ)
  | inserted (row : ρ)
  deriving DecidableEq, Repr

/-- How a flush ends. -/
inductive Flushed (ρ : Type) where
  | waits
  | conflicts
  | refused
  | done (p : Pending ρ)
  deriving DecidableEq, Repr

namespace Pending

variable {ρ : Type}

/-- The table as the transaction sees it. -/
def table (u : Upserting ρ) (t : List ρ) : Pending ρ → List ρ
  | kept _ => t
  | updated id loaded => t.modify id (u.update loaded)
  | inserted row => t ++ [row]

/-- The key of the upserted row. -/
def rowId (t : List ρ) : Pending ρ → Nat
  | kept id | updated id _ => id
  | inserted _ => t.length

/-- The transaction holds the lock of a stored row. -/
def locks (k : Nat) : Pending ρ → Bool
  | updated id _ => id = k
  | _ => false

/-- The transaction has inserted the key. -/
def inserts : Pending ρ → Bool
  | inserted _ => true
  | _ => false

end Pending

namespace Upserting

variable {ρ : Type}

/-- `SELECT` by external id. -/
def select (u : Upserting ρ) (t : List ρ) : Option (Nat × ρ) :=
  (Table.lookup u.externalId u.key t).bind fun k => (t[k]?).map fun r => (k, r)

/-- The flush of an upsert, given the committed table, whether another call has inserted
the key, the rows that other calls have locked, and the loaded row. -/
def flush [DecidableEq ρ] (u : Upserting ρ) (t : List ρ) (inserting : Bool)
    (locked : Nat → Bool) : Option (Nat × ρ) → Flushed ρ
  | none =>
    if !u.fits u.new then .refused
    else if (Table.lookup u.externalId u.key t).isSome then .conflicts
    else if inserting then .waits
    else .done (.inserted u.new)
  | some (k, loaded) =>
    if u.assign loaded = loaded then .done (.kept k)
    else if locked k then .waits
    else if u.fits (u.assign loaded) then .done (.updated k loaded)
    else .refused

end Upserting

/-! ### Calls -/

/-- Where a call is, with the objects that it has loaded and the rows that it has
flushed. `commit` also holds the rows that the planner has locked. -/
inductive Phase where
  | find
  | selectCustomer
  | loadAccounts (customer : Nat × Customer)
  | flushCustomer (found : Option (Nat × Customer)) (known : Option (Nat × Account))
  | selectAccount (customer : Pending Customer) (known : Option (Nat × Account))
  | flushAccount (customer : Pending Customer) (found : Option (Nat × Account))
  | flushEvent (customer : Pending Customer) (account : Pending Account)
  | plan (customer : Pending Customer) (account : Pending Account)
  | commit (customer : Pending Customer) (account : Pending Account)
      (customerLock accountLock : Option Nat)
  | recover (index : UniqueIndex)
  | returned (result : EventIngestionResult)
  | raised (error : Failure)
  deriving DecidableEq

namespace Phase

/-- The call has ended. -/
def finished : Phase → Bool
  | returned _ | raised _ => true
  | _ => false

/-- The customer that the transaction has upserted. -/
def customer : Phase → Option (Pending Customer)
  | selectAccount c _ | flushAccount c _ | flushEvent c _ | plan c _ | commit c _ _ _ => some c
  | _ => none

/-- The account that the transaction has upserted. -/
def account : Phase → Option (Pending Account)
  | flushEvent _ a | plan _ a | commit _ a _ _ => some a
  | _ => none

/-- The transaction has inserted the event. -/
def insertedEvent : Phase → Bool
  | plan _ _ | commit _ _ _ _ => true
  | _ => false

/-- The customer row that the planner has locked. -/
def customerLock : Phase → Option Nat
  | commit _ _ k _ => k
  | _ => none

/-- The account row that the planner has locked. -/
def accountLock : Phase → Option Nat
  | commit _ _ _ k => k
  | _ => none

/-- The end of a call that has read a reply, or could not read it. -/
def replied : Except Failure EventIngestionResult → Phase
  | .ok result => returned result
  | .error error => raised error

/-- The call holds the lock of a customer row. -/
def locksCustomer (k : Nat) (p : Phase) : Bool :=
  p.customer.any (Pending.locks k) || p.customerLock = some k

/-- The call holds the lock of an account row. -/
def locksAccount (k : Nat) (p : Phase) : Bool :=
  p.account.any (Pending.locks k) || p.accountLock = some k

end Phase

/-- What the calls share, and each call's correlation id and transaction time. -/
structure Duplicates (n : Nat) where
  rt : Runtime
  event : EventSubmission
  correlationId : Fin n → Nat
  clock : Fin n → Int

/-- The committed store and the phase of every call. -/
structure Race (n : Nat) where
  store : Store
  calls : Fin n → Phase

variable {n : Nat}

namespace Race

/-- Another call's phase satisfies a predicate. -/
def other (e : Race n) (i : Fin n) (p : Phase → Bool) : Bool :=
  (List.finRange n).any fun j => j ≠ i && p (e.calls j)

/-- Every call is about to start. -/
def begin (s : Store) : Race n := ⟨s, fun _ => .find⟩

end Race

namespace Duplicates

variable (d : Duplicates n)

/-- The arguments of one call. -/
def submission (i : Fin n) : EventSubmission := { d.event with correlationId := d.correlationId i }

/-- The upsert of the customer. -/
def customerUpsert : Upserting Customer := customerUpserting d.event.customer

/-- The upsert of the account for an owner. -/
def accountUpsert (customerId : Nat) : Upserting Account :=
  accountUpserting d.event.account customerId

/-- The store as a transaction sees it after its upserts. -/
def view (s : Store) (c : Pending Customer) (a : Pending Account) : Store :=
  { s with
    customers := c.table d.customerUpsert s.customers
    accounts := a.table (d.accountUpsert (c.rowId s.customers)) s.accounts }

/-- `SELECT` of the event and the reply that it allows. -/
def findEvent (s : Store) : Option (Except Failure EventIngestionResult) :=
  (s.findExistingEvent d.event.source d.event.externalId).map (resultFromExistingEvent s)

/-- The accounts that are loaded with a customer, as far as the event names one. -/
def knownAccount (s : Store) (customerId : Nat) : Option (Nat × Account) :=
  ((d.accountUpsert customerId).select s.accounts).filter fun x => x.2.customerId = customerId

/-- `SELECT` of the account: a row that is already loaded keeps its attributes. -/
def selectAccount (s : Store) (customerId : Nat) (known : Option (Nat × Account)) :
    Option (Nat × Account) :=
  ((d.accountUpsert customerId).select s.accounts).map fun x =>
    (known.filter fun y => y.1 = x.1).getD x

/-- Flush of the customer, `src/orchestrator/domain/event_ingestion.py:200–216`. -/
def flushCustomer (e : Race n) (i : Fin n) (found : Option (Nat × Customer)) : Flushed Customer :=
  d.customerUpsert.flush e.store.customers
    (e.other i fun p => p.customer.any Pending.inserts)
    (fun k => e.other i (Phase.locksCustomer k)) found

/-- Flush of the account, `src/orchestrator/domain/event_ingestion.py:231–248`. -/
def flushAccount (e : Race n) (i : Fin n) (customerId : Nat) (found : Option (Nat × Account)) :
    Flushed Account :=
  (d.accountUpsert customerId).flush e.store.accounts
    (e.other i fun p => p.account.any Pending.inserts)
    (fun k => e.other i (Phase.locksAccount k)) found

/-- The customer row that planning updates: `opted_out`, unless it is already set. -/
def plannedCustomer (s : Store) (c : Pending Customer) : Option Nat :=
  if d.event.eventType = .optOutReceived ∧
      ((c.table d.customerUpsert s.customers)[c.rowId s.customers]?).any (fun c => !c.optedOut) then
    some (c.rowId s.customers)
  else none

/-- The account row that planning updates: `status`, unless the account is paused. -/
def plannedAccount (s : Store) (a : Pending Account) : Option Nat :=
  if d.event.eventType = .accountPaused ∧ d.event.account.status ≠ .paused then
    some (a.rowId s.accounts)
  else none

/-- Another call holds the lock of a row that planning updates. -/
def planWaits (e : Race n) (i : Fin n) (c : Pending Customer) (a : Pending Account) : Bool :=
  (d.plannedCustomer e.store c).any (fun k => e.other i (Phase.locksCustomer k)) ||
    (d.plannedAccount e.store a).any (fun k => e.other i (Phase.locksAccount k))

/-- Planning and commit of one call, `src/orchestrator/domain/event_ingestion.py:144–178`. -/
def process (s : Store) (i : Fin n) (c : Pending Customer) (a : Pending Account) :
    Except Failure (Store × EventIngestionResult) := do
  let row := inboundEventRow d.rt (d.submission i)
  let (inserted, eventId) ← insertInboundEvent (d.view s c a) row
  processInboundEvent d.rt inserted row eventId (d.submission i) (d.clock i)

/-- The next statement of a call, unless it waits or the call has ended. -/
def next (e : Race n) (i : Fin n) : Option (Store × Phase) :=
  match e.calls i with
  | .find =>
    match d.findEvent e.store with
    | some reply => some (e.store, .replied reply)
    | none => some (e.store, .selectCustomer)
  | .selectCustomer =>
    match d.customerUpsert.select e.store.customers with
    | none => some (e.store, .flushCustomer none none)
    | some x => some (e.store, .loadAccounts x)
  | .loadAccounts x => some (e.store, .flushCustomer (some x) (d.knownAccount e.store x.1))
  | .flushCustomer found known =>
    match d.flushCustomer e i found with
    | .waits => none
    | .conflicts => some (e.store, .raised (.integrity .customersExternalId))
    | .refused => some (e.store, .raised (.dataError "customers"))
    | .done c => some (e.store, .selectAccount c known)
  | .selectAccount c known =>
    some (e.store, .flushAccount c (d.selectAccount e.store (c.rowId e.store.customers) known))
  | .flushAccount c found =>
    if found.any (fun x => x.2.customerId ≠ c.rowId e.store.customers) then
      some (e.store, .raised (.eventIngestionValidation
        "Account external_id already belongs to another customer"))
    else
      match d.flushAccount e i (c.rowId e.store.customers) found with
      | .waits => none
      | .conflicts => some (e.store, .raised (.integrity .accountsExternalId))
      | .refused => some (e.store, .raised (.dataError "accounts"))
      | .done a => some (e.store, .flushEvent c a)
  | .flushEvent c a =>
    match insertInboundEvent (d.view e.store c a) (inboundEventRow d.rt (d.submission i)) with
    | .error (.integrity index) => some (e.store, .recover index)
    | .error error => some (e.store, .raised error)
    | .ok _ => if e.other i Phase.insertedEvent then none else some (e.store, .plan c a)
  | .plan c a =>
    if d.planWaits e i c a then none
    else some (e.store, .commit c a (d.plannedCustomer e.store c) (d.plannedAccount e.store a))
  | .commit c a _ _ =>
    match d.process e.store i c a with
    | .ok (s, r) => some (s, .returned r)
    | .error error => some (e.store, .raised error)
  | .recover index =>
    match d.findEvent e.store with
    | some reply => some (e.store, .replied reply)
    | none => some (e.store, .raised (.integrity index))
  | .returned _ | .raised _ => none

/-- One call executes its next statement, if it can. -/
def step (e : Race n) (i : Fin n) : Race n :=
  match d.next e i with
  | some (s, p) => ⟨s, Function.update e.calls i p⟩
  | none => e

/-- No call can execute a statement. -/
def Stuck (e : Race n) : Prop := ∀ i, d.next e i = none

/-- The calls agree: no interleaving makes one raise, every interleaving can be
completed, and a completed one has committed the event once, with what one of the calls
commits alone, and has returned that call's result to all of them. -/
def Agree (s : Store) : Prop :=
  ∀ sched : List (Fin n), let e := run d.step (.begin s) sched
    (∀ i error, e.calls i ≠ .raised error) ∧ (∃ more, d.Stuck (run d.step e more)) ∧
      (d.Stuck e → ∃ w r,
        ingestEventSnapshot d.rt s (d.submission w) (d.clock w) = .ok (e.store, r) ∧
          (e.store.inboundEvents.countP fun x =>
            x.source = d.event.source ∧ x.externalId = d.event.externalId) = 1 ∧
          ∀ i, e.calls i = .returned r)

end Duplicates

end Orchestrator.Concurrency
