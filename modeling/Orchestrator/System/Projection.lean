import Orchestrator.Base.KeyedLog
import Orchestrator.Domain.IngestionPatch
import Orchestrator.System.Provenance
import Orchestrator.System.Transactions

/-!
# The current tables as views of the event log

The customers and accounts tables hold nothing that the inbound events do not say: each
row is what the events of its own external id leave of a blank row, and the rows stand in
the order of first events. Nothing else that runs writes these tables.
-/

namespace Orchestrator.System

open Base Domain Orchestration Workers

/-- What a stored event leaves in the row of its customer. -/
def writeCustomer (e : InboundEvent) (c : Customer) : Customer :=
  { applyCustomerSnapshot e.payload.customer c with
    optedOut := c.optedOut || e.eventType = .optOutReceived }

/-- What a stored event leaves in the row of its account. -/
def writeAccount (e : InboundEvent) (a : Account) : Account :=
  { applyAccountSnapshot e.payload.account a with status := e.leavesStatus }

/-- Customers in the order of their first events. -/
def customerIds (log : List InboundEvent) : List String :=
  KeyedLog.keys InboundEvent.customerExternalId log

/-- The row of a customer before its first event. -/
def blankCustomer (externalId : String) : Customer := newCustomer externalId ""

/-- The customers table that an event log describes. -/
def customersOf (log : List InboundEvent) : List Customer :=
  KeyedLog.table InboundEvent.customerExternalId writeCustomer blankCustomer log

/-- The row of the customer that an account's first event names. -/
def ownerOf (log : List InboundEvent) (accountExternalId : String) : Nat :=
  ((KeyedLog.about InboundEvent.accountExternalId accountExternalId log).head?).elim 0
    fun e => (customerIds log).idxOf e.customerExternalId

/-- The row of an account before its first event: only its owner is settled. -/
def blankAccount (log : List InboundEvent) (externalId : String) : Account where
  externalId := externalId
  customerId := ownerOf log externalId
  status := .current
  balanceCents := 0
  daysPastDue := 0

/-- The accounts table that an event log describes. -/
def accountsOf (log : List InboundEvent) : List Account :=
  KeyedLog.table InboundEvent.accountExternalId writeAccount (blankAccount log) log

/-- The two tables are the ones that the event log describes. -/
structure Projected (s : Store) : Prop where
  customers : s.customers = customersOf s.inboundEvents
  accounts : s.accounts = accountsOf s.inboundEvents

section

variable {log : List InboundEvent}

/-- The ids of the described customers. -/
theorem customersOf_externalId (log : List InboundEvent) :
    (customersOf log).map Customer.externalId = customerIds log := by
  apply KeyedLog.map_col_table
  · exact fun _ => rfl
  · exact fun _ _ => rfl

/-- The ids of the described accounts. -/
theorem accountsOf_externalId (log : List InboundEvent) :
    (accountsOf log).map Account.externalId =
      KeyedLog.keys InboundEvent.accountExternalId log := by
  apply KeyedLog.map_col_table
  · exact fun _ => rfl
  · exact fun _ _ => rfl

/-- A new event adds its customer behind the others, once. -/
theorem customerIds_append (log : List InboundEvent) (e : InboundEvent) :
    customerIds (log ++ [e]) = customerIds log ++
      if e.customerExternalId ∈ customerIds log then [] else [e.customerExternalId] :=
  KeyedLog.keys_append log e

/-- The owner of a known account does not change. -/
private theorem ownerOf_append {x : String}
    (h : x ∈ KeyedLog.keys InboundEvent.accountExternalId log) (e : InboundEvent) :
    ownerOf (log ++ [e]) x = ownerOf log x := by
  obtain ⟨e₀, hmem, hkey⟩ := KeyedLog.mem_keys.mp h
  have habout : e₀ ∈ KeyedLog.about InboundEvent.accountExternalId x log :=
    List.mem_filter.mpr ⟨hmem, decide_eq_true hkey⟩
  obtain ⟨first, rest, hlist⟩ := List.exists_cons_of_ne_nil (List.ne_nil_of_mem habout)
  have hfirst : first ∈ log :=
    List.mem_of_mem_filter (by rw [KeyedLog.about] at hlist; rw [hlist]; exact List.mem_cons_self)
  have hcustomer : first.customerExternalId ∈ customerIds log :=
    KeyedLog.mem_keys.mpr ⟨first, hfirst, rfl⟩
  have hmore : KeyedLog.about InboundEvent.accountExternalId x (log ++ [e]) =
      first :: (rest ++ KeyedLog.about InboundEvent.accountExternalId x [e]) := by
    rw [KeyedLog.about, List.filter_append, ← KeyedLog.about, hlist]
    rfl
  simp only [ownerOf, hlist, hmore, List.head?_cons, Option.elim_some, customerIds_append]
  exact List.idxOf_append_of_mem hcustomer

/-- The owner of an account that a new event introduces is the event's customer. -/
private theorem ownerOf_new {e : InboundEvent}
    (h : e.accountExternalId ∉ KeyedLog.keys InboundEvent.accountExternalId log) :
    ownerOf (log ++ [e]) e.accountExternalId =
      (customerIds (log ++ [e])).idxOf e.customerExternalId := by
  rw [ownerOf, KeyedLog.about_append_self, KeyedLog.about_eq_nil h]
  rfl

/-- A new event patches the described customers. -/
theorem customersOf_append (log : List InboundEvent) (e : InboundEvent) :
    customersOf (log ++ [e]) = (KeyedLog.patch InboundEvent.customerExternalId writeCustomer
      blankCustomer Customer.externalId log e).apply (customersOf log) := by
  apply KeyedLog.table_append
  · exact fun _ => rfl
  · exact fun _ _ => rfl

/-- A new event patches the described accounts. -/
theorem accountsOf_append (log : List InboundEvent) (e : InboundEvent) :
    accountsOf (log ++ [e]) = (KeyedLog.patch InboundEvent.accountExternalId writeAccount
      (blankAccount (log ++ [e])) Account.externalId log e).apply (accountsOf log) := by
  have hblank : KeyedLog.table InboundEvent.accountExternalId writeAccount
      (blankAccount (log ++ [e])) log = accountsOf log := by
    apply KeyedLog.table_congr
    intro x hx
    simp only [blankAccount, ownerOf_append hx]
  rw [← hblank]
  apply KeyedLog.table_append
  · exact fun _ => rfl
  · exact fun _ _ => rfl

end

/-! ### What the views say of one id -/

private theorem foldl_writeCustomer {es : List InboundEvent} {e : InboundEvent}
    (h : es.getLast? = some e) (c : Customer) :
    es.foldl (fun c e => writeCustomer e c) c =
      { applyCustomerSnapshot e.payload.customer c with
        optedOut := c.optedOut || es.any fun e => e.eventType = .optOutReceived } := by
  induction es generalizing c with
  | nil => cases h
  | cons e' es ih =>
    cases es with
    | nil =>
      obtain rfl := Option.some.inj h
      simp [writeCustomer, applyCustomerSnapshot]
    | cons e'' es =>
      rw [List.getLast?_cons_cons] at h
      rw [List.foldl_cons, ih h, List.any_cons]
      simp [writeCustomer, applyCustomerSnapshot, Bool.or_assoc]

private theorem foldl_writeAccount {es : List InboundEvent} {e : InboundEvent}
    (h : es.getLast? = some e) (a : Account) :
    es.foldl (fun a e => writeAccount e a) a = writeAccount e a := by
  induction es generalizing a with
  | nil => cases h
  | cons e' es ih =>
    cases es with
    | nil =>
      obtain rfl := Option.some.inj h
      rfl
    | cons e'' es =>
      rw [List.getLast?_cons_cons] at h
      rw [List.foldl_cons, ih h]
      rfl

/-- The view of a customer: its latest event's snapshot, opted out by any of its events. -/
theorem customer_view {log : List InboundEvent} {x : String} {e : InboundEvent}
    (h : latest (fun e => e.customerExternalId = x) log = some e) :
    KeyedLog.row InboundEvent.customerExternalId writeCustomer blankCustomer log x =
      { applyCustomerSnapshot e.payload.customer (blankCustomer x) with
        optedOut := log.any fun e =>
          e.customerExternalId = x && e.eventType = .optOutReceived } := by
  have hany : (KeyedLog.about InboundEvent.customerExternalId x log).any
      (fun e => e.eventType = .optOutReceived) =
        log.any fun e => e.customerExternalId = x && e.eventType = .optOutReceived :=
    List.any_filter
  have hlast : (KeyedLog.about InboundEvent.customerExternalId x log).getLast? = some e := h
  rw [KeyedLog.row, foldl_writeCustomer hlast, hany]
  rfl

/-- The view of an account: its latest event's snapshot, paused if that event pauses. -/
theorem account_view {log : List InboundEvent} {x : String} {e : InboundEvent}
    (h : latest (fun e => e.accountExternalId = x) log = some e) :
    KeyedLog.row InboundEvent.accountExternalId writeAccount (blankAccount log) log x =
      writeAccount e (blankAccount log x) := by
  rw [KeyedLog.row]
  exact foldl_writeAccount h _

/-! ### The views through a run -/

section

variable {rt : Runtime} {s : Store} {sub : EventSubmission} {clock : Int} {effect : Effect}

/-- A known id is the id of a described row. -/
private theorem lookup_isSome {ρ : Type} {col : ρ → String} {t : List ρ} {ids : List String}
    (h : t.map col = ids) (x : String) : (Table.lookup col x t).isSome = decide (x ∈ ids) := by
  subst h
  rw [Table.lookup, List.findIdx?_isSome, Bool.eq_iff_iff]
  simp

private theorem customerPatch_eq (h : Projected s) :
    customerPatch sub (knownOf s sub).customer =
      KeyedLog.patch InboundEvent.customerExternalId writeCustomer blankCustomer
        Customer.externalId s.inboundEvents (storedEvent rt sub) := by
  have hids : s.customers.map Customer.externalId = customerIds s.inboundEvents := by
    rw [h.customers, customersOf_externalId]
  have hknown : (knownOf s sub).customer =
      decide (sub.customer.externalId ∈ customerIds s.inboundEvents) := lookup_isSome hids _
  rw [customerPatch, KeyedLog.patch, hknown]
  congr 1
  simp only [decide_eq_true_eq]
  rfl

/-- An upsert's key is the place of its value in the column. -/
private theorem upsertKey_eq_idxOf {ρ : Type} (col : ρ → String) (x : String) (t : List ρ) :
    Table.upsertKey col x t = (t.map col).idxOf x := by
  rw [Table.upsertKey, Table.lookup, ← List.length_map (f := col),
    ← List.findIdx_eq_getD_findIdx?]
  rfl

/-- The key of an event's customer is its place among the customers of the longer log. -/
private theorem customerKey_eq (h : Projected s) :
    customerKey s sub =
      (customerIds (s.inboundEvents ++ [storedEvent rt sub])).idxOf sub.customer.externalId := by
  have hevent : (storedEvent rt sub).customerExternalId = sub.customer.externalId := rfl
  rw [customerKey, upsertKey_eq_idxOf, h.customers, customersOf_externalId, customerIds_append,
    hevent]
  split
  · rw [List.append_nil]
  · next hx =>
    rw [List.idxOf_append, if_neg hx, List.idxOf_cons_self, Nat.zero_add, List.idxOf_eq_length hx]

private theorem accountPatch_eq (h : Projected s) :
    accountPatch sub (knownOf s sub).account (customerKey s sub) =
      KeyedLog.patch InboundEvent.accountExternalId writeAccount
        (blankAccount (s.inboundEvents ++ [storedEvent rt sub])) Account.externalId
        s.inboundEvents (storedEvent rt sub) := by
  have hids : s.accounts.map Account.externalId =
      KeyedLog.keys InboundEvent.accountExternalId s.inboundEvents := by
    rw [h.accounts, accountsOf_externalId]
  have hknown : (knownOf s sub).account = decide (sub.account.externalId ∈
      KeyedLog.keys InboundEvent.accountExternalId s.inboundEvents) := lookup_isSome hids _
  have hevent : (storedEvent rt sub).accountExternalId = sub.account.externalId := rfl
  rw [accountPatch, KeyedLog.patch, hknown, hevent]
  congr 1
  simp only [decide_eq_true_eq]
  split
  · rfl
  · next hx =>
    have hown := ownerOf_new (e := storedEvent rt sub) hx
    rw [hevent] at hown
    rw [blankAccount, hown, customerKey_eq h]
    rfl

/-- An admitted event keeps the tables views of the log. -/
private theorem applied_projected (hu : UniqueIds s) (h : Projected s)
    (hd : Decided rt sub (readsOf rt s sub).optedOut (readsOf rt s sub).recent effect) :
    Projected (applied rt s sub clock effect).1 := by
  have hpatch : (applied rt s sub clock effect).1 = _ := applied_eq_apply hu hd
  have hcustomers : (applied rt s sub clock effect).1.customers =
      (customerPatch sub (knownOf s sub).customer).apply s.customers := by
    rw [hpatch]
    cases effect <;> rfl
  have haccounts : (applied rt s sub clock effect).1.accounts =
      (accountPatch sub (knownOf s sub).account (customerKey s sub)).apply s.accounts := by
    rw [hpatch]
    cases effect <;> rfl
  have hevents : (applied rt s sub clock effect).1.inboundEvents =
      s.inboundEvents ++ [storedEvent rt sub] := by
    cases effect <;> rfl
  constructor
  · rw [hcustomers, hevents, customersOf_append, customerPatch_eq h, h.customers]
  · rw [haccounts, hevents, accountsOf_append, accountPatch_eq h, h.accounts]

/-- Every transaction keeps the tables views of the log. -/
theorem Transaction.projected {s' : Store} (hm : Mirrors s) (h : Projected s)
    (ht : Transaction rt s s') : Projected s' := by
  cases ht with
  | ingested clock hadmitted =>
    exact applied_projected ⟨hm.customerIds, hm.accountIds⟩ h hadmitted.decision
  | wrote => exact ⟨h.customers, h.accounts⟩
  | operatorCancelled =>
    rw [cancelScheduledAccountOutreach_eq]
    exact ⟨h.customers, h.accounts⟩

/-- In every reachable store the customers and accounts tables are the views of the inbound
event log: no other operation of the run, in whatever order, leaves a trace in them. -/
theorem tables_are_views (rt : Runtime) (clock : Int) (ops : List Op) :
    Projected (run (step rt) (start clock) ops).store := by
  have hrun := @run_transaction_invariant rt (fun s => Mirrors s ∧ Projected s)
    ⟨by constructor <;> simp [Store.empty], rfl, rfl⟩ (fun s s' hs hI ht => ?_) clock ops
  · exact hrun.2
  · obtain ⟨clock, hcommit⟩ := ht.commit hs
    exact ⟨hcommit.mirrors hI.1, ht.projected hI.1 hI.2⟩

end

end Orchestrator.System
