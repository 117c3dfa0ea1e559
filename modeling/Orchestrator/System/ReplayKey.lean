import Orchestrator.Api.Admission
import Orchestrator.Base.Text
import Orchestrator.System.Ledger

/-!
# The replay key

The key of an event hashes its source and its external id, joined by a separator. The
stored keys are derived from the stored identities and are distinct; a new identity has a
key of its own exactly when it regroups no stored one.
-/

namespace Orchestrator.System

open Api Base Domain

/-- The separator of the hashed text, `src/orchestrator/domain/inbound_events.py:11`. -/
def keySeparator : Char := '\x1f'

/-- An identity whose separators make the hashed text of another identity. -/
def Collides (e : InboundEvent) (sub : EventSubmission) : Prop :=
  Regrouped keySeparator e.source e.externalId sub.source sub.externalId ∨
    Regrouped keySeparator sub.source sub.externalId e.source e.externalId

/-- Stored keys are derived and distinct. -/
structure KeysDerived (rt : Runtime) (s : Store) : Prop where
  derived : ∀ e ∈ s.inboundEvents,
    e.idempotencyKey = inboundEventIdempotencyKey rt e.source e.externalId
  distinct : (s.inboundEvents.map InboundEvent.idempotencyKey).Nodup

section

variable {rt : Runtime} {s s' : Store} {sub : EventSubmission}

/-- Under an injective hash, keys are equal when identities are equal or regroup one another. -/
theorem idempotencyKey_eq (hsha : Function.Injective rt.sha256hex) {x y x' y' : String} :
    inboundEventIdempotencyKey rt x y = inboundEventIdempotencyKey rt x' y' ↔
      (x = x' ∧ y = y') ∨ Regrouped keySeparator x y x' y' ∨
        Regrouped keySeparator x' y' x y := by
  have hseparator : "\x1f" = String.singleton keySeparator := rfl
  unfold inboundEventIdempotencyKey
  rw [String.append_right_inj, hsha.eq_iff, hseparator, join_eq_join]

/-- The key of an unseen event is taken exactly when it collides with a stored one. -/
theorem keyTaken_iff (hsha : Function.Injective rt.sha256hex) (hk : KeysDerived rt s)
    (hnew : s.findExistingEvent sub.source sub.externalId = none) :
    (readsOf rt s sub).keyTaken = true ↔ ∃ e ∈ s.inboundEvents, Collides e sub := by
  have hne : ∀ e ∈ s.inboundEvents, ¬(e.source = sub.source ∧ e.externalId = sub.externalId) := by
    intro e he h
    exact Table.lookup_eq_none.mp hnew e he (Prod.ext h.1 h.2)
  simp only [readsOf, List.any_eq_true, decide_eq_true_eq]
  refine exists_congr fun e => and_congr_right fun he => ?_
  rw [hk.derived e he, idempotencyKey_eq hsha, Collides]
  simp [hne e he]

/-- Every transaction keeps the keys derived and distinct. -/
theorem Transaction.keysDerived (hk : KeysDerived rt s) (h : Transaction rt s s') :
    KeysDerived rt s' := by
  cases h with
  | @ingested sub effect clock h =>
    have hfree : ∀ e ∈ s.inboundEvents,
        e.idempotencyKey ≠ inboundEventIdempotencyKey rt sub.source sub.externalId := by
      have hkey := (decideIngestion_ok h.decided).2.1
      simpa [readsOf] using hkey
    constructor
    · intro e he
      rw [applied_inboundEvents, List.mem_append, List.mem_singleton] at he
      rcases he with he | rfl
      · exact hk.derived e he
      · rfl
    · rw [applied_inboundEvents, List.map_append, List.nodup_append]
      refine ⟨hk.distinct, by simp, ?_⟩
      intro key hold key' hnew he
      obtain ⟨e, hmem, rfl⟩ := List.mem_map.mp hold
      obtain rfl := List.mem_singleton.mp hnew
      exact hfree e hmem he
  | wrote row hw payload => exact ⟨hk.derived, hk.distinct⟩
  | operatorCancelled row =>
    rw [cancelScheduledAccountOutreach_eq]
    exact ⟨hk.derived, hk.distinct⟩

end

/-- Stored keys of every reachable store are derived and distinct. -/
theorem run_keysDerived (rt : Runtime) (clock : Int) (ops : List Op) :
    KeysDerived rt (run (step rt) (start clock) ops).store :=
  run_transaction_invariant ⟨by simp [Store.empty], by simp [Store.empty]⟩
    (fun _ _ _ hk h => h.keysDerived hk) clock ops

/-- An accepted event whose key collides is refused, as long as its account is its own and
its integers fit. -/
theorem collision_refused {rt : Runtime} (hsha : Function.Injective rt.sha256hex) (clock : Int)
    (ops : List Op) {sub : EventSubmission} (hadmissible : Admissible rt sub)
    (hfits : IntegersFit sub.account)
    (hnew : (run (step rt) (start clock) ops).store.findExistingEvent sub.source sub.externalId =
      none)
    (hown : (readsOf rt (run (step rt) (start clock) ops).store sub).foreign = false)
    (hcollides : ∃ e ∈ (run (step rt) (start clock) ops).store.inboundEvents, Collides e sub)
    (now : Int) :
    ingestEventSnapshot rt (run (step rt) (start clock) ops).store sub now =
      .error (.integrity .inboundEventsIdempotencyKey) := by
  have htaken := (keyTaken_iff hsha (run_keysDerived rt clock ops) hnew).mpr hcollides
  rw [ingestEventSnapshot_eq (run_sourced rt clock ops) now hnew]
  simp [decideIngestion, hadmissible.customerFits, hown,
    (hadmissible.accountFits_iff 0).mpr hfits, hadmissible.eventFits, htaken, Except.map]

/-- In every reachable store an unseen event is not refused for its replay key, and keys and
identities of stored and incoming events coincide, exactly when it collides with no stored
event. -/
theorem replay_key_iff (rt : Runtime) (hsha : Function.Injective rt.sha256hex) (clock : Int)
    (ops : List Op) (sub : EventSubmission)
    (hnew : (run (step rt) (start clock) ops).store.findExistingEvent sub.source sub.externalId =
      none) :
    let s := (run (step rt) (start clock) ops).store
    let events := s.inboundEvents ++ [inboundEventRow rt sub]
    ((∀ now, ingestEventSnapshot rt s sub now ≠
        .error (.integrity .inboundEventsIdempotencyKey)) ∧
      ∀ e ∈ events, ∀ e' ∈ events, e.idempotencyKey = e'.idempotencyKey ↔
        (e.source, e.externalId) = (e'.source, e'.externalId)) ↔
    ∀ e ∈ s.inboundEvents, ¬Collides e sub := by
  intro s events
  have hk : KeysDerived rt s := run_keysDerived rt clock ops
  have htaken := keyTaken_iff hsha hk hnew
  constructor
  · rintro ⟨-, hcoincide⟩ e he hcollides
    have hmem : e ∈ events := List.mem_append_left _ he
    have hincoming : inboundEventRow rt sub ∈ events := by simp [events]
    have hkey : e.idempotencyKey = (inboundEventRow rt sub).idempotencyKey := by
      rw [hk.derived e he]
      exact (idempotencyKey_eq hsha).mpr (Or.inr hcollides)
    have hpair := (hcoincide e hmem _ hincoming).mp hkey
    rcases hcollides with h | h
    · exact h.ne hpair
    · exact h.ne hpair.symm
  · intro hfree
    have hnot : (readsOf rt s sub).keyTaken = false := by
      rw [Bool.eq_false_iff, ne_eq, htaken]
      rintro ⟨e, he, hcollides⟩
      exact hfree e he hcollides
    refine ⟨fun now herror => ?_, ?_⟩
    · rw [ingestEventSnapshot_eq (run_sourced rt clock ops) now hnew] at herror
      exact (decideIngestion_free rt sub hnot).map _ herror _ rfl
    · have hderived : ∀ e ∈ events,
          e.idempotencyKey = inboundEventIdempotencyKey rt e.source e.externalId := by
        intro e he
        rcases List.mem_append.mp he with he | he
        · exact hk.derived e he
        · rw [List.mem_singleton.mp he]
          rfl
      intro e he e' he'
      rw [hderived e he, hderived e' he', Prod.mk.injEq]
      refine ⟨fun hkey => ?_, fun ⟨hsource, hexternal⟩ => by rw [hsource, hexternal]⟩
      rcases List.mem_append.mp he with hold | hin <;>
        rcases List.mem_append.mp he' with hold' | hin'
      · rw [← hk.derived e hold, ← hk.derived e' hold'] at hkey
        rw [List.inj_on_of_nodup_map hk.distinct hold hold' hkey]
        exact ⟨rfl, rfl⟩
      · obtain rfl := List.mem_singleton.mp hin'
        exact ((idempotencyKey_eq hsha).mp hkey).resolve_right (hfree e hold)
      · obtain rfl := List.mem_singleton.mp hin
        have h := ((idempotencyKey_eq hsha).mp hkey.symm).resolve_right (hfree e' hold')
        exact ⟨h.1.symm, h.2.symm⟩
      · rw [List.mem_singleton.mp hin, List.mem_singleton.mp hin']
        exact ⟨rfl, rfl⟩

/-! ### Identities that share a key -/

/-- A hash that is injective and agrees with SHA-256 on two texts. -/
def partialSha256hex (text : String) : String :=
  if text = "crm\x1feu\x1f42" then
    "9252cce3f9101c240cfdfafedf60dab70c1d55be5c145ec572cab74109ec7b4e"
  else if text = "crm\x1f43" then
    "89bea26a1d32e911a0c7df9a42e87856d2053ad0f86cd6ca8c53a78e28f9b8ee"
  else "text:" ++ text

/-- No digest starts like a text. -/
private theorem digest_ne {digest text : String} (h : digest.toList.head? ≠ some 't') :
    digest ≠ "text:" ++ text := by
  rintro rfl
  rw [String.toList_append] at h
  exact h rfl

/-- The agreeing hash is injective. -/
theorem partialSha256hex_injective : Function.Injective partialSha256hex := by
  intro x y h
  unfold partialSha256hex at h
  split at h
  · next hx =>
    split at h
    · next hy => rw [hx, hy]
    · split at h
      · exact absurd h (by decide)
      · exact absurd h (digest_ne (by decide))
  · split at h
    · next hx =>
      split at h
      · exact absurd h (by decide)
      · split at h
        · next hy => rw [hx, hy]
        · exact absurd h (digest_ne (by decide))
    · split at h
      · exact absurd h.symm (digest_ne (by decide))
      · split at h
        · exact absurd h.symm (digest_ne (by decide))
        · exact (String.append_right_inj _).mp h

/-- A runtime with that hash. -/
def hashingRuntime : Runtime := { demoRuntime with sha256hex := partialSha256hex }

/-- A payment failure from one source, and an opt-out that another source sends under an
identity that regroups the first. -/
def identified (source externalId : String) (eventType : EventType) : EventSubmission :=
  { demoEvent externalId eventType "acct-1" demoNoon with source := source }

/-- The opt-out is accepted, unseen and of the customer's own account, and is refused for its
replay key. -/
theorem replay_key_refused :
    let s := (run (step hashingRuntime) (start 0)
      [.ingestEvent (identified "crm\x1feu" "42" .paymentFailed)]).store
    let sub := identified "crm" "eu\x1f42" .optOutReceived
    (InboundEventRequest.ofSubmission sub).submission hashingRuntime 1 = .ok sub ∧
      s.findExistingEvent sub.source sub.externalId = none ∧
      (readsOf hashingRuntime s sub).foreign = false ∧
      ingestEventSnapshot hashingRuntime s sub 0 =
        .error (.integrity .inboundEventsIdempotencyKey) := by
  exact ⟨rfl, by decide +kernel, by decide +kernel, by decide +kernel⟩

/-- Another identity of the same source has a key of its own. -/
theorem replay_key_iff_demo :
    let s := (run (step hashingRuntime) (start 0)
      [.ingestEvent (identified "crm\x1feu" "42" .paymentFailed)]).store
    let sub := identified "crm" "43" .optOutReceived
    ∀ now, ingestEventSnapshot hashingRuntime s sub now ≠
      .error (.integrity .inboundEventsIdempotencyKey) := by
  have h := replay_key_iff hashingRuntime partialSha256hex_injective 0
    [.ingestEvent (identified "crm\x1feu" "42" .paymentFailed)]
    (identified "crm" "43" .optOutReceived) (by decide +kernel)
  have hlengths : ∀ e ∈ (run (step hashingRuntime) (start 0)
      [.ingestEvent (identified "crm\x1feu" "42" .paymentFailed)]).store.inboundEvents,
      e.externalId.length = 2 ∧ 3 < e.source.length := by decide +kernel
  refine (h.mpr ?_).1
  rintro e he (hgroup | hgroup)
  · have hlen : e.externalId.length < 2 := hgroup.length.2
    rw [(hlengths e he).1] at hlen
    exact Nat.lt_irrefl _ hlen
  · have hlen : e.source.length < 3 := hgroup.length.1
    exact Nat.lt_asymm hlen (hlengths e he).2

end Orchestrator.System
