import Orchestrator.Domain.IngestionTransaction
import Orchestrator.System.Completeness

/-!
# Ingestion is all or nothing

A call of the ingestion on a reachable store either raises and commits nothing, at
whatever statement it fails, or commits everything that its event needs.
-/

namespace Orchestrator.System

open Base Domain

/-- On every reachable store a call that raises leaves the committed store unchanged, a call
that returns commits the whole ingestion, and every stored event has its full record. -/
theorem ingestion_all_or_nothing (rt : Runtime) (clock : Int) (ops : List Op) :
    let s := (run (step rt) (start clock) ops).store
    (∀ sub now faults,
      (∀ e, (ingestCall rt s sub now faults).2 = .error e →
        (ingestCall rt s sub now faults).1 = s) ∧
      (∀ r, (ingestCall rt s sub now faults).2 = .ok r →
        ingestEventSnapshot rt s sub now = .ok ((ingestCall rt s sub now faults).1, r)) ∧
      (∀ e, (ingestCall rt s sub now []).2 = .error e →
        ingestEventSnapshot rt s sub now = .error e)) ∧
    ∀ e event, s.inboundEvents[e]? = some event → CompleteEvent rt clock ops e event := by
  refine ⟨fun sub now faults => ⟨?_, ?_, ?_⟩, run_complete rt clock ops⟩
  · exact fun e h => ingestCall_raised h
  · exact fun r h => ingestCall_returned h
  · exact fun e h => ingestCall_faultless h

/-- The eighth statement of an ingestion, its second audit row, fails. -/
example : (ingestCall demoRuntime Store.empty (demoEvent "event-1" .paymentFailed "acct-1" demoNoon)
    0 (List.replicate 7 none ++ [some .overflow])).1 = Store.empty := by decide +kernel

end Orchestrator.System
