import Orchestrator.Api.Routes
import Orchestrator.Base.Uuid

/-!
# Correlation ids of requests

`src/orchestrator/api/correlation.py`: every request is handled under one correlation id, from
its `X-Correlation-ID` header or a fresh one, and its response has the header with that id.
Header values are bytes, read and written as Latin-1.
-/

namespace Orchestrator.Api

open Base Domain

/-- A header value as a text. -/
def decodeLatin1 (value : List UInt8) : List Char := value.map fun b => Char.ofNat b.toNat

/-- A Latin-1 text as a header value. -/
def encodeLatin1 (text : List Char) : List UInt8 := text.map fun c => UInt8.ofNat c.toNat

/-- `correlation_id_from_header`, `src/orchestrator/api/correlation.py:8–20`, with the result
of `uuid4()`. -/
def correlationIdFromHeader (fresh : Fin (2 ^ 128)) (value : Option (List UInt8)) : Nat :=
  (value.bind fun bytes => Uuid.parse (decodeLatin1 bytes)).getD fresh

/-- The value of `X-Correlation-ID` in a response,
`src/orchestrator/api/correlation.py:31`. -/
def correlationHeader (correlationId : Nat) : List UInt8 := encodeLatin1 (Uuid.format correlationId)

/-- A request through `correlation_id_middleware`, `src/orchestrator/api/correlation.py:23–32`.
An exception of the route passes the middleware, so its response has no header. -/
def serveRequest (rt : Runtime) (gen : Generated) (s : Store) (clock : Int)
    (fresh : Fin (2 ^ 128)) (value : Option (List UInt8)) (route : Route) :
    (Store × Response) × Option (List UInt8) :=
  let correlationId := correlationIdFromHeader fresh value
  let answered := handle rt gen s clock ⟨correlationId, route⟩
  (answered, if answered.2 = internalServerError then none
    else some (correlationHeader correlationId))

/-- A text of Latin-1 characters is read back. -/
theorem decodeLatin1_encodeLatin1 {text : List Char} (h : ∀ c ∈ text, c.toNat < 256) :
    decodeLatin1 (encodeLatin1 text) = text := by
  rw [decodeLatin1, encodeLatin1, List.map_map]
  conv_rhs => rw [← List.map_id text]
  refine List.map_congr_left fun c hc => ?_
  rw [Function.comp, UInt8.toNat_ofNat_of_lt' (h c hc), Char.ofNat_toNat]
  rfl

/-- Every request has a UUID. -/
theorem correlationIdFromHeader_lt (fresh : Fin (2 ^ 128)) (value : Option (List UInt8)) :
    correlationIdFromHeader fresh value < 2 ^ 128 := by
  unfold correlationIdFromHeader
  cases h : value.bind fun bytes => Uuid.parse (decodeLatin1 bytes) with
  | none => exact fresh.isLt
  | some n =>
    obtain ⟨bytes, -, hn⟩ := Option.bind_eq_some_iff.mp h
    exact Uuid.parse_lt hn

/-- A request that sends back the header of a response is handled under the same id. -/
theorem correlationIdFromHeader_header {n : Nat} (h : n < 2 ^ 128) (fresh : Fin (2 ^ 128)) :
    correlationIdFromHeader fresh (some (correlationHeader n)) = n := by
  rw [correlationIdFromHeader, correlationHeader, Option.bind_some,
    decodeLatin1_encodeLatin1 fun c hc => Nat.lt_trans (Uuid.format_ascii c hc) (by decide),
    Uuid.parse_format h, Option.getD_some]

end Orchestrator.Api
