import AgentKernel.Lib.Call
import AgentKernel.Lib.Dict
import AgentKernel.Lib.Text
import AgentKernel.Contracts

/-! The dispatch dedupe store: its records, its port and the in-memory store.

A record is made by a reservation and then only moves forward. Every store keeps
the same six fields for a key and answers the same calls. The two reservations
differ in the state and the peer reference of the record they make, and the four
marks in the states they may leave, the one they enter and the reference they may
add; `StoreMethods` spells the calls out from one method of each kind. -/
namespace AgentKernel.Dedupe
open Lib

inductive DedupeState where
  | reserved
  | dispatched
  | acknowledged
  | succeeded
  | unknownEffect
  deriving DecidableEq, Repr

def DedupeState.text : DedupeState → String
  | .reserved => "reserved"
  | .dispatched => "dispatched"
  | .acknowledged => "acknowledged"
  | .succeeded => "succeeded"
  | .unknownEffect => "unknown_effect"

structure IdempotencyEnvelope where
  dispatchIdempotencyKey : String
  operationFingerprint : String
  attemptSeq : Int
  effectScope : String
  capabilitySnapshotHash : String
  hostKind : HostKind
  peerOperationId : Option String := none
  policySnapshotRef : Option String := none
  ruleBundleHash : Option String := none
  deriving DecidableEq, Repr

structure DedupeRecord where
  dispatchIdempotencyKey : String
  operationFingerprint : String
  attemptSeq : Int
  state : DedupeState
  peerOperationId : Option String := none
  externalAckRef : Option String := none
  deriving DecidableEq, Repr

inductive ReservationReason where
  | duplicate
  | reserved
  | accepted
  deriving DecidableEq, Repr

structure DedupeReservation where
  accepted : Bool
  reason : ReservationReason
  existingRecord : Option DedupeRecord := none
  deriving DecidableEq, Repr

/-- The answer to a reservation of a present key. -/
def DedupeReservation.duplicateOf (existing : DedupeRecord) : DedupeReservation :=
  { accepted := false, reason := .duplicate, existingRecord := some existing }

/-- The answer to a reservation that was made. -/
def DedupeReservation.granted : DedupeReservation := { accepted := true, reason := .accepted }

/-- The record a reservation makes. -/
def IdempotencyEnvelope.record (envelope : IdempotencyEnvelope) (state : DedupeState)
    (peerOperationId : Option String) : DedupeRecord :=
  { dispatchIdempotencyKey := envelope.dispatchIdempotencyKey
    operationFingerprint := envelope.operationFingerprint
    attemptSeq := envelope.attemptSeq
    state := state
    peerOperationId := peerOperationId }

/-- The record a mark leaves: the new state, and the references given if they are
not empty. -/
def DedupeRecord.moved (record : DedupeRecord) (state : DedupeState)
    (peerOperationId externalAckRef : Option String) : DedupeRecord :=
  { record with
    state := state
    peerOperationId := Text.orElse peerOperationId record.peerOperationId
    externalAckRef := Text.orElse externalAckRef record.externalAckRef }

def unknownKey (key : String) : PyError :=
  ⟨.dedupeStoreStateError, "Unknown dispatch_idempotency_key: " ++ key ++ "."⟩

def cannotTransition (current target : DedupeState) : PyError :=
  ⟨.dedupeStoreStateError, "Cannot transition " ++ current.text ++ " -> " ++ target.text ++ "."⟩

/-- What a mark may do: the states it may leave and the one it enters. -/
structure Mark where
  allowed : List DedupeState
  target : DedupeState
  deriving DecidableEq, Repr

def Mark.dispatched : Mark := ⟨[.reserved, .dispatched], .dispatched⟩
def Mark.acknowledged : Mark := ⟨[.dispatched, .acknowledged], .acknowledged⟩
def Mark.succeeded : Mark := ⟨[.acknowledged, .succeeded], .succeeded⟩
def Mark.unknownEffect : Mark := ⟨[.dispatched, .unknownEffect], .unknownEffect⟩

/-- The dispatch idempotency state machine at the executor boundary. -/
structure DedupeStorePort (σ : Type) where
  reserve : IdempotencyEnvelope → Call PyError σ DedupeReservation
  markDispatched : String → Option String → Call PyError σ Unit
  markAcknowledged : String → Option String → Call PyError σ Unit
  markSucceeded : String → Option String → Call PyError σ Unit
  markUnknownEffect : String → Call PyError σ Unit
  reserveAndDispatch : IdempotencyEnvelope → Option String → Call PyError σ DedupeReservation
  get : String → Call PyError σ (Option DedupeRecord)
  /-- `none` is a store that does not implement the method. -/
  countByRun : String → Call PyError σ (Option Nat)

/-- What the stores write by hand: how a reservation makes its record, how a mark
moves one, and the reads. -/
structure StoreMethods (σ : Type) where
  reserveAs : IdempotencyEnvelope → DedupeState → Option String → Call PyError σ DedupeReservation
  mark : Mark → String → Option String → Option String → Call PyError σ Unit
  get : String → Call PyError σ (Option DedupeRecord)
  countByRun : String → Call PyError σ (Option Nat)

namespace StoreMethods
variable {σ : Type} (m : StoreMethods σ)

def reserve (envelope : IdempotencyEnvelope) : Call PyError σ DedupeReservation :=
  m.reserveAs envelope .reserved envelope.peerOperationId

def reserveAndDispatch (envelope : IdempotencyEnvelope) (peerOperationId : Option String) :
    Call PyError σ DedupeReservation :=
  m.reserveAs envelope .dispatched (Text.orElse peerOperationId envelope.peerOperationId)

def markDispatched (key : String) (peerOperationId : Option String) : Call PyError σ Unit :=
  m.mark .dispatched key peerOperationId none

def markAcknowledged (key : String) (externalAckRef : Option String) : Call PyError σ Unit :=
  m.mark .acknowledged key none externalAckRef

def markSucceeded (key : String) (externalAckRef : Option String) : Call PyError σ Unit :=
  m.mark .succeeded key none externalAckRef

def markUnknownEffect (key : String) : Call PyError σ Unit := m.mark .unknownEffect key none none

def port : DedupeStorePort σ where
  reserve := m.reserve
  markDispatched := m.markDispatched
  markAcknowledged := m.markAcknowledged
  markSucceeded := m.markSucceeded
  markUnknownEffect := m.markUnknownEffect
  reserveAndDispatch := m.reserveAndDispatch
  get := m.get
  countByRun := m.countByRun

end StoreMethods

/-! ### The in-memory store -/

/-- `_records_by_key`. -/
abbrev InMemoryDedupeStore := Dict String DedupeRecord

namespace InMemoryDedupeStore

def reserveAs (envelope : IdempotencyEnvelope) (state : DedupeState)
    (peerOperationId : Option String) :
    Call PyError InMemoryDedupeStore DedupeReservation := do
  let records ← EStateM.get
  match records.get? envelope.dispatchIdempotencyKey with
  | some existing => pure (.duplicateOf existing)
  | none => do
    EStateM.set (records.set envelope.dispatchIdempotencyKey (envelope.record state peerOperationId))
    pure .granted

/-- `_get_required_record`. -/
def getRequiredRecord (key : String) : Call PyError InMemoryDedupeStore DedupeRecord := do
  let records ← EStateM.get
  match records.get? key with
  | some record => pure record
  | none => throw (unknownKey key)

def mark (m : Mark) (key : String) (peerOperationId externalAckRef : Option String) :
    Call PyError InMemoryDedupeStore Unit := do
  let record ← getRequiredRecord key
  if record.state ∈ m.allowed then
    modify (fun records => records.set key (record.moved m.target peerOperationId externalAckRef))
  else
    throw (cannotTransition record.state m.target)

def get (key : String) : Call PyError InMemoryDedupeStore (Option DedupeRecord) := do
  let records ← EStateM.get
  pure (records.get? key)

/-- Keys that start with the run id, whatever follows it. -/
def countByRun (runId : String) : Call PyError InMemoryDedupeStore Nat := do
  let records ← EStateM.get
  pure (records.keys.countP (fun key => Text.startsWith key runId))

def methods : StoreMethods InMemoryDedupeStore where
  reserveAs := reserveAs
  mark := mark
  get := get
  countByRun := fun runId => some <$> countByRun runId

/-- The store as its callers see it. -/
def port : DedupeStorePort InMemoryDedupeStore := methods.port

end InMemoryDedupeStore
end AgentKernel.Dedupe
