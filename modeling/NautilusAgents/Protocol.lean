import NautilusAgents.Derive
import NautilusAgents.Identity
import NautilusAgents.Quantity

/-!
# The protocol's documents

The types that cross the boundary: protocol versions and features, capability
grants, live observations, proposals, receipts, errors and agent traces. Each
is written with its fields in declaration order and under the names the
derived implementations use, and each declares its members to the deriving
rules, which supply the serializer, the deserializer, the round trip and
strictness.

The digest document at the end of the observations is an observation without
its digest. The source only ever writes it; here it has a reader as well,
which is what makes its text determine every field.
-/

open Serde

/-! ## Versions and features -/

/-- Identifies an external protocol revision. -/
structure ProtocolVersion where
  /-- The incompatible protocol generation. -/
  major : UInt16
  /-- The backward-compatible protocol revision. -/
  minor : UInt16
  deriving DecidableEq

namespace ProtocolVersion

instance : Struct ProtocolVersion where
  Tuple := UInt16 × UInt16 × Unit
  names := ["major", "minor"]
  toTuple v := (v.major, v.minor, ())
  ofTuple t := ⟨t.1, t.2.1⟩

/-- The protocol version this crate implements. -/
def protocolVersion : ProtocolVersion := ⟨1, 0⟩

/-- **Whether this crate supports the version**: the same major component, and
no later minor one. -/
def isSupported (v : ProtocolVersion) : Bool :=
  v.major == protocolVersion.major && decide (v.minor ≤ protocolVersion.minor)

/-- The debug text of a version. -/
def debug (v : ProtocolVersion) : String :=
  "ProtocolVersion \x7b major: " ++ Nat.repr v.major.toNat ++ ", minor: "
    ++ Nat.repr v.minor.toNat ++ " \x7d"

end ProtocolVersion

/-- Declares a protocol capability both peers understand. -/
inductive Feature where
  | liveReducePosition
  | decisionReceipt
  deriving DecidableEq

instance : LinearOrder Feature :=
  LinearOrder.lift' Feature.ctorIdx (fun a b h => by cases a <;> cases b <;> first | rfl | cases h)

instance : UnitEnum Feature where
  variants := [("live_reduce_position", .liveReducePosition),
    ("decision_receipt", .decisionReceipt)]
  name
    | .liveReducePosition => "live_reduce_position"
    | .decisionReceipt => "decision_receipt"

/-- Describes a peer's protocol version and supported features. -/
structure ProtocolInfo where
  /-- The version the peer speaks. -/
  version : ProtocolVersion
  /-- The features it supports. -/
  features : OrderedSet Feature
  deriving DecidableEq

instance : Struct ProtocolInfo where
  Tuple := ProtocolVersion × OrderedSet Feature × Unit
  names := ["version", "features"]
  toTuple v := (v.version, v.features, ())
  ofTuple t := ⟨t.1, t.2.1⟩

/-! ## Capabilities -/

/-- Names an observation category. -/
inductive ObservationCapability where
  | positionSummary
  | instrumentSummary
  deriving DecidableEq

instance : LinearOrder ObservationCapability :=
  LinearOrder.lift' ObservationCapability.ctorIdx
    (fun a b h => by cases a <;> cases b <;> first | rfl | cases h)

instance : UnitEnum ObservationCapability where
  variants := [("position_summary", .positionSummary),
    ("instrument_summary", .instrumentSummary)]
  name
    | .positionSummary => "position_summary"
    | .instrumentSummary => "instrument_summary"

/-- Names a proposal category. -/
inductive ProposalCapability where
  | reducePosition
  deriving DecidableEq

instance : LinearOrder ProposalCapability :=
  LinearOrder.lift' ProposalCapability.ctorIdx (fun a b _ => by cases a; cases b; rfl)

instance : UnitEnum ProposalCapability where
  variants := [("reduce_position", .reducePosition)]
  name
    | .reducePosition => "reduce_position"

/-- Describes the scope disclosed with one observation. -/
structure CapabilityGrant where
  /-- The observation kinds disclosed. -/
  observations : OrderedSet ObservationCapability
  /-- The proposal kinds accepted. -/
  proposals : OrderedSet ProposalCapability
  /-- The instruments covered. -/
  instruments : OrderedSet InstrumentId
  /-- When the grant expires. -/
  expiresAt : TimestampNs
  deriving DecidableEq

instance : Struct CapabilityGrant where
  Tuple := OrderedSet ObservationCapability × OrderedSet ProposalCapability ×
    OrderedSet InstrumentId × TimestampNs × Unit
  names := ["observations", "proposals", "instruments", "expires_at"]
  toTuple v := (v.observations, v.proposals, v.instruments, v.expiresAt, ())
  ofTuple t := ⟨t.1, t.2.1, t.2.2.1, t.2.2.2.1⟩

/-! ## Live views -/

/-- Identifies the direction of an open position. -/
inductive PositionSide where
  | long
  | short
  deriving DecidableEq

instance : UnitEnum PositionSide where
  variants := [("long", .long), ("short", .short)]
  name
    | .long => "long"
    | .short => "short"

/-- Contains the position state a proposal policy needs. -/
structure PositionView where
  /-- The position. -/
  positionId : PositionId
  /-- The instrument it is on. -/
  instrumentId : InstrumentId
  /-- Its direction. -/
  side : PositionSide
  /-- How much of it is open. -/
  quantity : Quantity
  /-- When it was last updated. -/
  updatedAt : TimestampNs
  deriving DecidableEq

instance : Struct PositionView where
  Tuple := PositionId × InstrumentId × PositionSide × Quantity × TimestampNs × Unit
  names := ["position_id", "instrument_id", "side", "quantity", "updated_at"]
  toTuple v := (v.positionId, v.instrumentId, v.side, v.quantity, v.updatedAt, ())
  ofTuple t := ⟨t.1, t.2.1, t.2.2.1, t.2.2.2.1, t.2.2.2.2.1⟩

/-- Contains the instrument rules a proposal policy needs. -/
structure InstrumentView where
  /-- The instrument. -/
  instrumentId : InstrumentId
  /-- The step of its quantities. -/
  quantityIncrement : Quantity
  deriving DecidableEq

instance : Struct InstrumentView where
  Tuple := InstrumentId × Quantity × Unit
  names := ["instrument_id", "quantity_increment"]
  toTuple v := (v.instrumentId, v.quantityIncrement, ())
  ofTuple t := ⟨t.1, t.2.1⟩

/-- Contains the live views disclosed for one observation. -/
structure LiveObservation where
  /-- The disclosed positions. -/
  positions : List PositionView
  /-- The disclosed instruments. -/
  instruments : List InstrumentView
  deriving DecidableEq

instance : Struct LiveObservation where
  Tuple := List PositionView × List InstrumentView × Unit
  names := ["positions", "instruments"]
  toTuple v := (v.positions, v.instruments, ())
  ofTuple t := ⟨t.1, t.2.1⟩

/-! ## Observations -/

/-- Names the source category of a public field. -/
inductive ProvenanceSource where
  | positionState
  | instrumentDefinition
  deriving DecidableEq

instance : UnitEnum ProvenanceSource where
  variants := [("position_state", .positionState),
    ("instrument_definition", .instrumentDefinition)]
  name
    | .positionState => "position_state"
    | .instrumentDefinition => "instrument_definition"

/-- Associates one field path with its source and observation time. -/
structure SourceProvenance where
  /-- The field the values come under. -/
  field : FieldPath
  /-- Where they come from. -/
  source : ProvenanceSource
  /-- When they were observed. -/
  observedAt : TimestampNs
  /-- The revision of the source, if it has one. -/
  version : Option String
  deriving DecidableEq

instance : Struct SourceProvenance where
  Tuple := FieldPath × ProvenanceSource × TimestampNs × Option String × Unit
  names := ["field", "source", "observed_at", "version"]
  toTuple v := (v.field, v.source, v.observedAt, v.version, ())
  ofTuple t := ⟨t.1, t.2.1, t.2.2.1, t.2.2.2.1⟩

/-- Explains why an observation field is absent. -/
inductive OmissionReason where
  | notGranted
  | unavailable
  | redacted
  | unsupported
  deriving DecidableEq

instance : UnitEnum OmissionReason where
  variants := [("not_granted", .notGranted), ("unavailable", .unavailable),
    ("redacted", .redacted), ("unsupported", .unsupported)]
  name
    | .notGranted => "not_granted"
    | .unavailable => "unavailable"
    | .redacted => "redacted"
    | .unsupported => "unsupported"

/-- Records why a field or subtree was not disclosed. -/
structure FieldOmission where
  /-- The field or subtree left out. -/
  field : FieldPath
  /-- Why it is left out. -/
  reason : OmissionReason
  deriving DecidableEq

instance : Struct FieldOmission where
  Tuple := FieldPath × OmissionReason × Unit
  names := ["field", "reason"]
  toTuple v := (v.field, v.reason, ())
  ofTuple t := ⟨t.1, t.2.1⟩

/-- Classifies observation data for recording. -/
inductive RetentionClass where
  | referenceOnly
  | derived
  | restricted
  deriving DecidableEq

instance : UnitEnum RetentionClass where
  variants := [("reference_only", .referenceOnly), ("derived", .derived),
    ("restricted", .restricted)]
  name
    | .referenceOnly => "reference_only"
    | .derived => "derived"
    | .restricted => "restricted"

/-- Contains the protocol-specific observation domain. -/
inductive ObservationPayload where
  | live (view : LiveObservation)
  deriving DecidableEq

namespace ObservationPayload

instance : Serialize ObservationPayload where
  serialize
    | .live view => .obj [("live", serialize view)]

instance : Deserialize ObservationPayload where
  deserialize := deserializeEnum [("live", newtypeVariant .live)]

instance : LawfulSerde ObservationPayload where
  iJson
    | .live view => iJson_newtype "live" view
  deserialize_layout hf
    | .live view => deserializeEnum_newtype hf rfl view

instance : Strict ObservationPayload where
  shape := .enum [("live", Strict.shape LiveObservation)]
  conforms h := conforms_enum h (.cons ⟨rfl, conforms_newtypeVariant _⟩ .nil)

end ObservationPayload

section Protocol

variable [UuidCrate]

/-- Links a request or trace to exact observation content. -/
@[ext] structure ObservationRef where
  /-- The identity of the observation. -/
  id : ObservationId
  /-- The digest of its content. -/
  digest : ContentDigest
  deriving DecidableEq

instance : Struct ObservationRef where
  Tuple := ObservationId × ContentDigest × Unit
  names := ["id", "digest"]
  toTuple v := (v.id, v.digest, ())
  ofTuple t := ⟨t.1, t.2.1⟩

/-- **One complete, versioned observation.** -/
structure Observation where
  /-- The version of the protocol. -/
  version : ProtocolVersion
  /-- The identity of the observation. -/
  id : ObservationId
  /-- When it was created. -/
  createdAt : TimestampNs
  /-- When it expires. -/
  expiresAt : TimestampNs
  /-- The scope it was disclosed under. -/
  grant : CapabilityGrant
  /-- Where its fields come from. -/
  provenance : List SourceProvenance
  /-- What was left out, and why. -/
  omissions : List FieldOmission
  /-- How long it may be kept. -/
  retention : RetentionClass
  /-- The disclosed views. -/
  payload : ObservationPayload
  /-- The digest of all the other fields. -/
  digest : ContentDigest
  deriving DecidableEq

instance : Struct Observation where
  Tuple := ProtocolVersion × ObservationId × TimestampNs × TimestampNs × CapabilityGrant ×
    List SourceProvenance × List FieldOmission × RetentionClass × ObservationPayload ×
    ContentDigest × Unit
  names := ["version", "id", "created_at", "expires_at", "grant", "provenance", "omissions",
    "retention", "payload", "digest"]
  toTuple v := (v.version, v.id, v.createdAt, v.expiresAt, v.grant, v.provenance, v.omissions,
    v.retention, v.payload, v.digest, ())
  ofTuple
    | (version, id, createdAt, expiresAt, grant, provenance, omissions, retention, payload,
        digest, ()) =>
      ⟨version, id, createdAt, expiresAt, grant, provenance, omissions, retention, payload,
        digest⟩

/-- **The document a digest covers**: every field of an observation but the
digest. -/
@[ext] structure ObservationDigest where
  /-- The version of the protocol. -/
  version : ProtocolVersion
  /-- The identity of the observation. -/
  id : ObservationId
  /-- When it was created. -/
  createdAt : TimestampNs
  /-- When it expires. -/
  expiresAt : TimestampNs
  /-- The scope it was disclosed under. -/
  grant : CapabilityGrant
  /-- Where its fields come from. -/
  provenance : List SourceProvenance
  /-- What was left out, and why. -/
  omissions : List FieldOmission
  /-- How long it may be kept. -/
  retention : RetentionClass
  /-- The disclosed views. -/
  payload : ObservationPayload
  deriving DecidableEq

instance : Struct ObservationDigest where
  Tuple := ProtocolVersion × ObservationId × TimestampNs × TimestampNs × CapabilityGrant ×
    List SourceProvenance × List FieldOmission × RetentionClass × ObservationPayload × Unit
  names := ["version", "id", "created_at", "expires_at", "grant", "provenance", "omissions",
    "retention", "payload"]
  toTuple v := (v.version, v.id, v.createdAt, v.expiresAt, v.grant, v.provenance, v.omissions,
    v.retention, v.payload, ())
  ofTuple
    | (version, id, createdAt, expiresAt, grant, provenance, omissions, retention, payload,
        ()) =>
      ⟨version, id, createdAt, expiresAt, grant, provenance, omissions, retention, payload⟩

end Protocol

/-! ## Proposals -/

/-- Identifies an existing position and the quantity to reduce. -/
structure ReducePosition where
  /-- The position to reduce. -/
  positionId : PositionId
  /-- The instrument it is on. -/
  instrumentId : InstrumentId
  /-- How much to reduce it by. -/
  quantity : Quantity
  deriving DecidableEq

instance : Struct ReducePosition where
  Tuple := PositionId × InstrumentId × Quantity × Unit
  names := ["position_id", "instrument_id", "quantity"]
  toTuple v := (v.positionId, v.instrumentId, v.quantity, ())
  ofTuple t := ⟨t.1, t.2.1, t.2.2.1⟩

/-- Enumerates the live proposal vocabulary. -/
inductive LiveIntent where
  | reducePosition (reduction : ReducePosition)
  deriving DecidableEq

namespace LiveIntent

instance : Serialize LiveIntent where
  serialize
    | .reducePosition reduction => .obj [("reduce_position", serialize reduction)]

instance : Deserialize LiveIntent where
  deserialize := deserializeEnum [("reduce_position", newtypeVariant .reducePosition)]

instance : LawfulSerde LiveIntent where
  iJson
    | .reducePosition reduction => iJson_newtype "reduce_position" reduction
  deserialize_layout hf
    | .reducePosition reduction =>
      deserializeEnum_newtype hf rfl reduction

instance : Strict LiveIntent where
  shape := .enum [("reduce_position", Strict.shape ReducePosition)]
  conforms h := conforms_enum h (.cons ⟨rfl, conforms_newtypeVariant _⟩ .nil)

end LiveIntent

/-- Wraps the single live intent carried by a request. -/
structure LiveProposal where
  /-- The proposed intent. -/
  intent : LiveIntent
  deriving DecidableEq

instance : Struct LiveProposal where
  Tuple := LiveIntent × Unit
  names := ["intent"]
  toTuple v := (v.intent, ())
  ofTuple t := ⟨t.1⟩

section Protocol

variable [UuidCrate]

/-- Submits one live proposal against an exact observation. -/
structure LiveProposalRequest where
  /-- The version of the protocol. -/
  version : ProtocolVersion
  /-- The identity the caller gave it. -/
  requestId : RequestId
  /-- The key that a repeated submission shares. -/
  idempotencyKey : IdempotencyKey
  /-- The observation it was decided on. -/
  observation : ObservationRef
  /-- The trace of the evaluation, if it is disclosed. -/
  agentTraceId : Option TraceId
  /-- The proposal. -/
  proposal : LiveProposal
  deriving DecidableEq

instance : Struct LiveProposalRequest where
  Tuple := ProtocolVersion × RequestId × IdempotencyKey × ObservationRef × Option TraceId ×
    LiveProposal × Unit
  names := ["version", "request_id", "idempotency_key", "observation", "agent_trace_id",
    "proposal"]
  toTuple v := (v.version, v.requestId, v.idempotencyKey, v.observation, v.agentTraceId,
    v.proposal, ())
  ofTuple t := ⟨t.1, t.2.1, t.2.2.1, t.2.2.2.1, t.2.2.2.2.1, t.2.2.2.2.2.1⟩

end Protocol

/-! ## Errors and receipts -/

/-- Enumerates the public request and decision error categories. -/
inductive ErrorCode where
  | malformed
  | unsupportedVersion
  | forbidden
  | staleObservation
  | indeterminateState
  | rejected
  | idempotencyConflict
  | commitFailed
  | dispatchFailed
  deriving DecidableEq

instance : UnitEnum ErrorCode where
  variants := [("malformed", .malformed), ("unsupported_version", .unsupportedVersion),
    ("forbidden", .forbidden), ("stale_observation", .staleObservation),
    ("indeterminate_state", .indeterminateState), ("rejected", .rejected),
    ("idempotency_conflict", .idempotencyConflict), ("commit_failed", .commitFailed),
    ("dispatch_failed", .dispatchFailed)]
  name
    | .malformed => "malformed"
    | .unsupportedVersion => "unsupported_version"
    | .forbidden => "forbidden"
    | .staleObservation => "stale_observation"
    | .indeterminateState => "indeterminate_state"
    | .rejected => "rejected"
    | .idempotencyConflict => "idempotency_conflict"
    | .commitFailed => "commit_failed"
    | .dispatchFailed => "dispatch_failed"

/-- Carries a decision-path error code and retry hint. -/
structure DecisionError where
  /-- The code of the error. -/
  code : ErrorCode
  /-- Its text. -/
  message : String
  /-- Whether it may go away by itself. -/
  retryable : Bool
  deriving DecidableEq

instance : Struct DecisionError where
  Tuple := ErrorCode × String × Bool × Unit
  names := ["code", "message", "retryable"]
  toTuple v := (v.code, v.message, v.retryable, ())
  ofTuple t := ⟨t.1, t.2.1, t.2.2.1⟩

/-- Enumerates the public decision and dispatch progress states. -/
inductive DecisionStatus where
  | accepted
  | rejected
  | authorized
  | notDispatched
  | dispatched
  | dispatchUnknown
  | completed
  deriving DecidableEq

instance : UnitEnum DecisionStatus where
  variants := [("accepted", .accepted), ("rejected", .rejected), ("authorized", .authorized),
    ("not_dispatched", .notDispatched), ("dispatched", .dispatched),
    ("dispatch_unknown", .dispatchUnknown), ("completed", .completed)]
  name
    | .accepted => "accepted"
    | .rejected => "rejected"
    | .authorized => "authorized"
    | .notDispatched => "not_dispatched"
    | .dispatched => "dispatched"
    | .dispatchUnknown => "dispatch_unknown"
    | .completed => "completed"

section Protocol

variable [UuidCrate]

/-- Carries an error before a request enters the decision path. -/
structure ProtocolError where
  /-- The request, as far as it could be read. -/
  requestId : Option RequestId
  /-- The code of the error. -/
  code : ErrorCode
  /-- Its text. -/
  message : String
  /-- Whether it may go away by itself. -/
  retryable : Bool
  deriving DecidableEq

instance : Struct ProtocolError where
  Tuple := Option RequestId × ErrorCode × String × Bool × Unit
  names := ["request_id", "code", "message", "retryable"]
  toTuple v := (v.requestId, v.code, v.message, v.retryable, ())
  ofTuple t := ⟨t.1, t.2.1, t.2.2.1, t.2.2.2.1⟩

/-- Carries public links into engine correlation. -/
structure CorrelationRefs where
  /-- The correlation in the engine, if there is one. -/
  engineCorrelationId : Option CorrelationId
  /-- The causation in the engine, if there is one. -/
  engineCausationId : Option CorrelationId
  deriving DecidableEq

instance : Struct CorrelationRefs where
  Tuple := Option CorrelationId × Option CorrelationId × Unit
  names := ["engine_correlation_id", "engine_causation_id"]
  toTuple v := (v.engineCorrelationId, v.engineCausationId, ())
  ofTuple t := ⟨t.1, t.2.1⟩

/-- Reports the public outcome for an accepted request. -/
structure DecisionReceipt where
  /-- The version of the protocol. -/
  version : ProtocolVersion
  /-- The request decided on. -/
  requestId : RequestId
  /-- The observation considered. -/
  observation : ObservationRef
  /-- The identity of the accepted intent. -/
  intentId : IntentId
  /-- The decision. -/
  status : DecisionStatus
  /-- The error, where the status asks for one. -/
  error : Option DecisionError
  /-- The links into the engine. -/
  correlation : CorrelationRefs
  /-- When the receipt was created. -/
  createdAt : TimestampNs
  /-- When it was last updated. -/
  updatedAt : TimestampNs
  deriving DecidableEq

instance : Struct DecisionReceipt where
  Tuple := ProtocolVersion × RequestId × ObservationRef × IntentId × DecisionStatus ×
    Option DecisionError × CorrelationRefs × TimestampNs × TimestampNs × Unit
  names := ["version", "request_id", "observation", "intent_id", "status", "error",
    "correlation", "created_at", "updated_at"]
  toTuple v := (v.version, v.requestId, v.observation, v.intentId, v.status, v.error,
    v.correlation, v.createdAt, v.updatedAt, ())
  ofTuple
    | (version, requestId, observation, intentId, status, error, correlation, createdAt,
        updatedAt, ()) =>
      ⟨version, requestId, observation, intentId, status, error, correlation, createdAt,
        updatedAt⟩

/-- Separates accepted decision receipts from request-level protocol errors. -/
inductive ProposalResponse where
  | receipt (decision : DecisionReceipt)
  | error (failure : ProtocolError)
  deriving DecidableEq

namespace ProposalResponse

instance : Serialize ProposalResponse where
  serialize
    | .receipt decision => .obj [("receipt", serialize decision)]
    | .error failure => .obj [("error", serialize failure)]

instance : Deserialize ProposalResponse where
  deserialize := deserializeEnum
    [("receipt", newtypeVariant .receipt), ("error", newtypeVariant .error)]

instance : LawfulSerde ProposalResponse where
  iJson
    | .receipt decision => iJson_newtype "receipt" decision
    | .error failure => iJson_newtype "error" failure
  deserialize_layout hf
    | .receipt decision => deserializeEnum_newtype hf rfl decision
    | .error failure => deserializeEnum_newtype hf rfl failure

instance : Strict ProposalResponse where
  shape := .enum [("receipt", Strict.shape DecisionReceipt), ("error", Strict.shape ProtocolError)]
  conforms h := conforms_enum h
    (.cons ⟨rfl, conforms_newtypeVariant _⟩ (.cons ⟨rfl, conforms_newtypeVariant _⟩ .nil))

end ProposalResponse

end Protocol

/-! ## Agent traces -/

/-- Identifies a caller's policy implementation. -/
structure PolicyMetadata where
  /-- The name of the policy. -/
  name : String
  /-- Its version. -/
  version : String
  deriving DecidableEq

instance : Struct PolicyMetadata where
  Tuple := String × String × Unit
  names := ["name", "version"]
  toTuple v := (v.name, v.version, ())
  ofTuple t := ⟨t.1, t.2.1⟩

/-- Enumerates local policy failure categories. -/
inductive AgentFailureKind where
  | policyError
  | timeout
  | panic
  deriving DecidableEq

instance : UnitEnum AgentFailureKind where
  variants := [("policy_error", .policyError), ("timeout", .timeout), ("panic", .panic)]
  name
    | .policyError => "policy_error"
    | .timeout => "timeout"
    | .panic => "panic"

/-- Describes a local policy failure. -/
structure AgentFailure where
  /-- The kind of the failure. -/
  kind : AgentFailureKind
  /-- Its text. -/
  message : String
  deriving DecidableEq

instance : Struct AgentFailure where
  Tuple := AgentFailureKind × String × Unit
  names := ["kind", "message"]
  toTuple v := (v.kind, v.message, ())
  ofTuple t := ⟨t.1, t.2.1⟩

/-- Captures a proposal, a deliberate no-proposal result, or a local
failure. -/
inductive TraceOutcome where
  | proposed (proposal : LiveProposal)
  | noProposal
  | failed (failure : AgentFailure)
  deriving DecidableEq

namespace TraceOutcome

instance : Serialize TraceOutcome where
  serialize
    | .proposed proposal => .obj [("proposed", serialize proposal)]
    | .noProposal => .str "no_proposal"
    | .failed failure => .obj [("failed", serialize failure)]

instance : Deserialize TraceOutcome where
  deserialize := deserializeEnum [("proposed", newtypeVariant .proposed),
    ("no_proposal", unitVariant .noProposal), ("failed", newtypeVariant .failed)]

instance : LawfulSerde TraceOutcome where
  iJson
    | .proposed proposal => iJson_newtype "proposed" proposal
    | .noProposal => .str _
    | .failed failure => iJson_newtype "failed" failure
  deserialize_layout hf
    | .proposed proposal => deserializeEnum_newtype hf rfl proposal
    | .noProposal => deserializeEnum_unit hf rfl
    | .failed failure => deserializeEnum_newtype hf rfl failure

instance : Strict TraceOutcome where
  shape := .enum [("proposed", Strict.shape LiveProposal), ("no_proposal", .leaf),
    ("failed", Strict.shape AgentFailure)]
  conforms h := conforms_enum h (.cons ⟨rfl, conforms_newtypeVariant _⟩
    (.cons ⟨rfl, conforms_unitVariant _⟩ (.cons ⟨rfl, conforms_newtypeVariant _⟩ .nil)))

end TraceOutcome

/-- **One complete agent-side policy evaluation.** -/
structure AgentTrace [UuidCrate] where
  /-- The version of the protocol. -/
  version : ProtocolVersion
  /-- The identity of the trace. -/
  traceId : TraceId
  /-- The observation evaluated. -/
  observation : ObservationRef
  /-- The policy that was run. -/
  policy : PolicyMetadata
  /-- When the evaluation started. -/
  startedAt : TimestampNs
  /-- When it was over. -/
  completedAt : TimestampNs
  /-- What came of it. -/
  outcome : TraceOutcome
  deriving DecidableEq

instance [UuidCrate] : Struct AgentTrace where
  Tuple := ProtocolVersion × TraceId × ObservationRef × PolicyMetadata × TimestampNs ×
    TimestampNs × TraceOutcome × Unit
  names := ["version", "trace_id", "observation", "policy", "started_at", "completed_at",
    "outcome"]
  toTuple v := (v.version, v.traceId, v.observation, v.policy, v.startedAt, v.completedAt,
    v.outcome, ())
  ofTuple
    | (version, traceId, observation, policy, startedAt, completedAt, outcome, ()) =>
      ⟨version, traceId, observation, policy, startedAt, completedAt, outcome⟩
