import NautilusAgents.Described
import NautilusAgents.Fixture
import NautilusAgents.ScalarPatterns

/-!
# The published contract

The five published schemas, definition by definition, and what the decoder
makes of them. A file lists the properties of an object by name; here they
stand in the order of its fields, which is that of the required ones.

A schema written by hand could say anything. These are the ones derived from
the types (`Contract.derived`), so what is known of derived schemas is known of
the published ones: of the documents that decode, a published schema accepts
the plain ones (`Contract.decoded_meets_schema_iff`). The decoder is looser than the
contract where a document is not plain, and it is looser in each of the ways in
which a document can fail to be: it merges the repeated elements of a set, it
takes the fields of a struct from an array, and it takes `null` for the payload
of a variant that has none.
-/

open Serde

namespace Contract

/-! ## Scalars -/

/-- An identifier, its length counted in characters. -/
def identifier : Schema :=
  Schema.allOf [Schema.maxLength 255, Schema.minLength 1, Schema.pattern identifierPattern,
    Schema.type [.string]]

/-- An instrument identity. -/
def instrumentId : Schema := identifier

/-- A position identity. -/
def positionId : Schema := identifier

/-- An idempotency key. -/
def idempotencyKey : Schema :=
  Schema.allOf [Schema.maxLength 128, Schema.minLength 1, Schema.pattern idempotencyKeyPattern,
    Schema.type [.string]]

/-- A quantity, as a text. -/
def quantity : Schema := Schema.string Quantity.pattern

/-- A timestamp, as a text of digits. Nothing bounds it from above. -/
def timestampNs : Schema := Schema.string timestampPattern

/-- A content digest. -/
def contentDigest : Schema := Schema.string digestPattern

/-- A path to a field: a JSON pointer. -/
def fieldPath : Schema := Schema.string fieldPathPattern

/-- The identity of an observation. -/
def observationId : Schema := Schema.string uuidPattern

/-- The identity of a request. -/
def requestId : Schema := Schema.string uuidPattern

/-- The identity of a trace. -/
def traceId : Schema := Schema.string uuidPattern

/-- The identity of an intent. -/
def intentId : Schema := Schema.string uuidPattern

/-- A correlation with the engine. -/
def correlationId : Schema := Schema.string uuidPattern

/-- A text without constraint. -/
def message : Schema := Schema.type [.string]

/-- A component of a version. -/
def uint16 : Schema :=
  Schema.allOf [Schema.maximum 65535, Schema.minimum 0, Schema.type [.integer]]

/-! ## Names -/

/-- One of some names. -/
def oneOfNames (names : List String) : Schema := Schema.oneOf (names.map Schema.name)

/-- An observation category. -/
def observationCapability : Schema := oneOfNames ["position_summary", "instrument_summary"]

/-- A proposal category. -/
def proposalCapability : Schema := oneOfNames ["reduce_position"]

/-- The direction of a position. -/
def positionSide : Schema := oneOfNames ["long", "short"]

/-- The source of a field. -/
def provenanceSource : Schema := oneOfNames ["position_state", "instrument_definition"]

/-- Why a field is left out. -/
def omissionReason : Schema :=
  oneOfNames ["not_granted", "unavailable", "redacted", "unsupported"]

/-- How an observation may be kept. -/
def retentionClass : Schema := oneOfNames ["reference_only", "derived", "restricted"]

/-- The code of an error. -/
def errorCode : Schema :=
  oneOfNames ["malformed", "unsupported_version", "forbidden", "stale_observation",
    "indeterminate_state", "rejected", "idempotency_conflict", "commit_failed",
    "dispatch_failed"]

/-- The status of a decision. -/
def decisionStatus : Schema :=
  oneOfNames ["accepted", "rejected", "authorized", "not_dispatched", "dispatched",
    "dispatch_unknown", "completed"]

/-- The kind of a failure of the agent. -/
def agentFailureKind : Schema := oneOfNames ["policy_error", "timeout", "panic"]

/-! ## Objects -/

/-- A variant with a payload. -/
def variant (name : String) (payload : Schema) : Schema := Schema.object [(name, payload)] [name]

/-- A version of the protocol. -/
def protocolVersion : Schema :=
  Schema.object [("major", uint16), ("minor", uint16)] ["major", "minor"]

/-- A grant: three sets and its end. -/
def capabilityGrant : Schema :=
  Schema.object [("observations", Schema.set observationCapability),
      ("proposals", Schema.set proposalCapability), ("instruments", Schema.set instrumentId),
      ("expires_at", timestampNs)]
    ["observations", "proposals", "instruments", "expires_at"]

/-- A position. -/
def positionView : Schema :=
  Schema.object [("position_id", positionId), ("instrument_id", instrumentId),
      ("side", positionSide), ("quantity", quantity), ("updated_at", timestampNs)]
    ["position_id", "instrument_id", "side", "quantity", "updated_at"]

/-- An instrument. -/
def instrumentView : Schema :=
  Schema.object [("instrument_id", instrumentId), ("quantity_increment", quantity)]
    ["instrument_id", "quantity_increment"]

/-- The live views. -/
def liveObservation : Schema :=
  Schema.object [("positions", Schema.array positionView),
      ("instruments", Schema.array instrumentView)]
    ["positions", "instruments"]

/-- Where a field comes from; the revision may be left out. -/
def sourceProvenance : Schema :=
  Schema.object [("field", fieldPath), ("source", provenanceSource),
      ("observed_at", timestampNs), ("version", Schema.type [.string, .null])]
    ["field", "source", "observed_at"]

/-- A field that is left out, with the reason. -/
def fieldOmission : Schema :=
  Schema.object [("field", fieldPath), ("reason", omissionReason)] ["field", "reason"]

/-- The payload of an observation. -/
def observationPayload : Schema := Schema.oneOf [variant "live" liveObservation]

/-- An observation, by reference. -/
def observationRef : Schema :=
  Schema.object [("id", observationId), ("digest", contentDigest)] ["id", "digest"]

/-- A reduction of a position. -/
def reducePosition : Schema :=
  Schema.object [("position_id", positionId), ("instrument_id", instrumentId),
      ("quantity", quantity)]
    ["position_id", "instrument_id", "quantity"]

/-- What a proposal asks for. -/
def liveIntent : Schema := Schema.oneOf [variant "reduce_position" reducePosition]

/-- A proposal. -/
def liveProposal : Schema := Schema.object [("intent", liveIntent)] ["intent"]

/-- The error of a decision. -/
def decisionError : Schema :=
  Schema.object [("code", errorCode), ("message", message),
      ("retryable", Schema.type [.boolean])]
    ["code", "message", "retryable"]

/-- An error of the protocol, of a request or of none. -/
def protocolError : Schema :=
  Schema.object [("request_id", Schema.orNull requestId), ("code", errorCode),
      ("message", message), ("retryable", Schema.type [.boolean])]
    ["code", "message", "retryable"]

/-- The correlations of a receipt; both may be left out. -/
def correlationRefs : Schema :=
  Schema.object [("engine_correlation_id", Schema.orNull correlationId),
    ("engine_causation_id", Schema.orNull correlationId)] []

/-- The name and the version of a policy. -/
def policyMetadata : Schema :=
  Schema.object [("name", message), ("version", message)] ["name", "version"]

/-- A failure of the agent. -/
def agentFailure : Schema :=
  Schema.object [("kind", agentFailureKind), ("message", message)] ["kind", "message"]

/-- The outcome of an evaluation. -/
def traceOutcome : Schema :=
  Schema.oneOf [variant "proposed" liveProposal, Schema.name "no_proposal",
    variant "failed" agentFailure]

/-! ## Root types -/

/-- `observation.schema.json`. -/
def observation : Schema :=
  Schema.object [("version", protocolVersion), ("id", observationId),
      ("created_at", timestampNs), ("expires_at", timestampNs), ("grant", capabilityGrant),
      ("provenance", Schema.array sourceProvenance), ("omissions", Schema.array fieldOmission),
      ("retention", retentionClass), ("payload", observationPayload), ("digest", contentDigest)]
    ["version", "id", "created_at", "expires_at", "grant", "provenance", "omissions",
      "retention", "payload", "digest"]

/-- `live-proposal-request.schema.json`. -/
def liveProposalRequest : Schema :=
  Schema.object [("version", protocolVersion), ("request_id", requestId),
      ("idempotency_key", idempotencyKey), ("observation", observationRef),
      ("agent_trace_id", Schema.orNull traceId), ("proposal", liveProposal)]
    ["version", "request_id", "idempotency_key", "observation", "proposal"]

/-- `decision-receipt.schema.json`. -/
def decisionReceipt : Schema :=
  Schema.object [("version", protocolVersion), ("request_id", requestId),
      ("observation", observationRef), ("intent_id", intentId), ("status", decisionStatus),
      ("error", Schema.orNull decisionError), ("correlation", correlationRefs),
      ("created_at", timestampNs), ("updated_at", timestampNs)]
    ["version", "request_id", "observation", "intent_id", "status", "correlation",
      "created_at", "updated_at"]

/-- `proposal-response.schema.json`. -/
def proposalResponse : Schema :=
  Schema.oneOf [variant "receipt" decisionReceipt, variant "error" protocolError]

/-- `agent-trace.schema.json`. -/
def agentTrace : Schema :=
  Schema.object [("version", protocolVersion), ("trace_id", traceId),
      ("observation", observationRef), ("policy", policyMetadata), ("started_at", timestampNs),
      ("completed_at", timestampNs), ("outcome", traceOutcome)]
    ["version", "trace_id", "observation", "policy", "started_at", "completed_at", "outcome"]

theorem boundedText_str {least most : ℕ} {p : Pattern} {s : String}
    (h : s.toList ∈ p.language ∧ least ≤ s.toList.length ∧ s.toList.length ≤ most) :
    Schema.allOf [Schema.maxLength most, Schema.minLength least, Schema.pattern p,
      Schema.type [.string]] (.str s) := by
  simpa [Schema.maxLength, Schema.minLength, Schema.pattern, Schema.type_singleton, Json.type]
    using ⟨h.2.2, h.2.1, h.1⟩

end Contract

/-! ## Scalars are described -/

instance : Described InstrumentId where
  schema := Contract.instrumentId
  form := .scalar
  accepts_iff := accepts_text_iff (fun _ h => Contract.boundedText_str
    (matches_of_checkIdentifier (eq_ok_of_toOption_parseChecked h)))

instance : Described PositionId where
  schema := Contract.positionId
  form := .scalar
  accepts_iff := accepts_text_iff (fun _ h => Contract.boundedText_str
    (matches_of_checkIdentifier (eq_ok_of_toOption_parseChecked h)))

instance : Described IdempotencyKey where
  schema := Contract.idempotencyKey
  form := .scalar
  accepts_iff := accepts_text_iff (fun _ h => Contract.boundedText_str
    (matches_of_checkIdempotencyKey (eq_ok_of_toOption_parseChecked h)))

instance : Described Quantity where
  schema := Contract.quantity
  form := .scalar
  accepts_iff := accepts_text_iff (fun t h => Schema.string_str.mpr
    ((Quantity.mem_language_iff t).mpr (eq_ok_of_toOption_parseChecked h)))

instance : Described TimestampNs where
  schema := Contract.timestampNs
  form := .scalar
  accepts_iff := accepts_text_iff (fun t h => by
    cases hparse : TimestampNs.parse t with
    | ok v => exact Schema.string_str.mpr (matches_of_parseTimestamp hparse)
    | error e =>
      have hnone : (TimestampNs.parse t).toOption = none := by rw [hparse]; rfl
      exact absurd (hnone.symm.trans h) (by simp))

instance : Described ContentDigest where
  schema := Contract.contentDigest
  form := .scalar
  accepts_iff := accepts_text_iff (fun _ h => Schema.string_str.mpr
    (matches_of_checkDigest (eq_ok_of_toOption_parseChecked h)))

instance : Described FieldPath where
  schema := Contract.fieldPath
  form := .scalar
  accepts_iff := accepts_text_iff (fun t h => Schema.string_str.mpr
    (matches_of_fieldPath ⟨t, eq_ok_of_toOption_parseChecked h⟩))

section Uuid

variable [UuidCrate] [UuidCrate.Grouped]

instance : Described RequestId where
  schema := Contract.requestId
  form := .scalar
  accepts_iff := accepts_text_iff (fun _ h => Schema.string_str.mpr
    (matches_of_checkUuid (eq_ok_of_toOption_parseChecked h)))

instance : Described ObservationId where
  schema := Contract.observationId
  form := .scalar
  accepts_iff := accepts_text_iff (fun _ h => Schema.string_str.mpr
    (matches_of_checkUuid (eq_ok_of_toOption_parseChecked h)))

instance : Described TraceId where
  schema := Contract.traceId
  form := .scalar
  accepts_iff := accepts_text_iff (fun _ h => Schema.string_str.mpr
    (matches_of_checkUuid (eq_ok_of_toOption_parseChecked h)))

instance : Described IntentId where
  schema := Contract.intentId
  form := .scalar
  accepts_iff := accepts_text_iff (fun _ h => Schema.string_str.mpr
    (matches_of_checkUuid (eq_ok_of_toOption_parseChecked h)))

instance : Described CorrelationId where
  schema := Contract.correlationId
  form := .scalar
  accepts_iff := accepts_text_iff (fun _ h => Schema.string_str.mpr
    (matches_of_checkUuid (eq_ok_of_toOption_parseChecked h)))

end Uuid

/-! ## Structs and enums are described -/

/-- A variant with a payload of a type. -/
def payloadOf (α : Type) [Deserialize α] [Described α] : Option (Schema × Form) :=
  some (Described.schema α, Described.form α)

instance : DescribedFields (Struct.Tuple ProtocolVersion) := .pair

instance : DescribedFields (Struct.Tuple CapabilityGrant) := .pair

instance : DescribedFields (Struct.Tuple PositionView) := .pair

instance : DescribedFields (Struct.Tuple InstrumentView) := .pair

instance : DescribedFields (Struct.Tuple LiveObservation) := .pair

instance : DescribedFields (Struct.Tuple SourceProvenance) := .pair

instance : DescribedFields (Struct.Tuple FieldOmission) := .pair

instance : DescribedFields (Struct.Tuple ReducePosition) := .pair

instance : Described ObservationPayload where
  schema := enumSchema [("live", payloadOf LiveObservation)]
  form := enumForm [("live", payloadOf LiveObservation)]
  accepts_iff := accepts_enum_iff (by simp) (.cons (describedVariant_newtype _) .nil)

instance : Described LiveIntent where
  schema := enumSchema [("reduce_position", payloadOf ReducePosition)]
  form := enumForm [("reduce_position", payloadOf ReducePosition)]
  accepts_iff := accepts_enum_iff (by simp) (.cons (describedVariant_newtype _) .nil)

instance : DescribedFields (Struct.Tuple LiveProposal) := .pair

instance : DescribedFields (Struct.Tuple DecisionError) := .pair

instance : DescribedFields (Struct.Tuple PolicyMetadata) := .pair

instance : DescribedFields (Struct.Tuple AgentFailure) := .pair

instance : Described TraceOutcome where
  schema := enumSchema [("proposed", payloadOf LiveProposal), ("no_proposal", none),
    ("failed", payloadOf AgentFailure)]
  form := enumForm [("proposed", payloadOf LiveProposal), ("no_proposal", none),
    ("failed", payloadOf AgentFailure)]
  accepts_iff := accepts_enum_iff (by simp) (.cons (describedVariant_newtype _)
    (.cons (describedVariant_unit _) (.cons (describedVariant_newtype _) .nil)))

section Roots

variable [UuidCrate] [UuidCrate.Grouped]

instance : DescribedFields (Struct.Tuple ObservationRef) := .pair

instance : DescribedFields (Struct.Tuple Observation) := .pair

instance : DescribedFields (Struct.Tuple LiveProposalRequest) := .pair

instance : DescribedFields (Struct.Tuple ProtocolError) := .pair

instance : DescribedFields (Struct.Tuple CorrelationRefs) := .pair

instance : DescribedFields (Struct.Tuple DecisionReceipt) := .pair

instance : Described ProposalResponse where
  schema := enumSchema [("receipt", payloadOf DecisionReceipt), ("error", payloadOf ProtocolError)]
  form := enumForm [("receipt", payloadOf DecisionReceipt), ("error", payloadOf ProtocolError)]
  accepts_iff := accepts_enum_iff (by simp) (.cons (describedVariant_newtype _)
    (.cons (describedVariant_newtype _) .nil))

instance : DescribedFields (Struct.Tuple AgentTrace) := .pair

end Roots

namespace Contract

variable [UuidCrate] [UuidCrate.Grouped]

/-- **The published schemas are the derived ones.** -/
theorem derived :
    Described.schema Observation = observation ∧
      Described.schema LiveProposalRequest = liveProposalRequest ∧
      Described.schema DecisionReceipt = decisionReceipt ∧
      Described.schema ProposalResponse = proposalResponse ∧
      Described.schema AgentTrace = agentTrace :=
  ⟨rfl, rfl, rfl, rfl, rfl⟩

/-- **What the decoder accepts beyond the contract.** A document that decodes
as a root type satisfies its published schema, at every depth, if and only if
it is plain: no struct in it is written as an array, no variant without payload
as an object, and no set repeats an element. -/
theorem decoded_meets_schema_iff (j : Json) :
    (∀ v : Observation, deserialize j = some v →
      (observation j ↔ Plain (Described.form Observation) j)) ∧
    (∀ v : LiveProposalRequest, deserialize j = some v →
      (liveProposalRequest j ↔ Plain (Described.form LiveProposalRequest) j)) ∧
    (∀ v : DecisionReceipt, deserialize j = some v →
      (decisionReceipt j ↔ Plain (Described.form DecisionReceipt) j)) ∧
    (∀ v : ProposalResponse, deserialize j = some v →
      (proposalResponse j ↔ Plain (Described.form ProposalResponse) j)) ∧
    ∀ v : AgentTrace, deserialize j = some v →
      (agentTrace j ↔ Plain (Described.form AgentTrace) j) := by
  obtain ⟨hobservation, hrequest, hreceipt, hresponse, htrace⟩ := derived
  rw [← hobservation, ← hrequest, ← hreceipt, ← hresponse, ← htrace]
  exact ⟨fun _ h => Described.accepts_iff h, fun _ h => Described.accepts_iff h,
    fun _ h => Described.accepts_iff h, fun _ h => Described.accepts_iff h,
    fun _ h => Described.accepts_iff h⟩

end Contract

namespace Fixture

instance grouped : UuidCrate.Grouped where
  toList_hyphenated uuid := by
    show (String.ofList (hyphenated uuid.toList)).toList = _
    rw [String.toList_ofList]
    simp [hyphenated, uuidGroups]

/-- The fixture's grant with a capability listed twice. -/
def repeatedGrant : Json :=
  .obj [("observations", .arr [.str "position_summary", .str "instrument_summary",
      .str "position_summary"]),
    ("proposals", serialize observation.grant.proposals),
    ("instruments", serialize observation.grant.instruments),
    ("expires_at", serialize observation.grant.expiresAt)]

/-- The fixture with that grant. -/
def repeatedCapability : Json :=
  .obj ((structMembers observation).map
    (fun m => if m.fst = "grant" then ("grant", repeatedGrant) else m))

/-- The set merges the two. -/
theorem deserialize_repeatedCapability :
    (deserialize repeatedCapability : Option Observation) = some observation := rfl

/-- The capability listed twice is not a plain document. -/
theorem not_plain_repeatedCapability :
    ¬ Plain (Described.form Observation) repeatedCapability := by
  intro h
  have hgrant := plain_struct_iff.mp h ("grant", repeatedGrant)
    (List.mem_of_getElem? (i := 4) rfl) _ rfl
  have hobservations := plain_struct_iff.mp hgrant ("observations", _) List.mem_cons_self _ rfl
  have hdistinct := (plain_set_iff.mp hobservations).2
  rw [List.pairwise_cons] at hdistinct
  exact hdistinct.1 (.str "position_summary") (by simp) rfl

end Fixture

namespace Contract

open Fixture in
/-- The fixture's own document. -/
theorem decoded_meets_schema_iff_fixture :
    observation (serialize Fixture.observation) ↔
      Plain (Described.form Observation) (serialize Fixture.observation) :=
  (decoded_meets_schema_iff (serialize Fixture.observation)).1 Fixture.observation
    (deserialize_serialize Fixture.observation)

open Fixture in
/-- **A document with a repeated capability** decodes and does not satisfy the
published schema. -/
theorem repeatedCapability_breaks_schema :
    (deserialize repeatedCapability : Option Observation) = some Fixture.observation ∧
      ¬ observation repeatedCapability := by
  refine ⟨deserialize_repeatedCapability, fun h => not_plain_repeatedCapability ?_⟩
  rw [← derived.1] at h
  exact (Described.accepts_iff deserialize_repeatedCapability).mp h

end Contract
