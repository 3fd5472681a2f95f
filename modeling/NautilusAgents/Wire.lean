import NautilusAgents.Fixture

/-!
# The protocol on the wire

What holds of the documents that cross the boundary, root type by root type:
each value survives its plain and its canonical text, and each text that is
read holds nothing the types do not declare.

Neither is proved type by type. The round trip and strictness of a type come
from its deriving rules, and what is left here is that no type is too deep for
the reader and that the checked scalars are accepted by their own parsers.
-/

open Serde

/-! ## Round trips -/

section RoundTrip

variable [Crates]

/-- **A type survives its texts**: what is read back, from the plain and from
the canonical text of a value, is the value. -/
def RoundTrips (α : Type) [Serialize α] [Deserialize α] : Prop :=
  ∀ v : α,
    (∃ bytes, Crates.toVec (serialize v) = .ok bytes ∧ Crates.decode α bytes = some v) ∧
    (∃ bytes, Canonical.toVec v = .ok bytes ∧ Crates.decode α bytes = some v)

/-- A type that is not too deep for the reader survives its texts. -/
theorem roundTrips_of_depth_le (hwrite : Crates.CompactWriter) (hcanon : Crates.Rfc8785)
    (hread : Crates.Reader) (α : Type) [Serialize α] [Deserialize α] [LawfulSerde α] [Strict α]
    (hdepth : (Strict.shape α).depth ≤ Crates.maxDepth) : RoundTrips α :=
  fun v => ⟨Crates.decode_toVec hwrite hread hdepth v,
    Crates.decode_canonicalToVec hcanon hread hdepth v⟩

variable [UuidCrate]

/-- **Every root type survives its texts**, and every checked scalar its own
parser: the whole 64-bit range of timestamps, and each text that a quantity, an
identifier, a digest, an identity, a key or a field path holds. -/
theorem roundTrips_protocol (hwrite : Crates.CompactWriter) (hcanon : Crates.Rfc8785)
    (hread : Crates.Reader) :
    RoundTrips Observation ∧ RoundTrips LiveProposalRequest ∧ RoundTrips DecisionReceipt ∧
      RoundTrips ProposalResponse ∧ RoundTrips AgentTrace ∧ RoundTrips ProtocolInfo ∧
      (∀ ns : UInt64, TimestampNs.parse (TimestampNs.display ⟨ns⟩) = .ok ⟨ns⟩) ∧
      (∀ q : Quantity, Quantity.parse q.text = .ok q) ∧
      (∀ id : InstrumentId, InstrumentId.parse id.text = .ok id) ∧
      (∀ id : PositionId, PositionId.parse id.text = .ok id) ∧
      (∀ digest : ContentDigest, ContentDigest.parse digest.text = .ok digest) ∧
      (∀ path : FieldPath, FieldPath.parse path.text = .ok path) ∧
      (∀ id : RequestId, RequestId.parse id.text = .ok id) ∧
      (∀ id : ObservationId, ObservationId.parse id.text = .ok id) ∧
      (∀ id : TraceId, TraceId.parse id.text = .ok id) ∧
      (∀ id : IntentId, IntentId.parse id.text = .ok id) ∧
      (∀ id : CorrelationId, CorrelationId.parse id.text = .ok id) ∧
      (∀ key : IdempotencyKey, IdempotencyKey.parse key.text = .ok key) := by
  refine ⟨?_, ?_, ?_, ?_, ?_, ?_, fun ns => TimestampNs.parse_display ⟨ns⟩,
    fun q => parseChecked_of_ok q.checked, fun id => parseChecked_of_ok id.checked,
    fun id => parseChecked_of_ok id.checked, fun digest => parseChecked_of_ok digest.checked,
    fun path => parseChecked_of_ok path.checked, fun id => parseChecked_of_ok id.checked,
    fun id => parseChecked_of_ok id.checked, fun id => parseChecked_of_ok id.checked,
    fun id => parseChecked_of_ok id.checked, fun id => parseChecked_of_ok id.checked,
    fun key => parseChecked_of_ok key.checked⟩
  all_goals
    refine roundTrips_of_depth_le hwrite hcanon hread _ ?_
    exact Nat.le_of_ble_eq_true rfl

end RoundTrip

open Fixture in
/-- The fixture is read back from its plain text. -/
theorem roundTrips_protocol_fixture :
    ∃ bytes, Crates.toVec (serialize observation) = .ok bytes ∧
      Crates.decode Observation bytes = some observation :=
  ((roundTrips_protocol compactWriter rfc8785 reader).1 observation).1

/-! ## Strictness -/

/-- **A type is read strictly at every depth.** In a document that is read,
every object, wherever it is, holds only members that the type read there
declares; and a document with another member inserted into one of its objects
is not read. -/
structure StrictAtEveryDepth (α : Type) [Deserialize α] [Strict α] : Prop where
  /-- What is read holds declared members only. -/
  declared : ∀ (j : Json) (v : α), deserialize j = some v → ∀ path ms,
    j.place path = some (.obj ms) →
      ∃ s, (Strict.shape α).follow j path = some s ∧ ∀ m ∈ ms, m.fst ∈ s.declared
  /-- With another member it is not read. -/
  inserted : ∀ (j : Json) (v : α), deserialize j = some v → ∀ path ms,
    j.place path = some (.obj ms) →
      ∀ (name : String) (value : Json) (n : ℕ) (j' : Json) (s : Shape),
      (Strict.shape α).follow j path = some s → name ∉ s.declared →
      j.insertAt n (name, value) path = some j' → deserialize (α := α) j' = none

theorem strictAtEveryDepth (α : Type) [Deserialize α] [Strict α] : StrictAtEveryDepth α where
  declared _ _ h _ _ hplace := declared_of_deserialize h hplace
  inserted _ _ _ _ _ _ _ _ _ _ _ hfollow hname hinsert :=
    deserialize_insertAt_eq_none hinsert hfollow hname

/-- **Every root type is read strictly at every depth.** -/
theorem strictAtEveryDepth_protocol [UuidCrate] :
    StrictAtEveryDepth LiveProposalRequest ∧ StrictAtEveryDepth Observation ∧
      StrictAtEveryDepth DecisionReceipt ∧ StrictAtEveryDepth ProposalResponse ∧
      StrictAtEveryDepth AgentTrace :=
  ⟨strictAtEveryDepth _, strictAtEveryDepth _, strictAtEveryDepth _, strictAtEveryDepth _,
    strictAtEveryDepth _⟩

/-- The members a proposal request declares, at every place of it. -/
example [UuidCrate] : Strict.shape LiveProposalRequest = .struct [
    ("version", .struct [("major", .leaf), ("minor", .leaf)]),
    ("request_id", .leaf),
    ("idempotency_key", .leaf),
    ("observation", .struct [("id", .leaf), ("digest", .leaf)]),
    ("agent_trace_id", .leaf),
    ("proposal", .struct [("intent", .enum [("reduce_position", .struct [
      ("position_id", .leaf), ("instrument_id", .leaf), ("quantity", .leaf)])])])] := rfl
