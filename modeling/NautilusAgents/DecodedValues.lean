import NautilusAgents.Mutation
import NautilusAgents.ScalarAcceptance
import NautilusAgents.SimilarDocuments

/-!
# Which documents have the same value

Two peers may write one observation or one request in different ways, and who
reads both has to tell whether they are the same. For the five root types they
are the same value just when they are similar documents
(`Contract.decoded_similar_iff`): members may come in another order or without their
names, what is absent may be `null` or left out, a grant may list its
capabilities and instruments in any order and more than once, and the name of a
variant may stand alone or over `null`. Nothing else is forgotten. Positions,
instruments and omissions are lists, and their order is part of the value, and
every scalar has one spelling.
-/

open Serde

/-! ## Scalars have one spelling -/

/-- A checked text is kept as it was accepted. -/
theorem text_of_parseChecked {ε α : Type} {check : String → Except ε Unit}
    {make : (text : String) → check text = .ok () → α} {text : α → String}
    (htext : ∀ s h, text (make s h) = s) (s : String) (v : α)
    (h : (parseChecked check make s).toOption = some v) : text v = s := by
  rw [toOption_parseChecked (eq_ok_of_toOption_parseChecked h)] at h
  rw [← Option.some.inj h]
  exact htext s _

instance : Discerning InstrumentId :=
  discerning_text rfl (text_of_parseChecked (fun _ _ => rfl))

instance : Discerning PositionId :=
  discerning_text rfl (text_of_parseChecked (fun _ _ => rfl))

instance : Discerning IdempotencyKey :=
  discerning_text rfl (text_of_parseChecked (fun _ _ => rfl))

instance : Discerning Quantity :=
  discerning_text rfl (text_of_parseChecked (fun _ _ => rfl))

instance : Discerning ContentDigest :=
  discerning_text rfl (text_of_parseChecked (fun _ _ => rfl))

instance : Discerning FieldPath :=
  discerning_text rfl (text_of_parseChecked (fun _ _ => rfl))

/-- A timestamp is displayed as it was written, since its digits are those of the
number. -/
theorem TimestampNs.display_eq_of_accept (s : String) (t : TimestampNs)
    (h : CheckedText.accept s = some t) : CheckedText.asStr t = s := by
  cases hparse : parse s with
  | error e =>
    have hnone : (parse s).toOption = none := by
      rw [hparse]
      rfl
    cases hnone.symm.trans h
  | ok t' =>
    have hsome : (parse s).toOption = some t' := by
      rw [hparse]
      rfl
    obtain rfl : t' = t := Option.some.inj (hsome.symm.trans h)
    have hmem := matches_of_parseTimestamp hparse
    rw [parse_eq_of_mem hmem] at hparse
    split_ifs at hparse with hlt
    have hnumber : asU64 t' = denotes s := by
      rw [← Except.ok.inj hparse]
      exact UInt64.toNat_ofNat_of_lt hlt
    refine String.toList_inj.mp ?_
    show (display t').toList = s.toList
    rw [display, hnumber, Nat.toList_repr]
    exact toDigits_denotes hmem

instance : Discerning TimestampNs := discerning_text rfl TimestampNs.display_eq_of_accept

section Uuid

variable [UuidCrate] [UuidCrate.Grouped]

instance : Discerning RequestId :=
  discerning_text rfl (text_of_parseChecked (fun _ _ => rfl))

instance : Discerning ObservationId :=
  discerning_text rfl (text_of_parseChecked (fun _ _ => rfl))

instance : Discerning TraceId :=
  discerning_text rfl (text_of_parseChecked (fun _ _ => rfl))

instance : Discerning IntentId :=
  discerning_text rfl (text_of_parseChecked (fun _ _ => rfl))

instance : Discerning CorrelationId :=
  discerning_text rfl (text_of_parseChecked (fun _ _ => rfl))

end Uuid

/-! ## Structs and enums -/

instance : Discerning ObservationCapability := discerning_unitEnum (by decide)

instance : Discerning ProposalCapability := discerning_unitEnum (by decide)

instance : Discerning PositionSide := discerning_unitEnum (by decide)

instance : Discerning ProvenanceSource := discerning_unitEnum (by decide)

instance : Discerning OmissionReason := discerning_unitEnum (by decide)

instance : Discerning RetentionClass := discerning_unitEnum (by decide)

instance : Discerning ErrorCode := discerning_unitEnum (by decide)

instance : Discerning DecisionStatus := discerning_unitEnum (by decide)

instance : Discerning AgentFailureKind := discerning_unitEnum (by decide)

instance : Discerning ProtocolVersion := discerning_struct .pair (fun _ => rfl)

instance : Discerning CapabilityGrant := discerning_struct .pair (fun _ => rfl)

instance : Discerning PositionView := discerning_struct .pair (fun _ => rfl)

instance : Discerning InstrumentView := discerning_struct .pair (fun _ => rfl)

instance : Discerning LiveObservation := discerning_struct .pair (fun _ => rfl)

instance : Discerning SourceProvenance := discerning_struct .pair (fun _ => rfl)

instance : Discerning FieldOmission := discerning_struct .pair (fun _ => rfl)

instance : Discerning ReducePosition := discerning_struct .pair (fun _ => rfl)

/-- The name of the variant. -/
def ObservationPayload.tag : ObservationPayload → String
  | .live _ => "live"

instance : Discerning ObservationPayload where
  eq_iff := @enum_eq_iff _ ObservationPayload.tag _ _
    (.cons (discerningVariant_newtype (fun _ _ h => ObservationPayload.live.inj h)
      (fun _ => rfl)) .nil)

/-- The name of the variant. -/
def LiveIntent.tag : LiveIntent → String
  | .reducePosition _ => "reduce_position"

instance : Discerning LiveIntent where
  eq_iff := @enum_eq_iff _ LiveIntent.tag _ _
    (.cons (discerningVariant_newtype (fun _ _ h => LiveIntent.reducePosition.inj h)
      (fun _ => rfl)) .nil)

instance : Discerning LiveProposal := discerning_struct .pair (fun _ => rfl)

instance : Discerning DecisionError := discerning_struct .pair (fun _ => rfl)

instance : Discerning PolicyMetadata := discerning_struct .pair (fun _ => rfl)

instance : Discerning AgentFailure := discerning_struct .pair (fun _ => rfl)

/-- The name of the variant. -/
def TraceOutcome.tag : TraceOutcome → String
  | .proposed _ => "proposed"
  | .noProposal => "no_proposal"
  | .failed _ => "failed"

instance : Discerning TraceOutcome where
  eq_iff := @enum_eq_iff _ TraceOutcome.tag _ _
    (.cons (discerningVariant_newtype (fun _ _ h => TraceOutcome.proposed.inj h) (fun _ => rfl))
      (.cons (discerningVariant_unit rfl)
        (.cons (discerningVariant_newtype (fun _ _ h => TraceOutcome.failed.inj h)
          (fun _ => rfl)) .nil)))

section Roots

variable [UuidCrate] [UuidCrate.Grouped]

instance : Discerning ObservationRef := discerning_struct .pair (fun _ => rfl)

instance : Discerning Observation := discerning_struct .pair (fun _ => rfl)

instance : Discerning LiveProposalRequest := discerning_struct .pair (fun _ => rfl)

instance : Discerning ProtocolError := discerning_struct .pair (fun _ => rfl)

instance : Discerning CorrelationRefs := discerning_struct .pair (fun _ => rfl)

instance : Discerning DecisionReceipt := discerning_struct .pair (fun _ => rfl)

/-- The name of the variant. -/
def ProposalResponse.tag : ProposalResponse → String
  | .receipt _ => "receipt"
  | .error _ => "error"

instance : Discerning ProposalResponse where
  eq_iff := @enum_eq_iff _ ProposalResponse.tag _ _
    (.cons (discerningVariant_newtype (fun _ _ h => ProposalResponse.receipt.inj h)
      (fun _ => rfl))
      (.cons (discerningVariant_newtype (fun _ _ h => ProposalResponse.error.inj h)
        (fun _ => rfl)) .nil))

instance : Discerning AgentTrace := discerning_struct .pair (fun _ => rfl)

end Roots

/-! ## One value -/

/-- **What a type forgets of the documents it reads.** A document is similar to
the one its value is written as, and another is read as the same value just when
it is accepted and similar as well. -/
def ReadsSimilar (α : Type) [Serialize α] [Deserialize α] [Described α] [Grammatical α] : Prop :=
  ∀ (j : Json) (v : α), deserialize j = some v →
    Similar (Described.form α) j (serialize v) ∧
      ∀ j', deserialize j' = some v ↔
        Accepts (Grammatical.grammar α) j' ∧ Similar (Described.form α) j j'

namespace Contract

theorem readsSimilar (α : Type) [Serialize α] [Deserialize α] [LawfulSerde α] [Described α]
    [Grammatical α] [Discerning α] : ReadsSimilar α :=
  fun _ _ h => ⟨similar_serialize h, deserialize_eq_iff_similar h⟩

/-- **What reading a document of the protocol forgets**, for each root type: the
order of members and of the elements of sets, what is left out or repeated, and
how variants without payload are written. -/
theorem decoded_similar_iff [UuidCrate] [UuidCrate.Grouped] :
    ReadsSimilar Observation ∧ ReadsSimilar LiveProposalRequest ∧ ReadsSimilar DecisionReceipt ∧
      ReadsSimilar ProposalResponse ∧ ReadsSimilar AgentTrace :=
  ⟨readsSimilar _, readsSimilar _, readsSimilar _, readsSimilar _, readsSimilar _⟩

open Fixture in
/-- The fixture with a capability listed twice is similar to its own document. -/
theorem decoded_similar_iff_fixture :
    Accepts (Grammatical.grammar Observation) repeatedCapability ∧
      Similar (Described.form Observation) (serialize Fixture.observation) repeatedCapability :=
  ((decoded_similar_iff.1 (serialize Fixture.observation) Fixture.observation
    (deserialize_serialize Fixture.observation)).2 repeatedCapability).mp
      deserialize_repeatedCapability

end Contract
