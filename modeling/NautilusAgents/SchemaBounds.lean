import NautilusAgents.ExactSchema
import NautilusAgents.Mutation
import NautilusAgents.ScalarAcceptance
import NautilusAgents.ScalarTexts

/-!
# The bounds the contract does not state

Who writes documents after the published schemas needs to know what else is
asked of them. A peer that keeps to the schemas keeps to the types: the schemas
are exact (`Serde.Exact`) but for three things about scalars. A timestamp has to
fit 64 bits and an identifier 255 bytes where the schemas bound neither the
digits nor the bytes, and a version is read from digits only, where the schemas
accept an integer however it is written. Scalars of every other kind are
accepted where their schema is met.

So the contract and the code part in no other way than these: a document that
meets a published schema and repeats no name is read, within the bounds and with
its numbers written in digits, and what the decoders read beyond that is not
plain (`Contract.decoded_plain_iff`). In the other direction there is nothing to
ask. Whatever value is encoded, in whatever order of members, meets its schema
(`Contract.encoded_meets_schema`).
-/

open Serde

/-! ## The bounds -/

namespace Contract

/-- What a check asks of a text beyond its schema. -/
def beyondSchema (accepts : String → Bool) (s : String) : Prop :=
  (Grammar.text accepts = Grammatical.grammar TimestampNs → TimestampNs.denotes s < 2 ^ 64) ∧
    (Grammar.text accepts = Grammatical.grammar InstrumentId ∨
      Grammar.text accepts = Grammatical.grammar PositionId → s.utf8ByteSize ≤ 255)

/-- **A document is within the bounds**: where it is read by a grammar, each
text that stands for a timestamp denotes a number of 64 bits, and each text that
stands for an identifier has at most 255 bytes. -/
structure WithinBounds (g : Grammar) (j : Json) : Prop where
  /-- A timestamp denotes a number of 64 bits. -/
  timestamps : ∀ path s, Grammar.At g j path (Grammatical.grammar TimestampNs) (.str s) →
    TimestampNs.denotes s < 2 ^ 64
  /-- An identifier has at most 255 bytes. -/
  identifiers : ∀ path s, Grammar.At g j path (Grammatical.grammar InstrumentId) (.str s) ∨
    Grammar.At g j path (Grammatical.grammar PositionId) (.str s) → s.utf8ByteSize ≤ 255

theorem textsMeet_beyondSchema_iff {g : Grammar} {j : Json} :
    TextsMeet beyondSchema g j ↔ WithinBounds g j := by
  constructor
  · intro h
    refine ⟨fun path s hat => (h path _ s hat).1 rfl, fun path s hat => ?_⟩
    rcases hat with hat | hat
    · exact (h path _ s hat).2 (.inl rfl)
    · exact (h path _ s hat).2 (.inr rfl)
  · intro h path accepts s hat
    refine ⟨fun heq => h.timestamps path s (heq ▸ hat), fun heq => h.identifiers path s ?_⟩
    rcases heq with heq | heq
    · exact .inl (heq ▸ hat)
    · exact .inr (heq ▸ hat)

end Contract

/-- A checked text is accepted where its check passes. -/
theorem isSome_parseChecked_iff {ε α : Type} {check : String → Except ε Unit}
    {make : (text : String) → check text = .ok () → α} {value : String} :
    (parseChecked check make value).toOption.isSome = true ↔ check value = .ok () := by
  constructor
  · intro h
    obtain ⟨v, hv⟩ := Option.isSome_iff_exists.mp h
    exact eq_ok_of_toOption_parseChecked hv
  · intro h
    rw [toOption_parseChecked h]
    rfl

/-- A timestamp is accepted where it matches its pattern and fits 64 bits. -/
theorem TimestampNs.isSome_parse_iff (s : String) :
    (parse s).toOption.isSome = true ↔
      s.toList ∈ timestampPattern.language ∧ denotes s < 2 ^ 64 := by
  constructor
  · intro h
    cases hparse : parse s with
    | error e =>
      rw [hparse] at h
      cases h
    | ok t =>
      have hmem := matches_of_parseTimestamp hparse
      refine ⟨hmem, ?_⟩
      rw [parse_eq_of_mem hmem] at hparse
      split_ifs at hparse with hlt
      exact hlt
  · rintro ⟨hmem, hlt⟩
    rw [parse_eq_of_mem hmem, if_pos hlt]
    rfl

namespace Contract

/-- **What is accepted is within the bounds.** -/
theorem beyondSchema_of_accepts (accepts : String → Bool) (s : String) (h : accepts s = true) :
    beyondSchema accepts s := by
  refine ⟨fun heq => ?_, fun heq => ?_⟩
  · obtain rfl := Grammar.text.inj heq
    exact ((TimestampNs.isSome_parse_iff s).mp h).2
  · have hcheck : checkIdentifier s = .ok () := by
      rcases heq with heq | heq
      · obtain rfl := Grammar.text.inj heq
        exact isSome_parseChecked_iff.mp h
      · obtain rfl := Grammar.text.inj heq
        exact isSome_parseChecked_iff.mp h
    exact ((checkIdentifier_eq_ok_iff s).mp hcheck).2

/-! ## Scalars -/

/-- **A checked text has an exact schema** where the schema and the condition
together are what its check asks for. -/
theorem exact_text {α : Type} [CheckedText α] [Described α] (hform : Described.form α = .scalar)
    (htype : ∀ j, Described.schema α j → Schema.type [.string] j)
    (hcheck : ∀ t, Described.schema α (.str t) →
      beyondSchema (fun t => (CheckedText.accept (α := α) t).isSome) t →
        (CheckedText.accept (α := α) t).isSome = true)
    (hrequired : Described.required α = true) : Exact beyondSchema α where
  plain _ _ := hform ▸ .scalar
  accepts {j} _ hnatural hschema htexts :=
    accepts_of_text (htype j) hcheck hnatural hschema htexts
  isOptional h := by
    rw [hrequired] at h
    cases h

/-- The schema of a pattern asks for a text. -/
theorem type_of_string {p : Pattern} (j : Json) (h : Schema.string p j) :
    Schema.type [.string] j := by
  simp only [Schema.string, Schema.allOf_cons] at h
  exact h.2.1

/-- And so does one of a pattern and lengths. -/
theorem type_of_bounded {most least : ℕ} {p : Pattern} (j : Json)
    (h : Schema.allOf [Schema.maxLength most, Schema.minLength least, Schema.pattern p,
      Schema.type [.string]] j) : Schema.type [.string] j := by
  simp only [Schema.allOf_cons] at h
  exact h.2.2.2.1

end Contract

open Contract

instance : Exact beyondSchema InstrumentId :=
  exact_text rfl type_of_bounded (fun t hschema hbound => isSome_parseChecked_iff.mpr
    ((checkIdentifier_eq_ok_iff t).mpr ⟨hschema, hbound.2 (.inl rfl)⟩)) rfl

instance : Exact beyondSchema PositionId :=
  exact_text rfl type_of_bounded (fun t hschema hbound => isSome_parseChecked_iff.mpr
    ((checkIdentifier_eq_ok_iff t).mpr ⟨hschema, hbound.2 (.inr rfl)⟩)) rfl

instance : Exact beyondSchema IdempotencyKey :=
  exact_text rfl type_of_bounded (fun t hschema _ => isSome_parseChecked_iff.mpr
    ((checkIdempotencyKey_eq_ok_iff t).mpr hschema)) rfl

instance : Exact beyondSchema Quantity :=
  exact_text rfl type_of_string (fun t hschema _ => isSome_parseChecked_iff.mpr
    ((Quantity.mem_language_iff t).mp (Schema.string_str.mp hschema))) rfl

instance : Exact beyondSchema TimestampNs :=
  exact_text rfl type_of_string (fun t hschema hbound => (TimestampNs.isSome_parse_iff t).mpr
    ⟨Schema.string_str.mp hschema, hbound.1 rfl⟩) rfl

instance : Exact beyondSchema ContentDigest :=
  exact_text rfl type_of_string (fun t hschema _ => isSome_parseChecked_iff.mpr
    (exists_parseChecked_iff.mp ((ContentDigest.texts t).1.mpr hschema))) rfl

instance : Exact beyondSchema FieldPath :=
  exact_text rfl type_of_string (fun t hschema _ => isSome_parseChecked_iff.mpr
    (exists_parseChecked_iff.mp ((FieldPath.exists_parse_iff_mem t).mpr
      (Schema.string_str.mp hschema)))) rfl

section Uuid

variable [UuidCrate] [UuidCrate.Grouped]

/-- An identity is accepted where it matches its pattern. -/
theorem checkUuid_of_schema {t : String} (h : Schema.string uuidPattern (.str t)) :
    checkUuid t = .ok () :=
  (checkUuid_eq_ok_iff t).1.mpr (Schema.string_str.mp h)

instance : Exact beyondSchema RequestId :=
  exact_text rfl type_of_string
    (fun _ hschema _ => isSome_parseChecked_iff.mpr (checkUuid_of_schema hschema)) rfl

instance : Exact beyondSchema ObservationId :=
  exact_text rfl type_of_string
    (fun _ hschema _ => isSome_parseChecked_iff.mpr (checkUuid_of_schema hschema)) rfl

instance : Exact beyondSchema TraceId :=
  exact_text rfl type_of_string
    (fun _ hschema _ => isSome_parseChecked_iff.mpr (checkUuid_of_schema hschema)) rfl

instance : Exact beyondSchema IntentId :=
  exact_text rfl type_of_string
    (fun _ hschema _ => isSome_parseChecked_iff.mpr (checkUuid_of_schema hschema)) rfl

instance : Exact beyondSchema CorrelationId :=
  exact_text rfl type_of_string
    (fun _ hschema _ => isSome_parseChecked_iff.mpr (checkUuid_of_schema hschema)) rfl

end Uuid

/-! ## Structs and enums -/

instance : ExactFields beyondSchema (Struct.Tuple ProtocolVersion) := .pair

instance : ExactFields beyondSchema (Struct.Tuple CapabilityGrant) := .pair

instance : ExactFields beyondSchema (Struct.Tuple PositionView) := .pair

instance : ExactFields beyondSchema (Struct.Tuple InstrumentView) := .pair

instance : ExactFields beyondSchema (Struct.Tuple LiveObservation) := .pair

instance : ExactFields beyondSchema (Struct.Tuple SourceProvenance) := .pair

instance : ExactFields beyondSchema (Struct.Tuple FieldOmission) := .pair

instance : ExactFields beyondSchema (Struct.Tuple ReducePosition) := .pair

instance : Exact beyondSchema ObservationPayload where
  plain hf
    | .live view => plain_newtype hf rfl (Exact.plain beyondSchema hf view)
  accepts := accepts_of_enumSchema (by simp) (.cons (exactVariant_newtype _) .nil)

instance : Exact beyondSchema LiveIntent where
  plain hf
    | .reducePosition reduction => plain_newtype hf rfl (Exact.plain beyondSchema hf reduction)
  accepts := accepts_of_enumSchema (by simp) (.cons (exactVariant_newtype _) .nil)

instance : ExactFields beyondSchema (Struct.Tuple LiveProposal) := .pair

instance : ExactFields beyondSchema (Struct.Tuple DecisionError) := .pair

instance : ExactFields beyondSchema (Struct.Tuple PolicyMetadata) := .pair

instance : ExactFields beyondSchema (Struct.Tuple AgentFailure) := .pair

instance : Exact beyondSchema TraceOutcome where
  plain hf
    | .proposed proposal => plain_newtype hf rfl (Exact.plain beyondSchema hf proposal)
    | .noProposal => plain_unit hf _
    | .failed failure => plain_newtype hf rfl (Exact.plain beyondSchema hf failure)
  accepts := accepts_of_enumSchema (by simp) (.cons (exactVariant_newtype _)
    (.cons (exactVariant_unit _) (.cons (exactVariant_newtype _) .nil)))

section Roots

variable [UuidCrate] [UuidCrate.Grouped]

instance : ExactFields beyondSchema (Struct.Tuple ObservationRef) := .pair

instance : ExactFields beyondSchema (Struct.Tuple Observation) := .pair

instance : ExactFields beyondSchema (Struct.Tuple LiveProposalRequest) := .pair

instance : ExactFields beyondSchema (Struct.Tuple ProtocolError) := .pair

instance : ExactFields beyondSchema (Struct.Tuple CorrelationRefs) := .pair

instance : ExactFields beyondSchema (Struct.Tuple DecisionReceipt) := .pair

instance : Exact beyondSchema ProposalResponse where
  plain hf
    | .receipt receipt => plain_newtype hf rfl (Exact.plain beyondSchema hf receipt)
    | .error error => plain_newtype hf rfl (Exact.plain beyondSchema hf error)
  accepts := accepts_of_enumSchema (by simp) (.cons (exactVariant_newtype _)
    (.cons (exactVariant_newtype _) .nil))

instance : ExactFields beyondSchema (Struct.Tuple AgentTrace) := .pair

end Roots

/-! ## The contract and the code -/

namespace Contract

/-- The plain documents of a type that are read, by its schema. -/
theorem plain_iff_withinBounds {α : Type} [Serialize α] [Deserialize α] [Described α]
    [Grammatical α] [Exact beyondSchema α] (j : Json) :
    ((∃ v : α, deserialize j = some v) ∧ Plain (Described.form α) j) ↔
      (Described.schema α j ∧ j.DistinctNames ∧ j.Natural ∧
        WithinBounds (Grammatical.grammar α) j) := by
  rw [← textsMeet_beyondSchema_iff]
  exact exists_plain_iff beyondSchema_of_accepts j

section Roots

variable [UuidCrate] [UuidCrate.Grouped]

/-- **What is encoded meets the contract.** The document of every value of a
root type, with the members of its objects in any order, meets the published
schema. -/
theorem encoded_meets_schema {f : Json → Json} (hf : Json.Layout f) :
    (∀ v : Observation, observation (f (serialize v))) ∧
      (∀ v : LiveProposalRequest, liveProposalRequest (f (serialize v))) ∧
      (∀ v : DecisionReceipt, decisionReceipt (f (serialize v))) ∧
      (∀ v : ProposalResponse, proposalResponse (f (serialize v))) ∧
      ∀ v : AgentTrace, agentTrace (f (serialize v)) :=
  ⟨schema_layout (B := beyondSchema) hf, schema_layout (B := beyondSchema) hf,
    schema_layout (B := beyondSchema) hf, schema_layout (B := beyondSchema) hf,
    schema_layout (B := beyondSchema) hf⟩

/-- **The contract says what is read**, within the bounds. A document is plain
and decodes as a root type if and only if it meets the published schema, repeats
no name in an object, writes its numbers in digits, without a sign, a point or an
exponent, and is within the bounds of timestamps and identifiers, at every
depth. -/
theorem decoded_plain_iff (j : Json) :
    (((∃ v : Observation, deserialize j = some v) ∧ Plain (Described.form Observation) j) ↔
        (observation j ∧ j.DistinctNames ∧ j.Natural ∧
          WithinBounds (Grammatical.grammar Observation) j)) ∧
      (((∃ v : LiveProposalRequest, deserialize j = some v) ∧
          Plain (Described.form LiveProposalRequest) j) ↔
        (liveProposalRequest j ∧ j.DistinctNames ∧ j.Natural ∧
          WithinBounds (Grammatical.grammar LiveProposalRequest) j)) ∧
      (((∃ v : DecisionReceipt, deserialize j = some v) ∧
          Plain (Described.form DecisionReceipt) j) ↔
        (decisionReceipt j ∧ j.DistinctNames ∧ j.Natural ∧
          WithinBounds (Grammatical.grammar DecisionReceipt) j)) ∧
      (((∃ v : ProposalResponse, deserialize j = some v) ∧
          Plain (Described.form ProposalResponse) j) ↔
        (proposalResponse j ∧ j.DistinctNames ∧ j.Natural ∧
          WithinBounds (Grammatical.grammar ProposalResponse) j)) ∧
      (((∃ v : AgentTrace, deserialize j = some v) ∧ Plain (Described.form AgentTrace) j) ↔
        (agentTrace j ∧ j.DistinctNames ∧ j.Natural ∧
          WithinBounds (Grammatical.grammar AgentTrace) j)) :=
  ⟨plain_iff_withinBounds j, plain_iff_withinBounds j, plain_iff_withinBounds j,
    plain_iff_withinBounds j, plain_iff_withinBounds j⟩

end Roots

/-- A version with a point in it meets its schema and is not read. -/
example : protocolVersion (.obj [("major", .number "1.0"), ("minor", .nat 0)]) ∧
    (deserialize (.obj [("major", .number "1.0"), ("minor", .nat 0)]) : Option ProtocolVersion)
      = none := by
  have hvalue : Json.lexemeValue "1.0" = some 1 := by decide +kernel
  refine ⟨?_, rfl⟩
  unfold protocolVersion uint16
  simp [Schema.object_obj, Schema.maximum, Schema.minimum, Schema.type_singleton, Json.type,
    Json.numberValue, hvalue, List.lookup_cons]

open Fixture in
/-- The canonical document of the fixture meets its schema. -/
theorem encoded_meets_schema_fixture : observation (serialize Fixture.observation).canonical :=
  (encoded_meets_schema Json.layout_canonical).1 Fixture.observation

open Fixture in
/-- The document of the fixture meets its schema, repeats no name, writes its
numbers in digits and is within the bounds. -/
theorem decoded_plain_iff_fixture :
    observation (serialize Fixture.observation) ∧
      (serialize Fixture.observation).DistinctNames ∧
      (serialize Fixture.observation).Natural ∧
      WithinBounds (Grammatical.grammar Observation) (serialize Fixture.observation) :=
  (decoded_plain_iff (serialize Fixture.observation)).1.mp
    ⟨⟨Fixture.observation, deserialize_serialize Fixture.observation⟩,
      Exact.plain beyondSchema Json.layout_id Fixture.observation⟩

end Contract
