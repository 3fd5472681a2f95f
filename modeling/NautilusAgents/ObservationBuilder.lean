import NautilusAgents.ContentAddress
import NautilusAgents.Overwrites

/-!
# The observation builder

Consumers' tests build observations with a chain of setters and a final `build`,
which computes the digest and validates. A setter replaces one field
(`ObservationBuilder.overwrites`), so that what a chain leaves is a matter of
its last call for each field, in any order, and of the builder it starts from
elsewhere.

The digest is not among what can be set, and what it was does not matter. Of the
rules of validation the last one, about the digest, is kept by construction; so
what `build` reports is the first of the structural rules that is violated, and
what it returns is what was set, under its own digest
(`ObservationBuilder.build_chain`).
-/

/-- The path of the instruments in an observation. -/
theorem checkFieldPath_instruments : checkFieldPath "/payload/live/instruments" = .ok () := rfl

/-- The identity of the instrument. -/
theorem checkIdentifier_instrument : checkIdentifier "BTCUSDT.BINANCE" = .ok () := rfl

/-- The identity of the position. -/
theorem checkIdentifier_position : checkIdentifier "P-197" = .ok () := rfl

/-- The quantity of the position. -/
theorem validateQuantity_position : validateQuantity "2.75" = .ok () := rfl

/-- The quantity increment of the instrument. -/
theorem validateQuantity_increment : validateQuantity "0.25" = .ok () := rfl

section Builder

variable [UuidCrate]

/-- The deterministic observation a builder starts from, where its identity is
parsed. -/
def baseObservation : Option Observation :=
  (ObservationId.parse "10000000-0000-4000-8000-000000000011").toOption.map (fun id =>
    { version := .protocolVersion
      id := id
      createdAt := ⟨1712400000000000101⟩
      expiresAt := ⟨1712400030000000202⟩
      grant :=
        { observations := .ofList [.positionSummary, .instrumentSummary]
          proposals := .ofList [.reducePosition]
          instruments := .ofList [⟨"BTCUSDT.BINANCE", checkIdentifier_instrument⟩]
          expiresAt := ⟨1712400060000000303⟩ }
      provenance :=
        [⟨⟨"/payload/live/positions", checkFieldPath_positions⟩, .positionState,
            ⟨1712399999000000404⟩, some "position-revision-17"⟩,
          ⟨⟨"/payload/live/instruments", checkFieldPath_instruments⟩, .instrumentDefinition,
            ⟨1712399998000000505⟩, some "instrument-revision-23"⟩]
      omissions := []
      retention := .derived
      payload := .live
        { positions := [⟨⟨"P-197", checkIdentifier_position⟩,
            ⟨"BTCUSDT.BINANCE", checkIdentifier_instrument⟩, .long,
            ⟨"2.75", validateQuantity_position⟩, ⟨1712399997000000606⟩⟩]
          instruments := [⟨⟨"BTCUSDT.BINANCE", checkIdentifier_instrument⟩,
            ⟨"0.25", validateQuantity_increment⟩⟩] }
      digest := .new (Vector.replicate 32 0) })

/-- Builds a validated observation. -/
structure ObservationBuilder where
  /-- The observation as set so far. -/
  observation : Observation

namespace ObservationBuilder

/-- A builder of the deterministic observation. -/
def new : Option ObservationBuilder := baseObservation.map ObservationBuilder.mk

variable (builder : ObservationBuilder)

/-- Set the protocol version. -/
def version (v : ProtocolVersion) : ObservationBuilder :=
  ⟨{ builder.observation with version := v }⟩

/-- Set the observation identity. -/
def id (v : ObservationId) : ObservationBuilder := ⟨{ builder.observation with id := v }⟩

/-- Set the construction time. -/
def createdAt (v : TimestampNs) : ObservationBuilder :=
  ⟨{ builder.observation with createdAt := v }⟩

/-- Set the expiry time. -/
def expiresAt (v : TimestampNs) : ObservationBuilder :=
  ⟨{ builder.observation with expiresAt := v }⟩

/-- Set the disclosed capability grant. -/
def grant (v : CapabilityGrant) : ObservationBuilder := ⟨{ builder.observation with grant := v }⟩

/-- Set field provenance. -/
def provenance (v : List SourceProvenance) : ObservationBuilder :=
  ⟨{ builder.observation with provenance := v }⟩

/-- Set explicit field omissions. -/
def omissions (v : List FieldOmission) : ObservationBuilder :=
  ⟨{ builder.observation with omissions := v }⟩

/-- Set the recording retention class. -/
def retention (v : RetentionClass) : ObservationBuilder :=
  ⟨{ builder.observation with retention := v }⟩

/-- Set the protocol payload. -/
def payload (v : ObservationPayload) : ObservationBuilder :=
  ⟨{ builder.observation with payload := v }⟩

/-- **Recompute the digest and validate.** -/
def build [Crates] : Except ObservationError Observation :=
  match builder.observation.refreshDigest with
  | (.error e, _) => .error e
  | (.ok (), observation) =>
    match observation.validate with
    | .error e => .error e
    | .ok () => .ok observation

end ObservationBuilder

/-! ## Chains of setters -/

/-- The fields that can be set. -/
inductive BuilderField where
  | version
  | id
  | createdAt
  | expiresAt
  | grant
  | provenance
  | omissions
  | retention
  | payload
  deriving DecidableEq

/-- A call of a setter. -/
inductive SetterCall where
  | version (v : ProtocolVersion)
  | id (v : ObservationId)
  | createdAt (v : TimestampNs)
  | expiresAt (v : TimestampNs)
  | grant (v : CapabilityGrant)
  | provenance (v : List SourceProvenance)
  | omissions (v : List FieldOmission)
  | retention (v : RetentionClass)
  | payload (v : ObservationPayload)

/-- The field a call sets. -/
def SetterCall.field : SetterCall → BuilderField
  | .version _ => .version
  | .id _ => .id
  | .createdAt _ => .createdAt
  | .expiresAt _ => .expiresAt
  | .grant _ => .grant
  | .provenance _ => .provenance
  | .omissions _ => .omissions
  | .retention _ => .retention
  | .payload _ => .payload

/-- **An observation holds what a call sets.** -/
def SetterCall.HeldBy (o : Observation) : SetterCall → Prop
  | .version v => o.version = v
  | .id v => o.id = v
  | .createdAt v => o.createdAt = v
  | .expiresAt v => o.expiresAt = v
  | .grant v => o.grant = v
  | .provenance v => o.provenance = v
  | .omissions v => o.omissions = v
  | .retention v => o.retention = v
  | .payload v => o.payload = v

/-- **Two observations hold the same in a field.** -/
def BuilderField.SameIn (o o' : Observation) : BuilderField → Prop
  | .version => o.version = o'.version
  | .id => o.id = o'.id
  | .createdAt => o.createdAt = o'.createdAt
  | .expiresAt => o.expiresAt = o'.expiresAt
  | .grant => o.grant = o'.grant
  | .provenance => o.provenance = o'.provenance
  | .omissions => o.omissions = o'.omissions
  | .retention => o.retention = o'.retention
  | .payload => o.payload = o'.payload

/-- Call a setter. -/
def SetterCall.apply : SetterCall → ObservationBuilder → ObservationBuilder
  | .version v, builder => builder.version v
  | .id v, builder => builder.id v
  | .createdAt v, builder => builder.createdAt v
  | .expiresAt v, builder => builder.expiresAt v
  | .grant v, builder => builder.grant v
  | .provenance v, builder => builder.provenance v
  | .omissions v, builder => builder.omissions v
  | .retention v, builder => builder.retention v
  | .payload v, builder => builder.payload v

/-- **Each setter replaces its field.** -/
theorem ObservationBuilder.overwrites : Overwrites SetterCall.apply SetterCall.field where
  absorb s t builder h := by
    cases s <;> cases t <;> first | rfl | exact absurd h (by simp [SetterCall.field])
  comm s t builder h := by
    cases s <;> cases t <;> first | rfl | exact absurd rfl h

/-- What a setter is given is what is held. -/
theorem SetterCall.heldBy_apply (call : SetterCall) (builder : ObservationBuilder) :
    call.HeldBy (call.apply builder).observation := by
  cases call <;> rfl

/-- **A setter leaves the other fields as they are.** -/
theorem SetterCall.sameIn_apply (call : SetterCall) (builder : ObservationBuilder)
    {field : BuilderField} (h : field ≠ call.field) :
    field.SameIn builder.observation (call.apply builder).observation := by
  cases call <;> cases field <;> first | rfl | exact absurd rfl h

theorem BuilderField.SameIn.trans {field : BuilderField} {o o' o'' : Observation}
    (h : field.SameIn o o') (h' : field.SameIn o' o'') : field.SameIn o o'' := by
  cases field <;> exact Eq.trans h h'

/-- Fields that no call sets are left by a chain. -/
theorem sameIn_applyAll {calls : List SetterCall} {field : BuilderField}
    (h : field ∉ calls.map SetterCall.field) (builder : ObservationBuilder) :
    field.SameIn builder.observation (applyAll SetterCall.apply calls builder).observation := by
  induction calls generalizing builder with
  | nil => cases field <;> rfl
  | cons call calls ih =>
    rw [List.map_cons, List.mem_cons, not_or] at h
    exact (call.sameIn_apply builder h.1).trans (ih h.2 (call.apply builder))

/-- **A chain leaves what the last call for each field has set.** -/
theorem heldBy_applyAll {calls : List SetterCall} {call : SetterCall}
    (h : call ∈ lastWrites SetterCall.field calls) (builder : ObservationBuilder) :
    call.HeldBy (applyAll SetterCall.apply calls builder).observation := by
  rw [← ObservationBuilder.overwrites.apply_applyAll_of_mem h builder]
  exact call.heldBy_apply _

/-- Observations that differ in the digest only hold the same. -/
theorem heldBy_iff_of_digestDocument {o o' : Observation}
    (h : o.digestDocument = o'.digestDocument) (call : SetterCall) :
    call.HeldBy o ↔ call.HeldBy o' := by
  have hfields := ObservationDigest.ext_iff.mp h
  simp only [Observation.digestDocument] at hfields
  cases call <;> simp only [SetterCall.HeldBy, hfields]

theorem sameIn_of_digestDocument {o o' : Observation} (h : o.digestDocument = o'.digestDocument)
    (field : BuilderField) : field.SameIn o o' := by
  have hfields := ObservationDigest.ext_iff.mp h
  simp only [Observation.digestDocument] at hfields
  cases field <;> simp only [BuilderField.SameIn, hfields]

namespace ObservationBuilder

variable [Crates]

/-- **Only the structure can be wrong** with what is built. -/
theorem reports_build (hcanon : Crates.Rfc8785) (builder : ObservationBuilder) :
    Reports builder.observation.structuralRules builder.observation.refreshDigest.snd.validate := by
  have hrules := builder.observation.refreshDigest.snd.reports_validate
  have hstructural : builder.observation.refreshDigest.snd.structuralRules
      = builder.observation.structuralRules := by
    obtain ⟨digest, hrefresh⟩ := builder.observation.refreshDigest_snd
    rw [hrefresh]
    rfl
  unfold Observation.rules at hrules
  rw [hstructural] at hrules
  refine hrules.of_append (List.forall_mem_singleton.mpr (not_not_intro ?_))
  rw [Observation.computedDigest_refreshDigest]
  unfold Observation.refreshDigest
  rw [Observation.computedDigest_eq hcanon]

theorem build_eq (hcanon : Crates.Rfc8785) (builder : ObservationBuilder) :
    builder.build = builder.observation.refreshDigest.snd.validate.map
      (fun _ => builder.observation.refreshDigest.snd) := by
  have hok : builder.observation.refreshDigest.fst = .ok () := by
    unfold Observation.refreshDigest
    rw [Observation.computedDigest_eq hcanon]
  unfold build
  rcases hrefresh : builder.observation.refreshDigest with ⟨r, observation⟩
  rw [hrefresh] at hok
  obtain rfl : r = .ok () := hok
  simp only
  cases observation.validate <;> rfl

/-- **A chain of setters, built.** What is built is decided by the last call for
each field: leaving the others out changes nothing, nor does another order of
calls for different fields. It is an observation exactly where the structural
conditions hold of what was set, and otherwise the error of the first structural
rule that is violated. In each field, what was set is the value the last call for
it was given, or what the builder held where there is no such call; and so is
what the observation holds, which is valid under its own digest. -/
theorem build_chain (hcanon : Crates.Rfc8785) (builder : ObservationBuilder)
    (calls : List SetterCall) :
    (applyAll SetterCall.apply (lastWrites SetterCall.field calls) builder).build
      = (applyAll SetterCall.apply calls builder).build ∧
    (∀ calls', (lastWrites SetterCall.field calls').Perm (lastWrites SetterCall.field calls) →
      (applyAll SetterCall.apply calls' builder).build
        = (applyAll SetterCall.apply calls builder).build) ∧
    (∀ call ∈ lastWrites SetterCall.field calls,
      call.HeldBy (applyAll SetterCall.apply calls builder).observation) ∧
    (∀ field ∉ calls.map SetterCall.field, field.SameIn builder.observation
      (applyAll SetterCall.apply calls builder).observation) ∧
    ((∃ built, (applyAll SetterCall.apply calls builder).build = .ok built) ↔
      (applyAll SetterCall.apply calls builder).observation.WellStructured) ∧
    (∀ e, (applyAll SetterCall.apply calls builder).build = .error e ↔ ∃ before rule after,
      (applyAll SetterCall.apply calls builder).observation.structuralRules
        = before ++ rule :: after ∧
      (∀ earlier ∈ before, ¬ earlier.violated) ∧ rule.violated ∧ rule.error = e) ∧
    ∀ built, (applyAll SetterCall.apply calls builder).build = .ok built →
      built.validate = .ok () ∧
      (∀ call ∈ lastWrites SetterCall.field calls, call.HeldBy built) ∧
      (∀ field ∉ calls.map SetterCall.field, field.SameIn builder.observation built) ∧
      built.computedDigest = .ok built.digest := by
  refine ⟨by rw [overwrites.applyAll_lastWrites], fun calls' hperm => ?_, ?_⟩
  · rw [← overwrites.applyAll_lastWrites calls', ← overwrites.applyAll_lastWrites calls,
      overwrites.applyAll_perm hperm (nodup_lastWrites SetterCall.field calls')]
  have hset : ∀ call ∈ lastWrites SetterCall.field calls,
      call.HeldBy (applyAll SetterCall.apply calls builder).observation :=
    fun call hcall => heldBy_applyAll hcall builder
  have hkept : ∀ field ∉ calls.map SetterCall.field, field.SameIn builder.observation
      (applyAll SetterCall.apply calls builder).observation :=
    fun field hfield => sameIn_applyAll hfield builder
  refine ⟨hset, hkept, ?_⟩
  generalize applyAll SetterCall.apply calls builder = chained at hset hkept ⊢
  rw [build_eq hcanon]
  have hreports := reports_build hcanon chained
  have hvalid := Observation.validate_refreshDigest_eq_ok_iff hcanon chained.observation
  refine ⟨?_, fun e => ?_, fun built hbuilt => ?_⟩
  · rw [← hvalid]
    cases chained.observation.refreshDigest.snd.validate with
    | error e => exact iff_of_false (fun ⟨_, h⟩ => nomatch h) (fun h => nomatch h)
    | ok u => exact iff_of_true ⟨_, rfl⟩ rfl
  · rw [← reports_error_iff, ← hreports.eq_iff]
    cases chained.observation.refreshDigest.snd.validate with
    | error e' => exact ⟨fun h => congrArg Except.error (Except.error.inj h),
        fun h => congrArg Except.error (Except.error.inj h)⟩
    | ok u => exact iff_of_false (fun h => nomatch h) (fun h => nomatch h)
  · cases hvalidate : chained.observation.refreshDigest.snd.validate with
    | error e =>
      rw [hvalidate] at hbuilt
      cases hbuilt
    | ok u =>
      rw [hvalidate] at hbuilt
      obtain rfl := Except.ok.inj hbuilt
      -- the digest is not among the fields
      have hdocument := chained.observation.digestDocument_refreshDigest
      exact ⟨hvalidate,
        fun call hcall => (heldBy_iff_of_digestDocument hdocument call).mpr (hset call hcall),
        fun field hfield => (hkept field hfield).trans
          (sameIn_of_digestDocument hdocument.symm field),
        ((Observation.validate_eq_ok_iff _).mp hvalidate).2⟩

end ObservationBuilder

end Builder

namespace Fixture

/-- Calls that set both times and, twice, the retention class. -/
def setterCalls : List SetterCall :=
  [.retention .restricted, .expiresAt ⟨1712400020000000001⟩, .createdAt ⟨1712400010000000002⟩,
    .retention .referenceOnly]

end Fixture

open Fixture in
/-- The deterministic observation under these calls holds each time where it was
set, the retention class of the last call, and the identity it had. -/
theorem ObservationBuilder.build_chain_fixture :
    ∃ builder built, ObservationBuilder.new = some builder ∧
      (applyAll SetterCall.apply setterCalls builder).build = .ok built ∧
      built.validate = .ok () ∧ built.createdAt = ⟨1712400010000000002⟩ ∧
      built.expiresAt = ⟨1712400020000000001⟩ ∧ built.retention = .referenceOnly ∧
      builder.observation.id = built.id := by
  have hid : (ObservationId.parse "10000000-0000-4000-8000-000000000011").toOption
      = some Fixture.observation.id := toOption_parseChecked Fixture.observation.id.checked
  obtain ⟨-, -, -, -, hok, -, hbuilt⟩ := build_chain rfc8785
    ⟨{ Fixture.observation with digest := .new (Vector.replicate 32 0) }⟩ setterCalls
  obtain ⟨built, hbuild⟩ := hok.mpr (by constructor <;> decide)
  obtain ⟨hvalid, hset, hkept, -⟩ := hbuilt built hbuild
  have hlast : lastWrites SetterCall.field setterCalls = [.expiresAt ⟨1712400020000000001⟩,
      .createdAt ⟨1712400010000000002⟩, .retention .referenceOnly] := rfl
  rw [hlast] at hset
  refine ⟨_, built, ?_, hbuild, hvalid, hset (.createdAt _) (by simp),
    hset (.expiresAt _) (by simp), hset (.retention _) (by simp), hkept .id (by decide)⟩
  unfold ObservationBuilder.new baseObservation
  rw [hid]
  rfl
