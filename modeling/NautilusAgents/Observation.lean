import NautilusAgents.FirstViolation
import NautilusAgents.Protocol

/-!
# Observations and their digests

The functions of an observation: its validation, its digest and the reference
that links to it.

Validation is described by the list of its rules, in order
(`Observation.rules`): what violates each, and the error with the identity it
carries. The validator is the outcome of testing them
(`Observation.reports_validate`), so that it accepts an observation when no
rule is violated and otherwise reports the first one that is. The loops over
the views thread the set of the identities seen so far, and the invariant that
carries them is that this set holds exactly the identities of the views before.

The digest is the SHA-256 of the canonical text of every other field. Two
observations with one digest agree on all of these fields, because the text
determines the document and the document the fields
(`Observation.computedDigest_eq_iff`).
-/

/-! ## Canonical texts -/

namespace Canonical

variable [Crates] {α : Type} [Serialize α]

/-- The RFC 8785 text of a value. -/
def toVec (value : α) : Except String (List UInt8) := Crates.canonicalToVec (serialize value)

/-- The SHA-256 digest of bytes that are already canonical. -/
def sha256Bytes (bytes : List UInt8) : ContentDigest := ContentDigest.new (Crates.sha256 bytes)

/-- The canonical SHA-256 digest of a value. -/
def sha256 (value : α) : Except String ContentDigest := (toVec value).map sha256Bytes

end Canonical

/-! ## Errors -/

/-- Reports a structural or digest error in an observation. -/
inductive ObservationError where
  | unsupportedVersion (version : ProtocolVersion)
  | expiryBeforeCreation
  | grantExpiresBeforeObservation
  | positionCapabilityMissing
  | instrumentCapabilityMissing
  | instrumentOutsideGrant (instrumentId : InstrumentId)
  | duplicatePosition (positionId : PositionId)
  | duplicateInstrument (instrumentId : InstrumentId)
  | positionUpdatedAfterCreation (positionId : PositionId)
  | digestMismatch (expected actual : ContentDigest)
  | expired (expiresAt : TimestampNs)
  | canonicalization (message : String)
  deriving DecidableEq

/-- The text of an error. -/
def ObservationError.display : ObservationError → String
  | unsupportedVersion version => "unsupported protocol version " ++ version.debug
  | expiryBeforeCreation => "observation expiry precedes creation"
  | grantExpiresBeforeObservation => "capability grant expires before observation"
  | positionCapabilityMissing =>
    "position summaries are present without a disclosed capability"
  | instrumentCapabilityMissing =>
    "instrument summaries are present without a disclosed capability"
  | instrumentOutsideGrant instrumentId =>
    "instrument " ++ instrumentId.text ++ " is outside the disclosed grant"
  | duplicatePosition positionId => "duplicate position " ++ positionId.text
  | duplicateInstrument instrumentId => "duplicate instrument " ++ instrumentId.text
  | positionUpdatedAfterCreation positionId =>
    "position " ++ positionId.text ++ " was updated after observation creation"
  | digestMismatch _ _ => "observation digest mismatch"
  | expired expiresAt => "observation expired at " ++ expiresAt.display
  | canonicalization message => "canonical observation serialization failed: " ++ message

/-- The path of the positions in an observation. -/
theorem checkFieldPath_positions : checkFieldPath "/payload/live/positions" = .ok () := rfl

namespace Observation

section Definitions

variable [UuidCrate]

/-- The live views of an observation. -/
def live (o : Observation) : LiveObservation :=
  match o.payload with
  | .live view => view

/-- The document the digest covers. -/
def digestDocument (o : Observation) : ObservationDigest :=
  ⟨o.version, o.id, o.createdAt, o.expiresAt, o.grant, o.provenance, o.omissions, o.retention,
    o.payload⟩

/-- The reference to an observation, from its stored identity and digest. -/
def reference (o : Observation) : ObservationRef := ⟨o.id, o.digest⟩

/-- **The loop over the positions**: scope, then duplicates, then the update
time, with the identities seen so far. -/
def validatePositions (o : Observation) :
    List PositionView → OrderedSet PositionId → Except ObservationError Unit
  | [], _ => .ok ()
  | position :: rest, positionIds =>
    if ¬ o.grant.instruments.contains position.instrumentId then
      .error (.instrumentOutsideGrant position.instrumentId)
    else if positionIds.contains position.positionId then
      .error (.duplicatePosition position.positionId)
    else if position.updatedAt > o.createdAt then
      .error (.positionUpdatedAfterCreation position.positionId)
    else validatePositions o rest (positionIds.insert position.positionId)

/-- **The loop over the instrument views**: scope, then duplicates. -/
def validateInstruments (o : Observation) :
    List InstrumentView → OrderedSet InstrumentId → Except ObservationError Unit
  | [], _ => .ok ()
  | instrument :: rest, instrumentIds =>
    if ¬ o.grant.instruments.contains instrument.instrumentId then
      .error (.instrumentOutsideGrant instrument.instrumentId)
    else if instrumentIds.contains instrument.instrumentId then
      .error (.duplicateInstrument instrument.instrumentId)
    else validateInstruments o rest (instrumentIds.insert instrument.instrumentId)

/-- **Validate the live views** against the grant. -/
def validateLivePayload (o : Observation) : Except ObservationError Unit :=
  if o.live.positions ≠ [] ∧ ¬ o.grant.observations.contains .positionSummary then
    .error .positionCapabilityMissing
  else if o.live.instruments ≠ [] ∧ ¬ o.grant.observations.contains .instrumentSummary then
    .error .instrumentCapabilityMissing
  else
    (o.validatePositions o.live.positions .empty).bind
      (fun _ => o.validateInstruments o.live.instruments .empty)

variable [Crates]

/-- **The digest over every field but the digest itself.** -/
def computedDigest (o : Observation) : Except ObservationError ContentDigest :=
  (Canonical.sha256 o.digestDocument).mapError .canonicalization

/-- **Validate the structure and the content digest.** -/
def validate (o : Observation) : Except ObservationError Unit :=
  if ¬ o.version.isSupported then .error (.unsupportedVersion o.version)
  else if o.expiresAt < o.createdAt then .error .expiryBeforeCreation
  else if o.grant.expiresAt < o.expiresAt then .error .grantExpiresBeforeObservation
  else
    o.validateLivePayload.bind (fun _ =>
      o.computedDigest.bind (fun expected =>
        if expected ≠ o.digest then .error (.digestMismatch expected o.digest) else .ok ()))

/-- Validate the observation at an evaluation time. -/
def validateAt (o : Observation) (now : TimestampNs) : Except ObservationError Unit :=
  o.validate.bind (fun _ => if now > o.expiresAt then .error (.expired o.expiresAt) else .ok ())

/-- **Recompute the digest**: the outcome and the observation left behind. -/
def refreshDigest (o : Observation) : Except ObservationError Unit × Observation :=
  match o.computedDigest with
  | .ok digest => (.ok (), { o with digest := digest })
  | .error e => (.error e, o)

end Definitions

/-! ## The rules of validation -/

section Rules

variable [UuidCrate]

/-- The rules of one position, with the positions before it. -/
def positionRules (o : Observation) (position : List PositionView × PositionView) :
    List (Rule ObservationError) :=
  [⟨position.snd.instrumentId ∉ o.grant.instruments.elems,
      .instrumentOutsideGrant position.snd.instrumentId⟩,
    ⟨position.snd.positionId ∈ position.fst.map PositionView.positionId,
      .duplicatePosition position.snd.positionId⟩,
    ⟨position.snd.updatedAt > o.createdAt,
      .positionUpdatedAfterCreation position.snd.positionId⟩]

/-- The rules of one instrument view, with the views before it. -/
def instrumentRules (o : Observation) (instrument : List InstrumentView × InstrumentView) :
    List (Rule ObservationError) :=
  [⟨instrument.snd.instrumentId ∉ o.grant.instruments.elems,
      .instrumentOutsideGrant instrument.snd.instrumentId⟩,
    ⟨instrument.snd.instrumentId ∈ instrument.fst.map InstrumentView.instrumentId,
      .duplicateInstrument instrument.snd.instrumentId⟩]

/-- The rules of the live views. -/
def payloadRules (o : Observation) : List (Rule ObservationError) :=
  [⟨o.live.positions ≠ [] ∧ .positionSummary ∉ o.grant.observations.elems,
      .positionCapabilityMissing⟩,
    ⟨o.live.instruments ≠ [] ∧ .instrumentSummary ∉ o.grant.observations.elems,
      .instrumentCapabilityMissing⟩]
    ++ ((withEarlier o.live.positions).flatMap o.positionRules
      ++ (withEarlier o.live.instruments).flatMap o.instrumentRules)

/-- The rules that do not concern the digest. -/
def structuralRules (o : Observation) : List (Rule ObservationError) :=
  [⟨¬ o.version.isSupported, .unsupportedVersion o.version⟩,
    ⟨o.expiresAt < o.createdAt, .expiryBeforeCreation⟩,
    ⟨o.grant.expiresAt < o.expiresAt, .grantExpiresBeforeObservation⟩] ++ o.payloadRules

/-- The error a digest other than the stored one is reported with. -/
def digestError [Crates] (o : Observation) : ObservationError :=
  match o.computedDigest with
  | .ok expected => .digestMismatch expected o.digest
  | .error e => e

/-- **The rules of validation, in order.** -/
def rules [Crates] (o : Observation) : List (Rule ObservationError) :=
  o.structuralRules ++ [⟨o.computedDigest ≠ .ok o.digest, o.digestError⟩]

/-! ## The validator tests the rules in order -/

/-- **The loop over the positions tests their rules**: the set threaded
through holds the identities of the positions before. -/
theorem reports_validatePositions (o : Observation) (earlier rest : List PositionView)
    (positionIds : OrderedSet PositionId)
    (hseen : ∀ id, id ∈ positionIds.elems ↔ id ∈ earlier.map PositionView.positionId) :
    Reports ((withEarlierFrom earlier rest).flatMap o.positionRules)
      (o.validatePositions rest positionIds) := by
  induction rest generalizing earlier positionIds with
  | nil => exact .nil
  | cons position rest ih =>
    unfold withEarlierFrom
    rw [List.flatMap_cons, validatePositions]
    simp only [positionRules, List.cons_append, List.nil_append, OrderedSet.contains_eq_true,
      hseen]
    refine .test (fun _ => .test (fun _ => .test (fun _ => ih _ _ (fun id => ?_))))
    rw [OrderedSet.mem_elems_insert, hseen, List.map_append, List.mem_append, or_comm]
    exact or_congr Iff.rfl List.mem_singleton.symm

/-- **The loop over the instrument views tests their rules.** -/
theorem reports_validateInstruments (o : Observation) (earlier rest : List InstrumentView)
    (instrumentIds : OrderedSet InstrumentId)
    (hseen : ∀ id, id ∈ instrumentIds.elems ↔ id ∈ earlier.map InstrumentView.instrumentId) :
    Reports ((withEarlierFrom earlier rest).flatMap o.instrumentRules)
      (o.validateInstruments rest instrumentIds) := by
  induction rest generalizing earlier instrumentIds with
  | nil => exact .nil
  | cons instrument rest ih =>
    unfold withEarlierFrom
    rw [List.flatMap_cons, validateInstruments]
    simp only [instrumentRules, List.cons_append, List.nil_append, OrderedSet.contains_eq_true,
      hseen]
    refine .test (fun _ => .test (fun _ => ih _ _ (fun id => ?_)))
    rw [OrderedSet.mem_elems_insert, hseen, List.map_append, List.mem_append, or_comm]
    exact or_congr Iff.rfl List.mem_singleton.symm

theorem reports_validateLivePayload (o : Observation) :
    Reports o.payloadRules o.validateLivePayload := by
  unfold payloadRules validateLivePayload
  simp only [OrderedSet.contains_eq_true]
  refine .test (fun _ => .test (fun _ => ?_))
  exact (o.reports_validatePositions [] _ _ (fun id => by simp)).bind
    (fun _ => o.reports_validateInstruments [] _ _ (fun id => by simp))

variable [Crates]

theorem reports_digest (o : Observation) :
    Reports [⟨o.computedDigest ≠ .ok o.digest, o.digestError⟩]
      (o.computedDigest.bind (fun expected =>
        if expected ≠ o.digest then .error (.digestMismatch expected o.digest) else .ok ())) := by
  unfold digestError
  cases h : o.computedDigest with
  | error e => exact @Reports.violated _ ⟨_, e⟩ _ (fun he => by cases he)
  | ok expected =>
    show Reports _ (if expected ≠ o.digest then _ else _)
    simp only [ne_eq, Except.ok.injEq]
    exact .test (fun _ => .nil)

/-- **The validator is the outcome of testing the rules in order.** -/
theorem reports_validate (o : Observation) : Reports o.rules o.validate := by
  unfold rules structuralRules validate
  refine .test (fun _ => .test (fun _ => .test (fun _ => ?_)))
  exact o.reports_validateLivePayload.bind (fun _ => o.reports_digest)

end Rules

/-! ## What a valid observation is -/

variable [UuidCrate]

/-- **The structural conditions of validation**, without order. -/
structure WellStructured (o : Observation) : Prop where
  /-- The version is supported. -/
  version : o.version.isSupported = true
  /-- The observation does not expire before it was created. -/
  expiry : o.createdAt ≤ o.expiresAt
  /-- Nor later than its grant. -/
  grantExpiry : o.expiresAt ≤ o.grant.expiresAt
  /-- Positions are disclosed only where they are granted. -/
  positionCapability : o.live.positions = [] ∨ .positionSummary ∈ o.grant.observations.elems
  /-- So are instruments. -/
  instrumentCapability :
    o.live.instruments = [] ∨ .instrumentSummary ∈ o.grant.observations.elems
  /-- Each position is on an instrument of the grant. -/
  positionScope : ∀ p ∈ o.live.positions, p.instrumentId ∈ o.grant.instruments.elems
  /-- No position is disclosed twice. -/
  positionsDistinct : (o.live.positions.map PositionView.positionId).Nodup
  /-- No position was updated after the observation was created. -/
  positionUpdates : ∀ p ∈ o.live.positions, p.updatedAt ≤ o.createdAt
  /-- Each instrument is one of the grant. -/
  instrumentScope : ∀ v ∈ o.live.instruments, v.instrumentId ∈ o.grant.instruments.elems
  /-- No instrument is disclosed twice. -/
  instrumentsDistinct : (o.live.instruments.map InstrumentView.instrumentId).Nodup

/-- The rules of the positions are kept exactly when the positions are in
scope, distinct and not updated too late. -/
theorem positionRules_kept_iff (o : Observation) :
    (∀ rule ∈ (withEarlier o.live.positions).flatMap o.positionRules, ¬ rule.violated) ↔
      (∀ p ∈ o.live.positions, p.instrumentId ∈ o.grant.instruments.elems) ∧
      (o.live.positions.map PositionView.positionId).Nodup ∧
      ∀ p ∈ o.live.positions, p.updatedAt ≤ o.createdAt := by
  rw [List.forall_mem_flatMap]
  simp only [positionRules, List.forall_mem_cons, List.not_mem_nil, false_imp_iff, imp_true_iff,
    and_true, not_not, gt_iff_lt, not_lt, forall_and]
  rw [forall_withEarlier_notMem,
    forall_withEarlier_snd (fun q : PositionView => q.instrumentId ∈ o.grant.instruments.elems),
    forall_withEarlier_snd (fun q : PositionView => q.updatedAt ≤ o.createdAt)]

/-- The rules of the instrument views are kept exactly when the views are in
scope and distinct. -/
theorem instrumentRules_kept_iff (o : Observation) :
    (∀ rule ∈ (withEarlier o.live.instruments).flatMap o.instrumentRules, ¬ rule.violated) ↔
      (∀ v ∈ o.live.instruments, v.instrumentId ∈ o.grant.instruments.elems) ∧
      (o.live.instruments.map InstrumentView.instrumentId).Nodup := by
  rw [List.forall_mem_flatMap]
  simp only [instrumentRules, List.forall_mem_cons, List.not_mem_nil, false_imp_iff, imp_true_iff,
    and_true, not_not, forall_and]
  rw [forall_withEarlier_notMem,
    forall_withEarlier_snd (fun q : InstrumentView => q.instrumentId ∈ o.grant.instruments.elems)]

/-- **No structural rule is violated exactly when the structural conditions
hold.** -/
theorem structuralRules_kept_iff (o : Observation) :
    (∀ rule ∈ o.structuralRules, ¬ rule.violated) ↔ o.WellStructured := by
  simp only [structuralRules, payloadRules, List.forall_mem_append, List.forall_mem_cons,
    List.not_mem_nil, false_imp_iff, imp_true_iff, and_true, positionRules_kept_iff,
    instrumentRules_kept_iff, not_not, not_lt, not_and, ne_eq]
  constructor
  · rintro ⟨⟨hversion, hexpiry, hgrant⟩, ⟨hpos, hins⟩, ⟨hps, hpd, hpu⟩, his, hid⟩
    exact ⟨hversion, hexpiry, hgrant, or_iff_not_imp_left.mpr hpos, or_iff_not_imp_left.mpr hins,
      hps, hpd, hpu, his, hid⟩
  · intro h
    exact ⟨⟨h.version, h.expiry, h.grantExpiry⟩,
      ⟨or_iff_not_imp_left.mp h.positionCapability, or_iff_not_imp_left.mp h.instrumentCapability⟩,
      ⟨h.positionScope, h.positionsDistinct, h.positionUpdates⟩, h.instrumentScope,
      h.instrumentsDistinct⟩

variable [Crates]

/-- **An observation is valid exactly when its structure is and its digest is
the one computed.** -/
theorem validate_eq_ok_iff (o : Observation) :
    o.validate = .ok () ↔ o.WellStructured ∧ o.computedDigest = .ok o.digest := by
  rw [o.reports_validate.eq_iff, reports_ok_iff, rules, List.forall_mem_append,
    structuralRules_kept_iff, List.forall_mem_singleton, not_not]

theorem validateAt_eq_ok_iff (o : Observation) (now : TimestampNs) :
    o.validateAt now = .ok () ↔ o.validate = .ok () ∧ now ≤ o.expiresAt := by
  unfold validateAt
  cases h : o.validate with
  | error e => simp [Except.bind]
  | ok u =>
    show (if now > o.expiresAt then _ else _) = _ ↔ _
    split_ifs with hlate
    · simp [hlate]
    · simp [not_lt.mp hlate]

theorem validateAt_eq_error_iff (o : Observation) (now : TimestampNs) (e : ObservationError) :
    o.validateAt now = .error e ↔ o.validate = .error e ∨
      (o.validate = .ok () ∧ o.expiresAt < now ∧ e = .expired o.expiresAt) := by
  unfold validateAt
  cases h : o.validate with
  | error e' => simp [Except.bind]
  | ok u =>
    show (if now > o.expiresAt then _ else _) = _ ↔ _
    split_ifs with hlate
    · simp [hlate, eq_comm]
    · simp [hlate]

/-- **Validation, rule by rule**: it accepts an observation exactly when every
condition holds, reports the first rule violated otherwise, with the identity
that violates it, and at a time also asks that the observation has not
expired. -/
theorem validate_reports_first_violation (o : Observation) (now : TimestampNs) :
    (o.validate = .ok () ↔ o.WellStructured ∧ o.computedDigest = .ok o.digest) ∧
      (∀ e, o.validate = .error e ↔ ∃ before rule after, o.rules = before ++ rule :: after ∧
        (∀ earlier ∈ before, ¬ earlier.violated) ∧ rule.violated ∧ rule.error = e) ∧
      (o.validateAt now = .ok () ↔ o.validate = .ok () ∧ now ≤ o.expiresAt) ∧
      (∀ e, o.validateAt now = .error e ↔ o.validate = .error e ∨
        (o.validate = .ok () ∧ o.expiresAt < now ∧ e = .expired o.expiresAt)) := by
  refine ⟨o.validate_eq_ok_iff, fun e => ?_, o.validateAt_eq_ok_iff now,
    o.validateAt_eq_error_iff now⟩
  rw [o.reports_validate.eq_iff]
  exact reports_error_iff

end Observation
