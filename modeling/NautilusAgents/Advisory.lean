import NautilusAgents.Fixture

/-!
# Advisory checks

The local checks of a position-reduction proposal against an observation. A
report lists the findings in the order of the checks, and it is clear when
there is none.

Validation and the advisory checks are two separate readers of an observation,
and neither says by itself what a clear report means: the advisory checks take
the first view with the proposed identity, and only validation makes it the
only one. Joined, they say it exactly
(`AdvisoryValidator.isClear_iff_of_validateAt`): the proposal names one
observed position and one observed instrument that belong together, reduces by
no more than is open, and by a whole number of increments – and all of it was
disclosed under the grant.
-/

/-- Enumerates local advisory finding categories. -/
inductive AdvisoryCode where
  | unsupportedVersion
  | expiredObservation
  | digestMismatch
  | requiredFieldOmitted
  | positionMissing
  | instrumentMissing
  | positionInstrumentMismatch
  | quantityExceedsPosition
  | quantityIncrementMismatch
  deriving DecidableEq

/-- Classifies local advisory finding severity. -/
inductive AdvisorySeverity where
  | error
  deriving DecidableEq

/-- Describes one local advisory finding. -/
structure AdvisoryFinding where
  /-- What was found. -/
  code : AdvisoryCode
  /-- Whether it stands in the way of the proposal. -/
  severity : AdvisorySeverity
  /-- The field of the request or observation it is about. -/
  field : FieldPath
  /-- The text for a person. -/
  message : String
  deriving DecidableEq

/-- Contains every local finding for one advisory evaluation. -/
structure AdvisoryReport where
  /-- The findings, in the order of the checks. -/
  findings : List AdvisoryFinding
  deriving DecidableEq

/-- Whether no local finding was produced. -/
def AdvisoryReport.isClear (report : AdvisoryReport) : Bool := report.findings.isEmpty

/-- A finding about a field. -/
def finding (code : AdvisoryCode) (field : FieldPath) (message : String) : AdvisoryFinding :=
  ⟨code, .error, field, message⟩

/-- The segments of a path after its first slash: `split('/').skip(1)`. -/
def pathSegments (path : String) : List String :=
  ((path.toList.splitOn '/').map String.ofList).drop 1

/-- **Whether an omitted path covers data the checks need.** -/
def omissionIsRequired (path : String) : Bool :=
  match pathSegments path with
  | ["payload"] => true
  | ["payload", "live"] => true
  | ["payload", "live", "positions"] => true
  | ["payload", "live", "instruments"] => true
  | ["payload", "live", "positions", _] => true
  | ["payload", "live", "instruments", _] => true
  | ["payload", "live", "positions", _, field] =>
    field == "position_id" || field == "instrument_id" || field == "quantity"
  | ["payload", "live", "instruments", _, field] =>
    field == "instrument_id" || field == "quantity_increment"
  | _ => false

namespace AdvisoryValidator

section Definitions

variable [UuidCrate]

/-- **The checks of a reduction**, in order, ending early where the position
or the instrument is not observed. -/
def evaluateReduction (observation : Observation) (reduction : ReducePosition) :
    List AdvisoryFinding :=
  match observation.live.positions.find? (fun p => p.positionId == reduction.positionId) with
  | none =>
    [finding .positionMissing ⟨"/proposal/intent/reduce_position/position_id", rfl⟩
      "the proposed position does not appear in the observation"]
  | some position =>
    (if position.instrumentId ≠ reduction.instrumentId then
      [finding .positionInstrumentMismatch ⟨"/proposal/intent/reduce_position/instrument_id", rfl⟩
        "the proposed instrument differs from the observed position instrument"]
    else []) ++
    match observation.live.instruments.find?
        (fun v => v.instrumentId == reduction.instrumentId) with
    | none =>
      [finding .instrumentMissing ⟨"/proposal/intent/reduce_position/instrument_id", rfl⟩
        "the proposed instrument does not appear in the observation"]
    | some instrument =>
      (if reduction.quantity.cmp position.quantity = .gt then
        [finding .quantityExceedsPosition ⟨"/proposal/intent/reduce_position/quantity", rfl⟩
          "the reduction exceeds the observed open position quantity"]
      else []) ++
      (if ¬ reduction.quantity.isMultipleOf instrument.quantityIncrement then
        [finding .quantityIncrementMismatch ⟨"/proposal/intent/reduce_position/quantity", rfl⟩
          "the reduction does not align with the observed quantity increment"]
      else [])

/-- The findings about an observation's version. -/
def versionFindings (observation : Observation) : List AdvisoryFinding :=
  if ¬ observation.version.isSupported then
    [finding .unsupportedVersion ⟨"/version", rfl⟩
      "the observation protocol version is unsupported"]
  else []

/-- The findings about an observation's expiry. -/
def expiryFindings (observation : Observation) (now : TimestampNs) : List AdvisoryFinding :=
  if now > observation.expiresAt then
    [finding .expiredObservation ⟨"/expires_at", rfl⟩ "the observation has expired"]
  else []

/-- The findings about an observation's digest. -/
def digestFindings [Crates] (observation : Observation) : List AdvisoryFinding :=
  match observation.computedDigest with
  | .ok expected =>
    if expected ≠ observation.digest then
      [finding .digestMismatch ⟨"/digest", rfl⟩
        "the observation digest does not match its content"]
    else []
  | .error e =>
    [finding .digestMismatch ⟨"/digest", rfl⟩
      ("the observation digest cannot be computed: " ++ e.display)]

/-- The findings about an observation's omissions: one for each omission that
covers data the checks need. -/
def omissionFindings (observation : Observation) : List AdvisoryFinding :=
  (observation.omissions.filter (fun omission => omissionIsRequired omission.field.text)).map
    (fun omission => ⟨.requiredFieldOmitted, .error, omission.field,
      "the observation omits data needed to check the proposal"⟩)

/-- **Check one proposal against one observation and evaluation time.** -/
def evaluate [Crates] (observation : Observation) (proposal : LiveProposal)
    (now : TimestampNs) : AdvisoryReport :=
  match proposal.intent with
  | .reducePosition reduction =>
    ⟨versionFindings observation ++ expiryFindings observation now ++
      digestFindings observation ++ omissionFindings observation ++
      evaluateReduction observation reduction⟩

end Definitions

/-! ## Clear reports -/

/-- Where keys are distinct, the first element with a key is the only one. -/
theorem find?_eq_some_iff_filter_eq {α κ : Type} [DecidableEq κ] {key : α → κ} {k : κ} {v : α}
    {l : List α} (hnd : (l.map key).Nodup) :
    l.find? (fun x => key x == k) = some v ↔ l.filter (fun x => key x == k) = [v] := by
  induction l with
  | nil => simp
  | cons a l ih =>
    rw [List.map_cons, List.nodup_cons] at hnd
    rw [List.find?_cons, List.filter_cons]
    cases hk : key a == k with
    | false => simpa using ih hnd.2
    | true =>
      have hnone : l.filter (fun x => key x == k) = [] := by
        rw [List.filter_eq_nil_iff]
        intro x hx hxk
        rw [beq_iff_eq] at hk hxk
        exact hnd.1 (List.mem_map.mpr ⟨x, hx, by rw [hk, hxk]⟩)
      simp [hnone]

theorem ite_eq_nil_iff {α : Type} {p : Prop} [Decidable p] {a : α} :
    (if p then [a] else []) = [] ↔ ¬ p := by
  split_ifs with h <;> simp [h]

section Clear

variable [UuidCrate]

/-- **What the checks of a reduction leave without finding**: the first views
with the proposed identities are there, belong together, and fit the
quantity. -/
theorem evaluateReduction_eq_nil_iff (o : Observation) (r : ReducePosition) :
    evaluateReduction o r = [] ↔
      ∃ position instrument,
        o.live.positions.find? (fun p => p.positionId == r.positionId) = some position ∧
        o.live.instruments.find? (fun v => v.instrumentId == r.instrumentId) = some instrument ∧
        position.instrumentId = r.instrumentId ∧
        r.quantity.value ≤ position.quantity.value ∧
        ∃ k : ℕ, 0 < k ∧ r.quantity.value = k * instrument.quantityIncrement.value := by
  unfold evaluateReduction
  cases hp : o.live.positions.find? (fun p => p.positionId == r.positionId) with
  | none => simp
  | some position =>
    simp only [List.append_eq_nil_iff, ite_eq_nil_iff, not_not, ne_eq]
    cases hi : o.live.instruments.find? (fun v => v.instrumentId == r.instrumentId) with
    | none => simp
    | some instrument =>
      simp only [List.append_eq_nil_iff, ite_eq_nil_iff, not_not, Quantity.isMultipleOf_eq_true,
        ← ne_eq, Quantity.cmp_ne_gt_iff]
      constructor
      · rintro ⟨hinstr, hle, hmul⟩
        exact ⟨position, instrument, rfl, rfl, hinstr, hle, hmul⟩
      · rintro ⟨_, _, hp', hi', hinstr, hle, hmul⟩
        cases hp'
        cases hi'
        exact ⟨hinstr, hle, hmul⟩

theorem omissionFindings_eq_nil_iff (o : Observation) :
    omissionFindings o = [] ↔
      ∀ omission ∈ o.omissions, omissionIsRequired omission.field.text = false := by
  unfold omissionFindings
  rw [List.map_eq_nil_iff, List.filter_eq_nil_iff]
  simp only [Bool.not_eq_true]

variable [Crates]

theorem digestFindings_eq_nil_iff (o : Observation) :
    digestFindings o = [] ↔ o.computedDigest = .ok o.digest := by
  unfold digestFindings
  cases o.computedDigest with
  | ok expected => simp only [ite_eq_nil_iff, ne_eq, not_not, Except.ok.injEq]
  | error e => simp

/-- **A report is clear when each check is.** -/
theorem isClear_iff (o : Observation) (p : ReducePosition) (now : TimestampNs) :
    (evaluate o ⟨.reducePosition p⟩ now).isClear = true ↔
      versionFindings o = [] ∧ expiryFindings o now = [] ∧ digestFindings o = [] ∧
        omissionFindings o = [] ∧ evaluateReduction o p = [] := by
  unfold AdvisoryReport.isClear
  rw [List.isEmpty_iff, evaluate]
  show _ ++ _ ++ _ ++ _ ++ _ = [] ↔ _
  simp only [List.append_eq_nil_iff, and_assoc]

/-- The findings that repeat validation do not occur for an observation that
is valid at the evaluation time. -/
theorem findings_eq_nil_of_validateAt {o : Observation} {now : TimestampNs}
    (h : o.validateAt now = .ok ()) :
    versionFindings o = [] ∧ expiryFindings o now = [] ∧ digestFindings o = [] := by
  obtain ⟨hvalid, hnow⟩ := (o.validateAt_eq_ok_iff now).mp h
  obtain ⟨hstruct, hdigest⟩ := o.validate_eq_ok_iff.mp hvalid
  refine ⟨?_, ?_, ?_⟩
  · unfold versionFindings
    rw [ite_eq_nil_iff, not_not]
    exact hstruct.version
  · unfold expiryFindings
    rw [ite_eq_nil_iff]
    exact not_lt.mpr hnow
  · exact (digestFindings_eq_nil_iff o).mpr hdigest

/-- **A clear report on a valid observation**: the proposal names exactly one
observed position, on the instrument it proposes and with at least the
proposed quantity open, and exactly one observed instrument, of whose increment
the quantity is a positive multiple; nothing the checks need is omitted. And
then the instrument is granted, with both summaries. -/
theorem isClear_iff_of_validateAt (o : Observation) (now : TimestampNs) (p : ReducePosition)
    (h : o.validateAt now = .ok ()) :
    ((evaluate o ⟨.reducePosition p⟩ now).isClear = true ↔
      (∀ omission ∈ o.omissions, omissionIsRequired omission.field.text = false) ∧
      (∃ view, o.live.positions.filter (fun v => v.positionId == p.positionId) = [view] ∧
        view.instrumentId = p.instrumentId ∧ p.quantity.value ≤ view.quantity.value) ∧
      (∃ view, o.live.instruments.filter (fun v => v.instrumentId == p.instrumentId) = [view] ∧
        ∃ k : ℕ, 0 < k ∧ p.quantity.value = k * view.quantityIncrement.value)) ∧
    ((evaluate o ⟨.reducePosition p⟩ now).isClear = true →
      p.instrumentId ∈ o.grant.instruments.elems ∧
      .positionSummary ∈ o.grant.observations.elems ∧
      .instrumentSummary ∈ o.grant.observations.elems) := by
  have hstruct := (o.validate_eq_ok_iff.mp ((o.validateAt_eq_ok_iff now).mp h).1).1
  obtain ⟨hversion, hexpiry, hdigest⟩ := findings_eq_nil_of_validateAt h
  have hclear : (evaluate o ⟨.reducePosition p⟩ now).isClear = true ↔
      (∀ omission ∈ o.omissions, omissionIsRequired omission.field.text = false) ∧
      (∃ view, o.live.positions.filter (fun v => v.positionId == p.positionId) = [view] ∧
        view.instrumentId = p.instrumentId ∧ p.quantity.value ≤ view.quantity.value) ∧
      (∃ view, o.live.instruments.filter (fun v => v.instrumentId == p.instrumentId) = [view] ∧
        ∃ k : ℕ, 0 < k ∧ p.quantity.value = k * view.quantityIncrement.value) := by
    rw [isClear_iff, and_iff_right hversion, and_iff_right hexpiry, and_iff_right hdigest,
      omissionFindings_eq_nil_iff, evaluateReduction_eq_nil_iff]
    refine and_congr Iff.rfl ?_
    constructor
    · rintro ⟨position, instrument, hp, hi, hinstr, hle, hmul⟩
      exact ⟨⟨position, (find?_eq_some_iff_filter_eq hstruct.positionsDistinct).mp hp, hinstr, hle⟩,
        ⟨instrument, (find?_eq_some_iff_filter_eq hstruct.instrumentsDistinct).mp hi, hmul⟩⟩
    · rintro ⟨⟨position, hp, hinstr, hle⟩, ⟨instrument, hi, hmul⟩⟩
      exact ⟨position, instrument,
        (find?_eq_some_iff_filter_eq hstruct.positionsDistinct).mpr hp,
        (find?_eq_some_iff_filter_eq hstruct.instrumentsDistinct).mpr hi, hinstr, hle, hmul⟩
  refine ⟨hclear, fun hc => ?_⟩
  obtain ⟨-, ⟨position, hp, hinstr, -⟩, ⟨instrument, hi, -⟩⟩ := hclear.mp hc
  have hpmem : position ∈ o.live.positions :=
    List.mem_of_mem_filter (hp ▸ List.mem_singleton_self position)
  have himem : instrument ∈ o.live.instruments :=
    List.mem_of_mem_filter (hi ▸ List.mem_singleton_self instrument)
  refine ⟨hinstr ▸ hstruct.positionScope position hpmem, ?_, ?_⟩
  · exact hstruct.positionCapability.resolve_left (List.ne_nil_of_mem hpmem)
  · exact hstruct.instrumentCapability.resolve_left (List.ne_nil_of_mem himem)

end Clear

open Fixture in
/-- The fixture's reduction is clear of findings, so its instrument is
granted. -/
theorem isClear_iff_of_validateAt_fixture :
    reduction.instrumentId ∈ observation.grant.instruments.elems := by
  have hvalid : observation.validateAt observation.createdAt = .ok () := by
    unfold Observation.validateAt
    rw [validate_observation]
    rfl
  refine ((isClear_iff_of_validateAt observation observation.createdAt reduction hvalid).2 ?_).1
  obtain ⟨hversion, hexpiry, hdigest⟩ := findings_eq_nil_of_validateAt hvalid
  exact (isClear_iff _ _ _).mpr ⟨hversion, hexpiry, hdigest, rfl, rfl⟩

end AdvisoryValidator
