import NautilusAgents.Advisory
import NautilusAgents.ContentAddress

/-!
# What a report says about the views

The checks of a reduction look for the first view with a given identity, in
each of the two lists of views, and stop where they find none. Whether a report
speaks about the observation or about the order of its lists depends on there
being one such view at most, which validation guarantees and the checks do not
ask for.

Three results follow the line between the two. Of a valid observation the views
may be listed in any order, and every report stays the same
(`AdvisoryValidator.evaluate_reordered`). Of any observation, a clear report is
about the first views, and about all of them where there is no second one
(`AdvisoryValidator.views_fit_of_isClear`). And where there is none, a report
holds the findings that are due unless an early return cuts them off
(`AdvisoryValidator.holdsEvery_iff`).
-/

/-! ## Elements with a key -/

/-- At most one element of a list has the key. -/
def AtMostOne {α κ : Type} [DecidableEq κ] (key : α → κ) (k : κ) (l : List α) : Prop :=
  (l.filter (fun x => key x == k)).length ≤ 1

section Keys

variable {α κ : Type} [DecidableEq κ] {key : α → κ} {k : κ} {l : List α}

instance : Decidable (AtMostOne key k l) := inferInstanceAs (Decidable (_ ≤ 1))

/-- **Where at most one element has the key, the search finds it.** -/
theorem AtMostOne.find?_eq_some_iff (h : AtMostOne key k l) (v : α) :
    l.find? (fun x => key x == k) = some v ↔ v ∈ l ∧ key v = k := by
  have hmem : v ∈ l.filter (fun x => key x == k) ↔ v ∈ l ∧ key v = k := by
    rw [List.mem_filter, beq_iff_eq]
  rw [← List.head?_filter, ← hmem]
  unfold AtMostOne at h
  cases hf : l.filter (fun x => key x == k) with
  | nil => simp
  | cons a rest =>
    rw [hf, List.length_cons] at h
    obtain rfl : rest = [] := List.length_eq_zero_iff.mp (by omega)
    rw [List.head?_cons, Option.some.injEq, List.mem_singleton]
    exact eq_comm

/-- What holds of some element with the key holds of the one found. -/
theorem AtMostOne.exists_iff (h : AtMostOne key k l) {v : α}
    (hv : l.find? (fun x => key x == k) = some v) (q : α → Prop) :
    (∃ x ∈ l, key x = k ∧ q x) ↔ q v := by
  constructor
  · rintro ⟨x, hmem, hk, hq⟩
    have hx := (h.find?_eq_some_iff x).mpr ⟨hmem, hk⟩
    rwa [Option.some.inj (hv.symm.trans hx)]
  · intro hq
    obtain ⟨hmem, hk⟩ := (h.find?_eq_some_iff v).mp hv
    exact ⟨v, hmem, hk, hq⟩

theorem find?_key_eq_none_iff :
    l.find? (fun x => key x == k) = none ↔ ∀ x ∈ l, key x ≠ k := by
  simp only [List.find?_eq_none, beq_iff_eq, ne_eq]

theorem atMostOne_of_nodup (h : (l.map key).Nodup) : AtMostOne key k l := by
  unfold AtMostOne
  cases hf : l.find? (fun x => key x == k) with
  | none =>
    rw [find?_key_eq_none_iff] at hf
    rw [List.filter_eq_nil_iff.mpr (fun x hx => by simpa using hf x hx)]
    exact Nat.zero_le _
  | some v =>
    rw [(AdvisoryValidator.find?_eq_some_iff_filter_eq h).mp hf]
    exact le_refl _

/-- **Where keys are distinct, the order of the elements does not matter.** -/
theorem find?_eq_of_perm {l' : List α} (hperm : l'.Perm l) (h : (l.map key).Nodup) :
    l'.find? (fun x => key x == k) = l.find? (fun x => key x == k) := by
  have h' : (l'.map key).Nodup := (hperm.map key).nodup_iff.mpr h
  ext v
  rw [(atMostOne_of_nodup h').find?_eq_some_iff, (atMostOne_of_nodup h).find?_eq_some_iff,
    hperm.mem_iff]

end Keys

/-! ## Reordered views -/

namespace Observation

variable [UuidCrate]

/-- An observation with other live views, under the same digest. -/
def withViews (o : Observation) (positions : List PositionView)
    (instruments : List InstrumentView) : Observation :=
  { o with payload := .live ⟨positions, instruments⟩ }

variable {o : Observation} {positions : List PositionView} {instruments : List InstrumentView}

/-- **No structural condition sees the order of the views.** -/
theorem WellStructured.withViews (h : o.WellStructured) (hp : positions.Perm o.live.positions)
    (hi : instruments.Perm o.live.instruments) :
    (o.withViews positions instruments).WellStructured where
  version := h.version
  expiry := h.expiry
  grantExpiry := h.grantExpiry
  positionCapability :=
    h.positionCapability.imp_left (fun hnil => by rw [hnil] at hp; exact hp.eq_nil)
  instrumentCapability :=
    h.instrumentCapability.imp_left (fun hnil => by rw [hnil] at hi; exact hi.eq_nil)
  positionScope p hmem := h.positionScope p (hp.subset hmem)
  positionsDistinct := (hp.map PositionView.positionId).nodup_iff.mpr h.positionsDistinct
  positionUpdates p hmem := h.positionUpdates p (hp.subset hmem)
  instrumentScope v hmem := h.instrumentScope v (hi.subset hmem)
  instrumentsDistinct := (hi.map InstrumentView.instrumentId).nodup_iff.mpr h.instrumentsDistinct

/-- Where the digest is refreshed, it matches. -/
theorem computedDigest_of_refreshDigest_ok [Crates] (h : o.refreshDigest.fst = .ok ()) :
    o.refreshDigest.snd.computedDigest = .ok o.refreshDigest.snd.digest := by
  rw [computedDigest_refreshDigest]
  unfold refreshDigest at h ⊢
  cases hd : o.computedDigest with
  | ok digest => rfl
  | error e => rw [hd] at h; cases h

end Observation

namespace Fixture

/-- The fixture's position with another identity and another quantity. -/
def positionView (positionId : PositionId) (quantity : Quantity) : PositionView :=
  ⟨positionId, instrument, .long, quantity, ⟨1712399997000000606⟩⟩

/-- The fixture with a second position. -/
def secondPosition : Observation :=
  (observation.withViews
    (observation.live.positions ++ [positionView ⟨"P-198", rfl⟩ ⟨"0.75", rfl⟩])
    observation.live.instruments).refreshDigest.snd

/-- The fixture with its position listed a second time, with less of it
open. -/
def repeatedPosition : Observation :=
  (observation.withViews (observation.live.positions ++ [positionView position ⟨"0.75", rfl⟩])
    observation.live.instruments).refreshDigest.snd

/-- A reduction of a position and on an instrument that the fixture does not
show. -/
def unobserved : ReducePosition where
  positionId := ⟨"P-198", rfl⟩
  instrumentId := ⟨"ETHUSDT.BINANCE", rfl⟩
  quantity := reduction.quantity

theorem validate_secondPosition : secondPosition.validate = .ok () := by
  refine (Observation.validate_refreshDigest_eq_ok_iff rfc8785 _).mpr ?_
  constructor <;> decide

end Fixture

namespace AdvisoryValidator

section Reordered

variable [UuidCrate]

/-- **The checks of a reduction read the views by search only.** -/
theorem evaluateReduction_congr {o o' : Observation} {r : ReducePosition}
    (hp : o'.live.positions.find? (fun p => p.positionId == r.positionId)
      = o.live.positions.find? (fun p => p.positionId == r.positionId))
    (hi : o'.live.instruments.find? (fun v => v.instrumentId == r.instrumentId)
      = o.live.instruments.find? (fun v => v.instrumentId == r.instrumentId)) :
    evaluateReduction o' r = evaluateReduction o r := by
  unfold evaluateReduction
  rw [hp, hi]

variable [Crates]

/-- **The order of the views does not matter.** A valid observation with its
positions and its instrument views in another order, its digest refreshed, is
valid again, and every proposal gets the same report on both, finding by
finding. -/
theorem evaluate_reordered (hcanon : Crates.Rfc8785) (o : Observation)
    (positions : List PositionView) (instruments : List InstrumentView)
    (hvalid : o.validate = .ok ()) (hp : positions.Perm o.live.positions)
    (hi : instruments.Perm o.live.instruments) :
    (o.withViews positions instruments).refreshDigest.fst = .ok () ∧
      (o.withViews positions instruments).refreshDigest.snd.validate = .ok () ∧
      ∀ (proposal : LiveProposal) (now : TimestampNs),
        evaluate (o.withViews positions instruments).refreshDigest.snd proposal now
          = evaluate o proposal now := by
  obtain ⟨hstruct, hdigest⟩ := o.validate_eq_ok_iff.mp hvalid
  have hok : (o.withViews positions instruments).refreshDigest.fst = .ok () := by
    unfold Observation.refreshDigest
    rw [Observation.computedDigest_eq hcanon]
  refine ⟨hok, ?_, fun ⟨.reducePosition p⟩ now => ?_⟩
  · exact ((o.withViews positions instruments).validate_refreshDigest_eq_ok_iff hcanon).mpr
      (hstruct.withViews hp hi)
  · have hnew := (digestFindings_eq_nil_iff _).mpr
      (Observation.computedDigest_of_refreshDigest_ok hok)
    obtain ⟨digest, hrefresh⟩ := (o.withViews positions instruments).refreshDigest_snd
    rw [hrefresh] at hnew ⊢
    have hreduction :
        evaluateReduction { o.withViews positions instruments with digest := digest } p
        = evaluateReduction o p :=
      evaluateReduction_congr (find?_eq_of_perm hp hstruct.positionsDistinct)
        (find?_eq_of_perm hi hstruct.instrumentsDistinct)
    unfold evaluate
    show AdvisoryReport.mk (_ ++ _ ++ _ ++ _ ++ _) = AdvisoryReport.mk (_ ++ _ ++ _ ++ _ ++ _)
    rw [hnew, hreduction, (digestFindings_eq_nil_iff o).mpr hdigest]
    rfl

end Reordered

open Fixture in
/-- The fixture with a second position, listed in either order. -/
theorem evaluate_reordered_fixture :
    evaluate (secondPosition.withViews (secondPosition.live.positions.reverse)
      secondPosition.live.instruments).refreshDigest.snd ⟨.reducePosition reduction⟩
        secondPosition.createdAt
      = evaluate secondPosition ⟨.reducePosition reduction⟩ secondPosition.createdAt :=
  (evaluate_reordered rfc8785 secondPosition _ _ validate_secondPosition
    (List.reverse_perm _) (List.Perm.refl _)).2.2 _ _

/-! ## Clear reports -/

section Clear

variable [UuidCrate]

/-- A position view covers a reduction. -/
def PositionFits (p : ReducePosition) (view : PositionView) : Prop :=
  view.instrumentId = p.instrumentId ∧ p.quantity.value ≤ view.quantity.value

/-- An instrument view divides the quantity of a reduction. -/
def InstrumentFits (p : ReducePosition) (view : InstrumentView) : Prop :=
  ∃ k : ℕ, p.quantity.value = k * view.quantityIncrement.value

variable [Crates]

/-- **A clear report is about the first views.** On any observation, clear
findings mean that the first position view and the first instrument view with
the proposed identities are there and fit the reduction; so every view with
one of the identities does where it is the only one, as it is in an observation
that validates. -/
theorem views_fit_of_isClear (o : Observation) (p : ReducePosition) (now : TimestampNs)
    (h : (evaluate o ⟨.reducePosition p⟩ now).isClear = true) :
    (∃ view, o.live.positions.find? (fun v => v.positionId == p.positionId) = some view ∧
      PositionFits p view) ∧
    (∃ view, o.live.instruments.find? (fun v => v.instrumentId == p.instrumentId) = some view ∧
      InstrumentFits p view) ∧
    (AtMostOne PositionView.positionId p.positionId o.live.positions →
      ∀ view ∈ o.live.positions, view.positionId = p.positionId → PositionFits p view) ∧
    (AtMostOne InstrumentView.instrumentId p.instrumentId o.live.instruments →
      ∀ view ∈ o.live.instruments, view.instrumentId = p.instrumentId → InstrumentFits p view) ∧
    (o.validate = .ok () → AtMostOne PositionView.positionId p.positionId o.live.positions ∧
      AtMostOne InstrumentView.instrumentId p.instrumentId o.live.instruments) := by
  obtain ⟨-, -, -, -, hreduction⟩ := (isClear_iff o p now).mp h
  obtain ⟨position, instrument, hp, hi, hinstrument, hle, k, -, hk⟩ :=
    (evaluateReduction_eq_nil_iff o p).mp hreduction
  refine ⟨⟨position, hp, hinstrument, hle⟩, ⟨instrument, hi, k, hk⟩, fun hone view hmem hid => ?_,
    fun hone view hmem hid => ?_, fun hvalid => ?_⟩
  · have hview := (hone.find?_eq_some_iff view).mpr ⟨hmem, hid⟩
    obtain rfl : position = view := Option.some.inj (hp.symm.trans hview)
    exact ⟨hinstrument, hle⟩
  · have hview := (hone.find?_eq_some_iff view).mpr ⟨hmem, hid⟩
    obtain rfl : instrument = view := Option.some.inj (hi.symm.trans hview)
    exact ⟨k, hk⟩
  · have hstruct := (o.validate_eq_ok_iff.mp hvalid).1
    exact ⟨atMostOne_of_nodup hstruct.positionsDistinct,
      atMostOne_of_nodup hstruct.instrumentsDistinct⟩

end Clear

open Fixture in
/-- The fixture with a second position. -/
theorem views_fit_of_isClear_fixture :
    ∃ view, secondPosition.live.positions.find? (fun v => v.positionId == reduction.positionId)
      = some view ∧ PositionFits reduction view := by
  refine (views_fit_of_isClear secondPosition reduction secondPosition.createdAt ?_).1
  have hdigest := (digestFindings_eq_nil_iff secondPosition).mpr
    (secondPosition.validate_eq_ok_iff.mp validate_secondPosition).2
  exact (isClear_iff _ _ _).mpr ⟨rfl, rfl, hdigest, rfl, rfl⟩

open Fixture in
/-- **A second view escapes the checks.** The digest of the observation
matches, the report is clear, and one of the two views with the proposed
identity has less than the proposed quantity open. -/
theorem isClear_with_second_view :
    repeatedPosition.computedDigest = .ok repeatedPosition.digest ∧
      (evaluate repeatedPosition ⟨.reducePosition reduction⟩ repeatedPosition.createdAt).isClear
        = true ∧
      ¬ ∀ view ∈ repeatedPosition.live.positions, view.positionId = reduction.positionId →
        PositionFits reduction view := by
  have hmatch : repeatedPosition.computedDigest = .ok repeatedPosition.digest :=
    Observation.computedDigest_of_refreshDigest_ok rfl
  have hdigest := (digestFindings_eq_nil_iff repeatedPosition).mpr hmatch
  refine ⟨hmatch, ?_, fun hall => ?_⟩
  · exact (isClear_iff _ _ _).mpr ⟨rfl, rfl, hdigest, rfl, rfl⟩
  · obtain ⟨-, hle⟩ := hall (positionView position ⟨"0.75", rfl⟩)
      (List.mem_cons_of_mem _ List.mem_cons_self) rfl
    rw [← Quantity.cmp_ne_gt_iff] at hle
    exact hle (by decide)

/-! ## Every finding that is due -/

section Due

variable [UuidCrate] [Crates]

/-- **When a finding is due**: the condition each code documents. -/
def Due (o : Observation) (p : ReducePosition) (now : TimestampNs) : AdvisoryCode → Prop
  | .unsupportedVersion => ¬ o.version.isSupported
  | .expiredObservation => o.expiresAt < now
  | .digestMismatch => o.computedDigest ≠ .ok o.digest
  | .requiredFieldOmitted =>
    ∃ omission ∈ o.omissions, omissionIsRequired omission.field.text = true
  | .positionMissing => ∀ view ∈ o.live.positions, view.positionId ≠ p.positionId
  | .instrumentMissing => ∀ view ∈ o.live.instruments, view.instrumentId ≠ p.instrumentId
  | .positionInstrumentMismatch => ∃ view ∈ o.live.positions,
    view.positionId = p.positionId ∧ view.instrumentId ≠ p.instrumentId
  | .quantityExceedsPosition => ∃ view ∈ o.live.positions,
    view.positionId = p.positionId ∧ view.quantity.value < p.quantity.value
  | .quantityIncrementMismatch => ∃ view ∈ o.live.instruments,
    view.instrumentId = p.instrumentId ∧
      ¬ ∃ k : ℕ, p.quantity.value = k * view.quantityIncrement.value

/-- The findings of a report on a reduction. -/
def findingsOf (o : Observation) (p : ReducePosition) (now : TimestampNs) :
    List AdvisoryFinding :=
  (evaluate o ⟨.reducePosition p⟩ now).findings

/-- **A report holds every local finding**: each code occurs exactly when it
is due, and the omissions that matter are listed one by one. -/
structure HoldsEvery (o : Observation) (p : ReducePosition) (now : TimestampNs) : Prop where
  /-- The codes found are those that are due. -/
  codes : ∀ code, code ∈ (findingsOf o p now).map AdvisoryFinding.code ↔ Due o p now code
  /-- Each omission that matters is reported under its field. -/
  omissions : ((findingsOf o p now).filter (fun f => f.code == .requiredFieldOmitted)).map
      AdvisoryFinding.field
    = (o.omissions.filter (fun omission => omissionIsRequired omission.field.text)).map
      FieldOmission.field

omit [UuidCrate] [Crates] in
theorem mem_codes_ite {c : Prop} [Decidable c] {f : AdvisoryFinding} {code : AdvisoryCode} :
    code ∈ (if c then [f] else []).map AdvisoryFinding.code ↔ c ∧ code = f.code := by
  split_ifs with h <;> simp [h]

theorem mem_codes_digestFindings (o : Observation) (code : AdvisoryCode) :
    code ∈ (digestFindings o).map AdvisoryFinding.code ↔
      o.computedDigest ≠ .ok o.digest ∧ code = .digestMismatch := by
  unfold digestFindings
  cases o.computedDigest with
  | ok expected =>
    rw [ne_eq, Except.ok.injEq]
    exact mem_codes_ite
  | error e => simp [finding]

omit [Crates] in
theorem mem_codes_omissionFindings (o : Observation) (code : AdvisoryCode) :
    code ∈ (omissionFindings o).map AdvisoryFinding.code ↔
      (∃ omission ∈ o.omissions, omissionIsRequired omission.field.text = true) ∧
        code = .requiredFieldOmitted := by
  unfold omissionFindings
  rw [List.map_map, List.mem_map]
  constructor
  · rintro ⟨omission, hmem, rfl⟩
    exact ⟨⟨omission, List.mem_filter.mp hmem⟩, rfl⟩
  · rintro ⟨⟨omission, hmem⟩, rfl⟩
    exact ⟨omission, List.mem_filter.mpr hmem, rfl⟩

/-- **The codes of a report**, those of the reduction apart. -/
theorem mem_codes_iff (o : Observation) (p : ReducePosition) (now : TimestampNs)
    (code : AdvisoryCode) :
    code ∈ (findingsOf o p now).map AdvisoryFinding.code ↔
      (¬ o.version.isSupported ∧ code = .unsupportedVersion) ∨
      (now > o.expiresAt ∧ code = .expiredObservation) ∨
      (o.computedDigest ≠ .ok o.digest ∧ code = .digestMismatch) ∨
      ((∃ omission ∈ o.omissions, omissionIsRequired omission.field.text = true) ∧
        code = .requiredFieldOmitted) ∨
      code ∈ (evaluateReduction o p).map AdvisoryFinding.code := by
  show code ∈ List.map AdvisoryFinding.code (_ ++ _ ++ _ ++ _ ++ _) ↔ _
  simp only [List.map_append, List.mem_append, mem_codes_digestFindings,
    mem_codes_omissionFindings, or_assoc]
  exact or_congr mem_codes_ite (or_congr mem_codes_ite Iff.rfl)

section Reduction

variable {o : Observation} {p : ReducePosition}

omit [Crates] in
/-- Without the position, nothing else is looked at. -/
theorem mem_codes_of_position_none
    (hp : o.live.positions.find? (fun v => v.positionId == p.positionId) = none)
    (code : AdvisoryCode) :
    code ∈ (evaluateReduction o p).map AdvisoryFinding.code ↔ code = .positionMissing := by
  unfold evaluateReduction
  rw [hp]
  exact List.mem_singleton

omit [Crates] in
/-- Without the instrument, the quantity is not looked at. -/
theorem mem_codes_of_instrument_none {position : PositionView}
    (hp : o.live.positions.find? (fun v => v.positionId == p.positionId) = some position)
    (hi : o.live.instruments.find? (fun v => v.instrumentId == p.instrumentId) = none)
    (code : AdvisoryCode) :
    code ∈ (evaluateReduction o p).map AdvisoryFinding.code ↔
      (position.instrumentId ≠ p.instrumentId ∧ code = .positionInstrumentMismatch) ∨
        code = .instrumentMissing := by
  unfold evaluateReduction
  rw [hp, hi]
  show code ∈ List.map AdvisoryFinding.code (_ ++ _) ↔ _
  rw [List.map_append, List.mem_append, mem_codes_ite]
  exact or_congr Iff.rfl List.mem_singleton

omit [Crates] in
theorem mem_codes_of_both {position : PositionView} {instrument : InstrumentView}
    (hp : o.live.positions.find? (fun v => v.positionId == p.positionId) = some position)
    (hi : o.live.instruments.find? (fun v => v.instrumentId == p.instrumentId)
      = some instrument)
    (code : AdvisoryCode) :
    code ∈ (evaluateReduction o p).map AdvisoryFinding.code ↔
      (position.instrumentId ≠ p.instrumentId ∧ code = .positionInstrumentMismatch) ∨
      (position.quantity.value < p.quantity.value ∧ code = .quantityExceedsPosition) ∨
      ((¬ ∃ k : ℕ, p.quantity.value = k * instrument.quantityIncrement.value) ∧
        code = .quantityIncrementMismatch) := by
  have hgt : p.quantity.cmp position.quantity = .gt ↔
      position.quantity.value < p.quantity.value := by
    rw [← not_le, ← Quantity.cmp_ne_gt_iff, not_ne_iff]
  unfold evaluateReduction
  rw [hp, hi]
  show code ∈ List.map AdvisoryFinding.code (_ ++ (_ ++ _)) ↔ _
  rw [List.map_append, List.mem_append, List.map_append, List.mem_append, mem_codes_ite,
    mem_codes_ite, mem_codes_ite, hgt, Quantity.isMultipleOf_iff]
  rfl

end Reduction

omit [UuidCrate] [Crates] in
theorem filter_code_eq_nil {fs : List AdvisoryFinding} {code : AdvisoryCode}
    (h : code ∉ fs.map AdvisoryFinding.code) : fs.filter (fun f => f.code == code) = [] := by
  rw [List.filter_eq_nil_iff]
  intro f hf hcode
  rw [beq_iff_eq] at hcode
  exact h (hcode ▸ List.mem_map_of_mem hf)

/-- The codes of the findings on a reduction. -/
def reductionCodes : List AdvisoryCode :=
  [.positionMissing, .instrumentMissing, .positionInstrumentMismatch, .quantityExceedsPosition,
    .quantityIncrementMismatch]

omit [Crates] in
/-- The checks of a reduction report no other codes. -/
theorem mem_reductionCodes {o : Observation} {p : ReducePosition} {code : AdvisoryCode}
    (h : code ∈ (evaluateReduction o p).map AdvisoryFinding.code) : code ∈ reductionCodes := by
  unfold reductionCodes
  cases hp : o.live.positions.find? (fun v => v.positionId == p.positionId) with
  | none =>
    rw [mem_codes_of_position_none hp] at h
    simp [h]
  | some position =>
    cases hi : o.live.instruments.find? (fun v => v.instrumentId == p.instrumentId) with
    | none =>
      rw [mem_codes_of_instrument_none hp hi] at h
      rcases h with ⟨-, rfl⟩ | rfl <;> simp
    | some instrument =>
      rw [mem_codes_of_both hp hi] at h
      rcases h with ⟨-, rfl⟩ | ⟨-, rfl⟩ | ⟨-, rfl⟩ <;> simp

/-- **The omissions that matter are listed in order.** -/
theorem omissions_eq (o : Observation) (p : ReducePosition) (now : TimestampNs) :
    ((findingsOf o p now).filter (fun f => f.code == .requiredFieldOmitted)).map
        AdvisoryFinding.field
      = (o.omissions.filter (fun omission => omissionIsRequired omission.field.text)).map
        FieldOmission.field := by
  have hversion : (versionFindings o).filter (fun f => f.code == .requiredFieldOmitted) = [] :=
    filter_code_eq_nil (fun h => by cases (mem_codes_ite.mp h).2)
  have hexpiry : (expiryFindings o now).filter (fun f => f.code == .requiredFieldOmitted) = [] :=
    filter_code_eq_nil (fun h => by cases (mem_codes_ite.mp h).2)
  have hdigest : (digestFindings o).filter (fun f => f.code == .requiredFieldOmitted) = [] :=
    filter_code_eq_nil (fun h => by cases ((mem_codes_digestFindings o _).mp h).2)
  have hreduction :
      (evaluateReduction o p).filter (fun f => f.code == .requiredFieldOmitted) = [] :=
    filter_code_eq_nil (fun h => absurd (mem_reductionCodes h) (by decide))
  have homissions : (omissionFindings o).filter (fun f => f.code == .requiredFieldOmitted)
      = omissionFindings o := by
    refine List.filter_eq_self.mpr (fun f hf => ?_)
    rw [beq_iff_eq]
    exact ((mem_codes_omissionFindings o f.code).mp (List.mem_map_of_mem hf)).2
  show List.map _ (List.filter _ (_ ++ _ ++ _ ++ _ ++ _)) = _
  rw [List.filter_append, List.filter_append, List.filter_append, List.filter_append, hversion,
    hexpiry, hdigest, hreduction, homissions, List.append_nil]
  show List.map _ (List.map _ _) = _
  rw [List.map_map]
  rfl

/-- Whether a report holds every local finding is a matter of the reduction's
codes: the others are tested one by one. -/
theorem holdsEvery_iff_reduction (o : Observation) (p : ReducePosition) (now : TimestampNs) :
    HoldsEvery o p now ↔ ∀ code ∈ reductionCodes,
      (code ∈ (evaluateReduction o p).map AdvisoryFinding.code ↔ Due o p now code) := by
  -- a code of the reduction is no other check's
  have hcodes : ∀ code ∈ reductionCodes, (code ∈ (findingsOf o p now).map AdvisoryFinding.code ↔
      code ∈ (evaluateReduction o p).map AdvisoryFinding.code) := by
    intro code hcode
    rw [mem_codes_iff]
    simp only [reductionCodes, List.mem_cons, List.not_mem_nil, or_false] at hcode
    rcases hcode with rfl | rfl | rfl | rfl | rfl <;> simp
  constructor
  · intro h code hcode
    rw [← h.codes code, hcodes code hcode]
  · intro h
    refine ⟨fun code => ?_, omissions_eq o p now⟩
    by_cases hcode : code ∈ reductionCodes
    · rw [hcodes code hcode, h code hcode]
    · rw [mem_codes_iff, iff_false_intro (fun hmem => hcode (mem_reductionCodes hmem))]
      cases code <;> simp [Due, reductionCodes] at hcode ⊢

/-- **What the early returns cut off.** Where at most one view of each kind has
the proposed identity, a report holds every local finding if and only if no
finding is due behind an early return: with the position missing, that is the
missing instrument or the quantity increment, and with the instrument missing,
the quantity that exceeds the position. -/
theorem holdsEvery_iff (o : Observation) (p : ReducePosition) (now : TimestampNs)
    (hpos : AtMostOne PositionView.positionId p.positionId o.live.positions)
    (hins : AtMostOne InstrumentView.instrumentId p.instrumentId o.live.instruments) :
    HoldsEvery o p now ↔
      (Due o p now .positionMissing →
        ¬ Due o p now .instrumentMissing ∧ ¬ Due o p now .quantityIncrementMismatch) ∧
      (Due o p now .instrumentMissing → ¬ Due o p now .quantityExceedsPosition) := by
  rw [holdsEvery_iff_reduction]
  simp only [reductionCodes, List.forall_mem_cons, List.not_mem_nil, false_imp_iff, imp_true_iff,
    and_true]
  cases hp : o.live.positions.find? (fun v => v.positionId == p.positionId) with
  | none =>
    have hnone := find?_key_eq_none_iff.mp hp
    have hmissing : Due o p now .positionMissing := hnone
    have hmismatch : ¬ Due o p now .positionInstrumentMismatch :=
      fun ⟨view, hmem, hid, _⟩ => hnone view hmem hid
    have hexceeds : ¬ Due o p now .quantityExceedsPosition :=
      fun ⟨view, hmem, hid, _⟩ => hnone view hmem hid
    simp [mem_codes_of_position_none hp, hmissing, hmismatch, hexceeds]
  | some position =>
    have hmissing : ¬ Due o p now .positionMissing := fun h =>
      absurd (find?_key_eq_none_iff.mpr h) (by rw [hp]; exact Option.some_ne_none _)
    have hmismatch : Due o p now .positionInstrumentMismatch ↔
      position.instrumentId ≠ p.instrumentId := hpos.exists_iff hp _
    have hexceeds : Due o p now .quantityExceedsPosition ↔
      position.quantity.value < p.quantity.value := hpos.exists_iff hp _
    cases hi : o.live.instruments.find? (fun v => v.instrumentId == p.instrumentId) with
    | none =>
      have hnone := find?_key_eq_none_iff.mp hi
      have hmissing' : Due o p now .instrumentMissing := hnone
      have hincrement : ¬ Due o p now .quantityIncrementMismatch :=
        fun ⟨view, hmem, hid, _⟩ => hnone view hmem hid
      simp [mem_codes_of_instrument_none hp hi, hmissing, hmissing', hmismatch, hincrement]
    | some instrument =>
      have hmissing' : ¬ Due o p now .instrumentMissing := fun h =>
        absurd (find?_key_eq_none_iff.mpr h) (by rw [hi]; exact Option.some_ne_none _)
      have hincrement : Due o p now .quantityIncrementMismatch ↔
          ¬ ∃ k : ℕ, p.quantity.value = k * instrument.quantityIncrement.value :=
        hins.exists_iff hi _
      simp [mem_codes_of_both hp hi, hmissing, hmissing', hmismatch, hexceeds, hincrement]

end Due

open Fixture in
/-- The fixture's own reduction is checked against views that are there, so
its report holds every finding that is due. -/
theorem holdsEvery_iff_fixture : HoldsEvery observation reduction observation.createdAt := by
  refine (holdsEvery_iff observation reduction observation.createdAt (by decide) (by decide)).mpr
    ⟨fun h => absurd rfl (h _ List.mem_cons_self), fun h => absurd rfl (h _ List.mem_cons_self)⟩

open Fixture in
/-- **A missing position masks a missing instrument.** -/
theorem not_holdsEvery_unobserved :
    AtMostOne PositionView.positionId unobserved.positionId observation.live.positions ∧
      AtMostOne InstrumentView.instrumentId unobserved.instrumentId
        observation.live.instruments ∧
      ¬ HoldsEvery observation unobserved observation.createdAt := by
  refine ⟨by decide, by decide, fun h => ?_⟩
  have hmissing : Due observation unobserved observation.createdAt .instrumentMissing :=
    find?_key_eq_none_iff.mp rfl
  have hcode := ((holdsEvery_iff_reduction _ _ _).mp h .instrumentMissing (by decide)).mpr hmissing
  rw [mem_codes_of_position_none rfl] at hcode
  cases hcode

end AdvisoryValidator
