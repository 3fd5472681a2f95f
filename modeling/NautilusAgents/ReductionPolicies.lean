import NautilusAgents.AdvisoryViews
import NautilusAgents.QuantityGrammar
import NautilusAgents.Shadow

/-!
# The policies of the examples

Two policies that reduce the first position they see: the one by a fixed
quantity, the other only where more than a threshold is open. Both decide in a
block without an await, so that the first poll of their futures is the last and
no timer can come before it (`ProposalRunner.drive_run_deciding`).

What such a policy proposes it has copied from the observation, and the checks
of a proposal look the same identities up again. They find the very view that
was copied, since it is the first one with its identity, whatever else the
observation holds. So two of the findings are ruled out without validation, and
a third one by the policy's own numbers: more than the threshold is open, and a
reduction that is not above the threshold does not exceed it
(`DefensivePolicy.run_advised`). And as a quantity has one spelling only, two
fixed reductions are told apart by a comparison exactly when they are different
quantities (`ReductionPolicy.compared`).
-/

/-! ## Policies that decide at once -/

section Deciding

variable [UuidCrate]

/-- **A policy whose future is a block that decides on the observation.** -/
def ProposalPolicy.deciding (decide : Observation → Except ProposalError ProposalDecision) :
    ProposalPolicy (Option (Except PanicPayload (Except ProposalError ProposalDecision))) where
  propose observation := .ok (some (.ok (decide observation)))
  future := Future.block ProposalRunner.resumedAfterCompletion

variable [UnicodeTables] {τ τ' : Type}

/-- The outcome of a decision. -/
def ProposalDecision.outcome : ProposalDecision → TraceOutcome
  | .propose proposal => .proposed proposal
  | .noProposal => .noProposal

/-- **A policy that decides at once is not timed out**: its run is over in the
first round, whatever the timer says. -/
theorem ProposalRunner.drive_run_deciding
    {decide : Observation → Except ProposalError ProposalDecision} {observation : Observation}
    {decision : ProposalDecision} (h : decide observation = .ok decision) (config : RunnerConfig)
    (runtime : RunnerRuntime τ) (fuel : ℕ) :
    (((⟨.deciding decide, config, runtime⟩ : ProposalRunner _ τ).run observation).drive (fuel + 1)
      .unresumed).fst
      = .ok (some ((⟨.deciding decide, config, runtime⟩ : ProposalRunner _ τ).traceWith observation
        decision.outcome)) := by
  have hpropose : (ProposalPolicy.deciding decide).propose observation
      = .ok (some (.ok (.ok decision))) := by
    rw [← h]
    rfl
  refine (drive_run_iff hpropose (fuel + 1) _).mpr ⟨0, Nat.succ_pos fuel, ⟨?_, ?_⟩, ?_⟩
  · exact fun m hm => absurd hm (Nat.not_lt_zero m)
  · rintro ⟨hpending, -⟩
    cases hpending
  · cases decision <;> rfl

/-- A comparison of two policies that decide at once is over in one round. -/
theorem ShadowEvaluator.evaluate_deciding
    {decide decide' : Observation → Except ProposalError ProposalDecision} {shadowCase : ShadowCase}
    {decision decision' : ProposalDecision} (h : decide shadowCase.observation = .ok decision)
    (h' : decide' shadowCase.observation = .ok decision') (config config' : RunnerConfig)
    (runtime : RunnerRuntime τ) (runtime' : RunnerRuntime τ') (fuel : ℕ) :
    (⟨⟨.deciding decide, config, runtime⟩, ⟨.deciding decide', config', runtime'⟩⟩ :
      ShadowEvaluator _ τ _ τ').evaluate (fuel + 1) shadowCase
      = .ok (some ⟨shadowCase.name, decision.outcome, decision'.outcome,
        Shadow.differingFields decision.outcome decision'.outcome⟩) :=
  evaluate_eq_some_iff.mpr ⟨_, _, ProposalRunner.drive_run_deciding h config runtime fuel,
    ProposalRunner.drive_run_deciding h' config' runtime' fuel, rfl⟩

end Deciding

/-! ## Reductions of the first position -/

section Reductions

variable [UuidCrate]

/-- A reduction of a position that is observed. -/
def PositionView.reduceBy (position : PositionView) (quantity : Quantity) : ReducePosition :=
  ⟨position.positionId, position.instrumentId, quantity⟩

/-- Reduces the first position by a fixed quantity. -/
structure FixedReductionPolicy where
  /-- How much to reduce by. -/
  quantity : Quantity

/-- What the policy decides. -/
def FixedReductionPolicy.propose (policy : FixedReductionPolicy) (observation : Observation) :
    Except ProposalError ProposalDecision :=
  match observation.live.positions.head? with
  | none => .ok .noProposal
  | some position => .ok (.propose ⟨.reducePosition (position.reduceBy policy.quantity)⟩)

/-- Reduces the first position where more than a threshold is open. -/
structure DefensivePolicy where
  /-- What may stay open. -/
  threshold : Quantity
  /-- How much to reduce by. -/
  reduction : Quantity

/-- What the policy decides. -/
def DefensivePolicy.propose (policy : DefensivePolicy) (observation : Observation) :
    Except ProposalError ProposalDecision :=
  match observation.live.positions.head? with
  | none => .ok .noProposal
  | some position =>
    if position.quantity.cmp policy.threshold ≠ .gt then .ok .noProposal
    else .ok (.propose ⟨.reducePosition (position.reduceBy policy.reduction)⟩)

variable {o : Observation} {first : PositionView}

theorem FixedReductionPolicy.propose_of_none (policy : FixedReductionPolicy)
    (h : o.live.positions.head? = none) : policy.propose o = .ok .noProposal := by
  unfold propose
  rw [h]

theorem FixedReductionPolicy.propose_of_some (policy : FixedReductionPolicy)
    (h : o.live.positions.head? = some first) :
    policy.propose o = .ok (.propose ⟨.reducePosition (first.reduceBy policy.quantity)⟩) := by
  unfold propose
  rw [h]

theorem DefensivePolicy.propose_of_none (policy : DefensivePolicy)
    (h : o.live.positions.head? = none) : policy.propose o = .ok .noProposal := by
  unfold propose
  rw [h]

/-- No more than the threshold is open. -/
theorem DefensivePolicy.propose_of_le (policy : DefensivePolicy)
    (h : o.live.positions.head? = some first)
    (hle : first.quantity.value ≤ policy.threshold.value) :
    policy.propose o = .ok .noProposal := by
  unfold propose
  rw [h]
  exact if_pos ((Quantity.cmp_ne_gt_iff _ _).mpr hle)

/-- More than the threshold is open. -/
theorem DefensivePolicy.propose_of_lt (policy : DefensivePolicy)
    (h : o.live.positions.head? = some first)
    (hlt : policy.threshold.value < first.quantity.value) :
    policy.propose o = .ok (.propose ⟨.reducePosition (first.reduceBy policy.reduction)⟩) := by
  unfold propose
  rw [h]
  exact if_neg (fun hle => not_le.mpr hlt ((Quantity.cmp_ne_gt_iff _ _).mp hle))

/-! ### What the checks find -/

/-- **A view that comes first is the one the checks look up.** -/
theorem find?_first (h : o.live.positions.head? = some first) :
    o.live.positions.find? (fun p => p.positionId == first.positionId) = some first := by
  obtain ⟨rest, hpositions⟩ := List.head?_eq_some_iff.mp h
  rw [hpositions]
  exact List.find?_cons_of_pos (beq_self_eq_true _)

open AdvisoryValidator in
/-- **The checks of a reduction of the first position** look up its instrument
and compare quantities, and find nothing else. -/
theorem mem_codes_reduceBy_first (h : o.live.positions.head? = some first) (quantity : Quantity)
    {code : AdvisoryCode}
    (hcode : code ∈ (evaluateReduction o (first.reduceBy quantity)).map AdvisoryFinding.code) :
    code = .instrumentMissing ∨
      (first.quantity.value < quantity.value ∧ code = .quantityExceedsPosition) ∨
      code = .quantityIncrementMismatch := by
  have hposition := find?_first h
  cases hinstrument : o.live.instruments.find?
      (fun v => v.instrumentId == (first.reduceBy quantity).instrumentId) with
  | none =>
    rcases (mem_codes_of_instrument_none hposition hinstrument code).mp hcode with
      ⟨hmismatch, -⟩ | hmissing
    · exact absurd rfl hmismatch
    · exact .inl hmissing
  | some instrument =>
    rcases (mem_codes_of_both hposition hinstrument code).mp hcode with
      ⟨hmismatch, -⟩ | hexceeds | ⟨-, hincrement⟩
    · exact absurd rfl hmismatch
    · exact .inr (.inl hexceeds)
    · exact .inr (.inr hincrement)

variable [Crates]

open AdvisoryValidator in
/-- **A reduction of the first position is clear** when the observation itself
is and the quantity fits the position and the first view of its instrument. -/
theorem isClear_reduceBy_first_iff (h : o.live.positions.head? = some first) (quantity : Quantity)
    (now : TimestampNs) :
    (evaluate o ⟨.reducePosition (first.reduceBy quantity)⟩ now).isClear = true ↔
      o.version.isSupported ∧ now ≤ o.expiresAt ∧ o.computedDigest = .ok o.digest ∧
      (∀ omission ∈ o.omissions, omissionIsRequired omission.field.text = false) ∧
      quantity.value ≤ first.quantity.value ∧
      ∃ view, o.live.instruments.find? (fun v => v.instrumentId == first.instrumentId) = some view ∧
        ∃ k : ℕ, 0 < k ∧ quantity.value = k * view.quantityIncrement.value := by
  have hversion : versionFindings o = [] ↔ o.version.isSupported := by
    unfold versionFindings
    rw [ite_eq_nil_iff, not_not]
  have hexpiry : expiryFindings o now = [] ↔ now ≤ o.expiresAt := by
    unfold expiryFindings
    rw [ite_eq_nil_iff]
    exact not_lt
  rw [isClear_iff, hversion, hexpiry, digestFindings_eq_nil_iff, omissionFindings_eq_nil_iff,
    evaluateReduction_eq_nil_iff]
  refine and_congr_right (fun _ => and_congr_right (fun _ => and_congr_right (fun _ =>
    and_congr_right (fun _ => ?_))))
  constructor
  · rintro ⟨position, view, hposition, hview, -, hle, hmultiple⟩
    obtain rfl : first = position := Option.some.inj ((find?_first h).symm.trans hposition)
    exact ⟨hle, view, hview, hmultiple⟩
  · rintro ⟨hle, view, hview, hmultiple⟩
    exact ⟨first, view, find?_first h, hview, rfl, hle, hmultiple⟩

end Reductions

/-! ## Runs of the policies -/

section Runs

variable [UuidCrate] [UnicodeTables] {τ τ' : Type}

open AdvisoryValidator in
/-- **The defensive policy, run and checked.** On every observation, with every
clock and every timer, the run is over in one round. There is no proposal
exactly where no position is observed or no more than the threshold of the
first one is open. A proposal reduces the first position, of which more than
the threshold is open; at no time do the checks find its position missing or on
another instrument, nor the reduction above what is open where it is not above
the threshold; and they find nothing at all exactly where the observation is
supported, current, intact and complete and the reduction fits. -/
theorem DefensivePolicy.run_advised [Crates] (policy : DefensivePolicy) (config : RunnerConfig)
    (runtime : RunnerRuntime τ) (o : Observation) (fuel : ℕ) :
    ∃ trace, (((⟨.deciding policy.propose, config, runtime⟩ : ProposalRunner _ τ).run o).drive
        (fuel + 1) .unresumed).fst = .ok (some trace) ∧
      (trace.outcome = .noProposal ↔ ∀ first, o.live.positions.head? = some first →
        first.quantity.value ≤ policy.threshold.value) ∧
      (trace.outcome ≠ .noProposal → ∃ first, o.live.positions.head? = some first ∧
        policy.threshold.value < first.quantity.value ∧
        trace.outcome = .proposed ⟨.reducePosition (first.reduceBy policy.reduction)⟩ ∧
        ∀ now,
          (∀ code ∈ (findingsOf o (first.reduceBy policy.reduction) now).map AdvisoryFinding.code,
            code ≠ .positionMissing ∧ code ≠ .positionInstrumentMismatch ∧
            (policy.reduction.value ≤ policy.threshold.value →
              code ≠ .quantityExceedsPosition)) ∧
          ((evaluate o ⟨.reducePosition (first.reduceBy policy.reduction)⟩ now).isClear = true ↔
            o.version.isSupported ∧ now ≤ o.expiresAt ∧ o.computedDigest = .ok o.digest ∧
            (∀ omission ∈ o.omissions, omissionIsRequired omission.field.text = false) ∧
            policy.reduction.value ≤ first.quantity.value ∧
            ∃ view, o.live.instruments.find? (fun v => v.instrumentId == first.instrumentId)
                = some view ∧
              ∃ k : ℕ, 0 < k ∧ policy.reduction.value = k * view.quantityIncrement.value)) := by
  cases hhead : o.live.positions.head? with
  | none =>
    refine ⟨_, ProposalRunner.drive_run_deciding (policy.propose_of_none hhead) config runtime fuel,
      ?_, ?_⟩
    · exact iff_of_true rfl (fun _ hfirst => nomatch hfirst)
    · exact fun h => absurd rfl h
  | some first =>
    rcases le_or_gt first.quantity.value policy.threshold.value with hle | hlt
    · refine ⟨_, ProposalRunner.drive_run_deciding (policy.propose_of_le hhead hle) config runtime
        fuel, ?_, ?_⟩
      · refine iff_of_true rfl (fun first' hfirst => ?_)
        obtain rfl := Option.some.inj hfirst
        exact hle
      · exact fun h => absurd rfl h
    · refine ⟨_, ProposalRunner.drive_run_deciding (policy.propose_of_lt hhead hlt) config runtime
        fuel, ?_, ?_⟩
      · exact iff_of_false (fun h => nomatch h) (fun h => not_le.mpr hlt (h first rfl))
      · refine fun _ => ⟨first, rfl, hlt, rfl, fun now => ⟨fun code hcode => ?_, ?_⟩⟩
        · rw [mem_codes_iff] at hcode
          rcases hcode with ⟨-, rfl⟩ | ⟨-, rfl⟩ | ⟨-, rfl⟩ | ⟨-, rfl⟩ | hreduction
          case inr.inr.inr.inr =>
            rcases mem_codes_reduceBy_first hhead _ hreduction with rfl | ⟨hexceeds, rfl⟩ | rfl
            · exact ⟨by decide, by decide, fun _ => by decide⟩
            · exact ⟨by decide, by decide, fun hle =>
                absurd (hexceeds.trans_le hle) (not_lt.mpr hlt.le)⟩
            · exact ⟨by decide, by decide, fun _ => by decide⟩
          -- the checks of the observation itself have codes of their own
          all_goals exact ⟨by decide, by decide, fun _ => by decide⟩
        · exact isClear_reduceBy_first_iff hhead _ now

/-! ### Comparisons -/

omit [UuidCrate] [UnicodeTables] in
/-- **Reductions of one position** differ in their quantities only. -/
theorem differingFields_reduceBy (first : PositionView) (q q' : Quantity) :
    Shadow.differingFields (.proposed ⟨.reducePosition (first.reduceBy q)⟩)
        (.proposed ⟨.reducePosition (first.reduceBy q')⟩)
      = if q ≠ q'
        then [Shadow.path "/outcome/proposed/intent/reduce_position/quantity" (by decide)]
        else [] := by
  show (if first.positionId ≠ first.positionId then _ else [])
    ++ (if first.instrumentId ≠ first.instrumentId then _ else []) ++ _ = _
  rw [if_neg (not_not_intro rfl), if_neg (not_not_intro rfl)]
  rfl

omit [UuidCrate] [UnicodeTables] in
/-- A comparison that lists one field or none. -/
theorem isMatch_of_ite {result : ShadowResult} {p : Prop} [Decidable p] {field : FieldPath}
    (h : result.differingFields = if p then [field] else []) :
    (result.isMatch = true ↔ ¬ p) ∧
      (result.isMatch = false → result.differingFields = [field]) := by
  unfold ShadowResult.isMatch
  rw [h]
  by_cases hp : p
  · rw [if_pos hp]
    exact ⟨iff_of_false (by simp) (not_not_intro hp), fun _ => rfl⟩
  · rw [if_neg hp]
    exact ⟨iff_of_true rfl hp, fun hne => absurd hne (by simp)⟩

/-- **The policies of the examples, compared.** On every case, with every clock
and every timer, a comparison is over in one round. Two fixed reductions match
exactly where no position is observed or the quantities have one value, and
differ in the quantity otherwise. The defensive policy matches a fixed reduction
exactly where no position is observed, or more than its threshold of the first
one is open and the quantities have one value; they differ as a whole where it
proposes nothing, and in the quantity otherwise. -/
theorem ReductionPolicy.compared (fixed fixed' : FixedReductionPolicy)
    (defensive : DefensivePolicy) (config config' : RunnerConfig) (runtime : RunnerRuntime τ)
    (runtime' : RunnerRuntime τ') (shadowCase : ShadowCase) (fuel : ℕ) :
    (∃ result, (⟨⟨.deciding fixed.propose, config, runtime⟩,
          ⟨.deciding fixed'.propose, config', runtime'⟩⟩ : ShadowEvaluator _ τ _ τ').evaluate
          (fuel + 1) shadowCase = .ok (some result) ∧
      (result.isMatch = true ↔ shadowCase.observation.live.positions = [] ∨
        fixed.quantity.value = fixed'.quantity.value) ∧
      (result.isMatch = false → result.differingFields
        = [Shadow.path "/outcome/proposed/intent/reduce_position/quantity" (by decide)])) ∧
    ∃ result, (⟨⟨.deciding defensive.propose, config, runtime⟩,
          ⟨.deciding fixed.propose, config', runtime'⟩⟩ : ShadowEvaluator _ τ _ τ').evaluate
          (fuel + 1) shadowCase = .ok (some result) ∧
      (result.isMatch = true ↔ ∀ first, shadowCase.observation.live.positions.head? = some first →
        defensive.threshold.value < first.quantity.value ∧
          defensive.reduction.value = fixed.quantity.value) ∧
      ∀ first, shadowCase.observation.live.positions.head? = some first →
        result.isMatch = false → result.differingFields =
          if first.quantity.value ≤ defensive.threshold.value then
            [Shadow.path "/outcome" (by decide)]
          else [Shadow.path "/outcome/proposed/intent/reduce_position/quantity" (by decide)] := by
  have hvalue : ∀ q q' : Quantity, ¬ q ≠ q' ↔ q.value = q'.value :=
    fun q q' => not_not.trans Quantity.value_injective.eq_iff.symm
  cases hhead : shadowCase.observation.live.positions.head? with
  | none =>
    refine ⟨⟨_, ShadowEvaluator.evaluate_deciding (fixed.propose_of_none hhead)
        (fixed'.propose_of_none hhead) config config' runtime runtime' fuel, ?_, ?_⟩,
      ⟨_, ShadowEvaluator.evaluate_deciding (defensive.propose_of_none hhead)
        (fixed.propose_of_none hhead) config config' runtime runtime' fuel, ?_, ?_⟩⟩
    · exact iff_of_true rfl (.inl (List.head?_eq_none_iff.mp hhead))
    · exact fun h => nomatch h
    · exact iff_of_true rfl (fun _ hfirst => nomatch hfirst)
    · exact fun _ hfirst => nomatch hfirst
  | some first =>
    have hpositions : shadowCase.observation.live.positions ≠ [] := by
      intro hnil
      rw [hnil] at hhead
      cases hhead
    obtain ⟨hmatch, hdiffer⟩ := @isMatch_of_ite ⟨shadowCase.name, _, _, _⟩ _ _ _
      (differingFields_reduceBy first fixed.quantity fixed'.quantity)
    refine ⟨⟨_, ShadowEvaluator.evaluate_deciding (fixed.propose_of_some hhead)
        (fixed'.propose_of_some hhead) config config' runtime runtime' fuel, ?_, hdiffer⟩, ?_⟩
    · rw [or_iff_right hpositions, ← hvalue]
      exact hmatch
    · rcases le_or_gt first.quantity.value defensive.threshold.value with hle | hlt
      · refine ⟨_, ShadowEvaluator.evaluate_deciding (defensive.propose_of_le hhead hle)
          (fixed.propose_of_some hhead) config config' runtime runtime' fuel, ?_, ?_⟩
        · exact iff_of_false (fun h => nomatch h) (fun h => not_le.mpr (h first rfl).1 hle)
        · intro first' hfirst _
          obtain rfl := Option.some.inj hfirst
          rw [if_pos hle]
          rfl
      · obtain ⟨hmatch, hdiffer⟩ := @isMatch_of_ite ⟨shadowCase.name, _, _, _⟩ _ _ _
          (differingFields_reduceBy first defensive.reduction fixed.quantity)
        refine ⟨_, ShadowEvaluator.evaluate_deciding (defensive.propose_of_lt hhead hlt)
          (fixed.propose_of_some hhead) config config' runtime runtime' fuel, ?_, ?_⟩
        · refine hmatch.trans ?_
          rw [hvalue]
          constructor
          · intro hsame first' hfirst
            obtain rfl := Option.some.inj hfirst
            exact ⟨hlt, hsame⟩
          · exact fun h => (h first rfl).2
        · intro first' hfirst hne
          obtain rfl := Option.some.inj hfirst
          rw [if_neg (not_le.mpr hlt)]
          exact hdiffer hne

end Runs
