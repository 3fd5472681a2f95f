import NautilusAgents.JsonPlaces
import NautilusAgents.Runner

/-!
# Shadow comparison

Two policies are evaluated against one observation, and their outcomes are
compared field by field. The comparison is written by hand: it lists the paths
of the fields that differ, and the paths are spelled as the trace that carries
the outcome is serialized.

That the two go together is the content of this module. The documents of two
traces that are the same except for their outcomes differ member by member
(`Json.IsDiff.obj_cons`), and following them down to the leaves gives the very
list the comparison returns, as long as the outcomes are of one variant
(`Shadow.isDiff_documents`). So no field is left out and no path misspelled, and
an empty list means that the outcomes are the same.
-/

open JsonPointer

/-! ## The comparison -/

/-- A path written in the source: it must be valid. -/
def Shadow.path (value : String) (h : checkFieldPath value = .ok ()) : FieldPath := ⟨value, h⟩

open Shadow in
/-- **The fields in which two outcomes differ.** -/
def Shadow.differingFields : TraceOutcome → TraceOutcome → List FieldPath
  | .noProposal, .noProposal => []
  | .proposed ⟨.reducePosition baseline⟩, .proposed ⟨.reducePosition candidate⟩ =>
    (if baseline.positionId ≠ candidate.positionId then
      [path "/outcome/proposed/intent/reduce_position/position_id" (by decide)] else []) ++
    (if baseline.instrumentId ≠ candidate.instrumentId then
      [path "/outcome/proposed/intent/reduce_position/instrument_id" (by decide)] else []) ++
    (if baseline.quantity ≠ candidate.quantity then
      [path "/outcome/proposed/intent/reduce_position/quantity" (by decide)] else [])
  | .failed baseline, .failed candidate =>
    (if baseline.kind ≠ candidate.kind then [path "/outcome/failed/kind" (by decide)] else []) ++
    (if baseline.message ≠ candidate.message then
      [path "/outcome/failed/message" (by decide)] else [])
  | _, _ => [path "/outcome" (by decide)]

/-- Contains both local outcomes and every differing outcome field. -/
structure ShadowResult where
  /-- The name of the case. -/
  caseName : String
  /-- The outcome of the baseline. -/
  baseline : TraceOutcome
  /-- The outcome of the candidate. -/
  candidate : TraceOutcome
  /-- The fields at which the outcomes differ. -/
  differingFields : List FieldPath
  deriving DecidableEq

/-- Both complete local outcomes match. -/
def ShadowResult.isMatch (result : ShadowResult) : Bool := result.differingFields.isEmpty

section Evaluation

variable [UuidCrate] [UnicodeTables] {σ τ σ' τ' : Type}

/-- Names one recorded or synthetic observation used for local comparison. -/
structure ShadowCase [UuidCrate] where
  /-- The name under which results are reported. -/
  name : String
  /-- The observation both policies are run on. -/
  observation : Observation

/-- Evaluates two proposal policies against the same observation. -/
structure ShadowEvaluator [UuidCrate] (σ τ σ' τ' : Type) where
  /-- The runner of the baseline policy. -/
  baseline : ProposalRunner σ τ
  /-- The runner of the candidate policy. -/
  candidate : ProposalRunner σ' τ'

/-- **Compare both policies for one case.** The runs are awaited one after the
other, each for at most `fuel` rounds. -/
def ShadowEvaluator.evaluate (evaluator : ShadowEvaluator σ τ σ' τ') (fuel : ℕ)
    (shadowCase : ShadowCase) : Except PanicPayload (Option ShadowResult) := do
  let some baseline ← ((evaluator.baseline.run shadowCase.observation).drive fuel .unresumed).fst
    | return none
  let some candidate ← ((evaluator.candidate.run shadowCase.observation).drive fuel .unresumed).fst
    | return none
  return some
    { caseName := shadowCase.name
      baseline := baseline.outcome
      candidate := candidate.outcome
      differingFields := Shadow.differingFields baseline.outcome candidate.outcome }

end Evaluation

namespace Shadow

/-! ## Paths and tokens -/

theorem tokens_injective : Function.Injective FieldPath.tokens := by
  intro p q h
  refine FieldPath.ext (String.toList_inj.mp ?_)
  rw [← p.spell_tokens, ← q.spell_tokens, h]

/-- A path has the tokens it spells. -/
theorem tokens_path (value : String) {h : checkFieldPath value = .ok ()} (names : List String)
    (hspell : value.toList = spell (names.map String.toList)) :
    (path value h).tokens = names.map String.toList := by
  show JsonPointer.tokens value.toList = _
  rw [hspell, JsonPointer.tokens_spell]

theorem map_ite_singleton {α β : Type} {p : Prop} [Decidable p] (f : α → β) (x : α) :
    (if p then [x] else []).map f = if p then [f x] else [] := by
  split_ifs
  · rfl
  · rfl

/-! ## Documents -/

/-- **The outcomes are of one variant.** -/
def SameVariant : TraceOutcome → TraceOutcome → Prop
  | .proposed _, .proposed _ => True
  | .noProposal, .noProposal => True
  | .failed _, .failed _ => True
  | _, _ => False

/-- The differences between two members whose values are texts. -/
theorem isDiff_text {α : Type} [DecidableEq α] {text : α → String}
    (htext : Function.Injective text) (x y : α) :
    Json.IsDiff (.str (text x)) (.str (text y)) (if x ≠ y then [[]] else []) := by
  have hne : x ≠ y ↔ Json.str (text x) ≠ Json.str (text y) :=
    ⟨fun h heq => h (htext (Json.str.inj heq)), fun h heq => h (by rw [heq])⟩
  have hleaf : ∀ s, Json.IsLeaf (.str s) := fun _ => True.intro
  exact Json.isDiff_of_isLeaf (hleaf _) (hleaf _) hne

/-- **Reductions differ in their fields.** -/
theorem isDiff_reducePosition (x y : ReducePosition) :
    Json.IsDiff (serialize x) (serialize y)
      ((if x.positionId ≠ y.positionId then [["position_id".toList]] else []) ++
        (if x.instrumentId ≠ y.instrumentId then [["instrument_id".toList]] else []) ++
        (if x.quantity ≠ y.quantity then [["quantity".toList]] else [])) := by
  have hposition := isDiff_text (fun _ _ h => PositionId.ext h) x.positionId y.positionId
  have hinstrument := isDiff_text (fun _ _ h => InstrumentId.ext h) x.instrumentId y.instrumentId
  have hquantity := isDiff_text (fun _ _ h => Quantity.ext h) x.quantity y.quantity
  have hdocument : ∀ z : ReducePosition, serialize z
      = .obj [("position_id", .str z.positionId.text), ("instrument_id", .str z.instrumentId.text),
        ("quantity", .str z.quantity.text)] := fun _ => rfl
  have hobj := hposition.obj_cons "position_id"
    (hinstrument.obj_cons "instrument_id"
      (hquantity.obj_singleton "quantity") (by simp)) (by simp)
  rw [map_ite_singleton, map_ite_singleton, map_ite_singleton, ← List.append_assoc] at hobj
  rw [hdocument, hdocument]
  exact hobj

/-- **Failures differ in their fields.** -/
theorem isDiff_agentFailure (x y : AgentFailure) :
    Json.IsDiff (serialize x) (serialize y)
      ((if x.kind ≠ y.kind then [["kind".toList]] else []) ++
        (if x.message ≠ y.message then [["message".toList]] else [])) := by
  have hnames : Function.Injective (Serde.UnitEnum.name (α := AgentFailureKind)) := by
    intro a b h
    cases a <;> cases b <;> first | rfl | exact absurd h (by decide)
  have hkind := isDiff_text hnames x.kind y.kind
  have hmessage := isDiff_text Function.injective_id x.message y.message
  have hdocument : ∀ z : AgentFailure, serialize z
      = .obj [("kind", .str (Serde.UnitEnum.name z.kind)), ("message", .str z.message)] :=
    fun _ => rfl
  have hobj := hkind.obj_cons "kind" (hmessage.obj_singleton "message")
    (by simp)
  rw [map_ite_singleton, map_ite_singleton] at hobj
  rw [hdocument, hdocument]
  exact hobj

/-- **The comparison lists the differences** between the documents of two
outcomes of one variant, behind the member that carries an outcome. -/
theorem exists_isDiff {a b : TraceOutcome} (h : SameVariant a b) :
    ∃ pointers, Json.IsDiff (serialize a) (serialize b) pointers ∧
      (differingFields a b).map FieldPath.tokens = pointers.map (List.cons "outcome".toList) := by
  match a, b, h with
  | .noProposal, .noProposal, _ => exact ⟨[], Json.isDiff_self _, rfl⟩
  | .proposed ⟨.reducePosition x⟩, .proposed ⟨.reducePosition y⟩, _ =>
    refine ⟨_, (((isDiff_reducePosition x y).obj_singleton "reduce_position").obj_singleton
      "intent").obj_singleton "proposed", ?_⟩
    unfold differingFields
    simp only [List.map_append, map_ite_singleton]
    rw [tokens_path "/outcome/proposed/intent/reduce_position/position_id"
        ["outcome", "proposed", "intent", "reduce_position", "position_id"] rfl,
      tokens_path "/outcome/proposed/intent/reduce_position/instrument_id"
        ["outcome", "proposed", "intent", "reduce_position", "instrument_id"] rfl,
      tokens_path "/outcome/proposed/intent/reduce_position/quantity"
        ["outcome", "proposed", "intent", "reduce_position", "quantity"] rfl]
    rfl
  | .failed x, .failed y, _ =>
    refine ⟨_, (isDiff_agentFailure x y).obj_singleton "failed", ?_⟩
    unfold differingFields
    simp only [List.map_append, map_ite_singleton]
    rw [tokens_path "/outcome/failed/kind" ["outcome", "failed", "kind"] rfl,
      tokens_path "/outcome/failed/message" ["outcome", "failed", "message"] rfl]
    rfl

section Documents

variable [UuidCrate]

/-- The document of a trace with an outcome. -/
def document (t : AgentTrace) (outcome : TraceOutcome) : Json :=
  serialize { t with outcome := outcome }

theorem document_eq (t : AgentTrace) (outcome : TraceOutcome) :
    document t outcome
      = .obj [("version", serialize t.version), ("trace_id", serialize t.traceId),
        ("observation", serialize t.observation), ("policy", serialize t.policy),
        ("started_at", serialize t.startedAt), ("completed_at", serialize t.completedAt),
        ("outcome", serialize outcome)] := rfl

/-- **Traces that differ in their outcomes** differ below the outcome. -/
theorem isDiff_document (t : AgentTrace) {a b : TraceOutcome} {pointers : List (List Token)}
    (h : Json.IsDiff (serialize a) (serialize b) pointers) :
    Json.IsDiff (document t a) (document t b)
      (pointers.map (List.cons "outcome".toList)) := by
  rw [document_eq, document_eq]
  refine .obj_cons_same _ _ (.obj_cons_same _ _ (.obj_cons_same _ _ (.obj_cons_same _ _
    (.obj_cons_same _ _ (.obj_cons_same _ _ (h.obj_singleton "outcome") ?_) ?_) ?_) ?_) ?_) ?_
  all_goals simp

theorem isDiff_differingFields (t : AgentTrace) {a b : TraceOutcome} (h : SameVariant a b) :
    Json.IsDiff (document t a) (document t b) ((differingFields a b).map FieldPath.tokens) := by
  obtain ⟨pointers, hdiff, htokens⟩ := exists_isDiff h
  rw [htokens]
  exact isDiff_document t hdiff

/-- The whole outcome is carried over. -/
theorem transfer_outcome (t : AgentTrace) (a b : TraceOutcome) :
    Json.transfer (document t b) [["outcome".toList]] (document t a) = some (document t b) := by
  rw [document_eq, document_eq]
  rfl

end Documents

/-! ## The comparison is exact -/

theorem ite_singleton_eq_nil_iff {α : Type} {p : Prop} [Decidable p] {x : α} :
    (if p then [x] else []) = [] ↔ ¬ p := by
  by_cases h : p
  · rw [if_pos h]
    exact iff_of_false (List.cons_ne_nil _ _) (not_not_intro h)
  · rw [if_neg h]
    exact iff_of_true rfl h

/-- **Nothing differs between the same outcomes only.** -/
theorem differingFields_eq_nil_iff (a b : TraceOutcome) : differingFields a b = [] ↔ a = b := by
  match a, b with
  | .noProposal, .noProposal => exact iff_of_true rfl rfl
  | .proposed ⟨.reducePosition x⟩, .proposed ⟨.reducePosition y⟩ =>
    unfold differingFields
    rw [List.append_eq_nil_iff, List.append_eq_nil_iff, ite_singleton_eq_nil_iff,
      ite_singleton_eq_nil_iff, ite_singleton_eq_nil_iff, not_not, not_not, not_not]
    obtain ⟨position, instrument, quantity⟩ := x
    obtain ⟨position', instrument', quantity'⟩ := y
    simp [and_assoc]
  | .failed x, .failed y =>
    unfold differingFields
    rw [List.append_eq_nil_iff, ite_singleton_eq_nil_iff, ite_singleton_eq_nil_iff, not_not,
      not_not]
    obtain ⟨kind, message⟩ := x
    obtain ⟨kind', message'⟩ := y
    simp
  | .noProposal, .proposed _ | .noProposal, .failed _ | .proposed _, .noProposal
  | .proposed _, .failed _ | .failed _, .noProposal | .failed _, .proposed _ =>
    exact iff_of_false (List.cons_ne_nil _ _) (by simp)

/-- **The order of the policies does not matter.** -/
theorem differingFields_comm (a b : TraceOutcome) :
    differingFields a b = differingFields b a := by
  match a, b with
  | .noProposal, .noProposal => rfl
  | .proposed ⟨.reducePosition x⟩, .proposed ⟨.reducePosition y⟩ =>
    unfold differingFields
    simp only [ne_comm]
  | .failed x, .failed y =>
    unfold differingFields
    simp only [ne_comm]
  | .noProposal, .proposed _ | .noProposal, .failed _ | .proposed _, .noProposal
  | .proposed _, .failed _ | .failed _, .noProposal | .failed _, .proposed _ => rfl

/-- Outcomes of different variants differ as a whole. -/
theorem differingFields_of_not_sameVariant {a b : TraceOutcome} (h : ¬ SameVariant a b) :
    differingFields a b = [path "/outcome" (by decide)] := by
  match a, b, h with
  | .noProposal, .noProposal, h | .proposed _, .proposed _, h | .failed _, .failed _, h =>
    exact absurd True.intro h
  | .noProposal, .proposed _, _ | .noProposal, .failed _, _ | .proposed _, .noProposal, _
  | .proposed _, .failed _, _ | .failed _, .noProposal, _ | .failed _, .proposed _, _ => rfl

variable [UuidCrate]

/-- **Shadow comparison is exact.** For any two outcomes nothing is listed
exactly when they are the same. Outcomes of one variant are compared leaf by
leaf: whatever trace carries them, the list holds, each once, the pointers to
the leaves at which the two documents differ, and each of them leads to a value
in both. Outcomes of different variants differ as a whole. The list is the same
from either side, and carrying over the values it lists turns the one document
into the other. -/
theorem differingFields_exact (a b : TraceOutcome) :
    (differingFields a b = [] ↔ a = b) ∧
    (SameVariant a b → (differingFields a b).Nodup ∧ ∀ t : AgentTrace,
      (∀ p : FieldPath, p ∈ differingFields a b ↔
        Json.LeafDiffers (document t a) (document t b) p.tokens) ∧
      ∀ p ∈ differingFields a b, ∃ v w, (document t a).resolve p.tokens = some v ∧
        (document t b).resolve p.tokens = some w) ∧
    (¬ SameVariant a b → differingFields a b = [path "/outcome" (by decide)]) ∧
    differingFields b a = differingFields a b ∧
    ∀ t : AgentTrace, Json.transfer (document t b) ((differingFields a b).map FieldPath.tokens)
      (document t a) = some (document t b) := by
  refine ⟨differingFields_eq_nil_iff a b, fun h => ⟨?_, fun t => ⟨fun p => ?_, fun p hp => ?_⟩⟩,
    differingFields_of_not_sameVariant, differingFields_comm b a, fun t => ?_⟩
  · obtain ⟨pointers, hdiff, htokens⟩ := exists_isDiff h
    refine List.Nodup.of_map FieldPath.tokens ?_
    rw [htokens]
    exact hdiff.nodup.map List.cons_injective
  · rw [← (isDiff_differingFields t h).mem_iff, List.mem_map_of_injective tokens_injective]
  · exact (isDiff_differingFields t h).resolves _ (List.mem_map_of_mem hp)
  · by_cases h : SameVariant a b
    · exact (isDiff_differingFields t h).transfer_eq
    · rw [differingFields_of_not_sameVariant h, List.map_singleton,
        tokens_path "/outcome" ["outcome"] rfl]
      exact transfer_outcome t a b

end Shadow

/-- **An evaluation is over when both runs are**, with the result they make. -/
theorem ShadowEvaluator.evaluate_eq_some_iff [UuidCrate] [UnicodeTables] {σ τ σ' τ' : Type}
    {evaluator : ShadowEvaluator σ τ σ' τ'} {fuel : ℕ} {shadowCase : ShadowCase}
    {result : ShadowResult} :
    evaluator.evaluate fuel shadowCase = .ok (some result) ↔
      ∃ baseline candidate : AgentTrace,
        ((evaluator.baseline.run shadowCase.observation).drive fuel .unresumed).fst
          = .ok (some baseline) ∧
        ((evaluator.candidate.run shadowCase.observation).drive fuel .unresumed).fst
          = .ok (some candidate) ∧
        result = ⟨shadowCase.name, baseline.outcome, candidate.outcome,
          Shadow.differingFields baseline.outcome candidate.outcome⟩ := by
  unfold ShadowEvaluator.evaluate
  rcases ((evaluator.baseline.run shadowCase.observation).drive fuel .unresumed).fst with
    payload | _ | baseline
  · simp [bind, Except.bind]
  · simp [bind, Except.bind, pure, Except.pure]
  · rcases ((evaluator.candidate.run shadowCase.observation).drive fuel .unresumed).fst with
      payload | _ | candidate
    · simp [bind, Except.bind]
    · simp [bind, Except.bind, pure, Except.pure]
    · simp [bind, Except.bind, pure, Except.pure, eq_comm]

/-- **An evaluation reports on both runs**: it carries their outcomes under the
name of the case, and it is a match exactly when they are the same. -/
theorem ShadowEvaluator.evaluate_spec [UuidCrate] [UnicodeTables] {σ τ σ' τ' : Type}
    {evaluator : ShadowEvaluator σ τ σ' τ'} {fuel : ℕ} {shadowCase : ShadowCase}
    {result : ShadowResult} (h : evaluator.evaluate fuel shadowCase = .ok (some result)) :
    ∃ baseline candidate : AgentTrace,
      ((evaluator.baseline.run shadowCase.observation).drive fuel .unresumed).fst
        = .ok (some baseline) ∧
      ((evaluator.candidate.run shadowCase.observation).drive fuel .unresumed).fst
        = .ok (some candidate) ∧
      result.caseName = shadowCase.name ∧
      result.baseline = baseline.outcome ∧ result.candidate = candidate.outcome ∧
      (result.isMatch = true ↔ baseline.outcome = candidate.outcome) := by
  obtain ⟨baseline, candidate, hbaseline, hcandidate, rfl⟩ := evaluate_eq_some_iff.mp h
  refine ⟨baseline, candidate, hbaseline, hcandidate, rfl, rfl, rfl, ?_⟩
  unfold ShadowResult.isMatch
  rw [List.isEmpty_iff, Shadow.differingFields_eq_nil_iff]
