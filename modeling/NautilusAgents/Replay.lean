import NautilusAgents.ContentAddress
import NautilusAgents.Jsonl
import NautilusAgents.Retention
import NautilusAgents.Shadow

/-!
# Replaying a recording

What recordings are kept for: a trace is read back, the observation it refers to
is found among the other lines, and a policy is evaluated on it again, next to
another one.

A replay can go wrong at each joint, and the joints are of different kinds. The
recording may have lost calls to the file system, but what the others have added
is in whole lines (`TraceRecorder.exists_lines`). The observation that is found
under the reference of a trace may be a redacted one, but then its own reference
is another; where it is the same, and both observations validate, it is the one
the policy was given. And the second evaluation meets other clocks and other timers.
The policy does not see those: as long as neither evaluation times out, the
first event is the policy's in both, and in the same round
(`ProposalRunner.outcome_eq_or_timeout`). Joined, they say that a shadow
comparison on the recorded observation compares with the recorded outcome
(`TraceRecorder.replay_recorded`).
-/

/-! ## Two runs of one policy -/

namespace ProposalRunner

variable [UuidCrate] {σ τ τ' : Type}

/-- **The first events of two races of one policy** are in the same round,
unless one of them is the timer's. -/
theorem FirstEvent.eq_or_pending {runner : ProposalRunner σ τ} {again : ProposalRunner σ τ'}
    (hpolicy : again.policy = runner.policy) {future : σ} {n m : ℕ}
    (hn : runner.FirstEvent future n) (hm : again.FirstEvent future m) :
    n = m ∨ runner.policyAt future n = .ok .pending ∨ again.policyAt future m = .ok .pending := by
  have hsame : ∀ k, again.policyAt future k = runner.policyAt future k := by
    intro k
    unfold policyAt
    rw [hpolicy]
  rcases Nat.lt_trichotomy n m with hlt | heq | hlt
  · -- the later race was still waiting for the policy in this round
    exact .inr (.inl ((hsame n).symm.trans (hm.1 n hlt).1))
  · exact .inl heq
  · exact .inr (.inr ((hsame m).trans (hn.1 m hlt).1))

variable [UnicodeTables]

omit [UuidCrate] in
/-- What a policy says is reported under every configuration. -/
theorem decided_eq_of_ne_pending (config config' : RunnerConfig)
    {p : Except PanicPayload (Poll (Except ProposalError ProposalDecision))}
    (h : p ≠ .ok .pending) : decided config p = decided config' p := by
  rcases p with payload | _ | e | proposal | _
  · rfl
  · exact absurd rfl h
  · rfl
  · rfl
  · rfl

theorem outcome_of_error {runner : ProposalRunner σ τ} {observation : Observation}
    {payload : PanicPayload} (hpropose : runner.policy.propose observation = .error payload)
    {fuel : ℕ} {trace : AgentTrace}
    (h : ((runner.run observation).drive fuel .unresumed).fst = .ok (some trace)) :
    trace.outcome = panicOutcome payload := by
  cases fuel with
  | zero => cases h
  | succ fuel =>
    rw [drive_run_of_error hpropose] at h
    rw [← Option.some.inj (Except.ok.inj h)]
    rfl

/-- **Two runs of one policy on one observation agree**, whatever their clocks
and timers, unless one of them is a timeout. -/
theorem outcome_eq_or_timeout {runner : ProposalRunner σ τ} {again : ProposalRunner σ τ'}
    (hpolicy : again.policy = runner.policy) {observation : Observation} {fuel fuel' : ℕ}
    {trace trace' : AgentTrace}
    (h : ((runner.run observation).drive fuel .unresumed).fst = .ok (some trace))
    (h' : ((again.run observation).drive fuel' .unresumed).fst = .ok (some trace')) :
    trace'.outcome = trace.outcome ∨ trace.outcome = timeoutOutcome runner.config ∨
      trace'.outcome = timeoutOutcome again.config := by
  cases hpropose : runner.policy.propose observation with
  | error payload =>
    refine .inl ?_
    rw [outcome_of_error hpropose h, outcome_of_error (hpolicy ▸ hpropose) h']
  | ok future =>
    obtain ⟨n, -, hn, rfl⟩ := (drive_run_iff hpropose fuel trace).mp h
    obtain ⟨m, -, hm, rfl⟩ := (drive_run_iff (hpolicy ▸ hpropose) fuel' trace').mp h'
    show decided _ _ = decided _ _ ∨ decided _ _ = _ ∨ decided _ _ = _
    rcases hn.eq_or_pending hpolicy hm with rfl | hpending | hpending
    · by_cases hpending : runner.policyAt future n = .ok .pending
      · exact .inr (.inl (by rw [hpending]; rfl))
      · refine .inl ?_
        have hsame : again.policyAt future n = runner.policyAt future n := by
          unfold policyAt
          rw [hpolicy]
        rw [hsame]
        exact decided_eq_of_ne_pending _ _ hpending
    · exact .inr (.inl (by rw [hpending]; rfl))
    · exact .inr (.inr (by rw [hpending]; rfl))

/-- A trace refers to the observation of its run. -/
theorem observation_of_drive_run {runner : ProposalRunner σ τ} {observation : Observation}
    {fuel : ℕ} {trace : AgentTrace}
    (h : ((runner.run observation).drive fuel .unresumed).fst = .ok (some trace)) :
    trace.observation = observation.reference := by
  rw [drive_run, Future.map_eq_some_iff] at h
  obtain ⟨outcome, -, rfl⟩ := h
  rfl

end ProposalRunner

/-! ## Reading lines -/

section Lines

variable [UuidCrate]

namespace JsonlRecord

/-- **A document is that of one record.** -/
theorem eq_of_readsAs {record record' : JsonlRecord} {j : Json} (h : record.ReadsAs j)
    (h' : record'.ReadsAs j) : record = record' := by
  obtain ⟨-, h⟩ := h
  obtain ⟨-, h'⟩ := h'
  cases record <;> cases record'
  all_goals simp only at h h'
  case trace.trace t t' =>
    exact congrArg trace (Option.some.inj (h.2.symm.trans h'.2))
  case observationReference.observationReference r r' =>
    exact congrArg observationReference (Option.some.inj (h.2.symm.trans h'.2))
  case observation.observation r o r' o' =>
    exact congrArg₂ observation (Option.some.inj (h.2.1.symm.trans h'.2.1))
      (Option.some.inj (h.2.2.symm.trans h'.2.2))
  -- records of two kinds
  all_goals exact absurd (Json.str.inj (Option.some.inj (h.1.symm.trans h'.1))) (by decide)

variable [Crates]

/-- A line holds a record: it is read as the document of it. -/
def HeldBy (record : JsonlRecord) (line : List UInt8) : Prop :=
  ∃ j, Crates.fromSlice line = .ok j ∧ record.ReadsAs j

/-- **What is written is what is held.** -/
theorem heldBy_encode_iff (hread : Crates.Reader) {record record' : JsonlRecord} :
    record'.HeldBy (serialize record).encode ↔ record' = record := by
  have hdocument : Crates.fromSlice (serialize record).encode = .ok (serialize record) :=
    hread _ _ (Json.parse_encode record.iJson_serialize) record.iJson_serialize
      record.depthLE_serialize
  constructor
  · rintro ⟨j, hj, hreads⟩
    rw [hdocument] at hj
    obtain rfl := Except.ok.inj hj
    exact eq_of_readsAs hreads record.readsAs_serialize
  · rintro rfl
    exact ⟨_, hdocument, readsAs_serialize _⟩

end JsonlRecord

namespace TraceRecorder

variable [Crates]

/-- Only a trace is recorded as one. -/
theorem request_of_recordOf_trace {recorder : TraceRecorder} {request : Request} {t : AgentTrace}
    (h : recorder.recordOf request = .ok (.trace t)) : request = .trace t := by
  cases request with
  | trace t' => exact congrArg Request.trace (JsonlRecord.trace.inj (Except.ok.inj h))
  | observation o =>
    unfold recordOf at h
    cases hcapture : recorder.config.observationCapture with
    | referenceOnly => rw [hcapture] at h; cases h
    | redacted =>
      rw [hcapture] at h
      simp only at h
      split at h
      · cases h
      · split at h
        · cases h
        · split at h
          · cases h
          · split_ifs at h
            cases h
    | full =>
      rw [hcapture] at h
      simp only at h
      split_ifs at h
      cases h

/-- An observation line of a recorder of whole observations refers to the
observation it holds. -/
theorem reference_of_recordOf {recorder : TraceRecorder}
    (hfull : recorder.config.observationCapture = .full) {request : Request}
    {reference : ObservationRef} {o : Observation}
    (h : recorder.recordOf request = .ok (.observation reference o)) :
    o.reference = reference := by
  obtain ⟨-, source, -, hreference, hembeds⟩ := recorder.retention_of_recordOf h
  unfold Embeds at hembeds
  rw [hfull] at hembeds
  obtain rfl : o = source := hembeds
  exact hreference.symm

end TraceRecorder

end Lines

/-! ## Replays -/

/-- An evaluation of a policy. -/
structure Evaluation [UuidCrate] (σ τ : Type) where
  /-- The runner with the policy. -/
  runner : ProposalRunner σ τ
  /-- What the policy is evaluated on. -/
  observation : Observation
  /-- The number of rounds it is given. -/
  fuel : ℕ

section Replays

variable [UuidCrate] [UnicodeTables] {σ τ σ' τ' τ'' : Type}

/-- An evaluation is over, and leaves a trace. -/
def Evaluation.Leaves (evaluation : Evaluation σ τ) (trace : AgentTrace) : Prop :=
  ((evaluation.runner.run evaluation.observation).drive evaluation.fuel .unresumed).fst
    = .ok (some trace)

/-- An outcome of an evaluation that timed out. -/
def TimedOut (outcome : TraceOutcome) : Prop := ∃ message, outcome = .failed ⟨.timeout, message⟩

/-- **A shadow comparison against a recorded outcome**: its baseline is the
recorded outcome, and it reports how the candidate differs from that, unless the
recorded evaluation or this one timed out. -/
def ComparesWith (recorded : TraceOutcome) (result : ShadowResult) : Prop :=
  (result.baseline = recorded ∧
    result.differingFields = Shadow.differingFields recorded result.candidate) ∨
  TimedOut recorded ∨ TimedOut result.baseline

/-- **Evaluating the policy again compares with the trace it left.** -/
theorem Evaluation.Leaves.compares {evaluation : Evaluation σ τ} {trace : AgentTrace}
    (h : evaluation.Leaves trace) {evaluator : ShadowEvaluator σ τ' σ' τ''}
    (hpolicy : evaluator.baseline.policy = evaluation.runner.policy) {name : String} {fuel : ℕ}
    {result : ShadowResult}
    (hresult : evaluator.evaluate fuel ⟨name, evaluation.observation⟩ = .ok (some result)) :
    ComparesWith trace.outcome result := by
  obtain ⟨baseline, candidate, hbaseline, -, rfl⟩ :=
    ShadowEvaluator.evaluate_eq_some_iff.mp hresult
  rcases ProposalRunner.outcome_eq_or_timeout hpolicy h hbaseline with hsame | htimeout
  · exact .inl ⟨hsame, congrArg (Shadow.differingFields · candidate.outcome) hsame⟩
  · exact .inr (htimeout.imp (fun h => ⟨_, h⟩) (fun h => ⟨_, h⟩))

namespace TraceRecorder

variable [Crates]

omit [UnicodeTables] in
/-- **The lines that calls add** hold the records of the calls that returned
`Ok`, in order, and no other records. -/
theorem exists_heldLines (hwrite : Crates.CompactWriter) (hread : Crates.Reader)
    (recorder : TraceRecorder) (calls : List RecordCall) (fs : FileSystem PathBuf) :
    ∃ lines : List (List UInt8),
      AddsLines ((fs recorder.path).getD [])
        ((recorder.stateAfter calls fs recorder.path).getD []) lines ∧
      List.Forall₂ (fun call line => ∃ record : JsonlRecord,
        recorder.recordOf call.request = .ok record ∧ record.HeldBy line)
        (recorder.returnedOk calls fs) lines ∧
      ∀ line ∈ lines, ∀ record : JsonlRecord, record.HeldBy line →
        ∃ call ∈ recorder.returnedOk calls fs, recorder.recordOf call.request = .ok record := by
  obtain ⟨records, hrecords, hlines⟩ := recorder.exists_lines hwrite calls fs
  refine ⟨_, hlines, ?_, fun line hline record hheld => ?_⟩
  · have hsame : List.Forall₂ (fun x (record : JsonlRecord) => x = .ok record)
        ((recorder.returnedOk calls fs).map (fun call => recorder.recordOf call.request))
        records := by
      rw [hrecords, List.forall₂_map_left_iff]
      exact List.forall₂_same.mpr (fun _ _ => rfl)
    rw [List.forall₂_map_left_iff] at hsame
    rw [List.forall₂_map_right_iff]
    exact hsame.imp
      (fun call record h => ⟨record, h, (JsonlRecord.heldBy_encode_iff hread).mpr rfl⟩)
  · obtain ⟨record', hmem, rfl⟩ := List.mem_map.mp hline
    obtain rfl := (JsonlRecord.heldBy_encode_iff hread).mp hheld
    obtain ⟨call, hmem, hrecord⟩ := List.mem_map.mp (hrecords ▸ List.mem_map_of_mem hmem)
    exact ⟨call, hmem, hrecord⟩

/-- **Recordings can be replayed.** Whatever the target held, and whatever calls
the recorder is given, in whatever order and through whatever faults: the target
has lines added to it, one for each call that returned `Ok`, which holds the
record of the call. Where whole observations are recorded, the observations that
these lines hold are under their references. And a line of them that holds a
trace is that of a call to record the trace. Whatever evaluation of a valid
observation has left the trace, a valid observation under its reference is the
one that was evaluated, as long as the hash does not collide on the two; and a
shadow comparison on it, with the same policy as its baseline, compares with the
recorded outcome. -/
theorem replay_recorded (hwrite : Crates.CompactWriter) (hread : Crates.Reader)
    (hcanon : Crates.Rfc8785) (recorder : TraceRecorder) (calls : List RecordCall)
    (fs : FileSystem PathBuf) :
    ∃ lines : List (List UInt8),
      AddsLines ((fs recorder.path).getD [])
        ((recorder.stateAfter calls fs recorder.path).getD []) lines ∧
      List.Forall₂ (fun call line => ∃ record : JsonlRecord,
        recorder.recordOf call.request = .ok record ∧ record.HeldBy line)
        (recorder.returnedOk calls fs) lines ∧
      (recorder.config.observationCapture = .full → ∀ line ∈ lines, ∀ reference o,
        (JsonlRecord.observation reference o).HeldBy line → o.reference = reference) ∧
      ∀ line ∈ lines, ∀ t, (JsonlRecord.trace t).HeldBy line →
        (∃ call ∈ recorder.returnedOk calls fs, call.request = .trace t) ∧
        ∀ (e : Evaluation σ τ) (o : Observation), e.Leaves t →
          e.observation.validate = .ok () → o.validate = .ok () →
          o.reference = t.observation →
          (∀ x y, Canonical.toVec o.digestDocument = .ok x →
            Canonical.toVec e.observation.digestDocument = .ok y → Crates.NoCollision x y) →
          o = e.observation ∧
            ∀ (evaluator : ShadowEvaluator σ τ' σ' τ'') (name : String) (fuel : ℕ)
              (result : ShadowResult), evaluator.baseline.policy = e.runner.policy →
              evaluator.evaluate fuel ⟨name, o⟩ = .ok (some result) →
              ComparesWith t.outcome result := by
  obtain ⟨lines, hlines, hheldBy, hcall⟩ := exists_heldLines hwrite hread recorder calls fs
  refine ⟨lines, hlines, hheldBy, fun hfull line hline reference o hheld => ?_,
    fun line hline t hheld => ?_⟩
  · obtain ⟨call, -, hrecord⟩ := hcall line hline _ hheld
    exact reference_of_recordOf hfull hrecord
  · obtain ⟨call, hmem, hrecord⟩ := hcall line hline _ hheld
    refine ⟨⟨call, hmem, request_of_recordOf_trace hrecord⟩,
      fun e o hleaves he ho href hhash => ?_⟩
    have hdigest : o.digest = e.observation.digest := by
      have htrace := ProposalRunner.observation_of_drive_run hleaves
      exact congrArg ObservationRef.digest (href.trans htrace)
    obtain rfl := Observation.eq_of_reference_eq hcanon hhash ho he hdigest
    exact ⟨rfl, fun evaluator name fuel result hpolicy hresult => hleaves.compares hpolicy hresult⟩

end TraceRecorder

end Replays

namespace Fixture

/-- The runner of the public runner test, given the observation of the
fixtures. -/
def publicEvaluation : Evaluation Unit Unit := ⟨publicRunner (fun n => n), observation, 1⟩

/-- The observation and the trace of an evaluation, recorded one after the
other. -/
def publicCalls : List RecordCall :=
  [⟨.observation observation, Vector.replicate 16 0, fun _ => none⟩,
    ⟨.trace (publicTrace (fun n => n)), Vector.replicate 16 1, fun _ => none⟩]

end Fixture

open Fixture in
/-- **The public evaluation, recorded behind another line and replayed**: the
second of the lines that are added holds its trace, and a comparison on its
observation, with its policy as the baseline, is one with the outcome it
holds. -/
theorem TraceRecorder.replay_recorded_fixture :
    ∃ first second : List UInt8,
      nonEmptyLines ((recorder.stateAfter publicCalls (holding [0x7b, 0x7d, 0x0a])
        recorder.path).getD []) = [[0x7b, 0x7d], first, second] ∧
      (JsonlRecord.trace (publicTrace (fun n => n))).HeldBy second ∧
      ∀ (evaluator : ShadowEvaluator Unit Unit Unit Unit) (name : String) (fuel : ℕ)
        (result : ShadowResult), evaluator.baseline.policy = noProposalPolicy →
        evaluator.evaluate fuel ⟨name, observation⟩ = .ok (some result) →
        ComparesWith .noProposal result := by
  obtain ⟨lines, hadds, hcalls, -, hreplay⟩ := @replay_recorded _ _ Unit Unit Unit Unit Unit _
    compactWriter reader rfc8785 recorder publicCalls (holding [0x7b, 0x7d, 0x0a])
  have hok : recorder.returnedOk publicCalls (holding [0x7b, 0x7d, 0x0a]) = publicCalls := by
    refine recorder.returnedOk_eq_self (fun run hrun => ?_)
    simp only [publicCalls, runs, List.mem_cons, List.not_mem_nil, or_false] at hrun
    rcases hrun with rfl | rfl
    · rfl
    · rfl
  rw [hok] at hcalls
  obtain ⟨first, rest, -, hrest, rfl⟩ := List.forall₂_cons_left_iff.mp hcalls
  obtain ⟨second, _, ⟨record, hrecord, hheld⟩, hnone, rfl⟩ := List.forall₂_cons_left_iff.mp hrest
  obtain rfl := List.forall₂_nil_left_iff.mp hnone
  obtain rfl : JsonlRecord.trace (publicTrace (fun n => n)) = record := Except.ok.inj hrecord
  refine ⟨first, second, hadds.lines (.inr rfl), hheld,
    fun evaluator name fuel result hpolicy hresult => ?_⟩
  obtain ⟨-, hsame⟩ := hreplay second (List.mem_cons_of_mem _ List.mem_cons_self) _ hheld
  obtain ⟨-, hcompares⟩ := hsame publicEvaluation observation rfl validate_observation
    validate_observation rfl (fun x y hx hy _ => Except.ok.inj (hx.symm.trans hy))
  exact hcompares evaluator name fuel result hpolicy hresult
