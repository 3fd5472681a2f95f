import NautilusAgents.DebugText
import NautilusAgents.Fixture
import NautilusAgents.Polling

/-!
# The proposal runner

The runner evaluates a policy against an observation and leaves one trace of
it. It creates the policy's future, races it against a timer, and reads the
clock before and after.

Panics and timers can both end an evaluation, in any round of a race whose
length nobody knows, and the two are kept apart by order: a panic while the
future is created ends the evaluation before there is a timer, and in every
later round the policy is polled before the timer is. So the outcome is fixed
by the first round in which one of the two has something to say, and there by
what the policy says if it says anything (`ProposalRunner.run_first_event`).
Dropping a future is not polling it, and is outside the model.

The two readings of the clock are in the order of the two calls, not of time.
The system clock may be set back between them, and the conversion to a
timestamp, which stops at zero and at the largest timestamp, hides this only at
its two ends (`ProposalRunner.startedAt_le_completedAt_iff`).
-/

/-! ## Debug texts -/

/-- The debug form of a field path. -/
def FieldPath.debug [UnicodeTables] (path : FieldPath) : String :=
  "FieldPath(\"" ++ String.ofList (path.text.toList.flatMap escapeDebug) ++ "\")"

/-! ## Policies -/

/-- Captures the complete successful result of a local policy evaluation. -/
inductive ProposalDecision where
  | propose (proposal : LiveProposal)
  | noProposal
  deriving DecidableEq

/-- Reports a local policy evaluation error. -/
inductive ProposalError where
  | insufficientObservation (fields : List FieldPath)
  | internal (message : String)
  deriving DecidableEq

/-- The text of an error. -/
def ProposalError.display [UnicodeTables] : ProposalError → String
  | insufficientObservation fields =>
    "observation lacks required fields: [" ++ String.intercalate ", " (fields.map FieldPath.debug)
      ++ "]"
  | internal message => message

/-- What a panic carries: a literal text, an owned one, or anything else. -/
inductive PanicPayload where
  | str (message : String)
  | string (message : String)
  | other
  deriving DecidableEq

/-- **A policy**: creating the future may panic, and so may each poll of it. Both
are functions of what they are given: a policy that keeps a state of its own
between evaluations is another policy in each of them. -/
structure ProposalPolicy [UuidCrate] (σ : Type) where
  /-- Create the future of an evaluation, as its first state. -/
  propose : Observation → Except PanicPayload σ
  /-- How such a future is polled. -/
  future : Future σ PanicPayload (Except ProposalError ProposalDecision)

/-! ## The runner -/

/-- A span of time, in seconds and nanoseconds. -/
structure Duration where
  /-- The whole seconds. -/
  secs : ℕ
  /-- The nanoseconds beyond them. -/
  nanos : ℕ
  deriving DecidableEq

/-- The whole milliseconds of a span. -/
def Duration.asMillis (d : Duration) : ℕ := d.secs * 1000 + d.nanos / 1000000

/-- Configures one proposal policy and its local evaluation timeout. -/
structure RunnerConfig where
  /-- The policy identity that every trace records. -/
  policy : PolicyMetadata
  /-- The timeout of one evaluation. -/
  timeout : Duration
  deriving DecidableEq

/-- What the runner takes from its surroundings: the readings of the clock in
the order they are taken, a trace identity, and timers. -/
structure RunnerRuntime [UuidCrate] (τ : Type) where
  /-- The readings of the clock. -/
  clock : ℕ → TimestampNs
  /-- The identity of the trace. -/
  traceId : TraceId
  /-- Set a timer, as its first state. -/
  timeout : Duration → τ
  /-- How a timer is polled. -/
  timer : τ → Poll Unit × τ

/-- Evaluates a proposal policy locally and emits one agent-side trace. -/
structure ProposalRunner [UuidCrate] (σ τ : Type) where
  /-- The policy that is evaluated. -/
  policy : ProposalPolicy σ
  /-- Its identity and its timeout. -/
  config : RunnerConfig
  /-- The clock, the identities and the timers. -/
  runtime : RunnerRuntime τ

/-- The outcome of a panic. -/
def panicOutcome : PanicPayload → TraceOutcome
  | .str message => .failed ⟨.panic, message⟩
  | .string message => .failed ⟨.panic, message⟩
  | .other => .failed ⟨.panic, "policy panicked"⟩

/-- The outcome of a timeout. -/
def timeoutOutcome (config : RunnerConfig) : TraceOutcome :=
  .failed ⟨.timeout, "policy evaluation timed out after " ++ Nat.repr config.timeout.asMillis
    ++ " ms"⟩

namespace ProposalRunner

/-- The panic of an asynchronous function that is polled after it returned. -/
def resumedAfterCompletion : PanicPayload := .str "\x60async fn\x60 resumed after completion"

section Definitions

variable [UuidCrate] [UnicodeTables] {σ τ : Type}

/-- The timer as a future. -/
def timeoutFuture (runner : ProposalRunner σ τ) : Future τ PanicPayload Unit :=
  ⟨fun t => (.ok (runner.runtime.timer t).fst, (runner.runtime.timer t).snd)⟩

/-- The race of the policy against the timer. -/
def race (runner : ProposalRunner σ τ) :
    Future (σ × τ) PanicPayload
      (Except PanicPayload (Except ProposalError ProposalDecision) ⊕ Unit) :=
  (runner.policy.future.catchUnwind PanicPayload).select runner.timeoutFuture

/-- The outcome of the race. -/
def outcomeOf (config : RunnerConfig) :
    Except PanicPayload (Except ProposalError ProposalDecision) ⊕ Unit → TraceOutcome
  | .inl (.ok (.ok (.propose proposal))) => .proposed proposal
  | .inl (.ok (.ok .noProposal)) => .noProposal
  | .inl (.ok (.error e)) => .failed ⟨.policyError, e.display⟩
  | .inl (.error payload) => panicOutcome payload
  | .inr () => timeoutOutcome config

/-- **Evaluate the policy**: create its future, then race it against a
timer. -/
def evaluate (runner : ProposalRunner σ τ) (observation : Observation) :
    Future (Future.Async Unit (σ × τ)) PanicPayload TraceOutcome :=
  Future.awaiting
    (match runner.policy.propose observation with
      | .ok future => .inr ((), future, runner.runtime.timeout runner.config.timeout)
      | .error payload => .inl (panicOutcome payload))
    runner.race (fun _ => outcomeOf runner.config) resumedAfterCompletion

/-- The trace of an evaluation. -/
def traceOf (runner : ProposalRunner σ τ) (observation : Observation) (traceId : TraceId)
    (startedAt : TimestampNs) (outcome : TraceOutcome) : AgentTrace where
  version := .protocolVersion
  traceId := traceId
  observation := observation.reference
  policy := runner.config.policy
  startedAt := startedAt
  completedAt := runner.runtime.clock 1
  outcome := outcome

/-- **Run the policy**: take an identity and a reading of the clock, evaluate,
and take another reading. -/
def run (runner : ProposalRunner σ τ) (observation : Observation) :
    Future (Future.Async (TraceId × TimestampNs) (Future.Async Unit (σ × τ))) PanicPayload
      AgentTrace :=
  Future.awaiting (.inr ((runner.runtime.traceId, runner.runtime.clock 0), .unresumed))
    (runner.evaluate observation)
    (fun locals outcome => runner.traceOf observation locals.fst locals.snd outcome)
    resumedAfterCompletion

end Definitions

/-! ## The first event -/

section FirstEvent

variable [UuidCrate] [UnicodeTables] {σ τ : Type}

/-- **The outcome of the round in which the policy or the timer has something
to say**: what the policy says, or else the timeout. -/
def decided (config : RunnerConfig) :
    Except PanicPayload (Poll (Except ProposalError ProposalDecision)) → TraceOutcome
  | .error payload => panicOutcome payload
  | .ok (.ready (.ok (.propose proposal))) => .proposed proposal
  | .ok (.ready (.ok .noProposal)) => .noProposal
  | .ok (.ready (.error e)) => .failed ⟨.policyError, e.display⟩
  | .ok .pending => timeoutOutcome config

omit [UuidCrate] in
/-- The outcome of a round of the race, by what its two polls return. -/
theorem exists_raced_iff (config : RunnerConfig)
    (p : Except PanicPayload (Poll (Except ProposalError ProposalDecision))) (t : Poll Unit)
    (outcome : TraceOutcome) :
    (∃ x, Future.raced (.ok (Future.caught p) : Except PanicPayload _) (.ok t) = .ok (.ready x) ∧
        outcomeOf config x = outcome) ↔
      ¬ (p = .ok .pending ∧ t = .pending) ∧ outcome = decided config p := by
  rcases p with payload | _ | e | proposal | _ <;> rcases t with _ | _ <;>
    simp [Future.raced, Future.caught, outcomeOf, decided, eq_comm]

/-- What the poll of the policy in a round returns. -/
def policyAt (runner : ProposalRunner σ τ) (future : σ) (n : ℕ) :
    Except PanicPayload (Poll (Except ProposalError ProposalDecision)) :=
  runner.policy.future.pollAt future n

/-- What the timer says when it is polled in a round. -/
def timerAt (runner : ProposalRunner σ τ) (n : ℕ) : Poll Unit :=
  (runner.runtime.timer
    (runner.timeoutFuture.after (runner.runtime.timeout runner.config.timeout) n)).fst

/-- **The round of the first event**: the first in which the policy is not
pending or the timer is ready. -/
def FirstEvent (runner : ProposalRunner σ τ) (future : σ) (n : ℕ) : Prop :=
  (∀ m < n, runner.policyAt future m = .ok .pending ∧ runner.timerAt m = .pending) ∧
    ¬ (runner.policyAt future n = .ok .pending ∧ runner.timerAt n = .pending)

omit [UnicodeTables] in
/-- The race before a round, and in it. -/
theorem race_spec (runner : ProposalRunner σ τ) (future : σ) (n : ℕ) :
    (runner.race.PendingUntil (future, runner.runtime.timeout runner.config.timeout) n ↔
      ∀ m < n, runner.policyAt future m = .ok .pending ∧ runner.timerAt m = .pending) ∧
    (runner.race.PendingUntil (future, runner.runtime.timeout runner.config.timeout) n →
      runner.race.pollAt (future, runner.runtime.timeout runner.config.timeout) n
        = Future.raced (.ok (Future.caught (runner.policyAt future n)))
          (.ok (runner.timerAt n))) := by
  constructor
  · unfold race
    rw [Future.pendingUntil_select_iff]
    have hpolicy (m : ℕ) : (runner.policy.future.catchUnwind PanicPayload).pollAt future m
        = .ok .pending ↔ runner.policyAt future m = .ok .pending := by
      rw [Future.pollAt_catchUnwind, Except.ok.injEq, Future.caught_eq_pending_iff]
      rfl
    have htimer (m : ℕ) : runner.timeoutFuture.pollAt
        (runner.runtime.timeout runner.config.timeout) m = .ok .pending ↔
          runner.timerAt m = .pending := by
      show (Except.ok (runner.timerAt m) : Except PanicPayload (Poll Unit)) = .ok .pending ↔ _
      rw [Except.ok.injEq]
    unfold Future.PendingUntil
    simp only [hpolicy, htimer, forall_and]
  · intro h
    unfold race at h ⊢
    rw [Future.pollAt_select h, Future.pollAt_catchUnwind]
    rfl

/-- **A race reports the first event.** -/
theorem drive_race_iff (runner : ProposalRunner σ τ) (future : σ) (fuel : ℕ)
    (outcome : TraceOutcome) :
    (∃ x, (runner.race.drive fuel
        (future, runner.runtime.timeout runner.config.timeout)).fst = .ok (some x) ∧
        outcomeOf runner.config x = outcome) ↔
      ∃ n < fuel, runner.FirstEvent future n ∧
        outcome = decided runner.config (runner.policyAt future n) := by
  simp only [Future.drive_eq_some_iff]
  constructor
  · rintro ⟨x, ⟨n, hn, hpending, hround⟩, hout⟩
    obtain ⟨hbefore, hpoll⟩ := runner.race_spec future n
    rw [hpoll hpending] at hround
    obtain ⟨hevent, hdecided⟩ := (exists_raced_iff _ _ _ _).mp ⟨x, hround, hout⟩
    exact ⟨n, hn, ⟨hbefore.mp hpending, hevent⟩, hdecided⟩
  · rintro ⟨n, hn, ⟨hbefore, hevent⟩, hdecided⟩
    obtain ⟨hbefore', hpoll⟩ := runner.race_spec future n
    have hpending := hbefore'.mpr hbefore
    obtain ⟨x, hround, hout⟩ := (exists_raced_iff _ _ _ _).mpr ⟨hevent, hdecided⟩
    exact ⟨x, ⟨n, hn, hpending, (hpoll hpending).trans hround⟩, hout⟩

omit [UnicodeTables] in
/-- **A race does not panic.** -/
theorem drive_race_ne_error (runner : ProposalRunner σ τ) (future : σ) (fuel : ℕ)
    (payload : PanicPayload) :
    (runner.race.drive fuel (future, runner.runtime.timeout runner.config.timeout)).fst
      ≠ .error payload := by
  rw [ne_eq, Future.drive_eq_error_iff]
  rintro ⟨n, -, hpending, hround⟩
  rw [(runner.race_spec future n).2 hpending] at hround
  generalize Future.caught (runner.policyAt future n) = p at hround
  generalize runner.timerAt n = t at hround
  cases p <;> cases t <;> cases hround

/-- The trace of a run with an outcome. -/
def traceWith (runner : ProposalRunner σ τ) (observation : Observation)
    (outcome : TraceOutcome) : AgentTrace :=
  runner.traceOf observation runner.runtime.traceId (runner.runtime.clock 0) outcome

/-- Driving a run is driving its evaluation. -/
theorem drive_run (runner : ProposalRunner σ τ) (observation : Observation) (fuel : ℕ) :
    ((runner.run observation).drive fuel .unresumed).fst
      = ((runner.evaluate observation).drive fuel .unresumed).fst.map
        (Option.map (runner.traceWith observation)) :=
  Future.drive_awaiting _ _ fuel

theorem drive_evaluate {runner : ProposalRunner σ τ} {observation : Observation} {future : σ}
    (h : runner.policy.propose observation = .ok future) (fuel : ℕ) :
    ((runner.evaluate observation).drive fuel .unresumed).fst
      = (runner.race.drive fuel
        (future, runner.runtime.timeout runner.config.timeout)).fst.map
          (Option.map (outcomeOf runner.config)) := by
  unfold evaluate
  rw [h]
  exact Future.drive_awaiting _ _ fuel

/-- **No panic of the policy escapes.** -/
theorem exists_drive_run_eq_ok (runner : ProposalRunner σ τ) (observation : Observation)
    (fuel : ℕ) : ∃ r, ((runner.run observation).drive fuel .unresumed).fst = .ok r := by
  cases hr : ((runner.run observation).drive fuel .unresumed).fst with
  | ok r => exact ⟨r, rfl⟩
  | error payload =>
    rw [drive_run, Future.map_eq_error_iff] at hr
    cases hp : runner.policy.propose observation with
    | ok future =>
      rw [drive_evaluate hp, Future.map_eq_error_iff] at hr
      exact absurd hr (runner.drive_race_ne_error future fuel payload)
    | error payload' =>
      unfold evaluate at hr
      rw [hp] at hr
      cases fuel <;> cases hr

/-- A run whose policy panics before there is a future is over in one round,
without a timer. -/
theorem drive_run_of_error {runner : ProposalRunner σ τ} {observation : Observation}
    {payload : PanicPayload} (h : runner.policy.propose observation = .error payload)
    (fuel : ℕ) :
    (runner.run observation).drive (fuel + 1) .unresumed
      = (.ok (some (runner.traceWith observation (panicOutcome payload))),
        .returned (some (.returned none))) := by
  unfold run evaluate
  rw [h]
  rfl

/-- Any other run is over when the first event is among its rounds. -/
theorem drive_run_iff {runner : ProposalRunner σ τ} {observation : Observation} {future : σ}
    (h : runner.policy.propose observation = .ok future) (fuel : ℕ) (trace : AgentTrace) :
    ((runner.run observation).drive fuel .unresumed).fst = .ok (some trace) ↔
      ∃ n < fuel, runner.FirstEvent future n ∧ trace =
        runner.traceWith observation (decided runner.config (runner.policyAt future n)) := by
  rw [drive_run, Future.map_eq_some_iff, drive_evaluate h]
  simp only [Future.map_eq_some_iff, drive_race_iff]
  constructor
  · rintro ⟨outcome, ⟨n, hn, hevent, rfl⟩, rfl⟩
    exact ⟨n, hn, hevent, rfl⟩
  · rintro ⟨n, hn, hevent, rfl⟩
    exact ⟨_, ⟨n, hn, hevent, rfl⟩, rfl⟩

omit [UuidCrate] in
/-- Only a proposal is reported as one. -/
theorem decided_eq_proposed_iff {config : RunnerConfig}
    {p : Except PanicPayload (Poll (Except ProposalError ProposalDecision))}
    {proposal : LiveProposal} :
    decided config p = .proposed proposal ↔ p = .ok (.ready (.ok (.propose proposal))) := by
  rcases p with payload | _ | e | proposal' | _
  · cases payload <;> simp [decided, panicOutcome]
  · simp [decided, timeoutOutcome]
  · simp [decided]
  · simp [decided]
  · simp [decided]

/-- What a trace says of its run besides the outcome: the identity and the times
the runner took, the configured policy, and the observation by reference. -/
structure Identifies (runner : ProposalRunner σ τ) (observation : Observation)
    (trace : AgentTrace) : Prop where
  /-- The version is the one of the protocol. -/
  version : trace.version = ⟨1, 0⟩
  /-- The identity is the one taken for the run. -/
  traceId : trace.traceId = runner.runtime.traceId
  /-- The observation is named by its identity and its digest. -/
  observation : trace.observation = ⟨observation.id, observation.digest⟩
  /-- The policy is named as it is configured. -/
  policy : trace.policy = runner.config.policy
  /-- The first reading of the clock. -/
  startedAt : trace.startedAt = runner.runtime.clock 0
  /-- The second reading of the clock. -/
  completedAt : trace.completedAt = runner.runtime.clock 1

/-- **The outcome that an event asks for**, by what the policy does in it:
returns, fails, panics, or is pending still when the timer is ready. -/
structure Reported (config : RunnerConfig)
    (event : Except PanicPayload (Poll (Except ProposalError ProposalDecision)))
    (outcome : TraceOutcome) : Prop where
  /-- A proposal is reported as it is. -/
  proposed : ∀ proposal, event = .ok (.ready (.ok (.propose proposal))) →
    outcome = .proposed proposal
  /-- So is that there is none. -/
  noProposal : event = .ok (.ready (.ok .noProposal)) → outcome = .noProposal
  /-- An error of the policy is reported with its text. -/
  policyError : ∀ e, event = .ok (.ready (.error e)) →
    outcome = .failed { kind := .policyError, message := e.display }
  /-- A panic with a text is reported with the text. -/
  panic : ∀ message, event = .error (.str message) ∨ event = .error (.string message) →
    outcome = .failed { kind := .panic, message := message }
  /-- Any other panic is reported with a text of its own. -/
  otherPanic : event = .error .other →
    outcome = .failed { kind := .panic, message := "policy panicked" }
  /-- A timeout is reported with the milliseconds it came after. -/
  timeout : event = .ok .pending → outcome = .failed
    { kind := .timeout
      message := "policy evaluation timed out after "
        ++ Nat.repr (config.timeout.secs * 1000 + config.timeout.nanos / 1000000) ++ " ms" }

omit [UnicodeTables] in
theorem identifies_traceWith (runner : ProposalRunner σ τ) (observation : Observation)
    (outcome : TraceOutcome) :
    runner.Identifies observation (runner.traceWith observation outcome) :=
  ⟨rfl, rfl, rfl, rfl, rfl, rfl⟩

omit [UuidCrate] in
/-- What is decided is what the event asks for. -/
theorem reported_decided (config : RunnerConfig)
    (event : Except PanicPayload (Poll (Except ProposalError ProposalDecision))) :
    Reported config event (decided config event) where
  proposed _ h := by rw [h]; rfl
  noProposal h := by rw [h]; rfl
  policyError _ h := by rw [h]; rfl
  panic _ h := by rcases h with h | h <;> rw [h] <;> rfl
  otherPanic h := by rw [h]; rfl
  timeout h := by rw [h]; rfl

omit [UnicodeTables] in
/-- **There is one first event.** -/
theorem FirstEvent.unique {runner : ProposalRunner σ τ} {future : σ} {n m : ℕ}
    (hn : runner.FirstEvent future n) (hm : runner.FirstEvent future m) : n = m := by
  rcases Nat.lt_trichotomy n m with hlt | heq | hlt
  · exact absurd (hm.1 n hlt) hn.2
  · exact heq
  · exact absurd (hn.1 m hlt) hm.2

/-- **The first event fixes the outcome of a run**, over every policy and every
schedule of the timer. No panic of the policy escapes. Where the policy panics
before there is a future, the run is over in one round and without a timer, and
the outcome is that panic. Otherwise the run is over after a number of rounds
exactly when the first event is among them, and the outcome is what that event
asks for: what the policy returns, its error, its panic, or the timeout if it is
pending. A proposal that is reported was ready in a round before which the timer
was not. -/
theorem run_first_event (runner : ProposalRunner σ τ) (observation : Observation) :
    (∀ fuel, ∃ r, ((runner.run observation).drive fuel .unresumed).fst = .ok r) ∧
    (∀ payload, runner.policy.propose observation = .error payload → ∀ fuel, ∃ trace,
      (runner.run observation).drive (fuel + 1) .unresumed
        = (.ok (some trace), .returned (some (.returned none))) ∧
      runner.Identifies observation trace ∧
      Reported runner.config (.error payload) trace.outcome) ∧
    ∀ future, runner.policy.propose observation = .ok future →
      (∀ fuel, (∃ trace, ((runner.run observation).drive fuel .unresumed).fst
          = .ok (some trace)) ↔ ∃ n < fuel, runner.FirstEvent future n) ∧
      ∀ fuel trace, ((runner.run observation).drive fuel .unresumed).fst = .ok (some trace) →
        runner.Identifies observation trace ∧
        (∀ n, runner.FirstEvent future n →
          Reported runner.config (runner.policyAt future n) trace.outcome) ∧
        ∀ proposal, trace.outcome = .proposed proposal → ∃ n < fuel,
          runner.policyAt future n = .ok (.ready (.ok (.propose proposal))) ∧
            ∀ m < n, runner.timerAt m = .pending := by
  refine ⟨runner.exists_drive_run_eq_ok observation, fun payload hpanic fuel => ?_,
    fun future hok => ⟨fun fuel => ?_, fun fuel trace htrace => ?_⟩⟩
  · exact ⟨_, drive_run_of_error hpanic fuel, runner.identifies_traceWith observation _,
      reported_decided runner.config (.error payload)⟩
  · constructor
    · rintro ⟨trace, htrace⟩
      obtain ⟨n, hn, hevent, -⟩ := (drive_run_iff hok fuel trace).mp htrace
      exact ⟨n, hn, hevent⟩
    · rintro ⟨n, hn, hevent⟩
      exact ⟨_, (drive_run_iff hok fuel _).mpr ⟨n, hn, hevent, rfl⟩⟩
  · obtain ⟨n, hn, hevent, rfl⟩ := (drive_run_iff hok fuel trace).mp htrace
    refine ⟨runner.identifies_traceWith observation _, fun m hm => ?_, fun proposal hproposed => ?_⟩
    · obtain rfl := hevent.unique hm
      exact reported_decided runner.config (runner.policyAt future n)
    · exact ⟨n, hn, decided_eq_proposed_iff.mp hproposed, fun m hm => (hevent.1 m hm).2⟩

/-! ## The order of the two times -/

/-- Every run that is over took the two readings of its clock. -/
theorem times_of_drive_run {runner : ProposalRunner σ τ} {observation : Observation} {fuel : ℕ}
    {trace : AgentTrace}
    (h : ((runner.run observation).drive fuel .unresumed).fst = .ok (some trace)) :
    trace.startedAt = runner.runtime.clock 0 ∧ trace.completedAt = runner.runtime.clock 1 := by
  rw [drive_run, Future.map_eq_some_iff] at h
  obtain ⟨outcome, -, rfl⟩ := h
  exact ⟨rfl, rfl⟩

end FirstEvent

/-- The time since the epoch, of a reading of the system clock in nanoseconds:
there is none before the epoch. -/
def durationSinceEpoch (reading : ℤ) : Option ℕ :=
  if 0 ≤ reading then some reading.toNat else none

/-- **The timestamp of a reading**: zero before the epoch, and the largest
timestamp beyond it. -/
def systemTime (reading : ℤ) : TimestampNs :=
  if (durationSinceEpoch reading).getD 0 < 2 ^ 64 then
    ⟨UInt64.ofNat ((durationSinceEpoch reading).getD 0)⟩
  else ⟨UInt64.ofNat (2 ^ 64 - 1)⟩

theorem asU64_systemTime (reading : ℤ) :
    (systemTime reading).asU64 = min reading.toNat (2 ^ 64 - 1) := by
  have hnanos : (durationSinceEpoch reading).getD 0 = reading.toNat := by
    unfold durationSinceEpoch
    split_ifs with hneg
    · rfl
    · exact (Int.toNat_of_nonpos (by omega)).symm
  unfold systemTime TimestampNs.asU64
  rw [hnanos]
  split_ifs with hfits
  · rw [UInt64.toNat_ofNat', Nat.mod_eq_of_lt hfits]
    omega
  · rw [UInt64.toNat_ofNat', Nat.mod_eq_of_lt (by omega)]
    omega

/-- **Timestamps keep the order of the readings up to the two ends.** -/
theorem systemTime_le_iff (first second : ℤ) :
    systemTime first ≤ systemTime second ↔
      first ≤ second ∨ first ≤ 0 ∨ 2 ^ 64 - 1 ≤ second := by
  show (systemTime first).asU64 ≤ (systemTime second).asU64 ↔ _
  rw [asU64_systemTime, asU64_systemTime]
  omega

section SystemClock

variable [UuidCrate] {σ τ : Type}

/-- A runner on the system clock, with the readings it will take. -/
def new (policy : ProposalPolicy σ) (config : RunnerConfig) (readings : ℕ → ℤ) (traceId : TraceId)
    (delay : Duration → τ) (timer : τ → Poll Unit × τ) : ProposalRunner σ τ where
  policy := policy
  config := config
  runtime := ⟨fun n => systemTime (readings n), traceId, delay, timer⟩

/-- **When a trace starts before it completes.** On every policy, every
schedule of the timer and any two readings of the system clock, a run that is
over leaves the times in order exactly when the readings are, or when the first
is not after the epoch, or the second not before the largest timestamp. -/
theorem startedAt_le_completedAt_iff [UnicodeTables] (policy : ProposalPolicy σ)
    (config : RunnerConfig) (readings : ℕ → ℤ) (traceId : TraceId) (delay : Duration → τ)
    (timer : τ → Poll Unit × τ) (observation : Observation) (fuel : ℕ) (trace : AgentTrace)
    (h : (((new policy config readings traceId delay timer).run observation).drive fuel
      .unresumed).fst = .ok (some trace)) :
    trace.startedAt ≤ trace.completedAt ↔
      readings 0 ≤ readings 1 ∨ readings 0 ≤ 0 ∨ 2 ^ 64 - 1 ≤ readings 1 := by
  obtain ⟨hstarted, hcompleted⟩ := times_of_drive_run h
  rw [hstarted, hcompleted]
  exact systemTime_le_iff (readings 0) (readings 1)

end SystemClock

end ProposalRunner

namespace Fixture

/-- Tables on which the printable characters are those of ASCII. -/
scoped instance unicodeTables : UnicodeTables where
  isGraphemeExtended _ := false
  isPrintable c := decide (0x20 ≤ c.toNat ∧ c.toNat < 0x7f)

/-- A policy that is ready at once, with no proposal. -/
def noProposalPolicy : ProposalPolicy Unit where
  propose _ := .ok ()
  future := ⟨fun s => (.ok (.ready (.ok .noProposal)), s)⟩

/-- The runner of the public runner test, with a timer that is never ready. -/
def publicRunner (readings : ℕ → ℤ) : ProposalRunner Unit Unit :=
  .new noProposalPolicy ⟨⟨"public-runner-policy", "2.3.5"⟩, ⟨1, 0⟩⟩ readings trace.traceId
    (fun _ => ()) (fun s => (.pending, s))

/-- Its trace. -/
def publicTrace (readings : ℕ → ℤ) : AgentTrace :=
  (publicRunner readings).traceWith observation .noProposal

/-- A proposal of the fixture's reduction. -/
def proposal : LiveProposal := ⟨.reducePosition reduction⟩

/-- A policy that proposes in the third round. -/
def thirdRoundPolicy : ProposalPolicy ℕ where
  propose _ := .ok 0
  future := ⟨fun round =>
    (.ok (if round = 2 then .ready (.ok (.propose proposal)) else .pending), round + 1)⟩

/-- Its runner, with a timer that is ready from a round on. -/
def racedRunner (expiry : ℕ) : ProposalRunner ℕ ℕ :=
  .new thirdRoundPolicy ⟨⟨"raced-policy", "1.0.0"⟩, ⟨1, 250000000⟩⟩ (fun n => n) trace.traceId
    (fun _ => 0) (fun round => (if expiry ≤ round then .ready () else .pending, round + 1))

end Fixture

namespace ProposalRunner

open Fixture in
/-- **A proposal in the third round** is reported where the timer is ready in
that round too, and not where it was ready in the second. -/
theorem run_first_event_fixture :
    (∃ trace, (((racedRunner 2).run observation).drive 3 .unresumed).fst = .ok (some trace) ∧
      trace.outcome = .proposed proposal) ∧
    ∃ trace, (((racedRunner 1).run observation).drive 3 .unresumed).fst = .ok (some trace) ∧
      trace.outcome = .failed
        { kind := .timeout, message := "policy evaluation timed out after 1250 ms" } := by
  obtain ⟨-, -, htie⟩ := run_first_event (racedRunner 2) observation
  obtain ⟨-, -, hlate⟩ := run_first_event (racedRunner 1) observation
  have htied : (racedRunner 2).FirstEvent 0 2 := by
    refine ⟨fun m hm => ?_, fun h => nomatch h.1⟩
    interval_cases m
    · exact ⟨rfl, rfl⟩
    · exact ⟨rfl, rfl⟩
  have hexpired : (racedRunner 1).FirstEvent 0 1 := by
    refine ⟨fun m hm => ?_, fun h => nomatch h.2⟩
    obtain rfl := Nat.lt_one_iff.mp hm
    exact ⟨rfl, rfl⟩
  constructor
  · obtain ⟨hover, hreports⟩ := htie 0 rfl
    obtain ⟨trace, htrace⟩ := (hover 3).mpr ⟨2, by decide, htied⟩
    exact ⟨trace, htrace, ((hreports 3 trace htrace).2.1 2 htied).proposed proposal rfl⟩
  · obtain ⟨hover, hreports⟩ := hlate 0 rfl
    obtain ⟨trace, htrace⟩ := (hover 3).mpr ⟨1, by decide, hexpired⟩
    exact ⟨trace, htrace, ((hreports 3 trace htrace).2.1 1 hexpired).timeout rfl⟩

open Fixture in
/-- A clock that moves on. -/
theorem startedAt_le_completedAt_fixture :
    (publicTrace (fun n => 1712400000100000101 + n)).startedAt
      ≤ (publicTrace (fun n => 1712400000100000101 + n)).completedAt :=
  (startedAt_le_completedAt_iff noProposalPolicy _ (fun n => 1712400000100000101 + n) _ _ _
    observation 1 _ rfl).mpr (Or.inl (by norm_num))

open Fixture in
/-- **A clock that is set back** by one nanosecond between the readings leaves
a trace that completes before it starts. -/
theorem startedAt_gt_completedAt :
    (((publicRunner (fun n => 1712400000100000101 - n)).run observation).drive 1 .unresumed).fst
        = .ok (some (publicTrace (fun n => 1712400000100000101 - n))) ∧
      ¬ (publicTrace (fun n => 1712400000100000101 - n)).startedAt
        ≤ (publicTrace (fun n => 1712400000100000101 - n)).completedAt := by
  refine ⟨rfl, ?_⟩
  show ¬ systemTime _ ≤ systemTime _
  rw [systemTime_le_iff]
  norm_num

end ProposalRunner
