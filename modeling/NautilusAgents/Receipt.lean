import NautilusAgents.FirstViolation
import NautilusAgents.Protocol

/-!
# Requests and receipts

What a client checks of the documents it exchanges: a request is asked for its
version, a receipt for its version, the order of its times and an error that
goes with its status.

Three statuses are negative and come with an error, the other four come
without one. Which codes go with a status is a table
(`DecisionStatus.codes`), and the source reads it as nested matches. Read the
other way round, it says what a code tells of a receipt: a receipt never
carries the codes of a request that did not reach a decision, and every other
code belongs to one status only, except that of a failed dispatch
(`ErrorCode.statuses`).
-/

/-- Reports a structurally invalid live proposal request. -/
inductive RequestError where
  | unsupportedVersion (version : ProtocolVersion)
  deriving DecidableEq

/-- **Validate the request** as such. -/
def LiveProposalRequest.validate [UuidCrate] (request : LiveProposalRequest) :
    Except RequestError Unit :=
  if ¬ request.version.isSupported then .error (.unsupportedVersion request.version) else .ok ()

/-- Reports an inconsistent public decision receipt. -/
inductive ReceiptError where
  | unsupportedVersion (version : ProtocolVersion)
  | updateBeforeCreation
  | missingError (status : DecisionStatus)
  | unexpectedError (status : DecisionStatus)
  | errorCodeMismatch (status : DecisionStatus) (code : ErrorCode)
  deriving DecidableEq

/-- Whether an error code goes with a status. -/
def errorMatchesStatus (status : DecisionStatus) (code : ErrorCode) : Bool :=
  match status with
  | .rejected => match code with
    | .forbidden | .staleObservation | .indeterminateState | .rejected | .idempotencyConflict =>
      true
    | _ => false
  | .notDispatched => match code with
    | .commitFailed | .dispatchFailed => true
    | _ => false
  | .dispatchUnknown => code == .dispatchFailed
  | .accepted | .authorized | .dispatched | .completed => false

/-- Whether a receipt carries an error just when its status asks for one. -/
def errorPresence (status : DecisionStatus) (error : Option DecisionError) :
    Except ReceiptError Unit :=
  match status, error with
  | .rejected, none | .notDispatched, none | .dispatchUnknown, none =>
    .error (.missingError status)
  | .accepted, some _ | .authorized, some _ | .dispatched, some _ | .completed, some _ =>
    .error (.unexpectedError status)
  | _, _ => .ok ()

namespace DecisionReceipt

variable [UuidCrate]

/-- **Validate the receipt.** -/
def validate (receipt : DecisionReceipt) : Except ReceiptError Unit :=
  if ¬ receipt.version.isSupported then .error (.unsupportedVersion receipt.version)
  else if receipt.updatedAt < receipt.createdAt then .error .updateBeforeCreation
  else
    (errorPresence receipt.status receipt.error).bind (fun _ =>
      match receipt.error with
      | some error =>
        if ¬ errorMatchesStatus receipt.status error.code then
          .error (.errorCodeMismatch receipt.status error.code)
        else .ok ()
      | none => .ok ())

end DecisionReceipt

/-! ## Statuses and their codes -/

/-- **The codes that go with a status**: none where the outcome is not
negative. -/
def DecisionStatus.codes : DecisionStatus → List ErrorCode
  | rejected => [.forbidden, .staleObservation, .indeterminateState, .rejected,
      .idempotencyConflict]
  | notDispatched => [.commitFailed, .dispatchFailed]
  | dispatchUnknown => [.dispatchFailed]
  | _ => []

theorem errorMatchesStatus_iff (status : DecisionStatus) (code : ErrorCode) :
    errorMatchesStatus status code = true ↔ code ∈ status.codes := by
  cases status <;> cases code <;> decide

/-- An error is missing where the status has codes, and unexpected where it
has none. -/
theorem reports_errorPresence (status : DecisionStatus) (error : Option DecisionError) :
    Reports [⟨status.codes ≠ [] ∧ error = none, .missingError status⟩,
      ⟨status.codes = [] ∧ error ≠ none, .unexpectedError status⟩]
      (errorPresence status error) := by
  have hpresence : errorPresence status error
      = if status.codes ≠ [] ∧ error = none then .error (.missingError status)
        else if status.codes = [] ∧ error ≠ none then .error (.unexpectedError status)
        else .ok () := by
    cases status <;> cases error <;> rfl
  rw [hpresence]
  exact .test (fun _ => .test (fun _ => .nil))

namespace DecisionReceipt

variable [UuidCrate]

/-- **The rules of validation, in order.** The last one is there when an error
is. -/
def rules (receipt : DecisionReceipt) : List (Rule ReceiptError) :=
  [⟨¬ receipt.version.isSupported, .unsupportedVersion receipt.version⟩,
    ⟨receipt.updatedAt < receipt.createdAt, .updateBeforeCreation⟩]
  ++ ([⟨receipt.status.codes ≠ [] ∧ receipt.error = none, .missingError receipt.status⟩,
      ⟨receipt.status.codes = [] ∧ receipt.error ≠ none, .unexpectedError receipt.status⟩]
    ++ receipt.error.toList.map (fun error =>
      ⟨error.code ∉ receipt.status.codes, .errorCodeMismatch receipt.status error.code⟩))

/-- **The validator is the outcome of testing the rules in order.** -/
theorem reports_validate (receipt : DecisionReceipt) : Reports receipt.rules receipt.validate := by
  unfold rules validate
  refine .test (fun _ => .test (fun _ => ?_))
  refine (reports_errorPresence receipt.status receipt.error).bind (fun _ => ?_)
  cases receipt.error with
  | none => exact .nil
  | some error =>
    show Reports [_] (if ¬ errorMatchesStatus receipt.status error.code then _ else _)
    simp only [errorMatchesStatus_iff]
    exact .test (fun _ => .nil)

/-- **The conditions of validation**, without order: the error, if any, has a
code of the status, and there is one where the status has codes. -/
structure Consistent (receipt : DecisionReceipt) : Prop where
  /-- The version is supported. -/
  version : receipt.version.isSupported = true
  /-- It is not updated before it was created. -/
  times : receipt.createdAt ≤ receipt.updatedAt
  /-- There is an error where the status has codes. -/
  presence : receipt.error = none ↔ receipt.status.codes = []
  /-- Its code is one of the status. -/
  code : ∀ error, receipt.error = some error → error.code ∈ receipt.status.codes

theorem rules_kept_iff (receipt : DecisionReceipt) :
    (∀ rule ∈ receipt.rules, ¬ rule.violated) ↔ receipt.Consistent := by
  simp only [rules, List.forall_mem_append, List.forall_mem_cons, List.not_mem_nil,
    false_imp_iff, imp_true_iff, and_true, List.forall_mem_map, Option.mem_toList, not_not, not_lt,
    not_and, ne_eq]
  constructor
  · rintro ⟨⟨hversion, htimes⟩, ⟨hmissing, hunexpected⟩, hcode⟩
    refine ⟨hversion, htimes, ⟨fun hnone => ?_, hunexpected⟩, hcode⟩
    by_contra hcodes
    exact hmissing hcodes hnone
  · intro h
    exact ⟨⟨h.version, h.times⟩, ⟨fun hcodes hnone => hcodes (h.presence.mp hnone),
      h.presence.mpr⟩, h.code⟩

theorem validate_eq_ok_iff (receipt : DecisionReceipt) :
    receipt.validate = .ok () ↔ receipt.Consistent := by
  rw [receipt.reports_validate.eq_iff, reports_ok_iff, rules_kept_iff]

end DecisionReceipt

namespace ErrorCode

/-- The codes of a request that reached no decision. -/
def isRequestLevel : ErrorCode → Bool
  | malformed => true
  | unsupportedVersion => true
  | _ => false

/-- **A code and its statuses**: a code of the request belongs to none, and two
statuses that share a code are those of a failed dispatch. -/
theorem statuses (code : ErrorCode) :
    (code.isRequestLevel = true ↔ ∀ status : DecisionStatus, code ∉ status.codes) ∧
      ∀ status status' : DecisionStatus, code ∈ status.codes → code ∈ status'.codes →
        status ≠ status' → code = dispatchFailed := by
  constructor
  · constructor
    · intro h status
      cases code <;> cases h <;> cases status <;> decide
    · intro h
      cases code with
      | malformed => rfl
      | unsupportedVersion => rfl
      | commitFailed => exact absurd (by decide) (h .notDispatched)
      | dispatchFailed => exact absurd (by decide) (h .notDispatched)
      | _ => exact absurd (by decide) (h .rejected)
  · intro status status' h h' hne
    cases code with
    | dispatchFailed => rfl
    | _ =>
      cases status <;> first | exact absurd h (by decide) | skip
      all_goals cases status' <;> first | exact absurd h' (by decide) | exact absurd rfl hne

end ErrorCode

namespace DecisionReceipt

variable [UuidCrate]

/-- **Receipts, rule by rule**: the validator accepts a receipt exactly when it
is consistent and reports the first rule violated otherwise. Of valid receipts
the code of an error tells the status: it is never one of a request that
reached no decision, and two receipts with one code have one status unless a
dispatch has failed. -/
theorem validate_decides_receipt (receipt : DecisionReceipt) :
    (receipt.validate = .ok () ↔ receipt.Consistent) ∧
      (∀ e, receipt.validate = .error e ↔ ∃ before rule after,
        receipt.rules = before ++ rule :: after ∧ (∀ earlier ∈ before, ¬ earlier.violated) ∧
        rule.violated ∧ rule.error = e) ∧
      ∀ other : DecisionReceipt, receipt.validate = .ok () → other.validate = .ok () →
        ∀ error error', receipt.error = some error → other.error = some error' →
          error.code = error'.code → error.code.isRequestLevel = false ∧
            (receipt.status = other.status ∨ error.code = .dispatchFailed) := by
  refine ⟨receipt.validate_eq_ok_iff, fun e => ?_, ?_⟩
  · rw [receipt.reports_validate.eq_iff]
    exact reports_error_iff
  · intro other hvalid hvalid' error error' herror herror' hcode
    have hmem := (receipt.validate_eq_ok_iff.mp hvalid).code error herror
    have hmem' := (other.validate_eq_ok_iff.mp hvalid').code error' herror'
    obtain ⟨hrequest, hstatuses⟩ := error.code.statuses
    refine ⟨Bool.eq_false_iff.mpr (fun h => hrequest.mp h receipt.status hmem), ?_⟩
    by_cases hstatus : receipt.status = other.status
    · exact .inl hstatus
    · exact .inr (hstatuses _ _ hmem (hcode ▸ hmem') hstatus)

end DecisionReceipt
