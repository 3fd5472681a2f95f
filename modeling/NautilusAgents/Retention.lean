import NautilusAgents.RecordingRuns

/-!
# What a recorder retains

No restricted observation reaches the target, whatever the mode and the
redactor. What a record embeds is settled where the record is made
(`TraceRecorder.retention_of_recordOf`), and that the target holds nothing but
such records is what `RecordingRuns` says of its states.

What a recorder may not retain it does not reveal either: two runs whose
observations agree in what the mode captures are the same run
(`TraceRecorder.runs_eq`).
-/

section

variable [UuidCrate] [Crates]

namespace TraceRecorder

/-- **What the mode allows a record to embed**: nothing, an output of the
redactor that is valid, or the source itself. -/
def Embeds (recorder : TraceRecorder) (source embedded : Observation) : Prop :=
  match recorder.config.observationCapture with
  | .referenceOnly => False
  | .redacted => ∃ redact, recorder.redactor = some redact ∧ redact source = .ok embedded ∧
      embedded.validate = .ok ()
  | .full => embedded = source

/-- **An observation that is recorded is not restricted**, and is what the mode
allows for the source it is referenced by. -/
theorem retention_of_recordOf (recorder : TraceRecorder) {request : Request}
    {reference : ObservationRef} {embedded : Observation}
    (h : recorder.recordOf request = .ok (.observation reference embedded)) :
    embedded.retention ≠ .restricted ∧
      ∃ source, request = .observation source ∧ reference = source.reference ∧
        recorder.Embeds source embedded := by
  cases request with
  | trace trace => cases h
  | observation source =>
    rw [recordOf] at h
    unfold Embeds
    cases hmode : recorder.config.observationCapture with
    | referenceOnly =>
      rw [hmode] at h
      cases h
    | redacted =>
      simp only [hmode] at h
      cases hredactor : recorder.redactor with
      | none =>
        rw [hredactor] at h
        cases h
      | some redact =>
        simp only [hredactor] at h
        cases hredact : redact source with
        | error message =>
          simp only [hredact] at h
          cases h
        | ok redacted =>
          simp only [hredact] at h
          cases hvalid : redacted.validate with
          | error e =>
            simp only [hvalid] at h
            cases h
          | ok u =>
            simp only [hvalid] at h
            by_cases hretention : redacted.retention = .restricted
            · rw [if_pos hretention] at h
              cases h
            · rw [if_neg hretention] at h
              cases h
              exact ⟨hretention, source, rfl, rfl, redact, rfl, hredact, hvalid⟩
    | full =>
      simp only [hmode] at h
      by_cases hretention : source.retention = .restricted
      · rw [if_pos hretention] at h
        cases h
      · rw [if_neg hretention] at h
        cases h
        exact ⟨hretention, embedded, rfl, rfl, rfl⟩

/-! ## Two runs -/

/-- **Two requests the mode does not tell apart**: the same trace, or
observations with one reference that agree in what the mode captures. -/
def SameCapture (recorder : TraceRecorder) : Request → Request → Prop
  | .trace trace, .trace trace' => trace = trace'
  | .observation source, .observation source' =>
    source.id = source'.id ∧ source.digest = source'.digest ∧
      match recorder.config.observationCapture with
      | .referenceOnly => True
      | .redacted => ∀ redact, recorder.redactor = some redact → redact source = redact source'
      | .full => source = source'
  | _, _ => False

/-- Requests that are not told apart are turned into one record, or refused
alike. -/
theorem recordOf_eq_of_sameCapture (recorder : TraceRecorder) {request request' : Request}
    (h : recorder.SameCapture request request') :
    recorder.recordOf request = recorder.recordOf request' := by
  cases request with
  | trace trace =>
    cases request' with
    | trace trace' => rw [show trace = trace' from h]
    | observation source' => cases h
  | observation source =>
    cases request' with
    | trace trace' => cases h
    | observation source' =>
      obtain ⟨hid, hdigest, hmode⟩ := h
      have hreference : source.reference = source'.reference := by
        unfold Observation.reference
        rw [hid, hdigest]
      unfold recordOf
      cases hcapture : recorder.config.observationCapture with
      | referenceOnly => simp only [hreference]
      | redacted =>
        rw [hcapture] at hmode
        cases hredactor : recorder.redactor with
        | none => rfl
        | some redact => simp only [hmode redact hredactor, hreference]
      | full =>
        rw [hcapture] at hmode
        rw [show source = source' from hmode]

/-- Two calls that draw one UUID and meet the same faults, and whose requests
are not told apart. -/
def SameCall (recorder : TraceRecorder) (call call' : RecordCall) : Prop :=
  recorder.SameCapture call.request call'.request ∧ call.uuid = call'.uuid ∧
    call.faults = call'.faults

theorem runCall_eq_of_sameCall (recorder : TraceRecorder) {call call' : RecordCall}
    (h : recorder.SameCall call call') (fs : FileSystem PathBuf) :
    recorder.runCall call fs = recorder.runCall call' fs := by
  obtain ⟨hcapture, huuid, hfaults⟩ := h
  unfold runCall
  rw [call_eq, call_eq, lineOf, lineOf, recorder.recordOf_eq_of_sameCapture hcapture, huuid,
    hfaults]

/-- **Runs whose calls are not told apart are the same run.** -/
theorem runs_eq (recorder : TraceRecorder) {calls calls' : List RecordCall}
    (h : List.Forall₂ recorder.SameCall calls calls') (fs : FileSystem PathBuf) :
    recorder.runs calls fs = recorder.runs calls' fs := by
  induction h generalizing fs with
  | nil => rfl
  | cons hcall _ ih => rw [runs, runs, recorder.runCall_eq_of_sameCall hcall, ih]

/-- The calls that return `Ok` are among the calls that are made. -/
theorem returnedOk_sublist (recorder : TraceRecorder) (calls : List RecordCall)
    (fs : FileSystem PathBuf) : (recorder.returnedOk calls fs).Sublist calls := by
  induction calls generalizing fs with
  | nil => exact List.Sublist.slnil
  | cons call calls ih =>
    unfold returnedOk
    cases (recorder.runCall call fs).result with
    | ok u => exact (ih _).cons_cons call
    | error e => exact (ih _).cons call

/-- **Retention over whole runs.** In every state the target passes through, it
holds its initial content followed by records of calls that have been made,
and an observation that such a record embeds is not restricted and is what the
mode allows; and calls that differ only in what the mode does not capture give
one run – the same results, the same operations, the same bytes. -/
theorem retention_over_runs (recorder : TraceRecorder) (fs : FileSystem PathBuf) :
    (∀ calls, ∀ target ∈ recorder.targets calls fs,
      ∃ written : List (WrittenRecord recorder),
        (written.map WrittenRecord.request).Sublist (calls.map RecordCall.request) ∧
        target = contentAfter (fs recorder.path) (written.map WrittenRecord.line) ∧
        ∀ w ∈ written, ∀ reference embedded, w.record = .observation reference embedded →
          embedded.retention ≠ .restricted ∧
          ∃ source, w.request = .observation source ∧ reference = source.reference ∧
            recorder.Embeds source embedded) ∧
    ∀ calls calls', List.Forall₂ recorder.SameCall calls calls' →
      recorder.runs calls fs = recorder.runs calls' fs := by
  refine ⟨fun calls target htarget => ?_, fun calls calls' h => recorder.runs_eq h fs⟩
  obtain ⟨before, hbefore, htarget⟩ := recorder.exists_prefix_of_mem_targets htarget
  obtain ⟨written, hrequests, hstate⟩ := recorder.exists_written_stateAfter before fs
  refine ⟨written, ?_, htarget.trans hstate, fun w _ reference embedded hrecord => ?_⟩
  · rw [hrequests]
    exact ((recorder.returnedOk_sublist before fs).trans hbefore.sublist).map _
  · refine recorder.retention_of_recordOf ?_
    rw [w.record_eq, hrecord]

end TraceRecorder

end
