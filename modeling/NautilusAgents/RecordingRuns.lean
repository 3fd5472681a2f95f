import NautilusAgents.RecordAppend

/-!
# Runs of one recorder

Calls of one recorder that are made one after another, each with the UUID it
draws and the faults its operations meet. An append that runs alone leaves
either the target as it was or the target with its line, at every moment
(`RecordAppend.run_alone`), and a run of calls follows from that by induction:
the target holds its initial content followed by the lines of the calls that
returned `Ok` (`TraceRecorder.append_atomicity`).
-/

/-- What the target holds once lines have been appended: without one it is not
even created. -/
def contentAfter (initial : Option (List UInt8)) : List (List UInt8) → Option (List UInt8)
  | [] => initial
  | lines => some (initial.getD [] ++ lines.flatten)

theorem getD_contentAfter (initial : Option (List UInt8)) (lines : List (List UInt8)) :
    (contentAfter initial lines).getD [] = initial.getD [] ++ lines.flatten := by
  cases lines with
  | nil => rw [contentAfter, List.flatten_nil, List.append_nil]
  | cons line lines => rfl

theorem contentAfter_of_ne_nil (initial : Option (List UInt8)) {lines : List (List UInt8)}
    (h : lines ≠ []) : contentAfter initial lines = some (initial.getD [] ++ lines.flatten) := by
  cases lines with
  | nil => exact absurd rfl h
  | cons line lines => rfl

/-- **Lines are appended one after another.** -/
theorem contentAfter_append (initial : Option (List UInt8)) (lines more : List (List UInt8)) :
    contentAfter initial (lines ++ more) = contentAfter (contentAfter initial lines) more := by
  by_cases hmore : more = []
  · rw [hmore, List.append_nil, contentAfter]
  · have hne : lines ++ more ≠ [] := fun h => hmore (List.append_eq_nil_iff.mp h).2
    rw [contentAfter_of_ne_nil _ hne, contentAfter_of_ne_nil _ hmore, getD_contentAfter,
      List.flatten_append, List.append_assoc]

theorem contentAfter_singleton (initial : Option (List UInt8)) (line : List UInt8) :
    contentAfter initial [line] = some (initial.getD [] ++ line) := by
  rw [contentAfter_of_ne_nil initial (List.cons_ne_nil _ _), List.flatten_singleton]

section

variable [UuidCrate]

/-! ## An append alone -/

namespace RecordAppend

/-- The temporary file could not be removed. -/
def RemovalFailed (temporary : PathBuf) (events : List (FileEvent PathBuf)) : Prop :=
  ∃ event ∈ events, ∃ e, event.op = .removeFile temporary ∧ event.result = .error e

/-- **What holds of an append that runs alone**, at a stage, by the file system
it has started with and what it has performed. -/
structure Alone (a : RecordAppend) (start : FileSystem PathBuf)
    (events : List (FileEvent PathBuf)) (stage : Stage) (fs : FileSystem PathBuf) : Prop where
  /-- Only the target and the temporary file are concerned. -/
  other : ∀ moment ∈ fs :: events.map FileEvent.after, ∀ other, other ≠ a.path →
    other ≠ a.temporary → moment other = start other
  /-- Until the rename, the target is as it was. -/
  unchanged : stage ≠ .finished (.ok ()) → fs a.path = start a.path
  /-- After the rename, the target ends with the line. -/
  appended : stage = .finished (.ok ()) → fs a.path = some ((start a.path).getD [] ++ a.line)
  /-- At every moment the target is as it was or as it is. -/
  moments : ∀ event ∈ events,
    event.after a.path = start a.path ∨ event.after a.path = fs a.path
  /-- What has been read is what the target held. -/
  content : ∀ content, contentRead stage = some content → content = (start a.path).getD []
  /-- The temporary file holds what the stage says. -/
  holds : a.TemporaryHolds stage fs
  /-- Before the read, nothing has been done. -/
  untouched : stage = .reading → fs = start
  /-- In the end the temporary file is as it was, gone, or could not be
  removed. -/
  removed : ∀ result, stage = .finished result →
    fs a.temporary = start a.temporary ∨ fs a.temporary = none ∨ RemovalFailed a.temporary events

theorem Alone.of_start (a : RecordAppend) (fs : FileSystem PathBuf) :
    Alone a fs [] .reading fs where
  other := by
    intro moment hmoment other _ _
    rw [List.map_nil, List.mem_singleton] at hmoment
    rw [hmoment]
  unchanged _ := rfl
  appended h := Stage.noConfusion h
  moments event hevent := absurd hevent List.not_mem_nil
  content content h := by cases h
  holds content h := by cases h
  untouched _ := rfl
  removed result h := Stage.noConfusion h

/-- The step lemma of an append that runs alone. -/
theorem Alone.step {a : RecordAppend} {start fs : FileSystem PathBuf}
    {events : List (FileEvent PathBuf)} {stage stage' : Stage} {event : FileEvent PathBuf}
    (halone : Alone a start events stage fs) (hstep : Step a fs stage event stage')
    (hstage : stage ≠ .finished (.ok ())) :
    Alone a start (events ++ [event]) stage' event.after where
  other := by
    intro moment hmoment other hpath htemporary
    have hfs := halone.other fs List.mem_cons_self other hpath htemporary
    have hevent : event.after other = start other := by
      rw [hstep.after_of_ne hpath htemporary, hfs]
    rw [List.map_append, List.mem_cons, List.mem_append] at hmoment
    rcases hmoment with rfl | hmoment | hmoment
    · exact hevent
    · exact halone.other moment (List.mem_cons_of_mem _ hmoment) other hpath htemporary
    · rw [List.map_singleton, List.mem_singleton] at hmoment
      rw [hmoment]
      exact hevent
  unchanged := by
    intro hstage'
    rcases hstep.mark_cases () with ⟨-, -, -, hpath⟩ | ⟨-, hfinished, -⟩ | ⟨-, -, -, hpath⟩
    · exact hpath.trans (halone.unchanged hstage)
    · exact absurd hfinished hstage'
    · exact hpath.trans (halone.unchanged hstage)
  appended := by
    intro hstage'
    rcases hstep.mark_cases () with ⟨-, -, hne, -⟩ | ⟨-, -, existing, hreplacing, hpath⟩ |
      ⟨-, -, hne, -⟩
    · exact absurd hstage' hne
    · have hread : existing = (start a.path).getD [] :=
        halone.content existing (by rw [hreplacing]; rfl)
      rw [hpath, ← hread]
      exact halone.holds _ (by rw [hreplacing]; rfl)
    · exact absurd hstage' hne
  moments := by
    intro moment hmoment
    rw [List.mem_append, List.mem_singleton] at hmoment
    rcases hmoment with hmoment | rfl
    · rcases halone.moments moment hmoment with h | h
      · exact Or.inl h
      · exact Or.inl (h.trans (halone.unchanged hstage))
    · exact Or.inr rfl
  content := by
    intro content hcontent
    rcases hstep.contentRead_eq hcontent with h | ⟨hreading, h, -⟩
    · exact halone.content content h
    · rw [h, halone.untouched hreading]
  holds := hstep.temporaryHolds halone.holds
  untouched := by
    intro hstage'
    rw [hstage'] at hstep
    cases hstep
  removed := by
    intro result hresult
    rw [hresult] at hstep
    rcases hstep.temporary_of_finished with ⟨hreading, hafter⟩ | hnone | ⟨e, hop, he⟩
    · rw [hafter, halone.untouched hreading]
      exact Or.inl rfl
    · exact Or.inr (Or.inl hnone)
    · exact Or.inr (Or.inr ⟨event, List.mem_append_right _ (List.mem_singleton_self _), e, hop, he⟩)

/-- **An append alone**, run to its end. -/
theorem run_alone (a : RecordAppend) (faults : ℕ → Option Fault) (fs : FileSystem PathBuf) :
    Alone a fs ((replaceWithAppendedRecord a.path a.line a.uuid).run faults fs).events
      (.finished ((replaceWithAppendedRecord a.path a.line a.uuid).run faults fs).result)
      ((replaceWithAppendedRecord a.path a.line a.uuid).run faults fs).fs := by
  have hstep : ∀ events op next fs' fault,
      (∃ stage, .perform op next = a.program stage ∧ Alone a fs events stage fs') →
      ∃ stage', next (op.event fault fs').result = a.program stage' ∧
        Alone a fs (events ++ [op.event fault fs']) stage' (op.event fault fs').after := by
    rintro events op next fs' fault ⟨stage, hprogram, halone⟩
    obtain ⟨stage', hstep, hnext⟩ := a.step_cases hprogram.symm fault fs'
    refine ⟨stage', hnext, halone.step hstep ?_⟩
    rintro rfl
    cases hprogram
  obtain ⟨stage, hprogram, halone⟩ := FileProgram.run_invariant
    (fun events program fs' => ∃ stage, program = a.program stage ∧ Alone a fs events stage fs')
    hstep _ faults fs [] ⟨.reading, rfl, .of_start a fs⟩
  rw [a.eq_finished_of_program hprogram.symm] at halone
  exact halone

end RecordAppend

/-! ## Calls -/

/-- **A call of a recorder**: what it is asked to record, the UUID it draws,
and the fault its operation at each position meets. -/
structure RecordCall where
  /-- What it is asked to record. -/
  request : Request
  /-- The UUID it draws. -/
  uuid : Vector UInt8 16
  /-- The fault its operation at a position meets, if any. -/
  faults : ℕ → Option Fault

variable [Crates]

/-- **A record a recorder writes**, with the request it comes from and the line
it is written as. -/
structure WrittenRecord (recorder : TraceRecorder) where
  /-- What the recorder was asked to record. -/
  request : Request
  /-- The record it makes of it. -/
  record : JsonlRecord
  /-- The line of the record. -/
  line : List UInt8
  /-- The record is the one of the request. -/
  record_eq : recorder.recordOf request = .ok record
  /-- The line is the one of the record. -/
  line_eq : TraceRecorder.lineOfRecord record = .ok line

namespace TraceRecorder

/-- The temporary file of a call with the UUID. -/
def temporary (recorder : TraceRecorder) (uuid : Vector UInt8 16) : PathBuf :=
  recorder.path.temporary (recorder.path.utf8FileName.getD "") uuid

/-- Run a call alone. -/
def runCall (recorder : TraceRecorder) (call : RecordCall) (fs : FileSystem PathBuf) :
    FileRun PathBuf (Except RecordingError Unit) :=
  (recorder.call call.request call.uuid).run call.faults fs

/-- **Run calls one after another.** -/
def runs (recorder : TraceRecorder) :
    List RecordCall → FileSystem PathBuf → List (FileRun PathBuf (Except RecordingError Unit))
  | [], _ => []
  | call :: calls, fs =>
    recorder.runCall call fs :: recorder.runs calls (recorder.runCall call fs).fs

/-- The file system after calls. -/
def stateAfter (recorder : TraceRecorder) (calls : List RecordCall) (fs : FileSystem PathBuf) :
    FileSystem PathBuf :=
  calls.foldl (fun fs call => (recorder.runCall call fs).fs) fs

/-- The calls that return `Ok`. -/
def returnedOk (recorder : TraceRecorder) :
    List RecordCall → FileSystem PathBuf → List RecordCall
  | [], _ => []
  | call :: calls, fs =>
    match (recorder.runCall call fs).result with
    | .ok () => call :: recorder.returnedOk calls (recorder.runCall call fs).fs
    | .error _ => recorder.returnedOk calls (recorder.runCall call fs).fs

/-- **The states of the target**, from before the first call to after the
last. -/
def targets (recorder : TraceRecorder) :
    List RecordCall → FileSystem PathBuf → List (Option (List UInt8))
  | [], fs => [fs recorder.path]
  | call :: calls, fs =>
    fs recorder.path ::
      (recorder.runCall call fs).events.map (fun event => event.after recorder.path) ++
      recorder.targets calls (recorder.runCall call fs).fs

/-- A request with a line is turned into a record that is written. -/
theorem exists_written (recorder : TraceRecorder) {request : Request} {line : List UInt8}
    (h : recorder.lineOf request = .ok line) :
    ∃ written : WrittenRecord recorder, written.request = request ∧ written.line = line := by
  rw [lineOf] at h
  cases hrecord : recorder.recordOf request with
  | error e =>
    rw [hrecord] at h
    cases h
  | ok record =>
    rw [hrecord] at h
    exact ⟨⟨request, record, line, hrecord, h⟩, rfl, rfl⟩

/-- **A call is atomic**, in a file system it is made in: what it leaves, what
it passes through, and what it concerns. -/
structure AtomicCall (recorder : TraceRecorder) (call : RecordCall) (fs : FileSystem PathBuf) :
    Prop where
  /-- A call that returns `Ok` has appended the line of its record. -/
  ok : (recorder.runCall call fs).result = .ok () →
    ∃ written : WrittenRecord recorder, written.request = call.request ∧
      (recorder.runCall call fs).fs recorder.path
        = some ((fs recorder.path).getD [] ++ written.line)
  /-- A call that returns an error leaves the target as it was. -/
  error : ∀ e, (recorder.runCall call fs).result = .error e →
    (recorder.runCall call fs).fs recorder.path = fs recorder.path
  /-- There is nothing in between. -/
  moments : ∀ event ∈ (recorder.runCall call fs).events,
    event.after recorder.path = fs recorder.path ∨
      event.after recorder.path = (recorder.runCall call fs).fs recorder.path
  /-- Only the target and the temporary file are ever changed. -/
  other : ∀ moment ∈ (recorder.runCall call fs).fs ::
      (recorder.runCall call fs).events.map FileEvent.after,
    ∀ other, other ≠ recorder.path → other ≠ recorder.temporary call.uuid →
      moment other = fs other
  /-- A fresh temporary file is gone, unless it could not be removed. -/
  removed : fs (recorder.temporary call.uuid) = none →
    (recorder.runCall call fs).fs (recorder.temporary call.uuid) = none ∨
      RecordAppend.RemovalFailed (recorder.temporary call.uuid) (recorder.runCall call fs).events

/-- Every call is atomic. -/
theorem atomicCall (recorder : TraceRecorder) (call : RecordCall) (fs : FileSystem PathBuf) :
    recorder.AtomicCall call fs := by
  have hcall := recorder.call_eq call.request call.uuid
  cases hline : recorder.lineOf call.request with
  | error e =>
    -- the request is refused before any operation
    have hrun : recorder.runCall call fs = ⟨.error e, [], fs⟩ := by
      unfold runCall
      rw [hcall, hline]
      rfl
    constructor
    · rw [hrun]
      exact fun h => nomatch h
    · rw [hrun]
      exact fun _ _ => rfl
    · rw [hrun]
      exact fun event hevent => absurd hevent List.not_mem_nil
    · rw [hrun]
      intro moment hmoment other _ _
      rw [List.map_nil, List.mem_singleton] at hmoment
      rw [hmoment]
    · rw [hrun]
      exact fun h => Or.inl h
  | ok line =>
    have hrun : recorder.runCall call fs
        = (replaceWithAppendedRecord recorder.path line call.uuid).run call.faults fs := by
      unfold runCall
      rw [hcall, hline]
    have halone := RecordAppend.run_alone ⟨recorder.path, call.uuid, line⟩ call.faults fs
    rw [← hrun] at halone
    refine ⟨fun hok => ?_, fun e he => ?_, halone.moments, halone.other, fun hfresh => ?_⟩
    · obtain ⟨written, hrequest, hwritten⟩ := recorder.exists_written hline
      refine ⟨written, hrequest, ?_⟩
      rw [hwritten]
      exact halone.appended (congrArg Stage.finished hok)
    · refine halone.unchanged (fun h => ?_)
      rw [he] at h
      cases h
    · rcases halone.removed _ rfl with h | h | h
      · exact Or.inl (h.trans hfresh)
      · exact Or.inl h
      · exact Or.inr h

/-- The target holds the lines of the calls that returned `Ok`. The induction
is on the calls, over the file system the first of them leaves. -/
theorem exists_written_stateAfter (recorder : TraceRecorder) (calls : List RecordCall)
    (fs : FileSystem PathBuf) :
    ∃ written : List (WrittenRecord recorder),
      written.map WrittenRecord.request
        = (recorder.returnedOk calls fs).map RecordCall.request ∧
      recorder.stateAfter calls fs recorder.path
        = contentAfter (fs recorder.path) (written.map WrittenRecord.line) := by
  induction calls generalizing fs with
  | nil => exact ⟨[], rfl, rfl⟩
  | cons call calls ih =>
    obtain ⟨written, hrequests, htarget⟩ := ih (recorder.runCall call fs).fs
    have hatomic := recorder.atomicCall call fs
    unfold returnedOk
    cases hresult : (recorder.runCall call fs).result with
    | error e =>
      refine ⟨written, hrequests, ?_⟩
      rw [← hatomic.error e hresult]
      exact htarget
    | ok u =>
      obtain ⟨first, hrequest, hfirst⟩ := hatomic.ok hresult
      refine ⟨first :: written, ?_, ?_⟩
      · rw [List.map_cons, List.map_cons, hrequest, hrequests]
      · rw [List.map_cons, ← List.singleton_append (x := first.line), contentAfter_append,
          contentAfter_singleton, ← hfirst]
        exact htarget

/-- **Every state of the target is that after some of the calls**: what a call
passes through is what it has found or what it leaves. -/
theorem exists_prefix_of_mem_targets (recorder : TraceRecorder) {calls : List RecordCall}
    {fs : FileSystem PathBuf} {target : Option (List UInt8)}
    (h : target ∈ recorder.targets calls fs) :
    ∃ before, before <+: calls ∧ target = recorder.stateAfter before fs recorder.path := by
  induction calls generalizing fs with
  | nil => exact ⟨[], List.prefix_refl _, List.mem_singleton.mp h⟩
  | cons call calls ih =>
    rw [targets, List.cons_append, List.mem_cons, List.mem_append, List.mem_map] at h
    rcases h with h | ⟨event, hevent, h⟩ | h
    · exact ⟨[], List.nil_prefix, h⟩
    · rcases (recorder.atomicCall call fs).moments event hevent with hmoment | hmoment
      · exact ⟨[], List.nil_prefix, h.symm.trans hmoment⟩
      · exact ⟨[call], List.cons_prefix_cons.mpr ⟨rfl, List.nil_prefix⟩, h.symm.trans hmoment⟩
    · obtain ⟨before, hbefore, htarget⟩ := ih h
      exact ⟨call :: before, List.cons_prefix_cons.mpr ⟨rfl, hbefore⟩, htarget⟩

/-- **Appends are atomic over whole runs.** Whatever the calls are asked to
record and whatever faults their operations meet, each call appends one line
or changes nothing; the target holds its initial content followed by the lines
of the calls that returned `Ok`, in their order; and it holds nothing else in
between. -/
theorem append_atomicity (recorder : TraceRecorder) (calls : List RecordCall)
    (fs : FileSystem PathBuf) :
    (∀ before call after, calls = before ++ call :: after →
      recorder.AtomicCall call (recorder.stateAfter before fs)) ∧
    (∃ written : List (WrittenRecord recorder),
      written.map WrittenRecord.request
        = (recorder.returnedOk calls fs).map RecordCall.request ∧
      recorder.stateAfter calls fs recorder.path
        = contentAfter (fs recorder.path) (written.map WrittenRecord.line)) ∧
    ∀ target ∈ recorder.targets calls fs, ∃ before, before <+: calls ∧
      target = recorder.stateAfter before fs recorder.path :=
  ⟨fun before call _ _ => recorder.atomicCall call (recorder.stateAfter before fs),
    recorder.exists_written_stateAfter calls fs,
    fun _ => recorder.exists_prefix_of_mem_targets⟩

end TraceRecorder

end
