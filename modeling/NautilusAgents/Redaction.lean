import NautilusAgents.AdvisoryViews
import NautilusAgents.BlindRuns
import NautilusAgents.Jsonl

/-!
# What a recording tells of an observation

A recorder captures an observation whole, redacted or by its reference, and the
reference is in the record in every mode. It carries the digest of the whole
observation, so that two observations never leave the same recording. The
question is whether anything else of them shows: in the other bytes of the
target, or in which of the calls return `Ok`.

Nothing does. The append copies bytes and does not look at them
(`FileProgram.Alike`), so that two runs through the same faults return the same
results, whatever they write; and the records of two requests are the same but
for the reference as soon as what the mode captures of them is
(`TraceRecorder.reference_alone`).

For a redactor this leaves one thing to show: that its output does not depend on
what it is to hide. The redactor of the recording tests takes the positions out
of an observation, says so among the omissions, and computes the digest again.
Its output is valid, can always be recorded, and leaves no proposal without a
finding (`SafeRedactor.redacts_positions`).
-/

section Runs

variable [UuidCrate]

/-- **Records that are the same but for the reference.** -/
inductive JsonlRecord.SameContent : JsonlRecord → JsonlRecord → Prop where
  | trace (t : AgentTrace) : JsonlRecord.SameContent (.trace t) (.trace t)
  | observationReference (r r' : ObservationRef) :
    JsonlRecord.SameContent (.observationReference r) (.observationReference r')
  | observation (r r' : ObservationRef) (o : Observation) :
    JsonlRecord.SameContent (.observation r o) (.observation r' o)

omit [UuidCrate] in
/-- Operations that differ in bytes only, and programs behind them that do. -/
theorem alike_andThen {op op' : FileOp PathBuf} {rest rest' : RecordProgram} (hop : op.Alike op')
    (hrest : rest.Alike rest') : (andThen op rest).Alike (andThen op' rest') := by
  refine .perform hop (fun r r' houtcome => ?_)
  cases houtcome with
  | ok bytes bytes' => exact hrest
  | error e => exact .done _

omit [UuidCrate] in
/-- What was read is missing in both runs, or in neither. -/
theorem existingContent_cases {r r' : Except IoError (List UInt8)} (h : SameOutcome r r') :
    (∃ e, existingContent r = .error e ∧ existingContent r' = .error e) ∨
      ∃ existing existing', existingContent r = .ok existing ∧
        existingContent r' = .ok existing' := by
  cases h with
  | ok bytes bytes' => exact .inr ⟨bytes, bytes', rfl, rfl⟩
  | error e =>
    unfold existingContent
    by_cases hkind : e.kind = .notFound
    · exact .inr ⟨[], [], if_pos hkind, if_pos hkind⟩
    · exact .inl ⟨ioError e, if_neg hkind, if_neg hkind⟩

/-- **An append does not look at what it appends.** -/
theorem alike_replaceWithAppendedRecord (path : PathBuf) (line line' : List UInt8)
    (uuid : Vector UInt8 16) :
    (replaceWithAppendedRecord path line uuid).Alike
      (replaceWithAppendedRecord path line' uuid) := by
  unfold replaceWithAppendedRecord
  refine .perform (.read path) (fun r r' houtcome => ?_)
  rcases existingContent_cases houtcome with ⟨e, hr, hr'⟩ | ⟨existing, existing', hr, hr'⟩
  · simp only [hr, hr']
    exact .done _
  · simp only [hr, hr']
    cases path.utf8FileName with
    | none => exact .done _
    | some fileName =>
      refine FileProgram.Alike.bind ?_ (fun result => ?_)
      · exact alike_andThen (.createNew _) (alike_andThen (.writeAll _ _ _) (alike_andThen
          (.writeAll _ _ _) (alike_andThen (.syncAll _) (alike_andThen (.rename _ _) (.done _)))))
      · cases result with
        | ok u => exact .done _
        | error e => exact .perform (.removeFile _) (fun _ _ _ => .done _)

namespace TraceRecorder

/-- **Requests of which the mode captures the same**, the reference apart. -/
def SameContent (recorder : TraceRecorder) : Request → Request → Prop
  | .trace t, .trace t' => t = t'
  | .observation o, .observation o' =>
    match recorder.config.observationCapture with
    | .referenceOnly => True
    | .redacted => ∀ redact, recorder.redactor = some redact → redact o = redact o'
    | .full => o = o'
  | _, _ => False

/-- Calls that draw one UUID and meet the same faults, and of whose requests the
mode captures the same. -/
structure AlikeCalls (recorder : TraceRecorder) (call call' : RecordCall) : Prop where
  /-- The mode captures the same of both requests. -/
  content : recorder.SameContent call.request call'.request
  /-- They draw the same UUID. -/
  uuid : call.uuid = call'.uuid
  /-- They meet the same faults. -/
  faults : call.faults = call'.faults

variable [Crates]

/-- Such requests are refused alike, or turned into records that are the same
but for the reference. -/
theorem recordOf_cases (recorder : TraceRecorder) {request request' : Request}
    (h : recorder.SameContent request request') :
    (∃ e, recorder.recordOf request = .error e ∧ recorder.recordOf request' = .error e) ∨
      ∃ record record', recorder.recordOf request = .ok record ∧
        recorder.recordOf request' = .ok record' ∧ record.SameContent record' := by
  cases request with
  | trace t =>
    cases request' with
    | trace t' =>
      obtain rfl : t = t' := h
      exact .inr ⟨_, _, rfl, rfl, .trace t⟩
    | observation o' => cases h
  | observation o =>
    cases request' with
    | trace t' => cases h
    | observation o' =>
      unfold SameContent at h
      unfold recordOf
      cases hcapture : recorder.config.observationCapture with
      | referenceOnly => exact .inr ⟨_, _, rfl, rfl, .observationReference _ _⟩
      | redacted =>
        simp only [hcapture] at h
        cases hredactor : recorder.redactor with
        | none => exact .inl ⟨_, rfl, rfl⟩
        | some redact =>
          simp only [h redact hredactor]
          cases redact o' with
          | error message => exact .inl ⟨_, rfl, rfl⟩
          | ok redacted =>
            simp only
            cases redacted.validate with
            | error e => exact .inl ⟨_, rfl, rfl⟩
            | ok u =>
              by_cases hretention : redacted.retention = .restricted
              · exact .inl ⟨_, if_pos hretention, if_pos hretention⟩
              · exact .inr ⟨_, _, if_neg hretention, if_neg hretention, .observation _ _ redacted⟩
      | full =>
        simp only [hcapture] at h
        subst h
        by_cases hretention : o.retention = .restricted
        · exact .inl ⟨_, if_pos hretention, if_pos hretention⟩
        · exact .inr ⟨_, _, if_neg hretention, if_neg hretention, .observation _ _ o⟩

/-- **Alike calls are alike programs.** -/
theorem AlikeCalls.alike (hwrite : Crates.CompactWriter) {recorder : TraceRecorder}
    {call call' : RecordCall} (h : recorder.AlikeCalls call call') :
    (recorder.call call.request call.uuid).Alike (recorder.call call'.request call'.uuid) := by
  rw [call_eq, call_eq, ← h.uuid]
  unfold lineOf
  rcases recorder.recordOf_cases h.content with ⟨e, he, he'⟩ | ⟨record, record', hr, hr', -⟩
  · rw [he, he']
    exact .done _
  · rw [hr, hr']
    simp only [Except.bind, lineOfRecord_eq hwrite]
    exact alike_replaceWithAppendedRecord _ _ _ _

theorem AlikeCalls.runCall (hwrite : Crates.CompactWriter) {recorder : TraceRecorder}
    {call call' : RecordCall} (h : recorder.AlikeCalls call call') {fs fs' : FileSystem PathBuf}
    (hfs : SameFiles fs fs') :
    (recorder.runCall call fs).result = (recorder.runCall call' fs').result ∧
      SameFiles (recorder.runCall call fs).fs (recorder.runCall call' fs').fs := by
  unfold TraceRecorder.runCall
  rw [← h.faults]
  exact (h.alike hwrite).run hfs call.faults

/-- **Alike calls run alike**, one after another: they return the same
results, and those that return `Ok` are alike. -/
theorem runs_alike (hwrite : Crates.CompactWriter) (recorder : TraceRecorder)
    {calls calls' : List RecordCall} (h : List.Forall₂ recorder.AlikeCalls calls calls')
    {fs fs' : FileSystem PathBuf} (hfs : SameFiles fs fs') :
    (recorder.runs calls fs).map FileRun.result = (recorder.runs calls' fs').map FileRun.result ∧
      List.Forall₂ recorder.AlikeCalls (recorder.returnedOk calls fs)
        (recorder.returnedOk calls' fs') := by
  induction h generalizing fs fs' with
  | nil => exact ⟨rfl, .nil⟩
  | cons hcall hcalls ih =>
    obtain ⟨hresult, hafter⟩ := hcall.runCall hwrite hfs
    obtain ⟨hresults, hok⟩ := ih hafter
    constructor
    · exact congrArg₂ List.cons hresult hresults
    · unfold returnedOk
      rw [← hresult]
      rcases (recorder.runCall _ fs).result with e | u
      · exact hok
      · exact .cons hcall hok

/-- **Only the reference tells.** Two lists of calls of whose requests the mode
captures the same, through the same faults and on file systems with files at the
same paths, whatever those hold: the calls return the same results, each target
has lines added to it, and line by line these are the texts of records that are
the same but for the reference. -/
theorem reference_alone (hwrite : Crates.CompactWriter) (recorder : TraceRecorder)
    {calls calls' : List RecordCall} (h : List.Forall₂ recorder.AlikeCalls calls calls')
    {fs fs' : FileSystem PathBuf} (hfs : SameFiles fs fs') :
    (recorder.runs calls fs).map FileRun.result = (recorder.runs calls' fs').map FileRun.result ∧
    ∃ records records' : List JsonlRecord,
      AddsLines ((fs recorder.path).getD []) ((recorder.stateAfter calls fs recorder.path).getD [])
        (records.map (fun record => (serialize record).encode)) ∧
      AddsLines ((fs' recorder.path).getD [])
        ((recorder.stateAfter calls' fs' recorder.path).getD [])
        (records'.map (fun record => (serialize record).encode)) ∧
      List.Forall₂ JsonlRecord.SameContent records records' := by
  obtain ⟨hresults, hok⟩ := recorder.runs_alike hwrite h hfs
  obtain ⟨records, hrecords, hlines⟩ := recorder.exists_lines hwrite calls fs
  obtain ⟨records', hrecords', hlines'⟩ := recorder.exists_lines hwrite calls' fs'
  refine ⟨hresults, records, records', hlines, hlines', ?_⟩
  have hsame : List.Forall₂ (fun x x' => ∀ record record' : JsonlRecord, x = .ok record →
      x' = .ok record' → record.SameContent record')
      ((recorder.returnedOk calls fs).map (fun call => recorder.recordOf call.request))
      ((recorder.returnedOk calls' fs').map (fun call => recorder.recordOf call.request)) := by
    rw [List.forall₂_map_left_iff, List.forall₂_map_right_iff]
    refine hok.imp (fun call call' hcall record record' hrecord hrecord' => ?_)
    rcases recorder.recordOf_cases hcall.content with ⟨e, he, -⟩ | ⟨x, x', hx, hx', hsame⟩
    · rw [he] at hrecord
      cases hrecord
    · obtain rfl := Except.ok.inj (hx.symm.trans hrecord)
      obtain rfl := Except.ok.inj (hx'.symm.trans hrecord')
      exact hsame
  rw [hrecords, hrecords', List.forall₂_map_left_iff, List.forall₂_map_right_iff] at hsame
  exact hsame.imp (fun record record' h => h record record' rfl rfl)

end TraceRecorder

end Runs

/-! ## A redactor of positions -/

section Redactor

variable [UuidCrate] [Crates]

/-- An observation without its positions, which says so. -/
def SafeRedactor.withoutPositions (observation : Observation) : Observation :=
  { observation with
    payload := .live ⟨[], observation.live.instruments⟩
    omissions := observation.omissions ++
      [⟨⟨"/payload/live/positions", checkFieldPath_positions⟩, .redacted⟩]
    retention := .derived }

/-- **The redactor of the recording tests**: it takes the positions out and
computes the digest again. Where there is no digest the test panics, and the
recorder gets no observation either way. -/
def SafeRedactor.redact (observation : Observation) : Except String Observation :=
  match (SafeRedactor.withoutPositions observation).refreshDigest with
  | (.ok (), redacted) => .ok redacted
  | (.error e, _) => .error e.display

namespace SafeRedactor

theorem redact_eq (hcanon : Crates.Rfc8785) (o : Observation) :
    redact o = .ok (withoutPositions o).refreshDigest.snd := by
  unfold redact Observation.refreshDigest
  rw [Observation.computedDigest_eq hcanon]

/-- Two observations agree in what is kept: all but the positions, the retention
class and the digest. -/
structure AgreeInKept (o o' : Observation) : Prop where
  /-- They have the same version. -/
  version : o.version = o'.version
  /-- The same identity. -/
  id : o.id = o'.id
  /-- The same time of creation. -/
  createdAt : o.createdAt = o'.createdAt
  /-- The same expiry. -/
  expiresAt : o.expiresAt = o'.expiresAt
  /-- The same grant. -/
  grant : o.grant = o'.grant
  /-- The same provenance. -/
  provenance : o.provenance = o'.provenance
  /-- The same omissions. -/
  omissions : o.omissions = o'.omissions
  /-- The same instruments. -/
  instruments : o.live.instruments = o'.live.instruments

/-- **Observations that agree in what is kept** come out the same. -/
theorem redact_congr (hcanon : Crates.Rfc8785) {o o' : Observation} (h : AgreeInKept o o') :
    redact o = redact o' := by
  have hdocument : (withoutPositions o).digestDocument = (withoutPositions o').digestDocument := by
    unfold withoutPositions Observation.digestDocument
    simp only [h.version, h.id, h.createdAt, h.expiresAt, h.grant, h.provenance, h.omissions,
      h.instruments]
  rw [redact_eq hcanon, redact_eq hcanon]
  refine congrArg Except.ok ((Observation.eq_iff _ _).mpr ⟨?_, ?_⟩)
  · rw [Observation.digestDocument_refreshDigest, Observation.digestDocument_refreshDigest]
    exact hdocument
  · unfold Observation.refreshDigest
    rw [Observation.computedDigest_eq hcanon, Observation.computedDigest_eq hcanon, hdocument]

/-- A recorder captures the same of such observations. -/
theorem sameContent (hcanon : Crates.Rfc8785) {recorder : TraceRecorder}
    (hcapture : recorder.config.observationCapture = .redacted)
    (hredactor : recorder.redactor = some redact) {o o' : Observation} (h : AgreeInKept o o') :
    recorder.SameContent (.observation o) (.observation o') := by
  unfold TraceRecorder.SameContent
  simp only [hcapture]
  intro redact' hredact'
  obtain rfl := Option.some.inj (hredactor.symm.trans hredact')
  exact redact_congr hcanon h

omit [Crates] in
/-- Without positions, the structural conditions on them hold. -/
theorem wellStructured_withoutPositions {o : Observation} (h : o.WellStructured) :
    (withoutPositions o).WellStructured where
  version := h.version
  expiry := h.expiry
  grantExpiry := h.grantExpiry
  positionCapability := .inl rfl
  instrumentCapability := h.instrumentCapability
  positionScope _ hmem := absurd hmem List.not_mem_nil
  positionsDistinct := List.nodup_nil
  positionUpdates _ hmem := absurd hmem List.not_mem_nil
  instrumentScope := h.instrumentScope
  instrumentsDistinct := h.instrumentsDistinct

open AdvisoryValidator in
/-- **Positions are redacted.** The redactor turns a valid observation into a
valid one without positions, which a recorder of redacted observations always
turns into a record. The output depends on what is kept only, so that such a
recorder captures the same of observations that agree in it. And on the output,
the checks of any proposal find its position missing and the omission in the
way. -/
theorem redacts_positions (hcanon : Crates.Rfc8785) (o : Observation)
    (hvalid : o.validate = .ok ()) :
    ∃ redacted, redact o = .ok redacted ∧ redacted.validate = .ok () ∧
      redacted.live.positions = [] ∧
      (∀ recorder : TraceRecorder, recorder.config.observationCapture = .redacted →
        recorder.redactor = some redact →
        recorder.recordOf (.observation o) = .ok (.observation o.reference redacted) ∧
          ∀ o', AgreeInKept o o' →
            recorder.SameContent (.observation o) (.observation o')) ∧
      (∀ o', AgreeInKept o o' → redact o' = .ok redacted) ∧
      ∀ p now, .positionMissing ∈ (findingsOf redacted p now).map AdvisoryFinding.code ∧
        .requiredFieldOmitted ∈ (findingsOf redacted p now).map AdvisoryFinding.code := by
  have hredact := redact_eq hcanon o
  have hstructured := wellStructured_withoutPositions (o.validate_eq_ok_iff.mp hvalid).1
  have hredacted : (withoutPositions o).refreshDigest.snd.validate = .ok () :=
    (Observation.validate_refreshDigest_eq_ok_iff hcanon _).mpr hstructured
  obtain ⟨digest, hrefresh⟩ := (withoutPositions o).refreshDigest_snd
  rw [hrefresh] at hredact hredacted
  refine ⟨_, hredact, hredacted, rfl, fun recorder hcapture hredactor =>
      ⟨?_, fun o' => sameContent hcanon hcapture hredactor⟩,
    fun o' h => ?_, fun p now => ⟨?_, ?_⟩⟩
  · unfold TraceRecorder.recordOf
    simp only [hcapture, hredactor, hredact, hredacted]
    exact if_neg (fun h => nomatch h)
  · rw [← redact_congr hcanon h]
    exact hredact
  · rw [mem_codes_iff]
    exact .inr (.inr (.inr (.inr ((mem_codes_of_position_none rfl _).mpr rfl))))
  · rw [mem_codes_iff]
    refine .inr (.inr (.inr (.inl ⟨⟨⟨⟨"/payload/live/positions", checkFieldPath_positions⟩,
      .redacted⟩, ?_, ?_⟩, rfl⟩)))
    · exact List.mem_append_right _ (List.mem_singleton_self _)
    · decide

end SafeRedactor

end Redactor

namespace Fixture

/-- A recorder of redacted observations. -/
def redactingRecorder : TraceRecorder :=
  ⟨⟨[.name (.text "redacted.jsonl")]⟩, ⟨.redacted⟩, some SafeRedactor.redact⟩

/-- The call that records an observation without a fault. -/
def observationCall (o : Observation) : RecordCall :=
  ⟨.observation o, Vector.replicate 16 0, fun _ => none⟩

end Fixture

open Fixture in
/-- The observation of the fixtures, with its position behind an open line, and
without it in an empty file. -/
theorem TraceRecorder.reference_alone_fixture :
    (redactingRecorder.runs [observationCall observation]
        (fun path => if path = redactingRecorder.path then some [0x7b] else none)).map
        FileRun.result
      = (redactingRecorder.runs [observationCall
          (observation.withViews [] observation.live.instruments)]
          (fun path => if path = redactingRecorder.path then some [] else none)).map
        FileRun.result := by
  have hagree : SafeRedactor.AgreeInKept observation
      (observation.withViews [] observation.live.instruments) :=
    ⟨rfl, rfl, rfl, rfl, rfl, rfl, rfl, rfl⟩
  have hcontent := @SafeRedactor.sameContent _ _ rfc8785 redactingRecorder rfl rfl _ _ hagree
  have hcalls : List.Forall₂ redactingRecorder.AlikeCalls [observationCall observation]
      [observationCall (observation.withViews [] observation.live.instruments)] :=
    .cons ⟨hcontent, rfl, rfl⟩ .nil
  refine (reference_alone compactWriter redactingRecorder hcalls (fun path => ?_)).1
  split_ifs <;> rfl

open Fixture in
/-- The observation of the fixtures is redacted. -/
theorem SafeRedactor.redacts_positions_fixture :
    ∃ redacted, SafeRedactor.redact observation = .ok redacted ∧
      redacted.live.positions = [] ∧
      redactingRecorder.recordOf (.observation observation)
        = .ok (.observation observation.reference redacted) := by
  obtain ⟨redacted, hredact, -, hpositions, hrecorder, -⟩ :=
    redacts_positions rfc8785 observation validate_observation
  exact ⟨redacted, hredact, hpositions, (hrecorder redactingRecorder rfl rfl).1⟩
