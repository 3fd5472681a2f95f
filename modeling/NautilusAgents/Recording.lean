import NautilusAgents.FileProgram
import NautilusAgents.Observation

/-!
# Recording

The recorder of agent traces and observations: which record a request is
turned into, under the capture mode and the redactor, and the program that
appends its line to the target.

The append never writes to the target. It reads the target, writes what it has
read and the new line to a temporary file of its own, and renames that over
the target. What a call can do at each point is said once, by
`RecordAppend.step_cases`, over the stages of the append; whatever is proved of
calls, alone or among others, starts from there.
-/

/-! ## Paths -/

/-- A name in the file system: a text, or bytes that are no UTF-8. -/
inductive OsStr where
  | text (s : String)
  | bytes (b : List UInt8)
  deriving DecidableEq

/-- A component of a path. -/
inductive Component where
  | root
  | current
  | parent
  | name (n : OsStr)
  deriving DecidableEq

/-- A path. -/
structure PathBuf where
  /-- Its components, the root first. -/
  components : List Component
  deriving DecidableEq

namespace PathBuf

/-- `Path::file_name`: the last component, where it is a name. -/
def fileName (path : PathBuf) : Option OsStr :=
  match path.components.getLast? with
  | some (.name n) => some n
  | _ => none

/-- `Path::parent`: the path without its last component, which is not the
root. -/
def parent (path : PathBuf) : Option PathBuf :=
  match path.components.getLast? with
  | none => none
  | some .root => none
  | some _ => some ⟨path.components.dropLast⟩

/-- `OsStr::to_str`. -/
def toStr : OsStr → Option String
  | .text s => some s
  | .bytes _ => none

/-- The name of the file, where it is UTF-8. -/
def utf8FileName (path : PathBuf) : Option String := path.fileName.bind toStr

/-- The directory of the file: the parent, and the current directory for a
path without one. -/
def directory (path : PathBuf) : PathBuf :=
  (path.parent.filter (fun parent => parent.components ≠ [])).getD ⟨[.current]⟩

/-- `Path::join` with a file name. -/
def join (path : PathBuf) (fileName : String) : PathBuf :=
  ⟨path.components ++ [.name (.text fileName)]⟩

/-- The name of the temporary file of a call. -/
def temporaryName [UuidCrate] (fileName : String) (uuid : Vector UInt8 16) : String :=
  "." ++ fileName ++ "." ++ UuidCrate.hyphenated uuid ++ ".tmp"

/-- **The temporary file of a call**, beside the target. -/
def temporary [UuidCrate] (path : PathBuf) (fileName : String) (uuid : Vector UInt8 16) :
    PathBuf :=
  path.directory.join (temporaryName fileName uuid)

end PathBuf

/-! ## Configuration and errors -/

/-- Selects how observation data is captured. -/
inductive ObservationCapture where
  | referenceOnly
  | redacted
  | full
  deriving DecidableEq

/-- Configures observation capture; only the reference by default. -/
structure RecorderConfig where
  /-- What is recorded of an observation. -/
  observationCapture : ObservationCapture := .referenceOnly
  deriving DecidableEq

/-- Reports an agent-side recording failure. -/
inductive RecordingError where
  | io (kind : ErrorKind) (message : String)
  | serialization (message : String)
  | redactorRequired
  | redaction (message : String)
  | invalidRedaction (message : String)
  | forbiddenRetention (capture : ObservationCapture) (retention : RetentionClass)
  deriving DecidableEq

/-- The recording error of an I/O error. -/
def ioError (e : IoError) : RecordingError := .io e.kind e.message

/-- A program of the recorder. -/
abbrev RecordProgram := FileProgram PathBuf (Except RecordingError Unit)

/-! ## Appending -/

section Append

variable [UuidCrate]

/-- An operation of the closure, and the rest of it: `?` returns the error. -/
def andThen (op : FileOp PathBuf) (rest : RecordProgram) :
    RecordProgram :=
  .perform op (fun
    | .ok _ => rest
    | .error e => .done (.error (ioError e)))

/-- **The closure**: write the temporary file and rename it over the
target. -/
def writeAndRename (path temporary : PathBuf) (existing line : List UInt8) :
    RecordProgram :=
  andThen (.createNew temporary) <|
  andThen (.writeAll temporary existing) <|
  andThen (.writeAll temporary line) <|
  andThen (.syncAll temporary) <|
  andThen (.rename temporary path) <|
  .done (.ok ())

/-- What the target holds, by the outcome of reading it: nothing where it is
not there. -/
def existingContent : Except IoError (List UInt8) → Except RecordingError (List UInt8)
  | .ok bytes => .ok bytes
  | .error e => if e.kind = .notFound then .ok [] else .error (ioError e)

/-- **Replace the target by itself with a line appended.** The fresh UUID
names the temporary file, which is removed again when the closure fails,
whether or not that succeeds. -/
def replaceWithAppendedRecord (path : PathBuf) (line : List UInt8) (uuid : Vector UInt8 16) :
    RecordProgram :=
  .perform (.read path) (fun read =>
    match existingContent read with
    | .error e => .done (.error e)
    | .ok existing =>
      match path.utf8FileName with
      | none => .done (.error (.io .invalidInput "recording path has no UTF-8 file name"))
      | some fileName =>
        (writeAndRename path (path.temporary fileName uuid) existing line).bind (fun
          | .ok () => .done (.ok ())
          | .error e =>
            .perform (.removeFile (path.temporary fileName uuid)) (fun _ => .done (.error e))))

end Append

/-! ## Records -/

section Records

variable [UuidCrate]

/-- A record of the JSONL target. -/
inductive JsonlRecord where
  | trace (trace : AgentTrace)
  | observationReference (reference : ObservationRef)
  | observation (reference : ObservationRef) (observation : Observation)
  deriving DecidableEq

/-- **A record carries its kind among its members.** -/
instance : Serialize JsonlRecord where
  serialize
    | .trace trace => .obj [("kind", .str "trace"), ("trace", serialize trace)]
    | .observationReference reference =>
      .obj [("kind", .str "observation_reference"), ("reference", serialize reference)]
    | .observation reference observation =>
      .obj [("kind", .str "observation"), ("reference", serialize reference),
        ("observation", serialize observation)]

/-- Records agent traces and selected observation data. -/
structure TraceRecorder where
  /-- The target. -/
  path : PathBuf
  /-- How observations are captured. -/
  config : RecorderConfig
  /-- What redacts an observation, where one is set. -/
  redactor : Option (Observation → Except String Observation)

namespace TraceRecorder

variable [Crates]

/-- Serialize a record and append its line. -/
def record (recorder : TraceRecorder) (record : JsonlRecord) (uuid : Vector UInt8 16) :
    RecordProgram :=
  match Crates.toVec (serialize record) with
  | .error message => .done (.error (.serialization message))
  | .ok line => replaceWithAppendedRecord recorder.path (line ++ [0x0a]) uuid

/-- **Append one agent trace record.** -/
def recordTrace (recorder : TraceRecorder) (trace : AgentTrace) (uuid : Vector UInt8 16) :
    RecordProgram :=
  recorder.record (.trace trace) uuid

/-- **Append one observation record** in the configured capture mode. -/
def recordObservation (recorder : TraceRecorder) (observation : Observation)
    (uuid : Vector UInt8 16) : RecordProgram :=
  match recorder.config.observationCapture with
  | .referenceOnly => recorder.record (.observationReference observation.reference) uuid
  | .redacted =>
    match recorder.redactor with
    | none => .done (.error .redactorRequired)
    | some redact =>
      match redact observation with
      | .error message => .done (.error (.redaction message))
      | .ok redacted =>
        match redacted.validate with
        | .error e => .done (.error (.invalidRedaction e.display))
        | .ok () =>
          if redacted.retention = .restricted then
            .done (.error (.forbiddenRetention .redacted redacted.retention))
          else recorder.record (.observation observation.reference redacted) uuid
  | .full =>
    if observation.retention = .restricted then
      .done (.error (.forbiddenRetention .full observation.retention))
    else recorder.record (.observation observation.reference observation) uuid

end TraceRecorder

/-- What a caller asks to be recorded. -/
inductive Request where
  | trace (trace : AgentTrace)
  | observation (observation : Observation)

namespace TraceRecorder

variable [Crates]

/-- The call a request is made by, with the UUID it draws. -/
def call (recorder : TraceRecorder) (request : Request) (uuid : Vector UInt8 16) :
    RecordProgram :=
  match request with
  | .trace trace => recorder.recordTrace trace uuid
  | .observation observation => recorder.recordObservation observation uuid

/-! ## The record of a request -/

/-- **The record a request is turned into**, or the refusal. -/
def recordOf (recorder : TraceRecorder) : Request → Except RecordingError JsonlRecord
  | .trace trace => .ok (.trace trace)
  | .observation observation =>
    match recorder.config.observationCapture with
    | .referenceOnly => .ok (.observationReference observation.reference)
    | .redacted =>
      match recorder.redactor with
      | none => .error .redactorRequired
      | some redact =>
        match redact observation with
        | .error message => .error (.redaction message)
        | .ok redacted =>
          match redacted.validate with
          | .error e => .error (.invalidRedaction e.display)
          | .ok () =>
            if redacted.retention = .restricted then
              .error (.forbiddenRetention .redacted redacted.retention)
            else .ok (.observation observation.reference redacted)
    | .full =>
      if observation.retention = .restricted then
        .error (.forbiddenRetention .full observation.retention)
      else .ok (.observation observation.reference observation)

/-- The line of a record. -/
def lineOfRecord (record : JsonlRecord) : Except RecordingError (List UInt8) :=
  match Crates.toVec (serialize record) with
  | .error message => .error (.serialization message)
  | .ok line => .ok (line ++ [0x0a])

/-- The line of a request. -/
def lineOf (recorder : TraceRecorder) (request : Request) : Except RecordingError (List UInt8) :=
  (recorder.recordOf request).bind lineOfRecord

theorem record_eq (recorder : TraceRecorder) (record : JsonlRecord) (uuid : Vector UInt8 16) :
    recorder.record record uuid = match lineOfRecord record with
      | .error e => .done (.error e)
      | .ok line => replaceWithAppendedRecord recorder.path line uuid := by
  unfold TraceRecorder.record lineOfRecord
  cases Crates.toVec (serialize record) <;> rfl

/-- **A call refuses its request or appends its line**, and what it depends on
is the record of the request. -/
theorem call_eq (recorder : TraceRecorder) (request : Request) (uuid : Vector UInt8 16) :
    recorder.call request uuid = match recorder.lineOf request with
      | .error e => .done (.error e)
      | .ok line => replaceWithAppendedRecord recorder.path line uuid := by
  cases request with
  | trace trace => exact recorder.record_eq _ uuid
  | observation observation =>
    show recorder.recordObservation observation uuid = _
    unfold recordObservation lineOf recordOf
    cases recorder.config.observationCapture with
    | referenceOnly => exact recorder.record_eq _ uuid
    | redacted =>
      cases recorder.redactor with
      | none => rfl
      | some redact =>
        show (match redact observation with | .error _ => _ | .ok _ => _) = _
        cases hr : redact observation with
        | error message => simp only [hr]; rfl
        | ok redacted =>
          simp only [hr]
          cases redacted.validate with
          | error e => rfl
          | ok u =>
            by_cases hret : redacted.retention = .restricted
            · simp only [if_pos hret]
              rfl
            · simp only [if_neg hret]
              exact recorder.record_eq _ uuid
    | full =>
      by_cases hret : observation.retention = .restricted
      · simp only [if_pos hret]
        rfl
      · simp only [if_neg hret]
        exact recorder.record_eq _ uuid

end TraceRecorder

end Records
