import NautilusAgents.AppendCell
import NautilusAgents.Recording

/-!
# The stages of an append

An append goes through six operations, each of which may fail, and a failure
after the target has been read leads to the removal of the temporary file. A
`Stage` is a point of this course, with what the call has read so far, and
`RecordAppend.program` is what remains to be done there: at the stage `reading` it
is the whole of `replaceWithAppendedRecord`.

`RecordAppend.step_cases` says what one operation can do, at every stage and
whatever fault it meets, as one relation, `RecordAppend.Step`. Only two of its
cases concern the target at all: the read, which changes nothing, and the
rename, which puts the temporary file in its place.
-/

section

variable [UuidCrate]

namespace PathBuf

/-- Different UUIDs have different hyphenated forms, since the UUID is read
back. -/
theorem hyphenated_injective :
    Function.Injective (UuidCrate.hyphenated : Vector UInt8 16 → String) := by
  intro u v h
  have hu := UuidCrate.parseStr_hyphenated u
  rw [h, UuidCrate.parseStr_hyphenated v] at hu
  exact (Option.some.inj hu).symm

theorem temporaryName_injective (fileName : String) :
    Function.Injective (temporaryName fileName) := by
  intro u v h
  have hlist := congrArg String.toList h
  simp only [temporaryName, String.toList_append, List.append_left_inj,
    List.append_right_inj] at hlist
  exact hyphenated_injective (String.toList_injective hlist)

/-- The name of a temporary file is longer than that of its target. -/
theorem length_lt_length_temporaryName (fileName : String) (uuid : Vector UInt8 16) :
    fileName.length < (temporaryName fileName uuid).length := by
  simp only [temporaryName, String.length_append]
  rw [show ".".length = 1 from rfl]
  omega

theorem utf8FileName_temporary (path : PathBuf) (fileName : String) (uuid : Vector UInt8 16) :
    (path.temporary fileName uuid).utf8FileName = some (temporaryName fileName uuid) := by
  unfold utf8FileName PathBuf.fileName temporary join
  rw [List.getLast?_concat]
  rfl

end PathBuf

/-- **An append**: the target, the UUID the call draws, and its line. -/
structure RecordAppend where
  /-- The target. -/
  path : PathBuf
  /-- The UUID the call draws. -/
  uuid : Vector UInt8 16
  /-- The line to append. -/
  line : List UInt8

/-- **A stage of an append**, with the content that has been read. -/
inductive Stage where
  | reading
  | creating (existing : List UInt8)
  | copying (existing : List UInt8)
  | appending (existing : List UInt8)
  | syncing (existing : List UInt8)
  | replacing (existing : List UInt8)
  | cleaning (e : RecordingError)
  | finished (result : Except RecordingError Unit)

namespace RecordAppend

/-- The temporary file, named after the file of the target. Where that has no
UTF-8 name, the append ends before it comes to the temporary file. -/
def temporary (a : RecordAppend) : PathBuf :=
  a.path.temporary (a.path.utf8FileName.getD "") a.uuid

/-- **The temporary file is not the target.** -/
theorem temporary_ne_path (a : RecordAppend) : a.temporary ≠ a.path := by
  intro h
  have hname := congrArg PathBuf.utf8FileName h
  rw [temporary, PathBuf.utf8FileName_temporary] at hname
  rw [← hname, Option.getD_some] at hname
  have hlt := PathBuf.length_lt_length_temporaryName (a.path.utf8FileName.getD "") a.uuid
  have hlen := congrArg String.length (Option.some.inj hname)
  have hlt' := PathBuf.length_lt_length_temporaryName
    (PathBuf.temporaryName (a.path.utf8FileName.getD "") a.uuid) a.uuid
  omega

/-- **Appends to one target have temporary files of their own**, one for each
UUID. -/
theorem temporary_ne_temporary {a b : RecordAppend} (hpath : a.path = b.path)
    (huuid : a.uuid ≠ b.uuid) : a.temporary ≠ b.temporary := by
  intro h
  have hname := congrArg PathBuf.utf8FileName h
  rw [temporary, temporary, PathBuf.utf8FileName_temporary, PathBuf.utf8FileName_temporary,
    hpath] at hname
  exact huuid (PathBuf.temporaryName_injective _ (Option.some.inj hname))

/-! ## What remains to be done -/

/-- The closure, and the removal of the temporary file where it fails. -/
def cleanUp (a : RecordAppend) (closure : RecordProgram) : RecordProgram :=
  closure.bind (fun
    | .ok () => .done (.ok ())
    | .error e => .perform (.removeFile a.temporary) (fun _ => .done (.error e)))

/-- **What remains to be done at a stage.** -/
def program (a : RecordAppend) : Stage → RecordProgram
  | .reading => replaceWithAppendedRecord a.path a.line a.uuid
  | .creating existing => a.cleanUp (writeAndRename a.path a.temporary existing a.line)
  | .copying existing => a.cleanUp <|
    andThen (.writeAll a.temporary existing) <|
    andThen (.writeAll a.temporary a.line) <|
    andThen (.syncAll a.temporary) <|
    andThen (.rename a.temporary a.path) <|
    .done (.ok ())
  | .appending _ => a.cleanUp <|
    andThen (.writeAll a.temporary a.line) <|
    andThen (.syncAll a.temporary) <|
    andThen (.rename a.temporary a.path) <|
    .done (.ok ())
  | .syncing _ => a.cleanUp <|
    andThen (.syncAll a.temporary) <|
    andThen (.rename a.temporary a.path) <|
    .done (.ok ())
  | .replacing _ => a.cleanUp <|
    andThen (.rename a.temporary a.path) <|
    .done (.ok ())
  | .cleaning e => .perform (.removeFile a.temporary) (fun _ => .done (.error e))
  | .finished result => .done result

/-- The operation of the closure at a stage, and the stage after it. -/
def closureStep (a : RecordAppend) : Stage → Option (FileOp PathBuf × Stage)
  | .creating existing => some (.createNew a.temporary, .copying existing)
  | .copying existing => some (.writeAll a.temporary existing, .appending existing)
  | .appending existing => some (.writeAll a.temporary a.line, .syncing existing)
  | .syncing existing => some (.syncAll a.temporary, .replacing existing)
  | .replacing _ => some (.rename a.temporary a.path, .finished (.ok ()))
  | _ => none

theorem cleanUp_andThen (a : RecordAppend) (op : FileOp PathBuf) (rest : RecordProgram) :
    a.cleanUp (andThen op rest) = .perform op (fun
      | .ok _ => a.cleanUp rest
      | .error e => a.program (.cleaning (ioError e))) := by
  rw [cleanUp, andThen, FileProgram.bind]
  congr 1
  funext r
  cases r <;> rfl

/-- **In the closure**, an operation leads to the next stage or to the removal
of the temporary file. -/
theorem program_of_closureStep (a : RecordAppend) {stage next : Stage} {op : FileOp PathBuf}
    (h : a.closureStep stage = some (op, next)) :
    a.program stage = .perform op (fun
      | .ok _ => a.program next
      | .error e => a.program (.cleaning (ioError e))) := by
  cases stage with
  | reading => cases h
  | cleaning e => cases h
  | finished result => cases h
  | creating existing => cases h; exact a.cleanUp_andThen _ _
  | copying existing => cases h; exact a.cleanUp_andThen _ _
  | appending existing => cases h; exact a.cleanUp_andThen _ _
  | syncing existing => cases h; exact a.cleanUp_andThen _ _
  | replacing existing => cases h; exact a.cleanUp_andThen _ _

/-! ## What one operation can do -/

/-- **A step of an append**, from one stage to the next: the operation that is
performed at the first, its outcome, and the file system after it. -/
inductive Step (a : RecordAppend) (fs : FileSystem PathBuf) :
    Stage → FileEvent PathBuf → Stage → Prop where
  | read (r : Except IoError (List UInt8)) (fileName : String)
      (hname : a.path.utf8FileName = some fileName) :
      Step a fs .reading ⟨.read a.path, r, fs⟩ (.creating ((fs a.path).getD []))
  | refused (r : Except IoError (List UInt8)) (e : RecordingError) :
      Step a fs .reading ⟨.read a.path, r, fs⟩ (.finished (.error e))
  | created (existing : List UInt8) (h : fs a.temporary = none) :
      Step a fs (.creating existing)
        ⟨.createNew a.temporary, .ok [], Function.update fs a.temporary (some [])⟩
        (.copying existing)
  | copied (existing : List UInt8) :
      Step a fs (.copying existing)
        ⟨.writeAll a.temporary existing, .ok [], fs.append a.temporary existing⟩
        (.appending existing)
  | appended (existing : List UInt8) :
      Step a fs (.appending existing)
        ⟨.writeAll a.temporary a.line, .ok [], fs.append a.temporary a.line⟩
        (.syncing existing)
  | synced (existing : List UInt8) :
      Step a fs (.syncing existing) ⟨.syncAll a.temporary, .ok [], fs⟩ (.replacing existing)
  | renamed (existing content : List UInt8) (h : fs a.temporary = some content) :
      Step a fs (.replacing existing)
        ⟨.rename a.temporary a.path, .ok [],
          Function.update (Function.update fs a.temporary none) a.path (some content)⟩
        (.finished (.ok ()))
  | failed (stage next : Stage) (op : FileOp PathBuf) (e : IoError) (after : FileSystem PathBuf)
      (hop : a.closureStep stage = some (op, next))
      (hafter : ∀ other, other ≠ a.temporary → after other = fs other) :
      Step a fs stage ⟨op, .error e, after⟩ (.cleaning (ioError e))
  | cleaned (e : RecordingError) :
      Step a fs (.cleaning e)
        ⟨.removeFile a.temporary, .ok [], Function.update fs a.temporary none⟩
        (.finished (.error e))
  | notCleaned (e : RecordingError) (error : IoError) :
      Step a fs (.cleaning e) ⟨.removeFile a.temporary, .error error, fs⟩ (.finished (.error e))

/-- Reading ends in a refusal, or in the closure with what the target
holds. -/
theorem step_reading (a : RecordAppend) (fault : Option Fault) (fs : FileSystem PathBuf) :
    ∃ next stage', a.program .reading = .perform (.read a.path) next ∧
      Step a fs .reading ((FileOp.read a.path).event fault fs) stage' ∧
      next ((FileOp.read a.path).event fault fs).result = a.program stage' := by
  obtain ⟨r, hevent, hr⟩ := FileOp.event_read fault fs a.path
  -- what the target holds, by the three outcomes of reading it
  have hexisting : (∃ e, existingContent r = .error e) ∨
      existingContent r = .ok ((fs a.path).getD []) := by
    rcases hr with ⟨bytes, rfl, hp⟩ | ⟨e, rfl, hkind, hp⟩ | ⟨e, rfl, hkind⟩
    · exact Or.inr (by rw [existingContent, hp, Option.getD_some])
    · exact Or.inr (by rw [existingContent, if_pos hkind, hp, Option.getD_none])
    · exact Or.inl ⟨ioError e, by rw [existingContent, if_neg hkind]⟩
  rw [hevent]
  rcases hexisting with ⟨e, he⟩ | hok
  · exact ⟨_, .finished (.error e), rfl, .refused r e, by simp only [he]; rfl⟩
  · cases hname : a.path.utf8FileName with
    | none => exact ⟨_, .finished (.error _), rfl, .refused r _, by simp only [hok, hname]; rfl⟩
    | some fileName =>
      refine ⟨_, .creating ((fs a.path).getD []), rfl, .read r fileName hname, ?_⟩
      have htemporary : a.path.temporary fileName a.uuid = a.temporary := by
        unfold temporary
        rw [hname, Option.getD_some]
      simp only [hok, hname, htemporary]
      rfl

/-- The closure proceeds, or leaves every other file alone and cleans up. -/
theorem step_closure (a : RecordAppend) (fault : Option Fault) (fs : FileSystem PathBuf)
    {stage next : Stage} {op : FileOp PathBuf} (h : a.closureStep stage = some (op, next)) :
    (∃ e, (op.event fault fs).result = .error e ∧
        Step a fs stage (op.event fault fs) (.cleaning (ioError e))) ∨
      (∃ bytes, (op.event fault fs).result = .ok bytes) ∧
        Step a fs stage (op.event fault fs) next := by
  have hfail : ∀ e after, op.event fault fs = ⟨op, .error e, after⟩ →
      (∀ other, other ≠ a.temporary → after other = fs other) →
      ∃ e, (op.event fault fs).result = .error e ∧
        Step a fs stage (op.event fault fs) (.cleaning (ioError e)) := by
    intro e after hevent hafter
    rw [hevent]
    exact ⟨e, rfl, .failed stage next op e after h hafter⟩
  cases stage with
  | reading => cases h
  | cleaning e => cases h
  | finished result => cases h
  | creating existing =>
    cases h
    rcases FileOp.event_createNew fault fs a.temporary with ⟨e, hevent⟩ | ⟨hnone, hevent⟩
    · exact Or.inl (hfail e fs hevent (fun _ _ => rfl))
    · rw [hevent]
      exact Or.inr ⟨⟨[], rfl⟩, .created existing hnone⟩
  | copying existing =>
    cases h
    rcases FileOp.event_writeAll fault fs a.temporary existing with
      ⟨e, after, hevent, hother⟩ | hevent
    · exact Or.inl (hfail e after hevent hother)
    · rw [hevent]
      exact Or.inr ⟨⟨[], rfl⟩, .copied existing⟩
  | appending existing =>
    cases h
    rcases FileOp.event_writeAll fault fs a.temporary a.line with
      ⟨e, after, hevent, hother⟩ | hevent
    · exact Or.inl (hfail e after hevent hother)
    · rw [hevent]
      exact Or.inr ⟨⟨[], rfl⟩, .appended existing⟩
  | syncing existing =>
    cases h
    rcases FileOp.event_syncAll fault fs a.temporary with ⟨e, hevent⟩ | hevent
    · exact Or.inl (hfail e fs hevent (fun _ _ => rfl))
    · rw [hevent]
      exact Or.inr ⟨⟨[], rfl⟩, .synced existing⟩
  | replacing existing =>
    cases h
    rcases FileOp.event_rename fault fs a.temporary a.path with
      ⟨e, hevent⟩ | ⟨content, hsome, hevent⟩
    · exact Or.inl (hfail e fs hevent (fun _ _ => rfl))
    · rw [hevent]
      exact Or.inr ⟨⟨[], rfl⟩, .renamed existing content hsome⟩

/-- **What an append can do at a stage.** Whatever fault its operation meets,
the outcome is one of the steps, and the program goes on at the stage the step
leads to. -/
theorem step_cases (a : RecordAppend) {stage : Stage} {op : FileOp PathBuf}
    {next : Except IoError (List UInt8) → RecordProgram} (h : a.program stage = .perform op next)
    (fault : Option Fault) (fs : FileSystem PathBuf) :
    ∃ stage', Step a fs stage (op.event fault fs) stage' ∧
      next (op.event fault fs).result = a.program stage' := by
  cases hc : a.closureStep stage with
  | some closure =>
    obtain ⟨op', stage'⟩ := closure
    rw [a.program_of_closureStep hc] at h
    cases h
    rcases a.step_closure fault fs hc with ⟨e, hresult, hstep⟩ | ⟨⟨bytes, hresult⟩, hstep⟩
    · exact ⟨_, hstep, by rw [hresult]⟩
    · exact ⟨_, hstep, by rw [hresult]⟩
  | none =>
    cases stage with
    | reading =>
      obtain ⟨next', stage', hprogram, hstep, hnext⟩ := a.step_reading fault fs
      rw [hprogram] at h
      cases h
      exact ⟨stage', hstep, hnext⟩
    | cleaning e =>
      cases h
      refine ⟨.finished (.error e), ?_, rfl⟩
      rcases FileOp.event_removeFile fault fs a.temporary with ⟨error, hevent⟩ | hevent
      · rw [hevent]
        exact .notCleaned e error
      · rw [hevent]
        exact .cleaned e
    | finished result => cases h
    | creating existing => cases hc
    | copying existing => cases hc
    | appending existing => cases hc
    | syncing existing => cases hc
    | replacing existing => cases hc

/-- Only an append that is done has nothing left to do. -/
theorem eq_finished_of_program (a : RecordAppend) {stage : Stage}
    {result : Except RecordingError Unit} (h : a.program stage = .done result) :
    stage = .finished result := by
  cases hc : a.closureStep stage with
  | some closure =>
    rw [a.program_of_closureStep hc] at h
    cases h
  | none =>
    cases stage with
    | finished result' =>
      cases h
      rfl
    | reading => cases h
    | cleaning e => cases h
    | creating existing => cases hc
    | copying existing => cases hc
    | appending existing => cases hc
    | syncing existing => cases hc
    | replacing existing => cases hc

/-! ## What the steps preserve -/

/-- What has been read, from then on until the closure is left. -/
def contentRead : Stage → Option (List UInt8)
  | .creating existing => some existing
  | .copying existing => some existing
  | .appending existing => some existing
  | .syncing existing => some existing
  | .replacing existing => some existing
  | _ => none

/-- What the temporary file holds at a stage, where that is known. -/
def temporaryContent (a : RecordAppend) : Stage → Option (List UInt8)
  | .copying _ => some []
  | .appending existing => some existing
  | .syncing existing => some (existing ++ a.line)
  | .replacing existing => some (existing ++ a.line)
  | _ => none

/-- **The temporary file holds what the stage says.** -/
def TemporaryHolds (a : RecordAppend) (stage : Stage) (fs : FileSystem PathBuf) : Prop :=
  ∀ content, a.temporaryContent stage = some content → fs a.temporary = some content

/-- What an operation is to the target: a read of it, or its replacement. -/
def mark {ι : Type} : ι × FileEvent PathBuf → Option (AppendCell.Event ι)
  | (i, ⟨.read _, _, _⟩) => some (.read i)
  | (i, ⟨.rename _ _, .ok _, _⟩) => some (.commit i)
  | _ => none

namespace Step

variable {a : RecordAppend} {fs : FileSystem PathBuf} {stage stage' : Stage}
  {event : FileEvent PathBuf}

/-- **The frame**: a step concerns the target and the temporary file only. -/
theorem after_of_ne (h : Step a fs stage event stage') {other : PathBuf} (hpath : other ≠ a.path)
    (htemporary : other ≠ a.temporary) : event.after other = fs other := by
  cases h with
  | read r fileName hname => rfl
  | refused r e => rfl
  | created existing hnone => exact Function.update_of_ne htemporary _ _
  | copied existing => exact fs.append_of_ne _ htemporary
  | appended existing => exact fs.append_of_ne _ htemporary
  | synced existing => rfl
  | renamed existing content hsome =>
    show Function.update (Function.update fs a.temporary none) a.path (some content) other = _
    rw [Function.update_of_ne hpath, Function.update_of_ne htemporary]
  | failed stage next op e after hop hafter => exact hafter other htemporary
  | cleaned e => exact Function.update_of_ne htemporary _ _
  | notCleaned e error => rfl

/-- **A step reads the target, replaces it, or leaves it alone.** -/
theorem mark_cases {ι : Type} (h : Step a fs stage event stage') (i : ι) :
    (mark (i, event) = some (.read i) ∧ stage = .reading ∧ stage' ≠ .finished (.ok ()) ∧
        event.after a.path = fs a.path) ∨
      (mark (i, event) = some (.commit i) ∧ stage' = .finished (.ok ()) ∧
        ∃ existing, stage = .replacing existing ∧ event.after a.path = fs a.temporary) ∨
      (mark (i, event) = none ∧ stage ≠ .reading ∧ stage' ≠ .finished (.ok ()) ∧
        event.after a.path = fs a.path) := by
  have hne := a.temporary_ne_path.symm
  cases h with
  | read r fileName hname => exact Or.inl ⟨rfl, rfl, Stage.noConfusion, rfl⟩
  | refused r e => exact Or.inl ⟨rfl, rfl, by simp, rfl⟩
  | created existing hnone =>
    exact Or.inr (Or.inr ⟨rfl, Stage.noConfusion, Stage.noConfusion,
      Function.update_of_ne hne _ _⟩)
  | copied existing =>
    exact Or.inr (Or.inr ⟨rfl, Stage.noConfusion, Stage.noConfusion, fs.append_of_ne _ hne⟩)
  | appended existing =>
    exact Or.inr (Or.inr ⟨rfl, Stage.noConfusion, Stage.noConfusion, fs.append_of_ne _ hne⟩)
  | synced existing => exact Or.inr (Or.inr ⟨rfl, Stage.noConfusion, Stage.noConfusion, rfl⟩)
  | renamed existing content hsome =>
    exact Or.inr (Or.inl ⟨rfl, rfl, existing, rfl, (Function.update_self _ _ _).trans hsome.symm⟩)
  | failed stage next op e after hop hafter =>
    refine Or.inr (Or.inr ⟨?_, ?_, Stage.noConfusion, hafter _ hne⟩)
    · cases stage <;> cases hop <;> rfl
    · rintro rfl
      cases hop
  | cleaned e =>
    exact Or.inr (Or.inr ⟨rfl, Stage.noConfusion, by simp, Function.update_of_ne hne _ _⟩)
  | notCleaned e error => exact Or.inr (Or.inr ⟨rfl, Stage.noConfusion, by simp, rfl⟩)

/-- What has been read is what the target held at the read. -/
theorem contentRead_eq (h : Step a fs stage event stage') {content : List UInt8}
    (hcontent : contentRead stage' = some content) :
    contentRead stage = some content ∨
      (stage = .reading ∧ content = (fs a.path).getD [] ∧ ∃ r, event = ⟨.read a.path, r, fs⟩) := by
  cases h with
  | read r fileName hname =>
    exact Or.inr ⟨rfl, (Option.some.inj hcontent).symm, r, rfl⟩
  | refused r e => cases hcontent
  | created existing hnone => exact Or.inl hcontent
  | copied existing => exact Or.inl hcontent
  | appended existing => exact Or.inl hcontent
  | synced existing => exact Or.inl hcontent
  | renamed existing content hsome => cases hcontent
  | failed stage next op e after hop hafter => cases hcontent
  | cleaned e => cases hcontent
  | notCleaned e error => cases hcontent

/-- **The temporary file is written as the stages say.** -/
theorem temporaryHolds (h : Step a fs stage event stage') (hholds : a.TemporaryHolds stage fs) :
    a.TemporaryHolds stage' event.after := by
  intro content hcontent
  cases h with
  | read r fileName hname => cases hcontent
  | refused r e => cases hcontent
  | created existing hnone =>
    cases hcontent
    exact Function.update_self _ _ _
  | copied existing =>
    cases hcontent
    exact FileSystem.append_self (hholds [] rfl) _
  | appended existing =>
    cases hcontent
    exact FileSystem.append_self (hholds _ rfl) a.line
  | synced existing =>
    cases hcontent
    exact hholds _ rfl
  | renamed existing content hsome => cases hcontent
  | failed stage next op e after hop hafter => cases hcontent
  | cleaned e => cases hcontent
  | notCleaned e error => cases hcontent

/-- An append that is done takes no step. -/
theorem ne_finished (h : Step a fs stage event stage') (result : Except RecordingError Unit) :
    stage ≠ .finished result := by
  rintro rfl
  cases h with
  | failed _ next op e after hop hafter => cases hop

/-- An append that is done has done nothing since its read, or has left no
temporary file, or has failed to remove it. -/
theorem temporary_of_finished {result : Except RecordingError Unit}
    (h : Step a fs stage event (.finished result)) :
    (stage = .reading ∧ event.after = fs) ∨ event.after a.temporary = none ∨
      ∃ e, event.op = .removeFile a.temporary ∧ event.result = .error e := by
  cases h with
  | refused r e => exact Or.inl ⟨rfl, rfl⟩
  | renamed existing content hsome =>
    refine Or.inr (Or.inl ?_)
    show Function.update (Function.update fs a.temporary none) a.path (some content) _ = none
    rw [Function.update_of_ne a.temporary_ne_path, Function.update_self]
  | cleaned e => exact Or.inr (Or.inl (Function.update_self _ _ _))
  | notCleaned e error => exact Or.inr (Or.inr ⟨error, rfl, rfl⟩)

end Step

end RecordAppend

end
