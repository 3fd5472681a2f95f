import NautilusAgents.RecordingRuns

/-!
# Calls made at the same time

Any number of calls, through any number of recorders of one path, take turns
at their operations in any order. What the pool of their programs does is what
their appends do, stage by stage (`ConcurrentCalls.reaches_run`), and what the
appends do to the target is what clients do to the cell of `AppendCell`: each
reads it once and replaces it once (`ConcurrentCalls.Consistent`).

Hence nothing is torn, doubled or reordered, whatever the interleaving and
whatever fails (`ConcurrentCalls.never_torn`). Lines may be lost, which is the
subject of `LostUpdate`.
-/

namespace ConcurrentCalls

/-! ## Operations as events of a cell -/

section

variable {ι : Type}

/-- The calls whose rename has succeeded, in the order of the renames. -/
def renames (events : List (ι × FileEvent PathBuf)) : List ι :=
  AppendCell.commits (events.filterMap RecordAppend.mark)

theorem renames_concat (events : List (ι × FileEvent PathBuf)) {e : ι × FileEvent PathBuf}
    {m : AppendCell.Event ι} (h : RecordAppend.mark e = some m) :
    renames (events ++ [e]) = renames events ++ AppendCell.commits [m] := by
  unfold renames
  rw [List.filterMap_append, List.filterMap_cons_some h, List.filterMap_nil,
    AppendCell.commits_append]

theorem renames_concat_none (events : List (ι × FileEvent PathBuf)) {e : ι × FileEvent PathBuf}
    (h : RecordAppend.mark e = none) : renames (events ++ [e]) = renames events := by
  unfold renames
  rw [List.filterMap_append, List.filterMap_cons_none h, List.filterMap_nil, List.append_nil]

variable [DecidableEq ι]

/-- The cell that the reads and renames so far leave. -/
def cell (events : List (ι × FileEvent PathBuf)) : AppendCell.Cell ι :=
  AppendCell.run (events.filterMap RecordAppend.mark)

theorem cell_concat (events : List (ι × FileEvent PathBuf)) {e : ι × FileEvent PathBuf}
    {m : AppendCell.Event ι} (h : RecordAppend.mark e = some m) :
    cell (events ++ [e]) = (cell events).apply m := by
  unfold cell
  rw [List.filterMap_append, List.filterMap_cons_some h, List.filterMap_nil, AppendCell.run_concat]

theorem cell_concat_none (events : List (ι × FileEvent PathBuf)) {e : ι × FileEvent PathBuf}
    (h : RecordAppend.mark e = none) : cell (events ++ [e]) = cell events := by
  unfold cell
  rw [List.filterMap_append, List.filterMap_cons_none h, List.filterMap_nil, List.append_nil]

end

end ConcurrentCalls

/-! ## Calls that take turns -/

section

variable [UuidCrate] [Crates] {ι : Type}

/-- **Calls made at the same time**, through recorders of one path. Each draws
a UUID of its own. -/
structure ConcurrentCalls (ι : Type) where
  /-- The target of all the recorders. -/
  path : PathBuf
  /-- The recorder of a call. -/
  recorder : ι → TraceRecorder
  /-- What a call is asked to record. -/
  request : ι → Request
  /-- The UUID a call draws. -/
  uuid : ι → Vector UInt8 16
  /-- The recorders share the target. -/
  path_eq : ∀ i, (recorder i).path = path
  /-- No UUID is drawn twice. -/
  uuid_injective : Function.Injective uuid

namespace ConcurrentCalls

/-- The line of a call, or the refusal of its request. -/
def lineOf (calls : ConcurrentCalls ι) (i : ι) : Except RecordingError (List UInt8) :=
  (calls.recorder i).lineOf (calls.request i)

/-- The calls before their first turn. -/
def start (calls : ConcurrentCalls ι) (fs : FileSystem PathBuf) :
    Pool ι PathBuf (Except RecordingError Unit) :=
  .start fs (fun i => (calls.recorder i).call (calls.request i) (calls.uuid i))

/-- The append of a call. -/
def append (calls : ConcurrentCalls ι) (i : ι) : RecordAppend :=
  ⟨calls.path, calls.uuid i, (calls.lineOf i).toOption.getD []⟩

/-- A call starts with the read, unless its request is refused. -/
def initialStage (calls : ConcurrentCalls ι) (i : ι) : Stage :=
  match calls.lineOf i with
  | .error e => .finished (.error e)
  | .ok _ => .reading

theorem call_eq_program (calls : ConcurrentCalls ι) (i : ι) :
    (calls.recorder i).call (calls.request i) (calls.uuid i)
      = (calls.append i).program (calls.initialStage i) := by
  rw [TraceRecorder.call_eq, calls.path_eq, initialStage, append]
  show (match calls.lineOf i with | .error e => _ | .ok line => _) = _
  cases calls.lineOf i <;> rfl

/-- Two calls have two temporary files. -/
theorem temporary_ne (calls : ConcurrentCalls ι) {i j : ι} (h : i ≠ j) :
    (calls.append i).temporary ≠ (calls.append j).temporary :=
  RecordAppend.temporary_ne_temporary rfl (fun huuid => h (calls.uuid_injective huuid))

/-- What the target holds once the calls of a log have appended their lines. -/
def contentOf (calls : ConcurrentCalls ι) (start : FileSystem PathBuf) (log : List ι) :
    Option (List UInt8) :=
  contentAfter (start calls.path) (log.map (fun i => (calls.append i).line))

theorem contentOf_concat (calls : ConcurrentCalls ι) (start : FileSystem PathBuf) (log : List ι)
    (i : ι) : calls.contentOf start (log ++ [i])
      = some ((calls.contentOf start log).getD [] ++ (calls.append i).line) := by
  rw [contentOf, List.map_append, List.map_singleton, contentAfter_append, contentAfter_singleton]
  rfl

variable [DecidableEq ι]

/-- **What the appends do when they take turns**, with the turns so far, the
operations that have been performed, and the stage of each append. -/
inductive Reaches (calls : ConcurrentCalls ι) (start : FileSystem PathBuf) :
    List ι → List (ι × FileEvent PathBuf) → FileSystem PathBuf → (ι → Stage) → Prop where
  | start : Reaches calls start [] [] start calls.initialStage
  | idle {turns events fs stages} (i : ι) (result : Except RecordingError Unit)
      (h : Reaches calls start turns events fs stages) (hstage : stages i = .finished result) :
      Reaches calls start (turns ++ [i]) events fs stages
  | step {turns events fs stages} (i : ι) {event : FileEvent PathBuf} {stage : Stage}
      (h : Reaches calls start turns events fs stages)
      (hstep : RecordAppend.Step (calls.append i) fs (stages i) event stage) :
      Reaches calls start (turns ++ [i]) (events ++ [(i, event)]) event.after
        (Function.update stages i stage)

/-- **The pool does what the appends do.** -/
theorem reaches_run (calls : ConcurrentCalls ι) (fs : FileSystem PathBuf)
    (schedule : List (ι × Option Fault)) :
    ∃ stages,
      Reaches calls fs (schedule.map Prod.fst) ((calls.start fs).run schedule).events
        ((calls.start fs).run schedule).fs stages ∧
      ∀ i, ((calls.start fs).run schedule).programs i = (calls.append i).program (stages i) := by
  refine Pool.run_invariant (fun schedule pool => ∃ stages,
      Reaches calls fs (schedule.map Prod.fst) pool.events pool.fs stages ∧
      ∀ i, pool.programs i = (calls.append i).program (stages i)) ?_
    ⟨calls.initialStage, .start, calls.call_eq_program⟩ schedule
  rintro schedule pool ⟨k, fault⟩ ⟨stages, hreaches, hprograms⟩
  rw [List.map_append, List.map_singleton, Pool.step]
  cases hk : pool.programs k with
  | done result =>
    refine ⟨stages, .idle k result hreaches ?_, hprograms⟩
    exact (calls.append k).eq_finished_of_program ((hprograms k).symm.trans hk)
  | perform op next =>
    obtain ⟨stage, hstep, hnext⟩ :=
      (calls.append k).step_cases ((hprograms k).symm.trans hk) fault pool.fs
    refine ⟨Function.update stages k stage, .step k hreaches hstep, fun i => ?_⟩
    show Function.update pool.programs k _ i = _
    by_cases hi : i = k
    · subst hi
      rw [Function.update_self, Function.update_self]
      exact hnext
    · rw [Function.update_of_ne hi, Function.update_of_ne hi]
      exact hprograms i

/-! ## The target is a cell -/

/-- **The target is the cell**: it holds what the cell of the reads and renames
so far holds, and an append has read what the cell held at its read. -/
structure Consistent (calls : ConcurrentCalls ι) (start : FileSystem PathBuf)
    (events : List (ι × FileEvent PathBuf)) (fs : FileSystem PathBuf) (stages : ι → Stage) :
    Prop where
  /-- The target holds what the cell holds. -/
  target : fs calls.path = calls.contentOf start (cell events).log
  /-- What an append has read is what the cell held then. -/
  content : ∀ i content, RecordAppend.contentRead (stages i) = some content →
    content = (calls.contentOf start ((cell events).snapshot i)).getD []
  /-- The temporary file of an append holds what its stage says. -/
  holds : ∀ i, (calls.append i).TemporaryHolds (stages i) fs
  /-- A rename ends its append. -/
  renamed : ∀ i ∈ renames events, stages i = .finished (.ok ())
  /-- Each append renames at most once. -/
  nodup : (renames events).Nodup
  /-- A request that is refused is never written. -/
  refused : ∀ i e, calls.lineOf i = .error e → stages i = .finished (.error e)
  /-- After a rename the target ends with the line. -/
  ends : ∀ i event, (i, event) ∈ events → RecordAppend.mark (i, event) = some (.commit i) →
    ∃ before, event.after calls.path = some (before ++ (calls.append i).line)

theorem Consistent.of_start (calls : ConcurrentCalls ι) (fs : FileSystem PathBuf) :
    Consistent calls fs [] fs calls.initialStage where
  target := rfl
  content i content h := by
    rw [initialStage] at h
    cases hline : calls.lineOf i <;> rw [hline] at h <;> cases h
  holds i content h := by
    rw [initialStage] at h
    cases hline : calls.lineOf i <;> rw [hline] at h <;> cases h
  renamed i hi := absurd hi List.not_mem_nil
  nodup := List.nodup_nil
  refused i e h := by rw [initialStage, h]
  ends i event h := absurd h List.not_mem_nil

/-! The step lemma, field by field: one append performs an operation. -/

section Step

variable {calls : ConcurrentCalls ι} {start fs : FileSystem PathBuf}
  {events : List (ι × FileEvent PathBuf)} {stages : ι → Stage} {k : ι}
  {event : FileEvent PathBuf} {stage : Stage}

/-- An append about to rename has written to its temporary file what the cell
held at its read, and its line. -/
theorem Consistent.temporary_eq (h : Consistent calls start events fs stages)
    {existing : List UInt8} (hstage : stages k = .replacing existing) :
    fs (calls.append k).temporary
      = calls.contentOf start ((cell events).snapshot k ++ [k]) := by
  have hcontent := h.content k existing (by rw [hstage]; rfl)
  rw [contentOf_concat, ← hcontent]
  exact h.holds k _ (by rw [hstage]; rfl)

/-- The target stays the cell: only a rename changes either. -/
theorem Consistent.target_step (h : Consistent calls start events fs stages)
    (hstep : RecordAppend.Step (calls.append k) fs (stages k) event stage) :
    event.after calls.path = calls.contentOf start (cell (events ++ [(k, event)])).log := by
  rcases hstep.mark_cases k with ⟨hmark, -, -, hpath⟩ | ⟨hmark, -, existing, hstage, hpath⟩ |
    ⟨hmark, -, -, hpath⟩
  · rw [cell_concat events hmark]
    exact hpath.trans h.target
  · rw [cell_concat events hmark]
    exact hpath.trans (h.temporary_eq hstage)
  · rw [cell_concat_none events hmark]
    exact hpath.trans h.target

/-- What an append has read stays what the cell held: only its own read
changes either. -/
theorem Consistent.content_step (h : Consistent calls start events fs stages)
    (hstep : RecordAppend.Step (calls.append k) fs (stages k) event stage) (i : ι)
    {content : List UInt8}
    (hcontent : RecordAppend.contentRead (Function.update stages k stage i) = some content) :
    content = (calls.contentOf start ((cell (events ++ [(k, event)])).snapshot i)).getD [] := by
  by_cases hi : i = k
  · subst hi
    rw [Function.update_self] at hcontent
    rcases hstep.contentRead_eq hcontent with hold | ⟨-, hread, r, rfl⟩
    · -- the append goes on with what it has read
      rw [h.content i content hold]
      rcases hstep.mark_cases i with ⟨-, hreading, -⟩ | ⟨hmark, -⟩ | ⟨hmark, -⟩
      · rw [hreading] at hold
        cases hold
      · rw [cell_concat events hmark]
        rfl
      · rw [cell_concat_none events hmark]
    · rw [cell_concat events (m := .read i) rfl, hread, show fs (calls.append i).path = _
        from h.target]
      show _ = (calls.contentOf start
        (Function.update (cell events).snapshot i (cell events).log i)).getD []
      rw [Function.update_self]
  · rw [Function.update_of_ne hi] at hcontent
    rw [h.content i content hcontent]
    rcases hstep.mark_cases k with ⟨hmark, -⟩ | ⟨hmark, -⟩ | ⟨hmark, -⟩
    · rw [cell_concat events hmark]
      show _ = (calls.contentOf start
        (Function.update (cell events).snapshot k (cell events).log i)).getD []
      rw [Function.update_of_ne hi]
    · rw [cell_concat events hmark]
      rfl
    · rw [cell_concat_none events hmark]

/-- The others' temporary files are left alone. -/
theorem Consistent.holds_step (h : Consistent calls start events fs stages)
    (hstep : RecordAppend.Step (calls.append k) fs (stages k) event stage) (i : ι) :
    (calls.append i).TemporaryHolds (Function.update stages k stage i) event.after := by
  by_cases hi : i = k
  · subst hi
    rw [Function.update_self]
    exact hstep.temporaryHolds (h.holds i)
  · rw [Function.update_of_ne hi]
    intro content hcontent
    rw [hstep.after_of_ne (calls.append i).temporary_ne_path (calls.temporary_ne hi)]
    exact h.holds i content hcontent

/-- An append that is done stays so. -/
theorem update_of_finished (hstep : RecordAppend.Step (calls.append k) fs (stages k) event stage)
    {i : ι} {result : Except RecordingError Unit} (hi : stages i = .finished result) :
    Function.update stages k stage i = .finished result := by
  have hik : i ≠ k := by
    rintro rfl
    exact hstep.ne_finished result hi
  rw [Function.update_of_ne hik, hi]

theorem Consistent.renamed_step (h : Consistent calls start events fs stages)
    (hstep : RecordAppend.Step (calls.append k) fs (stages k) event stage) :
    (∀ i ∈ renames (events ++ [(k, event)]),
      Function.update stages k stage i = .finished (.ok ())) ∧
      (renames (events ++ [(k, event)])).Nodup := by
  have hold : ∀ i ∈ renames events, Function.update stages k stage i = .finished (.ok ()) :=
    fun i hi => update_of_finished hstep (h.renamed i hi)
  rcases hstep.mark_cases k with ⟨hmark, -⟩ | ⟨hmark, hfinished, -⟩ | ⟨hmark, -⟩
  · rw [renames_concat events hmark, show AppendCell.commits [.read k] = [] from rfl,
      List.append_nil]
    exact ⟨hold, h.nodup⟩
  · rw [renames_concat events hmark, show AppendCell.commits [.commit k] = [k] from rfl]
    have hfresh : k ∉ renames events := fun hk => hstep.ne_finished _ (h.renamed k hk)
    refine ⟨fun i hi => ?_, List.nodup_append.mpr ⟨h.nodup, List.nodup_singleton k, ?_⟩⟩
    · rcases List.mem_append.mp hi with hi | hi
      · exact hold i hi
      · rw [List.mem_singleton.mp hi, Function.update_self, hfinished]
    · rintro i hi j hj rfl
      exact hfresh (List.mem_singleton.mp hj ▸ hi)
  · rw [renames_concat_none events hmark]
    exact ⟨hold, h.nodup⟩

theorem Consistent.ends_step (h : Consistent calls start events fs stages)
    (hstep : RecordAppend.Step (calls.append k) fs (stages k) event stage) (i : ι)
    (e : FileEvent PathBuf) (hmem : (i, e) ∈ events ++ [(k, event)])
    (hcommit : RecordAppend.mark (i, e) = some (.commit i)) :
    ∃ before, e.after calls.path = some (before ++ (calls.append i).line) := by
  rcases List.mem_append.mp hmem with hmem | hmem
  · exact h.ends i e hmem hcommit
  · obtain ⟨rfl, rfl⟩ := Prod.mk.injEq .. ▸ List.mem_singleton.mp hmem
    rcases hstep.mark_cases i with ⟨hmark, -⟩ | ⟨-, -, existing, hstage, hpath⟩ | ⟨hmark, -⟩
    · rw [hmark] at hcommit
      cases hcommit
    · exact ⟨_, (hpath.trans (h.temporary_eq hstage)).trans (calls.contentOf_concat start _ i)⟩
    · rw [hmark] at hcommit
      cases hcommit

/-- **The step lemma.** -/
theorem Consistent.step (h : Consistent calls start events fs stages)
    (hstep : RecordAppend.Step (calls.append k) fs (stages k) event stage) :
    Consistent calls start (events ++ [(k, event)]) event.after
      (Function.update stages k stage) where
  target := h.target_step hstep
  content i _ := h.content_step hstep i
  holds := h.holds_step hstep
  renamed := (h.renamed_step hstep).1
  nodup := (h.renamed_step hstep).2
  refused i e he := update_of_finished hstep (h.refused i e he)
  ends := h.ends_step hstep

end Step

/-- **Whatever the appends do, the target is the cell.** -/
theorem Reaches.consistent {calls : ConcurrentCalls ι} {start fs : FileSystem PathBuf}
    {turns : List ι} {events : List (ι × FileEvent PathBuf)} {stages : ι → Stage}
    (h : Reaches calls start turns events fs stages) : Consistent calls start events fs stages := by
  induction h with
  | start => exact .of_start calls start
  | idle i result h hstage ih => exact ih
  | step i h hstep ih => exact ih.step hstep

/-- A call that has renamed has a line. -/
theorem Consistent.lineOf_eq {calls : ConcurrentCalls ι} {start fs : FileSystem PathBuf}
    {events : List (ι × FileEvent PathBuf)} {stages : ι → Stage}
    (h : Consistent calls start events fs stages) {i : ι} (hi : i ∈ renames events) :
    calls.lineOf i = .ok (calls.append i).line := by
  cases hline : calls.lineOf i with
  | ok line => rw [append, hline]; rfl
  | error e =>
    have hfinished := h.renamed i hi
    rw [h.refused i e hline] at hfinished
    cases hfinished

omit [UuidCrate] [Crates] [DecidableEq ι] in
theorem mem_renames {events : List (ι × FileEvent PathBuf)} {i : ι} {event : FileEvent PathBuf}
    (hmem : (i, event) ∈ events) (h : RecordAppend.mark (i, event) = some (.commit i)) :
    i ∈ renames events :=
  AppendCell.mem_commits.mpr (List.mem_filterMap.mpr ⟨_, hmem, h⟩)

/-- **Nothing is torn, doubled or reordered.** At every moment of every
interleaving, whatever fails, the target holds its initial content followed by
the lines of calls whose rename has succeeded, each at most once, in the order
of their renames; a call whose line it holds has returned `Ok`; and each
rename that has succeeded left the target ending with the line of its call. -/
theorem never_torn (calls : ConcurrentCalls ι) (fs : FileSystem PathBuf)
    (schedule : List (ι × Option Fault)) :
    (∃ log : List ι,
      log.Sublist (renames ((calls.start fs).run schedule).events) ∧ log.Nodup ∧
      (∃ lines, log.map calls.lineOf = lines.map Except.ok ∧
        ((calls.start fs).run schedule).fs calls.path = contentAfter (fs calls.path) lines) ∧
      ∀ i ∈ log, ((calls.start fs).run schedule).programs i = .done (.ok ())) ∧
    ∀ i event, (i, event) ∈ ((calls.start fs).run schedule).events →
      ∀ source target bytes, event.op = .rename source target → event.result = .ok bytes →
        ∃ before line, calls.lineOf i = .ok line ∧
          event.after calls.path = some (before ++ line) := by
  obtain ⟨stages, hreaches, hprograms⟩ := calls.reaches_run fs schedule
  have hconsistent := hreaches.consistent
  constructor
  · have hlog := AppendCell.log_sublist_commits
      (((calls.start fs).run schedule).events.filterMap RecordAppend.mark)
    refine ⟨_, hlog, hconsistent.nodup.sublist hlog, ⟨_, ?_, hconsistent.target⟩, fun i hi => ?_⟩
    · rw [List.map_map]
      exact List.map_congr_left (fun i hi => hconsistent.lineOf_eq (hlog.subset hi))
    · rw [hprograms, hconsistent.renamed i (hlog.subset hi)]
      rfl
  · rintro i ⟨op, result, after⟩ hmem source target bytes hop hresult
    cases hop
    cases hresult
    obtain ⟨before, hbefore⟩ := hconsistent.ends i _ hmem rfl
    exact ⟨before, _, hconsistent.lineOf_eq (mem_renames hmem rfl), hbefore⟩

end ConcurrentCalls

end
