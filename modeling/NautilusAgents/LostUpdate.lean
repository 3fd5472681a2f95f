import NautilusAgents.ConcurrentCalls
import NautilusAgents.FirstViolation
import NautilusAgents.Fixture

/-!
# Lost updates

Calls that are made at the same time through one recorder may all return `Ok`
and yet leave a target without one of their records: between the read of a
call and its rename nothing keeps another call from renaming
(`TraceRecorder.lost_update`).

Which interleavings do this depends on the order of the turns alone. A call
that succeeds takes six of them, reads the target at the first and renames at
the last (`ConcurrentCalls.Reaches.inStep`), and no record is lost exactly when
no call takes its last turn between the first and the last of another
(`TraceRecorder.nothing_lost_iff`).
-/

/-- A sublist whose parts have as many entries altogether is the whole list,
where no part is empty. -/
theorem eq_of_sublist_of_length_flatMap {α β : Type} {f : α → List β} (hf : ∀ a, f a ≠ [])
    {l l' : List α} (h : l.Sublist l') (hlength : (l.flatMap f).length = (l'.flatMap f).length) :
    l = l' := by
  induction h with
  | slnil => rfl
  | @cons l l' a h ih =>
    have hle := (h.flatMap f).length_le
    have hpos := List.length_pos_iff.mpr (hf a)
    rw [List.flatMap_cons, List.length_append] at hlength
    omega
  | @cons_cons l l' a h ih =>
    rw [List.flatMap_cons, List.flatMap_cons, List.length_append, List.length_append] at hlength
    rw [ih (by omega)]

/-! ## Turns as events of a cell -/

section

variable {ι : Type} [DecidableEq ι]

/-- What a turn of a call that succeeds is to the target, by how many it has
taken before: the first is a read, and the sixth a rename. -/
def turnMark (earlier : ℕ) (i : ι) : Option (AppendCell.Event ι) :=
  if earlier = 0 then some (.read i)
  else if earlier = 5 then some (.commit i)
  else none

/-- **The reads and renames of a schedule**, where every call succeeds. -/
def turnMarks (turns : List ι) : List (AppendCell.Event ι) :=
  (withEarlier turns).filterMap (fun turn => turnMark (turn.fst.count turn.snd) turn.snd)

theorem turnMarks_concat (turns : List ι) (i : ι) :
    turnMarks (turns ++ [i]) = turnMarks turns ++ (turnMark (turns.count i) i).toList := by
  unfold turnMarks
  rw [withEarlier_concat, List.filterMap_append]
  cases h : turnMark (turns.count i) i <;> simp [h]

/-- A turn of one call counts for that call. -/
theorem count_concat (turns : List ι) (k i : ι) :
    (turns ++ [k]).count i = if i = k then turns.count i + 1 else turns.count i := by
  rw [List.count_append]
  by_cases hi : i = k
  · rw [if_pos hi, hi, List.count_singleton_self]
  · rw [if_neg hi, List.count_singleton, if_neg (fun h => hi (beq_iff_eq.mp h).symm), Nat.add_zero]

/-- **A client reads once and then commits once**, by the number of its
turns. -/
theorem filter_turnMarks (turns : List ι) (i : ι) :
    (turnMarks turns).filter (fun e => e.client = i)
      = if turns.count i = 0 then []
        else if turns.count i < 6 then [.read i] else [.read i, .commit i] := by
  induction turns using List.reverseRecOn with
  | nil => rfl
  | append_singleton turns k ih =>
    rw [turnMarks_concat, List.filter_append, ih, count_concat]
    by_cases hik : i = k
    · subst hik
      rw [if_pos rfl]
      unfold turnMark
      by_cases h0 : turns.count i = 0
      · simp [h0, AppendCell.Event.client]
      · by_cases h5 : turns.count i = 5
        · simp [h5, AppendCell.Event.client]
        · have hlt : turns.count i + 1 < 6 ↔ turns.count i < 6 := by omega
          simp [h0, h5, hlt]
    · have hother : (turnMark (turns.count k) k).toList.filter (fun e => e.client = i) = [] := by
        unfold turnMark
        split_ifs <;> simp [AppendCell.Event.client, Ne.symm hik]
      rw [hother, List.append_nil, if_neg hik]

/-- The reads and renames of a schedule are those of clients that read once and
then commit once. -/
theorem ordered_turnMarks (turns : List ι) : AppendCell.Ordered (turnMarks turns) := by
  intro i
  rw [filter_turnMarks]
  split_ifs
  · exact List.nil_prefix
  · exact ⟨[.commit i], rfl⟩
  · exact List.prefix_refl _

theorem mem_commits_turnMarks {turns : List ι} {i : ι} (h : 6 ≤ turns.count i) :
    i ∈ AppendCell.commits (turnMarks turns) := by
  rw [AppendCell.mem_commits, AppendCell.mem_iff_mem_filter]
  show AppendCell.Event.commit i ∈ (turnMarks turns).filter (fun e => e.client = i)
  rw [filter_turnMarks, if_neg (by omega), if_neg (by omega)]
  exact List.mem_cons_of_mem _ (List.mem_singleton_self _)

end

/-! ## Calls that all succeed -/

section

variable [UuidCrate] {ι : Type}

namespace RecordAppend

/-- How many operations have led to a stage, where none has failed. -/
def position : Stage → Option ℕ
  | .reading => some 0
  | .creating _ => some 1
  | .copying _ => some 2
  | .appending _ => some 3
  | .syncing _ => some 4
  | .replacing _ => some 5
  | .finished (.ok ()) => some 6
  | .cleaning _ => none
  | .finished (.error _) => none

/-- **A step fails for good, or leads to the next stage.** -/
theorem Step.position_cases {a : RecordAppend} {fs : FileSystem PathBuf} {stage stage' : Stage}
    {event : FileEvent PathBuf} (h : Step a fs stage event stage') (i : ι) :
    position stage' = none ∨ ∃ n, n < 6 ∧ position stage = some n ∧
      position stage' = some (n + 1) ∧
      mark (i, event) = turnMark n i := by
  cases h with
  | read r fileName hname => exact Or.inr ⟨0, by omega, rfl, rfl, rfl⟩
  | refused r e => exact Or.inl rfl
  | created existing hnone => exact Or.inr ⟨1, by omega, rfl, rfl, rfl⟩
  | copied existing => exact Or.inr ⟨2, by omega, rfl, rfl, rfl⟩
  | appended existing => exact Or.inr ⟨3, by omega, rfl, rfl, rfl⟩
  | synced existing => exact Or.inr ⟨4, by omega, rfl, rfl, rfl⟩
  | renamed existing content hsome => exact Or.inr ⟨5, by omega, rfl, rfl, rfl⟩
  | failed stage next op e after hop hafter => exact Or.inl rfl
  | cleaned e => exact Or.inl rfl
  | notCleaned e error => exact Or.inl rfl

end RecordAppend

namespace ConcurrentCalls

variable [Crates] [DecidableEq ι]

/-- **The calls are in step with the schedule**: each is where the number of
its turns says, and the reads and renames are those of the schedule. -/
def InStep (turns : List ι) (events : List (ι × FileEvent PathBuf)) (stages : ι → Stage) : Prop :=
  (∀ i, RecordAppend.position (stages i) = some (min (turns.count i) 6)) ∧
    events.filterMap RecordAppend.mark = turnMarks turns

/-- **Unless a call has failed, the calls are in step with the schedule.** The
induction is on the turns; a call that has failed stays so. -/
theorem Reaches.inStep {calls : ConcurrentCalls ι} {start fs : FileSystem PathBuf}
    {turns : List ι} {events : List (ι × FileEvent PathBuf)} {stages : ι → Stage}
    (h : Reaches calls start turns events fs stages) :
    (∃ i, RecordAppend.position (stages i) = none) ∨ InStep turns events stages := by
  induction h with
  | start =>
    by_cases hfailed : ∃ i, RecordAppend.position (calls.initialStage i) = none
    · exact Or.inl hfailed
    · refine Or.inr ⟨fun i => ?_, rfl⟩
      unfold initialStage
      cases hline : calls.lineOf i with
      | ok line => rfl
      | error e =>
        refine absurd ⟨i, ?_⟩ hfailed
        unfold initialStage
        rw [hline]
        rfl
  | @idle turns events fs stages k result _ hstage ih =>
    rcases ih with hfailed | ⟨hposition, hmarks⟩
    · exact Or.inl hfailed
    · -- only a call that has returned `Ok` can be idle here, after six turns
      have hk := hposition k
      rw [hstage] at hk
      have hcount : 6 ≤ turns.count k := by
        cases result with
        | error e => cases hk
        | ok u =>
          have hmin : 6 = min (turns.count k) 6 := Option.some.inj hk
          omega
      refine Or.inr ⟨fun i => ?_, ?_⟩
      · rw [hposition i, count_concat]
        by_cases hi : i = k
        · rw [if_pos hi, hi, Nat.min_eq_right hcount, Nat.min_eq_right (by omega)]
        · rw [if_neg hi]
      · rw [turnMarks_concat, turnMark, if_neg (by omega), if_neg (by omega), hmarks]
        exact (List.append_nil _).symm
  | @step turns events fs stages k event stage _ hstep ih =>
    rcases hstep.position_cases k with hnone | ⟨n, hn, hbefore, hafter, hmark⟩
    · exact Or.inl ⟨k, by rw [Function.update_self, hnone]⟩
    · rcases ih with ⟨i, hi⟩ | ⟨hposition, hmarks⟩
      · have hik : i ≠ k := by
          rintro rfl
          rw [hbefore] at hi
          cases hi
        exact Or.inl ⟨i, by rw [Function.update_of_ne hik, hi]⟩
      · have hcount : turns.count k = n := by
          have hmin := (hposition k).symm.trans hbefore
          rw [Option.some.injEq] at hmin
          omega
        refine Or.inr ⟨fun i => ?_, ?_⟩
        · rw [count_concat]
          by_cases hi : i = k
          · rw [if_pos hi, hi, Function.update_self, hafter, hcount, Nat.min_eq_left (by omega)]
          · rw [if_neg hi, Function.update_of_ne hi, hposition i]
        · rw [turnMarks_concat, hcount, ← hmark, List.filterMap_append, hmarks]
          cases hm : RecordAppend.mark (k, event) <;> simp [hm]

/-! ## What is lost -/

/-- **The target holds every record once**: its initial content, and then the
lines of all the calls in some order. -/
def HoldsEachOnce (calls : ConcurrentCalls ι) (start fs : FileSystem PathBuf) : Prop :=
  ∃ order : List ι, order.Nodup ∧ (∀ i, i ∈ order) ∧
    ∃ lines, order.map calls.lineOf = lines.map Except.ok ∧
      fs calls.path = contentAfter (start calls.path) lines

/-- All the calls have returned `Ok`. -/
def AllOk (pool : Pool ι PathBuf (Except RecordingError Unit)) : Prop :=
  ∀ i, pool.programs i = .done (.ok ())

omit [DecidableEq ι] in
theorem lineOf_ne_nil (calls : ConcurrentCalls ι) {i : ι} {line : List UInt8}
    (h : calls.lineOf i = .ok line) : line ≠ [] := by
  obtain ⟨written, -, rfl⟩ := (calls.recorder i).exists_written h
  have hline := written.line_eq
  rw [TraceRecorder.lineOfRecord] at hline
  cases hvec : Crates.toVec (serialize written.record) with
  | error message =>
    rw [hvec] at hline
    cases hline
  | ok bytes =>
    rw [hvec] at hline
    rw [← Except.ok.inj hline]
    exact List.append_ne_nil_of_right_ne_nil _ (List.cons_ne_nil _ _)

omit [UuidCrate] [Crates] in
/-- A call that has returned `Ok` in step with the schedule has renamed. -/
theorem InStep.mem_commits {turns : List ι} {events : List (ι × FileEvent PathBuf)}
    {stages : ι → Stage} (h : InStep turns events stages) {i : ι}
    (hi : stages i = .finished (.ok ())) : i ∈ AppendCell.commits (turnMarks turns) := by
  have hposition := h.1 i
  rw [hi] at hposition
  have hcount : 6 = min (turns.count i) 6 := Option.some.inj hposition
  exact mem_commits_turnMarks (by omega)

/-- Calls that have all returned `Ok` have done so in step with the
schedule. -/
theorem exists_inStep_of_allOk (calls : ConcurrentCalls ι) (fs : FileSystem PathBuf)
    (schedule : List (ι × Option Fault)) (hok : AllOk ((calls.start fs).run schedule)) :
    ∃ stages, Consistent calls fs ((calls.start fs).run schedule).events
        ((calls.start fs).run schedule).fs stages ∧
      InStep (schedule.map Prod.fst) ((calls.start fs).run schedule).events stages ∧
      ∀ i, stages i = .finished (.ok ()) := by
  obtain ⟨stages, hreaches, hprograms⟩ := calls.reaches_run fs schedule
  have hfinished : ∀ i, stages i = .finished (.ok ()) := fun i =>
    (calls.append i).eq_finished_of_program ((hprograms i).symm.trans (hok i))
  refine ⟨stages, hreaches.consistent, ?_, hfinished⟩
  rcases hreaches.inStep with ⟨i, hi⟩ | hinStep
  · rw [hfinished i] at hi
    cases hi
  · exact hinStep

/-- **No record is lost exactly when no call renames between the read and the
rename of another**, where all the calls return `Ok`. -/
theorem holdsEachOnce_iff (calls : ConcurrentCalls ι) (fs : FileSystem PathBuf)
    (schedule : List (ι × Option Fault)) (hok : AllOk ((calls.start fs).run schedule)) :
    calls.HoldsEachOnce fs ((calls.start fs).run schedule).fs ↔
      ¬ AppendCell.Overlap (turnMarks (schedule.map Prod.fst)) := by
  obtain ⟨stages, hconsistent, hinStep, hfinished⟩ := calls.exists_inStep_of_allOk fs schedule hok
  -- the cell is that of the schedule, and all the calls have renamed
  have htarget := hconsistent.target
  have hnodup := hconsistent.nodup
  rw [contentOf, cell, hinStep.2] at htarget
  rw [renames, hinStep.2] at hnodup
  have hmem : ∀ i, i ∈ AppendCell.commits (turnMarks (schedule.map Prod.fst)) :=
    fun i => hinStep.mem_commits (hfinished i)
  have hline : ∀ i, calls.lineOf i = .ok (calls.append i).line := by
    intro i
    refine hconsistent.lineOf_eq ?_
    unfold renames
    rw [hinStep.2]
    exact hmem i
  have hlines : ∀ order : List ι, order.map calls.lineOf
      = (order.map (fun i => (calls.append i).line)).map Except.ok := by
    intro order
    rw [List.map_map]
    exact List.map_congr_left (fun i _ => hline i)
  rw [← AppendCell.log_eq_commits_iff (ordered_turnMarks _)]
  constructor
  · rintro ⟨order, hdistinct, hall, lines, hsome, hfs⟩
    -- as many bytes as all the lines have can only be all the lines
    have horder : lines = order.map (fun i => (calls.append i).line) := by
      rw [hlines] at hsome
      exact (List.map_injective_iff.mpr (fun _ _ h => Except.ok.inj h) hsome).symm
    have hperm : order.Perm (AppendCell.commits (turnMarks (schedule.map Prod.fst))) :=
      (List.perm_ext_iff_of_nodup hdistinct hnodup).mpr
        (fun i => iff_of_true (hall i) (hmem i))
    have hbytes := congrArg (fun content => content.getD []) (htarget.symm.trans hfs)
    simp only [getD_contentAfter, List.append_right_inj, horder] at hbytes
    refine eq_of_sublist_of_length_flatMap (f := fun i => (calls.append i).line)
      (fun i => calls.lineOf_ne_nil (hline i)) (AppendCell.log_sublist_commits _) ?_
    rw [List.flatMap_def, hbytes, ← List.flatMap_def]
    exact (hperm.flatMap_right _).length_eq
  · intro hlog
    rw [hlog] at htarget
    exact ⟨_, hnodup, hmem, _, hlines _, htarget⟩

end ConcurrentCalls

end

/-! ## One recorder -/

section

variable [UuidCrate] [Crates] {ι : Type}

/-- **Calls made at the same time through one recorder.** -/
def TraceRecorder.concurrentCalls (recorder : TraceRecorder) (request : ι → Request)
    (uuid : ι ↪ Vector UInt8 16) : ConcurrentCalls ι where
  path := recorder.path
  recorder _ := recorder
  request := request
  uuid := uuid
  path_eq _ := rfl
  uuid_injective := uuid.injective

/-- **When one recorder loses nothing.** Calls made at the same time through
one recorder, all of which return `Ok`, leave every record once exactly when no
call renames – which it does at its sixth turn – between the first and the
sixth turn of another. -/
theorem TraceRecorder.nothing_lost_iff [DecidableEq ι] (recorder : TraceRecorder)
    (request : ι → Request) (uuid : ι ↪ Vector UInt8 16) (fs : FileSystem PathBuf)
    (schedule : List (ι × Option Fault))
    (hok : ConcurrentCalls.AllOk
      (((recorder.concurrentCalls request uuid).start fs).run schedule)) :
    (recorder.concurrentCalls request uuid).HoldsEachOnce fs
        (((recorder.concurrentCalls request uuid).start fs).run schedule).fs ↔
      ¬ AppendCell.Overlap (turnMarks (schedule.map Prod.fst)) :=
  (recorder.concurrentCalls request uuid).holdsEachOnce_iff fs schedule hok

end

namespace Fixture

/-- The trace and the observation of the fixtures, each recorded by one of two
calls. -/
def requests : Fin 2 → Request := ![.trace trace, .observation observation]

/-- The UUIDs the two calls draw. -/
def uuids : Fin 2 ↪ Vector UInt8 16 :=
  ⟨![Vector.replicate 16 0, Vector.replicate 16 1], by decide⟩

/-- The two calls, one after the other. -/
def sequential : List (Fin 2 × Option Fault) :=
  [0, 0, 0, 0, 0, 0, 1, 1, 1, 1, 1, 1].map (fun i => (i, none))

/-- The second call, between the read and the rename of the first. -/
def overlapping : List (Fin 2 × Option Fault) :=
  [0, 0, 0, 0, 0, 1, 1, 1, 1, 1, 1, 0].map (fun i => (i, none))

end Fixture

open Fixture in
/-- One after the other, the two calls lose nothing. -/
theorem TraceRecorder.nothing_lost_iff_fixture :
    ConcurrentCalls.AllOk (((recorder.concurrentCalls requests uuids).start
      (fun _ => none)).run sequential) ∧
    ((recorder.concurrentCalls requests uuids).HoldsEachOnce (fun _ => none)
        (((recorder.concurrentCalls requests uuids).start (fun _ => none)).run sequential).fs ↔
      ¬ AppendCell.Overlap (turnMarks (sequential.map Prod.fst))) := by
  have hok : ConcurrentCalls.AllOk (((recorder.concurrentCalls requests uuids).start
      (fun _ => none)).run sequential) := by
    intro i
    fin_cases i
    · rfl
    · rfl
  exact ⟨hok, recorder.nothing_lost_iff requests uuids _ sequential hok⟩

open Fixture in
/-- **A lost update.** Two calls through one recorder both return `Ok`, and the
target holds the line of the first only, so not the records of both. -/
theorem TraceRecorder.lost_update :
    ConcurrentCalls.AllOk (((recorder.concurrentCalls requests uuids).start
      (fun _ => none)).run overlapping) ∧
    (((recorder.concurrentCalls requests uuids).start (fun _ => none)).run overlapping).fs
      recorder.path = (recorder.lineOf (requests 0)).toOption ∧
    ¬ (recorder.concurrentCalls requests uuids).HoldsEachOnce (fun _ => none)
        (((recorder.concurrentCalls requests uuids).start (fun _ => none)).run overlapping).fs := by
  have hok : ConcurrentCalls.AllOk (((recorder.concurrentCalls requests uuids).start
      (fun _ => none)).run overlapping) := by
    intro i
    fin_cases i
    · rfl
    · rfl
  refine ⟨hok, rfl, fun hholds => ?_⟩
  have hnone := ((recorder.concurrentCalls requests uuids).holdsEachOnce_iff
    (fun _ => none) overlapping hok).mp hholds
  exact hnone ⟨0, 1, by decide, by decide⟩
