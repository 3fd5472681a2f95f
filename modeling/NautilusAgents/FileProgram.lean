import Mathlib

/-!
# Programs over a file system

A file system is a map from paths to bytes, and a program over it performs one
operation after another, each chosen from the results of those before. Any
operation may fail, for any reason and at any time, and a failing write may
have written a part of its bytes; a rename replaces its target in one step.

A program has two semantics. Run alone (`FileProgram.run`), its operations
follow one another, and the run records each with the file system after it. In
a pool (`Pool.run`), the programs of several parties take turns, one operation
at a time, in the order of a schedule. Both come with one rule: what every
operation preserves holds throughout (`FileProgram.run_invariant`,
`Pool.run_invariant`).

Paths are of any type. Two paths are two files: links and other names of one
file are not part of this.
-/

/-- The category of an I/O error. The two that are looked at have a name of
their own. -/
inductive ErrorKind where
  | notFound
  | alreadyExists
  | invalidInput
  | other (name : String)
  deriving DecidableEq

/-- An I/O error. -/
structure IoError where
  /-- The kind of the error, which programs tell errors by. -/
  kind : ErrorKind
  /-- Its text. -/
  message : String
  deriving DecidableEq

/-- The error of an operation on a file that is not there. -/
def notFoundError : IoError := ⟨.notFound, "No such file or directory"⟩

/-- The error of creating a file that is there. -/
def alreadyExistsError : IoError := ⟨.alreadyExists, "File exists"⟩

/-- **A file system**: the bytes of each file that exists. -/
abbrev FileSystem (Path : Type) := Path → Option (List UInt8)

/-- An operation on files. -/
inductive FileOp (Path : Type) where
  | read (path : Path)
  | createNew (path : Path)
  | writeAll (path : Path) (bytes : List UInt8)
  | syncAll (path : Path)
  | rename (source target : Path)
  | removeFile (path : Path)

/-- **A fault**: the error an operation fails with, and how many bytes a write
has written by then. -/
structure Fault where
  /-- The error the operation fails with. -/
  error : IoError
  /-- How many bytes are written before it fails. -/
  written : ℕ
  deriving DecidableEq

variable {Path : Type} [DecidableEq Path]

namespace FileSystem

/-- Append to a file that exists. -/
def append (fs : FileSystem Path) (path : Path) (bytes : List UInt8) : FileSystem Path :=
  match fs path with
  | some content => Function.update fs path (some (content ++ bytes))
  | none => fs

/-- Appending to a file leaves the others alone. -/
theorem append_of_ne (fs : FileSystem Path) {path other : Path} (bytes : List UInt8)
    (h : other ≠ path) : fs.append path bytes other = fs other := by
  unfold append
  cases fs path with
  | none => rfl
  | some content => exact Function.update_of_ne h _ _

theorem append_self {fs : FileSystem Path} {path : Path} {content : List UInt8}
    (h : fs path = some content) (bytes : List UInt8) :
    fs.append path bytes path = some (content ++ bytes) := by
  simp only [append, h]
  exact Function.update_self _ _ _

end FileSystem

namespace FileOp

/-- **Perform an operation**, with the fault it meets, if any. Reading a file
that is not there fails with `notFound`, and only then. -/
def perform (fault : Option Fault) (fs : FileSystem Path) :
    FileOp Path → Except IoError (List UInt8) × FileSystem Path
  | read path =>
    match fault.filter (fun f => f.error.kind ≠ .notFound), fs path with
    | some f, _ => (.error f.error, fs)
    | none, some bytes => (.ok bytes, fs)
    | none, none => (.error notFoundError, fs)
  | createNew path =>
    match fault, fs path with
    | some f, _ => (.error f.error, fs)
    | none, none => (.ok [], Function.update fs path (some []))
    | none, some _ => (.error alreadyExistsError, fs)
  | writeAll path bytes =>
    match fault with
    | some f => (.error f.error, fs.append path (bytes.take f.written))
    | none => (.ok [], fs.append path bytes)
  | syncAll _ =>
    match fault with
    | some f => (.error f.error, fs)
    | none => (.ok [], fs)
  | rename source target =>
    match fault, fs source with
    | some f, _ => (.error f.error, fs)
    | none, some bytes =>
      (.ok [], Function.update (Function.update fs source none) target (some bytes))
    | none, none => (.error notFoundError, fs)
  | removeFile path =>
    match fault, fs path with
    | some f, _ => (.error f.error, fs)
    | none, some _ => (.ok [], Function.update fs path none)
    | none, none => (.error notFoundError, fs)

end FileOp

/-! ## Programs -/

/-- **A program over files**: a result, or an operation and what to do with
its outcome. -/
inductive FileProgram (Path α : Type) where
  | done (result : α)
  | perform (op : FileOp Path) (next : Except IoError (List UInt8) → FileProgram Path α)

/-- An operation that has been performed, with the file system after it. -/
structure FileEvent (Path : Type) where
  /-- The operation. -/
  op : FileOp Path
  /-- What it returned. -/
  result : Except IoError (List UInt8)
  /-- The file system after it. -/
  after : FileSystem Path

/-- The event of performing an operation. -/
def FileOp.event (op : FileOp Path) (fault : Option Fault) (fs : FileSystem Path) :
    FileEvent Path :=
  ⟨op, (op.perform fault fs).fst, (op.perform fault fs).snd⟩

namespace FileOp

/-! What an operation can do, whatever fault it meets. -/

/-- Reading succeeds with what the file holds, fails with `notFound` on a file
that is not there, or fails otherwise; it changes nothing. -/
theorem event_read (fault : Option Fault) (fs : FileSystem Path) (path : Path) :
    ∃ r, (read path).event fault fs = ⟨read path, r, fs⟩ ∧
      ((∃ bytes, r = .ok bytes ∧ fs path = some bytes) ∨
        (∃ e, r = .error e ∧ e.kind = .notFound ∧ fs path = none) ∨
        ∃ e, r = .error e ∧ e.kind ≠ .notFound) := by
  cases hf : fault.filter (fun f => f.error.kind ≠ .notFound) with
  | some f =>
    have hkind := (Option.filter_eq_some_iff.mp hf).2
    exact ⟨_, by simp only [event, perform, hf],
      Or.inr (Or.inr ⟨f.error, rfl, of_decide_eq_true hkind⟩)⟩
  | none =>
    cases hp : fs path with
    | some bytes => exact ⟨_, by simp only [event, perform, hf, hp], Or.inl ⟨bytes, rfl, rfl⟩⟩
    | none =>
      exact ⟨_, by simp only [event, perform, hf, hp],
        Or.inr (Or.inl ⟨notFoundError, rfl, rfl, rfl⟩)⟩

/-- Creating succeeds on a file that is not there, or changes nothing. -/
theorem event_createNew (fault : Option Fault) (fs : FileSystem Path) (path : Path) :
    (∃ e, (createNew path).event fault fs = ⟨createNew path, .error e, fs⟩) ∨
      (fs path = none ∧ (createNew path).event fault fs
        = ⟨createNew path, .ok [], Function.update fs path (some [])⟩) := by
  cases fault with
  | some f => exact Or.inl ⟨f.error, rfl⟩
  | none =>
    cases hp : fs path with
    | some bytes => exact Or.inl ⟨alreadyExistsError, by simp only [event, perform, hp]⟩
    | none => exact Or.inr ⟨rfl, by simp only [event, perform, hp]⟩

/-- Writing appends all the bytes, or fails and changes no other file. -/
theorem event_writeAll (fault : Option Fault) (fs : FileSystem Path) (path : Path)
    (bytes : List UInt8) :
    (∃ e after, (writeAll path bytes).event fault fs = ⟨writeAll path bytes, .error e, after⟩ ∧
        ∀ other, other ≠ path → after other = fs other) ∨
      (writeAll path bytes).event fault fs
        = ⟨writeAll path bytes, .ok [], fs.append path bytes⟩ := by
  cases fault with
  | some f =>
    exact Or.inl ⟨f.error, _, rfl, fun other h => fs.append_of_ne (bytes.take f.written) h⟩
  | none => exact Or.inr rfl

/-- Syncing changes nothing. -/
theorem event_syncAll (fault : Option Fault) (fs : FileSystem Path) (path : Path) :
    (∃ e, (syncAll path).event fault fs = ⟨syncAll path, .error e, fs⟩) ∨
      (syncAll path).event fault fs = ⟨syncAll path, .ok [], fs⟩ := by
  cases fault with
  | some f => exact Or.inl ⟨f.error, rfl⟩
  | none => exact Or.inr rfl

/-- **A rename replaces its target in one step**, or changes nothing. -/
theorem event_rename (fault : Option Fault) (fs : FileSystem Path) (source target : Path) :
    (∃ e, (rename source target).event fault fs = ⟨rename source target, .error e, fs⟩) ∨
      ∃ bytes, fs source = some bytes ∧ (rename source target).event fault fs
        = ⟨rename source target, .ok [],
          Function.update (Function.update fs source none) target (some bytes)⟩ := by
  cases fault with
  | some f => exact Or.inl ⟨f.error, rfl⟩
  | none =>
    cases hp : fs source with
    | some bytes => exact Or.inr ⟨bytes, rfl, by simp only [event, perform, hp]⟩
    | none => exact Or.inl ⟨notFoundError, by simp only [event, perform, hp]⟩

/-- Removing a file changes no other, and leaves it where it fails. -/
theorem event_removeFile (fault : Option Fault) (fs : FileSystem Path) (path : Path) :
    (∃ e, (removeFile path).event fault fs = ⟨removeFile path, .error e, fs⟩) ∨
      (removeFile path).event fault fs
        = ⟨removeFile path, .ok [], Function.update fs path none⟩ := by
  cases fault with
  | some f => exact Or.inl ⟨f.error, rfl⟩
  | none =>
    cases hp : fs path with
    | some bytes => exact Or.inr (by simp only [event, perform, hp])
    | none => exact Or.inl ⟨notFoundError, by simp only [event, perform, hp]⟩

end FileOp

/-- What a program that ran alone leaves. -/
structure FileRun (Path α : Type) where
  /-- What the program returned. -/
  result : α
  /-- The operations it performed, in order. -/
  events : List (FileEvent Path)
  /-- The file system it left. -/
  fs : FileSystem Path

namespace FileProgram

variable {α β : Type}

/-- One program after another. -/
def bind (f : α → FileProgram Path β) : FileProgram Path α → FileProgram Path β
  | done result => f result
  | perform op next => perform op (fun r => bind f (next r))

/-- **Run a program alone.** The operation at position `n` meets the fault at
position `n`. -/
def run : FileProgram Path α → (ℕ → Option Fault) → FileSystem Path → FileRun Path α
  | done result, _, fs => ⟨result, [], fs⟩
  | perform op next, faults, fs =>
    let event := op.event (faults 0) fs
    let rest := run (next event.result) (fun n => faults (n + 1)) event.after
    ⟨rest.result, event :: rest.events, rest.fs⟩

/-- **What every operation preserves holds at the end of a run.** The
invariant may speak of the operations performed so far. -/
theorem run_invariant (inv : List (FileEvent Path) → FileProgram Path α → FileSystem Path → Prop)
    (hstep : ∀ events op next fs fault, inv events (perform op next) fs →
      inv (events ++ [op.event fault fs]) (next (op.event fault fs).result)
        (op.event fault fs).after)
    (program : FileProgram Path α) (faults : ℕ → Option Fault) (fs : FileSystem Path)
    (events : List (FileEvent Path)) (h : inv events program fs) :
    inv (events ++ (program.run faults fs).events) (done (program.run faults fs).result)
      (program.run faults fs).fs := by
  induction program generalizing events faults fs with
  | done result =>
    unfold run
    rw [List.append_nil]
    exact h
  | perform op next ih =>
    unfold run
    rw [List.append_cons]
    exact ih _ _ _ _ (hstep events op next fs (faults 0) h)

end FileProgram

/-! ## Pools -/

/-- **A pool**: programs that share a file system, with the operations
performed so far. -/
structure Pool (ι Path α : Type) where
  /-- The file system they share. -/
  fs : FileSystem Path
  /-- What is left of each program. -/
  programs : ι → FileProgram Path α
  /-- The operations performed so far, each with its program. -/
  events : List (ι × FileEvent Path)

namespace Pool

variable {ι α : Type} [DecidableEq ι]

/-- One program of the pool performs its next operation; a program that is
done does nothing. -/
def step (pool : Pool ι Path α) (turn : ι × Option Fault) : Pool ι Path α :=
  match pool.programs turn.fst with
  | .done _ => pool
  | .perform op next =>
    let event := op.event turn.snd pool.fs
    { fs := event.after
      programs := Function.update pool.programs turn.fst (next event.result)
      events := pool.events ++ [(turn.fst, event)] }

/-- **Run a pool** in the order of a schedule. -/
def run (pool : Pool ι Path α) (schedule : List (ι × Option Fault)) : Pool ι Path α :=
  schedule.foldl step pool

/-- A pool before its programs have performed anything. -/
def start (fs : FileSystem Path) (programs : ι → FileProgram Path α) : Pool ι Path α :=
  ⟨fs, programs, []⟩

theorem run_concat (pool : Pool ι Path α) (schedule : List (ι × Option Fault))
    (turn : ι × Option Fault) : pool.run (schedule ++ [turn]) = (pool.run schedule).step turn := by
  unfold run
  rw [List.foldl_append]
  rfl

/-- **What every turn preserves holds after every schedule.** The invariant
may speak of the turns taken so far. -/
theorem run_invariant (inv : List (ι × Option Fault) → Pool ι Path α → Prop)
    (hstep : ∀ schedule pool turn, inv schedule pool → inv (schedule ++ [turn]) (pool.step turn))
    {pool : Pool ι Path α} (h : inv [] pool) (schedule : List (ι × Option Fault)) :
    inv schedule (pool.run schedule) := by
  induction schedule using List.reverseRecOn with
  | nil => exact h
  | append_singleton schedule turn ih =>
    rw [run_concat]
    exact hstep schedule _ turn ih

end Pool
