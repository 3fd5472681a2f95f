import NautilusAgents.FileProgram

/-!
# Runs that differ in bytes only

A program that copies bytes from one file to another and never looks at them
does the same whatever they are. Two programs are alike when they agree on each
operation up to the bytes it writes, and go on alike after outcomes that agree
up to the bytes that were read (`FileProgram.Alike`). Run on file systems that
have the same files, and through the same faults, they return the same result
and leave the same files (`FileProgram.Alike.run`): a fault is met by its
position, and whether an operation succeeds depends on which files are there.
-/

variable {Path : Type} {α β : Type}

/-- Two file systems have the same files. -/
def SameFiles (fs fs' : FileSystem Path) : Prop := ∀ path, (fs path).isSome = (fs' path).isSome

/-- **Outcomes that differ in the bytes that were read only.** -/
inductive SameOutcome : Except IoError (List UInt8) → Except IoError (List UInt8) → Prop where
  | ok (bytes bytes' : List UInt8) : SameOutcome (.ok bytes) (.ok bytes')
  | error (e : IoError) : SameOutcome (.error e) (.error e)

/-- **Operations that differ in the bytes they write only.** -/
inductive FileOp.Alike : FileOp Path → FileOp Path → Prop where
  | read (path : Path) : FileOp.Alike (.read path) (.read path)
  | createNew (path : Path) : FileOp.Alike (.createNew path) (.createNew path)
  | writeAll (path : Path) (bytes bytes' : List UInt8) :
    FileOp.Alike (.writeAll path bytes) (.writeAll path bytes')
  | syncAll (path : Path) : FileOp.Alike (.syncAll path) (.syncAll path)
  | rename (source target : Path) : FileOp.Alike (.rename source target) (.rename source target)
  | removeFile (path : Path) : FileOp.Alike (.removeFile path) (.removeFile path)

/-- **Programs that differ in bytes only.** -/
inductive FileProgram.Alike : FileProgram Path α → FileProgram Path α → Prop where
  | done (result : α) : FileProgram.Alike (.done result) (.done result)
  | perform {op op' : FileOp Path}
    {next next' : Except IoError (List UInt8) → FileProgram Path α} (hop : FileOp.Alike op op')
    (hnext : ∀ r r', SameOutcome r r' → FileProgram.Alike (next r) (next' r')) :
    FileProgram.Alike (.perform op next) (.perform op' next')

namespace SameFiles

variable {fs fs' : FileSystem Path}

/-- A file is in neither of them, or in both. -/
theorem cases (h : SameFiles fs fs') (path : Path) :
    (fs path = none ∧ fs' path = none) ∨
      ∃ content content', fs path = some content ∧ fs' path = some content' := by
  have hpath := h path
  cases hfs : fs path with
  | none =>
    rw [hfs, Option.isSome_none, eq_comm, Option.isSome_eq_false_iff, Option.isNone_iff_eq_none]
      at hpath
    exact .inl ⟨rfl, hpath⟩
  | some content =>
    rw [hfs, Option.isSome_some, eq_comm, Option.isSome_iff_exists] at hpath
    obtain ⟨content', hcontent'⟩ := hpath
    exact .inr ⟨content, content', rfl, hcontent'⟩

variable [DecidableEq Path]

theorem update (h : SameFiles fs fs') (path : Path) {content content' : Option (List UInt8)}
    (hcontent : content.isSome = content'.isSome) :
    SameFiles (Function.update fs path content) (Function.update fs' path content') := by
  intro other
  by_cases hother : other = path
  · rw [hother, Function.update_self, Function.update_self]
    exact hcontent
  · rw [Function.update_of_ne hother, Function.update_of_ne hother]
    exact h other

/-- Appending makes no file and removes none. -/
theorem append (h : SameFiles fs fs') (path : Path) (bytes bytes' : List UInt8) :
    SameFiles (fs.append path bytes) (fs'.append path bytes') := by
  unfold FileSystem.append
  rcases h.cases path with ⟨hfs, hfs'⟩ | ⟨content, content', hfs, hfs'⟩
  · rw [hfs, hfs']
    exact h
  · rw [hfs, hfs']
    exact h.update path rfl

end SameFiles

variable [DecidableEq Path] {fs fs' : FileSystem Path}

/-- **Which files are there decides what an operation does.** -/
theorem FileOp.Alike.perform {op op' : FileOp Path} (h : FileOp.Alike op op')
    (hfs : SameFiles fs fs') (fault : Option Fault) :
    SameOutcome (op.perform fault fs).fst (op'.perform fault fs').fst ∧
      SameFiles (op.perform fault fs).snd (op'.perform fault fs').snd := by
  cases h with
  | read path =>
    cases hfault : fault.filter (fun f => f.error.kind ≠ .notFound) with
    | some f =>
      simp only [FileOp.perform, hfault]
      exact ⟨.error f.error, hfs⟩
    | none =>
      rcases hfs.cases path with ⟨hp, hp'⟩ | ⟨bytes, bytes', hp, hp'⟩
      · simp only [FileOp.perform, hfault, hp, hp']
        exact ⟨.error notFoundError, hfs⟩
      · simp only [FileOp.perform, hfault, hp, hp']
        exact ⟨.ok bytes bytes', hfs⟩
  | createNew path =>
    cases fault with
    | some f => exact ⟨.error f.error, hfs⟩
    | none =>
      rcases hfs.cases path with ⟨hp, hp'⟩ | ⟨bytes, bytes', hp, hp'⟩
      · simp only [FileOp.perform, hp, hp']
        exact ⟨.ok [] [], hfs.update path rfl⟩
      · simp only [FileOp.perform, hp, hp']
        exact ⟨.error alreadyExistsError, hfs⟩
  | writeAll path bytes bytes' =>
    cases fault with
    | some f => exact ⟨.error f.error, hfs.append path _ _⟩
    | none => exact ⟨.ok [] [], hfs.append path _ _⟩
  | syncAll path =>
    cases fault with
    | some f => exact ⟨.error f.error, hfs⟩
    | none => exact ⟨.ok [] [], hfs⟩
  | rename source target =>
    cases fault with
    | some f => exact ⟨.error f.error, hfs⟩
    | none =>
      rcases hfs.cases source with ⟨hp, hp'⟩ | ⟨bytes, bytes', hp, hp'⟩
      · simp only [FileOp.perform, hp, hp']
        exact ⟨.error notFoundError, hfs⟩
      · simp only [FileOp.perform, hp, hp']
        exact ⟨.ok [] [], (hfs.update source rfl).update target rfl⟩
  | removeFile path =>
    cases fault with
    | some f => exact ⟨.error f.error, hfs⟩
    | none =>
      rcases hfs.cases path with ⟨hp, hp'⟩ | ⟨bytes, bytes', hp, hp'⟩
      · simp only [FileOp.perform, hp, hp']
        exact ⟨.error notFoundError, hfs⟩
      · simp only [FileOp.perform, hp, hp']
        exact ⟨.ok [] [], hfs.update path rfl⟩

namespace FileProgram.Alike

variable {program program' : FileProgram Path α}

omit [DecidableEq Path] in
/-- Alike programs go on alike after one another. -/
theorem bind (h : program.Alike program') {f : α → FileProgram Path β} {f' : α → FileProgram Path β}
    (hf : ∀ result, (f result).Alike (f' result)) : (program.bind f).Alike (program'.bind f') := by
  induction h with
  | done result => exact hf result
  | perform hop hnext ih => exact .perform hop ih

/-- **Alike programs run alike.** The induction is on the programs. -/
theorem run (h : program.Alike program') (hfs : SameFiles fs fs') (faults : ℕ → Option Fault) :
    (program.run faults fs).result = (program'.run faults fs').result ∧
      SameFiles (program.run faults fs).fs (program'.run faults fs').fs := by
  induction h generalizing fs fs' faults with
  | done result => exact ⟨rfl, hfs⟩
  | perform hop hnext ih =>
    obtain ⟨houtcome, hafter⟩ := hop.perform hfs (faults 0)
    exact ih _ _ houtcome hafter (fun n => faults (n + 1))

end FileProgram.Alike
