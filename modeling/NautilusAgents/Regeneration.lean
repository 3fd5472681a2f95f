import NautilusAgents.Conformance
import NautilusAgents.Redo

/-!
# Generation that is interrupted

The tool writes the contract in place, file after file, and any of its
operations may fail: a fixture is not read, a directory is created in part, a
file is emptied and then filled with a beginning of its content. A run stops
where it fails, and who runs it stops it anywhere. Then the contract on disk is
neither what it was nor what is generated.

Running the tool again repairs that, and leaves no mark of what went before:
after any number of such attempts the run that is left undisturbed ends as it
would have ended in the first place, with the same result and the same tree,
entry for entry (`ContractSchema.generate_after_attempts`). A file that was
written is written again to no effect, and one that was cut short is written
anew (`Stopping.exec_forM_redo`).

Until then two things can be relied on. Nothing but the generated files is
touched, and each of them holds what it held or a beginning of what is
generated. And the manifest, which is written last, is touched only by an
attempt that is through with all others: a build finds another contract digest
than before only where everything the digest covers is in place.
-/

namespace ContractSchema

/-- **What can go wrong with a file that is written.** Its directory is not
created, but only the first names on the way to it; the file is not opened; or
it is, and takes a part of the content. -/
inductive WriteFault where
  | createDirectory (made : ℕ)
  | openFile
  | writeAll (written : ℕ)

/-- **What can disturb a run of the tool**: the manifest is not computed, since a
fixture written by hand is not read; a generated file is not written; or the
names in a directory are not read. -/
inductive Disturbance where
  | manifest (error : ToolError)
  | write (path : String) (fault : WriteFault) (error : IoError)
  | names (error : ToolError)

/-- Write a file under a fault, and stop. -/
def writeFileFaulty (fault : WriteFault) (error : IoError) (path : List OsStr)
    (bytes : List UInt8) : Tool Unit := do
  match fault with
  | .createDirectory made =>
    Stopping.update (fun tree =>
      (tree.createDirAll (path.dropLast.take made)).mapError .createDirectory)
    throw (.createDirectory error)
  | .openFile =>
    Stopping.update (fun tree => (tree.createDirAll path.dropLast).mapError .createDirectory)
    throw (.writeFile path error)
  | .writeAll written =>
    writeFile path (bytes.take written)
    throw (.writeFile path error)

/-- Write a generated file, which may be the one that the disturbance is of. -/
def writeFileUnder (disturbance : Option Disturbance) (file : String × List UInt8) : Tool Unit :=
  match disturbance with
  | some (.write path fault error) =>
    if file.fst = path then writeFileFaulty fault error (contractPath file.fst) file.snd
    else writeFile (contractPath file.fst) file.snd
  | _ => writeFile (contractPath file.fst) file.snd

/-- Look at the names, where that is not what the disturbance is of. -/
def checkExpectedNamesUnder (disturbance : Option Disturbance) (schemas fixtures : List Asset)
    (tree : Tree) : Except ToolError Unit :=
  match disturbance with
  | some (.names error) => .error error
  | _ => checkExpectedNames schemas fixtures tree

/-- Write the generated files under a disturbance. -/
def writeAssetsUnder (disturbance : Option Disturbance) (schemas fixtures : List Asset)
    (fields manifest : List UInt8) : Tool Unit := do
  (schemas ++ fixtures).forM (fun asset => writeFileUnder disturbance (asset.path, asset.bytes))
  writeFileUnder disturbance ("fields.toml", fields)
  writeFileUnder disturbance ("manifest.json", manifest)
  Stopping.inspect (checkExpectedNamesUnder disturbance schemas fixtures)

/-- **A run of the tool that generates, under a disturbance.** -/
def generateUnder [Crates] [PrettyCrate] (disturbance : Option Disturbance)
    (schemas fixtures : List Asset) (fields : List UInt8) (tree : Tree) :
    Except ToolError Unit × Tree :=
  match disturbance with
  | some (.manifest error) => (.error error, tree)
  | _ => match manifestBytes schemas fixtures tree with
    | .error e => (.error e, tree)
    | .ok manifest => (writeAssetsUnder disturbance schemas fixtures fields manifest).exec tree

/-- Undisturbed, the run is that of the tool. -/
theorem generateUnder_none [Crates] [PrettyCrate] (schemas fixtures : List Asset)
    (fields : List UInt8) (tree : Tree) :
    generateUnder none schemas fixtures fields tree
      = main schemas fixtures fields (some "generate") tree := by
  unfold main
  rw [Option.getD_some, if_neg (by decide)]
  rfl

/-! ## What a file that is written may leave -/

/-- **What may be left of a file that is written**: nothing, the first of its
directories, or all of them and a beginning of its content. -/
inductive Leaves (path : List OsStr) (bytes : List UInt8) (tree : Tree) : Tree → Prop where
  | nothing : Leaves path bytes tree tree
  | directories {made : ℕ} {left : Tree}
      (created : tree.createDirAll (path.dropLast.take made) = .ok left) :
      Leaves path bytes tree left
  | content {part : List UInt8} {parents left : Tree} (beginning : part <+: bytes)
      (created : tree.createDirAll path.dropLast = .ok parents)
      (written : parents.write part path = .ok left) : Leaves path bytes tree left

section Leaves

variable {path : List OsStr} {bytes : List UInt8} {tree left : Tree}

/-- Where the directory can be created, the file is written in it. -/
theorem exec_writeFile_of_created {parents : Tree} (bytes : List UInt8)
    (h : tree.createDirAll path.dropLast = .ok parents) :
    (writeFile path bytes).exec tree
      = (Stopping.update (fun t => (t.write bytes path).mapError (.writeFile path))).exec parents :=
  Stopping.exec_bind_of_ok
    (Stopping.exec_update_of_ok (Except.mapError_eq_ok_iff.mpr h)) _

theorem exec_writeFile_of_error {e : IoError} (bytes : List UInt8)
    (h : tree.createDirAll path.dropLast = .error e) :
    (writeFile path bytes).exec tree = (.error (.createDirectory e), tree) := by
  refine Stopping.exec_bind_of_error (Stopping.exec_update_of_error ?_) _
  rw [h]
  rfl

/-- **What a write leaves**, of the whole content or of a part. -/
theorem leaves_writeFile {part : List UInt8} (hpart : part <+: bytes) (path : List OsStr)
    (tree : Tree) : Leaves path bytes tree ((writeFile path part).exec tree).snd := by
  cases hcreate : tree.createDirAll path.dropLast with
  | error e =>
    rw [exec_writeFile_of_error part hcreate]
    exact .nothing
  | ok parents =>
    rw [exec_writeFile_of_created part hcreate]
    cases hwrite : parents.write part path with
    | error e =>
      have herror : (parents.write part path).mapError (ToolError.writeFile path)
          = .error (.writeFile path e) := by
        rw [hwrite]
        rfl
      rw [Stopping.exec_update_of_error herror]
      rw [← List.take_length (l := path.dropLast)] at hcreate
      exact .directories hcreate
    | ok written =>
      rw [Stopping.exec_update_of_ok (Except.mapError_eq_ok_iff.mpr hwrite)]
      exact .content hpart hcreate hwrite

/-- What the creation of the first of its directories leaves. -/
theorem leaves_createDirAll (path : List OsStr) (bytes : List UInt8) (tree : Tree) (made : ℕ) :
    Leaves path bytes tree ((Stopping.update (fun t : Tree =>
      (t.createDirAll (path.dropLast.take made)).mapError ToolError.createDirectory)).exec
        tree).snd := by
  cases hcreate : tree.createDirAll (path.dropLast.take made) with
  | error e =>
    have herror : (tree.createDirAll (path.dropLast.take made)).mapError
        ToolError.createDirectory = .error (.createDirectory e) := by
      rw [hcreate]
      rfl
    rw [Stopping.exec_update_of_error herror]
    exact .nothing
  | ok left =>
    rw [Stopping.exec_update_of_ok (Except.mapError_eq_ok_iff.mpr hcreate)]
    exact .directories hcreate

/-- **What a fault leaves.** -/
theorem leaves_writeFileFaulty (fault : WriteFault) (error : IoError) (path : List OsStr)
    (bytes : List UInt8) (tree : Tree) :
    Leaves path bytes tree ((writeFileFaulty fault error path bytes).exec tree).snd := by
  cases fault with
  | createDirectory made =>
    exact (Stopping.exec_throw_snd _ _ tree).symm ▸ leaves_createDirAll path bytes tree made
  | openFile =>
    have hall := leaves_createDirAll path bytes tree path.dropLast.length
    rw [List.take_length] at hall
    exact (Stopping.exec_throw_snd _ _ tree).symm ▸ hall
  | writeAll written =>
    exact (Stopping.exec_throw_snd _ _ tree).symm
      ▸ leaves_writeFile (List.take_prefix written bytes) path tree

/-- **Whatever was left, the file can be written** as it could have been at
once. -/
theorem Leaves.again (hne : path ≠ []) (h : Leaves path bytes tree left) :
    (writeFile path bytes).exec left = (writeFile path bytes).exec tree := by
  cases h with
  | nothing => rfl
  | @directories made _ created =>
    -- what stands in the way of the directory was there before
    obtain ⟨hagain, hnew⟩ := FileTree.createDirAll_append (path.dropLast.drop made) created
    rw [List.take_append_drop] at hagain hnew
    obtain rfl | ⟨parents, hparents⟩ := hnew
    · rfl
    · rw [exec_writeFile_of_created bytes hparents,
        exec_writeFile_of_created bytes (hagain.trans hparents)]
  | @content part parents _ beginning created written =>
    obtain ⟨whole, hfirst, hagain⟩ := FileTree.exists_write_again bytes written
    obtain ⟨entries, hdirectory⟩ :=
      FileTree.exists_find_dropLast hne (FileTree.find_write_self written)
    rw [exec_writeFile_of_created bytes (FileTree.createDirAll_eq_self hdirectory),
      exec_writeFile_of_created bytes created,
      Stopping.exec_update_of_ok (Except.mapError_eq_ok_iff.mpr hagain),
      Stopping.exec_update_of_ok (Except.mapError_eq_ok_iff.mpr hfirst)]

/-- **What lies apart is left as it was.** -/
theorem Leaves.find {q : List OsStr} (h : Leaves path bytes tree left)
    (hq : FileTree.Apart path q) : left.find q = tree.find q := by
  have habove : ∀ directories : List OsStr, directories <+: path → ¬ q <+: directories :=
    fun _ hbegins hq' => hq.2 (hq'.trans hbegins)
  have hdropLast := List.dropLast_prefix path
  cases h with
  | nothing => rfl
  | directories created =>
    exact FileTree.find_createDirAll created
      (habove _ ((List.take_prefix _ _).trans hdropLast))
  | content beginning created written =>
    rw [FileTree.find_write written hq,
      FileTree.find_createDirAll created (habove _ hdropLast)]

/-- **The file itself holds what it held, or a beginning of its content.** -/
theorem Leaves.find_self (hne : path ≠ []) (h : Leaves path bytes tree left) :
    left.find path = tree.find path
      ∨ ∃ part, part <+: bytes ∧ left.find path = .ok (.file part) := by
  cases h with
  | nothing => exact .inl rfl
  | directories created =>
    refine .inl (FileTree.find_createDirAll created (fun hbegins => ?_))
    have hle := (hbegins.trans (List.take_prefix _ _)).length_le
    rw [List.length_dropLast] at hle
    exact absurd hle (not_le.mpr (Nat.sub_lt (List.length_pos_iff.mpr hne) Nat.one_pos))
  | content beginning created written =>
    exact .inr ⟨_, beginning, FileTree.find_write_self written⟩

end Leaves

/-! ## Attempts at a file -/

theorem contractPath_ne_nil (path : String) : contractPath path ≠ [] :=
  List.append_ne_nil_of_left_ne_nil (components_ne_nil contractDir) _

theorem leaves_writeFileUnder (disturbance : Option Disturbance) (x : String × List UInt8)
    (tree : Tree) :
    Leaves (contractPath x.fst) x.snd tree ((writeFileUnder disturbance x).exec tree).snd := by
  have hwhole := leaves_writeFile (List.prefix_refl x.snd) (contractPath x.fst) tree
  unfold writeFileUnder
  split
  · split_ifs
    · exact leaves_writeFileFaulty _ _ _ _ _
    · exact hwhole
  · exact hwhole

/-- **Writing a file absorbs an attempt at it.** -/
theorem absorbs_writeFileUnder (disturbance : Option Disturbance) (x : String × List UInt8) :
    Stopping.Absorbs (writeFile (contractPath x.fst) x.snd) (writeFileUnder disturbance x) where
  again tree := (leaves_writeFileUnder disturbance x tree).again (contractPath_ne_nil x.fst)
  ok {tree tree'} h := by
    unfold writeFileUnder at h
    split at h
    · split_ifs at h
      · rename_i fault error _
        cases fault <;> exact absurd h (Stopping.exec_throw_ne_ok _ _ tree tree')
      · exact h
    · exact h

/-- **A file is done** where it holds its content. -/
theorem done_writeFile_iff {path : List OsStr} (hne : path ≠ []) {bytes : List UInt8}
    {tree : Tree} : Stopping.Done (writeFile path bytes) tree
      ↔ tree.find path = .ok (.file bytes) :=
  ⟨fun h => (writeFile_eq_ok h).1, fun h => writeFile_eq_self hne h⟩

/-- An attempt at a file that lies apart does not undo it. -/
theorem survives_writeFileUnder (disturbance : Option Disturbance) {x y : String × List UInt8}
    (h : FilesApart x y) :
    Stopping.Survives (writeFile (contractPath x.fst) x.snd) (writeFileUnder disturbance y) := by
  intro tree hdone
  rw [done_writeFile_iff (contractPath_ne_nil x.fst)] at hdone ⊢
  rw [(leaves_writeFileUnder disturbance y tree).find h.symm]
  exact hdone

/-! ## Attempts at the contract -/

/-- Writing the generated files, one by one and with a look at the end. -/
theorem forM_generatedFiles (write : String × List UInt8 → Tool Unit)
    (look : Tree → Except ToolError Unit) (schemas fixtures : List Asset)
    (fields manifest : List UInt8) :
    (do
      (schemas ++ fixtures).forM (fun asset => write (asset.path, asset.bytes))
      write ("fields.toml", fields)
      write ("manifest.json", manifest)
      Stopping.inspect look)
      = (generatedFiles schemas fixtures fields manifest).forM write
        >>= fun _ => Stopping.inspect look := by
  simp only [generatedFiles, List.forM_eq_forM, List.forM_append, List.forM_map, List.forM_cons,
    List.forM_nil, bind_assoc, pure_bind]

namespace Generated

/-- **The generated files but the manifest**, which is computed from them. -/
def files (g : Generated) : List (String × List UInt8) :=
  (g.schemas ++ g.fixtures).map (fun asset => (asset.path, asset.bytes))
    ++ [("fields.toml", g.fields)]

/-- The paths of the generated files. -/
def paths (g : Generated) : List String := g.files.map Prod.fst ++ ["manifest.json"]

/-- The manifest is the last of the generated files. -/
theorem generatedFiles_eq (g : Generated) (manifest : List UInt8) :
    generatedFiles g.schemas g.fixtures g.fields manifest
      = g.files ++ [("manifest.json", manifest)] := by
  unfold generatedFiles files
  rw [List.append_assoc]
  rfl

theorem map_fst_generatedFiles (g : Generated) (manifest : List UInt8) :
    (generatedFiles g.schemas g.fixtures g.fields manifest).map Prod.fst = g.paths := by
  rw [generatedFiles_eq, List.map_append]
  rfl

variable [Crates] [PrettyCrate]

/-- What a disturbed run leaves on disk. -/
def attempt (g : Generated) (tree : Tree) (disturbance : Option Disturbance) : Tree :=
  (generateUnder disturbance g.schemas g.fixtures g.fields tree).snd

/-- **What is left after any number of attempts.** -/
def attempted (g : Generated) (tree : Tree) (attempts : List (Option Disturbance)) : Tree :=
  attempts.foldl g.attempt tree

/-- **What an attempt does**: it stops before it writes, or goes through the
generated files. -/
theorem attempt_cases (g : Generated) (tree : Tree) (disturbance : Option Disturbance) :
    g.attempt tree disturbance = tree ∨ ∃ manifest,
      manifestBytes g.schemas g.fixtures tree = .ok manifest
        ∧ g.attempt tree disturbance
          = (((generatedFiles g.schemas g.fixtures g.fields manifest).forM
              (writeFileUnder disturbance)).exec tree).snd := by
  unfold attempt generateUnder
  split
  · exact .inl rfl
  · cases hmanifest : manifestBytes g.schemas g.fixtures tree with
    | error e => exact .inl rfl
    | ok manifest =>
      refine .inr ⟨manifest, rfl, ?_⟩
      show ((writeAssetsUnder disturbance g.schemas g.fixtures g.fields manifest).exec tree).snd = _
      unfold writeAssetsUnder
      rw [forM_generatedFiles, Stopping.exec_inspect_snd]

/-- **An attempt leaves alone what lies apart from the generated files.** -/
theorem find_attempt (g : Generated) (tree : Tree) (disturbance : Option Disturbance)
    {q : List OsStr} (hq : ∀ path ∈ g.paths, FileTree.Apart (contractPath path) q) :
    (g.attempt tree disturbance).find q = tree.find q := by
  obtain hsame | ⟨manifest, -, hleft⟩ := g.attempt_cases tree disturbance
  · rw [hsame]
  · rw [hleft]
    refine Stopping.forM_keeps (fun t : Tree => t.find q = tree.find q) (fun x hx t ht => ?_) rfl
    have hpath : x.fst ∈ g.paths := by
      rw [← g.map_fst_generatedFiles manifest]
      exact List.mem_map_of_mem hx
    rw [(leaves_writeFileUnder disturbance x t).find (hq x.fst hpath), ht]

/-- The fixtures written by hand lie apart, so that the manifest stays the
same. -/
theorem manifestBytes_attempt (g : Generated) (tree : Tree) (disturbance : Option Disturbance) :
    manifestBytes g.schemas g.fixtures (g.attempt tree disturbance)
      = manifestBytes g.schemas g.fixtures tree := by
  refine manifestBytes_congr (fun fixture _ => read_invalid_congr ?_ fixture)
  refine g.find_attempt tree disturbance (fun path hpath => ?_)
  rw [← g.map_fst_generatedFiles []] at hpath
  obtain ⟨x, hx, rfl⟩ := List.mem_map.mp hpath
  exact apart_generatedFiles_invalid hx

/-- **Generating absorbs an attempt at it.** -/
theorem main_attempt (g : Generated) (tree : Tree) (disturbance : Option Disturbance) :
    main g.schemas g.fixtures g.fields (some "generate") (g.attempt tree disturbance)
      = main g.schemas g.fixtures g.fields (some "generate") tree := by
  obtain hsame | ⟨manifest, hmanifest, hleft⟩ := g.attempt_cases tree disturbance
  · rw [hsame]
  · have hwrite : ∀ t, manifestBytes g.schemas g.fixtures t = .ok manifest →
        main g.schemas g.fixtures g.fields (some "generate") t
          = ((generatedFiles g.schemas g.fixtures g.fields manifest).forM
              (fun x => writeFile (contractPath x.fst) x.snd)
            >>= fun _ => Stopping.inspect (checkExpectedNames g.schemas g.fixtures)).exec t := by
      intro t ht
      rw [← forM_generatedFiles (fun x => writeFile (contractPath x.fst) x.snd)]
      unfold main
      rw [Option.getD_some, if_neg (by decide), ht]
      rfl
    have hredo := Stopping.exec_forM_redo (fun x _ => absorbs_writeFileUnder disturbance x)
      ((pairwise_generatedFiles g manifest).imp (survives_writeFileUnder disturbance)) tree
    rw [hwrite _ ((g.manifestBytes_attempt tree disturbance).trans hmanifest),
      hwrite tree hmanifest, Stopping.exec_bind, Stopping.exec_bind, hleft, hredo]

/-- **Each generated file holds what it held, or a beginning of what is generated
for it**, whatever the attempt came to. -/
theorem find_attempt_self (g : Generated) {tree : Tree} {manifest : List UInt8}
    (hmanifest : manifestBytes g.schemas g.fixtures tree = .ok manifest)
    (disturbance : Option Disturbance) {x : String × List UInt8}
    (hx : x ∈ generatedFiles g.schemas g.fixtures g.fields manifest) :
    (g.attempt tree disturbance).find (contractPath x.fst) = tree.find (contractPath x.fst)
      ∨ ∃ part, part <+: x.snd
        ∧ (g.attempt tree disturbance).find (contractPath x.fst) = .ok (.file part) := by
  obtain hsame | ⟨manifest', hmanifest', hleft⟩ := g.attempt_cases tree disturbance
  · exact .inl (by rw [hsame])
  · obtain rfl : manifest = manifest' := Except.ok.inj (hmanifest.symm.trans hmanifest')
    rw [hleft]
    refine Stopping.forM_keeps (fun t : Tree =>
      t.find (contractPath x.fst) = tree.find (contractPath x.fst)
        ∨ ∃ part, part <+: x.snd ∧ t.find (contractPath x.fst) = .ok (.file part))
      (fun y hy t ht => ?_) (.inl rfl)
    by_cases hxy : y = x
    · subst hxy
      rcases (leaves_writeFileUnder disturbance y t).find_self (contractPath_ne_nil y.fst) with
        hsame | hpart
      · rwa [hsame]
      · exact .inr hpart
    · have hsymm : Std.Symm FilesApart := ⟨fun _ _ h => FileTree.Apart.symm h⟩
      have hapart : FilesApart y x := (pairwise_generatedFiles g manifest).forall hy hx hxy
      rwa [(leaves_writeFileUnder disturbance y t).find hapart]

/-- **The manifest is touched last.** An attempt that changes it is through with
all other files. -/
theorem find_of_manifest_changed (g : Generated) {tree : Tree} {disturbance : Option Disturbance}
    (h : (g.attempt tree disturbance).find (contractPath "manifest.json")
      ≠ tree.find (contractPath "manifest.json")) :
    ∀ x ∈ g.files, (g.attempt tree disturbance).find (contractPath x.fst) = .ok (.file x.snd) := by
  obtain hsame | ⟨manifest, -, hleft⟩ := g.attempt_cases tree disturbance
  · exact absurd (by rw [hsame]) h
  · have hapart := pairwise_generatedFiles g manifest
    rw [generatedFiles_eq] at hleft hapart
    rw [hleft] at h ⊢
    have hdone := Stopping.done_of_last (fun x _ => absorbs_writeFileUnder disturbance x)
      (hapart.imp (survives_writeFileUnder disturbance))
      (fun x hx t => (leaves_writeFileUnder disturbance x t).find
        ((List.pairwise_append.mp hapart).2.2 x hx _ (List.mem_singleton_self _))) h
    exact fun x hx => (done_writeFile_iff (contractPath_ne_nil x.fst)).mp (hdone x hx)

end Generated

/-- The contract digest of a build is read off the manifest. -/
theorem contractDigest_congr [Crates] {tree tree' : Tree}
    (h : tree'.find (contractPath "manifest.json") = tree.find (contractPath "manifest.json")) :
    Conformance.contractDigest tree' = Conformance.contractDigest tree := by
  unfold Conformance.contractDigest Conformance.includeBytes FileTree.read
  rw [h]

/-! ## After any number of attempts -/

/-- **Interrupted generation leaves no mark.** After any attempts at generating
the contract, each disturbed anywhere or not at all:

* the tool ends as it would have ended without them, with the same result and
  the same tree;
* what lies apart from the generated files is as it was, and so is the manifest
  that is computed;
* each generated file holds what it held, or a beginning of what is generated
  for it;
* and where one more attempt makes a build find another contract digest, every
  generated file but the manifest holds what is generated. -/
theorem generate_after_attempts [Crates] [PrettyCrate] (g : Generated) (tree : Tree)
    (attempts : List (Option Disturbance)) :
    main g.schemas g.fixtures g.fields (some "generate") (g.attempted tree attempts)
        = main g.schemas g.fixtures g.fields (some "generate") tree
      ∧ (∀ q, (∀ path ∈ g.paths, FileTree.Apart (contractPath path) q) →
        (g.attempted tree attempts).find q = tree.find q)
      ∧ (∀ manifest, manifestBytes g.schemas g.fixtures tree = .ok manifest →
        manifestBytes g.schemas g.fixtures (g.attempted tree attempts) = .ok manifest
          ∧ ∀ x ∈ generatedFiles g.schemas g.fixtures g.fields manifest,
            (g.attempted tree attempts).find (contractPath x.fst) = tree.find (contractPath x.fst)
              ∨ ∃ part, part <+: x.snd
                ∧ (g.attempted tree attempts).find (contractPath x.fst) = .ok (.file part))
      ∧ ∀ disturbance,
        Conformance.contractDigest (g.attempted tree (attempts ++ [disturbance]))
          ≠ Conformance.contractDigest (g.attempted tree attempts) →
        ∀ x ∈ g.files, (g.attempted tree (attempts ++ [disturbance])).find (contractPath x.fst)
          = .ok (.file x.snd) := by
  have hmanifestBytes : manifestBytes g.schemas g.fixtures (g.attempted tree attempts)
      = manifestBytes g.schemas g.fixtures tree :=
    foldl_absorbed g.manifestBytes_attempt attempts tree
  refine ⟨foldl_absorbed g.main_attempt attempts tree, fun q hq => ?_,
    fun manifest hmanifest => ⟨hmanifestBytes.trans hmanifest, ?_⟩, fun disturbance hdigest => ?_⟩
  · exact foldl_absorbed (fun t d => g.find_attempt t d hq) attempts tree
  · intro x hx
    -- what one attempt leaves is what the next finds
    induction attempts using List.reverseRecOn with
    | nil => exact .inl rfl
    | append_singleton past d ih =>
      have hpast : manifestBytes g.schemas g.fixtures (g.attempted tree past) = .ok manifest :=
        (foldl_absorbed g.manifestBytes_attempt past tree).trans hmanifest
      have hstep : g.attempted tree (past ++ [d]) = g.attempt (g.attempted tree past) d :=
        List.foldl_concat _ _ _ _
      rw [hstep]
      rcases g.find_attempt_self hpast d hx with hsame | hpart
      · rw [hsame]
        exact ih (foldl_absorbed g.manifestBytes_attempt past tree)
      · exact .inr hpart
  · have hstep : g.attempted tree (attempts ++ [disturbance])
        = g.attempt (g.attempted tree attempts) disturbance := List.foldl_concat _ _ _ _
    rw [hstep] at hdigest ⊢
    exact g.find_of_manifest_changed (fun hsame => hdigest (contractDigest_congr hsame))

end ContractSchema
