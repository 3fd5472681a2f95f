import NautilusAgents.ContractSchema
import NautilusAgents.Fixture

/-!
# Generating and checking agree

What `generate` leaves, `check` accepts, and what `check` accepts, `generate`
leaves as it is.

The writer and the checker go through the same files, so the question is
whether a later write spoils an earlier one, and whether the manifest written
last is still the one the checker computes. Neither happens because the
generated paths lie apart, from one another and from the fixtures written by
hand: each write is the last one at its path, and the manifest is a function of
the generated contents and of what lies under `fixtures/invalid`, which no
write touches.

The fixtures written by hand have no generated content to be compared with. What
ties them down is the manifest, which is computed from them and compared with
the committed one (`ContractSchema.Records`). Two states of the contract that
both pass the check therefore agree in every file but the manifest and these
fixtures, and they agree in the manifest just when they agree in the fixtures,
as far as the hash tells files apart.
-/

namespace ContractSchema

/-! ## The generated paths -/

theorem components_append (directory path : String) :
    components (directory ++ "/" ++ path) = components directory ++ components path := by
  unfold components
  rw [String.toList_append, String.toList_append, List.append_assoc]
  show (directory.toList ++ '/' :: path.toList |>.splitOn '/' |>.map _) = _
  rw [List.splitOn_append_cons_self, List.map_append]

/-- A name is a path of one component. -/
theorem components_eq_singleton {file : String} (h : '/' ∉ file.toList) :
    components file = [.text file] := by
  unfold components
  rw [List.splitOn_eq_singleton h, List.map_singleton, String.ofList_toList]

theorem contractPath_append (directory path : String) :
    contractPath (directory ++ "/" ++ path) = contractPath directory ++ components path := by
  unfold contractPath
  rw [components_append, List.append_assoc]

theorem contractPath_file (directory file : String) (h : '/' ∉ file.toList) :
    contractPath (directory ++ "/" ++ file) = contractPath directory ++ [.text file] := by
  rw [contractPath_append, components_eq_singleton h]

/-- The path of a fixture written by hand lies in their directory. -/
theorem contractPath_invalid (fixture : InvalidFixture) :
    contractPath fixture.path = contractPath "fixtures/invalid" ++ components fixture.file :=
  contractPath_append "fixtures/invalid" fixture.file

/-- No generated file has a slash in its name. -/
theorem slash_notMem_file {p : String × String} (h : p ∈ schemaFiles ∨ p ∈ validFixtureFiles) :
    '/' ∉ p.fst.toList := by
  have hall : ∀ p ∈ schemaFiles ++ validFixtureFiles, '/' ∉ p.fst.toList := by decide
  exact hall p (List.mem_append.mpr h)

/-- **What the tool generates**: the contents of the schemas, of the valid
fixtures and of the field list. -/
structure Generated where
  /-- The schema of a root type. -/
  schemaBytes : String → List UInt8
  /-- The valid fixture of a name. -/
  fixtureBytes : String → List UInt8
  /-- The field list. -/
  fields : List UInt8

namespace Generated

/-- The generated schemas. -/
def schemas (g : Generated) : List Asset := schemaAssets g.schemaBytes

/-- The generated fixtures. -/
def fixtures (g : Generated) : List Asset := validFixtureAssets g.fixtureBytes

end Generated

/-- The generated files: the path of each and its content. -/
def generatedFiles (schemas fixtures : List Asset) (fields manifest : List UInt8) :
    List (String × List UInt8) :=
  (schemas ++ fixtures).map (fun asset => (asset.path, asset.bytes))
    ++ [("fields.toml", fields), ("manifest.json", manifest)]

/-- Paths below the contract directory lie apart when they do there. -/
theorem apart_contractPath {p q : String} {d e : List OsStr} (hp : components p = d)
    (hq : components q = e) (h : FileTree.Apart d e) :
    FileTree.Apart (contractPath p) (contractPath q) := by
  unfold contractPath
  rw [hp, hq]
  exact FileTree.apart_append_left_iff.mpr h

theorem components_schema {p : String × String} (h : p ∈ schemaFiles) :
    components ("schema/" ++ p.fst) = [.text "schema", .text p.fst] := by
  show components ("schema" ++ "/" ++ p.fst) = _
  rw [components_append, components_eq_singleton (slash_notMem_file (.inl h)),
    components_eq_singleton (by decide)]
  rfl

theorem components_validFixture {p : String × String} (h : p ∈ validFixtureFiles) :
    components ("fixtures/valid/" ++ p.fst) = [.text "fixtures", .text "valid", .text p.fst] := by
  show components ("fixtures" ++ "/" ++ "valid" ++ "/" ++ p.fst) = _
  rw [components_append, components_append, components_eq_singleton (slash_notMem_file (.inr h)),
    components_eq_singleton (by decide), components_eq_singleton (by decide)]
  rfl

theorem components_fields : components "fields.toml" = [.text "fields.toml"] :=
  components_eq_singleton (by decide)

theorem components_manifest : components "manifest.json" = [.text "manifest.json"] :=
  components_eq_singleton (by decide)

theorem components_invalid :
    components "fixtures/invalid" = [.text "fixtures", .text "invalid"] := by
  show components ("fixtures" ++ "/" ++ "invalid") = _
  rw [components_append, components_eq_singleton (by decide), components_eq_singleton (by decide)]
  rfl

/-- The paths of two files lie apart. -/
def FilesApart (x y : String × List UInt8) : Prop :=
  FileTree.Apart (contractPath x.fst) (contractPath y.fst)

theorem pairwise_schemas (g : Generated) :
    (g.schemas.map (fun asset => (asset.path, asset.bytes))).Pairwise FilesApart := by
  have hnames : schemaFiles.Pairwise (fun p q => p.fst ≠ q.fst) := by decide
  unfold Generated.schemas schemaAssets
  rw [List.map_map, List.pairwise_map]
  refine hnames.imp_of_mem (fun {p q} hp hq hne => ?_)
  refine apart_contractPath (components_schema hp) (components_schema hq) ?_
  exact FileTree.apart_append_singleton (fun h => hne (OsStr.text.inj h)) [.text "schema"]

theorem pairwise_fixtures (g : Generated) :
    (g.fixtures.map (fun asset => (asset.path, asset.bytes))).Pairwise FilesApart := by
  have hnames : validFixtureFiles.Pairwise (fun p q => p.fst ≠ q.fst) := by decide
  unfold Generated.fixtures validFixtureAssets
  rw [List.map_map, List.pairwise_map]
  refine hnames.imp_of_mem (fun {p q} hp hq hne => ?_)
  refine apart_contractPath (components_validFixture hp) (components_validFixture hq) ?_
  exact FileTree.apart_append_singleton (fun h => hne (OsStr.text.inj h))
    [.text "fixtures", .text "valid"]

/-- The directory a generated asset lies in, seen from its components. -/
theorem components_asset {g : Generated} {x : String × List UInt8}
    (h : x ∈ (g.schemas ++ g.fixtures).map (fun asset => (asset.path, asset.bytes))) :
    (∃ file, components x.fst = [.text "schema", .text file])
      ∨ ∃ file, components x.fst = [.text "fixtures", .text "valid", .text file] := by
  obtain ⟨asset, hasset, rfl⟩ := List.mem_map.mp h
  rcases List.mem_append.mp hasset with hschema | hfixture
  · obtain ⟨p, hp, rfl⟩ := List.mem_map.mp hschema
    exact .inl ⟨p.fst, components_schema hp⟩
  · obtain ⟨p, hp, rfl⟩ := List.mem_map.mp hfixture
    exact .inr ⟨p.fst, components_validFixture hp⟩

/-- The field list and the manifest lie in the contract directory itself. -/
theorem components_last {fields manifest : List UInt8} {x : String × List UInt8}
    (h : x ∈ [("fields.toml", fields), ("manifest.json", manifest)]) :
    ∃ name, components x.fst = [.text name] ∧ OsStr.text "schema" ≠ .text name
      ∧ OsStr.text "fixtures" ≠ .text name := by
  rcases List.mem_cons.mp h with rfl | hlast
  · exact ⟨_, components_fields, by decide, by decide⟩
  · rw [List.mem_singleton.mp hlast]
    exact ⟨_, components_manifest, by decide, by decide⟩

/-- **The generated files lie apart**, so that no write spoils another. -/
theorem pairwise_generatedFiles (g : Generated) (manifest : List UInt8) :
    (generatedFiles g.schemas g.fixtures g.fields manifest).Pairwise FilesApart := by
  unfold generatedFiles
  rw [List.pairwise_append]
  refine ⟨?_, ?_, ?_⟩
  · rw [List.map_append, List.pairwise_append]
    refine ⟨pairwise_schemas g, pairwise_fixtures g, ?_⟩
    intro x hx y hy
    obtain ⟨schema, hschema, rfl⟩ := List.mem_map.mp hx
    obtain ⟨p, hp, rfl⟩ := List.mem_map.mp hschema
    obtain ⟨fixture, hfixture, rfl⟩ := List.mem_map.mp hy
    obtain ⟨q, hq, rfl⟩ := List.mem_map.mp hfixture
    exact apart_contractPath (components_schema hp) (components_validFixture hq)
      (FileTree.apart_of_head_ne (by decide) _ _)
  · rw [List.pairwise_pair]
    exact apart_contractPath components_fields components_manifest
      (FileTree.apart_of_head_ne (by decide) _ _)
  · intro x hx y hy
    obtain ⟨name, hname, hschema, hfixtures⟩ := components_last hy
    obtain ⟨file, hfile⟩ | ⟨file, hfile⟩ := components_asset hx
    · exact apart_contractPath hfile hname (FileTree.apart_of_head_ne hschema _ _)
    · exact apart_contractPath hfile hname (FileTree.apart_of_head_ne hfixtures _ _)

/-- **The generated files lie apart from those written by hand.** -/
theorem apart_generatedFiles_invalid {g : Generated} {manifest : List UInt8}
    {x : String × List UInt8} (h : x ∈ generatedFiles g.schemas g.fixtures g.fields manifest) :
    FileTree.Apart (contractPath x.fst) (contractPath "fixtures/invalid") := by
  rcases List.mem_append.mp h with hasset | hlast
  · obtain ⟨file, hfile⟩ | ⟨file, hfile⟩ := components_asset hasset
    · exact apart_contractPath hfile components_invalid
        (FileTree.apart_of_head_ne (by decide) _ _)
    · refine apart_contractPath hfile components_invalid (FileTree.apart_cons_iff.mpr ?_)
      exact FileTree.apart_of_head_ne (by decide) _ _
  · obtain ⟨name, hname, -, hfixtures⟩ := components_last hlast
    exact apart_contractPath hname components_invalid
      (FileTree.apart_of_head_ne hfixtures.symm _ _)

/-! ## Writing and checking the same files -/

/-- **Writing files that lie apart** leaves each with its content, and leaves
alone what lies apart from all of them. The invariant says so of the files that
have been written. -/
theorem exec_writeFiles {files : List (String × List UInt8)} {tree tree' : Tree}
    (hapart : files.Pairwise FilesApart)
    (h : (files.forM (fun x => writeFile (contractPath x.fst) x.snd)).exec tree = (.ok (), tree')) :
    (∀ x ∈ files, tree'.find (contractPath x.fst) = .ok (.file x.snd))
      ∧ ∀ q, (∀ x ∈ files, FileTree.Apart (contractPath x.fst) q) → tree'.find q = tree.find q := by
  refine Stopping.exec_forM_invariant (fun past t =>
    (∀ x ∈ past, t.find (contractPath x.fst) = .ok (.file x.snd))
      ∧ ∀ q, (∀ x ∈ past, FileTree.Apart (contractPath x.fst) q) → t.find q = tree.find q)
    ⟨fun x hx => absurd hx List.not_mem_nil, fun q _ => rfl⟩ ?_ h
  rintro past x rest t t' rfl ⟨hpast, hframe⟩ hwrite
  obtain ⟨hself, hothers⟩ := writeFile_eq_ok hwrite
  refine ⟨fun y hy => ?_, fun q hq => ?_⟩
  · rcases List.mem_append.mp hy with hy | hy
    · have hxy : FilesApart y x :=
        (List.pairwise_append.mp hapart).2.2 y hy x List.mem_cons_self
      rw [hothers _ hxy.symm]
      exact hpast y hy
    · rw [List.mem_singleton.mp hy]
      exact hself
  · rw [hothers q (hq x (List.mem_append_right past (List.mem_singleton_self x)))]
    exact hframe q (fun y hy => hq y (List.mem_append_left [x] hy))

/-- The writer goes through the generated files in turn. -/
theorem exec_writeAssets_eq_ok_iff {schemas fixtures : List Asset} {fields manifest : List UInt8}
    {tree tree' : Tree} :
    (writeAssets schemas fixtures fields manifest).exec tree = (.ok (), tree')
      ↔ ((generatedFiles schemas fixtures fields manifest).forM
            (fun x => writeFile (contractPath x.fst) x.snd)).exec tree = (.ok (), tree')
        ∧ checkExpectedNames schemas fixtures tree' = .ok () := by
  have hprogram : writeAssets schemas fixtures fields manifest
      = (generatedFiles schemas fixtures fields manifest).forM
          (fun x => writeFile (contractPath x.fst) x.snd)
        >>= fun _ => Stopping.inspect (checkExpectedNames schemas fixtures) := by
    simp only [writeAssets, generatedFiles, List.forM_eq_forM, List.forM_append, List.forM_map,
      List.forM_cons, List.forM_nil, bind_assoc, pure_bind]
  rw [hprogram, Stopping.exec_bind_eq_ok_iff]
  constructor
  · rintro ⟨⟨⟩, t, hwrites, hnames⟩
    obtain ⟨hok, rfl⟩ := Stopping.exec_inspect_eq_ok_iff.mp hnames
    exact ⟨hwrites, hok⟩
  · rintro ⟨hwrites, hnames⟩
    exact ⟨(), tree', hwrites, Stopping.exec_inspect_eq_ok_iff.mpr ⟨hnames, rfl⟩⟩

/-- The checker goes through the same files. -/
theorem checkAssets_eq_ok_iff_generatedFiles {schemas fixtures : List Asset}
    {fields manifest : List UInt8} {tree : Tree} :
    checkAssets schemas fixtures fields manifest tree = .ok ()
      ↔ (∀ x ∈ generatedFiles schemas fixtures fields manifest,
          tree.find (contractPath x.fst) = .ok (.file x.snd))
        ∧ checkExpectedNames schemas fixtures tree = .ok () := by
  rw [checkAssets_eq_ok_iff]
  simp only [generatedFiles, List.forall_mem_append, List.forall_mem_map, List.forall_mem_cons,
    List.not_mem_nil, IsEmpty.forall_iff, implies_true, true_and, and_assoc]

/-- **After writing, the check passes**, and the fixtures written by hand are
as they were. -/
theorem checkAssets_of_writeAssets {g : Generated} {manifest : List UInt8} {tree tree' : Tree}
    (h : (writeAssets g.schemas g.fixtures g.fields manifest).exec tree = (.ok (), tree')) :
    checkAssets g.schemas g.fixtures g.fields manifest tree' = .ok ()
      ∧ tree'.find (contractPath "fixtures/invalid")
        = tree.find (contractPath "fixtures/invalid") := by
  obtain ⟨hwrites, hnames⟩ := exec_writeAssets_eq_ok_iff.mp h
  obtain ⟨hfiles, hframe⟩ := exec_writeFiles (pairwise_generatedFiles g manifest) hwrites
  exact ⟨checkAssets_eq_ok_iff_generatedFiles.mpr ⟨hfiles, hnames⟩,
    hframe _ (fun x hx => apart_generatedFiles_invalid hx)⟩

/-- **Where the check passes, writing changes nothing.** -/
theorem exec_writeAssets_of_checkAssets {schemas fixtures : List Asset}
    {fields manifest : List UInt8} {tree : Tree}
    (h : checkAssets schemas fixtures fields manifest tree = .ok ()) :
    (writeAssets schemas fixtures fields manifest).exec tree = (.ok (), tree) := by
  obtain ⟨hfiles, hnames⟩ := checkAssets_eq_ok_iff_generatedFiles.mp h
  refine exec_writeAssets_eq_ok_iff.mpr ⟨?_, hnames⟩
  refine Stopping.exec_forM_eq_self (fun x hx => writeFile_eq_self ?_ (hfiles x hx))
  exact List.append_ne_nil_of_left_ne_nil (components_ne_nil contractDir) _

/-! ## The manifest -/

theorem member_path (asset : ManifestAsset) :
    (serialize asset).member "path" = some (.str asset.path) := rfl

theorem member_byteLength (asset : ManifestAsset) :
    (serialize asset).member "byte_length" = some (.nat asset.byteLength) := rfl

theorem member_sha256 (asset : ManifestAsset) :
    (serialize asset).member "sha256" = some (.str asset.sha256) := rfl

theorem member_assets (manifest : Manifest) :
    (serialize manifest).member "assets" = some (.arr (manifest.assets.map serialize)) := rfl

theorem natural_manifest (manifest : Manifest) : (serialize manifest).Natural := by
  simp [serialize]

/-- What lies in the directory of the fixtures written by hand is read there. -/
theorem read_invalid_congr {tree tree' : Tree}
    (h : tree'.find (contractPath "fixtures/invalid")
      = tree.find (contractPath "fixtures/invalid")) (fixture : InvalidFixture) :
    tree'.read (contractPath fixture.path) = tree.read (contractPath fixture.path) := by
  unfold FileTree.read
  rw [contractPath_invalid, FileTree.find_append, FileTree.find_append, h]

theorem prettyJson_eq_ok [PrettyCrate] (hpretty : PrettyCrate.PrettyWriter) {α : Type}
    [Serialize α] {value : α} (h : (serialize value).Natural) :
    prettyJson value = .ok ((serialize value).prettyBytes ++ [0x0a]) := by
  unfold prettyJson
  rw [hpretty _ h]
  rfl

/-! ### What it records -/

section Manifest

variable [Crates]

/-- **What a committed manifest records of a file**: it lists the path, and
wherever it does, it has the length and the hash of these bytes. -/
def Records (committed : List UInt8) (path : String) (bytes : List UInt8) : Prop :=
  ∃ document entries, Json.parse committed = some document
    ∧ document.member "assets" = some (.arr entries)
    ∧ (∃ entry ∈ entries, entry.member "path" = some (.str path))
    ∧ ∀ entry ∈ entries, entry.member "path" = some (.str path) →
      entry.member "byte_length" = some (.nat bytes.length)
        ∧ entry.member "sha256" = some (.str (Canonical.sha256Bytes bytes).text)

/-- **A manifest records one content for a path**, as far as the hash tells the
two apart. -/
theorem Records.eq {committed : List UInt8} {path : String} {x y : List UInt8}
    (hx : Records committed path x) (hy : Records committed path y)
    (hcollision : Crates.NoCollision x y) : x = y := by
  obtain ⟨document, entries, hparse, hentries, ⟨entry, hentry, hpath⟩, hall⟩ := hx
  obtain ⟨document', entries', hparse', hentries', -, hall'⟩ := hy
  obtain rfl : document = document' := Option.some.inj (hparse.symm.trans hparse')
  obtain rfl : entries = entries' := Json.arr.inj (Option.some.inj (hentries.symm.trans hentries'))
  have hsha := (hall entry hentry hpath).2.symm.trans (hall' entry hentry hpath).2
  have htext : Canonical.sha256Bytes x = Canonical.sha256Bytes y :=
    ContentDigest.ext (Json.str.inj (Option.some.inj hsha))
  exact hcollision (ContentDigest.new_injective htext)

/-- The entry is of the file that is there. -/
def OfFile (tree : Tree) (asset : ManifestAsset) : Prop :=
  ∃ bytes, tree.read (contractPath asset.path) = .ok bytes
    ∧ asset.byteLength = bytes.length ∧ asset.sha256 = (Canonical.sha256Bytes bytes).text

/-- What the manifest records of a file that is there is of that file. -/
theorem ofFile_manifestAsset {tree : Tree} {kind expectation : String} {asset : Asset}
    {expectedError : Option ErrorCode}
    (h : tree.read (contractPath asset.path) = .ok asset.bytes) :
    OfFile tree (manifestAsset kind asset expectation expectedError) :=
  ⟨asset.bytes, h, rfl, rfl⟩

theorem invalidAsset_eq_ok {tree : Tree} {fixture : InvalidFixture} {asset : ManifestAsset}
    (h : invalidAsset tree fixture = .ok asset) :
    asset.path = fixture.path ∧ OfFile tree asset := by
  obtain ⟨bytes, hread, rfl⟩ := Except.map_eq_ok_iff.mp h
  exact ⟨rfl, ofFile_manifestAsset (Except.mapError_eq_ok_iff.mp hread)⟩

/-- **The entries of a manifest**: each fixture written by hand has one, and
each is of the file at its path when the generated files are there. -/
theorem manifestAssets_eq_ok {schemas fixtures : List Asset} {tree : Tree}
    {assets : List ManifestAsset} (h : manifestAssets schemas fixtures tree = .ok assets)
    (hfiles : ∀ asset ∈ schemas ++ fixtures,
      tree.read (contractPath asset.path) = .ok asset.bytes) :
    (∀ fixture ∈ invalidFixtures, ∃ asset ∈ assets, asset.path = fixture.path)
      ∧ ∀ asset ∈ assets, OfFile tree asset := by
  obtain ⟨invalid, hinvalid, hsorted⟩ := Except.bind_eq_ok_iff.mp h
  obtain rfl := Except.ok.inj hsorted
  obtain ⟨hitems, hresults⟩ := Except.mapM_eq_ok hinvalid
  constructor
  · intro fixture hfixture
    obtain ⟨asset, hasset, hok⟩ := hitems fixture hfixture
    exact ⟨asset, List.mem_mergeSort.mpr (List.mem_append_right _ hasset),
      (invalidAsset_eq_ok hok).1⟩
  · intro asset hasset
    rcases List.mem_append.mp (List.mem_mergeSort.mp hasset) with hgenerated | hread
    · rcases List.mem_append.mp hgenerated with hschema | hfixture
      · obtain ⟨schema, hmem, rfl⟩ := List.mem_map.mp hschema
        exact ofFile_manifestAsset (hfiles schema (List.mem_append_left _ hmem))
      · obtain ⟨fixture, hmem, rfl⟩ := List.mem_map.mp hfixture
        exact ofFile_manifestAsset (hfiles fixture (List.mem_append_right _ hmem))
    · obtain ⟨fixture, -, hok⟩ := hresults asset hread
      exact (invalidAsset_eq_ok hok).2

variable [PrettyCrate]

/-- The manifest depends on the tree through the fixtures written by hand. -/
theorem manifestBytes_congr {schemas fixtures : List Asset} {tree tree' : Tree}
    (h : ∀ fixture ∈ invalidFixtures,
      tree'.read (contractPath fixture.path) = tree.read (contractPath fixture.path)) :
    manifestBytes schemas fixtures tree' = manifestBytes schemas fixtures tree := by
  have hmap : invalidFixtures.mapM (invalidAsset tree')
      = invalidFixtures.mapM (invalidAsset tree) := by
    refine Except.mapM_congr (fun fixture hfixture => ?_)
    unfold invalidAsset
    rw [h fixture hfixture]
  unfold manifestBytes manifestAssets
  rw [hmap]

/-- Where the fixtures written by hand are all there, the manifest can be
computed. -/
theorem exists_manifestBytes (hpretty : PrettyCrate.PrettyWriter)
    (hcanonical : ∀ assets : List ManifestAsset, ∃ digest, Canonical.sha256 assets = .ok digest)
    (schemas fixtures : List Asset) {tree : Tree}
    (hread : ∀ fixture ∈ invalidFixtures, ∃ bytes,
      tree.read (contractPath fixture.path) = .ok bytes) :
    ∃ manifest, manifestBytes schemas fixtures tree = .ok manifest := by
  have hinvalid : ∀ fixture ∈ invalidFixtures, ∃ asset, invalidAsset tree fixture = .ok asset := by
    intro fixture hfixture
    obtain ⟨bytes, hbytes⟩ := hread fixture hfixture
    exact ⟨_, Except.map_eq_ok_iff.mpr ⟨bytes, Except.mapError_eq_ok_iff.mpr hbytes, rfl⟩⟩
  obtain ⟨invalid, hinvalid⟩ := Except.exists_mapM_eq_ok hinvalid
  obtain ⟨digest, hdigest⟩ := hcanonical _
  refine ⟨_, Except.bind_eq_ok_iff.mpr ⟨_, Except.bind_eq_ok_iff.mpr ⟨invalid, hinvalid, rfl⟩,
    Except.bind_eq_ok_iff.mpr ⟨digest, Except.mapError_eq_ok_iff.mpr hdigest,
      prettyJson_eq_ok hpretty (natural_manifest _)⟩⟩⟩

/-- The bytes of a manifest are read back as the document of one with the
entries the tree has. -/
theorem parse_manifestBytes (hpretty : PrettyCrate.PrettyWriter) {schemas fixtures : List Asset}
    {tree : Tree} {committed : List UInt8}
    (h : manifestBytes schemas fixtures tree = .ok committed) :
    ∃ manifest : Manifest, manifestAssets schemas fixtures tree = .ok manifest.assets
      ∧ Json.parse committed = some (serialize manifest) := by
  obtain ⟨assets, hassets, hrest⟩ := Except.bind_eq_ok_iff.mp h
  obtain ⟨digest, -, hwritten⟩ := Except.bind_eq_ok_iff.mp hrest
  rw [prettyJson_eq_ok hpretty (natural_manifest _)] at hwritten
  obtain rfl := Except.ok.inj hwritten
  exact ⟨_, hassets, Json.parse_prettyBytes (natural_manifest _)⟩

/-- **The committed manifest records the fixtures written by hand**, with the
bytes they have. -/
theorem records_manifestBytes (hpretty : PrettyCrate.PrettyWriter) {schemas fixtures : List Asset}
    {tree : Tree} {committed : List UInt8}
    (h : manifestBytes schemas fixtures tree = .ok committed)
    (hfiles : ∀ asset ∈ schemas ++ fixtures,
      tree.read (contractPath asset.path) = .ok asset.bytes)
    {fixture : InvalidFixture} (hfixture : fixture ∈ invalidFixtures) :
    ∃ bytes, tree.read (contractPath fixture.path) = .ok bytes
      ∧ Records committed fixture.path bytes := by
  obtain ⟨manifest, hassets, hparse⟩ := parse_manifestBytes hpretty h
  obtain ⟨hlisted, hof⟩ := manifestAssets_eq_ok hassets hfiles
  obtain ⟨asset, hasset, hpath⟩ := hlisted fixture hfixture
  obtain ⟨bytes, hread, -, -⟩ := hof asset hasset
  rw [hpath] at hread
  refine ⟨bytes, hread, _, _, hparse, member_assets manifest,
    ⟨serialize asset, List.mem_map_of_mem hasset, by rw [member_path, hpath]⟩, ?_⟩
  intro entry hentry hentrypath
  obtain ⟨other, hother, rfl⟩ := List.mem_map.mp hentry
  rw [member_path] at hentrypath
  have hsame : other.path = fixture.path := Json.str.inj (Option.some.inj hentrypath)
  obtain ⟨found, hfound, hlength, hsha⟩ := hof other hother
  rw [hsame, hread] at hfound
  obtain rfl : bytes = found := Except.ok.inj hfound
  rw [member_byteLength, member_sha256, hlength, hsha]
  exact ⟨rfl, rfl⟩

end Manifest

/-! ## Agreement -/

section Agreement

variable [Crates] [PrettyCrate]

/-- **The contract on disk is in step** with what is generated: every generated
file holds what is generated, the manifest is this one, the three directories
hold the names expected of them and no others, and the fixtures written by hand
are the ones the manifest records. -/
structure InStep (g : Generated) (manifest : List UInt8) (tree : Tree) : Prop where
  /-- The generated schemas and fixtures are in place. -/
  assets : ∀ asset ∈ g.schemas ++ g.fixtures,
    tree.read (contractPath asset.path) = .ok asset.bytes
  /-- So is the field list. -/
  fields : tree.read (contractPath "fields.toml") = .ok g.fields
  /-- So is the manifest. -/
  committed : tree.read (contractPath "manifest.json") = .ok manifest
  /-- No directory holds another name. -/
  names : ∀ p ∈ expectedNames g.schemas g.fixtures,
    directoryNames (contractPath p.fst) tree = .ok p.snd
  /-- The fixtures written by hand are the ones recorded. -/
  recorded : ∀ fixture ∈ invalidFixtures, ∃ bytes,
    tree.read (contractPath fixture.path) = .ok bytes ∧ Records manifest fixture.path bytes

/-- **What the check vouches for.** -/
theorem inStep_of_checkAssets (hpretty : PrettyCrate.PrettyWriter) {g : Generated} {tree : Tree}
    {manifest : List UInt8} (hmanifest : manifestBytes g.schemas g.fixtures tree = .ok manifest)
    (hcheck : checkAssets g.schemas g.fixtures g.fields manifest tree = .ok ()) :
    InStep g manifest tree := by
  obtain ⟨hassets, hfields, hfile, hnames⟩ := checkAssets_eq_ok_iff.mp hcheck
  have hread : ∀ asset ∈ g.schemas ++ g.fixtures,
      tree.read (contractPath asset.path) = .ok asset.bytes :=
    fun asset hasset => FileTree.read_eq_ok_iff.mpr (hassets asset hasset)
  exact
    { assets := hread
      fields := FileTree.read_eq_ok_iff.mpr hfields
      committed := FileTree.read_eq_ok_iff.mpr hfile
      names := checkExpectedNames_eq_ok_iff.mp hnames
      recorded := fun _ hfixture => records_manifestBytes hpretty hmanifest hread hfixture }

/-- A file of the contract is not what it was: other content, no file any
more, or one now. -/
def Differs (tree edited : Tree) (path : String) : Prop :=
  edited.read (contractPath path) ≠ tree.read (contractPath path)

/-- **An edit** of the contract. The manifest and the fixtures it records are
edited one without the other; who edits both may leave the contract in
step. -/
inductive Edit (g : Generated) (tree edited : Tree) : Prop where
  /-- A schema or a valid fixture. -/
  | asset {asset : Asset} (mem : asset ∈ g.schemas ++ g.fixtures)
      (differs : Differs tree edited asset.path)
  /-- The field list. -/
  | fields (differs : Differs tree edited "fields.toml")
  /-- The manifest, and no fixture it records. -/
  | manifest (differs : Differs tree edited "manifest.json")
      (fixtures : ∀ fixture ∈ invalidFixtures, ¬ Differs tree edited fixture.path)
  /-- A fixture written by hand, and not the manifest. -/
  | fixture {fixture : InvalidFixture} (mem : fixture ∈ invalidFixtures)
      (differs : Differs tree edited fixture.path)
      (manifest : ¬ Differs tree edited "manifest.json")
  /-- A name added to a directory or removed from it. -/
  | names {directory : String} (mem : directory ∈ ["schema", "fixtures/valid", "fixtures/invalid"])
      (differs : directoryNames (contractPath directory) edited
        ≠ directoryNames (contractPath directory) tree)

/-- **Of two states that are in step, neither is an edit of the other**, where
the hash tells the fixtures apart. -/
theorem InStep.not_edit {g : Generated} {manifest manifest' : List UInt8} {tree edited : Tree}
    (h : InStep g manifest tree) (h' : InStep g manifest' edited)
    (hmanifest : manifestBytes g.schemas g.fixtures tree = .ok manifest)
    (hmanifest' : manifestBytes g.schemas g.fixtures edited = .ok manifest')
    (hcollision : ∀ fixture ∈ invalidFixtures, ∀ x y,
      tree.read (contractPath fixture.path) = .ok x →
      edited.read (contractPath fixture.path) = .ok y → Crates.NoCollision x y) :
    ¬ Edit g tree edited := by
  rintro (⟨hasset, hdiffers⟩ | hdiffers | ⟨hdiffers, hfixtures⟩ | ⟨hfixture, hdiffers, hsame⟩ |
    ⟨hdirectory, hdiffers⟩)
  · exact hdiffers ((h'.assets _ hasset).trans (h.assets _ hasset).symm)
  · exact hdiffers (h'.fields.trans h.fields.symm)
  · -- the manifest is computed from the fixtures, and they are the same
    have hbytes : manifestBytes g.schemas g.fixtures edited
        = manifestBytes g.schemas g.fixtures tree :=
      manifestBytes_congr (fun fixture hfixture => not_not.mp (hfixtures fixture hfixture))
    rw [hmanifest, hmanifest'] at hbytes
    refine hdiffers ?_
    rw [h.committed, h'.committed, Except.ok.inj hbytes]
  · -- one manifest records one content of the fixture
    have hbytes := not_not.mp hsame
    rw [h.committed, h'.committed] at hbytes
    obtain rfl : manifest' = manifest := Except.ok.inj hbytes
    obtain ⟨x, hx, hrecordsx⟩ := h.recorded _ hfixture
    obtain ⟨y, hy, hrecordsy⟩ := h'.recorded _ hfixture
    refine hdiffers ?_
    rw [hx, hy, hrecordsx.eq hrecordsy (hcollision _ hfixture x y hx hy)]
  · have hnames : ∃ p ∈ expectedNames g.schemas g.fixtures, p.fst = _ :=
      List.mem_map.mp hdirectory
    obtain ⟨p, hp, rfl⟩ := hnames
    exact hdiffers ((h'.names p hp).trans (h.names p hp).symm)

/-! ### The two modes -/

theorem main_generate_eq_ok_iff {schemas fixtures : List Asset} {fields : List UInt8}
    {tree tree' : Tree} :
    main schemas fixtures fields (some "generate") tree = (.ok (), tree')
      ↔ ∃ manifest, manifestBytes schemas fixtures tree = .ok manifest
        ∧ (writeAssets schemas fixtures fields manifest).exec tree = (.ok (), tree') := by
  unfold main
  rw [Option.getD_some, if_neg (by decide)]
  cases manifestBytes schemas fixtures tree with
  | error e => exact ⟨fun h => (by cases h), fun ⟨_, h, _⟩ => (by cases h)⟩
  | ok manifest =>
    exact ⟨fun h => ⟨manifest, rfl, h⟩, fun ⟨_, h, hwrite⟩ => by cases h; exact hwrite⟩

theorem main_check_eq_ok_iff {schemas fixtures : List Asset} {fields : List UInt8} {tree : Tree} :
    (main schemas fixtures fields (some "check") tree).fst = .ok ()
      ↔ ∃ manifest, manifestBytes schemas fixtures tree = .ok manifest
        ∧ checkAssets schemas fixtures fields manifest tree = .ok () := by
  unfold main
  rw [Option.getD_some, if_neg (by decide)]
  cases manifestBytes schemas fixtures tree with
  | error e => exact ⟨fun h => (by cases h), fun ⟨_, h, _⟩ => (by cases h)⟩
  | ok manifest =>
    exact ⟨fun h => ⟨manifest, rfl, h⟩, fun ⟨_, h, hcheck⟩ => by cases h; exact hcheck⟩

end Agreement

/-! ## A contract of equal files -/

/-- Files of these names, each with the same bytes. -/
def equalFiles (bytes : List UInt8) (names : List String) : List (OsStr × Tree) :=
  names.map (fun name => (.text name, .file bytes))

theorem lookup_equalFiles (bytes : List UInt8) {names : List String} {name : String}
    (h : name ∈ names) : (equalFiles bytes names).lookup (.text name) = some (.file bytes) := by
  induction names with
  | nil => exact absurd h List.not_mem_nil
  | cons first names ih =>
    unfold equalFiles
    rw [List.map_cons, List.lookup_cons]
    by_cases heq : name = first
    · simp [heq]
    · have hne : (OsStr.text name == OsStr.text first) = false :=
        beq_false_of_ne (fun h => heq (OsStr.text.inj h))
      rw [hne]
      exact ih ((List.mem_cons.mp h).resolve_left heq)

/-- A contract in which every file but the manifest holds the same bytes. -/
def equalContract (bytes manifest : List UInt8) : Tree :=
  .dir [(.text "contract", .dir [(.text "v1", .dir
    [(.text "fields.toml", .file bytes), (.text "manifest.json", .file manifest),
      (.text "schema", .dir (equalFiles bytes (schemaFiles.map Prod.fst))),
      (.text "fixtures", .dir
        [(.text "valid", .dir (equalFiles bytes (validFixtureFiles.map Prod.fst))),
          (.text "invalid",
            .dir (equalFiles bytes (invalidFixtures.map InvalidFixture.file)))])])])]

/-- Generating files that hold the same bytes. -/
def equalGenerated (bytes : List UInt8) : Generated := ⟨fun _ => bytes, fun _ => bytes, bytes⟩

section Equal

variable (bytes manifest : List UInt8)

theorem find_equalContract_schema :
    (equalContract bytes manifest).find (contractPath "schema")
      = .ok (.dir (equalFiles bytes (schemaFiles.map Prod.fst))) := rfl

theorem find_equalContract_valid :
    (equalContract bytes manifest).find (contractPath "fixtures/valid")
      = .ok (.dir (equalFiles bytes (validFixtureFiles.map Prod.fst))) := rfl

theorem find_equalContract_invalid :
    (equalContract bytes manifest).find (contractPath "fixtures/invalid")
      = .ok (.dir (equalFiles bytes (invalidFixtures.map InvalidFixture.file))) := rfl

variable {bytes manifest}

/-- A file is found in each of the directories. -/
theorem find_equalContract {directory path : List OsStr} {file : String} {names : List String}
    (hdirectory : (equalContract bytes manifest).find directory
      = .ok (.dir (equalFiles bytes names)))
    (hfile : file ∈ names) (hpath : path = directory ++ [.text file]) :
    (equalContract bytes manifest).find path = .ok (.file bytes) := by
  rw [hpath, FileTree.find_append, hdirectory]
  show FileTree.find [.text file] (.dir (equalFiles bytes names)) = _
  rw [FileTree.find_cons_dir, lookup_equalFiles bytes hfile]
  rfl

variable (bytes manifest)

theorem find_equalContract_asset {asset : Asset}
    (h : asset ∈ (equalGenerated bytes).schemas ++ (equalGenerated bytes).fixtures) :
    (equalContract bytes manifest).find (contractPath asset.path) = .ok (.file asset.bytes) := by
  rcases List.mem_append.mp h with hschema | hfixture
  · obtain ⟨p, hp, rfl⟩ := List.mem_map.mp hschema
    exact find_equalContract (find_equalContract_schema bytes manifest) (List.mem_map_of_mem hp)
      (contractPath_file "schema" p.fst (slash_notMem_file (.inl hp)))
  · obtain ⟨p, hp, rfl⟩ := List.mem_map.mp hfixture
    exact find_equalContract (find_equalContract_valid bytes manifest) (List.mem_map_of_mem hp)
      (contractPath_file "fixtures/valid" p.fst (slash_notMem_file (.inr hp)))

theorem read_equalContract_invalid {fixture : InvalidFixture} (h : fixture ∈ invalidFixtures) :
    (equalContract bytes manifest).read (contractPath fixture.path) = .ok bytes := by
  have hslash : ∀ fixture ∈ invalidFixtures, '/' ∉ fixture.file.toList := by decide
  exact FileTree.read_eq_ok_iff.mpr (find_equalContract (find_equalContract_invalid bytes manifest)
    (List.mem_map_of_mem h) (contractPath_file "fixtures/invalid" fixture.file (hslash fixture h)))

end Equal

theorem fileName_eq {path : String} {directory : List OsStr} {name : OsStr}
    (h : components path = directory ++ [name]) : fileName path = name := by
  unfold fileName
  simp only [h, List.getLast_append_singleton]

/-- The names expected among the schemas and the fixtures are those of the
generated files. -/
theorem expectedNames_generated (g : Generated) :
    expectedNames g.schemas g.fixtures
      = [("schema", (schemaFiles.map (fun p => OsStr.text p.fst)).toFinset),
        ("fixtures/valid", (validFixtureFiles.map (fun p => OsStr.text p.fst)).toFinset),
        ("fixtures/invalid",
          (invalidFixtures.map (fun fixture => OsStr.text fixture.file)).toFinset)] := by
  have hschemas : g.schemas.map (fun asset => fileName asset.path)
      = schemaFiles.map (fun p => OsStr.text p.fst) := by
    unfold Generated.schemas schemaAssets
    rw [List.map_map]
    exact List.map_congr_left (fun p hp => @fileName_eq _ [.text "schema"] _
      (components_schema hp))
  have hfixtures : g.fixtures.map (fun asset => fileName asset.path)
      = validFixtureFiles.map (fun p => OsStr.text p.fst) := by
    unfold Generated.fixtures validFixtureAssets
    rw [List.map_map]
    exact List.map_congr_left (fun p hp => @fileName_eq _ [.text "fixtures", .text "valid"] _
      (components_validFixture hp))
  unfold expectedNames
  rw [hschemas, hfixtures]

theorem directoryNames_equalFiles {path : List OsStr} {tree : Tree} {bytes : List UInt8}
    {names : List String} (h : tree.find path = .ok (.dir (equalFiles bytes names))) :
    directoryNames path tree = .ok (names.map OsStr.text).toFinset := by
  unfold directoryNames FileTree.readDir equalFiles at *
  rw [h]
  simp only [List.map_map]
  rfl

theorem checkExpectedNames_equalContract (bytes manifest : List UInt8) :
    checkExpectedNames (equalGenerated bytes).schemas (equalGenerated bytes).fixtures
      (equalContract bytes manifest) = .ok () := by
  rw [checkExpectedNames_eq_ok_iff, expectedNames_generated]
  simp only [List.forall_mem_cons, List.not_mem_nil, IsEmpty.forall_iff, implies_true, and_true]
  exact ⟨directoryNames_equalFiles (find_equalContract_schema bytes manifest),
    directoryNames_equalFiles (find_equalContract_valid bytes manifest),
    directoryNames_equalFiles (find_equalContract_invalid bytes manifest)⟩

/-- Generating fills in the manifest, and nothing else is to be done. -/
theorem exec_writeAssets_equalContract (bytes manifest : List UInt8) :
    (writeAssets (equalGenerated bytes).schemas (equalGenerated bytes).fixtures
        (equalGenerated bytes).fields manifest).exec (equalContract bytes [])
      = (.ok (), equalContract bytes manifest) := by
  have hpath : ∀ path, contractPath path ≠ [] :=
    fun path => List.append_ne_nil_of_left_ne_nil (components_ne_nil contractDir) _
  unfold writeAssets
  refine Stopping.exec_bind_eq_ok_iff.mpr ⟨(), equalContract bytes [], ?_, ?_⟩
  · exact Stopping.exec_forM_eq_self
      (fun asset hasset => writeFile_eq_self (hpath _) (find_equalContract_asset bytes [] hasset))
  refine Stopping.exec_bind_eq_ok_iff.mpr ⟨(), equalContract bytes [], ?_, ?_⟩
  · exact writeFile_eq_self (hpath _) rfl
  refine Stopping.exec_bind_eq_ok_iff.mpr ⟨(), equalContract bytes manifest, rfl, ?_⟩
  exact Stopping.exec_inspect_eq_ok_iff.mpr ⟨checkExpectedNames_equalContract bytes manifest, rfl⟩

end ContractSchema

namespace Fixture

scoped instance prettyCrate : PrettyCrate := ⟨fun j => .ok j.prettyBytes⟩

theorem prettyWriter : PrettyCrate.PrettyWriter := fun _ _ => rfl

end Fixture

namespace ContractSchema

/-! ## Generating and checking -/

/-- **Generating and checking agree.** Once the contract is generated, the
manifest computed from it is the one that was written, the check passes, and
generating again changes nothing, while the fixtures written by hand are as they
were. The check passes only where the contract is in step. And after an edit of
the generated contract the check fails, where the hash tells the fixtures
apart. -/
theorem generate_check [Crates] [PrettyCrate] (hpretty : PrettyCrate.PrettyWriter) (g : Generated) :
    (∀ tree tree' manifest, manifestBytes g.schemas g.fixtures tree = .ok manifest →
      (writeAssets g.schemas g.fixtures g.fields manifest).exec tree = (.ok (), tree') →
      manifestBytes g.schemas g.fixtures tree' = .ok manifest
        ∧ checkAssets g.schemas g.fixtures g.fields manifest tree' = .ok ()
        ∧ main g.schemas g.fixtures g.fields (some "generate") tree' = (.ok (), tree')
        ∧ tree'.find (contractPath "fixtures/invalid")
          = tree.find (contractPath "fixtures/invalid"))
    ∧ (∀ tree manifest, manifestBytes g.schemas g.fixtures tree = .ok manifest →
      checkAssets g.schemas g.fixtures g.fields manifest tree = .ok () →
      InStep g manifest tree)
    ∧ ∀ tree tree' edited,
      main g.schemas g.fixtures g.fields (some "generate") tree = (.ok (), tree') →
      (∀ fixture ∈ invalidFixtures, ∀ x y,
        tree'.read (contractPath fixture.path) = .ok x →
        edited.read (contractPath fixture.path) = .ok y → Crates.NoCollision x y) →
      Edit g tree' edited →
      (main g.schemas g.fixtures g.fields (some "check") edited).fst ≠ .ok () := by
  have hstable : ∀ tree tree' manifest, manifestBytes g.schemas g.fixtures tree = .ok manifest →
      (writeAssets g.schemas g.fixtures g.fields manifest).exec tree = (.ok (), tree') →
      manifestBytes g.schemas g.fixtures tree' = .ok manifest := by
    intro tree tree' manifest hmanifest hwrite
    obtain ⟨-, hinvalid⟩ := checkAssets_of_writeAssets hwrite
    rw [manifestBytes_congr (fun fixture _ => read_invalid_congr hinvalid fixture), hmanifest]
  refine ⟨?_, fun _ _ => inStep_of_checkAssets hpretty, ?_⟩
  · intro tree tree' manifest hmanifest hwrite
    obtain ⟨hcheck, hinvalid⟩ := checkAssets_of_writeAssets hwrite
    have hmanifest' := hstable tree tree' manifest hmanifest hwrite
    exact ⟨hmanifest', hcheck,
      main_generate_eq_ok_iff.mpr
        ⟨manifest, hmanifest', exec_writeAssets_of_checkAssets hcheck⟩, hinvalid⟩
  · intro tree tree' edited hgenerate hcollision hedit hpasses
    obtain ⟨manifest, hmanifest, hwrite⟩ := main_generate_eq_ok_iff.mp hgenerate
    obtain ⟨manifest', hmanifest', hcheck'⟩ := main_check_eq_ok_iff.mp hpasses
    have hthere := hstable tree tree' manifest hmanifest hwrite
    have hin := inStep_of_checkAssets hpretty hthere (checkAssets_of_writeAssets hwrite).1
    have hin' := inStep_of_checkAssets hpretty hmanifest' hcheck'
    exact hin.not_edit hin' hthere hmanifest' hcollision hedit

open Fixture in
/-- An empty manifest is filled in, filled in again to no effect, and found
missing by the check. -/
theorem generate_check_emptyContract : ∃ manifest,
    main (equalGenerated []).schemas (equalGenerated []).fixtures (equalGenerated []).fields
        (some "generate") (equalContract [] []) = (.ok (), equalContract [] manifest)
      ∧ main (equalGenerated []).schemas (equalGenerated []).fixtures (equalGenerated []).fields
        (some "generate") (equalContract [] manifest) = (.ok (), equalContract [] manifest)
      ∧ InStep (equalGenerated []) manifest (equalContract [] manifest)
      ∧ (main (equalGenerated []).schemas (equalGenerated []).fixtures (equalGenerated []).fields
        (some "check") (equalContract [] [])).fst ≠ .ok () := by
  obtain ⟨hstable, hinStep, hedit⟩ := generate_check prettyWriter (equalGenerated [])
  obtain ⟨manifest, hmanifest⟩ := exists_manifestBytes prettyWriter (fun _ => ⟨_, rfl⟩)
    (equalGenerated []).schemas (equalGenerated []).fixtures
    (fun fixture hfixture => ⟨[], read_equalContract_invalid [] [] hfixture⟩)
  have hwrite := exec_writeAssets_equalContract [] manifest
  obtain ⟨hmanifest', hcheck, hagain, -⟩ := hstable _ _ manifest hmanifest hwrite
  have hgenerate := main_generate_eq_ok_iff.mpr ⟨manifest, hmanifest, hwrite⟩
  refine ⟨manifest, hgenerate, hagain, hinStep _ manifest hmanifest' hcheck,
    hedit _ _ _ hgenerate ?_ (.manifest ?_ ?_)⟩
  · intro fixture hfixture x y hx hy _
    rw [read_equalContract_invalid _ _ hfixture] at hx hy
    rw [← Except.ok.inj hx, ← Except.ok.inj hy]
  · -- the manifest is a document, and the empty text is none
    intro hsame
    obtain rfl : [] = manifest := Except.ok.inj hsame
    obtain ⟨_, -, hparse⟩ := parse_manifestBytes prettyWriter hmanifest
    cases hparse
  · intro fixture hfixture hdiffers
    exact hdiffers ((read_equalContract_invalid _ _ hfixture).trans
      (read_equalContract_invalid _ _ hfixture).symm)

end ContractSchema
