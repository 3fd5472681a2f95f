import NautilusAgents.ContractAgreement

/-!
# The embedded contract

The library carries the contract it was built with: the bytes of every schema
and fixture, each under its name with what is expected of it, and the digest
that the manifest records. A consumer tests against these bytes, and compares
digests to see whether it has the contract of its peer.

The lists of the library and those of the tool are written down apart. The
tables agree (`Conformance.fixtureSources_perm`), so what the library embeds of
a contract that passes the check is what the manifest lists, entry for entry;
the digest is then a hash of everything embedded, and it identifies it as far
as the hash tells texts apart (`Conformance.contractDigest_identifies`).
-/

namespace Conformance

open ContractSchema

/-! ## Assets -/

/-- **An embedded schema.** -/
structure Schema where
  /-- The name of the file. -/
  name : String
  /-- The type it describes. -/
  rootType : String
  /-- The content of the file. -/
  bytes : List UInt8
  deriving DecidableEq

/-- Whether a fixture must pass or fail. -/
inductive FixtureExpectation where
  | valid
  | invalid
  deriving DecidableEq

/-- **An embedded fixture.** -/
structure Fixture where
  /-- The name of the file. -/
  name : String
  /-- The type it is decoded as. -/
  rootType : String
  /-- The content of the file. -/
  bytes : List UInt8
  /-- Whether it must pass. -/
  expectation : FixtureExpectation
  /-- The code of the error it must fail with. -/
  expectedError : Option ErrorCode
  deriving DecidableEq

/-- The bytes of a file of the contract at the time of the build, which fails
where there is no such file. -/
def includeBytes (tree : Tree) (path : String) : Option (List UInt8) :=
  (tree.read (contractPath path)).toOption

/-- The embedded schemas, before their bytes. -/
def schemaSources : List (String × String) :=
  [("agent-trace.schema.json", "AgentTrace"),
    ("decision-receipt.schema.json", "DecisionReceipt"),
    ("live-proposal-request.schema.json", "LiveProposalRequest"),
    ("observation.schema.json", "Observation"),
    ("proposal-response.schema.json", "ProposalResponse")]

/-- An embedded fixture, before its bytes. -/
structure FixtureSource where
  /-- The directory of the file, with a slash behind it. -/
  directory : String
  /-- The name of the file. -/
  name : String
  /-- The type it is decoded as. -/
  rootType : String
  /-- Whether it must pass. -/
  expectation : FixtureExpectation
  /-- The code of the error it must fail with. -/
  expectedError : Option ErrorCode
  deriving DecidableEq

/-- The path of a fixture below the contract directory. -/
def FixtureSource.path (source : FixtureSource) : String := source.directory ++ source.name

/-- A fixture among the valid ones. -/
def validFixture (name rootType : String) : FixtureSource :=
  ⟨"fixtures/valid/", name, rootType, .valid, none⟩

/-- A fixture among the invalid ones. -/
def invalidFixture (name rootType : String) (error : Option ErrorCode) : FixtureSource :=
  ⟨"fixtures/invalid/", name, rootType, .invalid, error⟩

/-- **The embedded fixtures**, those under `fixtures/valid` first. -/
def fixtureSources : List FixtureSource :=
  [validFixture "error-forbidden.json" "ProposalResponse",
    validFixture "error-unsupported-version.json" "ProposalResponse",
    validFixture "full-live-observation.json" "Observation",
    validFixture "receipt-accepted.json" "DecisionReceipt",
    validFixture "receipt-authorized.json" "DecisionReceipt",
    validFixture "receipt-completed.json" "DecisionReceipt",
    validFixture "receipt-dispatch-unknown.json" "DecisionReceipt",
    validFixture "receipt-dispatched.json" "DecisionReceipt",
    validFixture "receipt-not-dispatched.json" "DecisionReceipt",
    validFixture "receipt-rejected.json" "DecisionReceipt",
    validFixture "redacted-observation.json" "Observation",
    validFixture "reduce-position-request.json" "LiveProposalRequest",
    validFixture "trace-no-proposal.json" "AgentTrace",
    validFixture "trace-policy-failure.json" "AgentTrace",
    validFixture "trace-proposal.json" "AgentTrace",
    validFixture "trace-timeout.json" "AgentTrace",
    invalidFixture "client-intent-id.json" "LiveProposalRequest" (some .malformed),
    invalidFixture "digest-mismatch.json" "Observation" (some .malformed),
    invalidFixture "dispatch-claim.json" "LiveProposalRequest" (some .malformed),
    invalidFixture "expired-observation.json" "Observation" (some .staleObservation),
    invalidFixture "expiry-before-creation.json" "Observation" (some .malformed),
    invalidFixture "exponent-quantity.json" "LiveProposalRequest" (some .malformed),
    invalidFixture "guardrail-result.json" "LiveProposalRequest" (some .malformed),
    invalidFixture "idempotency-conflict.json" "LiveProposalRequest" (some .idempotencyConflict),
    -- the one fixture there that is valid
    ⟨"fixtures/invalid/", "idempotency-original.json", "LiveProposalRequest", .valid, none⟩,
    invalidFixture "increment-misaligned-quantity.json" "ProposalCase" (some .rejected),
    invalidFixture "lowered-command.json" "LiveProposalRequest" (some .malformed),
    invalidFixture "missing-digest.json" "Observation" (some .malformed),
    invalidFixture "missing-instrument-view.json" "ProposalCase" (some .rejected),
    invalidFixture "missing-position-view.json" "ProposalCase" (some .rejected),
    invalidFixture "missing-source-timestamp.json" "Observation" (some .malformed),
    invalidFixture "negative-quantity.json" "LiveProposalRequest" (some .malformed),
    invalidFixture "over-precision-quantity.json" "LiveProposalRequest" (some .malformed),
    invalidFixture "position-instrument-mismatch.json" "ProposalCase" (some .rejected),
    invalidFixture "private-authorization-field.json" "LiveProposalRequest" (some .malformed),
    invalidFixture "unknown-enum-variant.json" "LiveProposalRequest" (some .malformed),
    invalidFixture "unknown-field.json" "LiveProposalRequest" (some .malformed),
    invalidFixture "unsupported-feature.json" "ProtocolInfo" (some .unsupportedVersion),
    invalidFixture "unsupported-protocol-major.json" "LiveProposalRequest"
      (some .unsupportedVersion),
    invalidFixture "zero-quantity.json" "LiveProposalRequest" (some .malformed)]

/-- **The embedded schemas**, in the order of their paths. -/
def schemas (tree : Tree) : Option (List Schema) :=
  schemaSources.mapM (fun source => (includeBytes tree ("schema/" ++ source.fst)).map
    (fun bytes => ⟨source.fst, source.snd, bytes⟩))

/-- **The embedded fixtures**, grouped by directory. -/
def fixtures (tree : Tree) : Option (List Fixture) :=
  fixtureSources.mapM (fun source => (includeBytes tree source.path).map
    (fun bytes => ⟨source.name, source.rootType, bytes, source.expectation,
      source.expectedError⟩))

/-- Read the digest of a manifest, which may have other fields besides: from an
object that has the member once, or from an array of the one field. -/
def manifestDigest : Json → Option String
  | .obj members =>
    if members.countP (fun m => m.fst == "contract_digest") = 1 then
      (members.lookup "contract_digest").bind (fun value =>
        match value with
        | .str digest => some digest
        | _ => none)
    else none
  | .arr [.str digest] => some digest
  | _ => none

/-- **The digest recorded in the embedded manifest.** -/
def contractDigest [Crates] (tree : Tree) : Option ContentDigest := do
  let bytes ← includeBytes tree "manifest.json"
  let value ← (Crates.fromSlice bytes).toOption
  let digest ← manifestDigest value
  (ContentDigest.parse digest).toOption

/-! ## The tables -/

/-- The source of a fixture that the tool generates or reads. -/
def toolSources : List FixtureSource :=
  validFixtureFiles.map (fun p => validFixture p.fst p.snd)
    ++ ContractSchema.invalidFixtures.map (fun fixture =>
      ⟨"fixtures/invalid/", fixture.file, fixture.rootType,
        if fixture.expectedError.isSome then .invalid else .valid, fixture.expectedError⟩)

theorem schemaSources_eq : schemaSources = schemaFiles := rfl

set_option maxRecDepth 4000 in
/-- **The library and the tool list the same fixtures.** -/
theorem fixtureSources_perm : toolSources.Perm fixtureSources := by decide

/-- The paths of what is embedded. -/
def paths : List String :=
  schemaSources.map (fun source => "schema/" ++ source.fst) ++ fixtureSources.map FixtureSource.path

set_option maxRecDepth 4000 in
theorem nodup_paths : paths.Nodup := by decide

/-! ## What the manifest says of it -/

section Entries

variable [Crates]

/-- How the manifest writes an expectation. -/
def FixtureExpectation.text : FixtureExpectation → String
  | .valid => "valid"
  | .invalid => "invalid"

/-- The entry of an embedded schema. -/
def schemaEntry (schema : Schema) : ManifestAsset :=
  manifestAsset "schema" ⟨"schema/" ++ schema.name, schema.rootType, schema.bytes⟩ "schema" none

/-- The entry of an embedded fixture, at the path it was embedded from. -/
def fixtureEntry (path : String) (fixture : Fixture) : ManifestAsset :=
  manifestAsset "fixture" ⟨path, fixture.rootType, fixture.bytes⟩ fixture.expectation.text
    fixture.expectedError

/-- The entries of what is embedded, in the order it is embedded in. -/
def entries (schemas : List Schema) (fixtures : List Fixture) : List ManifestAsset :=
  schemas.map schemaEntry
    ++ List.zipWith fixtureEntry (fixtureSources.map FixtureSource.path) fixtures

/-- **The entries of what is embedded**, in the order of their paths. -/
def manifestEntries (schemas : List Schema) (fixtures : List Fixture) : List ManifestAsset :=
  (entries schemas fixtures).mergeSort (fun left right => decide (left.path ≤ right.path))

theorem manifestEntries_perm (schemas : List Schema) (fixtures : List Fixture) :
    (manifestEntries schemas fixtures).Perm (entries schemas fixtures) :=
  List.mergeSort_perm _ _

end Entries

/-! ### As a function of the contents -/

/-- What lies at a path. -/
def contents (tree : Tree) (path : String) : List UInt8 := (includeBytes tree path).getD []

/-- The schemas, given what lies at each path. -/
def schemasOf (contents : String → List UInt8) : List Schema :=
  schemaSources.map (fun source => ⟨source.fst, source.snd, contents ("schema/" ++ source.fst)⟩)

/-- The fixtures, given what lies at each path. -/
def fixturesOf (contents : String → List UInt8) : List Fixture :=
  fixtureSources.map (fun source => ⟨source.name, source.rootType, contents source.path,
    source.expectation, source.expectedError⟩)

/-- The entry of a source, given what lies at each path. -/
def sourceEntry [Crates] (contents : String → List UInt8) (source : FixtureSource) :
    ManifestAsset :=
  manifestAsset "fixture" ⟨source.path, source.rootType, contents source.path⟩
    source.expectation.text source.expectedError

theorem mapM_map_eq_some {α β γ : Type} {l : List α} {f : α → Option β} {g : α → β} {h : α → β → γ}
    (hf : ∀ a ∈ l, f a = some (g a)) :
    l.mapM (fun a => (f a).map (h a)) = some (l.map (fun a => h a (g a))) := by
  induction l with
  | nil => rfl
  | cons a l ih =>
    rw [List.forall_mem_cons] at hf
    rw [List.mapM_cons, hf.1, ih hf.2]
    rfl

/-- **The build succeeds** where every file is there. -/
theorem schemas_eq_some {tree : Tree}
    (h : ∀ path ∈ paths, includeBytes tree path = some (contents tree path)) :
    schemas tree = some (schemasOf (contents tree)) :=
  mapM_map_eq_some (fun _ hsource =>
    h _ (List.mem_append_left _ (List.mem_map_of_mem hsource)))

theorem fixtures_eq_some {tree : Tree}
    (h : ∀ path ∈ paths, includeBytes tree path = some (contents tree path)) :
    fixtures tree = some (fixturesOf (contents tree)) :=
  mapM_map_eq_some (fun _ hsource =>
    h _ (List.mem_append_right _ (List.mem_map_of_mem hsource)))

theorem entries_of [Crates] (contents : String → List UInt8) :
    entries (schemasOf contents) (fixturesOf contents)
      = schemaSources.map (fun source => manifestAsset "schema"
          ⟨"schema/" ++ source.fst, source.snd, contents ("schema/" ++ source.fst)⟩ "schema" none)
        ++ fixtureSources.map (sourceEntry contents) := by
  unfold entries schemasOf fixturesOf
  rw [List.map_map, List.zipWith_map, List.zipWith_self]
  rfl

/-- What an entry tells a file by. -/
def fileKey (asset : ManifestAsset) : String × String := (asset.path, asset.sha256)

theorem map_fileKey_entries [Crates] (contents : String → List UInt8) :
    (entries (schemasOf contents) (fixturesOf contents)).map fileKey
      = paths.map (fun path => (path, (Canonical.sha256Bytes (contents path)).text)) := by
  rw [entries_of]
  unfold paths
  rw [List.map_append, List.map_append, List.map_map, List.map_map, List.map_map, List.map_map]
  rfl

/-! ## What the check vouches for -/

/-- **Entries with different paths have one order.** -/
theorem mergeSort_eq_of_perm {l l' : List ManifestAsset} (hperm : l.Perm l')
    (hnd : (l.map ManifestAsset.path).Nodup) :
    l.mergeSort (fun left right => decide (left.path ≤ right.path))
      = l'.mergeSort (fun left right => decide (left.path ≤ right.path)) := by
  have hsorted : ∀ l : List ManifestAsset,
      (l.mergeSort (fun left right => decide (left.path ≤ right.path))).Pairwise
        (fun left right => decide (left.path ≤ right.path) = true) :=
    List.pairwise_mergeSort
      (fun a b c hab hbc => decide_eq_true ((of_decide_eq_true hab).trans (of_decide_eq_true hbc)))
      (fun a b => by
        rw [Bool.or_eq_true, decide_eq_true_iff, decide_eq_true_iff]
        exact le_total _ _)
  refine List.Perm.eq_of_pairwise (fun a b ha hb hab hba => ?_) (hsorted l) (hsorted l')
    ((List.mergeSort_perm l _).trans (hperm.trans (List.mergeSort_perm l' _).symm))
  have hpath : a.path = b.path := le_antisymm (of_decide_eq_true hab) (of_decide_eq_true hba)
  exact List.inj_on_of_nodup_map hnd (List.mem_mergeSort.mp ha)
    (hperm.mem_iff.mpr (List.mem_mergeSort.mp hb)) hpath

section Check

variable [Crates]

/-- The entry of a fixture written by hand is that of its source. -/
theorem invalidAsset_eq {tree : Tree} {fixture : InvalidFixture} {bytes : List UInt8}
    (h : tree.read (contractPath fixture.path) = .ok bytes) :
    invalidAsset tree fixture = .ok (sourceEntry (contents tree)
      ⟨"fixtures/invalid/", fixture.file, fixture.rootType,
        if fixture.expectedError.isSome then .invalid else .valid, fixture.expectedError⟩) := by
  have hcontents : contents tree fixture.path = bytes := by
    unfold contents includeBytes
    rw [h]
    rfl
  have hpath : ("fixtures/invalid/" ++ fixture.file : String) = fixture.path := rfl
  unfold invalidAsset sourceEntry FixtureSource.path
  rw [h, hpath, hcontents]
  cases hcode : fixture.expectedError <;> rfl

variable {g : Generated} {tree : Tree}

/-- **The entries of the manifest are those of what is embedded**, where the
generated files are in place. -/
theorem manifestAssets_eq {assets : List ManifestAsset}
    (hassets : manifestAssets g.schemas g.fixtures tree = .ok assets)
    (hfiles : ∀ asset ∈ g.schemas ++ g.fixtures,
      tree.read (contractPath asset.path) = .ok asset.bytes) :
    assets = manifestEntries (schemasOf (contents tree)) (fixturesOf (contents tree)) := by
  obtain ⟨invalid, hinvalid, hsorted⟩ := Except.bind_eq_ok_iff.mp hassets
  obtain rfl := Except.ok.inj hsorted
  have hbytes : ∀ asset ∈ g.schemas ++ g.fixtures, contents tree asset.path = asset.bytes := by
    intro asset hasset
    unfold contents includeBytes
    rw [hfiles asset hasset]
    rfl
  -- the fixtures written by hand, read from the tree
  have hread : ∀ fixture ∈ ContractSchema.invalidFixtures,
      ∃ bytes, tree.read (contractPath fixture.path) = .ok bytes := by
    intro fixture hfixture
    obtain ⟨asset, -, hok⟩ := (Except.mapM_eq_ok hinvalid).1 fixture hfixture
    obtain ⟨bytes, hbytes, -⟩ := Except.map_eq_ok_iff.mp hok
    exact ⟨bytes, Except.mapError_eq_ok_iff.mp hbytes⟩
  rw [Except.mapM_congr (fun fixture hfixture =>
    invalidAsset_eq (hread fixture hfixture).choose_spec)] at hinvalid
  obtain rfl := Except.ok.inj (hinvalid.symm.trans List.mapM_pure)
  -- the generated ones, which are in place
  have hschemas : g.schemas.map (fun schema => manifestAsset "schema" schema "schema" none)
      = schemaSources.map (fun source => manifestAsset "schema" ⟨"schema/" ++ source.fst,
          source.snd, contents tree ("schema/" ++ source.fst)⟩ "schema" none) := by
    unfold Generated.schemas schemaAssets
    rw [schemaSources_eq, List.map_map]
    refine List.map_congr_left (fun p hp => ?_)
    have hp := hbytes _ (List.mem_append_left _ (List.mem_map_of_mem hp))
    exact congrArg (fun bytes => manifestAsset "schema" ⟨"schema/" ++ p.fst, p.snd, bytes⟩
      "schema" none) hp.symm
  have hfixtures : g.fixtures.map (fun fixture => manifestAsset "fixture" fixture "valid" none)
      = (validFixtureFiles.map (fun p => validFixture p.fst p.snd)).map
          (sourceEntry (contents tree)) := by
    unfold Generated.fixtures validFixtureAssets
    rw [List.map_map, List.map_map]
    refine List.map_congr_left (fun p hp => ?_)
    have hp := hbytes _ (List.mem_append_right _ (List.mem_map_of_mem hp))
    exact congrArg (fun bytes => manifestAsset "fixture" ⟨"fixtures/valid/" ++ p.fst, p.snd, bytes⟩
      "valid" none) hp.symm
  have htool : (validFixtureFiles.map (fun p => validFixture p.fst p.snd)).map
        (sourceEntry (contents tree))
      ++ ContractSchema.invalidFixtures.map (fun fixture => sourceEntry (contents tree)
        ⟨"fixtures/invalid/", fixture.file, fixture.rootType,
          if fixture.expectedError.isSome then .invalid else .valid, fixture.expectedError⟩)
      = toolSources.map (sourceEntry (contents tree)) := by
    unfold toolSources
    rw [List.map_append, List.map_map, List.map_map]
    rfl
  have hnd : ((entries (schemasOf (contents tree)) (fixturesOf (contents tree))).map
      ManifestAsset.path).Nodup := by
    have hkeys := congrArg (List.map Prod.fst) (map_fileKey_entries (contents tree))
    rw [List.map_map, List.map_map] at hkeys
    exact (hkeys.trans (List.map_id _)) ▸ nodup_paths
  refine (mergeSort_eq_of_perm ?_ hnd).symm
  rw [hschemas, hfixtures, List.append_assoc, htool, entries_of]
  exact (fixtureSources_perm.symm.map _).append_left _

/-- **Everything embedded is there.** -/
theorem includeBytes_eq_some {assets : List ManifestAsset}
    (hassets : manifestAssets g.schemas g.fixtures tree = .ok assets)
    (hfiles : ∀ asset ∈ g.schemas ++ g.fixtures,
      tree.read (contractPath asset.path) = .ok asset.bytes) :
    ∀ path ∈ paths, includeBytes tree path = some (contents tree path) := by
  intro path hpath
  have hkey : (path, (Canonical.sha256Bytes (contents tree path)).text)
      ∈ (entries (schemasOf (contents tree)) (fixturesOf (contents tree))).map fileKey := by
    rw [map_fileKey_entries]
    exact List.mem_map_of_mem hpath
  obtain ⟨asset, hasset, hkey⟩ := List.mem_map.mp hkey
  have hmem : asset ∈ assets := by
    rw [manifestAssets_eq hassets hfiles]
    exact List.mem_mergeSort.mpr hasset
  obtain ⟨bytes, hread, -⟩ := (manifestAssets_eq_ok hassets hfiles).2 asset hmem
  rw [show asset.path = path from congrArg Prod.fst hkey] at hread
  unfold contents includeBytes
  rw [hread]
  rfl

end Check

/-! ## The digest of the manifest -/

section Digest

/-- The lengths of the embedded files are numbers a double holds exactly. -/
def Exact (tree : Tree) : Prop := ∀ path ∈ paths, (contents tree path).length ≤ 2 ^ 53

theorem depthLE_nat (n m : ℕ) : (Json.nat m).DepthLE n := by
  intro path d hd
  cases path with
  | nil => exact Nat.zero_le _
  | cons i path => cases hd

/-- An array is one level deeper than its items. -/
theorem depthLE_arr {n : ℕ} {xs : List Json} (h : ∀ x ∈ xs, x.DepthLE n) :
    (Json.arr xs).DepthLE (n + 1) := by
  intro path d hd
  cases path with
  | nil => exact Nat.zero_le _
  | cons i path =>
    rw [Json.place_cons, Json.child, Option.bind_eq_some_iff] at hd
    obtain ⟨x, hx, hd⟩ := hd
    exact Nat.succ_le_succ (h x (List.mem_of_getElem? hx) path d hd)

theorem iJson_manifestAsset {asset : ManifestAsset} (h : asset.byteLength ≤ 2 ^ 53) :
    (serialize asset).IJson := by
  cases hcode : asset.expectedError <;> simp [serialize, hcode, Json.IJson.nat h]

theorem depthLE_manifestAsset (n : ℕ) (asset : ManifestAsset) :
    (serialize asset).DepthLE (n + 1) := by
  refine Json.depthLE_obj ?_
  cases hcode : asset.expectedError <;>
    simp [serialize, Json.depthLE_str, depthLE_nat]

/-- The manifest of files of such lengths is a document the reader takes. -/
theorem iJson_manifest {manifest : Manifest}
    (h : ∀ asset ∈ manifest.assets, asset.byteLength ≤ 2 ^ 53) : (serialize manifest).IJson := by
  have hassets : (Json.arr (manifest.assets.map serialize)).IJson := by
    refine .arr (fun x hx => ?_)
    obtain ⟨asset, hasset, rfl⟩ := List.mem_map.mp hx
    exact iJson_manifestAsset (h asset hasset)
  have hnames : ["protocol_version", "generator_version", "contract_digest", "assets"].Nodup := by
    decide
  refine .obj hnames (fun m hm => ?_)
  simp only [List.mem_cons, List.not_mem_nil, or_false] at hm
  rcases hm with rfl | rfl | rfl | rfl
  · exact .str _
  · exact .str _
  · exact .str _
  · exact hassets

/-- A manifest is four levels deep. -/
theorem depthLE_manifest (manifest : Manifest) : (serialize manifest).DepthLE Crates.maxDepth := by
  have hassets : (Json.arr (manifest.assets.map serialize)).DepthLE (Crates.maxDepth - 1) := by
    refine depthLE_arr (fun x hx => ?_)
    obtain ⟨asset, -, rfl⟩ := List.mem_map.mp hx
    exact depthLE_manifestAsset _ asset
  refine Json.depthLE_obj (fun m hm => ?_)
  simp only [List.mem_cons, List.not_mem_nil, or_false] at hm
  rcases hm with rfl | rfl | rfl | rfl
  · exact Json.depthLE_str _ _
  · exact Json.depthLE_str _ _
  · exact Json.depthLE_str _ _
  · exact hassets

theorem manifestDigest_serialize (manifest : Manifest) :
    manifestDigest (serialize manifest) = some manifest.contractDigest := by
  have hcount : (serialize manifest).members.countP (fun m => m.fst == "contract_digest") = 1 := rfl
  show (if (serialize manifest).members.countP (fun m => m.fst == "contract_digest") = 1
    then some manifest.contractDigest else none) = _
  rw [if_pos hcount]

/-- The digest of a manifest is read back. -/
theorem parse_text (digest : ContentDigest) : ContentDigest.parse digest.text = .ok digest :=
  parseChecked_of_ok _

variable [Crates]

theorem forall_mem_manifestEntries {tree : Tree} (h : Exact tree) :
    ∀ asset ∈ manifestEntries (schemasOf (contents tree)) (fixturesOf (contents tree)),
      asset.byteLength ≤ 2 ^ 53 := by
  intro asset hasset
  have hentry := List.mem_mergeSort.mp hasset
  rw [entries_of] at hentry
  rcases List.mem_append.mp hentry with hschema | hfixture
  · obtain ⟨source, hsource, rfl⟩ := List.mem_map.mp hschema
    exact h _ (List.mem_append_left _ (List.mem_map_of_mem hsource))
  · obtain ⟨source, hsource, rfl⟩ := List.mem_map.mp hfixture
    exact h _ (List.mem_append_right _ (List.mem_map_of_mem hsource))

/-- A written manifest is read back. -/
theorem fromSlice_manifest (hread : Crates.Reader) {manifest : Manifest}
    (h : ∀ asset ∈ manifest.assets, asset.byteLength ≤ 2 ^ 53) :
    Crates.fromSlice ((serialize manifest).prettyBytes ++ [0x0a]) = .ok (serialize manifest) :=
  hread _ _ (Json.parse_prettyBytes (natural_manifest _)) (iJson_manifest h) (depthLE_manifest _)

variable [PrettyCrate] {g : Generated} {tree : Tree}

/-- **The embedded digest is that of the entries of what is embedded.** -/
theorem contractDigest_eq (hwrite : PrettyCrate.PrettyWriter) (hread : Crates.Reader)
    (hcheck : (main g.schemas g.fixtures g.fields (some "check") tree).fst = .ok ())
    (hexact : Exact tree) :
    (∀ path ∈ paths, includeBytes tree path = some (contents tree path))
      ∧ ∃ digest, contractDigest tree = some digest
        ∧ Canonical.sha256
          (manifestEntries (schemasOf (contents tree)) (fixturesOf (contents tree)))
            = .ok digest := by
  obtain ⟨committed, hmanifest, hcheck⟩ := main_check_eq_ok_iff.mp hcheck
  have hin := inStep_of_checkAssets hwrite hmanifest hcheck
  obtain ⟨assets, hassets, hrest⟩ := Except.bind_eq_ok_iff.mp hmanifest
  obtain ⟨digest, hdigest, hwritten⟩ := Except.bind_eq_ok_iff.mp hrest
  obtain rfl := manifestAssets_eq hassets hin.assets
  rw [prettyJson_eq_ok hwrite (natural_manifest _)] at hwritten
  obtain rfl := Except.ok.inj hwritten
  refine ⟨includeBytes_eq_some hassets hin.assets, digest, ?_, Except.mapError_eq_ok_iff.mp hdigest⟩
  unfold contractDigest includeBytes
  rw [hin.committed]
  show ((Crates.fromSlice _).toOption >>= _) = _
  rw [fromSlice_manifest hread (forall_mem_manifestEntries hexact)]
  simp only [Except.toOption, Option.bind_eq_bind, Option.bind_some, manifestDigest_serialize,
    parse_text]

end Digest

/-! ## What the digest identifies -/

section Identifies

/-- What the canonical document of an entry tells a file by. -/
theorem fileKey_eq_of_canonical_eq {a b : ManifestAsset}
    (h : (serialize a).canonical = (serialize b).canonical) (ha : a.byteLength ≤ 2 ^ 53)
    (hb : b.byteLength ≤ 2 ^ 53) : fileKey a = fileKey b := by
  have hnd : ∀ {asset : ManifestAsset}, asset.byteLength ≤ 2 ^ 53 →
      ((serialize asset).members.map Prod.fst).Nodup :=
    fun hlength => (Json.iJson_obj.mp (iJson_manifestAsset hlength)).1
  have hmember : ∀ {asset : ManifestAsset}, asset.byteLength ≤ 2 ^ 53 → ∀ name,
      (serialize asset).canonical.member name
        = ((serialize asset).member name).map Json.canonical :=
    fun hlength name => Json.layout_canonical.member (hnd hlength) name
  have hpath := (hmember ha "path").symm.trans ((congrArg (Json.member "path") h).trans
    (hmember hb "path"))
  have hsha := (hmember ha "sha256").symm.trans ((congrArg (Json.member "sha256") h).trans
    (hmember hb "sha256"))
  rw [member_path, member_path, Option.map_some, Option.map_some, Json.layout_canonical.str,
    Json.layout_canonical.str] at hpath
  rw [member_sha256, member_sha256, Option.map_some, Option.map_some, Json.layout_canonical.str,
    Json.layout_canonical.str] at hsha
  exact Prod.ext (Json.str.inj (Option.some.inj hpath)) (Json.str.inj (Option.some.inj hsha))

theorem map_fileKey_eq_of_canonical_eq {l l' : List ManifestAsset}
    (h : (serialize l).canonical = (serialize l').canonical)
    (hl : ∀ asset ∈ l, asset.byteLength ≤ 2 ^ 53) (hl' : ∀ asset ∈ l', asset.byteLength ≤ 2 ^ 53) :
    l.map fileKey = l'.map fileKey := by
  have hitems : ∀ l : List ManifestAsset, (serialize l).canonical
      = .arr (l.map (fun asset => (serialize asset).canonical)) := by
    intro l
    show (Json.arr (l.map serialize)).canonical = _
    rw [Json.canonical, Json.canonicalItems_eq_map, List.map_map]
    rfl
  rw [hitems, hitems, Json.arr.injEq] at h
  induction l generalizing l' with
  | nil =>
    cases l' with
    | nil => rfl
    | cons b l' => cases h
  | cons a l ih =>
    cases l' with
    | nil => cases h
    | cons b l' =>
      rw [List.forall_mem_cons] at hl hl'
      obtain ⟨hhead, htail⟩ := List.cons_eq_cons.mp h
      rw [List.map_cons, List.map_cons, fileKey_eq_of_canonical_eq hhead hl.1 hl'.1,
        ih htail hl.2 hl'.2]

/-- The embedded files are those at the paths. -/
theorem schemasOf_eq_and_fixturesOf_eq_iff {c c' : String → List UInt8} :
    schemasOf c = schemasOf c' ∧ fixturesOf c = fixturesOf c'
      ↔ ∀ path ∈ paths, c path = c' path := by
  unfold schemasOf fixturesOf paths
  rw [List.forall_mem_append, List.forall_mem_map, List.forall_mem_map, List.map_inj_left,
    List.map_inj_left]
  simp only [Schema.mk.injEq, Fixture.mk.injEq, true_and, and_true]

variable [Crates]

/-- The text the digest of what is embedded is computed of. -/
def hashedText (schemas : List Schema) (fixtures : List Fixture) : List UInt8 :=
  (serialize (manifestEntries schemas fixtures)).canonical.encode

theorem sha256_manifestEntries (hcanon : Crates.Rfc8785) {tree : Tree} (hexact : Exact tree) :
    Canonical.sha256 (manifestEntries (schemasOf (contents tree)) (fixturesOf (contents tree)))
      = .ok (Canonical.sha256Bytes
        (hashedText (schemasOf (contents tree)) (fixturesOf (contents tree)))) := by
  have hjson : (serialize (manifestEntries (schemasOf (contents tree))
      (fixturesOf (contents tree)))).IJson := by
    refine .arr (fun x hx => ?_)
    obtain ⟨asset, hasset, rfl⟩ := List.mem_map.mp hx
    exact iJson_manifestAsset (forall_mem_manifestEntries hexact asset hasset)
  unfold Canonical.sha256 Canonical.toVec
  rw [hcanon _ hjson]
  rfl

/-- **Texts that agree are of the same files**, as far as the hash tells files
apart. -/
theorem contents_eq_of_hashedText_eq {tree tree' : Tree} (hexact : Exact tree)
    (hexact' : Exact tree')
    (h : hashedText (schemasOf (contents tree)) (fixturesOf (contents tree))
      = hashedText (schemasOf (contents tree')) (fixturesOf (contents tree')))
    (hcollision : ∀ path ∈ paths, Crates.NoCollision (contents tree path) (contents tree' path)) :
    ∀ path ∈ paths, contents tree path = contents tree' path := by
  have hjson : ∀ {tree : Tree}, Exact tree → (serialize (manifestEntries
      (schemasOf (contents tree)) (fixturesOf (contents tree)))).canonical.IJson := by
    intro tree hexact
    refine Json.IJson.layout Json.layout_canonical (.arr (fun x hx => ?_))
    obtain ⟨asset, hasset, rfl⟩ := List.mem_map.mp hx
    exact iJson_manifestAsset (forall_mem_manifestEntries hexact asset hasset)
  have hkeys := map_fileKey_eq_of_canonical_eq
    ((Json.encode_inj (hjson hexact) (hjson hexact')).mp h)
    (forall_mem_manifestEntries hexact) (forall_mem_manifestEntries hexact')
  -- the entries list the same hash for each path
  have hperm : (paths.map (fun path =>
      (path, (Canonical.sha256Bytes (contents tree path)).text))).Perm
      (paths.map (fun path => (path, (Canonical.sha256Bytes (contents tree' path)).text))) := by
    rw [← map_fileKey_entries, ← map_fileKey_entries]
    refine ((manifestEntries_perm _ _).map fileKey).symm.trans ?_
    rw [hkeys]
    exact (manifestEntries_perm _ _).map fileKey
  intro path hpath
  obtain ⟨other, -, hother⟩ := List.mem_map.mp (hperm.mem_iff.mp (List.mem_map_of_mem hpath))
  obtain ⟨rfl, hsha⟩ := Prod.mk.inj hother
  exact hcollision other hpath (ContentDigest.new_injective (ContentDigest.ext hsha.symm))

/-- The hash tells apart what the two builds embed: the files at each embedded
path, and the texts the digests are computed of. -/
def NoCollisions (tree tree' : Tree) (schemas schemas' : List Schema)
    (fixtures fixtures' : List Fixture) : Prop :=
  Crates.NoCollision (hashedText schemas fixtures) (hashedText schemas' fixtures')
    ∧ ∀ path ∈ paths, ∀ x y, includeBytes tree path = some x →
      includeBytes tree' path = some y → Crates.NoCollision x y

/-- **The embedded digest identifies the embedded contract.** A build of a
contract that passes the check embeds every schema and fixture, and its digest
is the hash of their manifest entries; two such builds have the same digest
exactly when they embed the same schemas and fixtures. -/
theorem contractDigest_identifies [PrettyCrate] (hwrite : PrettyCrate.PrettyWriter)
    (hcanon : Crates.Rfc8785) (hread : Crates.Reader) {g g' : Generated} {tree tree' : Tree}
    (hcheck : (main g.schemas g.fixtures g.fields (some "check") tree).fst = .ok ())
    (hcheck' : (main g'.schemas g'.fixtures g'.fields (some "check") tree').fst = .ok ())
    (hexact : Exact tree) (hexact' : Exact tree') :
    ∃ ss fs digest ss' fs' digest', schemas tree = some ss ∧ fixtures tree = some fs
      ∧ contractDigest tree = some digest
      ∧ Canonical.sha256 (manifestEntries ss fs) = .ok digest
      ∧ schemas tree' = some ss' ∧ fixtures tree' = some fs'
      ∧ contractDigest tree' = some digest'
      ∧ (NoCollisions tree tree' ss ss' fs fs' →
        (digest = digest' ↔ ss = ss' ∧ fs = fs')) := by
  obtain ⟨hbytes, digest, hdigest, hhash⟩ := contractDigest_eq hwrite hread hcheck hexact
  obtain ⟨hbytes', digest', hdigest', hhash'⟩ := contractDigest_eq hwrite hread hcheck' hexact'
  refine ⟨_, _, digest, _, _, digest', schemas_eq_some hbytes, fixtures_eq_some hbytes, hdigest,
    hhash, schemas_eq_some hbytes', fixtures_eq_some hbytes', hdigest', ?_⟩
  rintro ⟨htexts, hfiles⟩
  rw [sha256_manifestEntries hcanon hexact, Except.ok.injEq] at hhash
  rw [sha256_manifestEntries hcanon hexact', Except.ok.injEq] at hhash'
  rw [schemasOf_eq_and_fixturesOf_eq_iff, ← hhash, ← hhash']
  constructor
  · intro hsame
    exact contents_eq_of_hashedText_eq hexact hexact'
      (htexts (ContentDigest.new_injective hsame))
      (fun path hpath => hfiles path hpath _ _ (hbytes path hpath) (hbytes' path hpath))
  · intro hsame
    obtain ⟨hschemas, hfixtures⟩ := schemasOf_eq_and_fixturesOf_eq_iff.mpr hsame
    rw [hschemas, hfixtures]

end Identifies

end Conformance

open ContractSchema

namespace Conformance

/-! ## Two contracts -/

section Equal

variable (bytes manifest : List UInt8)

theorem read_equalContract {path : String} (h : path ∈ paths) :
    (equalContract bytes manifest).read (contractPath path) = .ok bytes := by
  have hgenerated : ∀ asset ∈ (equalGenerated bytes).schemas ++ (equalGenerated bytes).fixtures,
      (equalContract bytes manifest).read (contractPath asset.path) = .ok asset.bytes :=
    fun asset hasset => FileTree.read_eq_ok_iff.mpr (find_equalContract_asset bytes manifest hasset)
  rcases List.mem_append.mp h with hschema | hfixture
  · obtain ⟨source, hsource, rfl⟩ := List.mem_map.mp hschema
    exact hgenerated ⟨"schema/" ++ source.fst, source.snd, bytes⟩
      (List.mem_append_left _ (List.mem_map.mpr ⟨source, hsource, rfl⟩))
  · obtain ⟨source, hsource, rfl⟩ := List.mem_map.mp hfixture
    rcases List.mem_append.mp (fixtureSources_perm.mem_iff.mpr hsource) with hvalid | hinvalid
    · obtain ⟨p, hp, rfl⟩ := List.mem_map.mp hvalid
      exact hgenerated ⟨"fixtures/valid/" ++ p.fst, p.snd, bytes⟩
        (List.mem_append_right _ (List.mem_map.mpr ⟨p, hp, rfl⟩))
    · obtain ⟨fixture, hmem, rfl⟩ := List.mem_map.mp hinvalid
      exact read_equalContract_invalid bytes manifest hmem

theorem includeBytes_equalContract {path : String} (h : path ∈ paths) :
    includeBytes (equalContract bytes manifest) path = some bytes := by
  unfold includeBytes
  rw [read_equalContract bytes manifest h]
  rfl

theorem contents_equalContract {path : String} (h : path ∈ paths) :
    contents (equalContract bytes manifest) path = bytes := by
  unfold contents
  rw [includeBytes_equalContract bytes manifest h]
  rfl

theorem includeBytes_eq_contents {path : String} (h : path ∈ paths) :
    includeBytes (equalContract bytes manifest) path
      = some (contents (equalContract bytes manifest) path) := by
  rw [includeBytes_equalContract bytes manifest h, contents_equalContract bytes manifest h]

/-- What is embedded of such a contract. -/
theorem embedded_equalContract :
    schemasOf (contents (equalContract bytes manifest)) = schemasOf (fun _ => bytes)
      ∧ fixturesOf (contents (equalContract bytes manifest)) = fixturesOf (fun _ => bytes) :=
  schemasOf_eq_and_fixturesOf_eq_iff.mpr
    (fun _ hpath => contents_equalContract bytes manifest hpath)

theorem schemas_equalContract :
    schemas (equalContract bytes manifest) = some (schemasOf (fun _ => bytes)) := by
  rw [schemas_eq_some (fun _ hpath => includeBytes_eq_contents bytes manifest hpath),
    (embedded_equalContract bytes manifest).1]

theorem fixtures_equalContract :
    fixtures (equalContract bytes manifest) = some (fixturesOf (fun _ => bytes)) := by
  rw [fixtures_eq_some (fun _ hpath => includeBytes_eq_contents bytes manifest hpath),
    (embedded_equalContract bytes manifest).2]

variable {bytes}

theorem exact_equalContract (h : bytes.length ≤ 2 ^ 53) : Exact (equalContract bytes manifest) :=
  fun _ hpath => (contents_equalContract bytes manifest hpath).symm ▸ h

theorem exists_check_equalContract [Crates] [PrettyCrate] (hwrite : PrettyCrate.PrettyWriter)
    (hcanonical : ∀ assets : List ManifestAsset, ∃ digest, Canonical.sha256 assets = .ok digest)
    (bytes : List UInt8) : ∃ manifest,
      (main (equalGenerated bytes).schemas (equalGenerated bytes).fixtures
        (equalGenerated bytes).fields (some "check") (equalContract bytes manifest)).fst
          = .ok () := by
  obtain ⟨manifest, hmanifest⟩ := exists_manifestBytes hwrite hcanonical
    (equalGenerated bytes).schemas (equalGenerated bytes).fixtures
    (fun fixture hfixture => ⟨bytes, read_equalContract_invalid bytes [] hfixture⟩)
  refine ⟨manifest, main_check_eq_ok_iff.mpr ⟨manifest, ?_,
    (checkAssets_of_writeAssets (exec_writeAssets_equalContract bytes manifest)).1⟩⟩
  rw [manifestBytes_congr (fun fixture hfixture =>
    (read_equalContract_invalid bytes manifest hfixture).trans
      (read_equalContract_invalid bytes [] hfixture).symm), hmanifest]

end Equal

/-- The text hashed is a list, and no file that begins otherwise is one. -/
theorem head_hashedText [Crates] (schemas : List Schema) (fixtures : List Fixture) :
    (hashedText schemas fixtures).head? = some 0x5b := by
  unfold hashedText
  show (Json.arr ((manifestEntries schemas fixtures).map serialize)).canonical.encode.head? = _
  rw [Json.canonical]
  rfl

/-- The text hashed depends on the hashes of the files only. -/
theorem hashedText_congr (crates crates' : Crates) {contents : String → List UInt8}
    (h : ∀ path ∈ paths, crates.sha256 (contents path) = crates'.sha256 (contents path)) :
    @hashedText crates (schemasOf contents) (fixturesOf contents)
      = @hashedText crates' (schemasOf contents) (fixturesOf contents) := by
  have hasset : ∀ kind path rootType expectation error, path ∈ paths →
      @manifestAsset crates kind ⟨path, rootType, contents path⟩ expectation error
        = @manifestAsset crates' kind ⟨path, rootType, contents path⟩ expectation error := by
    intro kind path rootType expectation error hpath
    unfold manifestAsset Canonical.sha256Bytes
    rw [h path hpath]
  have hentries : @entries crates (schemasOf contents) (fixturesOf contents)
      = @entries crates' (schemasOf contents) (fixturesOf contents) := by
    rw [@entries_of crates, @entries_of crates']
    refine congr_arg₂ _ (List.map_congr_left (fun source hsource => ?_))
      (List.map_congr_left (fun source hsource => ?_))
    · exact hasset _ _ _ _ _ (List.mem_append_left _ (List.mem_map_of_mem hsource))
    · exact hasset _ _ _ _ _ (List.mem_append_right _ (List.mem_map_of_mem hsource))
  unfold hashedText manifestEntries
  rw [hentries]

/-- The document `{}`. -/
def braces : List UInt8 := [0x7b, 0x7d]

/-- The same with a newline. -/
def bracesLine : List UInt8 := [0x7b, 0x7d, 0x0a]

/-- The SHA-256 hashes of the two files. -/
def fileHash : List UInt8 → Vector UInt8 32
  | [0x7b, 0x7d] =>
    #v[0x44, 0x13, 0x6f, 0xa3, 0x55, 0xb3, 0x67, 0x8a, 0x11, 0x46, 0xad, 0x16, 0xf7, 0xe8, 0x64,
      0x9e, 0x94, 0xfb, 0x4f, 0xc2, 0x1f, 0xe7, 0x7e, 0x83, 0x10, 0xc0, 0x60, 0xf6, 0x1c, 0xaa,
      0xff, 0x8a]
  | [0x7b, 0x7d, 0x0a] =>
    #v[0xca, 0x3d, 0x16, 0x3b, 0xab, 0x05, 0x53, 0x81, 0x82, 0x72, 0x26, 0x14, 0x05, 0x68, 0xf3,
      0xbe, 0xf7, 0xea, 0xac, 0x18, 0x7c, 0xeb, 0xd7, 0x68, 0x78, 0xe0, 0xb6, 0x3e, 0x9e, 0x44,
      0x23, 0x56]
  | _ => Vector.replicate 32 0

/-- Crates that know the hashes of the two files. -/
@[reducible] def fileCrates : Crates := { Fixture.crates with sha256 := fileHash }

/-- The text hashed of a contract whose files hold these bytes. -/
def equalText (bytes : List UInt8) : List UInt8 :=
  @hashedText fileCrates (schemasOf (fun _ => bytes)) (fixturesOf (fun _ => bytes))

/-- Crates that know the hashes of the two contracts as well. -/
@[reducible] def contractCrates : Crates where
  toVec := Fixture.crates.toVec
  fromSlice := Fixture.crates.fromSlice
  canonicalToVec := Fixture.crates.canonicalToVec
  sha256 text :=
    if text = equalText braces then
      #v[0x30, 0xa2, 0xed, 0x8b, 0x15, 0xd8, 0xca, 0xe3, 0x3b, 0x81, 0x65, 0xf8, 0xdb, 0x2d,
        0xef, 0x1c, 0x3d, 0x6f, 0x3f, 0xca, 0x20, 0xa6, 0x05, 0x0d, 0xa8, 0x40, 0x72, 0x3d, 0x78,
        0x8d, 0x18, 0x8e]
    else if text = equalText bracesLine then
      #v[0xa8, 0x04, 0x48, 0x08, 0x64, 0x8e, 0xcd, 0x74, 0xd6, 0x70, 0xad, 0xac, 0x64, 0xaf,
        0x7c, 0x80, 0x9d, 0x63, 0x9b, 0xb7, 0x9f, 0x0a, 0xcf, 0x38, 0x7f, 0xaa, 0xb0, 0xbb, 0x6d,
        0x42, 0x72, 0xd2]
    else fileHash text

/-- A file that begins with a brace is not the text hashed of a contract. -/
theorem ne_equalText {file : List UInt8} (h : file.head? = some 0x7b) (bytes : List UInt8) :
    file ≠ equalText bytes := by
  rintro rfl
  rw [equalText, @head_hashedText fileCrates] at h
  exact absurd h (by decide)

theorem sha256_file {file : List UInt8} (h : file.head? = some 0x7b) :
    contractCrates.sha256 file = fileHash file :=
  (if_neg (ne_equalText h _)).trans (if_neg (ne_equalText h _))

/-- Files with different hashes give different texts. -/
theorem equalText_inj {bytes bytes' : List UInt8} (hlength : bytes.length ≤ 2 ^ 53)
    (hlength' : bytes'.length ≤ 2 ^ 53) (hhash : fileHash bytes = fileHash bytes' → bytes = bytes')
    (h : equalText bytes = equalText bytes') : bytes = bytes' := by
  have hpath : "schema/agent-trace.schema.json" ∈ paths := by decide
  have hcontents := @contents_eq_of_hashedText_eq fileCrates (equalContract bytes [])
    (equalContract bytes' []) (exact_equalContract [] hlength) (exact_equalContract [] hlength')
    ?_ ?_ _ hpath
  · rwa [contents_equalContract bytes [] hpath, contents_equalContract bytes' [] hpath]
      at hcontents
  · rw [(embedded_equalContract bytes []).1, (embedded_equalContract bytes []).2,
      (embedded_equalContract bytes' []).1, (embedded_equalContract bytes' []).2]
    exact h
  · intro path hpath
    rw [contents_equalContract bytes [] hpath, contents_equalContract bytes' [] hpath]
    exact hhash

attribute [local instance] contractCrates Fixture.prettyCrate

theorem equalText_ne : equalText bracesLine ≠ equalText braces :=
  fun h => absurd (equalText_inj (by decide) (by decide) (fun h => absurd h (by decide)) h)
    (by decide)

/-- The hash tells the two contracts apart. -/
theorem noCollision_equalText :
    Crates.NoCollision (equalText braces) (equalText bracesLine) := by
  intro h
  have hbraces : Crates.sha256 (equalText braces) = _ := if_pos rfl
  have hline : Crates.sha256 (equalText bracesLine) = _ :=
    (if_neg equalText_ne).trans (if_pos rfl)
  rw [hbraces, hline] at h
  exact absurd h (by decide)

theorem hashedText_equalContract {bytes : List UInt8} (h : bytes.head? = some 0x7b) :
    hashedText (schemasOf (fun _ => bytes)) (fixturesOf (fun _ => bytes)) = equalText bytes :=
  hashedText_congr contractCrates fileCrates (fun _ _ => sha256_file h)

theorem noCollisions_equalContract (manifest manifest' : List UInt8) :
    NoCollisions (equalContract braces manifest) (equalContract bracesLine manifest')
      (schemasOf (fun _ => braces)) (schemasOf (fun _ => bracesLine))
      (fixturesOf (fun _ => braces)) (fixturesOf (fun _ => bracesLine)) := by
  refine ⟨?_, fun path hpath x y hx hy h => ?_⟩
  · rw [hashedText_equalContract rfl, hashedText_equalContract rfl]
    exact noCollision_equalText
  · rw [includeBytes_equalContract _ _ hpath, Option.some.injEq] at hx hy
    rw [← hx, ← hy, sha256_file rfl, sha256_file rfl] at h
    exact absurd h (by decide)

/-- The contract whose files are all `{}` and the one whose files all have a
newline behind it are embedded whole, and have different digests. -/
theorem contractDigest_equalContract :
    ∃ manifest manifest' ss fs digest ss' fs' digest',
      schemas (equalContract braces manifest) = some ss
      ∧ fixtures (equalContract braces manifest) = some fs
      ∧ contractDigest (equalContract braces manifest) = some digest
      ∧ schemas (equalContract bracesLine manifest') = some ss'
      ∧ fixtures (equalContract bracesLine manifest') = some fs'
      ∧ contractDigest (equalContract bracesLine manifest') = some digest'
      ∧ digest ≠ digest' := by
  have hreader : Crates.Reader := Fixture.reader
  obtain ⟨manifest, hcheck⟩ := exists_check_equalContract Fixture.prettyWriter
    (fun _ => ⟨_, rfl⟩) braces
  obtain ⟨manifest', hcheck'⟩ := exists_check_equalContract Fixture.prettyWriter
    (fun _ => ⟨_, rfl⟩) bracesLine
  obtain ⟨ss, fs, digest, ss', fs', digest', hss, hfs, hdigest, -, hss', hfs', hdigest', hiff⟩ :=
    contractDigest_identifies Fixture.prettyWriter (fun _ _ => rfl) hreader hcheck hcheck'
      (exact_equalContract manifest (by decide)) (exact_equalContract manifest' (by decide))
  refine ⟨manifest, manifest', ss, fs, digest, ss', fs', digest', hss, hfs, hdigest, hss', hfs',
    hdigest', fun hsame => ?_⟩
  obtain rfl := Option.some.inj (hss.symm.trans (schemas_equalContract braces manifest))
  obtain rfl := Option.some.inj (hfs.symm.trans (fixtures_equalContract braces manifest))
  obtain rfl := Option.some.inj (hss'.symm.trans (schemas_equalContract bracesLine manifest'))
  obtain rfl := Option.some.inj (hfs'.symm.trans (fixtures_equalContract bracesLine manifest'))
  have hembedded := ((hiff (noCollisions_equalContract manifest manifest')).mp hsame).1
  exact absurd hembedded (by decide)

end Conformance
