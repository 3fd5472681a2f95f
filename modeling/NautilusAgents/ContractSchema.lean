import NautilusAgents.FileTree
import NautilusAgents.PrettyText
import NautilusAgents.Recording
import NautilusAgents.Stopping

/-!
# Generating and checking the contract

The tool that keeps `contract/v1` in step with the types. It has two modes. In
`generate` it writes the schemas, the valid fixtures, the field list and the
manifest; in `check` it compares each of them with the file that is there. In
both it then looks at the names in the three directories. The invalid fixtures
are written by hand: the tool reads them, in both modes and before anything
else, since the manifest records their length and hash as it does those of the
generated files.

The program is followed operation by operation over a tree of files
(`FileTree`): what stops half way leaves what it has written. The writer and
the checker are the two loops they are in the source, over lists of assets that
may be any; the files the tool generates have the names listed here, and
contents that are a parameter of what is said about them.
-/

/-- The indented writer of `serde_json`. -/
class PrettyCrate where
  /-- `serde_json::to_vec_pretty`. -/
  toVecPretty : Json → Except String (List UInt8)

/-- **The indented writer writes the indented text**: two blanks for each
level, numbers as they are. -/
def PrettyCrate.PrettyWriter [PrettyCrate] : Prop :=
  ∀ j : Json, j.Natural → toVecPretty j = .ok j.prettyBytes

namespace ContractSchema

/-! ## Paths -/

/-- The contract directory of a repository, as it is on disk. -/
abbrev Tree := FileTree OsStr (List UInt8)

/-- The names a relative path consists of. -/
def components (path : String) : List OsStr :=
  (path.toList.splitOn '/').map (fun name => .text (String.ofList name))

/-- A path has at least one name. -/
theorem components_ne_nil (path : String) : components path ≠ [] := by
  unfold components
  rw [Ne, List.map_eq_nil_iff]
  exact List.splitOn_ne_nil '/' path.toList

/-- `Path::file_name` of a path whose last component is a name. -/
def fileName (path : String) : OsStr := (components path).getLast (components_ne_nil path)

/-- The directory of the contract. -/
def contractDir : String := "contract/v1"

/-- A path below the contract directory, from the root of the repository. -/
def contractPath (path : String) : List OsStr := components contractDir ++ components path

/-! ## Assets -/

/-- The version of the tool. -/
def generatorVersion : String := "0.2.0"

/-- A file of the contract. -/
structure Asset where
  /-- Where the file lies, below the contract directory. -/
  path : String
  /-- The type it is about. -/
  rootType : String
  /-- Its content. -/
  bytes : List UInt8
  deriving DecidableEq

/-- What the manifest records of a file. -/
structure ManifestAsset where
  /-- Whether it is a schema or a fixture. -/
  kind : String
  /-- The type it is about. -/
  rootType : String
  /-- Where it lies. -/
  path : String
  /-- The length of its content. -/
  byteLength : ℕ
  /-- The hash of its content. -/
  sha256 : String
  /-- Whether it must pass, where it is a fixture. -/
  expectation : String
  /-- The code of the error it must fail with. -/
  expectedError : Option ErrorCode
  deriving DecidableEq

instance : Serialize ManifestAsset where
  serialize asset := .obj
    ([("kind", .str asset.kind), ("root_type", .str asset.rootType), ("path", .str asset.path),
      ("byte_length", .nat asset.byteLength), ("sha256", .str asset.sha256),
      ("expectation", .str asset.expectation)]
      -- the error is left out where there is none
      ++ asset.expectedError.toList.map (fun code => ("expected_error", serialize code)))

/-- **The manifest.** -/
structure Manifest where
  /-- The version of the protocol. -/
  protocolVersion : String
  /-- The version of the generator. -/
  generatorVersion : String
  /-- The hash of the assets. -/
  contractDigest : String
  /-- What is recorded of each file, in the order of the paths. -/
  assets : List ManifestAsset
  deriving DecidableEq

instance : Serialize Manifest where
  serialize manifest := .obj
    [("protocol_version", .str manifest.protocolVersion),
      ("generator_version", .str manifest.generatorVersion),
      ("contract_digest", .str manifest.contractDigest),
      ("assets", serialize manifest.assets)]

/-- A fixture written by hand, and the error a decoder meets in it. -/
structure InvalidFixture where
  /-- The name of the file. -/
  file : String
  /-- The type it is decoded as. -/
  rootType : String
  /-- The code of the error, if it is to fail. -/
  expectedError : Option ErrorCode
  deriving DecidableEq

/-- **The fixtures written by hand.** -/
def invalidFixtures : List InvalidFixture :=
  [⟨"unknown-field.json", "LiveProposalRequest", some .malformed⟩,
    ⟨"unknown-enum-variant.json", "LiveProposalRequest", some .malformed⟩,
    ⟨"unsupported-protocol-major.json", "LiveProposalRequest", some .unsupportedVersion⟩,
    ⟨"unsupported-feature.json", "ProtocolInfo", some .unsupportedVersion⟩,
    ⟨"missing-source-timestamp.json", "Observation", some .malformed⟩,
    ⟨"missing-digest.json", "Observation", some .malformed⟩,
    ⟨"digest-mismatch.json", "Observation", some .malformed⟩,
    ⟨"expiry-before-creation.json", "Observation", some .malformed⟩,
    ⟨"expired-observation.json", "Observation", some .staleObservation⟩,
    ⟨"missing-position-view.json", "ProposalCase", some .rejected⟩,
    ⟨"missing-instrument-view.json", "ProposalCase", some .rejected⟩,
    ⟨"position-instrument-mismatch.json", "ProposalCase", some .rejected⟩,
    ⟨"zero-quantity.json", "LiveProposalRequest", some .malformed⟩,
    ⟨"negative-quantity.json", "LiveProposalRequest", some .malformed⟩,
    ⟨"exponent-quantity.json", "LiveProposalRequest", some .malformed⟩,
    ⟨"over-precision-quantity.json", "LiveProposalRequest", some .malformed⟩,
    ⟨"increment-misaligned-quantity.json", "ProposalCase", some .rejected⟩,
    ⟨"client-intent-id.json", "LiveProposalRequest", some .malformed⟩,
    ⟨"lowered-command.json", "LiveProposalRequest", some .malformed⟩,
    ⟨"guardrail-result.json", "LiveProposalRequest", some .malformed⟩,
    ⟨"dispatch-claim.json", "LiveProposalRequest", some .malformed⟩,
    ⟨"private-authorization-field.json", "LiveProposalRequest", some .malformed⟩,
    ⟨"idempotency-original.json", "LiveProposalRequest", none⟩,
    ⟨"idempotency-conflict.json", "LiveProposalRequest", some .idempotencyConflict⟩]

/-- The schema files and the types they are derived from. -/
def schemaFiles : List (String × String) :=
  [("agent-trace.schema.json", "AgentTrace"),
    ("decision-receipt.schema.json", "DecisionReceipt"),
    ("live-proposal-request.schema.json", "LiveProposalRequest"),
    ("observation.schema.json", "Observation"),
    ("proposal-response.schema.json", "ProposalResponse")]

/-- The valid fixtures and the types they are values of. -/
def validFixtureFiles : List (String × String) :=
  [("full-live-observation.json", "Observation"),
    ("redacted-observation.json", "Observation"),
    ("reduce-position-request.json", "LiveProposalRequest"),
    ("trace-no-proposal.json", "AgentTrace"),
    ("trace-proposal.json", "AgentTrace"),
    ("trace-timeout.json", "AgentTrace"),
    ("trace-policy-failure.json", "AgentTrace"),
    ("receipt-accepted.json", "DecisionReceipt"),
    ("receipt-rejected.json", "DecisionReceipt"),
    ("receipt-authorized.json", "DecisionReceipt"),
    ("receipt-not-dispatched.json", "DecisionReceipt"),
    ("receipt-dispatched.json", "DecisionReceipt"),
    ("receipt-dispatch-unknown.json", "DecisionReceipt"),
    ("receipt-completed.json", "DecisionReceipt"),
    ("error-forbidden.json", "ProposalResponse"),
    ("error-unsupported-version.json", "ProposalResponse")]

/-- The schemas, given the bytes generated for each file. -/
def schemaAssets (bytes : String → List UInt8) : List Asset :=
  schemaFiles.map (fun p => ⟨"schema/" ++ p.fst, p.snd, bytes p.fst⟩)

/-- The valid fixtures, given the bytes generated for each file. -/
def validFixtureAssets (bytes : String → List UInt8) : List Asset :=
  validFixtureFiles.map (fun p => ⟨"fixtures/valid/" ++ p.fst, p.snd, bytes p.fst⟩)

/-! ## Errors -/

/-- What the tool stops with. -/
inductive ToolError where
  | unknownMode (mode : String)
  | readFixture (path : String) (error : IoError)
  | readFile (path : List OsStr) (error : IoError)
  | readDirectory (path : List OsStr) (error : IoError)
  | createDirectory (error : IoError)
  | writeFile (path : List OsStr) (error : IoError)
  | differs (path : List OsStr)
  | unexpectedFiles (directory : String) (expected found : Finset OsStr)
  | serialization (message : String)
  deriving DecidableEq

/-! ## The manifest -/

section Manifest

variable [Crates] [PrettyCrate]

/-- The indented text of a value and a line feed. -/
def prettyJson {α : Type} [Serialize α] (value : α) : Except ToolError (List UInt8) :=
  (PrettyCrate.toVecPretty (serialize value)).mapError .serialization |>.map (· ++ [0x0a])

/-- **What the manifest records of a file.** -/
def manifestAsset (kind : String) (asset : Asset) (expectation : String)
    (expectedError : Option ErrorCode) : ManifestAsset where
  kind := kind
  rootType := asset.rootType
  path := asset.path
  byteLength := asset.bytes.length
  sha256 := (Canonical.sha256Bytes asset.bytes).text
  expectation := expectation
  expectedError := expectedError

/-- The path of a fixture written by hand. -/
def InvalidFixture.path (fixture : InvalidFixture) : String := "fixtures/invalid/" ++ fixture.file

/-- What the manifest records of a fixture written by hand, which is read for
it. One that no error is expected of is a valid one. -/
def invalidAsset (tree : Tree) (fixture : InvalidFixture) : Except ToolError ManifestAsset :=
  (tree.read (contractPath fixture.path)).mapError (.readFixture fixture.path) |>.map
    (fun bytes => manifestAsset "fixture" ⟨fixture.path, fixture.rootType, bytes⟩
      (if fixture.expectedError.isSome then "invalid" else "valid") fixture.expectedError)

/-- What the manifest records, in the order of the paths. -/
def manifestAssets (schemas fixtures : List Asset) (tree : Tree) :
    Except ToolError (List ManifestAsset) := do
  let invalid ← invalidFixtures.mapM (invalidAsset tree)
  return (schemas.map (fun schema => manifestAsset "schema" schema "schema" none)
    ++ fixtures.map (fun fixture => manifestAsset "fixture" fixture "valid" none)
    ++ invalid).mergeSort (fun left right => decide (left.path ≤ right.path))

/-- **The bytes of the manifest**, from the generated assets and the fixtures
on disk. -/
def manifestBytes (schemas fixtures : List Asset) (tree : Tree) :
    Except ToolError (List UInt8) := do
  let assets ← manifestAssets schemas fixtures tree
  let contractDigest ← (Canonical.sha256 assets).mapError ToolError.serialization
  prettyJson
    { protocolVersion := Nat.repr ProtocolVersion.protocolVersion.major.toNat ++ "."
        ++ Nat.repr ProtocolVersion.protocolVersion.minor.toNat
      generatorVersion := generatorVersion
      contractDigest := contractDigest.text
      assets := assets : Manifest }

end Manifest

/-! ## Reading and writing -/

/-- A part of the tool that may write: where it stops, what has been written
stays. -/
abbrev Tool := Stopping ToolError Tree

/-- **Write a file**, in a directory that is created where it is missing. -/
def writeFile (path : List OsStr) (bytes : List UInt8) : Tool Unit := do
  Stopping.update (fun tree => (tree.createDirAll path.dropLast).mapError .createDirectory)
  Stopping.update (fun tree => (tree.write bytes path).mapError (.writeFile path))

/-- **Compare a file** with what it should hold. -/
def checkFile (path : List OsStr) (expected : List UInt8) (tree : Tree) :
    Except ToolError Unit := do
  let actual ← (tree.read path).mapError (.readFile path)
  if actual ≠ expected then throw (.differs path)

/-- The names in a directory. -/
def directoryNames (path : List OsStr) (tree : Tree) : Except ToolError (Finset OsStr) :=
  (tree.readDir path).mapError (.readDirectory path) |>.map List.toFinset

/-- The directories the names are looked at in, and those expected there. -/
def expectedNames (schemas fixtures : List Asset) : List (String × Finset OsStr) :=
  [("schema", (schemas.map (fun asset => fileName asset.path)).toFinset),
    ("fixtures/valid", (fixtures.map (fun asset => fileName asset.path)).toFinset),
    ("fixtures/invalid", (invalidFixtures.map (fun fixture => .text fixture.file)).toFinset)]

/-- **Compare the names in the three directories** with those expected. -/
def checkExpectedNames (schemas fixtures : List Asset) (tree : Tree) : Except ToolError Unit :=
  (expectedNames schemas fixtures).forM (fun (directory, expected) => do
    let actual ← directoryNames (contractPath directory) tree
    if actual ≠ expected then throw (.unexpectedFiles directory expected actual))

/-- **Write the generated files**, and look at the names. -/
def writeAssets (schemas fixtures : List Asset) (fields manifest : List UInt8) : Tool Unit := do
  (schemas ++ fixtures).forM (fun asset => writeFile (contractPath asset.path) asset.bytes)
  writeFile (contractPath "fields.toml") fields
  writeFile (contractPath "manifest.json") manifest
  Stopping.inspect (checkExpectedNames schemas fixtures)

/-- **Compare the generated files** with those on disk, and look at the
names. -/
def checkAssets (schemas fixtures : List Asset) (fields manifest : List UInt8) (tree : Tree) :
    Except ToolError Unit := do
  (schemas ++ fixtures).forM (fun asset => checkFile (contractPath asset.path) asset.bytes tree)
  checkFile (contractPath "fields.toml") fields tree
  checkFile (contractPath "manifest.json") manifest tree
  checkExpectedNames schemas fixtures tree

/-- **The tool**, for the generated schemas, fixtures and field list. Without
a mode it checks. -/
def main [Crates] [PrettyCrate] (schemas fixtures : List Asset) (fields : List UInt8)
    (mode : Option String) (tree : Tree) : Except ToolError Unit × Tree :=
  let mode := mode.getD "check"
  if mode ≠ "generate" ∧ mode ≠ "check" then (.error (.unknownMode mode), tree)
  else match manifestBytes schemas fixtures tree with
    | .error e => (.error e, tree)
    | .ok manifest =>
      if mode = "generate" then (writeAssets schemas fixtures fields manifest).exec tree
      else (checkAssets schemas fixtures fields manifest tree, tree)

/-! ## Files -/

theorem writeFile_eq_ok {path : List OsStr} {bytes : List UInt8} {tree tree' : Tree}
    (h : (writeFile path bytes).exec tree = (.ok (), tree')) :
    tree'.find path = .ok (.file bytes)
      ∧ ∀ q, FileTree.Apart path q → tree'.find q = tree.find q := by
  obtain ⟨⟨⟩, parents, hcreate, hwrite⟩ := Stopping.exec_bind_eq_ok_iff.mp h
  rw [Stopping.exec_update_eq_ok_iff, Except.mapError_eq_ok_iff] at hcreate hwrite
  refine ⟨FileTree.find_write_self hwrite, fun q hq => ?_⟩
  rw [FileTree.find_write hwrite hq, FileTree.find_createDirAll hcreate]
  exact fun hq' => hq.2 (List.IsPrefix.trans hq' (List.dropLast_prefix path))

/-- Writing a file that is there already changes nothing. -/
theorem writeFile_eq_self {path : List OsStr} (hne : path ≠ []) {bytes : List UInt8} {tree : Tree}
    (h : tree.find path = .ok (.file bytes)) :
    (writeFile path bytes).exec tree = (.ok (), tree) := by
  obtain ⟨entries, hparent⟩ := FileTree.exists_find_dropLast hne h
  refine Stopping.exec_bind_eq_ok_iff.mpr ⟨(), tree, ?_, ?_⟩
  · rw [Stopping.exec_update_eq_ok_iff, Except.mapError_eq_ok_iff]
    exact FileTree.createDirAll_eq_self hparent
  · rw [Stopping.exec_update_eq_ok_iff, Except.mapError_eq_ok_iff]
    exact FileTree.write_eq_self h

/-- **A file passes the comparison** just when it holds what it should. -/
theorem checkFile_eq_ok_iff {path : List OsStr} {expected : List UInt8} {tree : Tree} :
    checkFile path expected tree = .ok () ↔ tree.find path = .ok (.file expected) := by
  unfold checkFile
  rw [Except.bind_eq_ok_iff, ← FileTree.read_eq_ok_iff]
  constructor
  · rintro ⟨actual, hread, hsame⟩
    obtain rfl : actual = expected := not_not.mp (Except.guard_eq_ok_iff.mp hsame)
    exact Except.mapError_eq_ok_iff.mp hread
  · intro hread
    exact ⟨expected, Except.mapError_eq_ok_iff.mpr hread,
      Except.guard_eq_ok_iff.mpr (not_not.mpr rfl)⟩

/-- **A directory passes the comparison** just when its names are those
expected. -/
theorem checkExpectedNames_eq_ok_iff {schemas fixtures : List Asset} {tree : Tree} :
    checkExpectedNames schemas fixtures tree = .ok ()
      ↔ ∀ p ∈ expectedNames schemas fixtures,
        directoryNames (contractPath p.fst) tree = .ok p.snd := by
  unfold checkExpectedNames
  rw [Except.forM_eq_ok_iff]
  refine forall₂_congr (fun p _ => ?_)
  obtain ⟨directory, expected⟩ := p
  show (directoryNames (contractPath directory) tree >>= _) = .ok () ↔ _
  rw [Except.bind_eq_ok_iff]
  constructor
  · rintro ⟨actual, hnames, hsame⟩
    obtain rfl : actual = expected := not_not.mp (Except.guard_eq_ok_iff.mp hsame)
    exact hnames
  · intro hnames
    exact ⟨expected, hnames, Except.guard_eq_ok_iff.mpr (not_not.mpr rfl)⟩

/-- **What a check that passes has seen**: every generated file with its
content, and the names in the three directories. -/
theorem checkAssets_eq_ok_iff {schemas fixtures : List Asset} {fields manifest : List UInt8}
    {tree : Tree} :
    checkAssets schemas fixtures fields manifest tree = .ok ()
      ↔ (∀ asset ∈ schemas ++ fixtures,
          tree.find (contractPath asset.path) = .ok (.file asset.bytes))
        ∧ tree.find (contractPath "fields.toml") = .ok (.file fields)
        ∧ tree.find (contractPath "manifest.json") = .ok (.file manifest)
        ∧ checkExpectedNames schemas fixtures tree = .ok () := by
  unfold checkAssets
  rw [Except.seq_eq_ok_iff, Except.seq_eq_ok_iff, Except.seq_eq_ok_iff, Except.forM_eq_ok_iff,
    checkFile_eq_ok_iff, checkFile_eq_ok_iff]
  exact and_congr (forall₂_congr (fun _ _ => checkFile_eq_ok_iff)) Iff.rfl

end ContractSchema
