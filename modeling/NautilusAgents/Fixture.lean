import NautilusAgents.Recording

/-!
# The repository's own fixture

The full live observation of the contract fixtures, with the reduction request
and the trace that go with it, the recorder of the recording tests, and
stand-ins for the crates that behave on them as the
crates do: UUIDs are read from hexadecimal digits and written in five groups,
texts are the compact and canonical texts of their documents, and SHA-256 is
known on the canonical text of the fixture – its digest is the one the fixture
carries – and on nothing else.

The stand-ins meet every assumption the theorems make about the crates
(`Fixture.compactWriter`, `Fixture.reader`, `Fixture.rfc8785`), so none of
those is about crates that cannot exist.
-/

namespace Fixture

/-! ## Stand-ins for the crates -/

/-- The hyphenated text of a UUID: groups of 8, 4, 4, 4 and 12 digits. -/
def hyphenated (uuid : List UInt8) : List Char :=
  hexText (uuid.take 4) ++ '-' :: hexText ((uuid.drop 4).take 2) ++ '-' ::
    hexText ((uuid.drop 6).take 2) ++ '-' :: hexText ((uuid.drop 8).take 2) ++ '-' ::
    hexText (uuid.drop 10)

/-- The UUID a text of hexadecimal digits, hyphens apart, denotes. -/
def parseUuid (text : List Char) : Option (Vector UInt8 16) :=
  match hexBytes (text.filter (· != '-')) with
  | some bytes => if h : bytes.length = 16 then some ⟨bytes.toArray, h⟩ else none
  | none => none

theorem filter_hexText (bytes : List UInt8) :
    (hexText bytes).filter (· != '-') = hexText bytes := by
  refine List.filter_eq_self.mpr (fun c hc => ?_)
  have hhex := isLowerHex_of_mem_hexText hc
  rw [bne_iff_ne]
  rintro rfl
  exact absurd hhex (by decide)

theorem hexText_append (x y : List UInt8) : hexText (x ++ y) = hexText x ++ hexText y :=
  List.flatMap_append

/-- Without its hyphens the text is that of the whole UUID. -/
theorem filter_hyphenated (uuid : List UInt8) :
    (hyphenated uuid).filter (· != '-') = hexText uuid := by
  have hdash : ∀ cs : List Char, ('-' :: cs).filter (· != '-') = cs.filter (· != '-') :=
    fun _ => rfl
  simp only [hyphenated, List.filter_append, List.append_assoc, hdash, List.cons_append,
    filter_hexText, ← hexText_append]
  congr 1
  rw [show uuid.drop 8 = (uuid.drop 6).drop 2 by rw [List.drop_drop],
    show uuid.drop 10 = ((uuid.drop 6).drop 2).drop 2 by rw [List.drop_drop, List.drop_drop],
    List.take_append_drop, List.take_append_drop,
    show uuid.drop 6 = (uuid.drop 4).drop 2 by rw [List.drop_drop], List.take_append_drop,
    List.take_append_drop]

scoped instance uuidCrate : UuidCrate where
  parseStr text := parseUuid text.toList
  hyphenated uuid := String.ofList (hyphenated uuid.toList)
  parseStr_hyphenated uuid := by
    rw [String.toList_ofList, parseUuid, filter_hyphenated, hexBytes_hexText]
    show (if h : uuid.toList.length = 16 then some ⟨uuid.toList.toArray, h⟩ else none) = some uuid
    rw [dif_pos (by rw [Vector.length_toList])]
    rfl

/-! ## The observation -/

/-- The instrument of the fixture. -/
def instrument : InstrumentId := ⟨"BTCUSDT.BINANCE", rfl⟩

/-- The position of the fixture. -/
def position : PositionId := ⟨"P-197", rfl⟩

/-- The fields of the fixture that its digest covers. -/
def digestDocument : ObservationDigest where
  version := .protocolVersion
  id := ⟨"10000000-0000-4000-8000-000000000011", rfl⟩
  createdAt := ⟨1712400000000000101⟩
  expiresAt := ⟨1712400030000000202⟩
  grant :=
    { observations := .ofList [.positionSummary, .instrumentSummary]
      proposals := .ofList [.reducePosition]
      instruments := .ofList [instrument]
      expiresAt := ⟨1712400060000000303⟩ }
  provenance :=
    [⟨⟨"/payload/live/positions", rfl⟩, .positionState, ⟨1712399999000000404⟩,
        some "position-revision-17"⟩,
      ⟨⟨"/payload/live/instruments", rfl⟩, .instrumentDefinition, ⟨1712399998000000505⟩,
        some "instrument-revision-23"⟩]
  omissions := []
  retention := .derived
  payload := .live
    { positions := [⟨position, instrument, .long, ⟨"2.75", rfl⟩, ⟨1712399997000000606⟩⟩]
      instruments := [⟨instrument, ⟨"0.25", rfl⟩⟩] }

/-- The SHA-256 hash of the fixture's canonical text. -/
def hash : Vector UInt8 32 :=
  #v[0xaa, 0x24, 0xc2, 0x43, 0x79, 0x4e, 0x64, 0x9f, 0x86, 0x89, 0x89, 0xe0, 0x3e, 0xd7, 0x70,
    0xb2, 0x60, 0x44, 0x8b, 0xeb, 0x03, 0xf3, 0x15, 0x7f, 0x4d, 0x40, 0x4f, 0x16, 0x2c, 0xd3,
    0xf1, 0x71]

scoped instance crates : Crates where
  toVec j := .ok j.encode
  fromSlice bytes := match Json.parse bytes with
    | some j => .ok j
    | none => .error "expected value"
  canonicalToVec j := .ok j.canonical.encode
  sha256 bytes :=
    if bytes = (serialize digestDocument).canonical.encode then hash else Vector.replicate 32 0

theorem compactWriter : Crates.CompactWriter := fun _ _ => rfl

theorem rfc8785 : Crates.Rfc8785 := fun _ _ => rfl

theorem reader : Crates.Reader := by
  intro bytes j hparse _ _
  show (match Json.parse bytes with
    | some j => (.ok j : Except String Json)
    | none => .error "expected value") = .ok j
  rw [hparse]

/-- The full live observation of the contract fixtures. -/
def observation : Observation where
  version := digestDocument.version
  id := digestDocument.id
  createdAt := digestDocument.createdAt
  expiresAt := digestDocument.expiresAt
  grant := digestDocument.grant
  provenance := digestDocument.provenance
  omissions := digestDocument.omissions
  retention := digestDocument.retention
  payload := digestDocument.payload
  digest := ⟨"sha256:aa24c243794e649f868989e03ed770b260448beb03f3157f4d404f162cd3f171", rfl⟩

/-- The reduction of the fixture's proposal request. -/
def reduction : ReducePosition := ⟨position, instrument, ⟨"1.25", rfl⟩⟩

/-- The digest computed of the fixture is the one it carries. -/
theorem computedDigest_observation : observation.computedDigest = .ok observation.digest := by
  have hhash : Crates.sha256 (serialize digestDocument).canonical.encode = hash := if_pos rfl
  show (Except.ok (ContentDigest.new (Crates.sha256 (serialize digestDocument).canonical.encode))
    : Except ObservationError ContentDigest) = .ok observation.digest
  rw [hhash]
  exact congrArg Except.ok (ContentDigest.ext rfl)

/-- **The fixture is a valid observation.** -/
theorem validate_observation : observation.validate = .ok () := by
  have hlive : observation.validateLivePayload = .ok () := rfl
  unfold Observation.validate
  rw [hlive, computedDigest_observation]
  rfl

/-! ## The recorder -/

/-- The trace of the contract fixtures. -/
def trace : AgentTrace where
  version := .protocolVersion
  traceId := ⟨"30000000-0000-4000-8000-000000000032", rfl⟩
  observation := observation.reference
  policy := ⟨"defensive-reducer", "policy-3.7.11"⟩
  startedAt := ⟨1712400000100000101⟩
  completedAt := ⟨1712400000200000202⟩
  outcome := .proposed ⟨.reducePosition reduction⟩

/-- A recorder of whole observations. -/
def recorder : TraceRecorder := ⟨⟨[.name (.text "full.jsonl")]⟩, ⟨.full⟩, none⟩

end Fixture
