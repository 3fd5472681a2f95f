import NautilusAgents.Serde
import NautilusAgents.JsonText

/-!
# The crates the repository builds on

What the code takes from `uuid`, `serde_json`, `serde_json_canonicalizer` and
`sha2` is a parameter here: functions between texts, bytes and documents,
about which nothing is known but what a theorem says it assumes. The
assumptions are the documented behaviour of these crates, each under a name
of its own – the compact writer, the reader, the canonical form of RFC 8785 –
and a hash function is assumed to separate the byte strings at hand, no more.

A value is written by its derived serializer and then by a writer of
documents, and read by a reader of documents and then by its derived
deserializer; `Crates.decode_toVec` and `Crates.decode_canonicalToVec`
join the two halves for every type with a lawful pair.
-/

/-- **The `uuid` crate.** -/
class UuidCrate where
  /-- `Uuid::parse_str`, which takes several forms of a UUID. -/
  parseStr : String → Option (Vector UInt8 16)
  /-- `Uuid::hyphenated`, the lowercase form in five groups. -/
  hyphenated : Vector UInt8 16 → String
  /-- The hyphenated form is one of those that are read. -/
  parseStr_hyphenated : ∀ uuid, parseStr (hyphenated uuid) = some uuid

/-- **The JSON and hash crates.** An error is its text. -/
class Crates where
  /-- `serde_json::to_vec`. -/
  toVec : Json → Except String (List UInt8)
  /-- `serde_json::from_slice`, up to the document it reads. -/
  fromSlice : List UInt8 → Except String Json
  /-- `serde_json_canonicalizer::to_vec`. -/
  canonicalToVec : Json → Except String (List UInt8)
  /-- `Sha256::digest`. -/
  sha256 : List UInt8 → Vector UInt8 32

namespace Crates

variable [Crates]

/-- The deepest path in a document that `serde_json` reads: it takes at most
127 nested containers. -/
def maxDepth : ℕ := 126

/-- **The compact writer**: no white space, control characters escaped. -/
def CompactWriter : Prop :=
  ∀ j : Json, j.IJson → toVec j = .ok j.encode

/-- **The reader**: it reads every JSON text whose document it can hold, up to
its bound on the depth. -/
def Reader : Prop :=
  ∀ bytes (j : Json), Json.parse bytes = some j → j.IJson → j.DepthLE maxDepth →
    fromSlice bytes = .ok j

/-- **RFC 8785**: the canonical text is the compact text of the document with
sorted members. -/
def Rfc8785 : Prop :=
  ∀ j : Json, j.IJson → canonicalToVec j = .ok j.canonical.encode

/-- The hash tells two byte strings apart. -/
def NoCollision (x y : List UInt8) : Prop :=
  sha256 x = sha256 y → x = y

/-- Read a value: the document first, then the value it stands for. -/
def decode (α : Type) [Deserialize α] (bytes : List UInt8) : Option α :=
  match fromSlice bytes with
  | .ok j => deserialize j
  | .error _ => none

variable {α : Type} [Serialize α] [Deserialize α] [LawfulSerde α] [Strict α]

/-- A written value is read back in every layout, where its type is not too
deep for the reader. -/
theorem decode_encode_layout (hread : Reader) {f : Json → Json} (hf : Json.Layout f)
    (hdepth : (Strict.shape α).depth ≤ maxDepth) (v : α) :
    decode α (f (serialize v)).encode = some v := by
  have hv : deserialize (f (serialize v)) = some v := LawfulSerde.deserialize_layout hf v
  have hjson : (f (serialize v)).IJson := (LawfulSerde.iJson v).layout hf
  rw [decode, hread _ _ (Json.parse_encode hjson) hjson
    ((Serde.depthLE_of_deserialize hv).mono hdepth)]
  exact hv

/-- **Reading undoes writing**, through the bytes of the compact writer. -/
theorem decode_toVec (hwrite : CompactWriter) (hread : Reader)
    (hdepth : (Strict.shape α).depth ≤ maxDepth) (v : α) :
    ∃ bytes, toVec (serialize v) = .ok bytes ∧ decode α bytes = some v :=
  ⟨_, hwrite _ (LawfulSerde.iJson v), decode_encode_layout hread Json.layout_id hdepth v⟩

/-- **Reading undoes canonical writing.** -/
theorem decode_canonicalToVec (hcanon : Rfc8785) (hread : Reader)
    (hdepth : (Strict.shape α).depth ≤ maxDepth) (v : α) :
    ∃ bytes, canonicalToVec (serialize v) = .ok bytes ∧ decode α bytes = some v :=
  ⟨_, hcanon _ (LawfulSerde.iJson v),
    decode_encode_layout hread Json.layout_canonical hdepth v⟩

end Crates
