import NautilusAgents.Crates
import NautilusAgents.Value

/-!
# Identities

Request, observation, trace, intent and correlation identities are UUIDs, kept
as the lowercase hyphenated text, and an idempotency key is a short ASCII text
chosen by the caller. What a UUID is belongs to the `uuid` crate; the check
here only asks that the crate reads the text and writes it back the same.
-/

/-- The reasons an identity is refused. -/
inductive IdentityError where
  | invalidUuid
  | emptyIdempotencyKey
  | idempotencyKeyTooLong
  | nonAsciiIdempotencyKey
  deriving DecidableEq

section Uuid

variable [UuidCrate]

/-- **The check the UUID identities share**: the text is read as a UUID, and
it is the hyphenated form of the UUID read. -/
def checkUuid (value : String) : Except IdentityError Unit :=
  match UuidCrate.parseStr value with
  | none => .error .invalidUuid
  | some uuid =>
    if UuidCrate.hyphenated uuid ≠ value then .error .invalidUuid else .ok ()

/-- The hyphenated form of a UUID passes the check. -/
theorem checkUuid_hyphenated (uuid : Vector UInt8 16) :
    checkUuid (UuidCrate.hyphenated uuid) = .ok () := by
  rw [checkUuid, UuidCrate.parseStr_hyphenated]
  exact if_neg (fun h => h rfl)

/-- Identifies a caller-created proposal request. -/
@[ext] structure RequestId where
  /-- The text. -/
  text : String
  /-- It is the text of a UUID. -/
  checked : checkUuid text = .ok ()
  deriving DecidableEq

/-- Identifies an observation. -/
@[ext] structure ObservationId where
  /-- The text. -/
  text : String
  /-- It is the text of a UUID. -/
  checked : checkUuid text = .ok ()
  deriving DecidableEq

/-- Identifies an agent-side trace. -/
@[ext] structure TraceId where
  /-- The text. -/
  text : String
  /-- It is the text of a UUID. -/
  checked : checkUuid text = .ok ()
  deriving DecidableEq

/-- Identifies an accepted intent. -/
@[ext] structure IntentId where
  /-- The text. -/
  text : String
  /-- It is the text of a UUID. -/
  checked : checkUuid text = .ok ()
  deriving DecidableEq

/-- Identifies public correlation or causation metadata. -/
@[ext] structure CorrelationId where
  /-- The text. -/
  text : String
  /-- It is the text of a UUID. -/
  checked : checkUuid text = .ok ()
  deriving DecidableEq

namespace RequestId

/-- The identity of a fresh UUID. -/
def new (uuid : Vector UInt8 16) : RequestId :=
  ⟨UuidCrate.hyphenated uuid, checkUuid_hyphenated uuid⟩

/-- Parse a request identity. -/
def parse (value : String) : Except IdentityError RequestId :=
  parseChecked checkUuid RequestId.mk value

instance : CheckedText RequestId where
  asStr := RequestId.text
  accept value := (parse value).toOption
  accept_asStr id := toOption_parseChecked id.checked

end RequestId

namespace ObservationId

/-- The identity of a fresh UUID. -/
def new (uuid : Vector UInt8 16) : ObservationId :=
  ⟨UuidCrate.hyphenated uuid, checkUuid_hyphenated uuid⟩

/-- Parse an observation identity. -/
def parse (value : String) : Except IdentityError ObservationId :=
  parseChecked checkUuid ObservationId.mk value

instance : CheckedText ObservationId where
  asStr := ObservationId.text
  accept value := (parse value).toOption
  accept_asStr id := toOption_parseChecked id.checked

end ObservationId

namespace TraceId

/-- The identity of a fresh UUID. -/
def new (uuid : Vector UInt8 16) : TraceId :=
  ⟨UuidCrate.hyphenated uuid, checkUuid_hyphenated uuid⟩

/-- Parse a trace identity. -/
def parse (value : String) : Except IdentityError TraceId :=
  parseChecked checkUuid TraceId.mk value

instance : CheckedText TraceId where
  asStr := TraceId.text
  accept value := (parse value).toOption
  accept_asStr id := toOption_parseChecked id.checked

end TraceId

namespace IntentId

/-- The identity of a fresh UUID. -/
def new (uuid : Vector UInt8 16) : IntentId :=
  ⟨UuidCrate.hyphenated uuid, checkUuid_hyphenated uuid⟩

/-- Parse an intent identity. -/
def parse (value : String) : Except IdentityError IntentId :=
  parseChecked checkUuid IntentId.mk value

instance : CheckedText IntentId where
  asStr := IntentId.text
  accept value := (parse value).toOption
  accept_asStr id := toOption_parseChecked id.checked

end IntentId

namespace CorrelationId

/-- The identity of a fresh UUID. -/
def new (uuid : Vector UInt8 16) : CorrelationId :=
  ⟨UuidCrate.hyphenated uuid, checkUuid_hyphenated uuid⟩

/-- Parse a correlation identity. -/
def parse (value : String) : Except IdentityError CorrelationId :=
  parseChecked checkUuid CorrelationId.mk value

instance : CheckedText CorrelationId where
  asStr := CorrelationId.text
  accept value := (parse value).toOption
  accept_asStr id := toOption_parseChecked id.checked

end CorrelationId

end Uuid

/-! ## Idempotency keys -/

/-- The longest idempotency key, in bytes. -/
def idempotencyKeyMaxBytes : ℕ := 128

/-- **The check of an idempotency key**: 1 to 128 ASCII bytes. -/
def checkIdempotencyKey (value : String) : Except IdentityError Unit :=
  if value = "" then .error .emptyIdempotencyKey
  else if value.utf8ByteSize > idempotencyKeyMaxBytes then .error .idempotencyKeyTooLong
  else if ¬ value.toList.all (fun c => decide (c.toNat < 128)) then
    .error .nonAsciiIdempotencyKey
  else .ok ()

/-- A caller-supplied key. -/
@[ext] structure IdempotencyKey where
  /-- The text. -/
  text : String
  /-- It is one that the check accepts. -/
  checked : checkIdempotencyKey text = .ok ()
  deriving DecidableEq

namespace IdempotencyKey

/-- Parse an idempotency key. -/
def parse (value : String) : Except IdentityError IdempotencyKey :=
  parseChecked checkIdempotencyKey IdempotencyKey.mk value

instance : CheckedText IdempotencyKey where
  asStr := IdempotencyKey.text
  accept value := (parse value).toOption
  accept_asStr key := toOption_parseChecked key.checked

end IdempotencyKey
