import NautilusAgents.Serde
import NautilusAgents.JsonText
import NautilusAgents.JsonPointer

/-!
# Checked scalars

The protocol's scalar values: identifiers, timestamps, content digests and
field paths. Each is a text that a check has accepted, and the structure keeps
the text together with the outcome of its check, so a value that its own
parser would refuse cannot be built. That is what makes every scalar survive
its text form: `parse` runs the very check the structure records.

A timestamp is the exception. It is kept as its 64 bits and only written as
decimal digits, so its round trip is about numerals (`TimestampNs.parse_display`).
A content digest is built from 32 bytes rather than from a text, and two
different hashes have different texts (`ContentDigest.new_injective`). A field
path is the JSON pointer that spells its tokens (`FieldPath.spell_tokens`).
-/

/-- The reasons a scalar is refused. -/
inductive ValueError where
  | emptyIdentifier
  | identifierTooLong
  | identifierControlCharacter
  | emptyQuantity
  | quantitySign
  | quantityExponent
  | quantityCharacter
  | quantityLeadingZero
  | quantityEmptyFraction
  | quantityTrailingZero
  | quantityZero
  | quantityPrecision
  | emptyTimestamp
  | timestampFormat
  | timestampRange
  | digestFormat
  | fieldPathFormat
  deriving DecidableEq

/-- Run a check on a text and keep the text with its outcome. -/
def parseChecked {ε α : Type} (check : String → Except ε Unit)
    (make : (text : String) → check text = .ok () → α) (value : String) : Except ε α :=
  match h : check value with
  | .ok () => .ok (make value h)
  | .error e => .error e

/-- A text that passes the check is accepted as it is. -/
theorem parseChecked_of_ok {ε α : Type} {check : String → Except ε Unit}
    {make : (text : String) → check text = .ok () → α} {value : String}
    (h : check value = .ok ()) : parseChecked check make value = .ok (make value h) := by
  unfold parseChecked
  split
  · rfl
  · rename_i e he
    rw [h] at he
    cases he

theorem toOption_parseChecked {ε α : Type} {check : String → Except ε Unit}
    {make : (text : String) → check text = .ok () → α} {value : String}
    (h : check value = .ok ()) :
    (parseChecked check make value).toOption = some (make value h) := by
  rw [parseChecked_of_ok h]
  rfl

/-- A text that is accepted passes the check. -/
theorem eq_ok_of_toOption_parseChecked {ε α : Type} {check : String → Except ε Unit}
    {make : (text : String) → check text = .ok () → α} {value : String} {v : α}
    (h : (parseChecked check make value).toOption = some v) : check value = .ok () := by
  unfold parseChecked at h
  split at h
  · assumption
  · cases h

/-- **A text is accepted exactly when it passes the check.** -/
theorem exists_parseChecked_iff {ε α : Type} {check : String → Except ε Unit}
    {make : (text : String) → check text = .ok () → α} {value : String} :
    (∃ v, parseChecked check make value = .ok v) ↔ check value = .ok () := by
  constructor
  · rintro ⟨v, hv⟩
    exact eq_ok_of_toOption_parseChecked (congrArg Except.toOption hv)
  · intro h
    exact ⟨make value h, parseChecked_of_ok h⟩

/-! ## Identifiers -/

/-- The longest identifier, in UTF-8 bytes. -/
def identifierMaxBytes : ℕ := 255

/-- `char::is_control`: the general category `Cc`. -/
def isControl (c : Char) : Bool :=
  decide (c.toNat ≤ 0x1f) || decide (0x7f ≤ c.toNat ∧ c.toNat ≤ 0x9f)

/-- **The check both identifiers share**: not empty, not too long, no control
character, tested in this order. -/
def checkIdentifier (value : String) : Except ValueError Unit :=
  if value = "" then .error .emptyIdentifier
  else if value.utf8ByteSize > identifierMaxBytes then .error .identifierTooLong
  else if value.toList.any isControl then .error .identifierControlCharacter
  else .ok ()

/-- Identifies an instrument. -/
@[ext] structure InstrumentId where
  /-- The text. -/
  text : String
  /-- It is one that the check accepts. -/
  checked : checkIdentifier text = .ok ()
  deriving DecidableEq

/-- Identifies a position. -/
@[ext] structure PositionId where
  /-- The text. -/
  text : String
  /-- It is one that the check accepts. -/
  checked : checkIdentifier text = .ok ()
  deriving DecidableEq

namespace InstrumentId

/-- Parse an instrument identifier. -/
def parse (value : String) : Except ValueError InstrumentId :=
  parseChecked checkIdentifier InstrumentId.mk value

/-- Identifiers are ordered as their texts. -/
instance : LinearOrder InstrumentId :=
  LinearOrder.lift' InstrumentId.text (fun _ _ h => InstrumentId.ext h)

instance : CheckedText InstrumentId where
  asStr := InstrumentId.text
  accept value := (parse value).toOption
  accept_asStr id := toOption_parseChecked id.checked

end InstrumentId

namespace PositionId

/-- Parse a position identifier. -/
def parse (value : String) : Except ValueError PositionId :=
  parseChecked checkIdentifier PositionId.mk value

/-- Identifiers are ordered as their texts. -/
instance : LinearOrder PositionId :=
  LinearOrder.lift' PositionId.text (fun _ _ h => PositionId.ext h)

instance : CheckedText PositionId where
  asStr := PositionId.text
  accept value := (parse value).toOption
  accept_asStr id := toOption_parseChecked id.checked

end PositionId

/-! ## Timestamps -/

/-- **Unsigned Unix nanoseconds**, kept as 64 bits. -/
@[ext] structure TimestampNs where
  /-- The nanoseconds. -/
  ns : UInt64
  deriving DecidableEq

namespace TimestampNs

/-- The timestamp as a number. -/
def asU64 (t : TimestampNs) : ℕ := t.ns.toNat

theorem asU64_injective : Function.Injective asU64 :=
  fun _ _ h => TimestampNs.ext (UInt64.toNat_inj.mp h)

/-- Timestamps are ordered as numbers. -/
instance : LinearOrder TimestampNs := LinearOrder.lift' asU64 asU64_injective

/-- Parse a canonical unsigned decimal: digits only, no redundant leading
zero, and no more than 64 bits. -/
def parse (value : String) : Except ValueError TimestampNs :=
  if value = "" then .error .emptyTimestamp
  else if ¬ value.toList.all Char.isDigit ∨
      (value.utf8ByteSize > 1 ∧ value.toList.head? = some '0') then .error .timestampFormat
  else if Nat.ofDigitChars 10 value.toList 0 < 2 ^ 64 then
    .ok ⟨UInt64.ofNat (Nat.ofDigitChars 10 value.toList 0)⟩
  else .error .timestampRange

/-- The decimal text of a timestamp. -/
def display (t : TimestampNs) : String := Nat.repr t.asU64

/-- **A timestamp survives its decimal text**, over the whole 64-bit range. -/
theorem parse_display (t : TimestampNs) : parse t.display = .ok t := by
  have hlist : t.display.toList = Nat.toDigits 10 t.asU64 := Nat.toList_repr
  have hne : t.display ≠ "" := by
    intro h
    rw [h] at hlist
    exact Nat.toDigits_ne_nil hlist.symm
  have hdigits : (Nat.toDigits 10 t.asU64).all Char.isDigit = true :=
    List.all_eq_true.mpr (fun c hc => Nat.isDigit_of_mem_toDigits (by omega) (by omega) hc)
  -- a numeral that starts with the digit zero is zero, and has one digit
  have hzero : ¬ (t.display.utf8ByteSize > 1 ∧
      (Nat.toDigits 10 t.asU64).head? = some '0') := by
    rintro ⟨hlen, hhead⟩
    rcases Nat.eq_zero_or_pos t.asU64 with h | h
    · rw [display, h] at hlen
      exact absurd hlen (by decide)
    · exact Json.head_toDigits_ne_zero h hhead
  have hlt : t.asU64 < 2 ^ 64 := t.ns.toNat_lt
  rw [parse, if_neg hne, hlist, if_neg (by rw [hdigits]; tauto),
    Nat.ofDigitChars_ten_toDigits, if_pos hlt]
  exact congrArg Except.ok (TimestampNs.ext (UInt64.ofNat_toNat))

/-- A timestamp is written as its decimal text. -/
instance : CheckedText TimestampNs where
  asStr := display
  accept value := (parse value).toOption
  accept_asStr t := by rw [parse_display]; rfl

end TimestampNs

/-! ## Hexadecimal bytes -/

/-- A byte as two lowercase hexadecimal digits. -/
def hexByte (b : UInt8) : List Char := [Json.hexDigit (b.toNat / 16), Json.hexDigit (b.toNat % 16)]

/-- Bytes as lowercase hexadecimal digits. -/
def hexText (bytes : List UInt8) : List Char := bytes.flatMap hexByte

/-- The bytes that pairs of hexadecimal digits denote. -/
def hexBytes : List Char → Option (List UInt8)
  | [] => some []
  | [_] => none
  | a :: b :: rest => do
    some (UInt8.ofNat ((← Json.hexValue a) * 16 + (← Json.hexValue b)) :: (← hexBytes rest))

/-- **Hexadecimal digits determine the bytes.** -/
theorem hexBytes_hexText (bytes : List UInt8) : hexBytes (hexText bytes) = some bytes := by
  induction bytes with
  | nil => rfl
  | cons b bytes ih =>
    have hb := b.toNat_lt
    unfold hexText
    rw [List.flatMap_cons, hexByte, List.cons_append, List.cons_append, List.nil_append, hexBytes,
      ← hexText, ih, Json.hexValue_hexDigit (by omega), Json.hexValue_hexDigit (by omega)]
    show some (UInt8.ofNat (b.toNat / 16 * 16 + b.toNat % 16) :: bytes) = some (b :: bytes)
    rw [Nat.div_add_mod', UInt8.ofNat_toNat]

theorem hexText_injective : Function.Injective hexText := by
  intro x y h
  have := congrArg hexBytes h
  rwa [hexBytes_hexText, hexBytes_hexText, Option.some.injEq] at this

/-- Two digits for each byte. -/
theorem length_hexText (bytes : List UInt8) : (hexText bytes).length = 2 * bytes.length := by
  induction bytes with
  | nil => rfl
  | cons b bytes ih =>
    unfold hexText
    rw [List.flatMap_cons, List.length_append, ← hexText, ih, hexByte, List.length_cons,
      List.length_cons, List.length_cons]
    simp
    omega

/-- A lowercase hexadecimal digit. -/
def isLowerHex (c : Char) : Bool := c.isDigit || (decide ('a' ≤ c) && decide (c ≤ 'f'))

/-- Hexadecimal digits are ASCII. -/
theorem toNat_lt_of_isLowerHex {c : Char} (h : isLowerHex c = true) : c.toNat < 128 := by
  simp only [isLowerHex, Char.isDigit, Bool.or_eq_true, Bool.and_eq_true, decide_eq_true_eq,
    Char.le_def, UInt32.le_iff_toNat_le] at h
  have h9 : ('9'.val.toNat) = 57 := rfl
  have hf : ('f'.val.toNat) = 102 := rfl
  have hc : c.val.toNat = c.toNat := rfl
  rcases h with h | h <;> omega

theorem isLowerHex_of_mem_hexText {bytes : List UInt8} {c : Char} (h : c ∈ hexText bytes) :
    isLowerHex c = true := by
  have hall : ∀ n, n < 16 → isLowerHex (Json.hexDigit n) = true := by decide
  obtain ⟨b, -, hc⟩ := List.mem_flatMap.mp h
  have hb := b.toNat_lt
  rcases List.mem_cons.mp hc with rfl | hc
  · exact hall _ (by omega)
  · rw [List.mem_singleton.mp hc]
    exact hall _ (by omega)

/-! ## Content digests -/

/-- The text every content digest starts with. -/
def digestScheme : String := "sha256:"

/-- **The check of a content digest**: `sha256:` and 64 lowercase hexadecimal
digits. -/
def checkDigest (value : String) : Except ValueError Unit :=
  if value.utf8ByteSize = 71 ∧ digestScheme.toList.isPrefixOf value.toList ∧
      (value.toList.drop 7).all isLowerHex then .ok ()
  else .error .digestFormat

/-- A lowercase SHA-256 content digest. -/
@[ext] structure ContentDigest where
  /-- The text. -/
  text : String
  /-- It is one that the check accepts. -/
  checked : checkDigest text = .ok ()
  deriving DecidableEq

namespace ContentDigest

/-- The text of a digest of 32 bytes. -/
def newText (bytes : Vector UInt8 32) : String :=
  digestScheme ++ String.ofList (hexText bytes.toList)

theorem toList_newText (bytes : Vector UInt8 32) :
    (newText bytes).toList = digestScheme.toList ++ hexText bytes.toList := by
  unfold newText
  rw [String.toList_append, String.toList_ofList]

/-- The UTF-8 length of a text of ASCII characters is their number. -/
theorem utf8ByteSize_ofList_of_ascii {cs : List Char} (h : ∀ c ∈ cs, c.toNat < 128) :
    (String.ofList cs).utf8ByteSize = cs.length := by
  induction cs with
  | nil => rfl
  | cons c cs ih =>
    have hc : c.utf8Size = 1 := by
      rw [Char.utf8Size_eq_one_iff]
      have := h c List.mem_cons_self
      exact Nat.le_of_lt_succ this
    rw [String.ofList_cons, String.utf8ByteSize_append, String.utf8ByteSize_singleton, hc,
      ih (fun d hd => h d (List.mem_cons_of_mem _ hd)), List.length_cons, Nat.add_comm]

/-- The text of 32 bytes passes the check. -/
theorem checkDigest_newText (bytes : Vector UInt8 32) :
    checkDigest (newText bytes) = .ok () := by
  have hsize : (newText bytes).utf8ByteSize = 71 := by
    unfold newText
    rw [String.utf8ByteSize_append,
      utf8ByteSize_ofList_of_ascii
        (fun c hc => toNat_lt_of_isLowerHex (isLowerHex_of_mem_hexText hc)),
      length_hexText, Vector.length_toList]
    rfl
  refine if_pos ⟨hsize, ?_, ?_⟩
  · rw [toList_newText, List.isPrefixOf_iff_prefix]
    exact List.prefix_append _ _
  · rw [toList_newText, show (7 : ℕ) = digestScheme.toList.length from rfl, List.drop_left]
    exact List.all_eq_true.mpr (fun c hc => isLowerHex_of_mem_hexText hc)

/-- **The digest of 32 SHA-256 bytes.** -/
def new (bytes : Vector UInt8 32) : ContentDigest := ⟨newText bytes, checkDigest_newText bytes⟩

/-- **Different hashes have different digests.** -/
theorem new_injective : Function.Injective new := by
  intro x y h
  have htext : (newText x).toList = (newText y).toList :=
    congrArg String.toList (congrArg ContentDigest.text h)
  rw [toList_newText, toList_newText] at htext
  exact Vector.toList_inj.mp (hexText_injective (List.append_cancel_left htext))

/-- Parse a content digest. -/
def parse (value : String) : Except ValueError ContentDigest :=
  parseChecked checkDigest ContentDigest.mk value

instance : CheckedText ContentDigest where
  asStr := ContentDigest.text
  accept value := (parse value).toOption
  accept_asStr d := toOption_parseChecked d.checked

end ContentDigest

/-! ## Field paths -/

/-- The scan for escapes: a tilde is followed by `0` or `1`, which it takes
along. -/
def escapesValid : List Char → Bool
  | [] => true
  | [c] => c != '~'
  | c :: d :: rest =>
    if c = '~' then (d == '0' || d == '1') && escapesValid rest
    else escapesValid (d :: rest)

/-- **The check of a field path**: an RFC 6901 JSON Pointer is empty or starts
with a slash, and every tilde in it starts an escape. -/
def checkFieldPath (value : String) : Except ValueError Unit :=
  if value ≠ "" ∧ value.toList.head? ≠ some '/' then .error .fieldPathFormat
  else if escapesValid value.toList then .ok ()
  else .error .fieldPathFormat

/-- An RFC 6901 JSON Pointer. -/
@[ext] structure FieldPath where
  /-- The text. -/
  text : String
  /-- It is one that the check accepts. -/
  checked : checkFieldPath text = .ok ()
  deriving DecidableEq

namespace FieldPath

/-- Parse a field path. -/
def parse (value : String) : Except ValueError FieldPath :=
  parseChecked checkFieldPath FieldPath.mk value

instance : CheckedText FieldPath where
  asStr := FieldPath.text
  accept value := (parse value).toOption
  accept_asStr p := toOption_parseChecked p.checked

/-! ### Field paths spell tokens -/

open JsonPointer

/-- Text whose tildes all start an escape is a segment with a pointer behind
it. -/
theorem exists_escaped_append_spell (cs : List Char) (h : escapesValid cs = true) :
    ∃ t ts, cs = escaped t ++ spell ts := by
  induction cs using escapesValid.induct with
  | case1 => exact ⟨[], [], rfl⟩
  | case2 c =>
    have htilde : c ≠ '~' := by simpa [escapesValid] using h
    by_cases hslash : c = '/'
    · exact ⟨[], [[]], by rw [hslash]; rfl⟩
    · exact ⟨[c], [], by simp [escaped, escape, spell, htilde, hslash]⟩
  | case3 d rest ih =>
    rw [escapesValid, if_pos rfl, Bool.and_eq_true, Bool.or_eq_true, beq_iff_eq,
      beq_iff_eq] at h
    obtain ⟨t, ts, hrest⟩ := ih h.2
    rcases h.1 with rfl | rfl
    · exact ⟨'~' :: t, ts, by rw [hrest]; rfl⟩
    · exact ⟨'/' :: t, ts, by rw [hrest]; rfl⟩
  | case4 c d rest htilde ih =>
    rw [escapesValid, if_neg htilde] at h
    obtain ⟨t, ts, hrest⟩ := ih h
    by_cases hslash : c = '/'
    · exact ⟨[], t :: ts, by rw [hrest, hslash]; rfl⟩
    · refine ⟨c :: t, ts, ?_⟩
      rw [hrest]
      simp [escaped, escape, htilde, hslash]

/-- **A field path is a JSON pointer.** -/
theorem exists_eq_spell (p : FieldPath) : ∃ ts, p.text.toList = spell ts := by
  have h := p.checked
  unfold checkFieldPath at h
  split_ifs at h with hformat hescapes
  obtain ⟨t, ts, htext⟩ := exists_escaped_append_spell p.text.toList hescapes
  -- nothing stands before the first slash
  cases hseg : escaped t with
  | nil => exact ⟨ts, by rw [htext, hseg, List.nil_append]⟩
  | cons c cs =>
    exfalso
    refine hformat ⟨?_, ?_⟩
    · intro hempty
      rw [hempty, hseg] at htext
      cases htext
    · rw [htext, hseg]
      intro hhead
      have hc : c = '/' := Option.some.inj hhead
      exact slash_notMem_escaped t (by rw [hseg, hc]; exact List.mem_cons_self)

/-- **The tokens of a field path.** -/
def tokens (p : FieldPath) : List Token := JsonPointer.tokens p.text.toList

theorem spell_tokens (p : FieldPath) : spell p.tokens = p.text.toList := by
  obtain ⟨ts, h⟩ := p.exists_eq_spell
  unfold tokens
  rw [h, JsonPointer.tokens_spell]

/-- Only the path of the whole document has no tokens. -/
theorem tokens_eq_nil_iff (p : FieldPath) : p.tokens = [] ↔ p.text = "" := by
  constructor
  · intro h
    have hspell := p.spell_tokens
    rw [h] at hspell
    exact String.toList_eq_nil_iff.mp hspell.symm
  · intro h
    unfold tokens
    rw [h]
    rfl

end FieldPath
