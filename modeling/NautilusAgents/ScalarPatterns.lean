import NautilusAgents.Identity
import NautilusAgents.QuantityGrammar

/-!
# The patterns of the scalars

The published schemas describe each scalar by a pattern on its text, and two of
them by a length as well. The checks know nothing of patterns, and they count
in bytes where a schema counts in characters. What they accept matches all the
same: there are no more characters than bytes (`length_le_utf8ByteSize`), and
each check makes sure, in its own way, of what the pattern says.

Not every pattern is met exactly. A timestamp has to fit 64 bits and an
identifier 255 bytes, and neither is something its pattern says; a quantity and
its pattern agree (`Quantity.mem_language_iff`).
-/

open Pattern

/-- A text has no more characters than bytes. -/
theorem length_le_utf8ByteSize (s : String) : s.toList.length ≤ s.utf8ByteSize := by
  obtain ⟨cs, rfl⟩ : ∃ cs, s = String.ofList cs := ⟨s.toList, String.ofList_toList.symm⟩
  rw [String.toList_ofList]
  induction cs with
  | nil => exact Nat.zero_le _
  | cons c cs ih =>
    have hc := c.utf8Size_pos
    rw [String.ofList_cons, String.utf8ByteSize_append, String.utf8ByteSize_singleton,
      List.length_cons]
    omega

theorem one_le_length {s : String} (h : s ≠ "") : 1 ≤ s.toList.length := by
  refine Nat.one_le_iff_ne_zero.mpr (fun hlength => h ?_)
  exact String.toList_eq_nil_iff.mp (List.length_eq_zero_iff.mp hlength)

/-! ## Identifiers and keys -/

/-- Characters other than the control characters. -/
def identifierPattern : Pattern :=
  .plus (.set true [('\x00', '\x1f'), ('\x7f', '\u009f')])

theorem inSet_control (c : Char) :
    inSet true [('\x00', '\x1f'), ('\x7f', '\u009f')] c = !isControl c := by
  rw [Bool.eq_iff_iff]
  simp only [inSet, isControl, List.any_cons, List.any_nil, Bool.or_false, Bool.xor_true,
    Bool.not_eq_true', Bool.or_eq_false_iff, Bool.and_eq_false_iff, decide_eq_false_iff_not]
  show ((¬ 0 ≤ c.toNat ∨ ¬ c.toNat ≤ 0x1f) ∧ (¬ 0x7f ≤ c.toNat ∨ ¬ c.toNat ≤ 0x9f)) ↔ _
  omega

/-- **What the check of an identifier makes sure of.** -/
theorem matches_of_checkIdentifier {text : String} (h : checkIdentifier text = .ok ()) :
    text.toList ∈ identifierPattern.language ∧
      1 ≤ text.toList.length ∧ text.toList.length ≤ 255 := by
  unfold checkIdentifier at h
  split_ifs at h with hempty hsize hcontrol
  refine ⟨?_, one_le_length hempty, (length_le_utf8ByteSize text).trans (Nat.le_of_not_lt hsize)⟩
  unfold identifierPattern
  rw [mem_plus_set]
  refine ⟨fun hnil => hempty (String.toList_eq_nil_iff.mp hnil), fun c hc => ?_⟩
  rw [inSet_control, Bool.not_eq_true', Bool.eq_false_iff]
  exact fun hc' => hcontrol (List.any_eq_true.mpr ⟨c, hc, hc'⟩)

example : identifierPattern.anchored = "^[^\\u0000-\\u001f\\u007f-\\u009f]+$" := rfl

/-- Characters of ASCII. -/
def idempotencyKeyPattern : Pattern := .plus (.set false [('\x00', '\x7f')])

/-- **What the check of an idempotency key makes sure of.** -/
theorem matches_of_checkIdempotencyKey {text : String} (h : checkIdempotencyKey text = .ok ()) :
    text.toList ∈ idempotencyKeyPattern.language ∧
      1 ≤ text.toList.length ∧ text.toList.length ≤ 128 := by
  unfold checkIdempotencyKey at h
  split_ifs at h with hempty hsize hascii
  refine ⟨?_, one_le_length hempty, (length_le_utf8ByteSize text).trans (Nat.le_of_not_lt hsize)⟩
  unfold idempotencyKeyPattern
  rw [mem_plus_set]
  refine ⟨fun hnil => hempty (String.toList_eq_nil_iff.mp hnil), fun c hc => ?_⟩
  have hc' : c.toNat < 128 := of_decide_eq_true (List.all_eq_true.mp hascii c hc)
  simp only [inSet, List.any_cons, List.any_nil, Bool.or_false, Bool.xor_false, Bool.and_eq_true,
    decide_eq_true_eq]
  show 0 ≤ c.toNat ∧ c.toNat ≤ 0x7f
  omega

example : idempotencyKeyPattern.anchored = "^[\\u0000-\\u007f]+$" := rfl

/-! ## Timestamps -/

/-- Zero, or digits that do not start with zero. -/
def timestampPattern : Pattern := .alt (.lit '0') Quantity.leading

/-- **What the parser of a timestamp makes sure of.** -/
theorem matches_of_parseTimestamp {text : String} {t : TimestampNs}
    (h : TimestampNs.parse text = .ok t) : text.toList ∈ timestampPattern.language := by
  unfold TimestampNs.parse at h
  split_ifs at h with hempty hformat
  rw [not_or, not_not, not_and, List.all_eq_true] at hformat
  unfold timestampPattern
  rw [mem_alt, mem_lit, Quantity.mem_leading]
  by_cases hzero : text.toList.head? = some '0'
  · -- a text of one byte is one character
    left
    have hsize : ¬ text.utf8ByteSize > 1 := fun hsize => hformat.2 hsize hzero
    have hlength := length_le_utf8ByteSize text
    cases htext : text.toList with
    | nil => rw [htext] at hzero; cases hzero
    | cons c cs =>
      rw [htext] at hzero hlength
      rw [List.length_cons] at hlength
      obtain rfl : cs = [] := List.length_eq_zero_iff.mp (by omega)
      exact congrArg (fun d => [d]) (Option.some.inj hzero)
  · right
    exact ⟨fun hnil => hempty (String.toList_eq_nil_iff.mp hnil), hformat.1, hzero⟩

example : timestampPattern.anchored = "^(?:0|[1-9][0-9]*)$" := rfl

/-! ## Digests and UUIDs -/

/-- A lowercase hexadecimal digit. -/
def hexPattern : Pattern := .set false [('0', '9'), ('a', 'f')]

theorem inSet_hex (c : Char) : inSet false [('0', '9'), ('a', 'f')] c = isLowerHex c := by
  simp only [inSet, List.any_cons, List.any_nil, Bool.or_false, Bool.xor_false, isLowerHex,
    Char.isDigit]
  rfl

/-- The scheme and 64 digits. -/
def digestPattern : Pattern := .cat (.text "sha256:".toList) (.times hexPattern 64 64)

/-- **What the check of a digest makes sure of.** -/
theorem matches_of_checkDigest {text : String} (h : checkDigest text = .ok ()) :
    text.toList ∈ digestPattern.language := by
  unfold checkDigest at h
  split_ifs at h with hcheck
  obtain ⟨hsize, hscheme, hhex⟩ := hcheck
  obtain ⟨rest, hrest⟩ := List.isPrefixOf_iff_prefix.mp hscheme
  rw [← hrest, show (7 : ℕ) = digestScheme.toList.length from rfl, List.drop_left,
    List.all_eq_true] at hhex
  have hlength : rest.length = 64 := by
    have htext : text = digestScheme ++ String.ofList rest := by
      rw [← String.toList_inj, String.toList_append, String.toList_ofList, hrest]
    rw [htext, String.utf8ByteSize_append, ContentDigest.utf8ByteSize_ofList_of_ascii
      (fun c hc => toNat_lt_of_isLowerHex (hhex c hc))] at hsize
    exact Nat.add_left_cancel (hsize.trans (show 71 = digestScheme.utf8ByteSize + 64 from rfl))
  unfold digestPattern hexPattern
  rw [← hrest]
  refine append_mem_cat (mem_text.mpr rfl) ?_
  rw [mem_times_set, hlength]
  exact ⟨⟨le_refl _, le_refl _⟩, fun c hc => (inSet_hex c).trans (hhex c hc)⟩

example : digestPattern.anchored = "^sha256:[0-9a-f]\x7b64\x7d$" := rfl

/-- Groups of 8, 4, 4, 4 and 12 digits. -/
def uuidPattern : Pattern :=
  .cat (.times hexPattern 8 8) (.cat (.lit '-') (.cat (.times hexPattern 4 4) (.cat (.lit '-')
    (.cat (.times hexPattern 4 4) (.cat (.lit '-') (.cat (.times hexPattern 4 4) (.cat (.lit '-')
      (.times hexPattern 12 12))))))))

/-- The groups of a UUID. -/
def uuidGroups (uuid : List UInt8) : List Char :=
  hexText (uuid.take 4) ++ '-' :: (hexText ((uuid.drop 4).take 2) ++ '-' ::
    (hexText ((uuid.drop 6).take 2) ++ '-' :: (hexText ((uuid.drop 8).take 2) ++ '-' ::
      hexText (uuid.drop 10))))

/-- **The documented form of a hyphenated UUID**: lowercase digits in five
groups. -/
class UuidCrate.Grouped [UuidCrate] : Prop where
  /-- A UUID is written in five groups. -/
  toList_hyphenated : ∀ uuid : Vector UInt8 16,
    (UuidCrate.hyphenated uuid).toList = uuidGroups uuid.toList

theorem hexText_mem_times {bytes : List UInt8} {n : ℕ} (h : 2 * bytes.length = n) :
    hexText bytes ∈ (Pattern.times hexPattern n n).language := by
  unfold hexPattern
  rw [mem_times_set, length_hexText, h]
  exact ⟨⟨le_refl _, le_refl _⟩,
    fun c hc => (inSet_hex c).trans (isLowerHex_of_mem_hexText hc)⟩

/-- **What the check of a UUID makes sure of.** -/
theorem matches_of_checkUuid [UuidCrate] [UuidCrate.Grouped] {text : String}
    (h : checkUuid text = .ok ()) : text.toList ∈ uuidPattern.language := by
  unfold checkUuid at h
  cases hparse : UuidCrate.parseStr text with
  | none => rw [hparse] at h; cases h
  | some uuid =>
    rw [hparse] at h
    have htext : UuidCrate.hyphenated uuid = text := by
      by_contra hne
      exact absurd ((if_pos hne).symm.trans h) (by simp)
    have hlength := uuid.length_toList
    rw [← htext, UuidCrate.Grouped.toList_hyphenated]
    unfold uuidPattern uuidGroups
    refine append_mem_cat (hexText_mem_times ?_) (cons_mem_cat '-' ?_)
    · simp [hlength]
    refine append_mem_cat (hexText_mem_times ?_) (cons_mem_cat '-' ?_)
    · simp [hlength]
    refine append_mem_cat (hexText_mem_times ?_) (cons_mem_cat '-' ?_)
    · simp [hlength]
    refine append_mem_cat (hexText_mem_times ?_) (cons_mem_cat '-' (hexText_mem_times ?_))
    · simp [hlength]
    · simp [hlength]

example : uuidPattern.anchored
    = "^[0-9a-f]\x7b8\x7d-[0-9a-f]\x7b4\x7d-[0-9a-f]\x7b4\x7d-[0-9a-f]\x7b4\x7d"
      ++ "-[0-9a-f]\x7b12\x7d$" := rfl

/-! ## Field paths -/

/-- A character of a token as it is written. -/
def pointerUnit : Pattern :=
  .alt (.set true [('~', '~'), ('/', '/')]) (.cat (.lit '~') (.set false [('0', '0'), ('1', '1')]))

/-- Tokens, each behind a slash. -/
def fieldPathPattern : Pattern := .alt .empty (.plus (.cat (.lit '/') (.star pointerUnit)))

theorem escape_mem_pointerUnit (c : Char) : JsonPointer.escape c ∈ pointerUnit.language := by
  unfold JsonPointer.escape pointerUnit
  rw [mem_alt]
  split_ifs with htilde hslash
  · exact Or.inr (cons_mem_cat '~' ⟨'0', rfl, rfl⟩)
  · exact Or.inr (cons_mem_cat '~' ⟨'1', rfl, rfl⟩)
  · refine Or.inl ⟨c, ?_, rfl⟩
    have htilde' : c.toNat ≠ 126 := fun h => htilde (Char.toNat_inj.mp h)
    have hslash' : c.toNat ≠ 47 := fun h => hslash (Char.toNat_inj.mp h)
    simp only [inSet, List.any_cons, List.any_nil, Bool.or_false, Bool.xor_true, Bool.not_eq_true',
      Bool.or_eq_false_iff, Bool.and_eq_false_iff, decide_eq_false_iff_not]
    show (¬ 126 ≤ c.toNat ∨ ¬ c.toNat ≤ 126) ∧ (¬ 47 ≤ c.toNat ∨ ¬ c.toNat ≤ 47)
    omega

theorem escaped_mem_star (token : JsonPointer.Token) :
    JsonPointer.escaped token ∈ (Pattern.star pointerUnit).language := by
  induction token with
  | nil => exact nil_mem_star _
  | cons c token ih => exact append_mem_star (escape_mem_pointerUnit c) ih

theorem spell_mem_star (tokens : List JsonPointer.Token) :
    JsonPointer.spell tokens ∈
      (Pattern.star (.cat (.lit '/') (.star pointerUnit))).language := by
  induction tokens with
  | nil => exact nil_mem_star _
  | cons token tokens ih =>
    exact append_mem_star (cons_mem_cat '/' (escaped_mem_star token)) ih

/-- **A field path spells tokens**, and so does what its pattern matches. -/
theorem matches_of_fieldPath (p : FieldPath) : p.text.toList ∈ fieldPathPattern.language := by
  unfold fieldPathPattern
  rw [← p.spell_tokens, mem_alt]
  cases p.tokens with
  | nil => exact Or.inl rfl
  | cons token tokens =>
    right
    exact append_mem_plus (cons_mem_cat '/' (escaped_mem_star token)) (spell_mem_star tokens)

example : fieldPathPattern.anchored = "^(?:|(?:/(?:[^~/]|~[01])*)+)$" := rfl
