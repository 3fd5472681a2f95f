import NautilusAgents.Contract

/-!
# The texts of digests, identities and keys

What is accepted as a content digest or as an identity is the spelling of some
bytes, 32 of them or 16, and each spelling is that of one value only: lowercase
digits, two for a byte, say as much as the bytes do (`exists_hexText_eq`). The
published patterns ask for such digits and for nothing else, so that pattern,
parser and bytes agree on every text (`ContentDigest.texts`, `checkUuid_texts`).

An idempotency key stands for nothing but itself. Its check counts bytes where
its schema counts characters; of ASCII there are as many of the one as of the
other (`checkIdempotencyKey_eq_ok_iff`).
-/

open Pattern

/-! ## Lowercase digits -/

/-- A lowercase digit is the digit of its value. -/
theorem exists_hexDigit_eq {c : Char} (h : isLowerHex c = true) :
    ∃ n < 16, Json.hexDigit n = c := by
  have hall : ∀ n < 103, isLowerHex (Char.ofNat n) = true →
      ∃ m < 16, Json.hexDigit m = Char.ofNat n := by decide
  have hc : c.toNat < 103 := by
    simp only [isLowerHex, Char.isDigit, Bool.or_eq_true, Bool.and_eq_true, decide_eq_true_eq,
      Char.le_def, UInt32.le_iff_toNat_le] at h
    have h9 : ('9'.val.toNat) = 57 := rfl
    have hf : ('f'.val.toNat) = 102 := rfl
    have hval : c.val.toNat = c.toNat := rfl
    omega
  have hback : Char.ofNat c.toNat = c := Char.ofNat_toNat c
  obtain ⟨m, hm, hdigit⟩ := hall c.toNat hc (hback.symm ▸ h)
  exact ⟨m, hm, hdigit.trans hback⟩

/-- Two lowercase digits are those of a byte. -/
theorem exists_hexByte_eq {a b : Char} (ha : isLowerHex a = true) (hb : isLowerHex b = true) :
    ∃ byte, hexByte byte = [a, b] := by
  obtain ⟨m, hm, rfl⟩ := exists_hexDigit_eq ha
  obtain ⟨n, hn, rfl⟩ := exists_hexDigit_eq hb
  refine ⟨UInt8.ofNat (m * 16 + n), ?_⟩
  have hnumber : (UInt8.ofNat (m * 16 + n)).toNat = m * 16 + n :=
    UInt8.toNat_ofNat_of_lt (by show m * 16 + n < 256; omega)
  unfold hexByte
  rw [hnumber, show (m * 16 + n) / 16 = m by omega, show (m * 16 + n) % 16 = n by omega]

/-- **Lowercase digits in pairs are the digits of bytes.** -/
theorem exists_hexText_eq {n : ℕ} {cs : List Char} (hlength : cs.length = 2 * n)
    (h : ∀ c ∈ cs, isLowerHex c = true) : ∃ bytes, bytes.length = n ∧ hexText bytes = cs := by
  induction n generalizing cs with
  | zero => exact ⟨[], rfl, (List.length_eq_zero_iff.mp hlength).symm⟩
  | succ n ih =>
    match cs, hlength, h with
    | a :: b :: rest, hlength, h =>
      rw [List.forall_mem_cons, List.forall_mem_cons] at h
      obtain ⟨byte, hbyte⟩ := exists_hexByte_eq h.1 h.2.1
      have hrest : rest.length = 2 * n := by
        rw [List.length_cons, List.length_cons] at hlength
        omega
      obtain ⟨bytes, hbytes, htext⟩ := ih hrest h.2.2
      refine ⟨byte :: bytes, congrArg Nat.succ hbytes, ?_⟩
      unfold hexText at htext ⊢
      rw [List.flatMap_cons, hbyte, htext]
      rfl

/-- What a number of lowercase digits matches. -/
theorem exists_hexText_of_mem_times {n : ℕ} {w : List Char}
    (h : w ∈ (Pattern.times hexPattern (2 * n) (2 * n)).language) :
    ∃ bytes, bytes.length = n ∧ hexText bytes = w := by
  unfold hexPattern at h
  rw [mem_times_set] at h
  refine exists_hexText_eq (le_antisymm h.1.2 h.1.1) (fun c hc => ?_)
  rw [← inSet_hex]
  exact h.2 c hc

/-! ## Digests -/

namespace ContentDigest

/-- A text of the pattern is the digest of 32 bytes. -/
theorem exists_newText_eq {s : String} (h : s.toList ∈ digestPattern.language) :
    ∃ bytes : Vector UInt8 32, newText bytes = s := by
  unfold digestPattern at h
  obtain ⟨scheme, hscheme, digits, hdigits, htext⟩ := mem_cat.mp h
  obtain ⟨bytes, hlength, rfl⟩ := exists_hexText_of_mem_times (n := 32) hdigits
  refine ⟨⟨bytes.toArray, hlength⟩, String.toList_inj.mp ?_⟩
  rw [toList_newText, ← htext, mem_text.mp hscheme]
  rfl

/-- Different bytes have different texts. -/
theorem newText_injective : Function.Injective newText := by
  intro x y h
  exact new_injective (ContentDigest.ext h)

/-- **The texts of digests**: those of the published pattern, each the digest
of 32 bytes that no other bytes have. -/
theorem texts (s : String) :
    ((∃ digest, parse s = .ok digest) ↔ Contract.contentDigest (.str s)) ∧
      (Contract.contentDigest (.str s) ↔ ∃! bytes, newText bytes = s) := by
  have hschema : Contract.contentDigest (.str s) ↔ s.toList ∈ digestPattern.language :=
    Schema.string_str
  have hbytes : s.toList ∈ digestPattern.language ↔ ∃ bytes, newText bytes = s := by
    constructor
    · exact exists_newText_eq
    · rintro ⟨bytes, rfl⟩
      exact matches_of_checkDigest (checkDigest_newText bytes)
  refine ⟨exists_parseChecked_iff.trans ?_, ?_⟩
  · rw [hschema]
    constructor
    · exact matches_of_checkDigest
    · intro h
      obtain ⟨bytes, rfl⟩ := hbytes.mp h
      exact checkDigest_newText bytes
  · rw [hschema, hbytes]
    constructor
    · rintro ⟨bytes, rfl⟩
      exact ⟨bytes, rfl, fun other h => newText_injective h⟩
    · rintro ⟨bytes, h, -⟩
      exact ⟨bytes, h⟩

end ContentDigest

/-! ## Identities -/

/-- The groups of bytes that come in groups. -/
theorem uuidGroups_append {a b c d e : List UInt8} (ha : a.length = 4) (hb : b.length = 2)
    (hc : c.length = 2) (hd : d.length = 2) :
    uuidGroups (a ++ (b ++ (c ++ (d ++ e)))) =
      hexText a ++ '-' :: (hexText b ++ '-' :: (hexText c ++ '-' ::
        (hexText d ++ '-' :: hexText e))) := by
  unfold uuidGroups
  have h6 : (a ++ (b ++ (c ++ (d ++ e)))).drop 6 = c ++ (d ++ e) := by
    rw [← List.append_assoc]
    exact List.drop_left' (by rw [List.length_append, ha, hb])
  have h8 : (a ++ (b ++ (c ++ (d ++ e)))).drop 8 = d ++ e := by
    rw [← List.append_assoc, ← List.append_assoc]
    exact List.drop_left' (by rw [List.length_append, List.length_append, ha, hb, hc])
  have h10 : (a ++ (b ++ (c ++ (d ++ e)))).drop 10 = e := by
    rw [← List.append_assoc, ← List.append_assoc, ← List.append_assoc]
    exact List.drop_left' (by rw [List.length_append, List.length_append, List.length_append,
      ha, hb, hc, hd])
  rw [List.take_left' ha, List.drop_left' ha, h6, h8, h10, List.take_left' hb, List.take_left' hc,
    List.take_left' hd]

/-- A group of digits in front of a hyphen, and what follows. -/
theorem exists_group {n : ℕ} {p : Pattern} {w : List Char}
    (h : w ∈ (cat (times hexPattern (2 * n) (2 * n)) (cat (lit '-') p)).language) :
    ∃ bytes, bytes.length = n ∧ ∃ rest ∈ p.language, hexText bytes ++ '-' :: rest = w := by
  obtain ⟨digits, hdigits, behind, hbehind, rfl⟩ := mem_cat.mp h
  obtain ⟨hyphen, hhyphen, rest, hrest, rfl⟩ := mem_cat.mp hbehind
  obtain ⟨bytes, hlength, rfl⟩ := exists_hexText_of_mem_times hdigits
  exact ⟨bytes, hlength, rest, hrest, by rw [mem_lit.mp hhyphen]; rfl⟩

section Uuid

variable [UuidCrate]

/-- Different UUIDs have different texts. -/
theorem hyphenated_inj {x y : Vector UInt8 16}
    (h : UuidCrate.hyphenated x = UuidCrate.hyphenated y) : x = y := by
  have hread := congrArg UuidCrate.parseStr h
  rw [UuidCrate.parseStr_hyphenated, UuidCrate.parseStr_hyphenated] at hread
  exact Option.some.inj hread

variable [UuidCrate.Grouped]

/-- A text of the pattern is the hyphenated form of a UUID. -/
theorem exists_hyphenated_eq {s : String} (h : s.toList ∈ uuidPattern.language) :
    ∃ uuid, UuidCrate.hyphenated uuid = s := by
  unfold uuidPattern at h
  obtain ⟨a, ha, u, hu, htext⟩ := exists_group (n := 4) h
  obtain ⟨b, hb, v, hv, rfl⟩ := exists_group (n := 2) hu
  obtain ⟨c, hc, w, hw, rfl⟩ := exists_group (n := 2) hv
  obtain ⟨d, hd, x, hx, rfl⟩ := exists_group (n := 2) hw
  obtain ⟨e, he, rfl⟩ := exists_hexText_of_mem_times (n := 6) hx
  have hlength : (a ++ (b ++ (c ++ (d ++ e)))).length = 16 := by
    simp only [List.length_append, ha, hb, hc, hd, he]
  refine ⟨⟨(a ++ (b ++ (c ++ (d ++ e)))).toArray, hlength⟩, String.toList_inj.mp ?_⟩
  rw [UuidCrate.Grouped.toList_hyphenated, ← htext]
  exact uuidGroups_append ha hb hc hd

/-- **The texts the check of an identity accepts**: those of the pattern, each
the hyphenated form of a UUID. -/
theorem checkUuid_eq_ok_iff (s : String) :
    (checkUuid s = .ok () ↔ s.toList ∈ uuidPattern.language) ∧
      (s.toList ∈ uuidPattern.language ↔ ∃! uuid, UuidCrate.hyphenated uuid = s) := by
  refine ⟨⟨matches_of_checkUuid, fun h => ?_⟩, fun h => ?_, ?_⟩
  · obtain ⟨uuid, rfl⟩ := exists_hyphenated_eq h
    exact checkUuid_hyphenated uuid
  · obtain ⟨uuid, rfl⟩ := exists_hyphenated_eq h
    exact ⟨uuid, rfl, fun other h => hyphenated_inj h⟩
  · rintro ⟨uuid, rfl, -⟩
    exact matches_of_checkUuid (checkUuid_hyphenated uuid)

end Uuid

/-! ## Keys -/

/-- **The check of an idempotency key** is its published schema. -/
theorem checkIdempotencyKey_eq_ok_iff (s : String) :
    checkIdempotencyKey s = .ok () ↔ Contract.idempotencyKey (.str s) := by
  constructor
  · exact fun h => Contract.boundedText_str (matches_of_checkIdempotencyKey h)
  · intro hschema
    simp only [Contract.idempotencyKey, Schema.allOf_cons] at hschema
    obtain ⟨hmax, -, hpattern, -⟩ := hschema
    have hmem : s.toList ∈ idempotencyKeyPattern.language := hpattern s rfl
    unfold idempotencyKeyPattern at hmem
    rw [mem_plus_set] at hmem
    obtain ⟨hne, hclass⟩ := hmem
    have hascii : ∀ c ∈ s.toList, c.toNat < 128 := by
      intro c hc
      have hin := hclass c hc
      simp only [inSet, List.any_cons, List.any_nil, Bool.or_false, Bool.xor_false,
        Bool.and_eq_true, decide_eq_true_eq] at hin
      exact Nat.lt_succ_of_le hin.2
    have hempty : s ≠ "" := fun h => hne (String.toList_eq_nil_iff.mpr h)
    have hsize : ¬ s.utf8ByteSize > idempotencyKeyMaxBytes := by
      have hbytes := ContentDigest.utf8ByteSize_ofList_of_ascii hascii
      rw [String.ofList_toList] at hbytes
      rw [hbytes]
      exact Nat.not_lt.mpr (hmax s rfl)
    have hall : ¬ ¬ s.toList.all (fun c => decide (c.toNat < 128)) = true :=
      not_not.mpr (List.all_eq_true.mpr (fun c hc => decide_eq_true (hascii c hc)))
    unfold checkIdempotencyKey
    rw [if_neg hempty, if_neg hsize, if_neg hall]

/-! ## What is accepted -/

section Accepted

variable [UuidCrate] [UuidCrate.Grouped]

/-- **Digests, identities and keys are accepted by their schemas.** A digest is
accepted where it spells 32 bytes, and only one such list of bytes; an identity
of any of the five kinds where it spells a UUID, and only one; and a key where
it meets its schema. -/
theorem Contract.accepted_texts (s : String) :
    (((∃ digest, ContentDigest.parse s = .ok digest) ↔ contentDigest (.str s)) ∧
        (contentDigest (.str s) ↔ ∃! bytes, ContentDigest.newText bytes = s)) ∧
      (((∃ id, RequestId.parse s = .ok id) ↔ requestId (.str s)) ∧
        ((∃ id, ObservationId.parse s = .ok id) ↔ observationId (.str s)) ∧
        ((∃ id, TraceId.parse s = .ok id) ↔ traceId (.str s)) ∧
        ((∃ id, IntentId.parse s = .ok id) ↔ intentId (.str s)) ∧
        ((∃ id, CorrelationId.parse s = .ok id) ↔ correlationId (.str s)) ∧
        (requestId (.str s) ↔ ∃! uuid, UuidCrate.hyphenated uuid = s)) ∧
      ((∃ key, IdempotencyKey.parse s = .ok key) ↔ idempotencyKey (.str s)) := by
  obtain ⟨hcheck, huuid⟩ := checkUuid_eq_ok_iff s
  have hschema : Schema.string uuidPattern (.str s) ↔ s.toList ∈ uuidPattern.language :=
    Schema.string_str
  have hidentity := hcheck.trans hschema.symm
  exact ⟨ContentDigest.texts s,
    ⟨exists_parseChecked_iff.trans hidentity, exists_parseChecked_iff.trans hidentity,
      exists_parseChecked_iff.trans hidentity, exists_parseChecked_iff.trans hidentity,
      exists_parseChecked_iff.trans hidentity, hschema.trans huuid⟩,
    exists_parseChecked_iff.trans (checkIdempotencyKey_eq_ok_iff s)⟩

end Accepted

open Fixture in
/-- The identity of the fixture spells one UUID; with a letter among its digits
it would be none. -/
theorem Contract.accepted_texts_fixture :
    (∃! uuid, UuidCrate.hyphenated uuid = "10000000-0000-4000-8000-000000000011") ∧
      ¬ ∃ id, ObservationId.parse "10000000-0000-4000-8000-00000000001G" = .ok id := by
  obtain ⟨-, ⟨hrequest, -, -, -, -, hspelled⟩, -⟩ :=
    accepted_texts "10000000-0000-4000-8000-000000000011"
  refine ⟨hspelled.mp (hrequest.mp ?_), ?_⟩
  · exact exists_parseChecked_iff.mpr rfl
  · intro h
    exact absurd (exists_parseChecked_iff.mp h) (by decide)
