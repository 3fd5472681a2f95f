import NautilusAgents.Advisory
import NautilusAgents.Contract

/-!
# What the parsers accept of what the schemas accept

The patterns of `ScalarPatterns` follow from the checks; here the question is
whether they are enough. For a field path they are: the scan for escapes, the
grammar of JSON pointers and the published pattern accept the same texts, and
splitting an accepted one at its slashes gives the reference tokens of the
grammar (`FieldPath.grammar`).

For the other two they are not, because the checks bound what the schemas leave
open. An identifier is bounded in bytes where its schema counts characters, so
that a text of wide characters can meet the schema and still be refused
(`identifier_acceptance`, `wide_identifier_refused`), and a timestamp has to fit
64 bits where its pattern goes on forever (`TimestampNs.acceptance`,
`TimestampNs.pow_64_refused`). Within these bounds parser and schema agree.
-/

/-! ## Identifiers -/

/-- **The check of an identifier** is the published schema, and a bound on the
bytes. -/
theorem checkIdentifier_eq_ok_iff (s : String) :
    checkIdentifier s = .ok () ↔ Contract.identifier (.str s) ∧ s.utf8ByteSize ≤ 255 := by
  constructor
  · intro h
    obtain ⟨hpattern, hmin, hmax⟩ := matches_of_checkIdentifier h
    refine ⟨?_, ?_⟩
    · simp [Contract.identifier, Schema.maxLength, Schema.minLength, Schema.pattern,
        Schema.type_singleton, Json.type, hpattern, hmin, hmax]
    · unfold checkIdentifier at h
      split_ifs at h with hempty hsize hcontrol
      exact Nat.le_of_not_lt hsize
  · rintro ⟨hschema, hsize⟩
    have hpattern : s.toList ∈ identifierPattern.language := by
      simp only [Contract.identifier, Schema.allOf_cons] at hschema
      exact hschema.2.2.1 s rfl
    unfold identifierPattern at hpattern
    rw [Pattern.mem_plus_set] at hpattern
    obtain ⟨hne, hclass⟩ := hpattern
    have hempty : s ≠ "" := fun h => hne (String.toList_eq_nil_iff.mpr h)
    have hcontrol : ¬ s.toList.any isControl = true := by
      rw [List.any_eq_true]
      rintro ⟨c, hc, hc'⟩
      have hin := hclass c hc
      rw [inSet_control, hc'] at hin
      exact Bool.noConfusion hin
    unfold checkIdentifier
    have hshort : ¬ s.utf8ByteSize > identifierMaxBytes := Nat.not_lt.mpr hsize
    rw [if_neg hempty, if_neg hshort, if_neg hcontrol]

/-- **Which identifiers are accepted**: those the published schema accepts that
have no more than 255 bytes, for either kind of identifier. -/
theorem identifier_acceptance (s : String) :
    ((∃ id, InstrumentId.parse s = .ok id) ↔
        Contract.instrumentId (.str s) ∧ s.utf8ByteSize ≤ 255) ∧
      ((∃ id, PositionId.parse s = .ok id) ↔
        Contract.positionId (.str s) ∧ s.utf8ByteSize ≤ 255) :=
  ⟨exists_parseChecked_iff.trans (checkIdentifier_eq_ok_iff s),
    exists_parseChecked_iff.trans (checkIdentifier_eq_ok_iff s)⟩

theorem utf8ByteSize_replicate (n : ℕ) (c : Char) :
    (String.ofList (List.replicate n c)).utf8ByteSize = n * c.utf8Size := by
  induction n with
  | zero => rw [Nat.zero_mul]; rfl
  | succ n ih =>
    rw [List.replicate_succ, String.ofList_cons, String.utf8ByteSize_append,
      String.utf8ByteSize_singleton, ih, Nat.succ_mul, Nat.add_comm]

/-- A text of 128 characters of two bytes meets the schema, and either parser
refuses it. -/
theorem wide_identifier_refused :
    let wide := String.ofList (List.replicate 128 '\u00e9')
    (Contract.instrumentId (.str wide) ∧ ¬ ∃ id, InstrumentId.parse wide = .ok id) ∧
      (Contract.positionId (.str wide) ∧ ¬ ∃ id, PositionId.parse wide = .ok id) := by
  intro wide
  have hsize : ¬ wide.utf8ByteSize ≤ 255 := by
    rw [utf8ByteSize_replicate]
    decide
  have hschema : Contract.identifier (.str wide) := by
    have hpattern : wide.toList ∈ identifierPattern.language := by
      rw [String.toList_ofList]
      unfold identifierPattern
      rw [Pattern.mem_plus_set]
      refine ⟨by simp, fun c hc => ?_⟩
      rw [List.eq_of_mem_replicate hc]
      decide
    have hlength : wide.toList.length = 128 := by
      rw [String.toList_ofList, List.length_replicate]
    simp [Contract.identifier, Schema.maxLength, Schema.minLength, Schema.pattern,
      Schema.type_singleton, Json.type, hpattern, hlength]
  have hrefused : ¬ checkIdentifier wide = .ok () :=
    fun h => hsize ((checkIdentifier_eq_ok_iff wide).mp h).2
  exact ⟨⟨hschema, fun h => hrefused (exists_parseChecked_iff.mp h)⟩,
    hschema, fun h => hrefused (exists_parseChecked_iff.mp h)⟩

/-! ## Timestamps -/

namespace TimestampNs

/-- The number a text of digits denotes. -/
def denotes (s : String) : ℕ := Nat.ofDigitChars 10 s.toList 0

/-- Digits other than a single zero, as the pattern of a timestamp has them,
are those the number is written with. -/
theorem toDigits_denotes {cs : List Char} (h : cs ∈ timestampPattern.language) :
    Nat.toDigits 10 (Nat.ofDigitChars 10 cs 0) = cs := by
  unfold timestampPattern at h
  rw [Pattern.mem_alt, Pattern.mem_lit, Quantity.mem_leading] at h
  rcases h with rfl | ⟨hne, hdigits, hhead⟩
  · rfl
  have hwritten : ∀ n, ∀ c ∈ Nat.toDigits 10 n, c.isDigit = true :=
    fun n c hc => Nat.isDigit_of_mem_toDigits (by omega) (by omega) hc
  have htrimmed : ∀ {ds : List Char}, (∀ c ∈ ds, c.isDigit = true) → ds.head? ≠ some '0' →
      Numeral.Trimmed (ds.map Quantity.digitOf) := by
    intro ds hds hfirst h0
    cases ds with
    | nil => cases h0
    | cons c ds =>
      have hc := (Quantity.digitOf_eq_zero (hds c List.mem_cons_self)).mp (Option.some.inj h0)
      exact hfirst (congrArg some hc)
  have hpos : 0 < Nat.ofDigitChars 10 cs 0 := by
    rw [Quantity.ofDigitChars_eq_value]
    refine Nat.pos_of_ne_zero (fun h0 => hne ?_)
    exact List.map_eq_nil_iff.mp
      ((Numeral.value_eq_zero_iff (htrimmed hdigits hhead)).mp h0)
  refine Quantity.eq_of_map_digitOf_eq (hwritten _) hdigits ?_
  refine Numeral.eq_of_value_eq_of_trimmed (Quantity.isDigits_map_digitOf (hwritten _))
    (Quantity.isDigits_map_digitOf hdigits)
    (htrimmed (hwritten _) (Json.head_toDigits_ne_zero hpos)) (htrimmed hdigits hhead) ?_
  rw [Quantity.value_toDigits, Quantity.ofDigitChars_eq_value]

/-- **The parser of a timestamp** on the texts of its pattern. -/
theorem parse_eq_of_mem {s : String} (h : s.toList ∈ timestampPattern.language) :
    parse s = if denotes s < 2 ^ 64 then .ok ⟨UInt64.ofNat (denotes s)⟩
      else .error .timestampRange := by
  have hdigits := toDigits_denotes h
  have hne : s ≠ "" := by
    rintro rfl
    exact absurd hdigits (by decide)
  have hall : s.toList.all Char.isDigit = true := by
    rw [← hdigits]
    exact List.all_eq_true.mpr (fun c hc => Nat.isDigit_of_mem_toDigits (by omega) (by omega) hc)
  have hzero : ¬ (s.utf8ByteSize > 1 ∧ s.toList.head? = some '0') := by
    rintro ⟨hsize, hhead⟩
    unfold timestampPattern at h
    rw [Pattern.mem_alt, Pattern.mem_lit, Quantity.mem_leading] at h
    rcases h with h | ⟨-, -, h⟩
    · obtain rfl : s = "0" := String.toList_inj.mp h
      exact absurd hsize (by decide)
    · exact h hhead
  unfold parse
  rw [if_neg hne, if_neg (by rw [hall]; tauto)]
  rfl

/-- **Which timestamps are accepted**: those the published schema accepts that
denote a number of 64 bits. What is accepted is displayed as it was written. -/
theorem acceptance (s : String) :
    ((∃ t, parse s = .ok t) ↔ Contract.timestampNs (.str s) ∧ denotes s < 2 ^ 64) ∧
      ∀ t, parse s = .ok t → t.display = s := by
  have hschema : Contract.timestampNs (.str s) ↔ s.toList ∈ timestampPattern.language :=
    Schema.string_str
  have hrange : ∀ t, parse s = .ok t → s.toList ∈ timestampPattern.language ∧
      denotes s < 2 ^ 64 ∧ t = ⟨UInt64.ofNat (denotes s)⟩ := by
    intro t ht
    have hmem := matches_of_parseTimestamp ht
    rw [parse_eq_of_mem hmem] at ht
    split_ifs at ht with hlt
    exact ⟨hmem, hlt, (Except.ok.inj ht).symm⟩
  constructor
  · rw [hschema]
    constructor
    · rintro ⟨t, ht⟩
      exact ⟨(hrange t ht).1, (hrange t ht).2.1⟩
    · rintro ⟨hmem, hlt⟩
      exact ⟨_, (parse_eq_of_mem hmem).trans (if_pos hlt)⟩
  · intro t ht
    obtain ⟨hmem, hlt, rfl⟩ := hrange t ht
    have hnumber : asU64 ⟨UInt64.ofNat (denotes s)⟩ = denotes s := UInt64.toNat_ofNat_of_lt hlt
    refine String.toList_inj.mp ?_
    rw [display, hnumber, Nat.toList_repr]
    exact toDigits_denotes hmem

/-- The number after the last one of 64 bits meets the pattern, and the parser
refuses it. -/
theorem pow_64_refused :
    Contract.timestampNs (.str "18446744073709551616") ∧
      ¬ ∃ t, parse "18446744073709551616" = .ok t := by
  have hmem : "18446744073709551616".toList ∈ timestampPattern.language := by
    have hdigits : "18446744073709551616".toList.all Char.isDigit = true := rfl
    unfold timestampPattern
    rw [Pattern.mem_alt, Quantity.mem_leading]
    exact Or.inr ⟨by simp, List.all_eq_true.mp hdigits, by simp⟩
  refine ⟨Schema.string_str.mpr hmem, ?_⟩
  rintro ⟨t, ht⟩
  have hnumber : denotes "18446744073709551616" = 2 ^ 64 := rfl
  rw [parse_eq_of_mem hmem, hnumber, if_neg (Nat.lt_irrefl _)] at ht
  cases ht

end TimestampNs

/-! ## Field paths -/

namespace FieldPath

open JsonPointer

theorem escapesValid_cons {c : Char} (h : c ≠ '~') (rest : List Char) :
    escapesValid (c :: rest) = escapesValid rest := by
  cases rest with
  | nil =>
    rw [escapesValid, escapesValid, bne_iff_ne]
    exact h
  | cons d rest => rw [escapesValid, if_neg h]

/-- **The scan passes over a written token**, and never ends inside an
escape. -/
theorem escapesValid_escaped_append (token : Token) (rest : List Char) :
    escapesValid (escaped token ++ rest) = escapesValid rest := by
  induction token with
  | nil => rfl
  | cons c token ih =>
    unfold escaped at ih ⊢
    rw [List.flatMap_cons, List.append_assoc]
    unfold escape
    split_ifs with htilde hslash
    · exact ih
    · exact ih
    · rw [List.singleton_append, escapesValid_cons htilde]
      exact ih

theorem escapesValid_spell (tokens : List Token) : escapesValid (spell tokens) = true := by
  induction tokens with
  | nil => rfl
  | cons token tokens ih =>
    rw [spell_cons, escapesValid_cons (by decide), escapesValid_escaped_append]
    exact ih

/-- **The parser accepts the pointers of the grammar.** -/
theorem exists_parse_iff_isPointer (s : String) :
    (∃ p, parse s = .ok p) ↔ ∃ writtens, IsPointer writtens s.toList := by
  refine exists_parseChecked_iff.trans ⟨fun h => ?_, ?_⟩
  · obtain ⟨tokens, htokens⟩ := exists_eq_spell ⟨s, h⟩
    exact ⟨_, isPointer_iff.mpr ⟨tokens, rfl, htokens⟩⟩
  · rintro ⟨writtens, h⟩
    obtain ⟨tokens, -, hspell⟩ := isPointer_iff.mp h
    have hstart : ¬ (s ≠ "" ∧ s.toList.head? ≠ some '/') := by
      rintro ⟨hne, hhead⟩
      cases tokens with
      | nil => exact hne (String.toList_eq_nil_iff.mp hspell)
      | cons token tokens =>
        rw [hspell] at hhead
        exact hhead rfl
    unfold checkFieldPath
    rw [if_neg hstart, hspell, if_pos (escapesValid_spell tokens)]

/-! ### The published pattern -/

/-- What the pattern matches between slashes. -/
theorem isReferenceToken_of_mem_star {w : List Char}
    (h : w ∈ (Pattern.star pointerUnit).language) : IsReferenceToken w := by
  refine Pattern.star_induction .nil (fun u hu w hw => ?_) h
  unfold pointerUnit at hu
  rw [Pattern.mem_alt, Pattern.mem_set, Pattern.mem_cat] at hu
  rcases hu with ⟨c, hc, rfl⟩ | ⟨_, htilde, _, ⟨d, hd, rfl⟩, rfl⟩
  · refine .unescaped ?_ ?_ hw
    · rintro rfl
      exact absurd hc (by decide)
    · rintro rfl
      exact absurd hc (by decide)
  · rw [Pattern.mem_lit] at htilde
    subst htilde
    refine .escaped ?_ hw
    have hd' : ('0' ≤ d ∧ d ≤ '0') ∨ ('1' ≤ d ∧ d ≤ '1') := by simpa [Pattern.inSet] using hd
    exact hd'.imp (fun h => le_antisymm h.2 h.1) (fun h => le_antisymm h.2 h.1)

/-- **The grammar derives what the pattern matches.** -/
theorem isPointer_of_mem {w : List Char} (h : w ∈ fieldPathPattern.language) :
    ∃ writtens, IsPointer writtens w := by
  -- one segment in front of a pointer
  have hsegment : ∀ u ∈ (Pattern.cat (.lit '/') (.star pointerUnit)).language, ∀ w,
      (∃ writtens, IsPointer writtens w) → ∃ writtens, IsPointer writtens (u ++ w) := by
    rintro u hu w ⟨writtens, hw⟩
    rw [Pattern.mem_cat] at hu
    obtain ⟨slash, hslash, written, hwritten, rfl⟩ := hu
    rw [Pattern.mem_lit] at hslash
    subst hslash
    rw [List.append_assoc]
    show ∃ writtens, IsPointer writtens ('/' :: (written ++ w))
    exact ⟨_, .cons (isReferenceToken_of_mem_star hwritten) hw⟩
  unfold fieldPathPattern at h
  rw [Pattern.mem_alt, Pattern.mem_plus] at h
  rcases h with rfl | ⟨u, hu, v, hv, rfl⟩
  · exact ⟨[], .nil⟩
  · exact hsegment u hu v (Pattern.star_induction ⟨[], .nil⟩ hsegment hv)

theorem exists_parse_iff_mem (s : String) :
    (∃ p, parse s = .ok p) ↔ s.toList ∈ fieldPathPattern.language := by
  constructor
  · rintro ⟨p, hp⟩
    have hcheck : checkFieldPath s = .ok () := exists_parseChecked_iff.mp ⟨p, hp⟩
    exact matches_of_fieldPath ⟨s, hcheck⟩
  · intro h
    exact (exists_parse_iff_isPointer s).mpr (isPointer_of_mem h)

/-- **The grammar of field paths.** A text is accepted exactly when it is a JSON
pointer, which is when it matches the published pattern. The pieces an accepted
one is cut into at its slashes are its reference tokens, and each of them is
unescaped without an error. -/
theorem grammar (s : String) :
    ((∃ p, parse s = .ok p) ↔ ∃ writtens, IsPointer writtens s.toList) ∧
      ((∃ p, parse s = .ok p) ↔ Contract.fieldPath (.str s)) ∧
      ∀ p, parse s = .ok p → ∃ writtens, IsPointer writtens s.toList ∧
        (∀ other, IsPointer other s.toList → other = writtens) ∧
        pathSegments s = writtens.map String.ofList ∧
        ∀ written ∈ writtens, ∃ token, decode written = some token := by
  refine ⟨exists_parse_iff_isPointer s, ?_, fun p hp => ?_⟩
  · rw [exists_parse_iff_mem]
    exact Schema.string_str.symm
  · obtain ⟨writtens, hpointer⟩ := (exists_parse_iff_isPointer s).mp ⟨p, hp⟩
    have hsplit := hpointer.splitOn_eq
    refine ⟨writtens, hpointer, fun other hother => ?_, ?_, fun written hwritten => ?_⟩
    · exact (List.cons.inj (hother.splitOn_eq.symm.trans hsplit)).2
    · unfold pathSegments
      rw [hsplit]
      rfl
    · exact (hpointer.isReferenceToken written hwritten).exists_decode_eq

end FieldPath
