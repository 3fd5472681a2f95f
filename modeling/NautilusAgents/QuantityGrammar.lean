import NautilusAgents.Pattern
import NautilusAgents.Quantity

/-!
# The texts of quantities

Which texts are quantities, and how many of them stand for one number. A
quantity is spelled by the digits before its point and those after it, and
`Quantity.Canonical` lists what the check asks of the two
(`Quantity.validateQuantity_eq_ok_iff`); the pattern the schema publishes asks
the same (`Quantity.mem_language_iff`).

No two quantities stand for one number. The number of digits after the point
is the least scale at which the number is whole, since the last of them is not
zero (`Quantity.scale_le_of_value_eq`), and at one scale the digits of the two
parts are determined. Comparing the digits is therefore comparing the texts.
Conversely each positive multiple of `10⁻¹⁶` is spelled: a factor of ten is
taken off as long as there is one, and what remains has a last digit to keep
(`Quantity.exists_value_eq`).
-/

open Numeral

namespace Quantity

/-! ## The check -/

theorem splitOnce_of_notMem {sep : Char} {cs : List Char} (h : sep ∉ cs) :
    splitOnce sep cs = none := by
  cases hs : splitOnce sep cs with
  | none => rfl
  | some p =>
    rw [(splitOnce_eq_some hs).1] at h
    exact absurd (List.mem_append_right _ List.mem_cons_self) h

theorem splitOnce_append {sep : Char} {integer fraction : List Char} (h : sep ∉ integer) :
    splitOnce sep (integer ++ sep :: fraction) = some (integer, fraction) := by
  induction integer with
  | nil => rw [List.nil_append, splitOnce, if_pos rfl]
  | cons c cs ih =>
    rw [List.mem_cons, not_or] at h
    rw [List.cons_append, splitOnce, if_neg (Ne.symm h.1), ih h.2]
    rfl

/-- A digit is none of the characters the check looks for. -/
theorem ne_of_isDigit {c d : Char} (h : c.isDigit = true) (hd : d.isDigit = false) : c ≠ d := by
  rintro rfl
  rw [h] at hd
  cases hd

section Spelling

variable {integer fraction : List Char}

theorem Canonical.point_notMem_integer (h : Canonical integer fraction) : '.' ∉ integer :=
  fun hmem => ne_of_isDigit (h.integerDigits _ hmem) rfl rfl

theorem Canonical.point_notMem_fraction (h : Canonical integer fraction) : '.' ∉ fraction :=
  fun hmem => ne_of_isDigit (h.fractionDigits _ hmem) rfl rfl

/-- The parts of a text are the digits it is spelled by. -/
theorem parts_of_spelling {text : String} (htext : text.toList = spelling integer fraction)
    (h : Canonical integer fraction) : parts text = (integer, fraction) := by
  unfold parts
  rw [htext, spelling]
  split_ifs with hnil
  · rw [splitOnce_of_notMem h.point_notMem_integer, hnil]
    rfl
  · rw [splitOnce_append h.point_notMem_integer]
    rfl

/-- A spelling holds digits and the point. -/
theorem Canonical.mem_spelling (h : Canonical integer fraction) {c : Char}
    (hc : c ∈ spelling integer fraction) : c.isDigit = true ∨ c = '.' := by
  unfold spelling at hc
  split_ifs at hc with hnil
  · exact Or.inl (h.integerDigits c hc)
  · rcases List.mem_append.mp hc with hc | hc
    · exact Or.inl (h.integerDigits c hc)
    · rcases List.mem_cons.mp hc with hc | hc
      · exact Or.inr hc
      · exact Or.inl (h.fractionDigits c hc)

theorem Canonical.notMem_spelling (h : Canonical integer fraction) {c : Char}
    (hdigit : c.isDigit = false) (hpoint : c ≠ '.') : c ∉ spelling integer fraction := by
  intro hc
  rcases h.mem_spelling hc with hc | hc
  · rw [hdigit] at hc
    cases hc
  · exact hpoint hc

theorem Canonical.count_spelling (h : Canonical integer fraction) :
    (spelling integer fraction).count '.' ≤ 1 := by
  have hinteger : integer.count '.' = 0 := List.count_eq_zero.mpr h.point_notMem_integer
  have hfraction : fraction.count '.' = 0 := List.count_eq_zero.mpr h.point_notMem_fraction
  unfold spelling
  split_ifs with hnil
  · omega
  · rw [List.count_append, List.count_cons_self]
    omega

theorem Canonical.spelling_ne_nil (h : Canonical integer fraction) :
    spelling integer fraction ≠ [] := by
  unfold spelling
  split_ifs
  · exact h.integerNotEmpty
  · exact List.append_ne_nil_of_left_ne_nil h.integerNotEmpty _

/-- A text that is spelled by canonical digits passes the check. -/
theorem validateQuantity_of_spelling {text : String}
    (htext : text.toList = spelling integer fraction) (h : Canonical integer fraction) :
    validateQuantity text = .ok () := by
  have hhead : ∀ c : Char, c.isDigit = false → c ≠ '.' →
      (spelling integer fraction).head? ≠ some c :=
    fun c hdigit hpoint hc => h.notMem_spelling hdigit hpoint (List.mem_of_mem_head? hc)
  have hall : (spelling integer fraction).all (fun c => c.isDigit || c == '.') = true := by
    rw [List.all_eq_true]
    intro c hc
    rw [Bool.or_eq_true, beq_iff_eq]
    exact h.mem_spelling hc
  unfold validateQuantity
  simp only [htext]
  -- the tests on the whole text
  rw [if_neg h.spelling_ne_nil,
    if_neg (not_or.mpr ⟨hhead '+' rfl (by decide), hhead '-' rfl (by decide)⟩),
    if_neg (not_or.mpr ⟨h.notMem_spelling rfl (by decide), h.notMem_spelling rfl (by decide)⟩),
    if_neg (not_or.mpr ⟨not_not.mpr hall, not_lt.mpr h.count_spelling⟩)]
  -- the tests on its parts
  by_cases hnil : fraction = []
  · subst hnil
    rw [spelling, if_pos rfl, splitOnce_of_notMem h.point_notMem_integer]
    simp only [Option.getD_none]
    rw [if_neg h.integerNotEmpty, if_neg h.leadingZero, if_neg (by simp),
      if_neg (not_lt.mpr h.precision), if_neg h.trailingZero, if_neg h.notZero]
  · rw [spelling, if_neg hnil, splitOnce_append h.point_notMem_integer]
    simp only [Option.getD_some]
    rw [if_neg h.integerNotEmpty, if_neg h.leadingZero, if_neg (by simpa using hnil),
      if_neg (not_lt.mpr h.precision), if_neg h.trailingZero, if_neg h.notZero]

end Spelling

/-- **The texts that pass the check** are those spelled by canonical
digits. -/
theorem validateQuantity_eq_ok_iff (text : String) :
    validateQuantity text = .ok () ↔ ∃ integer fraction,
      text.toList = spelling integer fraction ∧ Canonical integer fraction := by
  constructor
  · intro h
    exact ⟨_, _, canonical_parts ⟨text, h⟩⟩
  · rintro ⟨integer, fraction, htext, h⟩
    exact validateQuantity_of_spelling htext h

theorem exists_parse_iff (text : String) :
    (∃ q, parse text = .ok q) ↔ validateQuantity text = .ok () := exists_parseChecked_iff

/-- What is parsed keeps its text. -/
theorem text_of_parse {text : String} {q : Quantity} (h : parse text = .ok q) : q.text = text := by
  unfold parse parseChecked at h
  split at h
  · rw [← Except.ok.inj h]
  · cases h

/-! ## The published pattern -/

/-- A digit. -/
def digit : Pattern := .set false [('0', '9')]

/-- A digit other than zero. -/
def nonzeroDigit : Pattern := .set false [('1', '9')]

/-- Digits that do not start with zero. -/
def leading : Pattern := .cat nonzeroDigit (.star digit)

/-- **The pattern of a quantity**: a number without fraction, or one with up
to sixteen digits after the point. -/
def pattern : Pattern :=
  .alt leading (.cat (.alt (.lit '0') leading)
    (.cat (.lit '.') (.cat (.times digit 0 15) nonzeroDigit)))

theorem inSet_digit (c : Char) : Pattern.inSet false [('0', '9')] c = c.isDigit := by
  simp only [Pattern.inSet, List.any_cons, List.any_nil, Bool.or_false, Bool.xor_false,
    Char.isDigit]
  rfl

theorem inSet_nonzeroDigit (c : Char) :
    Pattern.inSet false [('1', '9')] c = true ↔ c.isDigit = true ∧ c ≠ '0' := by
  have hzero : c ≠ '0' ↔ c.toNat ≠ 48 := by
    rw [ne_eq, ← Char.toNat_inj]
    rfl
  simp only [Pattern.inSet, List.any_cons, List.any_nil, Bool.or_false, Bool.xor_false,
    Char.isDigit, Bool.and_eq_true, decide_eq_true_eq, hzero]
  show (49 ≤ c.toNat ∧ c.toNat ≤ 57) ↔ (48 ≤ c.toNat ∧ c.toNat ≤ 57) ∧ c.toNat ≠ 48
  omega

theorem mem_leading {w : List Char} :
    w ∈ leading.language ↔ w ≠ [] ∧ (∀ c ∈ w, c.isDigit = true) ∧ w.head? ≠ some '0' := by
  unfold leading nonzeroDigit digit
  simp only [Pattern.mem_cat, Pattern.mem_set, Pattern.mem_star_set, inSet_digit,
    inSet_nonzeroDigit]
  constructor
  · rintro ⟨_, ⟨c, ⟨hdigit, hzero⟩, rfl⟩, v, hv, rfl⟩
    exact ⟨List.cons_ne_nil _ _, List.forall_mem_cons.mpr ⟨hdigit, hv⟩,
      fun h => hzero (Option.some.inj h)⟩
  · rintro ⟨hne, hall, hhead⟩
    cases w with
    | nil => exact absurd rfl hne
    | cons c w =>
      rw [List.forall_mem_cons] at hall
      exact ⟨[c], ⟨c, ⟨hall.1, fun h => hhead (congrArg some h)⟩, rfl⟩, w, hall.2, rfl⟩

theorem mem_integer {w : List Char} :
    w ∈ (Pattern.alt (.lit '0') leading).language ↔
      w ≠ [] ∧ (∀ c ∈ w, c.isDigit = true) ∧ ¬ (w.length > 1 ∧ w.head? = some '0') := by
  rw [Pattern.mem_alt, Pattern.mem_lit, mem_leading]
  constructor
  · rintro (rfl | ⟨hne, hall, hhead⟩)
    · exact ⟨List.cons_ne_nil _ _, List.forall_mem_singleton.mpr rfl,
        fun h => absurd h.1 (lt_irrefl 1)⟩
    · exact ⟨hne, hall, fun h => hhead h.2⟩
  · rintro ⟨hne, hall, hhead⟩
    by_cases h0 : w.head? = some '0'
    · left
      obtain ⟨v, rfl⟩ := List.head?_eq_some_iff.mp h0
      cases v with
      | nil => rfl
      | cons c v => exact absurd ⟨by simp, rfl⟩ hhead
    · exact Or.inr ⟨hne, hall, h0⟩

theorem mem_fraction {w : List Char} :
    w ∈ (Pattern.cat (.times digit 0 15) nonzeroDigit).language ↔
      w ≠ [] ∧ (∀ c ∈ w, c.isDigit = true) ∧ w.length ≤ decimalMaxPrecision ∧
        w.getLast? ≠ some '0' := by
  unfold digit nonzeroDigit decimalMaxPrecision
  simp only [Pattern.mem_cat, Pattern.mem_times_set, Pattern.mem_set, inSet_digit,
    inSet_nonzeroDigit]
  constructor
  · rintro ⟨u, ⟨⟨-, hlen⟩, hu⟩, _, ⟨c, ⟨hdigit, hzero⟩, rfl⟩, rfl⟩
    refine ⟨by simp, ?_, by rw [List.length_append, List.length_singleton]; omega, ?_⟩
    · rw [List.forall_mem_append, List.forall_mem_singleton]
      exact ⟨hu, hdigit⟩
    · rw [List.getLast?_concat]
      exact fun h => hzero (Option.some.inj h)
  · rintro ⟨hne, hall, hlen, hlast⟩
    obtain ⟨u, c, rfl⟩ := (List.eq_nil_or_concat' w).resolve_left hne
    rw [List.forall_mem_append, List.forall_mem_singleton] at hall
    rw [List.length_append, List.length_singleton] at hlen
    rw [List.getLast?_concat] at hlast
    exact ⟨u, ⟨⟨Nat.zero_le _, by omega⟩, hall.1⟩, [c],
      ⟨c, ⟨hall.2, fun h => hlast (congrArg some h)⟩, rfl⟩, rfl⟩

/-- **The check accepts what the pattern matches.** -/
theorem mem_language_iff (text : String) :
    text.toList ∈ pattern.language ↔ validateQuantity text = .ok () := by
  rw [validateQuantity_eq_ok_iff]
  unfold pattern
  rw [Pattern.mem_alt]
  constructor
  · rintro (h | h)
    · -- no point
      obtain ⟨hne, hall, hhead⟩ := mem_leading.mp h
      refine ⟨text.toList, [], (if_pos rfl).symm, ⟨hall, by simp, hne, fun hlead => hhead hlead.2,
        Nat.zero_le _, by simp, fun hzero => hhead ?_⟩⟩
      rw [hzero.1]
      rfl
    · -- a point and digits after it
      obtain ⟨integer, hint, _, hrest, htext⟩ := Pattern.mem_cat.mp h
      obtain ⟨point, hpoint, fraction, hfrac, rfl⟩ := Pattern.mem_cat.mp hrest
      obtain rfl := Pattern.mem_lit.mp hpoint
      obtain ⟨hne, hall, hlead⟩ := mem_integer.mp hint
      obtain ⟨hne', hall', hprec, hlast⟩ := mem_fraction.mp hfrac
      refine ⟨integer, fraction, ?_, ⟨hall, hall', hne, hlead, hprec, hlast, fun hzero => ?_⟩⟩
      · rw [spelling, if_neg hne', ← htext]
        rfl
      · obtain ⟨front, c, rfl⟩ := (List.eq_nil_or_concat' fraction).resolve_left hne'
        rw [List.getLast?_concat] at hlast
        have hc := List.all_eq_true.mp hzero.2 c (by simp)
        exact hlast (congrArg some (beq_iff_eq.mp hc))
  · rintro ⟨integer, fraction, htext, h⟩
    rw [htext]
    unfold spelling
    split_ifs with hnil
    · left
      refine mem_leading.mpr ⟨h.integerNotEmpty, h.integerDigits, fun hhead => ?_⟩
      -- a lone zero is no quantity, and more digits do not start with one
      obtain ⟨v, rfl⟩ := List.head?_eq_some_iff.mp hhead
      cases v with
      | nil => exact h.notZero ⟨rfl, by rw [hnil]; rfl⟩
      | cons c v => exact h.leadingZero ⟨by simp, rfl⟩
    · right
      exact Pattern.append_mem_cat
        (mem_integer.mpr ⟨h.integerNotEmpty, h.integerDigits, h.leadingZero⟩)
        (Pattern.cons_mem_cat '.'
          (mem_fraction.mpr ⟨hnil, h.fractionDigits, h.precision, h.trailingZero⟩))

/-! ## One spelling for each number -/

theorem digitChar_digitOf {c : Char} (h : c.isDigit = true) : Nat.digitChar (digitOf c) = c := by
  rw [Char.isDigit, Bool.and_eq_true, decide_eq_true_eq, decide_eq_true_eq] at h
  have hlow : 48 ≤ c.toNat := h.1
  have hhigh : c.toNat ≤ 57 := h.2
  have hall : ∀ n, n < 58 → 48 ≤ n → Nat.digitChar (n - 48) = Char.ofNat n := by decide
  unfold digitOf
  rw [hall _ (by omega) hlow, Char.ofNat_toNat]

/-- Digit characters are determined by their digits. -/
theorem eq_of_map_digitOf_eq {xs ys : List Char} (hx : ∀ c ∈ xs, c.isDigit = true)
    (hy : ∀ c ∈ ys, c.isDigit = true) (h : xs.map digitOf = ys.map digitOf) : xs = ys := by
  have hback : ∀ {zs : List Char}, (∀ c ∈ zs, c.isDigit = true) →
      (zs.map digitOf).map Nat.digitChar = zs := by
    intro zs hzs
    rw [List.map_map]
    conv_rhs => rw [← List.map_id zs]
    exact List.map_congr_left (fun c hc => digitChar_digitOf (hzs c hc))
  rw [← hback hx, h, hback hy]

/-- All the digits of a quantity, at its own scale, denote its number times a
power of ten. -/
theorem value_digits (q : Quantity) :
    (Numeral.value (q.integer ++ q.fraction) : ℚ) = q.value * 10 ^ q.fraction.length := by
  have hpow : (10 : ℚ) ^ q.fraction.length ≠ 0 := by positivity
  rw [value_append, value]
  push_cast
  field_simp

/-- The last digit after the point is not zero. -/
theorem getLast?_fraction_ne_zero (q : Quantity) : q.fraction.getLast? ≠ some 0 := by
  obtain ⟨-, hcanon⟩ := q.canonical_parts
  unfold fraction
  rw [List.getLast?_map]
  intro h
  obtain ⟨c, hc, h0⟩ := Option.map_eq_some_iff.mp h
  have hdigit := hcanon.fractionDigits c (List.mem_of_getLast? hc)
  exact hcanon.trailingZero (((digitOf_eq_zero hdigit).mp h0) ▸ hc)

/-- Before the point stands a zero, or digits that do not start with one. -/
theorem integer_eq_or_trimmed (q : Quantity) :
    q.integer ≠ [] ∧ (q.integer = [0] ∨ Trimmed q.integer) := by
  obtain ⟨-, hcanon⟩ := q.canonical_parts
  unfold integer Trimmed
  cases hp : (parts q.text).fst with
  | nil => exact absurd hp hcanon.integerNotEmpty
  | cons c cs =>
    have hdigit := hcanon.integerDigits c (hp ▸ List.mem_cons_self)
    refine ⟨List.cons_ne_nil _ _, ?_⟩
    by_cases hc : c = '0'
    · left
      cases cs with
      | nil => rw [hc]; rfl
      | cons d ds => exact absurd (by rw [hp]; exact ⟨by simp, congrArg some hc⟩) hcanon.leadingZero
    · right
      exact fun h => hc ((digitOf_eq_zero hdigit).mp (Option.some.inj h))

/-- **The scale of a quantity is the least one** at which its number is
whole. -/
theorem scale_le_of_value_eq {a b : Quantity} (h : a.value = b.value) :
    b.fraction.length ≤ a.fraction.length := by
  by_contra hlt
  obtain ⟨k, hk⟩ : ∃ k, b.fraction.length = a.fraction.length + (k + 1) :=
    ⟨b.fraction.length - a.fraction.length - 1, by omega⟩
  -- at the larger scale the number is a multiple of ten
  have hdigits : Numeral.value (b.integer ++ b.fraction)
      = Numeral.value (a.integer ++ a.fraction) * 10 ^ (k + 1) := by
    rw [← Nat.cast_inj (R := ℚ), Nat.cast_mul, b.value_digits, a.value_digits, ← h, hk, pow_add]
    push_cast
    ring
  have hne : b.fraction ≠ [] := by
    intro hnil
    rw [hnil] at hk
    simp at hk
  obtain ⟨front, d, hd⟩ := (List.eq_nil_or_concat' b.fraction).resolve_left hne
  have hmod := value_mod_ten (isDigits_append.mpr ⟨b.isDigits_integer, b.isDigits_fraction⟩)
    (show (b.integer ++ b.fraction).getLast? = some d by
      rw [hd, ← List.append_assoc, List.getLast?_concat])
  rw [hdigits, pow_succ, ← Nat.mul_assoc, Nat.mul_mod_left] at hmod
  refine b.getLast?_fraction_ne_zero ?_
  rw [hd, List.getLast?_concat, ← hmod]

/-- **No two quantities stand for one number.** -/
theorem value_injective : Function.Injective value := by
  intro a b h
  have hlen : a.fraction.length = b.fraction.length :=
    le_antisymm (scale_le_of_value_eq h.symm) (scale_le_of_value_eq h)
  -- at one scale both parts have the same numbers
  have hdigits : Numeral.value (a.integer ++ a.fraction)
      = Numeral.value (b.integer ++ b.fraction) := by
    rw [← Nat.cast_inj (R := ℚ), a.value_digits, b.value_digits, h, hlen]
  obtain ⟨hint, hfrac⟩ :=
    value_eq_of_value_append_eq a.isDigits_fraction b.isDigits_fraction hlen hdigits
  -- and the numbers, written without redundant zeros, the same digits
  have hinteger : a.integer = b.integer := by
    obtain ⟨hane, ha⟩ := a.integer_eq_or_trimmed
    obtain ⟨hbne, hb⟩ := b.integer_eq_or_trimmed
    have hzero : ∀ {xs ys : List ℕ}, xs = [0] → Trimmed ys → ys ≠ [] →
        Numeral.value xs = Numeral.value ys → False := by
      rintro xs ys rfl hys hne hval
      exact hne ((value_eq_zero_iff hys).mp (hval.symm.trans (value_singleton 0)))
    rcases ha with ha | ha <;> rcases hb with hb | hb
    · rw [ha, hb]
    · exact (hzero ha hb hbne hint).elim
    · exact (hzero hb ha hane hint.symm).elim
    · exact eq_of_value_eq_of_trimmed a.isDigits_integer b.isDigits_integer ha hb hint
  have hfraction : a.fraction = b.fraction :=
    eq_of_value_eq a.isDigits_fraction b.isDigits_fraction hlen hfrac
  obtain ⟨hatext, hacanon⟩ := a.canonical_parts
  obtain ⟨hbtext, hbcanon⟩ := b.canonical_parts
  refine Quantity.ext (String.toList_inj.mp ?_)
  rw [hatext, hbtext,
    eq_of_map_digitOf_eq hacanon.integerDigits hbcanon.integerDigits hinteger,
    eq_of_map_digitOf_eq hacanon.fractionDigits hbcanon.fractionDigits hfraction]

/-- **The order of quantities is that of the numbers**, and it tells two
quantities apart exactly when their texts differ. -/
theorem cmp_exact (a b c : Quantity) :
    a.cmp b = compare a.value b.value ∧
      (a.cmp b = .eq ↔ a.text = b.text) ∧
      b.cmp a = (a.cmp b).swap ∧
      (a.cmp b ≠ .gt → b.cmp c ≠ .gt → a.cmp c ≠ .gt) := by
  refine ⟨a.cmp_eq_compare_value b, ?_, ?_, fun hab hbc => ?_⟩
  · rw [cmp_eq_compare_value, compare_eq_iff_eq]
    exact ⟨fun h => congrArg text (value_injective h), fun h => congrArg value (Quantity.ext h)⟩
  · rw [cmp_eq_compare_value, cmp_eq_compare_value]
    exact Std.OrientedCmp.eq_swap
  · rw [cmp_ne_gt_iff] at hab hbc ⊢
    exact hab.trans hbc

/-! ## A spelling for each number -/

/-- The quantity that canonical digits spell. -/
def ofSpelling (integer fraction : List Char) (h : Canonical integer fraction) : Quantity :=
  ⟨String.ofList (spelling integer fraction),
    validateQuantity_of_spelling String.toList_ofList h⟩

theorem value_ofSpelling {integer fraction : List Char} (h : Canonical integer fraction) :
    (ofSpelling integer fraction h).value
      = Numeral.value (integer.map digitOf)
        + Numeral.value (fraction.map digitOf) / 10 ^ fraction.length := by
  have hparts : parts (ofSpelling integer fraction h).text = (integer, fraction) :=
    parts_of_spelling String.toList_ofList h
  unfold value
  rw [Quantity.integer, Quantity.fraction, hparts, List.length_map]

/-- The number a text of digits denotes, read off from the left. -/
theorem ofDigitChars_eq_value (cs : List Char) :
    Nat.ofDigitChars 10 cs 0 = Numeral.value (cs.map digitOf) := by
  induction cs using List.reverseRecOn with
  | nil => rfl
  | append_singleton cs c ih =>
    rw [Nat.ofDigitChars_append, Nat.ofDigitChars_cons, Nat.ofDigitChars_nil, ih, List.map_append,
      List.map_singleton, value_concat]
    rfl

theorem value_toDigits (n : ℕ) : Numeral.value ((Nat.toDigits 10 n).map digitOf) = n := by
  rw [← ofDigitChars_eq_value, Nat.ofDigitChars_ten_toDigits]

theorem digitOf_digitChar {d : ℕ} (h : d < 10) :
    digitOf (Nat.digitChar d) = d ∧ (Nat.digitChar d).isDigit = true := by
  have hall : ∀ d, d < 10 →
      digitOf (Nat.digitChar d) = d ∧ (Nat.digitChar d).isDigit = true := by decide
  exact hall d h

/-- The digits of a number, written as characters. -/
theorem map_digitOf_places (n m : ℕ) :
    ((places n m).map Nat.digitChar).map digitOf = places n m := by
  rw [List.map_map]
  conv_rhs => rw [← List.map_id (places n m)]
  exact List.map_congr_left (fun d hd => (digitOf_digitChar (isDigits_places n m d hd)).1)

/-- Digits of a number before the point are as a quantity asks. -/
theorem canonical_toDigits {m : ℕ} {fraction : List Char}
    (hdigits : ∀ c ∈ fraction, c.isDigit = true) (hprec : fraction.length ≤ decimalMaxPrecision)
    (hlast : fraction.getLast? ≠ some '0') (hpos : fraction = [] → 0 < m) :
    Canonical (Nat.toDigits 10 m) fraction where
  integerDigits c hc := Nat.isDigit_of_mem_toDigits (by omega) (by omega) hc
  fractionDigits := hdigits
  integerNotEmpty := Nat.toDigits_ne_nil
  leadingZero h := by
    rcases Nat.eq_zero_or_pos m with rfl | hm
    · exact absurd h.1 (by decide)
    · exact Json.head_toDigits_ne_zero hm h.2
  precision := hprec
  trailingZero := hlast
  notZero h := by
    rcases List.eq_nil_or_concat' fraction with hnil | ⟨front, c, rfl⟩
    · exact Json.head_toDigits_ne_zero (hpos hnil) (by rw [h.1]; rfl)
    · rw [List.getLast?_concat] at hlast
      have hc := List.all_eq_true.mp h.2 c (by simp)
      exact hlast (congrArg some (beq_iff_eq.mp hc))

/-- **Each positive number with at most sixteen digits after the point is
spelled.** The induction is on the number of digits, one of which is dropped
where it is a zero. -/
theorem exists_value_eq {k : ℕ} (hk : k ≤ decimalMaxPrecision) {n : ℕ} (hn : 0 < n) :
    ∃ q : Quantity, q.value = n / 10 ^ k := by
  induction k generalizing n with
  | zero =>
    have hcanon : Canonical (Nat.toDigits 10 n) [] :=
      canonical_toDigits (by simp) (Nat.zero_le _) (by simp) (fun _ => hn)
    refine ⟨ofSpelling _ _ hcanon, ?_⟩
    rw [value_ofSpelling, value_toDigits]
    simp
  | succ k ih =>
    by_cases hdvd : 10 ∣ n
    · obtain ⟨m, rfl⟩ := hdvd
      obtain ⟨q, hq⟩ := ih (by omega) (show 0 < m by omega)
      refine ⟨q, ?_⟩
      rw [hq, pow_succ]
      push_cast
      field_simp
    · have hlast : (places (k + 1) n).getLast? = some (n % 10) := by
        rw [places, List.getLast?_concat]
      have hne : n % 10 ≠ 0 := fun h => hdvd (Nat.dvd_of_mod_eq_zero h)
      have hcanon : Canonical (Nat.toDigits 10 (n / 10 ^ (k + 1)))
          ((places (k + 1) n).map Nat.digitChar) := by
        refine canonical_toDigits (fun c hc => ?_) ?_ (fun h => ?_) (fun h => ?_)
        · obtain ⟨d, hd, rfl⟩ := List.mem_map.mp hc
          exact (digitOf_digitChar (isDigits_places _ _ d hd)).2
        · rw [List.length_map, length_places]
          exact hk
        · rw [List.getLast?_map, hlast] at h
          have hd : Nat.digitChar (n % 10) = '0' := Option.some.inj h
          have hzero := (digitOf_digitChar (show n % 10 < 10 by omega)).1
          rw [hd] at hzero
          exact hne hzero.symm
        · have hlen := congrArg List.length h
          rw [List.length_map, length_places] at hlen
          cases hlen
      refine ⟨ofSpelling _ _ hcanon, ?_⟩
      rw [value_ofSpelling, value_toDigits, map_digitOf_places, value_places, List.length_map,
        length_places]
      have hpow : (10 : ℚ) ^ (k + 1) ≠ 0 := by positivity
      have hdiv := Nat.div_add_mod n (10 ^ (k + 1))
      rw [eq_div_iff hpow, add_mul, div_mul_cancel₀ _ hpow]
      exact_mod_cast (by rw [Nat.mul_comm]; exact hdiv)

/-- **The grammar of quantities.** A text is a quantity exactly when it matches
the published pattern, and each positive multiple of `10⁻¹⁶` is spelled by
exactly one text. -/
theorem grammar_and_spelling :
    pattern.anchored = "^(?:[1-9][0-9]*|(?:0|[1-9][0-9]*)\\.[0-9]\x7b0,15\x7d[1-9])$" ∧
      (∀ text : String, (∃ q, parse text = .ok q) ↔ text.toList ∈ pattern.language) ∧
      ∀ n : ℕ, 0 < n → ∃! text : String, ∃ q, parse text = .ok q ∧ q.value = n / 10 ^ 16 := by
  refine ⟨rfl, fun text => ?_, fun n hn => ?_⟩
  · rw [exists_parse_iff, mem_language_iff]
  · obtain ⟨q, hq⟩ := exists_value_eq (k := 16) (le_refl 16) hn
    refine ⟨q.text, ⟨q, parseChecked_of_ok q.checked, hq⟩, ?_⟩
    rintro text ⟨q', hparse, hq'⟩
    rw [← text_of_parse hparse, value_injective (hq'.trans hq.symm)]

end Quantity
