import NautilusAgents.Decimal
import NautilusAgents.Value

/-!
# Quantities

A quantity is a text: a strictly positive decimal without a redundant zero,
with at most sixteen digits after the point. Its order and its divisibility
test are computed on digit vectors, after both texts are brought to one scale.

The number a quantity stands for is the rational `Quantity.value`, read off
the text with no reference to the routines. What the routines compute is then
said in its terms: `Quantity.cmp` compares the numbers
(`Quantity.cmp_eq_compare_value`), and `Quantity.isMultipleOf` tells whether
one number is a multiple of the other (`Quantity.isMultipleOf_eq_true`). Both
rest on one fact, that the digits at a common scale denote the number times a
power of ten (`Quantity.value_decimalDigits`).
-/

open Numeral

/-- The longest fraction of a quantity. -/
def decimalMaxPrecision : ℕ := 16

/-- `str::split_once`: the text before and after the first occurrence. -/
def splitOnce (sep : Char) : List Char → Option (List Char × List Char)
  | [] => none
  | c :: cs => if c = sep then some ([], cs)
    else (splitOnce sep cs).map (fun p => (c :: p.fst, p.snd))

/-- **The check of a quantity**, in the order of the tests. Where lengths of
the parts are compared the text holds digits and points only, so that
characters are bytes. -/
def validateQuantity (text : String) : Except ValueError Unit :=
  let value := text.toList
  if value = [] then .error .emptyQuantity
  else if value.head? = some '+' ∨ value.head? = some '-' then .error .quantitySign
  else if 'e' ∈ value ∨ 'E' ∈ value then .error .quantityExponent
  else if ¬ value.all (fun c => c.isDigit || c == '.') ∨ value.count '.' > 1 then
    .error .quantityCharacter
  else
    let (integer, fraction) := match splitOnce '.' value with
      | some (integer, fraction) => (integer, some fraction)
      | none => (value, none)
    if integer = [] then .error .quantityCharacter
    else if integer.length > 1 ∧ integer.head? = some '0' then .error .quantityLeadingZero
    else if fraction = some [] then .error .quantityEmptyFraction
    else if (fraction.getD []).length > decimalMaxPrecision then .error .quantityPrecision
    else if (fraction.getD []).getLast? = some '0' then .error .quantityTrailingZero
    else if integer = ['0'] ∧ (fraction.getD []).all (· == '0') then .error .quantityZero
    else .ok ()

/-- A strictly positive canonical decimal. -/
@[ext] structure Quantity where
  /-- The text. -/
  text : String
  /-- It is one that the check accepts. -/
  checked : validateQuantity text = .ok ()
  deriving DecidableEq

namespace Quantity

/-- Parse a quantity. -/
def parse (value : String) : Except ValueError Quantity :=
  parseChecked validateQuantity Quantity.mk value

instance : CheckedText Quantity where
  asStr := Quantity.text
  accept value := (parse value).toOption
  accept_asStr q := toOption_parseChecked q.checked

/-! ## The routines -/

/-- The digit a character stands for: `byte - b'0'`. -/
def digitOf (c : Char) : ℕ := c.toNat - 48

/-- `Vec::resize` with zeros. -/
def resize (n : ℕ) (ds : List ℕ) : List ℕ := ds.take n ++ List.replicate (n - ds.length) 0

/-- The text before and after the point; a text without one is all before. -/
def parts (text : String) : List Char × List Char :=
  (splitOnce '.' text.toList).getD (text.toList, [])

/-- The number of digits after the point. -/
def scale (q : Quantity) : ℕ :=
  match splitOnce '.' q.text.toList with
  | some (_, fraction) => fraction.length
  | none => 0

/-- **The digits of a text at a scale**: those of both parts, with zeros after
them up to the scale, and no leading zeros. -/
def decimalDigits (text : String) (scale : ℕ) : List ℕ :=
  let (integer, fraction) := parts text
  trimZeroes (resize (integer.length + scale) (integer.map digitOf ++ fraction.map digitOf))

/-- Compare two quantities at their larger scale. -/
def cmp (a b : Quantity) : Ordering :=
  let scale := max a.scale b.scale
  compareDecimal (decimalDigits a.text scale) (decimalDigits b.text scale)

/-! ## The number a quantity stands for -/

/-- The digits before the point. -/
def integer (q : Quantity) : List ℕ := (parts q.text).fst.map digitOf

/-- The digits after the point. -/
def fraction (q : Quantity) : List ℕ := (parts q.text).snd.map digitOf

/-- **The number a quantity stands for.** -/
def value (q : Quantity) : ℚ :=
  Numeral.value q.integer + Numeral.value q.fraction / 10 ^ q.fraction.length

theorem splitOnce_eq_some {sep : Char} {cs integer fraction : List Char}
    (h : splitOnce sep cs = some (integer, fraction)) :
    cs = integer ++ sep :: fraction ∧ sep ∉ integer := by
  induction cs generalizing integer with
  | nil => cases h
  | cons c cs ih =>
    rw [splitOnce] at h
    split_ifs at h with hc
    · rw [Option.some.injEq, Prod.mk.injEq] at h
      obtain ⟨rfl, rfl⟩ := h
      exact ⟨by rw [hc]; rfl, List.not_mem_nil⟩
    · obtain ⟨⟨i, f⟩, hp, heq⟩ := Option.map_eq_some_iff.mp h
      rw [Prod.mk.injEq] at heq
      obtain ⟨rfl, rfl⟩ := heq
      obtain ⟨rfl, hnot⟩ := ih hp
      refine ⟨rfl, fun hmem => ?_⟩
      rcases List.mem_cons.mp hmem with rfl | hmem
      · exact hc rfl
      · exact hnot hmem

theorem splitOnce_eq_none {sep : Char} {cs : List Char} (h : splitOnce sep cs = none) :
    sep ∉ cs := by
  induction cs with
  | nil => exact List.not_mem_nil
  | cons c cs ih =>
    rw [splitOnce] at h
    split_ifs at h with hc
    rw [Option.map_eq_none_iff] at h
    intro hmem
    rcases List.mem_cons.mp hmem with rfl | hmem
    · exact hc rfl
    · exact ih h hmem

/-- A digit character stands for a digit. -/
theorem digitOf_lt {c : Char} (h : c.isDigit = true) : digitOf c < 10 := by
  have hc : c.toNat ≤ 57 := by
    rw [Char.isDigit, Bool.and_eq_true, decide_eq_true_eq, decide_eq_true_eq] at h
    exact h.2
  unfold digitOf
  omega

/-- Only the character zero stands for the digit zero. -/
theorem digitOf_eq_zero {c : Char} (h : c.isDigit = true) : digitOf c = 0 ↔ c = '0' := by
  rw [Char.isDigit, Bool.and_eq_true, decide_eq_true_eq, decide_eq_true_eq] at h
  have hlow : 48 ≤ c.toNat := h.1
  unfold digitOf
  constructor
  · intro h0
    exact Char.ext (UInt32.toNat_inj.mp (show c.toNat = 48 by omega))
  · rintro rfl
    rfl

/-! ## The digits of a checked text -/

/-- **What a quantity asks of its digits**, before and after the point. -/
structure Canonical (integer fraction : List Char) : Prop where
  /-- Digits only before the point. -/
  integerDigits : ∀ c ∈ integer, c.isDigit = true
  /-- Digits only behind it. -/
  fractionDigits : ∀ c ∈ fraction, c.isDigit = true
  /-- At least one digit before the point. -/
  integerNotEmpty : integer ≠ []
  /-- No zero before another digit. -/
  leadingZero : ¬ (integer.length > 1 ∧ integer.head? = some '0')
  /-- No more digits behind the point than the precision. -/
  precision : fraction.length ≤ decimalMaxPrecision
  /-- No zero at the end behind the point. -/
  trailingZero : fraction.getLast? ≠ some '0'
  /-- The number is not zero. -/
  notZero : ¬ (integer = ['0'] ∧ fraction.all (· == '0'))

/-- The text of the digits: a point stands between them where there are digits
after it. -/
def spelling (integer fraction : List Char) : List Char :=
  if fraction = [] then integer else integer ++ '.' :: fraction

/-- **The digits a checked text is spelled by.** -/
theorem canonical_parts (q : Quantity) :
    q.text.toList = spelling (parts q.text).fst (parts q.text).snd ∧
      Canonical (parts q.text).fst (parts q.text).snd := by
  have h := q.checked
  have hdigit : ¬ (¬ q.text.toList.all (fun c => c.isDigit || c == '.') ∨
      q.text.toList.count '.' > 1) → ∀ c ∈ q.text.toList, c ≠ '.' → c.isDigit = true := by
    intro hchars c hc hne
    rw [not_or, not_not, List.all_eq_true] at hchars
    have := hchars.1 c hc
    rw [Bool.or_eq_true, beq_iff_eq] at this
    exact this.resolve_right hne
  unfold validateQuantity at h
  cases hsplit : splitOnce '.' q.text.toList with
  | none =>
    simp only [hsplit, Option.getD_none] at h
    split_ifs at h with hint _ _ hchars hlead _ _ _ hzero
    have hnot := splitOnce_eq_none hsplit
    have hparts : parts q.text = (q.text.toList, []) := by rw [parts, hsplit]; rfl
    rw [hparts]
    refine ⟨(if_pos rfl).symm, ⟨fun c hc => hdigit hchars c hc (fun he => hnot (he ▸ hc)), ?_,
      hint, hlead, Nat.zero_le _, ?_, hzero⟩⟩
    · intro c hc
      cases hc
    · simp
  | some p =>
    obtain ⟨integer, fraction⟩ := p
    simp only [hsplit, Option.getD_some] at h
    split_ifs at h with _ _ _ hchars hint hlead hempty hlong hlast hzero
    obtain ⟨htext, hnot⟩ := splitOnce_eq_some hsplit
    have hparts : parts q.text = (integer, fraction) := by rw [parts, hsplit]; rfl
    -- the one point separates the parts, so the fraction holds none
    have hfrac : '.' ∉ fraction := by
      intro hmem
      refine hchars (Or.inr ?_)
      rw [htext, List.count_append, List.count_cons_self]
      have := List.count_pos_iff.mpr hmem
      omega
    rw [hparts, spelling, if_neg (fun hnil => hempty (congrArg some hnil))]
    refine ⟨htext, ⟨fun c hc => hdigit hchars c ?_ (fun he => hnot (he ▸ hc)),
      fun c hc => hdigit hchars c ?_ (fun he => hfrac (he ▸ hc)), hint, hlead,
      not_lt.mp hlong, hlast, hzero⟩⟩
    · rw [htext]
      exact List.mem_append_left _ hc
    · rw [htext]
      exact List.mem_append_right _ (List.mem_cons_of_mem _ hc)

theorem isDigits_map_digitOf {cs : List Char} (h : ∀ c ∈ cs, c.isDigit = true) :
    IsDigits (cs.map digitOf) := by
  intro d hd
  obtain ⟨c, hc, rfl⟩ := List.mem_map.mp hd
  exact digitOf_lt (h c hc)

theorem isDigits_integer (q : Quantity) : IsDigits q.integer :=
  isDigits_map_digitOf q.canonical_parts.2.integerDigits

theorem isDigits_fraction (q : Quantity) : IsDigits q.fraction :=
  isDigits_map_digitOf q.canonical_parts.2.fractionDigits

theorem scale_eq_length_fraction (q : Quantity) : q.scale = q.fraction.length := by
  unfold scale fraction
  rw [List.length_map, parts]
  cases splitOnce '.' q.text.toList <;> rfl

/-- Digits that are not all zero denote a positive number. -/
theorem value_pos_of_mem {ds : List ℕ} {d : ℕ} (hd : d ∈ ds) (hne : d ≠ 0) :
    0 < Numeral.value ds := by
  induction ds with
  | nil => cases hd
  | cons e ds ih =>
    rw [value_cons]
    rcases List.mem_cons.mp hd with rfl | hd
    · have hpow : 0 < 10 ^ ds.length := Nat.pow_pos (by omega)
      have := Nat.mul_pos (Nat.pos_of_ne_zero hne) hpow
      omega
    · have := ih hd
      omega

/-- **A quantity is strictly positive.** -/
theorem value_pos (q : Quantity) : 0 < q.value := by
  obtain ⟨-, hint, hfrac, hne, hlead, -, -, hzero⟩ := q.canonical_parts
  have hor : 0 < Numeral.value q.integer ∨ 0 < Numeral.value q.fraction := by
    by_cases h0 : (parts q.text).fst = ['0']
    · -- then some digit after the point is not zero
      right
      have hall : ¬ (parts q.text).snd.all (· == '0') := fun hall => hzero ⟨h0, hall⟩
      rw [List.all_eq_true] at hall
      push Not at hall
      obtain ⟨c, hc, hcne⟩ := hall
      refine value_pos_of_mem (List.mem_map_of_mem hc) (fun h => hcne ?_)
      rw [(digitOf_eq_zero (hfrac c hc)).mp h]
      rfl
    · left
      cases hp : (parts q.text).fst with
      | nil => exact absurd hp hne
      | cons c cs =>
        rw [hp] at hint hlead h0
        have hc : c ≠ '0' := by
          rintro rfl
          cases cs with
          | nil => exact h0 rfl
          | cons d ds => exact hlead ⟨by simp, rfl⟩
        unfold integer
        rw [hp]
        refine value_pos_of_mem (List.mem_map_of_mem List.mem_cons_self) (fun h => hc ?_)
        exact (digitOf_eq_zero (hint c List.mem_cons_self)).mp h
  have hpow : (0 : ℚ) < 10 ^ q.fraction.length := by positivity
  unfold value
  rcases hor with h | h
  · have : (0 : ℚ) < Numeral.value q.integer := by exact_mod_cast h
    positivity
  · have : (0 : ℚ) < Numeral.value q.fraction := by exact_mod_cast h
    positivity

/-! ## Digits at a scale -/

theorem decimalDigits_eq (q : Quantity) {scale : ℕ} (h : q.scale ≤ scale) :
    decimalDigits q.text scale = trimZeroes ((q.integer ++ q.fraction) ++
      List.replicate (scale - q.scale) 0) := by
  rw [scale_eq_length_fraction] at h ⊢
  have hlen : (q.integer ++ q.fraction).length = (parts q.text).fst.length + q.fraction.length := by
    rw [List.length_append, integer, List.length_map]
  show trimZeroes (resize ((parts q.text).fst.length + scale) (q.integer ++ q.fraction)) = _
  unfold resize
  rw [List.take_of_length_le (by omega), hlen]
  congr 3
  omega

theorem isDigits_decimalDigits (q : Quantity) {scale : ℕ} (h : q.scale ≤ scale) :
    IsDigits (decimalDigits q.text scale) := by
  rw [decimalDigits_eq q h]
  refine isDigits_trimZeroes (isDigits_append.mpr
    ⟨isDigits_append.mpr ⟨q.isDigits_integer, q.isDigits_fraction⟩, fun d hd => ?_⟩)
  rw [List.eq_of_mem_replicate hd]
  omega

/-- **The digits at a scale denote the number times a power of ten.** -/
theorem value_decimalDigits (q : Quantity) {scale : ℕ} (h : q.scale ≤ scale) :
    (Numeral.value (decimalDigits q.text scale) : ℚ) = q.value * 10 ^ scale := by
  rw [decimalDigits_eq q h, value_trimZeroes, value_append_replicate_zero, value_append]
  obtain ⟨k, rfl⟩ : ∃ k, scale = q.scale + k := ⟨scale - q.scale, by omega⟩
  rw [Nat.add_sub_cancel_left, value, pow_add, scale_eq_length_fraction]
  have hpow : (10 : ℚ) ^ q.fraction.length ≠ 0 := by positivity
  push_cast
  field_simp

/-- The digits of a quantity, at a scale it fits, are not empty. -/
theorem decimalDigits_ne_nil (q : Quantity) {scale : ℕ} (h : q.scale ≤ scale) :
    decimalDigits q.text scale ≠ [] := by
  intro hnil
  have hval := q.value_decimalDigits h
  rw [hnil, value_nil, Nat.cast_zero] at hval
  have hpos : 0 < q.value * 10 ^ scale := mul_pos q.value_pos (by positivity)
  exact absurd hval.symm (ne_of_gt hpos)

theorem trimmed_decimalDigits (text : String) (scale : ℕ) :
    Trimmed (decimalDigits text scale) := trimmed_trimZeroes _

/-- **Comparing quantities compares the numbers.** -/
theorem cmp_eq_compare_value (a b : Quantity) : a.cmp b = compare a.value b.value := by
  have ha : a.scale ≤ max a.scale b.scale := le_max_left _ _
  have hb : b.scale ≤ max a.scale b.scale := le_max_right _ _
  have hpow : (0 : ℚ) < 10 ^ max a.scale b.scale := by positivity
  have hlt : ∀ x y : Quantity, x.scale ≤ max a.scale b.scale → y.scale ≤ max a.scale b.scale →
      (Numeral.value (decimalDigits x.text (max a.scale b.scale))
        < Numeral.value (decimalDigits y.text (max a.scale b.scale)) ↔ x.value < y.value) := by
    intro x y hx hy
    rw [← Nat.cast_lt (α := ℚ), value_decimalDigits x hx, value_decimalDigits y hy,
      mul_lt_mul_iff_left₀ hpow]
  show compareDecimal _ _ = _
  rw [compareDecimal_eq (a.isDigits_decimalDigits ha) (b.isDigits_decimalDigits hb)]
  rcases lt_trichotomy a.value b.value with h | h | h
  · rw [compare_lt_iff_lt.mpr h, compare_lt_iff_lt.mpr ((hlt a b ha hb).mpr h)]
  · have heq : Numeral.value (decimalDigits a.text (max a.scale b.scale))
        = Numeral.value (decimalDigits b.text (max a.scale b.scale)) := by
      rw [← Nat.cast_inj (R := ℚ), value_decimalDigits a ha, value_decimalDigits b hb, h]
    rw [compare_eq_iff_eq.mpr h, compare_eq_iff_eq.mpr heq]
  · rw [compare_gt_iff_gt.mpr h, compare_gt_iff_gt.mpr ((hlt b a hb ha).mpr h)]

/-- A quantity does not exceed another exactly when its number does not. -/
theorem cmp_ne_gt_iff (a b : Quantity) : a.cmp b ≠ .gt ↔ a.value ≤ b.value := by
  rw [cmp_eq_compare_value]
  exact compare_le_iff_le

/-! ## Divisibility -/

/-- The number of subtractions after each digit that long division is allowed:
nine, which are always enough. -/
def divisionFuel : ℕ := 9

/-- **Long division of two quantities ends.** -/
theorem isSome_decimalRemainder (a b : Quantity) :
    (decimalRemainder divisionFuel (decimalDigits a.text (max a.scale b.scale))
      (decimalDigits b.text (max a.scale b.scale))).isSome := by
  obtain ⟨out, hout, -⟩ := decimalRemainder_eq_some
    (a.isDigits_decimalDigits (le_max_left _ _)) (b.isDigits_decimalDigits (le_max_right _ _))
    (trimmed_decimalDigits _ _) (b.decimalDigits_ne_nil (le_max_right _ _)) le_rfl
  unfold divisionFuel
  rw [hout]
  rfl

/-- Whether a quantity is a multiple of an increment: the remainder of their
long division is all zeros. -/
def isMultipleOf (q increment : Quantity) : Bool :=
  ((decimalRemainder divisionFuel (decimalDigits q.text (max q.scale increment.scale))
    (decimalDigits increment.text (max q.scale increment.scale))).get
      (isSome_decimalRemainder q increment)).all (· == 0)

/-- **The divisibility test is exact**: it accepts the integer multiples and
nothing else. -/
theorem isMultipleOf_iff (q d : Quantity) :
    q.isMultipleOf d = true ↔ ∃ k : ℕ, q.value = k * d.value := by
  have hq : q.scale ≤ max q.scale d.scale := le_max_left _ _
  have hd : d.scale ≤ max q.scale d.scale := le_max_right _ _
  obtain ⟨out, hout, hdigits, htrim, hval⟩ := decimalRemainder_eq_some
    (q.isDigits_decimalDigits hq) (d.isDigits_decimalDigits hd) (trimmed_decimalDigits _ _)
    (d.decimalDigits_ne_nil hd) (show 9 ≤ divisionFuel from le_rfl)
  have hpow : (10 : ℚ) ^ max q.scale d.scale ≠ 0 := by positivity
  -- a remainder without leading zeros is all zeros when it is zero
  have hzero : q.isMultipleOf d = true ↔ Numeral.value out = 0 := by
    unfold isMultipleOf
    rw [Option.get_of_eq_some _ hout]
    exact all_zero_iff htrim
  rw [hzero, hval, ← Nat.dvd_iff_mod_eq_zero]
  have hscaled : ∀ k : ℕ, q.value = k * d.value ↔
      Numeral.value (decimalDigits q.text (max q.scale d.scale))
        = Numeral.value (decimalDigits d.text (max q.scale d.scale)) * k := by
    intro k
    rw [← Nat.cast_inj (R := ℚ), Nat.cast_mul, value_decimalDigits q hq, value_decimalDigits d hd]
    constructor
    · intro h
      rw [h]
      ring
    · intro h
      refine mul_right_cancel₀ hpow ?_
      rw [h]
      ring
  exact (exists_congr hscaled).symm

/-- The multiple is a positive one, as the quantity is. -/
theorem isMultipleOf_eq_true (q d : Quantity) :
    q.isMultipleOf d = true ↔ ∃ k : ℕ, 0 < k ∧ q.value = k * d.value := by
  rw [isMultipleOf_iff]
  constructor
  · rintro ⟨k, hk⟩
    refine ⟨k, Nat.pos_of_ne_zero (fun h0 => ?_), hk⟩
    rw [h0, Nat.cast_zero, zero_mul] at hk
    exact absurd hk (ne_of_gt q.value_pos)
  · rintro ⟨k, -, hk⟩
    exact ⟨k, hk⟩

end Quantity
