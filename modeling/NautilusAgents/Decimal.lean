import NautilusAgents.Numeral

/-!
# Exact decimal arithmetic on digits

The decimal routines under `Quantity`: digit vectors, most significant digit
first, compared by length and then digit by digit, subtracted with a borrow,
and reduced by schoolbook long division. A vector of `u8` digits is a list of
naturals, and the `i8` differences are integers, cast back by `asU8`.

The division loop of the source runs while the remainder reaches the divisor,
so it need not end. `reduceLoop` bounds the number of subtractions and returns
nothing when the bound is reached; `decimalRemainder_eq_some` says that nine
are always enough for a divisor without leading zeros, which is the sense in
which the source's loop terminates.
-/

open Numeral

/-! ## The routines -/

/-- The cast `x as u8`. -/
def asU8 (x : ℤ) : ℕ := (x % 256).toNat

/-- Drop the leading zeros. -/
def trimZeroes (value : List ℕ) : List ℕ := value.dropWhile (· == 0)

/-- Compare two digit vectors: lengths first, then digits. -/
def compareDecimal (left right : List ℕ) : Ordering :=
  (compare (trimZeroes left).length (trimZeroes right).length).then
    (List.compareLex compare (trimZeroes left) (trimZeroes right))

/-- The subtraction loop, from the last digit on: both vectors are read from
their ends, a subtrahend that has run out counts as zeros, and the borrow goes
from digit to digit. Returns the digits, last first, and the final borrow. -/
def subtractLoop : List ℕ → List ℕ → ℤ → List ℕ × ℤ
  | [], _, borrow => ([], borrow)
  | v :: value, subtrahend, borrow =>
    let difference : ℤ := (v : ℤ) - (subtrahend.head?.getD 0 : ℕ) - borrow
    if difference < 0 then
      let rest := subtractLoop value subtrahend.tail 1
      (asU8 (difference + 10) :: rest.fst, rest.snd)
    else
      let rest := subtractLoop value subtrahend.tail 0
      (asU8 difference :: rest.fst, rest.snd)

/-- Subtract one digit vector from another and drop the leading zeros. -/
def subtractDecimal (value subtrahend : List ℕ) : List ℕ :=
  trimZeroes (subtractLoop value.reverse subtrahend.reverse 0).fst.reverse

/-- `while remainder >= divisor { remainder -= divisor }`, for at most `fuel`
subtractions. -/
def reduceLoop (divisor : List ℕ) : ℕ → List ℕ → Option (List ℕ)
  | fuel, remainder =>
    if compareDecimal remainder divisor = .lt then some remainder
    else match fuel with
      | 0 => none
      | fuel + 1 => reduceLoop divisor fuel (subtractDecimal remainder divisor)

/-- **Schoolbook long division, the remainder only**: take the digits in one
by one and reduce after each. -/
def decimalRemainder (fuel : ℕ) (value divisor : List ℕ) : Option (List ℕ) :=
  value.foldlM (fun remainder digit =>
    reduceLoop divisor fuel (trimZeroes (remainder ++ [digit]))) []

/-! ## Leading zeros and comparison -/

theorem trimmed_trimZeroes (ds : List ℕ) : Trimmed (trimZeroes ds) := by
  induction ds with
  | nil => intro h; cases h
  | cons d ds ih =>
    unfold trimZeroes
    rw [List.dropWhile_cons]
    split_ifs with hd
    · exact ih
    · simpa [Trimmed] using hd

theorem isDigits_trimZeroes {ds : List ℕ} (h : IsDigits ds) : IsDigits (trimZeroes ds) :=
  fun d hd => h d ((List.dropWhile_sublist _).subset hd)

/-- Dropping leading zeros keeps the number. -/
@[simp] theorem value_trimZeroes (ds : List ℕ) : value (trimZeroes ds) = value ds := by
  induction ds with
  | nil => rfl
  | cons d ds ih =>
    unfold trimZeroes
    rw [List.dropWhile_cons]
    split_ifs with hd
    · rw [value_cons, show d = 0 by simpa using hd, Nat.zero_mul, Nat.zero_add]
      exact ih
    · rfl

/-- **Comparing digit vectors compares the numbers they denote.** -/
theorem compareDecimal_eq {left right : List ℕ} (hl : IsDigits left) (hr : IsDigits right) :
    compareDecimal left right = compare (value left) (value right) := by
  unfold compareDecimal
  rw [
    compare_length_then_lex (isDigits_trimZeroes hl) (isDigits_trimZeroes hr)
      (trimmed_trimZeroes left) (trimmed_trimZeroes right),
    value_trimZeroes, value_trimZeroes]

/-! ## Subtraction -/

theorem asU8_of_lt {x : ℤ} (h0 : 0 ≤ x) (h : x < 256) : (asU8 x : ℤ) = x := by
  unfold asU8
  rw [Int.emod_eq_of_lt h0 h, Int.toNat_of_nonneg h0]

/-- **One step of the subtraction loop**: with digits and a borrow of zero or
one, the difference is between -10 and 9, and the digit stored is the
difference, made up to a digit by the borrow it passes on. -/
theorem difference_spec {v s : ℕ} {borrow difference : ℤ} (hv : v < 10) (hs : s < 10)
    (hb : borrow = 0 ∨ borrow = 1) (hdiff : difference = (v : ℤ) - s - borrow) :
    (-10 ≤ difference ∧ difference ≤ 9) ∧
      (difference < 0 → (asU8 (difference + 10) : ℤ) = difference + 10) ∧
      (¬ difference < 0 → (asU8 difference : ℤ) = difference) := by
  refine ⟨by omega, fun hneg => ?_, fun hnneg => ?_⟩
  · exact asU8_of_lt (by omega) (by omega)
  · exact asU8_of_lt (by omega) (by omega)

theorem value_reverse_cons (d : ℕ) (ds : List ℕ) :
    value (d :: ds).reverse = 10 * value ds.reverse + d := by
  rw [List.reverse_cons, value_concat]

/-- **The subtraction loop keeps the balance.** What it stores, the
subtrahend and the incoming borrow add up to the value and the outgoing
borrow, one place above; the digits stay digits and the borrow stays a zero
or a one. -/
theorem subtractLoop_spec {v s : List ℕ} {borrow : ℤ} (hv : IsDigits v) (hs : IsDigits s)
    (hlen : s.length ≤ v.length) (hb : borrow = 0 ∨ borrow = 1) :
    IsDigits (subtractLoop v s borrow).fst ∧
      (subtractLoop v s borrow).fst.length = v.length ∧
      ((subtractLoop v s borrow).snd = 0 ∨ (subtractLoop v s borrow).snd = 1) ∧
      (value (subtractLoop v s borrow).fst.reverse : ℤ) + value s.reverse + borrow
        = value v.reverse + 10 ^ v.length * (subtractLoop v s borrow).snd := by
  induction v generalizing s borrow with
  | nil =>
    obtain rfl : s = [] := List.length_eq_zero_iff.mp (by simpa using hlen)
    refine ⟨fun d hd => (List.not_mem_nil hd).elim, rfl, hb, ?_⟩
    simp [subtractLoop]
  | cons d v ih =>
    rw [isDigits_cons] at hv
    -- the digit subtracted here, and the rest of the subtrahend
    obtain ⟨e, rest, hhead, htail, he, hrest, hval, hlen'⟩ :
        ∃ e rest, s.head?.getD 0 = e ∧ s.tail = rest ∧ e < 10 ∧ IsDigits rest ∧
          value s.reverse = 10 * value rest.reverse + e ∧ rest.length ≤ v.length := by
      cases s with
      | nil => exact ⟨0, [], rfl, rfl, by omega, hs, rfl, Nat.zero_le _⟩
      | cons e rest =>
        rw [isDigits_cons] at hs
        exact ⟨e, rest, rfl, rfl, hs.1, hs.2, value_reverse_cons e rest, by simpa using hlen⟩
    obtain ⟨hrange, hneg, hnneg⟩ := difference_spec hv.1 he hb rfl
    simp only [subtractLoop, hhead, htail]
    split_ifs with hlt
    · obtain ⟨hd, hl, hb', heq⟩ := ih hv.2 hrest hlen' (Or.inr rfl)
      have hcast := hneg hlt
      refine ⟨isDigits_cons.mpr ⟨by omega, hd⟩, by simp [hl], hb', ?_⟩
      rw [value_reverse_cons, value_reverse_cons, hval, List.length_cons, pow_succ]
      push_cast
      linarith
    · obtain ⟨hd, hl, hb', heq⟩ := ih hv.2 hrest hlen' (Or.inl rfl)
      have hcast := hnneg hlt
      refine ⟨isDigits_cons.mpr ⟨by omega, hd⟩, by simp [hl], hb', ?_⟩
      rw [value_reverse_cons, value_reverse_cons, hval, List.length_cons, pow_succ]
      push_cast
      linarith

/-- **Subtraction is exact** where the subtrahend is no larger and no longer:
no borrow is left over. -/
theorem subtractDecimal_spec {v s : List ℕ} (hv : IsDigits v) (hs : IsDigits s)
    (hlen : s.length ≤ v.length) (hle : value s ≤ value v) :
    IsDigits (subtractDecimal v s) ∧ Trimmed (subtractDecimal v s) ∧
      value (subtractDecimal v s) = value v - value s ∧
      (subtractLoop v.reverse s.reverse 0).snd = 0 := by
  have hrev : ∀ {ds : List ℕ}, IsDigits ds → IsDigits ds.reverse :=
    fun h d hd => h d (List.mem_reverse.mp hd)
  obtain ⟨hd, hl, hb, heq⟩ := subtractLoop_spec (hrev hv) (hrev hs) (by simpa using hlen)
    (Or.inl rfl)
  rw [List.reverse_reverse, List.reverse_reverse, List.length_reverse] at heq
  have hlt : value (subtractLoop v.reverse s.reverse 0).fst.reverse < 10 ^ v.length := by
    have := value_lt (hrev hd)
    rwa [List.length_reverse, hl, List.length_reverse] at this
  have hlt' : (value (subtractLoop v.reverse s.reverse 0).fst.reverse : ℤ) < 10 ^ v.length := by
    exact_mod_cast hlt
  -- the balance leaves no room for a borrow
  have hborrow : (subtractLoop v.reverse s.reverse 0).snd = 0 := by
    rcases hb with hb | hb
    · exact hb
    · rw [hb] at heq
      omega
  refine ⟨isDigits_trimZeroes (hrev hd), trimmed_trimZeroes _, ?_, hborrow⟩
  unfold subtractDecimal
  rw [value_trimZeroes]
  rw [hborrow] at heq
  omega

/-! ## Long division -/

/-- **The inner loop reduces the remainder.** A remainder below `fuel + 1`
times the divisor is reduced to its residue with at most `fuel`
subtractions. -/
theorem reduceLoop_eq_some {divisor : List ℕ} (hd : IsDigits divisor)
    (hdt : Trimmed divisor) {fuel : ℕ} {remainder : List ℕ}
    (hr : IsDigits remainder) (hrt : Trimmed remainder)
    (hfuel : value remainder < (fuel + 1) * value divisor) :
    ∃ out, reduceLoop divisor fuel remainder = some out ∧ IsDigits out ∧ Trimmed out ∧
      value out = value remainder % value divisor := by
  induction fuel generalizing remainder with
  | zero =>
    rw [Nat.zero_add, Nat.one_mul] at hfuel
    refine ⟨remainder, ?_, hr, hrt, (Nat.mod_eq_of_lt hfuel).symm⟩
    unfold reduceLoop
    rw [compareDecimal_eq hr hd, Nat.compare_eq_lt.mpr hfuel]
    rfl
  | succ fuel ih =>
    by_cases hlt : value remainder < value divisor
    · refine ⟨remainder, ?_, hr, hrt, (Nat.mod_eq_of_lt hlt).symm⟩
      unfold reduceLoop
      rw [compareDecimal_eq hr hd, Nat.compare_eq_lt.mpr hlt]
      rfl
    · have hle : value divisor ≤ value remainder := Nat.le_of_not_lt hlt
      -- the divisor is no longer than the remainder, so the subtraction is exact
      have hlen : divisor.length ≤ remainder.length := by
        by_contra hlen
        exact hlt (value_lt_of_length_lt hr hdt (by omega))
      obtain ⟨hsd, hst, hsv, -⟩ := subtractDecimal_spec hr hd hlen hle
      obtain ⟨out, hout, hod, hot, hov⟩ := ih hsd hst (by
        rw [hsv]
        have : (fuel + 1 + 1) * value divisor = (fuel + 1) * value divisor + value divisor := by
          ring
        omega)
      refine ⟨out, ?_, hod, hot, ?_⟩
      · unfold reduceLoop
        rw [compareDecimal_eq hr hd]
        have hne : compare (value remainder) (value divisor) ≠ .lt :=
          fun h => hlt (Nat.compare_eq_lt.mp h)
        rw [if_neg hne]
        exact hout
      · rw [hov, hsv, ← Nat.mod_eq_sub_mod hle]

/-- **Long division from a remainder on**: if the remainder so far is below
the divisor, taking in the rest of the digits leaves the residue of the whole,
with at most nine subtractions for each digit. -/
theorem foldlM_reduceLoop_eq_some {divisor : List ℕ} (hd : IsDigits divisor)
    (hdt : Trimmed divisor) (hpos : 0 < value divisor) {fuel : ℕ} (hfuel : 9 ≤ fuel)
    {ds remainder : List ℕ} (hds : IsDigits ds) (hr : IsDigits remainder)
    (hrt : Trimmed remainder) (hlt : value remainder < value divisor) :
    ∃ out, ds.foldlM (fun remainder digit =>
        reduceLoop divisor fuel (trimZeroes (remainder ++ [digit]))) remainder = some out ∧
      IsDigits out ∧ Trimmed out ∧ value out = value (remainder ++ ds) % value divisor := by
  induction ds generalizing remainder with
  | nil =>
    refine ⟨remainder, rfl, hr, hrt, ?_⟩
    rw [List.append_nil, Nat.mod_eq_of_lt hlt]
  | cons d ds ih =>
    rw [isDigits_cons] at hds
    have hpush : IsDigits (remainder ++ [d]) :=
      isDigits_append.mpr ⟨hr, isDigits_cons.mpr ⟨hds.1, fun x hx => by cases hx⟩⟩
    have hbound : value (remainder ++ [d]) < 10 * value divisor := by
      rw [value_concat]
      omega
    have hfit : value (trimZeroes (remainder ++ [d])) < (fuel + 1) * value divisor := by
      rw [value_trimZeroes]
      have := Nat.mul_le_mul_right (value divisor) (show 10 ≤ fuel + 1 by omega)
      omega
    obtain ⟨next, hnext, hnd, hnt, hnv⟩ := reduceLoop_eq_some hd hdt
      (isDigits_trimZeroes hpush) (trimmed_trimZeroes _) hfit
    rw [value_trimZeroes] at hnv
    obtain ⟨out, hout, hod, hot, hov⟩ := ih hds.2 hnd hnt (hnv ▸ Nat.mod_lt _ hpos)
    refine ⟨out, ?_, hod, hot, ?_⟩
    · rw [List.foldlM_cons, hnext]
      exact hout
    · -- the prefix consumed so far enters through its residue
      rw [hov, List.append_cons, value_append, value_append (remainder ++ [d]), hnv]
      rw [Nat.add_mod, Nat.mul_mod, Nat.mod_mod, ← Nat.mul_mod, ← Nat.add_mod]

/-- **Long division computes the remainder**, without leading zeros, and nine
subtractions per digit are enough. -/
theorem decimalRemainder_eq_some {v divisor : List ℕ} (hv : IsDigits v)
    (hd : IsDigits divisor) (hdt : Trimmed divisor) (hne : divisor ≠ []) {fuel : ℕ}
    (hfuel : 9 ≤ fuel) :
    ∃ out, decimalRemainder fuel v divisor = some out ∧ IsDigits out ∧ Trimmed out ∧
      value out = value v % value divisor := by
  have hpos : 0 < value divisor :=
    Nat.pos_of_ne_zero (fun h => hne ((value_eq_zero_iff hdt).mp h))
  exact foldlM_reduceLoop_eq_some hd hdt hpos hfuel hv (fun d h => by cases h)
    (fun h => by cases h) hpos
