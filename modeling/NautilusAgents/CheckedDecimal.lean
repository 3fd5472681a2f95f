import NautilusAgents.Quantity

/-!
# The decimal routines, checked

The decimal routines once more, this time with everything that could stop
them: each subtraction of bytes and each sum of signed bytes is checked against
its type, each index and each slice against the length of its vector, and the
division loop against a number of steps. The routines under `Quantity` compute
what these compute, and on the digits of a quantity nothing ever stops
(`CheckedDecimal.isMultipleOf_eq_ok`).

The subtraction loop is where the two differ in form. The source walks both
vectors from their ends by index and writes the digits in place, so that the
invariant is about the vector cut in two: the digits below the index are still
those of the value, and those from it on are the ones the loop has written
(`CheckedDecimal.subtractLoop_eq_ok`).
-/

open Numeral

/-- What stops a routine. -/
inductive DecimalFault where
  /-- The result of an operation does not fit its type. -/
  | overflow
  /-- An index or a slice leaves its vector. -/
  | outOfBounds
  /-- A loop runs on after the steps it was given. -/
  | outOfSteps
  deriving DecidableEq

namespace Checked

/-! ## Machine operations -/

/-- `a - b` on `u8`. -/
def subU8 (a b : ℕ) : Except DecimalFault ℕ := if b ≤ a then .ok (a - b) else .error .overflow

/-- A result of `i8` arithmetic. -/
def inI8 (x : ℤ) : Except DecimalFault ℤ :=
  if -128 ≤ x ∧ x ≤ 127 then .ok x else .error .overflow

/-- The cast `x as i8` of a byte. -/
def asI8 (x : ℕ) : ℤ := if x < 128 then x else (x : ℤ) - 256

/-- `v[i]`. -/
def index (v : List ℕ) (i : ℕ) : Except DecimalFault ℕ :=
  match v[i]? with
  | some x => .ok x
  | none => .error .outOfBounds

/-- `v[i] = x`. -/
def store (v : List ℕ) (i x : ℕ) : Except DecimalFault (List ℕ) :=
  if i < v.length then .ok (v.set i x) else .error .outOfBounds

/-- `&v[i..]`. -/
def sliceFrom (v : List ℕ) (i : ℕ) : Except DecimalFault (List ℕ) :=
  if i ≤ v.length then .ok (v.drop i) else .error .outOfBounds

/-! ## The routines -/

/-- The slice from the first digit other than zero, or the empty one at the
end. -/
def trimZeroes (value : List ℕ) : Except DecimalFault (List ℕ) :=
  sliceFrom value (value.findIdx (· != 0))

/-- **Compare digits** without leading zeros: the longer list is the greater one,
and of two as long the first digit that differs decides. -/
def compareDecimal (left right : List ℕ) : Except DecimalFault Ordering := do
  let left ← trimZeroes left
  let right ← trimZeroes right
  return (compare left.length right.length).then (List.compareLex compare left right)

/-- The characters of a quantity are bytes. -/
def decimalDigits (text : String) (scale : ℕ) : Except DecimalFault (List ℕ) := do
  let (integer, fraction) := Quantity.parts text
  let integerDigits ← integer.mapM (fun byte => subU8 byte.toNat 48)
  let fractionDigits ← fraction.mapM (fun byte => subU8 byte.toNat 48)
  trimZeroes (Quantity.resize (integer.length + scale) (integerDigits ++ fractionDigits))

/-- The digit before the index, or zero once the subtrahend has run out. -/
def subtrahendDigit (subtrahend : List ℕ) (subtrahendIndex : ℕ) : Except DecimalFault ℤ :=
  if subtrahendIndex > 0 then (index subtrahend (subtrahendIndex - 1)).map asI8 else .ok 0

/-- The loop of the subtraction, by the index in either vector. -/
def subtractLoop (subtrahend : List ℕ) :
    ℕ → ℕ → List ℕ → ℤ → Except DecimalFault (List ℕ)
  | 0, _, value, _ => .ok value
  | valueIndex + 1, subtrahendIndex, value, borrow => do
    let subtracted ← subtrahendDigit subtrahend subtrahendIndex
    let digit ← index value valueIndex
    let difference ← inI8 (asI8 digit - subtracted)
    let difference ← inI8 (difference - borrow)
    if difference < 0 then
      let made ← inI8 (difference + 10)
      let value ← store value valueIndex (asU8 made)
      subtractLoop subtrahend valueIndex (subtrahendIndex - 1) value 1
    else
      let value ← store value valueIndex (asU8 difference)
      subtractLoop subtrahend valueIndex (subtrahendIndex - 1) value 0

/-- **Subtract digits**, from the last ones on. -/
def subtractDecimal (value subtrahend : List ℕ) : Except DecimalFault (List ℕ) := do
  trimZeroes (← subtractLoop subtrahend value.length subtrahend.length value 0)

/-- `while remainder >= divisor { remainder -= divisor }`, for at most `fuel`
subtractions. -/
def reduceLoop (divisor : List ℕ) : ℕ → List ℕ → Except DecimalFault (List ℕ)
  | fuel, remainder => do
    if (← compareDecimal remainder divisor) = .lt then return remainder
    match fuel with
    | 0 => .error .outOfSteps
    | fuel + 1 => reduceLoop divisor fuel (← subtractDecimal remainder divisor)

/-- **The remainder** of a long division. -/
def decimalRemainder (fuel : ℕ) (value divisor : List ℕ) : Except DecimalFault (List ℕ) :=
  value.foldlM (fun remainder digit => do
    reduceLoop divisor fuel (← trimZeroes (remainder ++ [digit]))) []

/-- **The divisibility test**, with at most `fuel` subtractions for each
digit. -/
def isMultipleOf (fuel : ℕ) (q increment : Quantity) : Except DecimalFault Bool := do
  let scale := max q.scale increment.scale
  let value ← decimalDigits q.text scale
  let divisor ← decimalDigits increment.text scale
  let remainder ← decimalRemainder fuel value divisor
  return remainder.all (· == 0)

end Checked

/-! ## Nothing stops them -/

namespace CheckedDecimal

theorem drop_findIdx_eq_dropWhile (ds : List ℕ) :
    ds.drop (ds.findIdx (· != 0)) = ds.dropWhile (· == 0) := by
  induction ds with
  | nil => rfl
  | cons d ds ih =>
    rw [List.findIdx_cons, List.dropWhile_cons]
    cases hd : d == 0 with
    | true =>
      rw [beq_iff_eq] at hd
      subst hd
      simpa using ih
    | false =>
      have hd' : (d != 0) = true := by rw [bne, hd]; rfl
      simp [hd']

theorem trimZeroes_eq_ok (value : List ℕ) : Checked.trimZeroes value = .ok (trimZeroes value) := by
  unfold Checked.trimZeroes Checked.sliceFrom
  rw [if_pos List.findIdx_le_length, drop_findIdx_eq_dropWhile]
  rfl

theorem compareDecimal_eq_ok (left right : List ℕ) :
    Checked.compareDecimal left right = .ok (compareDecimal left right) := by
  unfold Checked.compareDecimal
  rw [trimZeroes_eq_ok, trimZeroes_eq_ok]
  rfl

/-- A digit character is no smaller than the character zero. -/
theorem subU8_eq_ok {c : Char} (h : c.isDigit = true) :
    Checked.subU8 c.toNat 48 = .ok (Quantity.digitOf c) := by
  rw [Char.isDigit, Bool.and_eq_true, decide_eq_true_eq, decide_eq_true_eq] at h
  exact if_pos h.1

theorem mapM_subU8_eq_ok {cs : List Char} (h : ∀ c ∈ cs, c.isDigit = true) :
    cs.mapM (fun c => Checked.subU8 c.toNat 48) = .ok (cs.map Quantity.digitOf) := by
  induction cs with
  | nil => rfl
  | cons c cs ih =>
    rw [List.forall_mem_cons] at h
    rw [List.mapM_cons, subU8_eq_ok h.1, ih h.2]
    rfl

/-- **No byte of a quantity is below a digit.** -/
theorem decimalDigits_eq_ok (q : Quantity) (scale : ℕ) :
    Checked.decimalDigits q.text scale = .ok (Quantity.decimalDigits q.text scale) := by
  obtain ⟨-, hint, hfrac, -⟩ := q.canonical_parts
  unfold Checked.decimalDigits
  simp only [mapM_subU8_eq_ok hint, mapM_subU8_eq_ok hfrac]
  exact trimZeroes_eq_ok _

/-! ## The subtraction loop -/

theorem asI8_of_digit {d : ℕ} (h : d < 10) : Checked.asI8 d = d := if_pos (by omega)

theorem inI8_eq_ok {x : ℤ} (h : -128 ≤ x ∧ x ≤ 127) : Checked.inI8 x = .ok x := if_pos h

theorem index_append_eq_ok (front : List ℕ) (v : ℕ) (done : List ℕ) :
    Checked.index (front ++ v :: done) front.length = .ok v := by
  unfold Checked.index
  rw [List.getElem?_append_right (le_refl _), Nat.sub_self]
  rfl

theorem store_append_eq_ok (front : List ℕ) (v : ℕ) (done : List ℕ) (x : ℕ) :
    Checked.store (front ++ v :: done) front.length x = .ok (front ++ x :: done) := by
  unfold Checked.store
  rw [if_pos (by rw [List.length_append, List.length_cons]; omega), List.set_append_right _ _
    (le_refl _), Nat.sub_self]
  rfl

/-- The digit subtracted next is the last of the digits of the subtrahend not
yet read, or zero. -/
theorem subtrahendDigit_eq_ok {subtrahend : List ℕ} (hs : IsDigits subtrahend) {j : ℕ}
    (hj : j ≤ subtrahend.length) :
    Checked.subtrahendDigit subtrahend j
        = .ok (((subtrahend.take j).reverse.head?.getD 0 : ℕ) : ℤ) ∧
      (subtrahend.take j).reverse.head?.getD 0 < 10 ∧
      (subtrahend.take (j - 1)).reverse = (subtrahend.take j).reverse.tail := by
  cases j with
  | zero => exact ⟨rfl, by simp, rfl⟩
  | succ j =>
    have htake : subtrahend.take (j + 1) = subtrahend.take j ++ [subtrahend[j]] :=
      List.take_succ_eq_append_getElem hj
    have hdigit : subtrahend[j] < 10 := hs _ (List.getElem_mem hj)
    rw [Nat.add_sub_cancel, htake, List.reverse_concat, List.tail_cons]
    refine ⟨?_, hdigit, rfl⟩
    unfold Checked.subtrahendDigit Checked.index
    rw [if_pos (Nat.succ_pos j), Nat.add_sub_cancel, List.getElem?_eq_getElem hj]
    exact congrArg Except.ok (asI8_of_digit hdigit)

/-- **The subtraction loop writes what the loop on reversed vectors returns.**
The digits below the index are still those of the value, and those from it on
are written. -/
theorem subtractLoop_eq_ok {subtrahend : List ℕ} (hs : IsDigits subtrahend) {front : List ℕ}
    (done : List ℕ) (hv : IsDigits front) {j : ℕ} (hj : j ≤ subtrahend.length) {borrow : ℤ}
    (hb : borrow = 0 ∨ borrow = 1) :
    Checked.subtractLoop subtrahend front.length j (front ++ done) borrow
      = .ok ((subtractLoop front.reverse (subtrahend.take j).reverse borrow).fst.reverse
        ++ done) := by
  induction front using List.reverseRecOn generalizing done j borrow with
  | nil => rfl
  | append_singleton front v ih =>
    rw [isDigits_append, isDigits_cons] at hv
    obtain ⟨hfront, hv, -⟩ := hv
    obtain ⟨hsub, hsdigit, htail⟩ := subtrahendDigit_eq_ok hs hj
    have hj' : j - 1 ≤ subtrahend.length := by omega
    rw [List.length_append, List.length_singleton, Checked.subtractLoop, hsub,
      List.append_assoc, List.singleton_append, index_append_eq_ok]
    generalize hd : (subtrahend.take j).reverse.head?.getD 0 = d at hsdigit
    show (Checked.inI8 (Checked.asI8 v - (d : ℤ))).bind _ = _
    rw [asI8_of_digit hv, inI8_eq_ok (by omega)]
    show (Checked.inI8 ((v : ℤ) - d - borrow)).bind _ = _
    rw [inI8_eq_ok (by omega), List.reverse_concat, subtractLoop, hd, ← htail]
    show (if (v : ℤ) - d - borrow < 0 then _ else _) = _
    dsimp only
    split_ifs with hneg
    · rw [inI8_eq_ok (by omega)]
      show (Checked.store _ _ _).bind _ = _
      rw [store_append_eq_ok]
      exact (ih _ hfront hj' (Or.inr rfl)).trans (by simp)
    · rw [store_append_eq_ok]
      exact (ih _ hfront hj' (Or.inl rfl)).trans (by simp)

/-- **Subtraction never leaves its types or its vectors.** -/
theorem subtractDecimal_eq_ok {value subtrahend : List ℕ} (hv : IsDigits value)
    (hs : IsDigits subtrahend) :
    Checked.subtractDecimal value subtrahend = .ok (subtractDecimal value subtrahend) := by
  have hloop := subtractLoop_eq_ok hs [] hv (le_refl subtrahend.length) (Or.inl rfl)
  rw [List.append_nil, List.append_nil, List.take_length] at hloop
  unfold Checked.subtractDecimal
  rw [hloop]
  exact trimZeroes_eq_ok _

/-! ## The division -/

/-- A result, or the fault of a loop that runs on. -/
def finished (result : Option (List ℕ)) : Except DecimalFault (List ℕ) :=
  match result with
  | some out => .ok out
  | none => .error .outOfSteps

/-- **The inner loop stops for lack of steps only.** Every subtraction it
makes is of a divisor that the remainder reaches, so the remainder stays a
vector of digits. -/
theorem reduceLoop_eq_finished {divisor : List ℕ} (hd : IsDigits divisor)
    (hdt : Trimmed divisor) {fuel : ℕ} {remainder : List ℕ} (hr : IsDigits remainder) :
    Checked.reduceLoop divisor fuel remainder = finished (reduceLoop divisor fuel remainder) := by
  induction fuel generalizing remainder with
  | zero =>
    unfold Checked.reduceLoop reduceLoop
    rw [compareDecimal_eq_ok]
    show (if compareDecimal remainder divisor = .lt then _ else _) = _
    split_ifs with hlt
    · rfl
    · rfl
  | succ fuel ih =>
    unfold Checked.reduceLoop reduceLoop
    rw [compareDecimal_eq_ok]
    show (if compareDecimal remainder divisor = .lt then _ else _) = _
    split_ifs with hlt
    · rfl
    · have hle : value divisor ≤ value remainder := by
        rw [compareDecimal_eq hr hd, Nat.compare_eq_lt] at hlt
        exact Nat.le_of_not_lt hlt
      have hlen : divisor.length ≤ remainder.length := by
        by_contra hlen
        exact absurd (value_lt_of_length_lt hr hdt (by omega)) (Nat.not_lt.mpr hle)
      obtain ⟨hsub, -⟩ := subtractDecimal_spec hr hd hlen hle
      show (Checked.subtractDecimal remainder divisor).bind _ = _
      rw [subtractDecimal_eq_ok hr hd]
      exact ih hsub

/-- **The division stops nowhere**, given nine subtractions for each digit. -/
theorem foldlM_reduceLoop_eq_ok {divisor : List ℕ} (hd : IsDigits divisor)
    (hdt : Trimmed divisor) (hpos : 0 < value divisor) {fuel : ℕ} (hfuel : 9 ≤ fuel)
    {ds remainder out : List ℕ} (hds : IsDigits ds) (hr : IsDigits remainder)
    (hrt : Trimmed remainder) (hlt : value remainder < value divisor)
    (hout : ds.foldlM (fun remainder digit =>
      reduceLoop divisor fuel (trimZeroes (remainder ++ [digit]))) remainder = some out) :
    ds.foldlM (fun remainder digit => do
      Checked.reduceLoop divisor fuel (← Checked.trimZeroes (remainder ++ [digit]))) remainder
        = .ok out := by
  induction ds generalizing remainder with
  | nil => exact congrArg Except.ok (Option.some.inj hout)
  | cons d ds ih =>
    rw [isDigits_cons] at hds
    have hpush : IsDigits (trimZeroes (remainder ++ [d])) := by
      refine isDigits_trimZeroes (isDigits_append.mpr ⟨hr, isDigits_cons.mpr ⟨hds.1, ?_⟩⟩)
      intro x hx
      cases hx
    have hfit : value (trimZeroes (remainder ++ [d])) < (fuel + 1) * value divisor := by
      rw [value_trimZeroes, value_concat]
      have := Nat.mul_le_mul_right (value divisor) (show 10 ≤ fuel + 1 by omega)
      omega
    obtain ⟨next, hnext, hnd, hnt, hnv⟩ := reduceLoop_eq_some hd hdt hpush
      (trimmed_trimZeroes _) hfit
    rw [List.foldlM_cons, hnext] at hout
    rw [List.foldlM_cons, trimZeroes_eq_ok]
    show (Checked.reduceLoop divisor fuel (trimZeroes (remainder ++ [d]))).bind _ = _
    rw [reduceLoop_eq_finished hd hdt hpush, hnext]
    exact ih hds.2 hnd hnt (hnv ▸ Nat.mod_lt _ hpos) hout

theorem decimalRemainder_eq_ok {v divisor : List ℕ} (hv : IsDigits v) (hd : IsDigits divisor)
    (hdt : Trimmed divisor) (hpos : 0 < value divisor) {fuel : ℕ} (hfuel : 9 ≤ fuel)
    {out : List ℕ} (hout : decimalRemainder fuel v divisor = some out) :
    Checked.decimalRemainder fuel v divisor = .ok out := by
  have hempty : IsDigits [] := fun d h => (List.not_mem_nil h).elim
  exact foldlM_reduceLoop_eq_ok hd hdt hpos hfuel hv hempty (fun h => by cases h) hpos hout

/-- The digits of a quantity, at a scale it fits, denote a positive number. -/
theorem value_decimalDigits_pos (q : Quantity) {scale : ℕ} (h : q.scale ≤ scale) :
    0 < value (Quantity.decimalDigits q.text scale) :=
  Nat.pos_of_ne_zero (fun h0 => q.decimalDigits_ne_nil h
    ((value_eq_zero_iff (Quantity.trimmed_decimalDigits _ _)).mp h0))

/-- **Nothing stops the divisibility test.** -/
theorem isMultipleOf_eq_ok (q d : Quantity) {fuel : ℕ} (hfuel : 9 ≤ fuel) :
    Checked.isMultipleOf fuel q d = .ok (q.isMultipleOf d) := by
  have hq : q.scale ≤ max q.scale d.scale := le_max_left _ _
  have hd : d.scale ≤ max q.scale d.scale := le_max_right _ _
  have hdd := d.isDigits_decimalDigits hd
  have hdt := Quantity.trimmed_decimalDigits d.text (max q.scale d.scale)
  have hqd := q.isDigits_decimalDigits hq
  have hpos := value_decimalDigits_pos d hd
  have hne := d.decimalDigits_ne_nil hd
  -- with more steps than nine the remainder may only be computed again
  obtain ⟨nine, hnine, -, hnt, hnv⟩ := decimalRemainder_eq_some hqd hdd hdt hne
    (show 9 ≤ Quantity.divisionFuel from le_rfl)
  obtain ⟨out, hout, -, hot, hov⟩ := decimalRemainder_eq_some hqd hdd hdt hne hfuel
  have hall : nine.all (· == 0) = out.all (· == 0) := by
    rw [Bool.eq_iff_iff, all_zero_iff hnt, all_zero_iff hot, hnv, hov]
  unfold Checked.isMultipleOf Quantity.isMultipleOf
  rw [Option.get_of_eq_some _ hnine, hall]
  simp only [decimalDigits_eq_ok]
  show (Checked.decimalRemainder fuel _ _).bind _ = _
  rw [decimalRemainder_eq_ok hqd hdd hdt hpos hfuel hout]
  rfl

/-- **The divisibility test is exact and total.** Whatever the digits and the
scales of two quantities, the checked test, given nine subtractions for each
digit or more, returns a verdict: no operation leaves its type, no index its
vector, and the divisor is not zero. The verdict is that of the plain test, and
it is positive exactly when the first quantity is a multiple of the second. -/
theorem isMultipleOf_exact (q d : Quantity) :
    (∀ fuel, 9 ≤ fuel → Checked.isMultipleOf fuel q d = .ok (q.isMultipleOf d)) ∧
      0 < value (Quantity.decimalDigits d.text (max q.scale d.scale)) ∧
      (q.isMultipleOf d = true ↔ ∃ k : ℕ, q.value = k * d.value) :=
  ⟨fun _ hfuel => isMultipleOf_eq_ok q d hfuel, value_decimalDigits_pos d (le_max_right _ _),
    q.isMultipleOf_iff d⟩

end CheckedDecimal
