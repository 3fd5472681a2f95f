import NautilusAgents.CheckedDecimal
import NautilusAgents.Loop

/-!
# The loops of the long division, turn by turn

The division of `CheckedDecimal` once more, with its loops taken apart into
turns. A state of the division stands at the head of the loop over the digits
or at the head of the `while` loop inside it (`Checked.Division`), and a state
of a subtraction at the head of the loop that walks both vectors from their
ends (`Checked.Subtraction`). Nothing bounds the number of turns here.

What the loops keep is an invariant for each. The subtraction has subtracted
what it has read: the digits written, the digits of the subtrahend read and the
borrow of the start balance the digits of the value read and the borrow handed
on (`Subtracted`). The division has reduced what it has taken in: the remainder
and the divisors subtracted from it add up to the residue of the digits before
and the digit appended to it, which is less than ten divisors
(`Divided`). So the `while` loop goes round at most nine times, every
subtraction is of a divisor that the remainder reaches, and no borrow is left
over.
-/

open Numeral

/-! ## The loops -/

/-- **A subtraction at the head of its loop.** -/
structure Checked.Subtraction where
  /-- The digits, those behind the index already subtracted. -/
  value : List ℕ
  /-- How many digits are left of the value. -/
  valueIndex : ℕ
  /-- How many digits are left of the subtrahend. -/
  subtrahendIndex : ℕ
  /-- What the digit before has borrowed. -/
  borrow : ℤ

/-- **A division at the head of one of its loops**: of the loop over the digits
still to come, or of the `while` loop after some subtractions for one digit. -/
inductive Checked.Division where
  | outer (remainder rest : List ℕ)
  | inner (remainder : List ℕ) (subtractions : ℕ) (rest : List ℕ)

namespace Checked

namespace Subtraction

/-- A call of `subtract_decimal` as it enters its loop. -/
def start (value subtrahend : List ℕ) : Subtraction :=
  ⟨value, value.length, subtrahend.length, 0⟩

/-- `value[value_index] as i8 - subtrahend_digit`, once the index has moved. -/
def unborrowed (subtrahend : List ℕ) (st : Subtraction) : Except DecimalFault ℤ := do
  let subtracted ← subtrahendDigit subtrahend st.subtrahendIndex
  let digit ← index st.value (st.valueIndex - 1)
  inI8 (asI8 digit - subtracted)

/-- The difference a turn computes. -/
def difference (subtrahend : List ℕ) (st : Subtraction) : Except DecimalFault ℤ := do
  inI8 ((← st.unborrowed subtrahend) - st.borrow)

/-- The state after a digit is stored. -/
def stored (st : Subtraction) (digit : ℕ) (borrow : ℤ) : Except DecimalFault Subtraction := do
  let value ← store st.value (st.valueIndex - 1) digit
  return ⟨value, st.valueIndex - 1, st.subtrahendIndex - 1, borrow⟩

/-- The loop of `subtract_decimal`. -/
def loop (subtrahend : List ℕ) : Loop Subtraction DecimalFault where
  turn st := do
    if st.valueIndex > 0 then
      let difference ← st.difference subtrahend
      if difference < 0 then
        return some (← st.stored (asU8 (← inI8 (difference + 10))) 1)
      else
        return some (← st.stored (asU8 difference) 0)
    else return none

end Subtraction

/-- **The loops of `decimal_remainder`.** -/
def Division.loop (divisor : List ℕ) : Loop Division DecimalFault where
  turn
    | .outer _ [] => .ok none
    | .outer remainder (digit :: rest) => do
      return some (.inner (← trimZeroes (remainder ++ [digit])) 0 rest)
    | .inner remainder subtractions rest => do
      if (← compareDecimal remainder divisor) ≠ .lt then
        return some (.inner (← subtractDecimal remainder divisor) (subtractions + 1) rest)
      else return some (.outer remainder rest)

end Checked

namespace LongDivision

open Checked (Subtraction Division)

/-! ## The subtraction -/

/-- **What the loop of a subtraction keeps.** Both vectors are cut in two at
the index: before it nothing has changed, and behind it what is written, what
is subtracted and the borrow handed on balance what was there. -/
def Subtracted (v s : List ℕ) (st : Subtraction) : Prop :=
  ∃ front read written, v = front ++ read ∧ st.value = front ++ written ∧
    front.length = st.valueIndex ∧ written.length = read.length ∧
    st.subtrahendIndex = s.length - read.length ∧ IsDigits written ∧
    (st.borrow = 0 ∨ st.borrow = 1) ∧
    (value written : ℤ) + value (s.drop st.subtrahendIndex)
      = value read + 10 ^ read.length * st.borrow

theorem subtracted_start (v s : List ℕ) : Subtracted v s (Subtraction.start v s) := by
  refine ⟨v, [], [], by simp, by simp [Subtraction.start], rfl, rfl, rfl,
    fun d h => (List.not_mem_nil h).elim, Or.inl rfl, ?_⟩
  simp [Subtraction.start]

/-- The digits of the subtrahend read so far, with the one read next in front
of them. -/
theorem value_drop_pred {s : List ℕ} {j n : ℕ} (hj : j = s.length - n) :
    value (s.drop (j - 1))
      = (s.take j).reverse.head?.getD 0 * 10 ^ n + value (s.drop j) := by
  cases j with
  | zero => simp
  | succ j =>
    have hlt : j < s.length := by omega
    have htake : s.take (j + 1) = s.take j ++ [s[j]] := List.take_succ_eq_append_getElem hlt
    rw [htake, List.reverse_concat, List.head?_cons, Option.getD_some, Nat.add_sub_cancel,
      List.drop_eq_getElem_cons hlt, value_cons, List.length_drop]
    rw [show s.length - (j + 1) = n by omega]

/-- The turn that reads the digit `d` and the digit `e` of the subtrahend: the
differences fit their type, and what is stored is the difference, made up by
the borrow handed on. -/
theorem turns_of_digits {s front written : List ℕ} {d e j : ℕ} {borrow : ℤ} (hd : d < 10)
    (he : e < 10) (hsub : Checked.subtrahendDigit s j = .ok (e : ℤ))
    (hborrow : borrow = 0 ∨ borrow = 1) :
    let st : Subtraction := ⟨front ++ d :: written, front.length + 1, j, borrow⟩
    let handed : ℤ := if (d : ℤ) - e - borrow < 0 then 1 else 0
    st.unborrowed s = .ok ((d : ℤ) - e) ∧ st.difference s = .ok ((d : ℤ) - e - borrow) ∧
      ∃ digit : ℕ, digit < 10 ∧ (digit : ℤ) = (d : ℤ) - e - borrow + 10 * handed ∧
        (Subtraction.loop s).Turns st ⟨front ++ digit :: written, front.length, j - 1, handed⟩ := by
  intro st handed
  have hread : st.unborrowed s = .ok ((d : ℤ) - e) := by
    unfold Subtraction.unborrowed
    rw [hsub, Nat.add_sub_cancel, CheckedDecimal.index_append_eq_ok]
    show Checked.inI8 (Checked.asI8 d - (e : ℤ)) = _
    rw [CheckedDecimal.asI8_of_digit hd, CheckedDecimal.inI8_eq_ok (by omega)]
  have hdiff : st.difference s = .ok ((d : ℤ) - e - borrow) := by
    unfold Subtraction.difference
    rw [hread]
    have hfits : -128 ≤ (d : ℤ) - e - borrow ∧ (d : ℤ) - e - borrow ≤ 127 := by omega
    exact CheckedDecimal.inI8_eq_ok hfits
  have hstore : ∀ (digit : ℕ) (b : ℤ),
      st.stored digit b = .ok ⟨front ++ digit :: written, front.length, j - 1, b⟩ := by
    intro digit b
    unfold Subtraction.stored
    rw [Nat.add_sub_cancel, CheckedDecimal.store_append_eq_ok]
    rfl
  obtain ⟨-, hneg, hnneg⟩ := difference_spec hd he hborrow rfl
  refine ⟨hread, hdiff, ?_⟩
  unfold Loop.Turns Subtraction.loop
  dsimp only
  rw [if_pos (Nat.succ_pos _), hdiff]
  show ∃ digit, _ ∧ _ ∧ (if (d : ℤ) - e - borrow < 0 then _ else _) = _
  unfold handed
  split_ifs with hlt
  · refine ⟨asU8 ((d : ℤ) - e - borrow + 10), ?_, ?_, ?_⟩
    · have := hneg hlt
      omega
    · rw [hneg hlt, Int.mul_one]
    · rw [CheckedDecimal.inI8_eq_ok (by omega)]
      show (st.stored _ 1).bind _ = _
      rw [hstore]
      rfl
  · refine ⟨asU8 ((d : ℤ) - e - borrow), ?_, ?_, ?_⟩
    · have := hnneg hlt
      omega
    · rw [hnneg hlt, Int.mul_zero, Int.add_zero]
    · rw [hstore]
      rfl

/-- **One turn of a subtraction.** Before the first digit it reads one digit of
either vector, computes differences between -10 and 9, stores a digit, hands on
a borrow of zero or one, and keeps the balance. -/
theorem subtraction_turn {v s : List ℕ} (hv : IsDigits v) (hs : IsDigits s) {st : Subtraction}
    (h : Subtracted v s st) (hpos : 0 < st.valueIndex) :
    ∃ unborrowed difference : ℤ, ∃ digit : ℕ, ∃ next : Subtraction,
      st.unborrowed s = .ok unborrowed ∧ (-10 ≤ unborrowed ∧ unborrowed ≤ 9) ∧
      st.difference s = .ok difference ∧ (-10 ≤ difference ∧ difference ≤ 9) ∧
      digit < 10 ∧ (Subtraction.loop s).Turns st next ∧
      next = ⟨st.value.set (st.valueIndex - 1) digit, st.valueIndex - 1,
        st.subtrahendIndex - 1, if difference < 0 then 1 else 0⟩ ∧
      Subtracted v s next := by
  obtain ⟨front, read, written, hvcut, hcut, hfront, hwritten, hindex, hdigits, hborrow, hbal⟩ := h
  obtain ⟨cells, valueIndex, j, borrow⟩ := st
  dsimp only at hcut hfront hindex hborrow hbal hpos
  -- the digit read in this turn is the last one before the index
  rcases List.eq_nil_or_concat front with rfl | ⟨front, d, rfl⟩
  · rw [← hfront] at hpos
    exact (Nat.lt_irrefl 0 hpos).elim
  rw [List.concat_eq_append, List.append_assoc, List.singleton_append] at hvcut hcut
  rw [List.length_concat] at hfront
  subst hcut hfront
  obtain ⟨hsub, he, -⟩ := CheckedDecimal.subtrahendDigit_eq_ok hs
    (show j ≤ s.length by rw [hindex]; exact Nat.sub_le _ _)
  have hdrop := value_drop_pred hindex
  generalize (s.take j).reverse.head?.getD 0 = e at hsub he hdrop
  have hd : d < 10 := hv d (by rw [hvcut]; exact List.mem_append_right _ List.mem_cons_self)
  obtain ⟨hread, hdiff, digit, hdigit, hmade, hturn⟩ := turns_of_digits hd he hsub hborrow
  refine ⟨(d : ℤ) - e, (d : ℤ) - e - borrow, digit, _, hread, by omega, hdiff, by omega, hdigit,
    hturn, ?_, front, d :: read, digit :: written, hvcut, rfl, rfl, by simp [hwritten], ?_,
    isDigits_cons.mpr ⟨hdigit, hdigits⟩, ?_, ?_⟩
  · rw [Nat.add_sub_cancel, List.set_append_right _ _ (le_refl _), Nat.sub_self]
    rfl
  · rw [List.length_cons]
    show j - 1 = s.length - (read.length + 1)
    omega
  · show (if _ then (1 : ℤ) else 0) = 0 ∨ (if _ then (1 : ℤ) else 0) = 1
    split_ifs
    · exact Or.inr rfl
    · exact Or.inl rfl
  · -- the balance gains the same amount on either side
    dsimp only
    generalize (if (d : ℤ) - e - borrow < 0 then (1 : ℤ) else 0) = handed at hmade
    rw [hdrop, value_cons, value_cons, List.length_cons, hwritten, pow_succ]
    push_cast
    rw [hmade]
    linear_combination hbal

theorem subtraction_over (s : List ℕ) {st : Subtraction} (h : st.valueIndex = 0) :
    (Subtraction.loop s).turn st = .ok none := by
  unfold Subtraction.loop
  dsimp only
  rw [h]
  rfl

/-- **A subtraction advances**, from its last digit to its first. -/
theorem subtraction_advances {v s : List ℕ} (hv : IsDigits v) (hs : IsDigits s) :
    (Subtraction.loop s).Advances (Subtracted v s) Subtraction.valueIndex := by
  intro st h
  rcases Nat.eq_zero_or_pos st.valueIndex with h0 | hpos
  · exact Or.inl (subtraction_over s h0)
  · obtain ⟨_, _, _, next, -, -, -, -, -, hturn, hnext, hkept⟩ := subtraction_turn hv hs h hpos
    refine Or.inr ⟨next, hturn, hkept, ?_⟩
    rw [hnext]
    exact Nat.sub_lt hpos Nat.one_pos

/-- **At the end of a subtraction of a smaller number** no borrow is left, and
what is written is the exact difference. -/
theorem subtracted_end {v s : List ℕ} (hlen : s.length ≤ v.length) (hle : value s ≤ value v)
    {st : Subtraction} (h : Subtracted v s st) (h0 : st.valueIndex = 0) :
    st.borrow = 0 ∧ IsDigits st.value ∧ value st.value = value v - value s := by
  obtain ⟨front, read, written, hvcut, hcut, hfront, hwritten, hindex, hdigits, hborrow, hbal⟩ := h
  obtain rfl : front = [] := List.length_eq_zero_iff.mp (hfront.trans h0)
  rw [List.nil_append] at hvcut hcut
  subst hvcut
  rw [hindex, Nat.sub_eq_zero_of_le hlen, List.drop_zero] at hbal
  have hlt := value_lt hdigits
  rw [hwritten] at hlt
  have hlt' : (value written : ℤ) < 10 ^ v.length := by exact_mod_cast hlt
  have h0 : st.borrow = 0 := by
    rcases hborrow with hb | hb
    · exact hb
    · -- a borrow left over would leave less than nothing
      rw [hb] at hbal
      omega
  rw [h0] at hbal
  rw [hcut]
  exact ⟨h0, hdigits, by omega⟩

/-- The rest of the loop, as `CheckedDecimal` has it, is the same after a
turn. -/
theorem subtractLoop_eq_of_turns {s : List ℕ} {st next : Subtraction}
    (h : (Subtraction.loop s).Turns st next) :
    Checked.subtractLoop s st.valueIndex st.subtrahendIndex st.value st.borrow
      = Checked.subtractLoop s next.valueIndex next.subtrahendIndex next.value next.borrow := by
  obtain ⟨cells, valueIndex, j, borrow⟩ := st
  cases valueIndex with
  | zero =>
    rw [Loop.Turns, subtraction_over s rfl] at h
    cases h
  | succ i =>
    unfold Loop.Turns Subtraction.loop Subtraction.difference Subtraction.unborrowed
      Subtraction.stored at h
    dsimp only at h ⊢
    rw [if_pos (Nat.succ_pos i), Nat.add_sub_cancel] at h
    rw [Checked.subtractLoop]
    simp only [bind, Except.bind, pure, Except.pure] at h ⊢
    grind

/-- **An exact subtraction**, throughout: the value is no smaller than the
subtrahend, every turn stays within its bounds, the digits stay digits, and
the loop ends without a borrow in the difference of the two numbers. -/
structure ExactSubtraction (v s : List ℕ) : Prop where
  /-- The value is no smaller than the subtrahend. -/
  le : value s ≤ value v
  /-- A turn computes within its bounds and writes a digit. -/
  turn : ∀ st, (Subtraction.loop s).Reaches (Subtraction.start v s) st → 0 < st.valueIndex →
    ∃ unborrowed difference : ℤ, ∃ digit : ℕ,
      st.unborrowed s = .ok unborrowed ∧ (-10 ≤ unborrowed ∧ unborrowed ≤ 9) ∧
      st.difference s = .ok difference ∧ (-10 ≤ difference ∧ difference ≤ 9) ∧
      digit < 10 ∧ (Subtraction.loop s).Turns st
        ⟨st.value.set (st.valueIndex - 1) digit, st.valueIndex - 1, st.subtrahendIndex - 1,
          if difference < 0 then 1 else 0⟩
  /-- The loop ends with the difference and no borrow. -/
  ends : ∃ last, (Subtraction.loop s).EndsIn (Subtraction.start v s) last ∧
    last.borrow = 0 ∧ IsDigits last.value ∧ value last.value = value v - value s
  /-- The difference is returned without leading zeros. -/
  returned : ∃ out, Checked.subtractDecimal v s = .ok out ∧ IsDigits out ∧ Trimmed out ∧
    value out = value v - value s

/-- **Subtracting a smaller number is exact.** -/
theorem exactSubtraction_of_le {v s : List ℕ} (hv : IsDigits v) (hs : IsDigits s)
    (hst : Trimmed s) (hle : value s ≤ value v) : ExactSubtraction v s := by
  have hlen : s.length ≤ v.length := by
    by_contra hlen
    exact absurd (value_lt_of_length_lt hv hst (by omega)) (Nat.not_lt.mpr hle)
  have hadv := subtraction_advances hv hs
  obtain ⟨last, hend, hkept⟩ := hadv.exists_endsIn (subtracted_start v s)
  have h0 : last.valueIndex = 0 := by
    by_contra hne
    obtain ⟨_, _, _, next, -, -, -, -, -, hturn, -⟩ :=
      subtraction_turn hv hs hkept (Nat.pos_of_ne_zero hne)
    rw [Loop.Turns, hend.2] at hturn
    cases hturn
  obtain ⟨hborrow, hdigits, hvalue⟩ := subtracted_end hlen hle hkept h0
  -- the loop that runs to its end at once writes the same digits
  have hloop : Checked.subtractLoop s v.length s.length v 0 = .ok last.value := by
    have hsame := Loop.invariant
      (P := fun st => Checked.subtractLoop s v.length s.length v 0
        = Checked.subtractLoop s st.valueIndex st.subtrahendIndex st.value st.borrow)
      (fun a b ha hab => ha.trans (subtractLoop_eq_of_turns hab)) rfl hend.1
    rw [hsame, h0, Checked.subtractLoop]
  refine ⟨hle, fun st hreach hpos => ?_, ⟨last, hend, hborrow, hdigits, hvalue⟩,
    _, ?_, isDigits_trimZeroes hdigits, trimmed_trimZeroes _, ?_⟩
  · obtain ⟨unborrowed, difference, digit, next, hread, hr, hdiff, hd, hdigit, hturn, hnext, -⟩ :=
      subtraction_turn hv hs (hadv.invariant (subtracted_start v s) hreach) hpos
    rw [hnext] at hturn
    exact ⟨unborrowed, difference, digit, hread, hr, hdiff, hd, hdigit, hturn⟩
  · unfold Checked.subtractDecimal
    rw [hloop]
    exact CheckedDecimal.trimZeroes_eq_ok _
  · rw [value_trimZeroes, hvalue]

/-! ## The division -/

/-- **What the loops of the division keep.** The remainder is below the divisor
and the residue of what is taken in; within the `while` loop, it is what the
subtractions have left of a number below ten divisors with that residue. -/
def Divided (v divisor : List ℕ) : Division → Prop
  | .outer remainder rest => ∃ consumed, v = consumed ++ rest ∧
      IsDigits remainder ∧ Trimmed remainder ∧ value remainder < value divisor ∧
      value remainder = value consumed % value divisor
  | .inner remainder subtractions rest => ∃ consumed, v = consumed ++ rest ∧
      IsDigits remainder ∧ Trimmed remainder ∧
      value remainder + subtractions * value divisor < 10 * value divisor ∧
      value remainder % value divisor = value consumed % value divisor

/-- The turns left: one for each digit to come and ten for its `while` loop. -/
def turnsLeft : Division → ℕ
  | .outer _ rest => 11 * rest.length
  | .inner _ subtractions rest => 11 * rest.length + (10 - subtractions)

variable {v divisor : List ℕ}

theorem divided_start (hpos : 0 < value divisor) : Divided v divisor (.outer [] v) := by
  refine ⟨[], rfl, fun d h => (List.not_mem_nil h).elim, (by simp [Trimmed]), hpos, ?_⟩
  exact (Nat.zero_mod _).symm

/-- **A digit is taken in.** -/
theorem divided_digit (hv : IsDigits v) {remainder rest : List ℕ} {digit : ℕ}
    (h : Divided v divisor (.outer remainder (digit :: rest))) :
    ∃ next, (Division.loop divisor).Turns (.outer remainder (digit :: rest)) (.inner next 0 rest) ∧
      Divided v divisor (.inner next 0 rest) := by
  obtain ⟨consumed, hcut, hdigits, -, hlt, hres⟩ := h
  have hdigit : digit < 10 :=
    hv digit (by rw [hcut]; exact List.mem_append_right _ List.mem_cons_self)
  refine ⟨trimZeroes (remainder ++ [digit]), ?_, consumed ++ [digit], ?_,
    isDigits_trimZeroes (isDigits_append.mpr ⟨hdigits, ?_⟩), trimmed_trimZeroes _, ?_, ?_⟩
  · unfold Loop.Turns Division.loop
    dsimp only
    rw [CheckedDecimal.trimZeroes_eq_ok]
    rfl
  · rw [hcut, List.append_assoc, List.singleton_append]
  · exact isDigits_cons.mpr ⟨hdigit, fun d h => (List.not_mem_nil h).elim⟩
  · rw [value_trimZeroes, value_concat]
    omega
  · -- the digit enters behind the residue of the digits before it
    rw [value_trimZeroes, value_concat, value_concat, hres, Nat.add_mod, Nat.mul_mod, Nat.mod_mod,
      ← Nat.mul_mod, ← Nat.add_mod]

/-- **The `while` loop stops** at a remainder below the divisor. -/
theorem divided_stop (hd : IsDigits divisor) {remainder rest : List ℕ} {n : ℕ}
    (h : Divided v divisor (.inner remainder n rest)) (hlt : value remainder < value divisor) :
    (Division.loop divisor).Turns (.inner remainder n rest) (.outer remainder rest) ∧
      Divided v divisor (.outer remainder rest) := by
  obtain ⟨consumed, hcut, hdigits, htrimmed, -, hres⟩ := h
  refine ⟨?_, consumed, hcut, hdigits, htrimmed, hlt, ?_⟩
  · unfold Loop.Turns Division.loop
    dsimp only
    rw [CheckedDecimal.compareDecimal_eq_ok, compareDecimal_eq hdigits hd,
      Nat.compare_eq_lt.mpr hlt]
    rfl
  · rw [← hres, Nat.mod_eq_of_lt hlt]

/-- **The `while` loop subtracts** the divisor from a remainder that reaches
it, for the tenth time never. -/
theorem divided_subtract (hd : IsDigits divisor) (hdt : Trimmed divisor)
    {remainder rest : List ℕ} {n : ℕ} (h : Divided v divisor (.inner remainder n rest))
    (hle : value divisor ≤ value remainder) :
    n < 9 ∧ ExactSubtraction remainder divisor ∧ ∃ next,
      (Division.loop divisor).Turns (.inner remainder n rest) (.inner next (n + 1) rest) ∧
      Divided v divisor (.inner next (n + 1) rest) := by
  obtain ⟨consumed, hcut, hdigits, htrimmed, hbound, hres⟩ := h
  have hexact := exactSubtraction_of_le hdigits hd hdt hle
  have hn : (n + 1) * value divisor < 10 * value divisor := by
    rw [Nat.succ_mul]
    omega
  have hn' : n + 1 < 10 := Nat.lt_of_mul_lt_mul_right hn
  obtain ⟨next, hsub, hnd, hnt, hnv⟩ := hexact.returned
  refine ⟨by omega, hexact, next, ?_, consumed, hcut, hnd, hnt, ?_, ?_⟩
  · unfold Loop.Turns Division.loop
    dsimp only
    rw [CheckedDecimal.compareDecimal_eq_ok, compareDecimal_eq hdigits hd, hsub]
    show (if compare (value remainder) (value divisor) ≠ .lt then _ else _) = _
    rw [if_pos (fun h => Nat.not_lt.mpr hle (Nat.compare_eq_lt.mp h))]
    rfl
  · rw [hnv, Nat.succ_mul]
    omega
  · rw [hnv, ← Nat.mod_eq_sub_mod hle, hres]

/-- The `while` loop has gone round at most nine times. -/
theorem subtractions_le {remainder rest : List ℕ} {n : ℕ}
    (h : Divided v divisor (.inner remainder n rest)) : n ≤ 9 := by
  obtain ⟨-, -, -, -, hbound, -⟩ := h
  have hn : n * value divisor < 10 * value divisor := by omega
  exact Nat.le_of_lt_succ (Nat.lt_of_mul_lt_mul_right hn)

/-- **The division advances.** -/
theorem division_advances (hv : IsDigits v) (hd : IsDigits divisor) (hdt : Trimmed divisor) :
    (Division.loop divisor).Advances (Divided v divisor) turnsLeft := by
  intro st h
  match st with
  | .outer remainder [] => exact Or.inl rfl
  | .outer remainder (digit :: rest) =>
    obtain ⟨next, hturn, hkept⟩ := divided_digit hv h
    refine Or.inr ⟨_, hturn, hkept, ?_⟩
    show 11 * rest.length + (10 - 0) < 11 * (rest.length + 1)
    omega
  | .inner remainder n rest =>
    rcases Nat.lt_or_ge (value remainder) (value divisor) with hlt | hle
    · obtain ⟨hturn, hkept⟩ := divided_stop hd h hlt
      refine Or.inr ⟨_, hturn, hkept, ?_⟩
      have hn := subtractions_le h
      show 11 * rest.length < 11 * rest.length + (10 - n)
      omega
    · obtain ⟨hn, -, next, hturn, hkept⟩ := divided_subtract hd hdt h hle
      refine Or.inr ⟨_, hturn, hkept, ?_⟩
      show 11 * rest.length + (10 - (n + 1)) < 11 * rest.length + (10 - n)
      omega

/-- The division is over only behind the last digit. -/
theorem eq_outer_of_turn_eq_none (hv : IsDigits v) (hd : IsDigits divisor)
    (hdt : Trimmed divisor) {st : Division} (h : Divided v divisor st)
    (hover : (Division.loop divisor).turn st = .ok none) : ∃ out, st = .outer out [] := by
  have hstuck : ∀ next, ¬ (Division.loop divisor).Turns st next := by
    intro next hturn
    rw [Loop.Turns, hover] at hturn
    cases hturn
  cases st with
  | outer remainder rest =>
    cases rest with
    | nil => exact ⟨remainder, rfl⟩
    | cons digit rest =>
      obtain ⟨next, hturn, -⟩ := divided_digit hv h
      exact (hstuck _ hturn).elim
  | inner remainder n rest =>
    rcases Nat.lt_or_ge (value remainder) (value divisor) with hlt | hle
    · exact (hstuck _ (divided_stop hd h hlt).1).elim
    · obtain ⟨-, -, next, hturn, -⟩ := divided_subtract hd hdt h hle
      exact (hstuck _ hturn).elim

/-- What the division computes with any bound on its subtractions that is
large enough, it computes without one. -/
theorem decimalRemainder_eq_ok_of_value (hv : IsDigits v) (hd : IsDigits divisor)
    (hdt : Trimmed divisor) (hne : divisor ≠ []) {out : List ℕ} (hod : IsDigits out)
    (hot : Trimmed out) (hov : value out = value v % value divisor) {fuel : ℕ}
    (hfuel : 9 ≤ fuel) : Checked.decimalRemainder fuel v divisor = .ok out := by
  obtain ⟨other, hother, hod', hot', hov'⟩ := decimalRemainder_eq_some hv hd hdt hne hfuel
  obtain rfl : other = out := eq_of_value_eq_of_trimmed hod' hod hot' hot (hov'.trans hov.symm)
  exact CheckedDecimal.decimalRemainder_eq_ok hv hd hdt
    (Nat.pos_of_ne_zero (fun h => hne ((value_eq_zero_iff hdt).mp h))) hfuel hother

/-- **The loops of the long division.** Given digits and the digits of a
positive divisor without leading zeros, the loops end, in the digits of the
residue without leading zeros, which is what `decimal_remainder` returns. At
the head of the loop over the digits the remainder is below the divisor and the
residue of the digits taken in. The `while` loop goes round at most nine times
for a digit, and every subtraction it makes is exact throughout. -/
theorem decimalRemainder_loops (hv : IsDigits v) (hd : IsDigits divisor)
    (hdt : Trimmed divisor) (hne : divisor ≠ []) :
    ∃ out, (Division.loop divisor).EndsIn (.outer [] v) (.outer out []) ∧
      (∀ fuel, 9 ≤ fuel → Checked.decimalRemainder fuel v divisor = .ok out) ∧
      IsDigits out ∧ Trimmed out ∧ value out = value v % value divisor ∧
      (∀ remainder rest,
        (Division.loop divisor).Reaches (.outer [] v) (.outer remainder rest) →
        ∃ consumed, v = consumed ++ rest ∧ value remainder < value divisor ∧
          value remainder = value consumed % value divisor) ∧
      (∀ remainder subtractions rest,
        (Division.loop divisor).Reaches (.outer [] v) (.inner remainder subtractions rest) →
        subtractions ≤ 9 ∧
          (compareDecimal remainder divisor ≠ .lt →
            subtractions < 9 ∧ ExactSubtraction remainder divisor)) := by
  have hpos : 0 < value divisor :=
    Nat.pos_of_ne_zero (fun h => hne ((value_eq_zero_iff hdt).mp h))
  have hadv := division_advances hv hd hdt
  have hstart : Divided v divisor (.outer [] v) := divided_start hpos
  obtain ⟨last, hend, hkept⟩ := hadv.exists_endsIn hstart
  obtain ⟨out, rfl⟩ := eq_outer_of_turn_eq_none hv hd hdt hkept hend.2
  obtain ⟨consumed, hcut, hod, hot, -, hov⟩ := hkept
  rw [List.append_nil] at hcut
  subst hcut
  refine ⟨out, hend, fun fuel hfuel =>
    decimalRemainder_eq_ok_of_value hv hd hdt hne hod hot hov hfuel, hod, hot, hov, ?_, ?_⟩
  · intro remainder rest hreach
    obtain ⟨consumed, hcut, -, -, hlt, hres⟩ := hadv.invariant hstart hreach
    exact ⟨consumed, hcut, hlt, hres⟩
  · intro remainder n rest hreach
    have hkept := hadv.invariant hstart hreach
    refine ⟨subtractions_le hkept, fun hne => ?_⟩
    obtain ⟨-, -, hdigits, -⟩ := id hkept
    rw [compareDecimal_eq hdigits hd] at hne
    have hle : value divisor ≤ value remainder :=
      Nat.le_of_not_lt (fun hlt => hne (Nat.compare_eq_lt.mpr hlt))
    obtain ⟨hn, hexact, -⟩ := divided_subtract hd hdt hkept hle
    exact ⟨hn, hexact⟩

/-- Seventeen, written with a leading zero, leaves two when divided by five. -/
theorem decimalRemainder_loops_seventeen :
    ∃ out, (Division.loop [5]).EndsIn (.outer [] [0, 1, 7]) (.outer out []) ∧
      Checked.decimalRemainder 9 [0, 1, 7] [5] = .ok out ∧ value out = 2 := by
  obtain ⟨out, hend, hfuel, -, -, hvalue, -⟩ := @decimalRemainder_loops [0, 1, 7] [5]
    (by simp [IsDigits]) (by simp [IsDigits]) (by simp [Trimmed]) (by simp)
  exact ⟨out, hend, hfuel 9 (le_refl 9), hvalue⟩

end LongDivision
