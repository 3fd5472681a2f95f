import Mathlib

/-!
# Decimal numerals

A numeral is its list of digits, the most significant first, the way a text
spells it. `Numeral.value` is the number it denotes; leading zeros do not
change it, and among numerals without leading zeros the longer one denotes
the larger number, so that comparing lengths first and digits after compares
numbers (`Numeral.compare_length_then_lex`). Without them no two numerals
denote one number (`Numeral.eq_of_value_eq_of_trimmed`).
-/

namespace Numeral

/-- **The number a list of digits denotes**, most significant digit first. -/
def value (ds : List ℕ) : ℕ := Nat.ofDigits 10 ds.reverse

/-- Every entry is a decimal digit. -/
def IsDigits (ds : List ℕ) : Prop := ∀ d ∈ ds, d < 10

/-- No leading zero: the numeral is empty or starts with another digit. -/
def Trimmed (ds : List ℕ) : Prop := ds.head? ≠ some 0

@[simp] theorem value_nil : value [] = 0 := rfl

theorem value_append (xs ys : List ℕ) :
    value (xs ++ ys) = value xs * 10 ^ ys.length + value ys := by
  unfold value
  rw [List.reverse_append, Nat.ofDigits_append, List.length_reverse]
  ring

@[simp] theorem value_singleton (d : ℕ) : value [d] = d := by
  simp [value]

theorem value_cons (d : ℕ) (ds : List ℕ) :
    value (d :: ds) = d * 10 ^ ds.length + value ds := by
  rw [← List.singleton_append, value_append, value_singleton]

/-- Appending a digit shifts the number by one place. -/
theorem value_concat (ds : List ℕ) (d : ℕ) : value (ds ++ [d]) = 10 * value ds + d := by
  rw [value_append, value_singleton, List.length_singleton]
  ring

/-- Trailing zeros shift the number. -/
theorem value_append_replicate_zero (ds : List ℕ) (n : ℕ) :
    value (ds ++ List.replicate n 0) = value ds * 10 ^ n := by
  rw [value_append, List.length_replicate]
  simp [value, List.reverse_replicate]

/-- A numeral of `n` digits denotes a number below `10 ^ n`. -/
theorem value_lt {ds : List ℕ} (h : IsDigits ds) : value ds < 10 ^ ds.length := by
  have := Nat.ofDigits_lt_base_pow_length (b := 10) (l := ds.reverse) (by omega)
    (fun d hd => h d (List.mem_reverse.mp hd))
  rwa [List.length_reverse] at this

theorem isDigits_cons {d : ℕ} {ds : List ℕ} :
    IsDigits (d :: ds) ↔ d < 10 ∧ IsDigits ds := List.forall_mem_cons

theorem isDigits_append {xs ys : List ℕ} :
    IsDigits (xs ++ ys) ↔ IsDigits xs ∧ IsDigits ys := List.forall_mem_append

/-- A numeral that starts with another digit than zero has a value of its
full length. -/
theorem pow_le_value {ds : List ℕ} (hne : ds ≠ []) (h : Trimmed ds) :
    10 ^ (ds.length - 1) ≤ value ds := by
  cases ds with
  | nil => exact absurd rfl hne
  | cons d ds =>
    have hd : 0 < d := Nat.pos_of_ne_zero (fun h0 => h (by rw [h0]; rfl))
    rw [value_cons, List.length_cons, Nat.add_sub_cancel]
    have := Nat.le_mul_of_pos_left (10 ^ ds.length) hd
    omega

/-- Without leading zeros, only the empty numeral denotes zero. -/
theorem value_eq_zero_iff {ds : List ℕ} (h : Trimmed ds) : value ds = 0 ↔ ds = [] := by
  constructor
  · intro h0
    by_contra hne
    have hle := pow_le_value hne h
    have hpos : 0 < 10 ^ (ds.length - 1) := by positivity
    omega
  · rintro rfl
    rfl

/-- Digits without leading zeros are all zeros when there are none. -/
theorem all_zero_iff {ds : List ℕ} (h : Trimmed ds) :
    ds.all (· == 0) = true ↔ value ds = 0 := by
  rw [value_eq_zero_iff h]
  constructor
  · intro hall
    cases ds with
    | nil => rfl
    | cons d ds =>
      rw [List.all_cons, Bool.and_eq_true, beq_iff_eq] at hall
      exact absurd (by rw [hall.1]; rfl) h
  · rintro rfl
    rfl

/-- Without leading zeros, a longer numeral denotes a larger number. -/
theorem value_lt_of_length_lt {xs ys : List ℕ} (hx : IsDigits xs) (hy : Trimmed ys)
    (h : xs.length < ys.length) : value xs < value ys := by
  have hle := pow_le_value (fun hnil => by rw [hnil] at h; simp at h) hy
  have hpow : 10 ^ xs.length ≤ 10 ^ (ys.length - 1) :=
    Nat.pow_le_pow_right (by omega) (by omega)
  have := value_lt hx
  omega

/-- **Numerals of one length compare digit by digit.** -/
theorem compareLex_eq_compare_value {xs ys : List ℕ} (hx : IsDigits xs) (hy : IsDigits ys)
    (hlen : xs.length = ys.length) :
    List.compareLex compare xs ys = compare (value xs) (value ys) := by
  induction xs generalizing ys with
  | nil =>
    obtain rfl : ys = [] := List.length_eq_zero_iff.mp hlen.symm
    rfl
  | cons x xs ih =>
    cases ys with
    | nil => cases hlen
    | cons y ys =>
      rw [isDigits_cons] at hx hy
      have hlen' : xs.length = ys.length := by simpa using hlen
      have hxs := value_lt hx.2
      have hys := value_lt hy.2
      rw [List.compareLex_cons_cons, value_cons, value_cons, hlen', ih hx.2 hy.2 hlen']
      rw [hlen'] at hxs
      rcases Nat.lt_trichotomy x y with hlt | rfl | hgt
      · have hmul : (x + 1) * 10 ^ ys.length ≤ y * 10 ^ ys.length :=
          Nat.mul_le_mul_right _ hlt
        have hval : x * 10 ^ ys.length + value xs < y * 10 ^ ys.length + value ys := by
          rw [Nat.add_mul] at hmul
          omega
        rw [Nat.compare_eq_lt.mpr hlt, Nat.compare_eq_lt.mpr hval]
        rfl
      · rw [Nat.compare_eq_eq.mpr rfl, Ordering.eq_then, Nat.compare_eq_ite_lt,
          Nat.compare_eq_ite_lt]
        simp only [Nat.add_lt_add_iff_left]
      · have hmul : (y + 1) * 10 ^ ys.length ≤ x * 10 ^ ys.length :=
          Nat.mul_le_mul_right _ hgt
        have hval : y * 10 ^ ys.length + value ys < x * 10 ^ ys.length + value xs := by
          rw [Nat.add_mul] at hmul
          omega
        rw [Nat.compare_eq_gt.mpr hgt, Nat.compare_eq_gt.mpr hval]
        rfl

/-- **Comparing lengths first and digits after compares numbers**, for
numerals without leading zeros. -/
theorem compare_length_then_lex {xs ys : List ℕ} (hx : IsDigits xs) (hy : IsDigits ys)
    (hx' : Trimmed xs) (hy' : Trimmed ys) :
    (compare xs.length ys.length).then (List.compareLex compare xs ys)
      = compare (value xs) (value ys) := by
  rcases Nat.lt_trichotomy xs.length ys.length with hlt | heq | hgt
  · rw [Nat.compare_eq_lt.mpr hlt, Nat.compare_eq_lt.mpr (value_lt_of_length_lt hx hy' hlt)]
    rfl
  · rw [Nat.compare_eq_eq.mpr heq, compareLex_eq_compare_value hx hy heq]
    rfl
  · rw [Nat.compare_eq_gt.mpr hgt, Nat.compare_eq_gt.mpr (value_lt_of_length_lt hy hx' hgt)]
    rfl

/-! ## Numerals of one number -/

/-- Numerals of one length that denote one number are the same. -/
theorem eq_of_value_eq {xs ys : List ℕ} (hx : IsDigits xs) (hy : IsDigits ys)
    (hlen : xs.length = ys.length) (h : value xs = value ys) : xs = ys := by
  refine List.reverse_injective (Nat.ofDigits_inj_of_len_eq (b := 10) (by omega) ?_ ?_ ?_ h)
  · rw [List.length_reverse, List.length_reverse, hlen]
  · exact fun d hd => hx d (List.mem_reverse.mp hd)
  · exact fun d hd => hy d (List.mem_reverse.mp hd)

/-- **Numerals without redundant zeros** that denote one number are the
same. -/
theorem eq_of_value_eq_of_trimmed {xs ys : List ℕ} (hx : IsDigits xs) (hy : IsDigits ys)
    (hxt : Trimmed xs) (hyt : Trimmed ys) (h : value xs = value ys) : xs = ys := by
  refine eq_of_value_eq hx hy ?_ h
  by_contra hne
  rcases Nat.lt_or_gt_of_ne hne with hlt | hgt
  · exact absurd h (ne_of_lt (value_lt_of_length_lt hx hyt hlt))
  · exact absurd h (ne_of_gt (value_lt_of_length_lt hy hxt hgt))

/-- Where numerals end in as many digits, the digits before and those at the
end denote the same numbers if all of them do. -/
theorem value_eq_of_value_append_eq {xs ys us vs : List ℕ} (hu : IsDigits us) (hv : IsDigits vs)
    (hlen : us.length = vs.length) (h : value (xs ++ us) = value (ys ++ vs)) :
    value xs = value ys ∧ value us = value vs := by
  have hult := value_lt hu
  have hvlt := value_lt hv
  rw [value_append, value_append, hlen] at h
  rw [hlen] at hult
  have hhead : value xs = value ys := by
    have hdiv := congrArg (· / 10 ^ vs.length) h
    simpa only [Nat.mul_comm _ (10 ^ vs.length),
      Nat.mul_add_div (Nat.pow_pos (show 0 < 10 by omega)), Nat.div_eq_of_lt hult,
      Nat.div_eq_of_lt hvlt, Nat.add_zero] using hdiv
  rw [hhead] at h
  exact ⟨hhead, Nat.add_left_cancel h⟩

/-- The last digit is the remainder by ten. -/
theorem value_mod_ten {ds : List ℕ} (h : IsDigits ds) {d : ℕ} (hlast : ds.getLast? = some d) :
    value ds % 10 = d := by
  obtain ⟨front, rfl⟩ := List.getLast?_eq_some_iff.mp hlast
  have hd : d < 10 := h d (List.mem_append_right _ List.mem_cons_self)
  rw [value_concat]
  omega

/-! ## A number in places -/

/-- The digits of a number, a given number of places. -/
def places : ℕ → ℕ → List ℕ
  | 0, _ => []
  | n + 1, m => places n (m / 10) ++ [m % 10]

theorem length_places (n m : ℕ) : (places n m).length = n := by
  induction n generalizing m with
  | zero => rfl
  | succ n ih => rw [places, List.length_append, ih, List.length_singleton]

theorem isDigits_places (n m : ℕ) : IsDigits (places n m) := by
  induction n generalizing m with
  | zero => exact fun d hd => by cases hd
  | succ n ih =>
    refine isDigits_append.mpr ⟨ih _, fun d hd => ?_⟩
    rw [List.mem_singleton.mp hd]
    omega

/-- The places kept are those of the remainder. -/
theorem value_places (n m : ℕ) : value (places n m) = m % 10 ^ n := by
  induction n generalizing m with
  | zero => rw [pow_zero, Nat.mod_one]; rfl
  | succ n ih =>
    rw [places, value_concat, ih, pow_succ', Nat.mod_mul]
    omega

end Numeral
