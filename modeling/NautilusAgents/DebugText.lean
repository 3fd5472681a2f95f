import NautilusAgents.PrefixCode

/-!
# Debug texts

What the debug formatter of the standard library makes of a text: the text in
quotes, with its quotes, backslashes and some control characters escaped. Which
other characters are escaped, as hexadecimal numbers, depends on tables of
Unicode, which are a parameter here.

Whatever the tables say, a debug text can be read back: an escaped character
starts with a backslash and any other stands for itself
(`DebugText.prefixFree_escapeDebug`), so the closing quote is the first one that
is not escaped (`DebugText.prefixFree_quote`).
-/

/-- The tables of the standard library that tell how a character is shown. -/
class UnicodeTables where
  /-- Whether a character extends the one before it. -/
  isGraphemeExtended : Char → Bool
  /-- Whether a character is shown as it is. -/
  isPrintable : Char → Bool

/-- A character by its number. -/
def escapeUnicode (c : Char) : List Char :=
  "\\u\x7b".toList ++ Nat.toDigits 16 c.toNat ++ ['\x7d']

/-- A character of a text in its debug form. -/
def escapeDebug [UnicodeTables] (c : Char) : List Char :=
  if c.toNat = 0 then ['\\', '0']
  else if c = '\t' then ['\\', 't']
  else if c = '\r' then ['\\', 'r']
  else if c = '\n' then ['\\', 'n']
  else if c = '\\' then ['\\', '\\']
  else if c = '"' then ['\\', '"']
  else if UnicodeTables.isGraphemeExtended c then escapeUnicode c
  else if UnicodeTables.isPrintable c then [c]
  else escapeUnicode c

namespace DebugText

/-- **The debug text of a text.** -/
def quote [UnicodeTables] (s : String) : List Char :=
  ['"'] ++ (s.toList.flatMap escapeDebug ++ ['"'])

/-! ## Hexadecimal numbers -/

theorem digitChar_inj : ∀ m < 16, ∀ n < 16, Nat.digitChar m = Nat.digitChar n → m = n := by
  decide

/-- **A number is its hexadecimal digits.** The induction takes the last digit
off. -/
theorem toDigits_injective : Function.Injective (Nat.toDigits 16) := by
  intro m
  induction m using Nat.strong_induction_on with
  | _ m ih =>
    intro n h
    have hm : 0 < (Nat.toDigits 16 (m / 16)).length := Nat.length_toDigits_pos
    have hn : 0 < (Nat.toDigits 16 (n / 16)).length := Nat.length_toDigits_pos
    have hbase : ∀ k, ¬ k < 16 →
        Nat.toDigits 16 k = Nat.toDigits 16 (k / 16) ++ [Nat.digitChar (k % 16)] :=
      fun k hk => Nat.toDigits_of_base_le (by decide) (not_lt.mp hk)
    by_cases hms : m < 16 <;> by_cases hns : n < 16
    · rw [Nat.toDigits_of_lt_base hms, Nat.toDigits_of_lt_base hns] at h
      exact digitChar_inj m hms n hns (List.singleton_injective h)
    · rw [Nat.toDigits_of_lt_base hms, hbase n hns] at h
      have hlength := congrArg List.length h
      simp only [List.length_append, List.length_singleton] at hlength
      omega
    · rw [hbase m hms, Nat.toDigits_of_lt_base hns] at h
      have hlength := congrArg List.length h
      simp only [List.length_append, List.length_singleton] at hlength
      omega
    · rw [hbase m hms, hbase n hns] at h
      obtain ⟨hinit, hlast⟩ := List.append_inj' h rfl
      have hdiv := ih (m / 16) (Nat.div_lt_self (by omega) (by decide)) hinit
      have hmod := digitChar_inj _ (Nat.mod_lt m (by decide)) _ (Nat.mod_lt n (by decide))
        (List.singleton_injective hlast)
      rw [← Nat.div_add_mod m 16, ← Nat.div_add_mod n 16, hdiv, hmod]

theorem brace_notMem_toDigits (n : ℕ) : '\x7d' ∉ Nat.toDigits 16 n := by
  have hall : ∀ d < 16, '\x7d' ≠ Nat.digitChar d := by decide
  induction n using Nat.strong_induction_on with
  | _ n ih =>
    rw [Nat.toDigits_eq_if (by decide)]
    by_cases hn : n < 16
    · rw [if_pos hn, List.mem_singleton]
      exact hall n hn
    · rw [if_neg hn, List.mem_append, List.mem_singleton]
      rintro (hmem | hlast)
      · exact ih (n / 16) (Nat.div_lt_self (by omega) (by decide)) hmem
      · exact hall _ (Nat.mod_lt n (by decide)) hlast

/-- Characters are told apart by their numbers, up to the closing brace. -/
theorem prefixFree_escapeUnicode : PrefixFree escapeUnicode := by
  intro c d xs ys heq
  unfold escapeUnicode at heq
  simp only [List.append_assoc, List.singleton_append] at heq
  obtain ⟨hdigits, hrest⟩ := PrefixFree.eq_of_append_cons_eq (brace_notMem_toDigits c.toNat)
    (brace_notMem_toDigits d.toNat) (List.append_cancel_left heq)
  exact ⟨Char.toNat_inj.mp (toDigits_injective hdigits), hrest⟩

/-! ## Reading back -/

/-- The character that stands for another behind a backslash. -/
def shortEscape (c : Char) : Option Char :=
  if c.toNat = 0 then some '0'
  else if c = '\t' then some 't'
  else if c = '\r' then some 'r'
  else if c = '\n' then some 'n'
  else if c = '\\' then some '\\'
  else if c = '"' then some '"'
  else none

/-- Short escapes tell characters apart. -/
theorem shortEscape_inj {c d e : Char} (hc : shortEscape c = some e) (hd : shortEscape d = some e) :
    c = d := by
  have hzero : ∀ {c d : Char}, c.toNat = 0 → d.toNat = 0 → c = d :=
    fun hc hd => Char.toNat_inj.mp (hc.trans hd.symm)
  unfold shortEscape at hc hd
  split_ifs at hc hd <;>
    first
      | exact absurd (Option.some.inj (hc.trans hd.symm)) (by decide)
      | exact hzero ‹_› ‹_›
      | (subst_vars; rfl)

theorem shortEscape_ne_u {c e : Char} (h : shortEscape c = some e) : e ≠ 'u' := by
  unfold shortEscape at h
  split_ifs at h <;> (rw [← Option.some.inj h]; decide)

/-- A character without a short escape is no backslash. -/
theorem ne_backslash_of_none {c : Char} (h : shortEscape c = none) : c ≠ '\\' := by
  rintro rfl
  cases h

variable [UnicodeTables]

theorem escapeDebug_of_some {c e : Char} (h : shortEscape c = some e) :
    escapeDebug c = ['\\', e] := by
  unfold shortEscape at h
  unfold escapeDebug
  split_ifs at h ⊢ <;> rw [← Option.some.inj h]

/-- A character without a short escape is written as it is or as a number. -/
theorem escapeDebug_of_none {c : Char} (h : shortEscape c = none) :
    escapeDebug c = [c] ∨ escapeDebug c = escapeUnicode c := by
  unfold shortEscape at h
  unfold escapeDebug
  split_ifs at h ⊢
  · exact .inr rfl
  · exact .inl rfl
  · exact .inr rfl

/-- **An escaped character can be told from what follows it.** -/
theorem prefixFree_escapeDebug : PrefixFree escapeDebug := by
  intro c d xs ys heq
  cases hc : shortEscape c with
  | some e =>
    rw [escapeDebug_of_some hc] at heq
    cases hd : shortEscape d with
    | some e' =>
      rw [escapeDebug_of_some hd] at heq
      obtain ⟨-, htail⟩ := List.cons_eq_cons.mp heq
      obtain ⟨rfl, hrest⟩ := List.cons_eq_cons.mp htail
      exact ⟨shortEscape_inj hc hd, hrest⟩
    | none =>
      rcases escapeDebug_of_none hd with hplain | hnumber
      · rw [hplain] at heq
        exact absurd (List.cons_eq_cons.mp heq).1.symm (ne_backslash_of_none hd)
      · rw [hnumber] at heq
        obtain ⟨-, htail⟩ := List.cons_eq_cons.mp heq
        exact absurd (List.cons_eq_cons.mp htail).1 (shortEscape_ne_u hc)
  | none =>
    cases hd : shortEscape d with
    | some e =>
      rw [escapeDebug_of_some hd] at heq
      rcases escapeDebug_of_none hc with hplain | hnumber
      · rw [hplain] at heq
        exact absurd (List.cons_eq_cons.mp heq).1 (ne_backslash_of_none hc)
      · rw [hnumber] at heq
        obtain ⟨-, htail⟩ := List.cons_eq_cons.mp heq
        exact absurd (List.cons_eq_cons.mp htail).1.symm (shortEscape_ne_u hd)
    | none =>
      rcases escapeDebug_of_none hc with hplain | hnumber <;>
        rcases escapeDebug_of_none hd with hplain' | hnumber'
      · rw [hplain, hplain'] at heq
        exact List.cons_eq_cons.mp heq
      · rw [hplain, hnumber'] at heq
        exact absurd (List.cons_eq_cons.mp heq).1 (ne_backslash_of_none hc)
      · rw [hnumber, hplain'] at heq
        exact absurd (List.cons_eq_cons.mp heq).1.symm (ne_backslash_of_none hd)
      · rw [hnumber, hnumber'] at heq
        exact prefixFree_escapeUnicode heq

/-- No character is written with a quote in front. -/
theorem exists_escapeDebug_cons (c : Char) : ∃ x rest, escapeDebug c = x :: rest ∧ x ≠ '"' := by
  cases hc : shortEscape c with
  | some e => exact ⟨'\\', [e], escapeDebug_of_some hc, by decide⟩
  | none =>
    rcases escapeDebug_of_none hc with hplain | hnumber
    · refine ⟨c, [], hplain, ?_⟩
      rintro rfl
      cases hc
    · exact ⟨'\\', _, hnumber, by decide⟩

/-- **A debug text can be told from what follows it.** -/
theorem prefixFree_quote : PrefixFree quote := by
  intro s t xs ys heq
  obtain ⟨hlist, hrest⟩ :=
    (prefixFree_escapeDebug.flatMap_terminator exists_escapeDebug_cons).const_append ['"'] heq
  exact ⟨String.toList_inj.mp hlist, hrest⟩

end DebugText
