import Mathlib

/-!
# Text patterns

The regular expressions a schema puts on a text: character classes, sequences,
alternatives and repetitions, matched from the first character to the last. A
pattern denotes the language of the texts it matches, so that what is known of
languages is known of patterns.

A class repeated some number of times is the texts of that length over the
class (`Pattern.mem_star_set`, `Pattern.mem_plus_set`,
`Pattern.mem_times_set`), which is what most patterns of scalars come down to.
`Pattern.source` writes a pattern down as it is published, so that a reader can
hold the two next to each other.
-/

open Computability

/-- **A pattern.** A class lists ranges of characters, first and last
included, and may be negated. -/
inductive Pattern where
  | empty
  | set (negated : Bool) (ranges : List (Char × Char))
  | cat (p q : Pattern)
  | alt (p q : Pattern)
  | star (p : Pattern)
  | plus (p : Pattern)
  | times (p : Pattern) (least most : ℕ)

namespace Pattern

/-- Whether a character belongs to a class. -/
def inSet (negated : Bool) (ranges : List (Char × Char)) (c : Char) : Bool :=
  ranges.any (fun r => decide (r.fst ≤ c) && decide (c ≤ r.snd)) ^^ negated

/-- **The texts a pattern matches.** -/
def language : Pattern → Language Char
  | empty => 1
  | set negated ranges => {w | ∃ c, inSet negated ranges c = true ∧ w = [c]}
  | cat p q => p.language * q.language
  | alt p q => p.language + q.language
  | star p => p.language∗
  | plus p => p.language * p.language∗
  | times p least most => ⨆ n : Set.Icc least most, p.language ^ n.val

/-- A single character. -/
def lit (c : Char) : Pattern := set false [(c, c)]

/-- A fixed text. -/
def text : List Char → Pattern
  | [] => empty
  | [c] => lit c
  | c :: cs => cat (lit c) (text cs)

/-! ## How a pattern is written -/

/-- A character as a pattern spells it: control characters by their number,
and the point, which would stand for any character, escaped. -/
def sourceChar (c : Char) : String :=
  if c.toNat < 0x20 ∨ 0x7f ≤ c.toNat then
    "\\u00" ++ String.ofList [Nat.digitChar (c.toNat / 16), Nat.digitChar (c.toNat % 16)]
  else if c = '.' then "\\."
  else String.singleton c

/-- A range of characters. -/
def sourceRange (r : Char × Char) : String :=
  if r.fst = r.snd then sourceChar r.fst else sourceChar r.fst ++ "-" ++ sourceChar r.snd

/-- A part in front of a repetition: a sequence is grouped. -/
def grouped (p : Pattern) (source : String) : String :=
  match p with
  | cat _ _ => "(?:" ++ source ++ ")"
  | _ => source

/-- The number of repetitions. -/
def sourceTimes (least most : ℕ) : String :=
  if least = most then "\x7b" ++ Nat.repr least ++ "\x7d"
  else "\x7b" ++ Nat.repr least ++ "," ++ Nat.repr most ++ "\x7d"

/-- **The text of a pattern**, between its anchors. -/
def source : Pattern → String
  | empty => ""
  | set false [(first, last)] =>
    if first = last then sourceChar first else "[" ++ sourceRange (first, last) ++ "]"
  | set negated ranges =>
    "[" ++ (if negated then "^" else "") ++ String.join (ranges.map sourceRange) ++ "]"
  | cat p q => p.source ++ q.source
  | alt p q => "(?:" ++ p.source ++ "|" ++ q.source ++ ")"
  | star p => grouped p p.source ++ "*"
  | plus p => grouped p p.source ++ "+"
  | times p least most => grouped p p.source ++ sourceTimes least most

/-- The text of a pattern that matches from the first character to the
last. -/
def anchored (p : Pattern) : String := "^" ++ p.source ++ "$"

/-! ## Matching -/

@[simp] theorem mem_empty {w : List Char} : w ∈ empty.language ↔ w = [] := Iff.rfl

@[simp] theorem mem_set {negated : Bool} {ranges : List (Char × Char)} {w : List Char} :
    w ∈ (set negated ranges).language ↔ ∃ c, inSet negated ranges c = true ∧ w = [c] := Iff.rfl

@[simp] theorem mem_cat {p q : Pattern} {w : List Char} :
    w ∈ (cat p q).language ↔ ∃ u ∈ p.language, ∃ v ∈ q.language, u ++ v = w := Language.mem_mul

@[simp] theorem mem_alt {p q : Pattern} {w : List Char} :
    w ∈ (alt p q).language ↔ w ∈ p.language ∨ w ∈ q.language := Iff.rfl

theorem mem_plus {p : Pattern} {w : List Char} :
    w ∈ (plus p).language ↔ ∃ u ∈ p.language, ∃ v ∈ (star p).language, u ++ v = w :=
  Language.mem_mul

theorem mem_times {p : Pattern} {least most : ℕ} {w : List Char} :
    w ∈ (times p least most).language ↔
      ∃ n, (least ≤ n ∧ n ≤ most) ∧ w ∈ p.language ^ n := by
  show w ∈ (⨆ n : Set.Icc least most, p.language ^ n.val) ↔ _
  rw [Language.mem_iSup]
  constructor
  · rintro ⟨⟨n, hn⟩, h⟩
    exact ⟨n, hn, h⟩
  · rintro ⟨n, hn, h⟩
    exact ⟨⟨n, hn⟩, h⟩

@[simp] theorem mem_lit {c : Char} {w : List Char} : w ∈ (lit c).language ↔ w = [c] := by
  unfold lit
  rw [mem_set]
  have hc : ∀ d, inSet false [(c, c)] d = true ↔ d = c := by
    intro d
    unfold inSet
    simp only [List.any_cons, List.any_nil, Bool.or_false, Bool.xor_false, Bool.and_eq_true,
      decide_eq_true_eq]
    exact ⟨fun h => le_antisymm h.2 h.1, fun h => ⟨h.ge, h.le⟩⟩
  constructor
  · rintro ⟨d, hd, rfl⟩
    rw [(hc d).mp hd]
  · rintro rfl
    exact ⟨c, (hc c).mpr rfl, rfl⟩

@[simp] theorem mem_text {cs w : List Char} : w ∈ (text cs).language ↔ w = cs := by
  induction cs generalizing w with
  | nil => exact mem_empty
  | cons c cs ih =>
    cases cs with
    | nil => exact mem_lit
    | cons d ds =>
      show w ∈ (cat (lit c) (text (d :: ds))).language ↔ _
      rw [mem_cat]
      constructor
      · rintro ⟨u, hu, v, hv, rfl⟩
        rw [mem_lit.mp hu, ih.mp hv]
        rfl
      · rintro rfl
        exact ⟨[c], mem_lit.mpr rfl, d :: ds, ih.mpr rfl, rfl⟩

/-- **A text in two parts** matches a sequence. -/
theorem append_mem_cat {p q : Pattern} {u v : List Char} (hu : u ∈ p.language)
    (hv : v ∈ q.language) : u ++ v ∈ (cat p q).language :=
  mem_cat.mpr ⟨u, hu, v, hv, rfl⟩

/-- A text behind a single character. -/
theorem cons_mem_cat {p : Pattern} {w : List Char} (c : Char) (hw : w ∈ p.language) :
    c :: w ∈ (cat (lit c) p).language :=
  append_mem_cat (mem_lit.mpr rfl) hw

/-! ## Repetitions -/

theorem nil_mem_star (p : Pattern) : [] ∈ (star p).language := Language.nil_mem_kstar _

/-- **One more repetition** in front. -/
theorem append_mem_star {p : Pattern} {u w : List Char} (hu : u ∈ p.language)
    (hw : w ∈ (star p).language) : u ++ w ∈ (star p).language := by
  show u ++ w ∈ p.language∗
  rw [← Language.one_add_self_mul_kstar_eq_kstar]
  exact Or.inr (Language.append_mem_mul hu hw)

/-- **Repetitions are put together one by one.** -/
theorem star_induction {p : Pattern} {P : List Char → Prop} (hnil : P [])
    (happend : ∀ u ∈ p.language, ∀ w, P w → P (u ++ w)) {w : List Char}
    (h : w ∈ (star p).language) : P w := by
  obtain ⟨parts, rfl, hparts⟩ := Language.mem_kstar.mp h
  induction parts with
  | nil => exact hnil
  | cons u parts ih =>
    rw [List.forall_mem_cons] at hparts
    exact happend u hparts.1 _ (ih hparts.2 (Language.join_mem_kstar hparts.2))

theorem append_mem_plus {p : Pattern} {u w : List Char} (hu : u ∈ p.language)
    (hw : w ∈ (star p).language) : u ++ w ∈ (plus p).language :=
  mem_plus.mpr ⟨u, hu, w, hw, rfl⟩

/-- Parts that are single characters of a class make up the texts over the
class. -/
theorem flatten_eq_iff_of_forall_set {negated : Bool} {ranges : List (Char × Char)}
    {parts : List (List Char)} (h : ∀ y ∈ parts, y ∈ (set negated ranges).language) :
    parts.flatten.length = parts.length ∧
      ∀ c ∈ parts.flatten, inSet negated ranges c = true := by
  induction parts with
  | nil => exact ⟨rfl, fun c hc => by cases hc⟩
  | cons y parts ih =>
    obtain ⟨c, hc, rfl⟩ := mem_set.mp (h y List.mem_cons_self)
    obtain ⟨hlength, hall⟩ := ih (fun z hz => h z (List.mem_cons_of_mem _ hz))
    rw [List.flatten_cons, List.singleton_append]
    refine ⟨by rw [List.length_cons, hlength, List.length_cons], ?_⟩
    exact List.forall_mem_cons.mpr ⟨hc, hall⟩

/-- A text over a class is made up of its characters. -/
theorem exists_parts_of_forall {negated : Bool} {ranges : List (Char × Char)} {w : List Char}
    (h : ∀ c ∈ w, inSet negated ranges c = true) :
    ∃ parts : List (List Char), w = parts.flatten ∧ parts.length = w.length ∧
      ∀ y ∈ parts, y ∈ (set negated ranges).language := by
  refine ⟨w.map (fun c => [c]), ?_, List.length_map _, ?_⟩
  · rw [← List.flatMap_def, List.flatMap_singleton']
  · intro y hy
    obtain ⟨c, hc, rfl⟩ := List.mem_map.mp hy
    exact mem_set.mpr ⟨c, h c hc, rfl⟩

/-- **A repeated class**: the texts over the class. -/
@[simp] theorem mem_star_set {negated : Bool} {ranges : List (Char × Char)} {w : List Char} :
    w ∈ (star (set negated ranges)).language ↔ ∀ c ∈ w, inSet negated ranges c = true := by
  constructor
  · intro h
    obtain ⟨parts, rfl, hparts⟩ := Language.mem_kstar.mp h
    exact (flatten_eq_iff_of_forall_set hparts).2
  · intro h
    obtain ⟨parts, hw, -, hparts⟩ := exists_parts_of_forall h
    exact Language.mem_kstar.mpr ⟨parts, hw, hparts⟩

/-- **A class repeated at least once**: the texts over the class, the empty
one apart. -/
@[simp] theorem mem_plus_set {negated : Bool} {ranges : List (Char × Char)} {w : List Char} :
    w ∈ (plus (set negated ranges)).language ↔
      w ≠ [] ∧ ∀ c ∈ w, inSet negated ranges c = true := by
  rw [mem_plus]
  constructor
  · rintro ⟨u, hu, v, hv, rfl⟩
    obtain ⟨c, hc, rfl⟩ := mem_set.mp hu
    exact ⟨List.cons_ne_nil _ _, List.forall_mem_cons.mpr ⟨hc, mem_star_set.mp hv⟩⟩
  · rintro ⟨hne, hall⟩
    cases w with
    | nil => exact absurd rfl hne
    | cons c w =>
      rw [List.forall_mem_cons] at hall
      exact ⟨[c], mem_set.mpr ⟨c, hall.1, rfl⟩, w, mem_star_set.mpr hall.2, rfl⟩

/-- **A class repeated a number of times**: the texts over the class with that
many characters. -/
@[simp] theorem mem_times_set {negated : Bool} {ranges : List (Char × Char)} {least most : ℕ}
    {w : List Char} :
    w ∈ (times (set negated ranges) least most).language ↔
      (least ≤ w.length ∧ w.length ≤ most) ∧ ∀ c ∈ w, inSet negated ranges c = true := by
  rw [mem_times]
  constructor
  · rintro ⟨n, hn, h⟩
    obtain ⟨parts, rfl, rfl, hparts⟩ := Language.mem_pow.mp h
    obtain ⟨hlength, hall⟩ := flatten_eq_iff_of_forall_set hparts
    rw [hlength]
    exact ⟨hn, hall⟩
  · rintro ⟨hn, hall⟩
    obtain ⟨parts, hw, hlength, hparts⟩ := exists_parts_of_forall hall
    exact ⟨w.length, hn, Language.mem_pow.mpr ⟨parts, hw, hlength, hparts⟩⟩

end Pattern
