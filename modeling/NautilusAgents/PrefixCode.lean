import Mathlib

/-!
# Prefix codes

A code is free of prefixes when what follows a code word never changes where
the word ends: `PrefixFree code` says that two words with anything behind them
are equal only if the values are and what is behind them is. Texts put together
from such words can be taken apart again, and that is all a format needs to be
unambiguous.

The rules follow the ways in which formats are built: a word with a fixed text
before or behind it, a word up to a terminator (`PrefixFree.eq_of_append_cons_eq`),
and a list of words, either to the end (`PrefixFree.flatMap_injective`) or up to
a terminator (`PrefixFree.flatMap_terminator`).
-/

/-- **No word is the beginning of another.** -/
def PrefixFree {α β : Type} (code : α → List β) : Prop :=
  ∀ ⦃a b : α⦄ ⦃xs ys : List β⦄, code a ++ xs = code b ++ ys → a = b ∧ xs = ys

namespace PrefixFree

variable {α β γ : Type} {code : α → List β}

/-- A fixed text before the word. -/
theorem const_append (h : PrefixFree code) (before : List β) :
    PrefixFree (fun a => before ++ code a) := by
  intro a b xs ys heq
  rw [List.append_assoc, List.append_assoc] at heq
  exact h (List.append_cancel_left heq)

/-- A fixed text behind the word. -/
theorem append_const (h : PrefixFree code) (behind : List β) :
    PrefixFree (fun a => code a ++ behind) := by
  intro a b xs ys heq
  rw [List.append_assoc, List.append_assoc] at heq
  obtain ⟨rfl, htail⟩ := h heq
  exact ⟨rfl, List.append_cancel_left htail⟩

/-- Up to the first occurrence of a terminator two equal lists are the same, and
so are they behind it. -/
theorem eq_of_append_cons_eq {x y xs ys : List β} {stop : β} (hx : stop ∉ x) (hy : stop ∉ y)
    (h : x ++ stop :: xs = y ++ stop :: ys) : x = y ∧ xs = ys := by
  induction x generalizing y with
  | nil =>
    cases y with
    | nil => exact ⟨rfl, (List.cons.inj h).2⟩
    | cons b y => exact absurd (List.cons.inj h).1 (fun heq => hy (heq ▸ List.mem_cons_self))
  | cons a x ih =>
    cases y with
    | nil => exact absurd (List.cons.inj h).1.symm (fun heq => hx (heq ▸ List.mem_cons_self))
    | cons b y =>
      obtain ⟨rfl, htail⟩ := List.cons.inj h
      obtain ⟨rfl, hrest⟩ := ih (fun hmem => hx (List.mem_cons_of_mem _ hmem))
        (fun hmem => hy (List.mem_cons_of_mem _ hmem)) htail
      exact ⟨rfl, hrest⟩

/-- **A list of words** that goes on to the end. -/
theorem flatMap_injective (h : PrefixFree code) (hne : ∀ a, code a ≠ []) :
    Function.Injective (fun l : List α => l.flatMap code) := by
  intro l m
  induction l generalizing m with
  | nil =>
    intro heq
    cases m with
    | nil => rfl
    | cons b m =>
      exact absurd (List.append_eq_nil_iff.mp heq.symm).1 (hne b)
  | cons a l ih =>
    intro heq
    cases m with
    | nil => exact absurd (List.append_eq_nil_iff.mp heq).1 (hne a)
    | cons b m =>
      obtain ⟨rfl, htail⟩ := h heq
      rw [ih htail]

/-- **A list of words up to a terminator** with which no word starts. -/
theorem flatMap_terminator (h : PrefixFree code) {stop : β}
    (hstop : ∀ a, ∃ x rest, code a = x :: rest ∧ x ≠ stop) :
    PrefixFree (fun l : List α => l.flatMap code ++ [stop]) := by
  intro l m xs ys
  induction l generalizing m with
  | nil =>
    intro heq
    cases m with
    | nil => exact ⟨rfl, (List.cons.inj heq).2⟩
    | cons b m =>
      obtain ⟨x, rest, hx, hne⟩ := hstop b
      simp only [List.flatMap_cons, List.flatMap_nil, hx] at heq
      exact absurd (List.cons.inj heq).1.symm hne
  | cons a l ih =>
    intro heq
    cases m with
    | nil =>
      obtain ⟨x, rest, hx, hne⟩ := hstop a
      simp only [List.flatMap_cons, List.flatMap_nil, hx] at heq
      exact absurd (List.cons.inj heq).1 hne
    | cons b m =>
      simp only [List.flatMap_cons, List.append_assoc] at heq
      obtain ⟨rfl, htail⟩ := h heq
      obtain ⟨rfl, hrest⟩ := @ih m (by simpa using htail)
      exact ⟨rfl, hrest⟩

end PrefixFree
