import Mathlib

/-!
# Loops

A loop is a state with a turn. A turn moves the state, or finds that the loop
is over, or stops at a fault. The states a loop comes by from a given one are
those that turns lead to (`Loop.Reaches`), and a loop ends when one of them is
found to be over (`Loop.EndsIn`). What holds at the start and survives every
turn holds of all of them (`Loop.invariant`).

A turn depends on nothing but the state (`Loop.turns_unique`), so that a loop
has one run: one that ends comes by no fault. That a loop does end follows, with
the invariant, from a variant that every turn makes smaller (`Loop.Advances`).
-/

/-- **A loop**: what a turn makes of a state, or nothing where the loop is
over. -/
structure Loop (σ ε : Type) where
  /-- One turn, from the state at the head of the loop. -/
  turn : σ → Except ε (Option σ)

namespace Loop

variable {σ ε : Type} {l : Loop σ ε} {s t u : σ}

/-- A turn leads from one state to another. -/
def Turns (l : Loop σ ε) (s t : σ) : Prop := l.turn s = .ok (some t)

/-- A loop comes by a state. -/
def Reaches (l : Loop σ ε) : σ → σ → Prop := Relation.ReflTransGen l.Turns

/-- **A loop ends**: it comes by a state at which it is over. -/
def EndsIn (l : Loop σ ε) (s t : σ) : Prop := l.Reaches s t ∧ l.turn t = .ok none

theorem reaches_refl (l : Loop σ ε) (s : σ) : l.Reaches s s := Relation.ReflTransGen.refl

theorem Reaches.head (htu : l.Reaches t u) (h : l.Turns s t) : l.Reaches s u :=
  Relation.ReflTransGen.head h htu

/-- **What every turn keeps holds of every state the loop comes by.** -/
theorem invariant {P : σ → Prop} (hturn : ∀ a b, P a → l.Turns a b → P b) (hs : P s)
    (h : l.Reaches s t) : P t := by
  induction h with
  | refl => exact hs
  | tail _ hstep ih => exact hturn _ _ ih hstep

theorem turns_unique (hst : l.Turns s t) (hsu : l.Turns s u) : t = u :=
  Option.some.inj (Except.ok.inj (hst.symm.trans hsu))

/-- **A loop advances** under an invariant: wherever it holds the loop is over,
or a turn keeps it and makes the variant smaller. -/
def Advances (l : Loop σ ε) (P : σ → Prop) (variant : σ → ℕ) : Prop :=
  ∀ a, P a → l.turn a = .ok none ∨ ∃ b, l.Turns a b ∧ P b ∧ variant b < variant a

/-- **A loop that advances keeps its invariant.** -/
theorem Advances.invariant {P : σ → Prop} {variant : σ → ℕ} (hadv : l.Advances P variant)
    (hs : P s) (h : l.Reaches s t) : P t := by
  refine Loop.invariant (fun a b ha hab => ?_) hs h
  rcases hadv a ha with hover | ⟨c, hac, hc, -⟩
  · rw [Turns, hover] at hab
    cases hab
  · rw [turns_unique hab hac]
    exact hc

/-- **A loop that advances ends**, and its invariant holds at the end. -/
theorem Advances.exists_endsIn {P : σ → Prop} {variant : σ → ℕ} (hadv : l.Advances P variant)
    (hs : P s) : ∃ t, l.EndsIn s t ∧ P t := by
  -- on the variant, for every state it bounds
  obtain ⟨n, hn⟩ : ∃ n, variant s < n := ⟨variant s + 1, Nat.lt_succ_self _⟩
  induction n generalizing s with
  | zero => exact (Nat.not_lt_zero _ hn).elim
  | succ n ih =>
    rcases hadv s hs with hover | ⟨b, hsb, hb, hlt⟩
    · exact ⟨s, ⟨l.reaches_refl s, hover⟩, hs⟩
    · obtain ⟨t, ⟨hreach, hover⟩, ht⟩ := ih hb (by omega)
      exact ⟨t, ⟨hreach.head hsb, hover⟩, ht⟩

end Loop
