import Mathlib

/-!
# Ordered rules and the first one violated

A validator that tests one rule after another and returns at the first one
violated is described by the list of its rules, each a condition that must not
hold and the error that reports it. `Reports rules r` says that `r` is the
outcome of testing them in order. It is put together the way validators are:
rule by rule (`Reports.test`), and list by list where one validator calls
another (`Reports.bind`).

What it means is said without reference to any program: the outcome is `ok`
exactly when no rule is violated (`reports_ok_iff`), and an error exactly when
it reports a violated rule before which none is (`reports_error_iff`).

A rule about an element of a list often concerns the elements before it, such
as that none of them has the same key. `withEarlier` lists each element with
those before it, and no key coming back is the keys being distinct
(`forall_withEarlier_notMem`).
-/

/-- **A rule**: what violates it, and the error that reports the violation. -/
structure Rule (ε : Type) where
  /-- What violates it. -/
  violated : Prop
  /-- What reports the violation. -/
  error : ε

variable {ε : Type}

/-- **The outcome of testing rules in order.** -/
inductive Reports : List (Rule ε) → Except ε Unit → Prop where
  | nil : Reports [] (.ok ())
  | violated {rule : Rule ε} {rules : List (Rule ε)} (h : rule.violated) :
      Reports (rule :: rules) (.error rule.error)
  | kept {rule : Rule ε} {rules : List (Rule ε)} {r : Except ε Unit} (h : ¬ rule.violated)
      (hrest : Reports rules r) : Reports (rule :: rules) r

namespace Reports

/-- Test one rule and go on with the rest. -/
theorem test {p : Prop} [Decidable p] {e : ε} {rules : List (Rule ε)} {r : Except ε Unit}
    (h : ¬ p → Reports rules r) :
    Reports (⟨p, e⟩ :: rules) (if p then .error e else r) := by
  by_cases hp : p
  · rw [if_pos hp]
    exact @violated ε ⟨p, e⟩ rules hp
  · rw [if_neg hp]
    exact @kept ε ⟨p, e⟩ rules r hp (h hp)

/-- **One validator after another**: the rules of the first, then those of
the second. -/
theorem bind {xs ys : List (Rule ε)} {r s : Except ε Unit} (hx : Reports xs r)
    (hy : r = .ok () → Reports ys s) : Reports (xs ++ ys) (r.bind (fun _ => s)) := by
  induction hx with
  | nil => exact hy rfl
  | violated h => exact violated h
  | kept h _ ih => exact kept h (ih hy)

end Reports

/-- **The rules are passed exactly when none is violated.** -/
theorem reports_ok_iff {rules : List (Rule ε)} :
    Reports rules (.ok ()) ↔ ∀ rule ∈ rules, ¬ rule.violated := by
  induction rules with
  | nil => exact ⟨fun _ _ h => (List.not_mem_nil h).elim, fun _ => .nil⟩
  | cons rule rules ih =>
    rw [List.forall_mem_cons, ← ih]
    constructor
    · intro h
      cases h with
      | kept h hrest => exact ⟨h, hrest⟩
    · rintro ⟨h, hrest⟩
      exact .kept h hrest

/-- **An error reports the first rule that is violated.** -/
theorem reports_error_iff {rules : List (Rule ε)} {e : ε} :
    Reports rules (.error e) ↔ ∃ before rule after, rules = before ++ rule :: after ∧
      (∀ earlier ∈ before, ¬ earlier.violated) ∧ rule.violated ∧ rule.error = e := by
  constructor
  · intro h
    generalize hr : (Except.error e : Except ε Unit) = r at h
    induction h with
    | nil => cases hr
    | @violated rule rules h =>
      cases hr
      exact ⟨[], rule, rules, rfl, fun _ hmem => (List.not_mem_nil hmem).elim, h, rfl⟩
    | @kept rule rules r h _ ih =>
      obtain ⟨before, first, after, rfl, hbefore, hfirst, he⟩ := ih hr
      exact ⟨rule :: before, first, after, rfl, List.forall_mem_cons.mpr ⟨h, hbefore⟩, hfirst, he⟩
  · rintro ⟨before, rule, after, rfl, hbefore, hrule, rfl⟩
    induction before with
    | nil => exact .violated hrule
    | cons first before ih =>
      rw [List.forall_mem_cons] at hbefore
      exact .kept hbefore.1 (ih hbefore.2)

/-- Testing rules in order has one outcome. -/
theorem Reports.unique {rules : List (Rule ε)} {r s : Except ε Unit} (hr : Reports rules r)
    (hs : Reports rules s) : r = s := by
  induction hr with
  | nil => cases hs; rfl
  | violated h =>
    cases hs with
    | violated => rfl
    | kept h' => exact absurd h h'
  | kept h _ ih =>
    cases hs with
    | violated h' => exact absurd h' h
    | kept _ hrest => exact ih hrest

theorem Reports.eq_iff {rules : List (Rule ε)} {r s : Except ε Unit} (h : Reports rules r) :
    r = s ↔ Reports rules s :=
  ⟨fun heq => heq ▸ h, fun hs => h.unique hs⟩

/-- **Rules that are kept can be left out** behind the others. -/
theorem Reports.of_append {xs ys : List (Rule ε)} {r : Except ε Unit} (h : Reports (xs ++ ys) r)
    (hys : ∀ rule ∈ ys, ¬ rule.violated) : Reports xs r := by
  induction xs with
  | nil =>
    rw [h.unique (reports_ok_iff.mpr hys)]
    exact .nil
  | cons rule xs ih =>
    cases h with
    | violated hrule => exact .violated hrule
    | kept hrule hrest => exact .kept hrule (ih hrest)

/-! ## Rules about the elements before -/

variable {α κ : Type}

/-- Each element of a list with the elements before it, which start with
those given. -/
def withEarlierFrom (earlier : List α) : List α → List (List α × α)
  | [] => []
  | a :: rest => (earlier, a) :: withEarlierFrom (earlier ++ [a]) rest

/-- **Each element of a list with the elements before it.** -/
def withEarlier (l : List α) : List (List α × α) := withEarlierFrom [] l

theorem withEarlierFrom_concat (earlier l : List α) (a : α) :
    withEarlierFrom earlier (l ++ [a]) = withEarlierFrom earlier l ++ [(earlier ++ l, a)] := by
  induction l generalizing earlier with
  | nil =>
    rw [List.append_nil]
    rfl
  | cons b l ih =>
    rw [List.cons_append, withEarlierFrom, withEarlierFrom, ih, List.append_assoc,
      List.singleton_append, List.cons_append]

theorem withEarlier_concat (l : List α) (a : α) :
    withEarlier (l ++ [a]) = withEarlier l ++ [(l, a)] := withEarlierFrom_concat [] l a

theorem map_snd_withEarlierFrom (earlier l : List α) :
    (withEarlierFrom earlier l).map Prod.snd = l := by
  induction l generalizing earlier with
  | nil => rfl
  | cons a rest ih => rw [withEarlierFrom, List.map_cons, ih]

/-- A condition on the elements alone does not see those before. -/
theorem forall_withEarlier_snd (p : α → Prop) (l : List α) :
    (∀ x ∈ withEarlier l, p x.snd) ↔ ∀ a ∈ l, p a := by
  rw [← List.forall_mem_map (f := Prod.snd), withEarlier, map_snd_withEarlierFrom]

/-- **No key comes back exactly when the keys are distinct.** -/
theorem forall_withEarlierFrom_notMem (key : α → κ) (earlier l : List α) :
    (∀ x ∈ withEarlierFrom earlier l, key x.snd ∉ x.fst.map key) ↔
      (l.map key).Nodup ∧ ∀ a ∈ l, key a ∉ earlier.map key := by
  induction l generalizing earlier with
  | nil => simp [withEarlierFrom]
  | cons a rest ih =>
    unfold withEarlierFrom
    rw [List.forall_mem_cons, ih, List.map_cons, List.nodup_cons, List.forall_mem_cons]
    have hsplit : (∀ b ∈ rest, key b ∉ (earlier ++ [a]).map key) ↔
        (∀ b ∈ rest, key b ∉ earlier.map key) ∧ key a ∉ rest.map key := by
      rw [List.map_append, List.map_singleton]
      constructor
      · intro h
        refine ⟨fun b hb hmem => h b hb (List.mem_append_left _ hmem), fun hmem => ?_⟩
        obtain ⟨b, hb, heq⟩ := List.mem_map.mp hmem
        exact h b hb (List.mem_append_right _ (heq ▸ List.mem_singleton_self _))
      · rintro ⟨hearlier, hrest⟩ b hb hmem
        rcases List.mem_append.mp hmem with hmem | hmem
        · exact hearlier b hb hmem
        · exact hrest (List.mem_singleton.mp hmem ▸ List.mem_map_of_mem hb)
    rw [hsplit]
    tauto

theorem forall_withEarlier_notMem (key : α → κ) (l : List α) :
    (∀ x ∈ withEarlier l, key x.snd ∉ x.fst.map key) ↔ (l.map key).Nodup := by
  unfold withEarlier
  rw [forall_withEarlierFrom_notMem]
  exact and_iff_left (fun a _ hmem => by cases hmem)
