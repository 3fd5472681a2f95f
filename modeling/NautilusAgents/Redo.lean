import NautilusAgents.Stopping

/-!
# Doing it again

A program that goes through a list of steps and stops at the first that fails
may leave a step half done, and who runs it again runs it from the start. What
makes this safe is not that a step leaves nothing behind when it is disturbed,
but that doing it again absorbs whatever it left (`Stopping.Absorbs`): from
there the step has the outcome it would have had without the attempt.

For a list of steps one more thing is needed, that a step which is done stays
done while later ones are attempted. Then the whole list absorbs an attempt at
it: the steps that were done are passed over, and the one that was disturbed
comes to what it would have come to (`Stopping.exec_forM_redo`). With one
attempt absorbed, any number are (`foldl_absorbed`).

The last step of a list is special. It is attempted only when all others are
done, so that what it alone changes tells that they are
(`Stopping.done_of_last`).
-/

namespace Stopping

variable {ε σ α β : Type}

/-! ## Runs, step by step -/

theorem exec_bind (program : Stopping ε σ α) (next : α → Stopping ε σ β) (s : σ) :
    (program >>= next).exec s = match program.exec s with
      | (.ok a, t) => (next a).exec t
      | (.error e, t) => (.error e, t) := by
  simp only [exec, ExceptT.run_bind, StateT.run_bind, Id.run_bind]
  obtain ⟨result, t⟩ := (program.run.run s).run
  cases result <;> rfl

theorem exec_bind_of_ok {program : Stopping ε σ α} {a : α} {s t : σ}
    (h : program.exec s = (.ok a, t)) (next : α → Stopping ε σ β) :
    (program >>= next).exec s = (next a).exec t := by
  rw [exec_bind, h]

theorem exec_bind_of_error {program : Stopping ε σ α} {e : ε} {s t : σ}
    (h : program.exec s = (.error e, t)) (next : α → Stopping ε σ β) :
    (program >>= next).exec s = (.error e, t) := by
  rw [exec_bind, h]

theorem exec_update_of_ok {f : σ → Except ε σ} {s t : σ} (h : f s = .ok t) :
    (update f).exec s = (.ok (), t) :=
  exec_update_eq_ok_iff.mpr h

theorem exec_update_of_error {f : σ → Except ε σ} {e : ε} {s : σ} (h : f s = .error e) :
    (update f).exec s = (.error e, s) := by
  simp only [exec, update, ExceptT.run, ExceptT.mk, StateT.run, Id.run, h]

/-- A program that is made to fail at its end leaves what it would have left. -/
theorem exec_throw_snd (program : Stopping ε σ Unit) (e : ε) (s : σ) :
    ((program >>= fun _ => (throw e : Stopping ε σ Unit)).exec s).snd = (program.exec s).snd := by
  rw [exec_bind]
  rcases program.exec s with ⟨⟨e⟩ | ⟨⟨⟩⟩, t⟩
  · rfl
  · rfl

/-- And it fails. -/
theorem exec_throw_ne_ok (program : Stopping ε σ Unit) (e : ε) (s t : σ) :
    (program >>= fun _ => (throw e : Stopping ε σ Unit)).exec s ≠ (.ok (), t) := by
  intro h
  obtain ⟨⟨⟩, _, -, hthrow⟩ := exec_bind_eq_ok_iff.mp h
  cases congrArg Prod.fst hthrow

/-- **What every step keeps, a loop keeps**, wherever it stops. -/
theorem forM_keeps (inv : σ → Prop) {f : α → Stopping ε σ Unit} {xs : List α}
    (hstep : ∀ x ∈ xs, ∀ s, inv s → inv ((f x).exec s).snd) {s : σ} (h : inv s) :
    inv ((xs.forM f).exec s).snd := by
  induction xs generalizing s with
  | nil => exact h
  | cons x xs ih =>
    have hx := hstep x List.mem_cons_self s h
    show inv ((f x >>= fun _ => xs.forM f).exec s).snd
    rw [exec_bind]
    rcases hrun : (f x).exec s with ⟨⟨e⟩ | ⟨⟨⟩⟩, t⟩
    · rwa [hrun] at hx
    · rw [hrun] at hx
      exact ih (fun y hy => hstep y (List.mem_cons_of_mem x hy)) hx

/-- Looking at the end changes nothing. -/
theorem exec_inspect_snd (program : Stopping ε σ Unit) (look : σ → Except ε Unit) (s : σ) :
    ((program >>= fun _ => inspect look).exec s).snd = (program.exec s).snd := by
  rw [exec_bind]
  rcases program.exec s with ⟨⟨e⟩ | ⟨⟨⟩⟩, t⟩
  · rfl
  · rfl

/-! ## Attempts -/

/-- **A step is done** in a state where doing it changes nothing. -/
def Done (step : Stopping ε σ Unit) (s : σ) : Prop := step.exec s = (.ok (), s)

/-- **A step absorbs an attempt at it**: whatever the attempt leaves, the step has
the outcome from there that it would have had at once, and where the attempt
succeeds it is the step. -/
structure Absorbs (step attempt : Stopping ε σ Unit) : Prop where
  /-- The step ends as it would have at once. -/
  again : ∀ s, step.exec (attempt.exec s).snd = step.exec s
  /-- An attempt that succeeds is the step. -/
  ok : ∀ {s t}, attempt.exec s = (.ok (), t) → step.exec s = (.ok (), t)

theorem Absorbs.done {step attempt : Stopping ε σ Unit} (h : Absorbs step attempt) {s t : σ}
    (hok : attempt.exec s = (.ok (), t)) : Done step t := by
  have hagain := h.again s
  rw [hok, h.ok hok] at hagain
  exact hagain

/-- A step that an attempt at another does not undo. -/
def Survives (step attempt : Stopping ε σ Unit) : Prop :=
  ∀ s, Done step s → Done step (attempt.exec s).snd

section Loop

variable {step attempt : α → Stopping ε σ Unit} {xs : List α}

/-- Where the attempts all succeed, every step is done. -/
theorem done_of_forM_ok (habsorbs : ∀ x ∈ xs, Absorbs (step x) (attempt x))
    (hsurvives : xs.Pairwise (fun x y => Survives (step x) (attempt y))) {s t : σ}
    (h : (xs.forM attempt).exec s = (.ok (), t)) : ∀ x ∈ xs, Done (step x) t := by
  refine exec_forM_invariant (fun past t => ∀ x ∈ past, Done (step x) t)
    (fun x hx => absurd hx List.not_mem_nil) ?_ h
  rintro past y rest s' t' rfl hpast hrun
  intro x hx
  rcases List.mem_append.mp hx with hx | hx
  · have hkept := (List.pairwise_append.mp hsurvives).2.2 x hx y List.mem_cons_self s'
      (hpast x hx)
    rwa [hrun] at hkept
  · obtain rfl := List.mem_singleton.mp hx
    exact (habsorbs x (List.mem_append_right past List.mem_cons_self)).done hrun

/-- **A loop absorbs an attempt at it.** The steps the attempt was through with
are passed over, and the one it stopped at absorbs what it left. -/
theorem exec_forM_redo (habsorbs : ∀ x ∈ xs, Absorbs (step x) (attempt x))
    (hsurvives : xs.Pairwise (fun x y => Survives (step x) (attempt y))) (s : σ) :
    (xs.forM step).exec ((xs.forM attempt).exec s).snd = (xs.forM step).exec s := by
  induction xs generalizing s with
  | nil => rfl
  | cons x xs ih =>
    obtain ⟨hlater, hrest⟩ := List.pairwise_cons.mp hsurvives
    have hx := habsorbs x List.mem_cons_self
    show (step x >>= fun _ => xs.forM step).exec
        ((attempt x >>= fun _ => xs.forM attempt).exec s).snd
      = (step x >>= fun _ => xs.forM step).exec s
    rcases hrun : (attempt x).exec s with ⟨⟨e⟩ | ⟨⟨⟩⟩, t⟩
    · have hagain := hx.again s
      rw [hrun] at hagain
      rw [exec_bind_of_error hrun, exec_bind (step x), exec_bind (step x), hagain]
    · have hdone : Done (step x) ((xs.forM attempt).exec t).snd :=
        forM_keeps _ (fun y hy => hlater y hy) (hx.done hrun)
      rw [exec_bind_of_ok hrun, exec_bind_of_ok (hx.ok hrun), exec_bind_of_ok hdone]
      exact ih (fun y hy => habsorbs y (List.mem_cons_of_mem x hy)) hrest t

/-- **The last step tells that all others are done.** What they do not change, it
changes only when they are. -/
theorem done_of_last {y : α} {view : σ → β}
    (habsorbs : ∀ x ∈ xs, Absorbs (step x) (attempt x))
    (hsurvives : (xs ++ [y]).Pairwise (fun x y => Survives (step x) (attempt y)))
    (hview : ∀ x ∈ xs, ∀ s, view ((attempt x).exec s).snd = view s) {s : σ}
    (h : view (((xs ++ [y]).forM attempt).exec s).snd ≠ view s) :
    ∀ x ∈ xs, Done (step x) (((xs ++ [y]).forM attempt).exec s).snd := by
  have hsame : view ((xs.forM attempt).exec s).snd = view s :=
    forM_keeps (fun t => view t = view s) (fun x hx t ht => (hview x hx t).trans ht) rfl
  have happend : (xs ++ [y]).forM attempt = xs.forM attempt >>= fun _ => [y].forM attempt := by
    simp only [List.forM_eq_forM, List.forM_append]
  rw [happend] at h ⊢
  rcases hrun : (xs.forM attempt).exec s with ⟨⟨e⟩ | ⟨⟨⟩⟩, t⟩
  · rw [exec_bind_of_error hrun] at h
    rw [hrun] at hsame
    exact absurd hsame h
  · rw [exec_bind_of_ok hrun]
    obtain ⟨hall, -, hlast⟩ := List.pairwise_append.mp hsurvives
    intro x hx
    refine forM_keeps _ (fun z hz => ?_) (done_of_forM_ok habsorbs hall hrun x hx)
    exact hlast x hx z hz

end Loop

end Stopping

/-- **Any number of attempts are absorbed**, where each is. -/
theorem foldl_absorbed {σ τ δ : Type} {run : σ → τ} {attempt : σ → δ → σ}
    (h : ∀ s d, run (attempt s d) = run s) (ds : List δ) (s : σ) :
    run (ds.foldl attempt s) = run s := by
  induction ds generalizing s with
  | nil => rfl
  | cons d ds ih => exact (ih (attempt s d)).trans (h s d)
