import Mathlib

/-!
# Programs that stop at the first error

A program that changes a state and stops at the first of its steps that fails:
what the earlier steps have done to the state stays done. That is the state
monad under the exception monad, in this order.

Successful runs are what is reasoned about. One that succeeded took all of its
steps, each of them successfully, so it comes apart at every bind
(`Stopping.exec_bind_eq_ok_iff`), and the loop over a list has an invariant
that speaks of the part of the list it has been through
(`Stopping.exec_forM_invariant`). The same is said of the plain exception
monad, where a loop only looks: it succeeds just when every step does
(`Except.forM_eq_ok_iff`).
-/

namespace Except

variable {ε ε' α β : Type}

theorem bind_eq_ok_iff {x : Except ε α} {f : α → Except ε β} {b : β} :
    x >>= f = .ok b ↔ ∃ a, x = .ok a ∧ f a = .ok b := by
  cases x with
  | error e => exact ⟨fun h => (by cases h), fun ⟨a, h, _⟩ => (by cases h)⟩
  | ok a => exact ⟨fun h => ⟨a, rfl, h⟩, fun ⟨_, h, hb⟩ => by cases h; exact hb⟩

/-- A step without result, and what follows it. -/
theorem seq_eq_ok_iff {x : Except ε Unit} {y : Except ε β} {b : β} :
    (x >>= fun _ => y) = .ok b ↔ x = .ok () ∧ y = .ok b := by
  rw [bind_eq_ok_iff]
  exact ⟨fun ⟨_, hx, hy⟩ => ⟨hx, hy⟩, fun ⟨hx, hy⟩ => ⟨(), hx, hy⟩⟩

/-- A guard lets pass what it does not stop. -/
theorem guard_eq_ok_iff {p : Prop} [Decidable p] {e : ε} :
    (if p then throw e else pure () : Except ε Unit) = .ok () ↔ ¬ p := by
  split_ifs with hp
  · exact ⟨fun h => (by cases h), fun h => absurd hp h⟩
  · exact ⟨fun _ => hp, fun _ => rfl⟩

theorem map_eq_ok_iff {x : Except ε α} {f : α → β} {b : β} :
    x.map f = .ok b ↔ ∃ a, x = .ok a ∧ f a = b := by
  cases x with
  | error e => exact ⟨fun h => (by cases h), fun ⟨a, h, _⟩ => (by cases h)⟩
  | ok a =>
    exact ⟨fun h => ⟨a, rfl, Except.ok.inj h⟩, fun ⟨_, h, hb⟩ => by cases h; exact congrArg _ hb⟩

@[simp] theorem mapError_eq_ok_iff {x : Except ε α} {f : ε → ε'} {a : α} :
    x.mapError f = .ok a ↔ x = .ok a := by
  cases x with
  | error e => exact ⟨fun h => (by cases h), fun h => (by cases h)⟩
  | ok b => exact ⟨fun h => congrArg _ (Except.ok.inj h), fun h => congrArg _ (Except.ok.inj h)⟩

/-- **A loop that looks** succeeds just when every step does. -/
theorem forM_eq_ok_iff {xs : List α} {f : α → Except ε Unit} :
    xs.forM f = .ok () ↔ ∀ x ∈ xs, f x = .ok () := by
  induction xs with
  | nil => exact ⟨fun _ x hx => absurd hx List.not_mem_nil, fun _ => rfl⟩
  | cons x xs ih =>
    show (f x >>= fun _ => xs.forM f) = .ok () ↔ _
    rw [bind_eq_ok_iff, List.forall_mem_cons, ← ih]
    exact ⟨fun ⟨_, hx, hxs⟩ => ⟨hx, hxs⟩, fun ⟨hx, hxs⟩ => ⟨(), hx, hxs⟩⟩

/-- **The results of a traversal** are those of the steps: each item has its
result among them, and each of them is the result of an item. -/
theorem mapM_eq_ok {xs : List α} {f : α → Except ε β} {ys : List β} (h : xs.mapM f = .ok ys) :
    (∀ x ∈ xs, ∃ y ∈ ys, f x = .ok y) ∧ ∀ y ∈ ys, ∃ x ∈ xs, f x = .ok y := by
  induction xs generalizing ys with
  | nil =>
    obtain rfl : [] = ys := Except.ok.inj h
    exact ⟨fun x hx => absurd hx List.not_mem_nil, fun y hy => absurd hy List.not_mem_nil⟩
  | cons x xs ih =>
    rw [List.mapM_cons] at h
    obtain ⟨y, hy, hrest⟩ := bind_eq_ok_iff.mp h
    obtain ⟨zs, hzs, hpure⟩ := bind_eq_ok_iff.mp hrest
    obtain rfl : y :: zs = ys := Except.ok.inj hpure
    obtain ⟨hitems, hresults⟩ := ih hzs
    constructor
    · rw [List.forall_mem_cons]
      refine ⟨⟨y, List.mem_cons_self, hy⟩, fun w hw => ?_⟩
      obtain ⟨z, hz, hfz⟩ := hitems w hw
      exact ⟨z, List.mem_cons_of_mem y hz, hfz⟩
    · rw [List.forall_mem_cons]
      refine ⟨⟨x, List.mem_cons_self, hy⟩, fun z hz => ?_⟩
      obtain ⟨w, hw, hfw⟩ := hresults z hz
      exact ⟨w, List.mem_cons_of_mem x hw, hfw⟩

theorem exists_mapM_eq_ok {xs : List α} {f : α → Except ε β} (h : ∀ x ∈ xs, ∃ y, f x = .ok y) :
    ∃ ys, xs.mapM f = .ok ys := by
  induction xs with
  | nil => exact ⟨[], rfl⟩
  | cons x xs ih =>
    obtain ⟨y, hy⟩ := h x List.mem_cons_self
    obtain ⟨ys, hys⟩ := ih (fun z hz => h z (List.mem_cons_of_mem x hz))
    refine ⟨y :: ys, ?_⟩
    rw [List.mapM_cons, hy, hys]
    rfl

/-- Steps that agree on the items make the same traversal. -/
theorem mapM_congr {xs : List α} {f g : α → Except ε β} (h : ∀ x ∈ xs, f x = g x) :
    xs.mapM f = xs.mapM g := by
  induction xs with
  | nil => rfl
  | cons x xs ih =>
    rw [List.mapM_cons, List.mapM_cons, h x List.mem_cons_self,
      ih (fun y hy => h y (List.mem_cons_of_mem x hy))]

end Except

/-- **A program that stops at the first error**, with what it has done to the
state by then. -/
abbrev Stopping (ε σ α : Type) := ExceptT ε (StateM σ) α

namespace Stopping

variable {ε σ α β : Type}

/-- Run a program in a state. -/
def exec (program : Stopping ε σ α) (s : σ) : Except ε α × σ := Id.run (program.run.run s)

/-- A step that makes another state of the state, or fails and leaves it. -/
def update (f : σ → Except ε σ) : Stopping ε σ Unit :=
  ExceptT.mk (fun s => match f s with
    | .ok s' => (.ok (), s')
    | .error e => (.error e, s))

/-- A step that only looks. -/
def inspect (f : σ → Except ε Unit) : Stopping ε σ Unit := ExceptT.mk (fun s => (f s, s))

theorem exec_update_eq_ok_iff {f : σ → Except ε σ} {s s' : σ} :
    (update f).exec s = (.ok (), s') ↔ f s = .ok s' := by
  show (match f s with
    | .ok s' => ((.ok () : Except ε Unit), s')
    | .error e => (.error e, s)) = (.ok (), s') ↔ _
  cases f s with
  | error e => exact ⟨fun h => (by cases h), fun h => (by cases h)⟩
  | ok t =>
    exact ⟨fun h => congrArg _ (congrArg Prod.snd h), fun h => by rw [Except.ok.inj h]⟩

theorem exec_inspect_eq_ok_iff {f : σ → Except ε Unit} {s s' : σ} :
    (inspect f).exec s = (.ok (), s') ↔ f s = .ok () ∧ s = s' :=
  Prod.ext_iff

/-- **A run that succeeded comes apart at a bind.** -/
theorem exec_bind_eq_ok_iff {program : Stopping ε σ α} {next : α → Stopping ε σ β} {b : β}
    {s s' : σ} : (program >>= next).exec s = (.ok b, s')
      ↔ ∃ a t, program.exec s = (.ok a, t) ∧ (next a).exec t = (.ok b, s') := by
  have hbind : (program >>= next).exec s = match program.exec s with
      | (.ok a, t) => (next a).exec t
      | (.error e, t) => (.error e, t) := by
    simp only [exec, ExceptT.run_bind, StateT.run_bind, Id.run_bind]
    obtain ⟨result, t⟩ := (program.run.run s).run
    cases result <;> rfl
  rw [hbind]
  obtain ⟨result, t⟩ := program.exec s
  cases result with
  | error e => exact ⟨fun h => (by cases h), fun ⟨_, _, h, _⟩ => (by cases h)⟩
  | ok a => exact ⟨fun h => ⟨a, t, rfl, h⟩, fun ⟨_, _, h, hnext⟩ => by cases h; exact hnext⟩

/-- **The invariant of a loop.** It speaks of the items the loop has been
through, and of the state; the induction is on the items that are left. -/
theorem exec_forM_invariant {xs : List α} {f : α → Stopping ε σ Unit} {s s' : σ}
    (inv : List α → σ → Prop) (hstart : inv [] s)
    (hstep : ∀ past x rest t t', xs = past ++ x :: rest → inv past t →
      (f x).exec t = (.ok (), t') → inv (past ++ [x]) t')
    (h : (xs.forM f).exec s = (.ok (), s')) : inv xs s' := by
  have hrun : ∀ rest past t, xs = past ++ rest → inv past t →
      (rest.forM f).exec t = (.ok (), s') → inv xs s' := by
    intro rest
    induction rest with
    | nil =>
      intro past t hxs hpast hnil
      obtain rfl : t = s' := congrArg Prod.snd hnil
      rwa [hxs, List.append_nil]
    | cons x rest ih =>
      intro past t hxs hpast hcons
      obtain ⟨⟨⟩, t', hx, hrest⟩ := exec_bind_eq_ok_iff.mp hcons
      exact ih (past ++ [x]) t' (by rw [hxs, List.append_assoc]; rfl)
        (hstep past x rest t t' hxs hpast hx) hrest
  exact hrun xs [] s rfl hstart h

/-- A loop whose steps change nothing changes nothing. -/
theorem exec_forM_eq_self {xs : List α} {f : α → Stopping ε σ Unit} {s : σ}
    (h : ∀ x ∈ xs, (f x).exec s = (.ok (), s)) : (xs.forM f).exec s = (.ok (), s) := by
  induction xs with
  | nil => rfl
  | cons x xs ih =>
    refine exec_bind_eq_ok_iff.mpr ⟨(), s, h x List.mem_cons_self, ?_⟩
    exact ih (fun y hy => h y (List.mem_cons_of_mem x hy))

end Stopping
