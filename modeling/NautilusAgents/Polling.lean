import Mathlib

/-!
# Polled futures

A future is a state with a poll: each poll moves the state and says that the
future is still pending or that it is ready with a value, or it panics. What
drives a future polls it round by round until it is ready (`Future.drive`), and
the theory of it is about which round that is: the first one whose poll is not
pending (`Future.drive_eq_some_iff`, `Future.drive_eq_error_iff`).

Three combinators are described, and a future that needs no second round
(`Future.block`). `Future.catchUnwind` turns a panic into a value.
`Future.select` races two futures, the first of which is polled before the
second in every round, so that a tie is the first one's. `Future.awaiting` is an
asynchronous function with one await: it runs up to the await on its first poll,
where it may also return early, and it polls what it awaits in that round
already.
-/

/-- What polling a future returns. -/
inductive Poll (α : Type) where
  | pending
  | ready (value : α)
  deriving DecidableEq

/-- **A future**: a state, and a poll that moves it and may panic. -/
structure Future (σ ε α : Type) where
  /-- What a poll returns, and the state it leaves. -/
  poll : σ → Except ε (Poll α) × σ

namespace Future

variable {σ τ κ ε α β : Type}

/-! ## Rounds -/

/-- The state after some polls. -/
def after (f : Future σ ε α) (s : σ) : ℕ → σ
  | 0 => s
  | n + 1 => f.after (f.poll s).snd n

/-- What the poll of a round returns, the rounds counted from zero. -/
def pollAt (f : Future σ ε α) (s : σ) (n : ℕ) : Except ε (Poll α) := (f.poll (f.after s n)).fst

/-- **Drive a future** for at most `fuel` rounds: the value it is ready with,
or nothing where it is pending still. A panic ends the rounds. -/
def drive (f : Future σ ε α) : ℕ → σ → Except ε (Option α) × σ
  | 0, s => (.ok none, s)
  | fuel + 1, s =>
    match f.poll s with
    | (.ok .pending, s') => f.drive fuel s'
    | (.ok (.ready a), s') => (.ok (some a), s')
    | (.error e, s') => (.error e, s')

/-- A future is pending in every round before one. -/
def PendingUntil (f : Future σ ε α) (s : σ) (n : ℕ) : Prop :=
  ∀ m < n, f.pollAt s m = .ok .pending

theorem pendingUntil_zero (f : Future σ ε α) (s : σ) : f.PendingUntil s 0 :=
  fun m hm => (Nat.not_lt_zero m hm).elim

theorem pendingUntil_succ_iff {f : Future σ ε α} {s : σ} {n : ℕ} :
    f.PendingUntil s (n + 1) ↔
      (f.poll s).fst = .ok .pending ∧ f.PendingUntil (f.poll s).snd n := by
  constructor
  · intro h
    exact ⟨h 0 (Nat.succ_pos n), fun m hm => h (m + 1) (Nat.succ_lt_succ hm)⟩
  · rintro ⟨h0, h⟩ m hm
    cases m with
    | zero => exact h0
    | succ m => exact h m (Nat.lt_of_succ_lt_succ hm)

/-- A condition on the first round that is not pending is one on the first
round, or on a later one. -/
theorem exists_round_iff {f : Future σ ε α} {s : σ} {fuel : ℕ}
    (q : Except ε (Poll α) → Prop) :
    (∃ n < fuel + 1, f.PendingUntil s n ∧ q (f.pollAt s n)) ↔
      q (f.poll s).fst ∨ (f.poll s).fst = .ok .pending ∧
        ∃ n < fuel, f.PendingUntil (f.poll s).snd n ∧ q (f.pollAt (f.poll s).snd n) := by
  constructor
  · rintro ⟨n, hn, hpending, hq⟩
    cases n with
    | zero => exact Or.inl hq
    | succ n =>
      obtain ⟨h0, hrest⟩ := pendingUntil_succ_iff.mp hpending
      exact Or.inr ⟨h0, n, Nat.lt_of_succ_lt_succ hn, hrest, hq⟩
  · rintro (hq | ⟨h0, n, hn, hrest, hq⟩)
    · exact ⟨0, Nat.succ_pos fuel, f.pendingUntil_zero s, hq⟩
    · exact ⟨n + 1, Nat.succ_lt_succ hn, pendingUntil_succ_iff.mpr ⟨h0, hrest⟩, hq⟩

/-- **Driving returns what the first round returns that is not pending.** -/
theorem drive_eq_some_iff {f : Future σ ε α} {s : σ} {fuel : ℕ} {a : α} :
    (f.drive fuel s).fst = .ok (some a) ↔
      ∃ n < fuel, f.PendingUntil s n ∧ f.pollAt s n = .ok (.ready a) := by
  induction fuel generalizing s with
  | zero =>
    constructor
    · intro h
      cases h
    · rintro ⟨n, hn, -⟩
      cases hn
  | succ fuel ih =>
    rw [exists_round_iff (fun r => r = .ok (.ready a)), ← ih, drive]
    rcases f.poll s with ⟨_ | _ | b, s'⟩ <;> simp

/-- **Driving panics where the first round does that is not pending.** -/
theorem drive_eq_error_iff {f : Future σ ε α} {s : σ} {fuel : ℕ} {e : ε} :
    (f.drive fuel s).fst = .error e ↔
      ∃ n < fuel, f.PendingUntil s n ∧ f.pollAt s n = .error e := by
  induction fuel generalizing s with
  | zero =>
    constructor
    · intro h
      cases h
    · rintro ⟨n, hn, -⟩
      cases hn
  | succ fuel ih =>
    rw [exists_round_iff (fun r => r = .error e), ← ih, drive]
    rcases f.poll s with ⟨_ | _ | b, s'⟩ <;> simp

/-! ## Panics as values -/

/-- What a poll returns once a panic in it is a value. -/
def caught : Except ε (Poll α) → Poll (Except ε α)
  | .ok .pending => .pending
  | .ok (.ready a) => .ready (.ok a)
  | .error e => .ready (.error e)

theorem caught_eq_pending_iff {r : Except ε (Poll α)} :
    caught r = .pending ↔ r = .ok .pending := by
  rcases r with _ | _ | a <;> simp [caught]

/-- **Catch the panics of a future.** -/
def catchUnwind (ε' : Type) (f : Future σ ε α) : Future σ ε' (Except ε α) :=
  ⟨fun s => (.ok (caught (f.poll s).fst), (f.poll s).snd)⟩

variable {ε' : Type}

theorem after_catchUnwind (f : Future σ ε α) (s : σ) (n : ℕ) :
    (f.catchUnwind ε').after s n = f.after s n := by
  induction n generalizing s with
  | zero => rfl
  | succ n ih => exact ih _

theorem pollAt_catchUnwind (f : Future σ ε α) (s : σ) (n : ℕ) :
    (f.catchUnwind ε').pollAt s n = .ok (caught (f.pollAt s n)) := by
  unfold pollAt
  rw [after_catchUnwind]
  rfl

/-! ## Races -/

/-- **Race two futures**: in every round the second is polled only where the
first is pending. -/
def select (f : Future σ ε α) (g : Future τ ε β) : Future (σ × τ) ε (α ⊕ β) where
  poll s :=
    match f.poll s.fst with
    | (.ok (.ready a), s') => (.ok (.ready (.inl a)), (s', s.snd))
    | (.error e, s') => (.error e, (s', s.snd))
    | (.ok .pending, s') =>
      match g.poll s.snd with
      | (.ok (.ready b), t') => (.ok (.ready (.inr b)), (s', t'))
      | (.error e, t') => (.error e, (s', t'))
      | (.ok .pending, t') => (.ok .pending, (s', t'))

/-- What a round of a race returns, by what its two polls return. -/
def raced : Except ε (Poll α) → Except ε (Poll β) → Except ε (Poll (α ⊕ β))
  | .ok (.ready a), _ => .ok (.ready (.inl a))
  | .error e, _ => .error e
  | .ok .pending, .ok (.ready b) => .ok (.ready (.inr b))
  | .ok .pending, .error e => .error e
  | .ok .pending, .ok .pending => .ok .pending

theorem poll_select_fst (f : Future σ ε α) (g : Future τ ε β) (s : σ × τ) :
    ((f.select g).poll s).fst = raced (f.poll s.fst).fst (g.poll s.snd).fst := by
  unfold select
  rcases hf : f.poll s.fst with ⟨_ | _ | a, s'⟩ <;>
    rcases hg : g.poll s.snd with ⟨_ | _ | b, t'⟩ <;> simp [raced, hf, hg]

theorem poll_select_snd_of_pending {f : Future σ ε α} {g : Future τ ε β} {s : σ × τ}
    (h : ((f.select g).poll s).fst = .ok .pending) :
    ((f.select g).poll s).snd = ((f.poll s.fst).snd, (g.poll s.snd).snd) := by
  unfold select at h ⊢
  rcases hf : f.poll s.fst with ⟨_ | _ | a, s'⟩ <;>
    rcases hg : g.poll s.snd with ⟨_ | _ | b, t'⟩ <;> simp [hf, hg] at h ⊢

theorem raced_eq_pending_iff {r : Except ε (Poll α)} {r' : Except ε (Poll β)} :
    raced r r' = .ok .pending ↔ r = .ok .pending ∧ r' = .ok .pending := by
  rcases r with _ | _ | a <;> rcases r' with _ | _ | b <;> simp [raced]

/-- **Until the race is over, both futures have been polled in every round.** -/
theorem pendingUntil_select_iff {f : Future σ ε α} {g : Future τ ε β} {s : σ} {t : τ} {n : ℕ} :
    (f.select g).PendingUntil (s, t) n ↔ f.PendingUntil s n ∧ g.PendingUntil t n := by
  induction n generalizing s t with
  | zero =>
    exact iff_of_true (pendingUntil_zero _ _) ⟨pendingUntil_zero f s, pendingUntil_zero g t⟩
  | succ n ih =>
    have h0 : ((f.select g).poll (s, t)).fst = .ok .pending ↔
        (f.poll s).fst = .ok .pending ∧ (g.poll t).fst = .ok .pending := by
      rw [poll_select_fst, raced_eq_pending_iff]
    rw [pendingUntil_succ_iff, pendingUntil_succ_iff, pendingUntil_succ_iff, and_and_and_comm, ← h0]
    refine and_congr_right (fun hpending => ?_)
    rw [poll_select_snd_of_pending hpending]
    exact ih

theorem after_select {f : Future σ ε α} {g : Future τ ε β} {s : σ} {t : τ} {n : ℕ}
    (h : (f.select g).PendingUntil (s, t) n) :
    (f.select g).after (s, t) n = (f.after s n, g.after t n) := by
  induction n generalizing s t with
  | zero => rfl
  | succ n ih =>
    obtain ⟨h0, hrest⟩ := pendingUntil_succ_iff.mp h
    unfold after
    have hstate := poll_select_snd_of_pending h0
    rw [hstate] at hrest ⊢
    exact ih hrest

/-- **The round that ends a race** is decided by its two polls. -/
theorem pollAt_select {f : Future σ ε α} {g : Future τ ε β} {s : σ} {t : τ} {n : ℕ}
    (h : (f.select g).PendingUntil (s, t) n) :
    (f.select g).pollAt (s, t) n = raced (f.pollAt s n) (g.pollAt t n) := by
  unfold pollAt
  rw [poll_select_fst, after_select h]

/-! ## Asynchronous functions -/

/-- Where an asynchronous function with one await stands: not started, at the
await with its locals and the future it awaits, or returned, with what became
of that future if it got that far. -/
inductive Async (κ σ : Type) where
  | unresumed
  | suspended (locals : κ) (awaited : σ)
  | returned (awaited : Option σ)

/-- Resume an asynchronous function at its await. -/
def resume (f : Future σ ε α) (finish : κ → α → β) (locals : κ) (awaited : σ) :
    Except ε (Poll β) × Async κ σ :=
  match f.poll awaited with
  | (.ok .pending, awaited) => (.ok .pending, .suspended locals awaited)
  | (.ok (.ready a), awaited) => (.ok (.ready (finish locals a)), .returned (some awaited))
  | (.error e, awaited) => (.error e, .returned (some awaited))

/-- **An asynchronous function with one await.** The start either returns early
or comes with locals to the future it awaits; the finish makes the result from
the locals and what the await gives. Polled again after it has returned, it
panics. -/
def awaiting (start : β ⊕ κ × σ) (f : Future σ ε α) (finish : κ → α → β) (resumed : ε) :
    Future (Async κ σ) ε β where
  poll
    | .unresumed =>
      match start with
      | .inl b => (.ok (.ready b), .returned none)
      | .inr (locals, awaited) => resume f finish locals awaited
    | .suspended locals awaited => resume f finish locals awaited
    | .returned awaited => (.error resumed, .returned awaited)

variable {f : Future σ ε α} {finish : κ → α → β} {resumed : ε}

theorem map_eq_some_iff {r : Except ε (Option α)} {g : α → β} {b : β} :
    r.map (Option.map g) = .ok (some b) ↔ ∃ a, r = .ok (some a) ∧ g a = b := by
  rcases r with e | _ | a <;> simp [Except.map]

theorem map_eq_error_iff {r : Except ε (Option α)} {g : α → β} {e : ε} :
    r.map (Option.map g) = .error e ↔ r = .error e := by
  rcases r with e' | _ | a <;> simp [Except.map]

theorem drive_suspended (start : β ⊕ κ × σ) (locals : κ) (s : σ) (fuel : ℕ) :
    ((awaiting start f finish resumed).drive fuel (.suspended locals s)).fst
      = (f.drive fuel s).fst.map (Option.map (finish locals)) := by
  induction fuel generalizing s with
  | zero => rfl
  | succ fuel ih =>
    have hpoll : (awaiting start f finish resumed).poll (.suspended locals s)
        = resume f finish locals s := rfl
    rw [drive, drive, hpoll]
    unfold resume
    rcases f.poll s with ⟨_ | _ | a, s'⟩
    · rfl
    · exact ih s'
    · rfl

/-- **Otherwise the function takes the rounds of what it awaits.** -/
theorem drive_awaiting (locals : κ) (s : σ) (fuel : ℕ) :
    ((awaiting (.inr (locals, s)) f finish resumed).drive fuel .unresumed).fst
      = (f.drive fuel s).fst.map (Option.map (finish locals)) := by
  rw [← drive_suspended (.inr (locals, s))]
  cases fuel with
  | zero => rfl
  | succ fuel => rfl

/-! ## Blocks without an await -/

/-- **An asynchronous block without an await**: its first poll runs it to its
end, and then there is nothing left of it. Polled again, it panics. -/
def block (resumed : ε) : Future (Option (Except ε α)) ε α where
  poll
    | some result => (result.map .ready, none)
    | none => (.error resumed, none)

end Future
